/-
  RustFirmware.Lib.Transition
  ───────────────────────────
  **RUNS OF A PARTIAL STEP FUNCTION.**

  A system is a step function that may refuse an action.  A run is a list of
  actions; `Along` says that every action meets a condition in the state it is
  taken in.  The induction over runs is done once here (`run_invariant`).
-/
import Mathlib.Data.List.Basic

namespace RustFirmware.Lib

variable {σ α : Type} (step : σ → α → Option σ)

/-- The state after a list of actions, if each of them is possible. -/
def run : σ → List α → Option σ
  | s, [] => some s
  | s, a :: as => (step s a).bind (fun s' => run s' as)

/-- Every action of the run meets `ok` in the state before it. -/
def Along (ok : σ → α → Prop) : σ → List α → Prop
  | _, [] => True
  | s, a :: as => ok s a ∧ ∀ s', step s a = some s' → Along ok s' as

theorem run_append (s : σ) (as bs : List α) :
    run step s (as ++ bs) = (run step s as).bind (fun s' => run step s' bs) := by
  induction as generalizing s with
  | nil => rfl
  | cons a as ih =>
      show (step s a).bind (fun s' => run step s' (as ++ bs)) = _
      rw [run, Option.bind_assoc]
      congr 1
      funext s'
      exact ih s'

/-- **The invariant rule**: what every allowed step preserves holds at the end of
    every run whose steps are all allowed. -/
theorem run_invariant {ok : σ → α → Prop} {Inv : σ → Prop}
    (hstep : ∀ s a s', Inv s → ok s a → step s a = some s' → Inv s') {s s' : σ} {as : List α}
    (hs : Inv s) (hok : Along step ok s as) (hrun : run step s as = some s') : Inv s' := by
  induction as generalizing s with
  | nil =>
      obtain rfl := Option.some.inj hrun
      exact hs
  | cons a as ih =>
      obtain ⟨s₁, hs₁, hrest⟩ := Option.bind_eq_some_iff.mp hrun
      exact ih (hstep s a s₁ hs hok.1 hs₁) (hok.2 s₁ hs₁) hrest

theorem along_of_forall {ok : σ → α → Prop} {as : List α} (h : ∀ a ∈ as, ∀ s, ok s a) (s : σ) :
    Along step ok s as := by
  induction as generalizing s with
  | nil => exact trivial
  | cons a as ih =>
      exact ⟨h a List.mem_cons_self s, fun s' _ => ih (fun b hb => h b (List.mem_cons_of_mem _ hb)) s'⟩

/-- **The simulation rule**: where every allowed step of one system is matched by an allowed
    step of another with the same action, so is every run. -/
theorem run_simulation {τ : Type} {step' : τ → α → Option τ} {ok : σ → α → Prop}
    (ok' : τ → α → Prop) (R : σ → τ → Prop)
    (hstep : ∀ s t a s', R s t → ok s a → step s a = some s' →
      ok' t a ∧ ∃ t', step' t a = some t' ∧ R s' t')
    {s s' : σ} {t : τ} {as : List α} (hst : R s t) (hok : Along step ok s as)
    (hrun : run step s as = some s') :
    Along step' ok' t as ∧ ∃ t', run step' t as = some t' ∧ R s' t' := by
  induction as generalizing s t with
  | nil =>
      obtain rfl := Option.some.inj hrun
      exact ⟨trivial, t, rfl, hst⟩
  | cons a as ih =>
      obtain ⟨s₁, hs₁, hrest⟩ := Option.bind_eq_some_iff.mp hrun
      obtain ⟨hallowed, t₁, ht₁, hst₁⟩ := hstep s t a s₁ hst hok.1 hs₁
      obtain ⟨halong, t', ht', hst'⟩ := ih hst₁ (hok.2 s₁ hs₁) hrest
      refine ⟨⟨hallowed, ?_⟩, t', ?_, hst'⟩
      · intro t₂ ht₂
        obtain rfl := Option.some.inj (ht₁.symm.trans ht₂)
        exact halong
      · show (step' t a).bind _ = _
        rw [ht₁]
        exact ht'

end RustFirmware.Lib
