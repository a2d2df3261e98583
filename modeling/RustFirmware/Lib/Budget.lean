/-
  RustFirmware.Lib.Budget
  ───────────────────────
  **MACHINES WITH FREE AND PAID STEPS.**

  A free step makes the state smaller; a paid one may make it larger, but there is only a
  budget for so many of them.  So every run ends, and how it ends is said by the states
  that it goes through: `run_ends`.  The budget shows in the result only where a step
  could not be paid for any more: `run_exhausted_iff`, `run_of_more`.
-/
import Mathlib.Tactic.Common

namespace RustFirmware.Lib

/-- What is to be done in a state. -/
inductive Move (σ τ α : Type) where
  | done (result : α)
  | free (next : σ)
  | paid (step : τ)

/-- A machine: `pay` makes a step that is not free, `exhausted` is the error where that is
    not allowed. -/
structure Machine (ε σ τ α : Type) where
  look      : σ → Except ε (Move σ τ α)
  pay       : τ → Except ε σ
  exhausted : ε
  size      : σ → Nat
  shrinks   : ∀ {s s' : σ}, look s = .ok (.free s') → size s' < size s

namespace Machine

variable {ε σ τ α : Type} (m : Machine ε σ τ α)

/-- The result with `budget` paid steps. -/
def run (budget : Nat) (s : σ) : Except ε α :=
  match _hlook : m.look s with
  | .error e => .error e
  | .ok (.done result) => .ok result
  | .ok (.free next) => run budget next
  | .ok (.paid step) =>
      match budget with
      | 0 => .error m.exhausted
      | budget + 1 =>
          match m.pay step with
          | .error e => .error e
          | .ok next => run budget next
termination_by (budget, m.size s)
decreasing_by
  · exact Prod.Lex.right budget (m.shrinks _hlook)
  · exact Prod.Lex.left _ _ (Nat.lt_succ_self _)

variable {m}

theorem run_error {budget : Nat} {s : σ} {e : ε} (h : m.look s = .error e) :
    m.run budget s = .error e := by
  rw [run]
  grind

theorem run_done {budget : Nat} {s : σ} {result : α} (h : m.look s = .ok (.done result)) :
    m.run budget s = .ok result := by
  rw [run]
  grind

theorem run_free {budget : Nat} {s next : σ} (h : m.look s = .ok (.free next)) :
    m.run budget s = m.run budget next := by
  rw [run]
  grind

theorem run_unpaid {s : σ} {step : τ} (h : m.look s = .ok (.paid step)) :
    m.run 0 s = .error m.exhausted := by
  rw [run]
  grind

theorem run_paid {budget : Nat} {s : σ} {step : τ} (h : m.look s = .ok (.paid step)) :
    m.run (budget + 1) s = m.pay step >>= m.run budget := by
  rw [run]
  split
  · grind
  · grind
  · grind
  -- only here does the budget go down, so `run` has to be unfolded by hand
  · next step' h' =>
      have hstep : step' = step := by grind
      subst hstep
      cases m.pay step' <;> rfl

/-- Induction on the budget and, below it, on the size of the state. -/
theorem induct {motive : Nat → σ → Prop}
    (h : ∀ budget s, (∀ s', m.look s = .ok (.free s') → motive budget s') →
      (∀ less < budget, ∀ s', motive less s') → motive budget s) (budget : Nat) (s : σ) :
    motive budget s := by
  -- a paid step leaves less of the budget, whatever size it leaves
  induction budget using Nat.strongRecOn generalizing s with
  | ind budget ihBudget =>
      induction hsize : m.size s using Nat.strongRecOn generalizing s with
      | ind size ihSize =>
          subst hsize
          exact h budget s (fun s' hfree => ihSize _ (m.shrinks hfree) s' rfl) ihBudget

/-! ## §1. Where a run goes, and how it ends. -/

variable (m)

/-- From one state to another with `n` paid steps. -/
inductive Steps : (n : Nat) → σ → σ → Prop where
  | refl (s : σ) : Steps 0 s s
  | free {n : Nat} {s next s' : σ} (hlook : m.look s = .ok (.free next)) (h : Steps n next s') :
      Steps n s s'
  | paid {n : Nat} {s next s' : σ} {step : τ} (hlook : m.look s = .ok (.paid step))
      (hpay : m.pay step = .ok next) (h : Steps n next s') : Steps (n + 1) s s'

/-- A run ends in a state, where `left` more steps could be paid for. -/
inductive Ends : (left : Nat) → σ → Except ε α → Prop where
  | error {left : Nat} {s : σ} {e : ε} (hlook : m.look s = .error e) : Ends left s (.error e)
  | done {left : Nat} {s : σ} {result : α} (hlook : m.look s = .ok (.done result)) :
      Ends left s (.ok result)
  | unpaid {s : σ} {step : τ} (hlook : m.look s = .ok (.paid step)) : Ends 0 s (.error m.exhausted)
  | refused {left : Nat} {s : σ} {step : τ} {e : ε} (hlook : m.look s = .ok (.paid step))
      (hpay : m.pay step = .error e) : Ends (left + 1) s (.error e)

variable {m}

/-- A run goes on from every state that it goes through. -/
theorem Steps.run {n : Nat} {s s' : σ} (h : m.Steps n s s') (left : Nat) :
    m.run (n + left) s = m.run left s' := by
  induction h with
  | refl s => rw [Nat.zero_add]
  | free hlook _ ih => rw [run_free hlook, ih]
  | @paid n s next s' step hlook hpay _ ih =>
      rw [Nat.succ_add, run_paid hlook, hpay]
      exact ih

theorem Ends.run {left : Nat} {s : σ} {result : Except ε α} (h : m.Ends left s result) :
    m.run left s = result := by
  cases h with
  | error hlook => exact run_error hlook
  | done hlook => exact run_done hlook
  | unpaid hlook => exact run_unpaid hlook
  | refused hlook hpay =>
      rw [run_paid hlook, hpay]
      rfl

/-- **Every run ends**, and pays for no more steps than its budget allows. -/
theorem run_ends (budget : Nat) (s : σ) :
    ∃ n s', n ≤ budget ∧ m.Steps n s s' ∧ m.Ends (budget - n) s' (m.run budget s) := by
  -- a free step keeps the budget, so its case shows the same number of paid steps
  induction budget, s using m.induct with
  | h budget s ihFree ihPaid =>
      cases hlook : m.look s with
      | error e =>
          refine ⟨0, s, Nat.zero_le _, .refl s, ?_⟩
          rw [run_error hlook]
          exact .error hlook
      | ok move =>
          cases move with
          | done result =>
              refine ⟨0, s, Nat.zero_le _, .refl s, ?_⟩
              rw [run_done hlook]
              exact .done hlook
          | free next =>
              obtain ⟨n, s', hn, hsteps, hends⟩ := ihFree next hlook
              refine ⟨n, s', hn, .free hlook hsteps, ?_⟩
              rw [run_free hlook]
              exact hends
          | paid step =>
              cases budget with
              | zero =>
                  refine ⟨0, s, Nat.le_refl 0, .refl s, ?_⟩
                  rw [run_unpaid hlook]
                  exact .unpaid hlook
              | succ budget =>
                  cases hpay : m.pay step with
                  | error e =>
                      refine ⟨0, s, Nat.zero_le _, .refl s, ?_⟩
                      rw [run_paid hlook, hpay]
                      exact .refused hlook hpay
                  | ok next =>
                      obtain ⟨n, s', hn, hsteps, hends⟩ := ihPaid budget (Nat.lt_succ_self _) next
                      refine ⟨n + 1, s', Nat.succ_le_succ hn, .paid hlook hpay hsteps, ?_⟩
                      rw [run_paid hlook, hpay, Nat.add_sub_add_right]
                      exact hends

/-! ## §2. What the budget changes. -/

/-- **The budget is exhausted exactly by a run with all its steps paid that comes to one
    more.** -/
theorem run_exhausted_iff (hlook : ∀ s, m.look s ≠ .error m.exhausted)
    (hpay : ∀ step, m.pay step ≠ .error m.exhausted) {budget : Nat} {s : σ} :
    m.run budget s = .error m.exhausted
      ↔ ∃ s' step, m.Steps budget s s' ∧ m.look s' = .ok (.paid step) := by
  constructor
  · intro hrun
    obtain ⟨n, s', hn, hsteps, hends⟩ := m.run_ends budget s
    rw [hrun] at hends
    -- of the four ways to end only the unpaid one has this error, and it has nothing left
    generalize hleft : budget - n = left at hends
    cases hends with
    | error herror => exact absurd herror (hlook s')
    | @unpaid _ step hpaid =>
        have hall : n = budget := by omega
        subst hall
        exact ⟨s', step, hsteps, hpaid⟩
    | refused _ hrefused => exact absurd hrefused (hpay _)
  · rintro ⟨s', step, hsteps, hpaid⟩
    have hrun := hsteps.run 0
    rw [Nat.add_zero, run_unpaid hpaid] at hrun
    exact hrun

theorem Ends.more {left left' : Nat} {s : σ} {result : Except ε α} (h : m.Ends left s result)
    (hresult : result ≠ .error m.exhausted) (hle : left ≤ left') : m.Ends left' s result := by
  cases h with
  | error hlook => exact .error hlook
  | done hlook => exact .done hlook
  | unpaid => exact absurd rfl hresult
  | refused hlook hpay =>
      obtain ⟨less, rfl⟩ : ∃ less, left' = less + 1 := ⟨left' - 1, by omega⟩
      exact .refused hlook hpay

/-- **A larger budget changes no other result.** -/
theorem run_of_more {budget budget' : Nat} {s : σ} (h : m.run budget s ≠ .error m.exhausted)
    (hle : budget ≤ budget') : m.run budget' s = m.run budget s := by
  obtain ⟨n, s', hn, hsteps, hends⟩ := m.run_ends budget s
  -- the larger run goes the same way and ends in the same state, with more left over
  have hmore := (hends.more h (Nat.sub_le_sub_right hle n)).run
  have hrun := hsteps.run (budget' - n)
  rw [Nat.add_sub_cancel' (Nat.le_trans hn hle), hmore] at hrun
  exact hrun

/-! ## §3. Two runs side by side. -/

/-- **A run followed by another one**, until a step of the other is refused with `e`. -/
theorem Steps.followed {R : σ → σ → Prop} {e : ε}
    (hfree : ∀ {s t next}, R s t → m.look s = .ok (.free next) →
      ∃ next', m.look t = .ok (.free next') ∧ R next next')
    (hpaid : ∀ {s t step next}, R s t → m.look s = .ok (.paid step) → m.pay step = .ok next →
      ∃ step', m.look t = .ok (.paid step')
        ∧ (m.pay step' = .error e ∨ ∃ next', m.pay step' = .ok next' ∧ R next next'))
    {n : Nat} {s s' t : σ} (h : m.Steps n s s') (hR : R s t) (left : Nat) :
    m.run (n + left) t = .error e ∨ ∃ t', R s' t' ∧ m.run (n + left) t = m.run left t' := by
  induction h generalizing t with
  | refl s =>
      rw [Nat.zero_add]
      exact .inr ⟨t, hR, rfl⟩
  | free hlook _ ih =>
      obtain ⟨next', hnext, hR'⟩ := hfree hR hlook
      rw [run_free hnext]
      exact ih hR'
  | paid hlook hpay _ ih =>
      obtain ⟨step', hstep, hafter⟩ := hpaid hR hlook hpay
      rw [Nat.succ_add, run_paid hstep]
      -- a refused step ends the other run here, whatever the first one does later
      cases hafter with
      | inl hrefused =>
          rw [hrefused]
          exact .inl rfl
      | inr hgoes =>
          obtain ⟨next', hnext, hR'⟩ := hgoes
          rw [hnext]
          exact ih hR'

end Machine

end RustFirmware.Lib
