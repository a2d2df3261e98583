/-
  RustFirmware.Lib.Loop
  ─────────────────────
  **COUNTED LOOPS THAT MAY FAIL.**

  `forCount body todo i s` runs `body` for the indices `i, i + 1, …` until `todo` of
  them are done or one fails.  A loop is understood by how it ends: `forCount_ok` and
  `forCount_error` say which passes were made, `forCount_invariant` is the rule for
  what every pass preserves.
-/
import RustFirmware.Lib.Word
import Mathlib.Tactic.Common

namespace RustFirmware.Lib

variable {ε σ : Type}

/-- `todo` passes of `body`, from index `i` on. -/
def forCount (body : Nat → σ → Except ε σ) : (todo i : Nat) → σ → Except ε σ
  | 0, _, s => .ok s
  | todo + 1, i, s => body i s >>= forCount body todo (i + 1)

variable {body : Nat → σ → Except ε σ}

/-- The last pass of a loop. -/
theorem forCount_succ_last {todo i : Nat} {s : σ} :
    forCount body (todo + 1) i s = forCount body todo i s >>= body (i + todo) := by
  induction todo generalizing i s with
  | zero =>
      show body i s >>= forCount body 0 (i + 1) = body i s
      cases body i s <;> rfl
  | succ todo ih =>
      show body i s >>= forCount body (todo + 1) (i + 1)
        = (body i s >>= forCount body todo (i + 1)) >>= body (i + (todo + 1))
      cases body i s with
      | error e => rfl
      | ok s₁ =>
          show forCount body (todo + 1) (i + 1) s₁ = _
          rw [ih, Nat.add_right_comm i 1 todo]
          rfl

/-- **The rule for what every pass preserves.** -/
theorem forCount_invariant (Inv : Nat → σ → Prop) {todo i : Nat} {s s' : σ}
    (hstep : ∀ j < todo, ∀ s s', Inv (i + j) s → body (i + j) s = .ok s' → Inv (i + j + 1) s')
    (hs : Inv i s) (h : forCount body todo i s = .ok s') : Inv (i + todo) s' := by
  induction todo generalizing s' with
  | zero =>
      cases h
      exact hs
  | succ todo ih =>
      rw [forCount_succ_last] at h
      obtain ⟨s₁, hs₁, hlast⟩ := bind_eq_ok.mp h
      have hinv := ih (fun j hj => hstep j (Nat.lt_succ_of_lt hj)) hs₁
      exact hstep todo (Nat.lt_succ_self todo) s₁ s' hinv hlast

/-- **A loop fails in one of its passes**, and the passes before it were made. -/
theorem forCount_error {todo i : Nat} {s : σ} {e : ε} :
    forCount body todo i s = .error e
      ↔ ∃ j < todo, ∃ s₁, forCount body j i s = .ok s₁ ∧ body (i + j) s₁ = .error e := by
  induction todo with
  | zero =>
      constructor
      · intro h
        cases h
      · rintro ⟨j, hj, -⟩
        exact absurd hj (Nat.not_lt_zero j)
  | succ todo ih =>
      rw [forCount_succ_last]
      constructor
      · intro h
        cases hmade : forCount body todo i s with
        | error e' =>
            rw [hmade] at h
            cases h
            obtain ⟨j, hj, hrest⟩ := ih.mp hmade
            exact ⟨j, Nat.lt_succ_of_lt hj, hrest⟩
        | ok s₁ =>
            rw [hmade] at h
            exact ⟨todo, Nat.lt_succ_self todo, s₁, hmade, h⟩
      · rintro ⟨j, hj, s₁, hmade, hfails⟩
        obtain hlast | hearlier := Nat.lt_succ_iff_lt_or_eq.mp hj |>.symm
        · subst hlast
          rw [hmade]
          exact hfails
        · rw [ih.mpr ⟨j, hearlier, s₁, hmade, hfails⟩]
          rfl

/-- **More answers from the body, more answers from the loop**: `e` stands for a body that
    has given up. -/
theorem forCount_mono {body' : Nat → σ → Except ε σ} {e : ε}
    (hbody : ∀ i s r, body i s = r → r ≠ .error e → body' i s = r) {todo i : Nat} {s : σ}
    {r : Except ε σ} (h : forCount body todo i s = r) (hr : r ≠ .error e) :
    forCount body' todo i s = r := by
  induction todo generalizing i s with
  | zero => exact h
  | succ todo ih =>
      show body' i s >>= forCount body' todo (i + 1) = r
      cases hpass : body i s with
      | ok s₁ =>
          rw [hbody i s _ hpass (by simp)]
          refine ih (?_ : forCount body todo (i + 1) s₁ = r)
          rw [← h, forCount, hpass]
          rfl
      | error e' =>
          have hfails : r = .error e' := by
            rw [← h, forCount, hpass]
            rfl
          subst hfails
          have hkeep : (Except.error e' : Except ε σ) ≠ .error e := hr
          rw [hbody i s _ hpass hkeep]
          rfl

end RustFirmware.Lib
