/-
  RustFirmware.Lib.Attempts
  ─────────────────────────
  **TRYING ONE AFTER THE OTHER UNTIL ONE SUCCEEDS.**

  An attempt that fails may leave its traces in the state that the next one starts from.
  Where an invariant of the states decides which attempts succeed, these traces do not
  matter: the first good one is the one that succeeds (`attempts_find`).
-/
import Mathlib.Data.List.Basic

namespace RustFirmware.Lib

variable {α β σ : Type}

/-- Each of `xs` is tried in the state that the one before it leaves, up to the first
    success. -/
def attempts (attempt : α → σ → Option β × σ) : List α → σ → Option β × σ
  | [], s => (none, s)
  | x :: xs, s =>
      match attempt x s with
      | (some b, s) => (some b, s)
      | (none, s)   => attempts attempt xs s

section Attempts

variable {attempt : α → σ → Option β × σ} {inv : σ → Prop}

/-- A list is tried piece by piece. -/
theorem attempts_append (xs ys : List α) (s : σ) :
    attempts attempt (xs ++ ys) s
      = match attempts attempt xs s with
        | (some b, s) => (some b, s)
        | (none, s)   => attempts attempt ys s := by
  induction xs generalizing s with
  | nil => rfl
  | cons x xs ih =>
      simp only [List.cons_append, attempts]
      cases attempt x s with
      | mk result s' =>
          cases result with
          | some b => rfl
          | none => exact ih s'

/-- What every attempt keeps, all of them keep. -/
theorem attempts_keeps (hkeeps : ∀ x s, inv s → inv (attempt x s).2) (xs : List α) {s : σ}
    (h : inv s) : inv (attempts attempt xs s).2 := by
  induction xs generalizing s with
  | nil => exact h
  | cons x xs ih =>
      have hstep := hkeeps x s h
      unfold attempts
      revert hstep
      cases attempt x s with
      | mk result s' =>
          intro hstep
          cases result with
          | some b => exact hstep
          | none => exact ih hstep

/-- **The first good one succeeds**, in a state that still has the invariant; without a
    good one there is no success. -/
theorem attempts_find {good : α → Bool} (hkeeps : ∀ x s, inv s → inv (attempt x s).2)
    (hgood : ∀ x s, inv s → (attempt x s).1.isSome = good x) (xs : List α) {s : σ} (h : inv s) :
    (∀ x, xs.find? good = some x → ∃ s', inv s' ∧ attempts attempt xs s = attempt x s')
      ∧ (xs.find? good = none → (attempts attempt xs s).1 = none) := by
  induction xs generalizing s with
  | nil => exact ⟨fun x hx => (by cases hx), fun _ => rfl⟩
  | cons x xs ih =>
      have hresult := hgood x s h
      have hstep := hkeeps x s h
      unfold attempts
      rw [List.find?_cons]
      cases hrun : attempt x s with
      | mk result s' =>
          rw [hrun] at hresult hstep
          cases result with
          | some b =>
              have hx : good x = true := hresult.symm
              rw [hx]
              refine ⟨fun y hy => ?_, fun hnone => (by cases hnone)⟩
              cases hy
              exact ⟨s, h, hrun.symm⟩
          | none =>
              have hx : good x = false := hresult.symm
              rw [hx]
              exact ih hstep

end Attempts

end RustFirmware.Lib
