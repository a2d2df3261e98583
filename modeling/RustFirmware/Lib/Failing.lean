/-
  RustFirmware.Lib.Failing
  ────────────────────────
  **WHICH ERRORS A PROGRAM CAN GIVE.**

  `FailsIn P x`: if `x` fails, its error is in `P`.  A sequence fails in `P` if its parts
  do, so a set of errors is followed through a program by its syntax.
-/
import RustFirmware.Lib.Loop

namespace RustFirmware.Lib

variable {ε α β σ : Type} {P : ε → Prop}

/-- If `x` fails, its error is in `P`. -/
def FailsIn (P : ε → Prop) (x : Except ε α) : Prop := ∀ e, x = .error e → P e

namespace FailsIn

theorem ok (a : α) : FailsIn P (.ok a : Except ε α) := by
  intro e h
  cases h

theorem error {e : ε} (he : P e) : FailsIn P (.error e : Except ε α) := by
  intro e' h
  cases h
  exact he

theorem bind_of {x : Except ε α} {f : α → Except ε β} (hx : FailsIn P x)
    (hf : ∀ a, x = .ok a → FailsIn P (f a)) : FailsIn P (x >>= f) := by
  intro e h
  cases hresult : x with
  | error e' =>
      rw [hresult] at h
      cases h
      exact hx _ hresult
  | ok a =>
      rw [hresult] at h
      exact hf a hresult e h

theorem bind {x : Except ε α} {f : α → Except ε β} (hx : FailsIn P x) (hf : ∀ a, FailsIn P (f a)) :
    FailsIn P (x >>= f) := hx.bind_of (fun a _ => hf a)

theorem mono {Q : ε → Prop} {x : Except ε α} (hx : FailsIn P x) (h : ∀ e, P e → Q e) : FailsIn Q x :=
  fun e he => h e (hx e he)

theorem okOr {o : Option α} {e : ε} (he : P e) : FailsIn P (okOr o e) := by
  cases o with
  | none => exact error he
  | some a => exact ok a

theorem ite {c : Prop} [Decidable c] {x y : Except ε α} (hx : FailsIn P x) (hy : FailsIn P y) :
    FailsIn P (if c then x else y) := by
  by_cases hc : c
  · rw [if_pos hc]
    exact hx
  · rw [if_neg hc]
    exact hy

theorem forCount {body : Nat → σ → Except ε σ} (hbody : ∀ i s, FailsIn P (body i s)) (todo i : Nat)
    (s : σ) : FailsIn P (forCount body todo i s) := by
  intro e h
  obtain ⟨j, -, s₁, -, hfails⟩ := forCount_error.mp h
  exact hbody _ _ _ hfails

end FailsIn

end RustFirmware.Lib
