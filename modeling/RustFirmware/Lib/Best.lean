/-
  RustFirmware.Lib.Best
  ─────────────────────
  **THE BEST OF MANY CANDIDATES.**

  A search visits places one by one.  Each place has a set of candidates and
  hands in its best one, or nothing when it has none; the search keeps the
  better of two.  What it ends with is the best candidate of ALL places, or
  nothing when no place has one.  `R v w` reads "`v` is at least as good as `w`".
-/
import Mathlib.Order.Bounds.Basic
import Mathlib.Tactic.Common

namespace RustFirmware.Lib

variable {α : Type}

/-- `o` is the best element of `S`; nothing, when `S` is empty. -/
def Best (R : α → α → Prop) (S : Set α) : Option α → Prop
  | some v => v ∈ S ∧ ∀ w ∈ S, R v w
  | none   => ∀ w, w ∉ S

/-- `better` returns one of its arguments, and one that is at least as good as both. -/
structure Chooses (R : α → α → Prop) (better : α → α → α) : Prop where
  trans : ∀ x y z, R x y → R y z → R x z
  left  : ∀ x y, R (better x y) x
  right : ∀ x y, R (better x y) y
  one   : ∀ x y, better x y = x ∨ better x y = y

theorem chooses_max [LinearOrder α] : Chooses (fun v w : α => w ≤ v) max where
  trans := fun _ _ _ hxy hyz => hyz.trans hxy
  left  := le_max_left
  right := le_max_right
  one   := fun x y => (le_total y x).imp max_eq_left max_eq_right

theorem chooses_min [LinearOrder α] : Chooses (fun v w : α => v ≤ w) min where
  trans := fun _ _ _ hxy hyz => hxy.trans hyz
  left  := min_le_left
  right := min_le_right
  one   := fun x y => (le_total x y).imp min_eq_left min_eq_right

/-- The best element does not depend on how the set is written. -/
theorem Best.congr {R : α → α → Prop} {S T : Set α} {o : Option α} (h : Best R S o)
    (hST : ∀ v, v ∈ S ↔ v ∈ T) : Best R T o := by
  rw [← Set.ext hST]
  exact h

/-- The better of two candidates, if there are two. -/
def mergeBest (better : α → α → α) : Option α → Option α → Option α
  | none, o          => o
  | o, none          => o
  | some v, some w   => some (better v w)

/-- **The better of two bests is the best of both sets.** -/
theorem Best.union {R : α → α → Prop} {better : α → α → α} (hb : Chooses R better)
    {S T : Set α} {o p : Option α} (hS : Best R S o) (hT : Best R T p) :
    Best R (S ∪ T) (mergeBest better o p) := by
  cases o with
  | none =>
      have hempty : ∀ v, v ∈ T ↔ v ∈ S ∪ T := fun v =>
        ⟨fun hv => Or.inr hv, fun hv => hv.resolve_left (hS v)⟩
      exact hT.congr hempty
  | some v =>
      cases p with
      | none =>
          have hempty : ∀ w, w ∈ S ↔ w ∈ S ∪ T := fun w =>
            ⟨fun hw => Or.inl hw, fun hw => hw.resolve_right (hT w)⟩
          exact hS.congr hempty
      | some w =>
          obtain ⟨hv, hvbest⟩ := hS
          obtain ⟨hw, hwbest⟩ := hT
          constructor
          · rcases hb.one v w with heq | heq
            · rw [heq]
              exact Or.inl hv
            · rw [heq]
              exact Or.inr hw
          · intro u hu
            rcases hu with hu | hu
            · exact hb.trans _ _ _ (hb.left v w) (hvbest u hu)
            · exact hb.trans _ _ _ (hb.right v w) (hwbest u hu)

end RustFirmware.Lib
