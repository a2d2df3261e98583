/-
  RustFirmware.Lib.Visit
  ──────────────────────
  **VISITORS THAT CAN STOP.**

  A callback that may end an iteration is a function `ρ → σ → Bool × σ`: whether
  to go on, and the new state.  `foldStop` runs it over a list.  An iteration
  over some data source is understood once it is written as `foldStop` over
  the list of items the source yields to a callback that never stops
  (`gather`).
-/
import Mathlib.Data.List.Basic
import Mathlib.Tactic.Common

namespace RustFirmware.Lib

variable {ρ σ : Type}

/-- Run `visit` over a list until it says stop; the flag tells whether the whole
    list was visited. -/
def foldStop (visit : ρ → σ → Bool × σ) : List ρ → σ → Bool × σ
  | [], acc => (true, acc)
  | r :: rs, acc =>
      match visit r acc with
      | (false, acc) => (false, acc)
      | (true, acc)  => foldStop visit rs acc

/-- The callback that keeps everything it is shown. -/
def gather (r : ρ) (acc : List ρ) : Bool × List ρ := (true, acc ++ [r])

theorem foldStop_append (visit : ρ → σ → Bool × σ) (xs ys : List ρ) (acc : σ) :
    foldStop visit (xs ++ ys) acc
      = match foldStop visit xs acc with
        | (false, acc) => (false, acc)
        | (true, acc)  => foldStop visit ys acc := by
  induction xs generalizing acc with
  | nil => rfl
  | cons x xs ih =>
      simp only [List.cons_append, foldStop]
      cases hv : visit x acc with
      | mk go acc' =>
          cases go with
          | false => rfl
          | true => exact ih acc'

theorem foldStop_map {κ : Type} (visit : ρ → σ → Bool × σ) (f : κ → ρ) (ks : List κ) (acc : σ) :
    foldStop visit (ks.map f) acc = foldStop (fun k acc => visit (f k) acc) ks acc := by
  induction ks generalizing acc with
  | nil => rfl
  | cons k ks ih =>
      simp only [List.map_cons, foldStop]
      cases visit (f k) acc with
      | mk go acc' =>
          cases go with
          | false => rfl
          | true => exact ih acc'

/-- Visiting nested lists is visiting their concatenation. -/
theorem foldStop_flatMap {κ : Type} (visit : ρ → σ → Bool × σ) (items : κ → List ρ)
    (ks : List κ) (acc : σ) :
    foldStop (fun k acc => foldStop visit (items k) acc) ks acc
      = foldStop visit (ks.flatMap items) acc := by
  induction ks generalizing acc with
  | nil => rfl
  | cons k ks ih =>
      rw [List.flatMap_cons, foldStop_append, foldStop]
      cases hv : foldStop visit (items k) acc with
      | mk go acc' =>
          cases go with
          | false => rfl
          | true => exact ih acc'

/-- A callback that stops at the first match finds it. -/
theorem foldStop_find (p : ρ → Bool) (rs : List ρ) (acc : Option ρ) :
    (foldStop (fun r acc => if p r then (false, some r) else (true, acc)) rs acc).2
      = (rs.find? p).or acc := by
  induction rs with
  | nil => rfl
  | cons r rs ih =>
      rw [foldStop, List.find?_cons]
      cases hp : p r with
      | true => rfl
      | false => exact ih

/-- Visitors that agree on the members run alike. -/
theorem foldStop_congr {visit visit' : ρ → σ → Bool × σ} {rs : List ρ}
    (h : ∀ r ∈ rs, ∀ acc, visit r acc = visit' r acc) (acc : σ) :
    foldStop visit rs acc = foldStop visit' rs acc := by
  induction rs generalizing acc with
  | nil => rfl
  | cons r rs ih =>
      have hrest := ih (fun r' hr => h r' (List.mem_cons_of_mem r hr))
      simp only [foldStop, h r List.mem_cons_self, hrest]

/-! ## Collecting into a slice of bounded room. -/

section Fill

variable {κ ρ : Type} {capacity : Nat}

/-- Collecting into a slice until it is full. -/
theorem foldStop_take (rs : List ρ) {output : List ρ} (h : output.length ≤ capacity) :
    (foldStop (fun r output =>
        if output.length = capacity then (false, output) else (true, output ++ [r])) rs output).2
      = (output ++ rs).take capacity := by
  induction rs generalizing output with
  | nil => rw [foldStop, List.append_nil, List.take_of_length_le h]
  | cons r rs ih =>
      rw [foldStop]
      by_cases hfull : output.length = capacity
      · rw [if_pos hfull, List.take_left' hfull]
      · rw [if_neg hfull]
        show (foldStop _ rs (output ++ [r])).2 = _
        rw [ih (by rw [List.length_append, List.length_singleton]; omega), List.append_assoc]
        rfl

/-- Collecting list after list, each into the room that is left. -/
theorem foldStop_fill (items : κ → List ρ) (ks : List κ) {output : List ρ}
    (h : output.length ≤ capacity) :
    (foldStop (fun k output =>
        if output.length = capacity then (false, output)
        else (true, output ++ (items k).take (capacity - output.length))) ks output).2
      = (output ++ ks.flatMap items).take capacity := by
  induction ks generalizing output with
  | nil => rw [foldStop, List.flatMap_nil, List.append_nil, List.take_of_length_le h]
  | cons k ks ih =>
      rw [foldStop, List.flatMap_cons]
      by_cases hfull : output.length = capacity
      · rw [if_pos hfull, List.take_left' hfull]
      · rw [if_neg hfull]
        show (foldStop _ ks (output ++ (items k).take (capacity - output.length))).2 = _
        have hlength : ((items k).take (capacity - output.length)).length
            = min (capacity - output.length) (items k).length := List.length_take
        rw [ih (by rw [List.length_append, hlength]; omega)]
        by_cases hfits : (items k).length ≤ capacity - output.length
        · rw [List.take_of_length_le hfits, List.append_assoc]
        · -- the list does not fit: it fills the slice, and nothing follows
          have hall : (output ++ (items k).take (capacity - output.length)).length = capacity := by
            rw [List.length_append, hlength]
            omega
          rw [List.take_left' hall, List.take_append, List.take_of_length_le h, List.take_append,
            show capacity - output.length - (items k).length = 0 by omega, List.take_zero,
            List.append_nil]

end Fill

end RustFirmware.Lib
