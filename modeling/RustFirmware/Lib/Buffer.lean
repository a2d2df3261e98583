/-
  RustFirmware.Lib.Buffer
  ───────────────────────
  **IN-PLACE EDITS OF A FIXED BUFFER.**

  A buffer is a list whose length never changes; its first `count` slots are
  the active ones.  The loops here move slots one at a time, as imperative code
  does: `shiftUp` opens a gap from the top down, `shiftDown` closes one from the
  bottom up, `writeSlice` fills a gap.

  Each loop has one pointwise lemma (what slot `i` holds afterwards), and the
  two results at the end say what the active slots are as a LIST:

      take_splice : shift, then write   =  take i ++ new ++ drop (i + k)
      take_remove : close the gap at i  =  take i ++ drop (i + 1)
-/
import Mathlib.Data.List.Basic
import Mathlib.Tactic.Common

namespace RustFirmware.Lib

variable {α : Type}

/-! ## §1. The loops. -/

/-- `buf[dst] = buf[src]`. -/
def copySlot (buf : List α) (src dst : Nat) : List α :=
  match buf[src]? with
  | some x => buf.set dst x
  | none   => buf

/-- `while cursor > lo { buf[cursor + growth - 1] = buf[cursor - 1]; cursor -= 1 }`. -/
def shiftUp (buf : List α) (growth lo : Nat) : Nat → List α
  | 0 => buf
  | cursor + 1 =>
      if lo < cursor + 1 then
        shiftUp (copySlot buf cursor (cursor + growth)) growth lo cursor
      else buf

/-- `while cursor < count { buf[cursor - 1] = buf[cursor]; cursor += 1 }`, with
`steps = count - cursor` passes left. -/
def shiftDown (buf : List α) : (steps cursor : Nat) → List α
  | 0, _ => buf
  | steps + 1, cursor => shiftDown (copySlot buf cursor (cursor - 1)) steps (cursor + 1)

/-- `for (offset, x) in xs.enumerate() { buf[index + offset] = x }`. -/
def writeSlice (buf : List α) (index : Nat) : List α → List α
  | [] => buf
  | x :: xs => writeSlice (buf.set index x) (index + 1) xs

/-! ## §2. No loop changes the buffer's length. -/

@[simp] theorem copySlot_length (buf : List α) (src dst : Nat) :
    (copySlot buf src dst).length = buf.length := by
  unfold copySlot
  split <;> simp

@[simp] theorem shiftUp_length (buf : List α) (growth lo cursor : Nat) :
    (shiftUp buf growth lo cursor).length = buf.length := by
  induction cursor generalizing buf with
  | zero => rfl
  | succ c ih =>
      unfold shiftUp
      split
      · rw [ih, copySlot_length]
      · rfl

@[simp] theorem shiftDown_length (buf : List α) (steps cursor : Nat) :
    (shiftDown buf steps cursor).length = buf.length := by
  induction steps generalizing buf cursor with
  | zero => rfl
  | succ n ih => rw [shiftDown, ih, copySlot_length]

@[simp] theorem writeSlice_length (buf xs : List α) (index : Nat) :
    (writeSlice buf index xs).length = buf.length := by
  induction xs generalizing buf index with
  | nil => rfl
  | cons x xs ih => rw [writeSlice, ih, List.length_set]

/-! ## §3. What slot `i` holds after each loop. -/

theorem copySlot_getElem? (buf : List α) (src dst i : Nat)
    (hsrc : src < buf.length) (hdst : dst < buf.length) :
    (copySlot buf src dst)[i]? = if i = dst then buf[src]? else buf[i]? := by
  unfold copySlot
  rw [List.getElem?_eq_getElem hsrc]
  by_cases hi : i = dst
  · subst hi
    simp [hdst]
  · simp [hi, List.getElem?_set_ne (Ne.symm hi)]

/-- The block `[lo, cursor)` has moved up by `growth`; the rest is untouched. -/
theorem shiftUp_getElem? (buf : List α) (growth lo cursor i : Nat)
    (hlen : cursor + growth ≤ buf.length) :
    (shiftUp buf growth lo cursor)[i]?
      = if lo + growth ≤ i ∧ i < cursor + growth then buf[i - growth]? else buf[i]? := by
  induction cursor generalizing buf with
  | zero =>
      rw [shiftUp, if_neg (by omega)]
  | succ c ih =>
      unfold shiftUp
      by_cases hlo : lo < c + 1
      · rw [if_pos hlo, ih _ (by rw [copySlot_length]; omega),
            copySlot_getElem? buf c (c + growth) (i - growth) (by omega) (by omega),
            copySlot_getElem? buf c (c + growth) i (by omega) (by omega)]
        -- slot `c + growth` was written in this pass, the lower ones come from the rest
        by_cases hi : i = c + growth
        · subst hi
          rw [if_neg (by omega), if_pos rfl, if_pos (by omega), Nat.add_sub_cancel]
        · by_cases hrange : lo + growth ≤ i ∧ i < c + growth
          · rw [if_pos hrange, if_neg (by omega), if_pos (by omega)]
          · rw [if_neg hrange, if_neg hi, if_neg (by omega)]
      · rw [if_neg hlo, if_neg (by omega)]

/-- The block `[cursor, cursor + steps)` has moved down by one. -/
theorem shiftDown_getElem? (buf : List α) (steps cursor i : Nat)
    (hcur : 0 < cursor) (hlen : cursor + steps ≤ buf.length) :
    (shiftDown buf steps cursor)[i]?
      = if cursor ≤ i + 1 ∧ i + 1 < cursor + steps then buf[i + 1]? else buf[i]? := by
  induction steps generalizing buf cursor with
  | zero => rw [shiftDown, if_neg (by omega)]
  | succ n ih =>
      rw [shiftDown, ih _ _ (by omega) (by rw [copySlot_length]; omega),
          copySlot_getElem? buf cursor (cursor - 1) (i + 1) (by omega) (by omega),
          copySlot_getElem? buf cursor (cursor - 1) i (by omega) (by omega)]
      by_cases hi : i = cursor - 1
      · subst hi
        rw [if_neg (by omega), if_pos rfl, if_pos (by omega), Nat.sub_add_cancel hcur]
      · by_cases hrange : cursor + 1 ≤ i + 1 ∧ i + 1 < cursor + 1 + n
        · rw [if_pos hrange, if_neg (by omega), if_pos (by omega)]
        · rw [if_neg hrange, if_neg hi, if_neg (by omega)]

theorem writeSlice_getElem? (buf xs : List α) (index i : Nat)
    (hlen : index + xs.length ≤ buf.length) :
    (writeSlice buf index xs)[i]?
      = if index ≤ i ∧ i < index + xs.length then xs[i - index]? else buf[i]? := by
  induction xs generalizing buf index with
  | nil => rw [writeSlice, if_neg (by simp)]
  | cons x xs ih =>
      simp only [List.length_cons] at hlen ⊢
      rw [writeSlice, ih _ _ (by rw [List.length_set]; omega)]
      by_cases hi : i = index
      · subst hi
        rw [if_neg (by omega), if_pos (by omega), Nat.sub_self, List.getElem?_cons_zero,
            List.getElem?_set_self (by omega)]
      · rw [List.getElem?_set_ne (Ne.symm hi)]
        by_cases hrange : index + 1 ≤ i ∧ i < index + 1 + xs.length
        · rw [if_pos hrange, if_pos (by omega),
              show i - index = (i - (index + 1)) + 1 by omega, List.getElem?_cons_succ]
        · rw [if_neg hrange, if_neg (by omega)]

/-! ## §4. The active slots after an edit. -/

/-- Shifting by nothing moves nothing. -/
theorem shiftUp_zero (buf : List α) (lo cursor : Nat) (hlen : cursor ≤ buf.length) :
    shiftUp buf 0 lo cursor = buf := by
  apply List.ext_getElem?
  intro i
  rw [shiftUp_getElem? buf 0 lo cursor i hlen]
  simp

/-- **Shift, then write, is a splice**: of the `count` active slots, the `k`
slots from `index` on are replaced by `xs`. -/
theorem take_splice (buf xs : List α) (index k count : Nat)
    (hk : k ≤ xs.length) (hindex : index + k ≤ count)
    (hroom : count + xs.length - k ≤ buf.length) :
    (writeSlice (shiftUp buf (xs.length - k) (index + k) count) index xs).take
        (count + xs.length - k)
      = buf.take index ++ xs ++ (buf.take count).drop (index + k) := by
  apply List.ext_getElem?
  intro i
  rw [List.getElem?_take, writeSlice_getElem? _ _ _ _ (by rw [shiftUp_length]; omega),
      shiftUp_getElem? buf _ _ _ _ (by omega), List.append_assoc,
      List.getElem?_append, List.getElem?_append, List.length_take, List.getElem?_drop,
      List.getElem?_take, List.getElem?_take]
  rw [Nat.min_eq_left (by omega)]
  -- three blocks: below the splice, the written slice, the shifted tail
  by_cases h1 : i < index
  · simp only [h1, if_true]
    rw [if_pos (by omega), if_neg (by omega), if_neg (by omega)]
  · rw [if_neg h1]
    by_cases h2 : i - index < xs.length
    · rw [if_pos (by omega), if_pos (by omega), if_pos h2]
    · rw [if_neg h2]
      by_cases h3 : i < count + xs.length - k
      · rw [if_pos h3, if_neg (by omega), if_pos (by omega), if_pos (by omega)]
        congr 1
        omega
      · rw [if_neg h3, if_neg (by omega)]

/-- **Closing a gap is a removal** of the active slot `index`. -/
theorem take_remove (buf : List α) (index count : Nat)
    (hindex : index < count) (hcount : count ≤ buf.length) :
    (shiftDown buf (count - (index + 1)) (index + 1)).take (count - 1)
      = buf.take index ++ (buf.take count).drop (index + 1) := by
  apply List.ext_getElem?
  intro i
  rw [List.getElem?_take, shiftDown_getElem? _ _ _ _ (by omega) (by omega),
      List.getElem?_append, List.length_take, List.getElem?_drop, List.getElem?_take,
      List.getElem?_take, Nat.min_eq_left (by omega)]
  by_cases h1 : i < index
  · rw [if_pos h1, if_pos (by omega), if_neg (by omega), if_pos h1]
  · rw [if_neg h1]
    by_cases h2 : i < count - 1
    · rw [if_pos h2, if_pos (by omega), if_pos (by omega)]
      congr 1
      omega
    · rw [if_neg h2, if_neg (by omega)]

end RustFirmware.Lib
