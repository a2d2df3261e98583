/-
  RustFirmware.Lib.Checked
  ────────────────────────
  **PROGRAMS THAT MAY PANIC OR RUN ON.**

  `Checked` makes visible what a pure model leaves out: an unsigned operation
  that leaves its word, an index outside its slice, and a loop that has used up
  the passes it was given.  A program that returns `ok` for some number of
  passes terminates and does none of these.
-/
import RustFirmware.Lib.Bytes
import RustFirmware.Lib.Word

namespace RustFirmware.Lib

/-- Why a program has no result. -/
inductive Trap where
  | overflow
  | outOfRange
  | outOfFuel
  deriving Repr, DecidableEq

abbrev Checked := Except Trap

/-! ## §1. Operations. -/

/-- `a + b` in `w` bits. -/
def addWord (w a b : Nat) : Checked Nat := if a + b < 2 ^ w then .ok (a + b) else .error .overflow

/-- `a * b` in `w` bits. -/
def mulWord (w a b : Nat) : Checked Nat := if a * b < 2 ^ w then .ok (a * b) else .error .overflow

/-- `a - b` on unsigned words. -/
def subWord (a b : Nat) : Checked Nat := if b ≤ a then .ok (a - b) else .error .overflow

/-- `xs[i]`. -/
def index {α : Type} (xs : List α) (i : Nat) : Checked α :=
  match xs[i]? with
  | some x => .ok x
  | none   => .error .outOfRange

/-- `xs[i] = x`. -/
def indexSet {α : Type} (xs : List α) (i : Nat) (x : α) : Checked (List α) :=
  if i < xs.length then .ok (xs.set i x) else .error .outOfRange

/-- `&xs[lo..hi]`. -/
def indexRange {α : Type} (xs : List α) (lo hi : Nat) : Checked (List α) :=
  if lo ≤ hi ∧ hi ≤ xs.length then .ok ((xs.drop lo).take (hi - lo)) else .error .outOfRange

/-- Using the slot `i` of a slice with `length` slots. -/
def indexSlot (length i : Nat) : Checked Unit :=
  if i < length then .ok () else .error .outOfRange

/-- Taking the slots from `lo` on of a slice with `length` slots: how many they are. -/
def indexFrom (length lo : Nat) : Checked Nat :=
  if lo ≤ length then .ok (length - lo) else .error .outOfRange

/-! ## §2. When they succeed. -/

@[simp] theorem ok_bind {α β : Type} (a : α) (f : α → Checked β) :
    ((Except.ok a : Checked α) >>= f) = f a := rfl

theorem toOption_eq_some {ε α : Type} {x : Except ε α} {a : α} :
    x.toOption = some a ↔ x = .ok a := by
  cases x with
  | error e => exact ⟨fun h => (by cases h), fun h => (by cases h)⟩
  | ok b => exact ⟨fun h => congrArg Except.ok (Option.some.inj h), fun h => (by cases h; rfl)⟩

theorem addWord_ok {w a b : Nat} (h : a + b < 2 ^ w) : addWord w a b = .ok (a + b) := if_pos h

theorem mulWord_ok {w a b : Nat} (h : a * b < 2 ^ w) : mulWord w a b = .ok (a * b) := if_pos h

theorem subWord_ok {a b : Nat} (h : b ≤ a) : subWord a b = .ok (a - b) := if_pos h

theorem indexRange_ok {α : Type} {xs : List α} {lo hi : Nat} (h : lo ≤ hi) (hin : hi ≤ xs.length) :
    indexRange xs lo hi = .ok ((xs.drop lo).take (hi - lo)) := if_pos ⟨h, hin⟩

theorem indexRange_of_readsAt {bytes xs : Bytes} {offset : Nat} (h : ReadsAt bytes offset xs) :
    indexRange bytes offset (offset + xs.length) = .ok xs := by
  have hle := h.length_le
  obtain ⟨before, after, rfl, rfl⟩ := h
  rw [indexRange_ok (Nat.le_add_right _ _) hle, Nat.add_sub_cancel_left, List.drop_left, List.take_left]

theorem index_ok {α : Type} {xs : List α} {i : Nat} {x : α} (h : xs[i]? = some x) :
    index xs i = .ok x := by
  unfold index
  rw [h]

theorem indexSet_ok {α : Type} {xs : List α} {i : Nat} (h : i < xs.length) (x : α) :
    indexSet xs i x = .ok (xs.set i x) := if_pos h

/-- A buffer that is filled from the front has grown by what was stored. -/
theorem take_set_succ {α : Type} {xs : List α} {i : Nat} (h : i < xs.length) (x : α) :
    (xs.set i x).take (i + 1) = xs.take i ++ [x] := by
  rw [List.take_succ_eq_append_getElem (by rw [List.length_set]; exact h),
    List.take_set_of_le (Nat.le_refl i), List.getElem_set_self]

/-- A buffer that is filled from the back has grown by what was stored. -/
theorem drop_set_self {α : Type} {xs : List α} {i : Nat} (h : i < xs.length) (x : α) :
    (xs.set i x).drop i = x :: xs.drop (i + 1) := by
  have hset : i < (xs.set i x).length := by
    rw [List.length_set]
    exact h
  rw [List.drop_eq_getElem_cons hset, List.getElem_set_self, List.drop_set_of_lt (Nat.lt_succ_self i)]

theorem indexSlot_ok {length i : Nat} (h : i < length) : indexSlot length i = .ok () := if_pos h

theorem indexFrom_ok {length lo : Nat} (h : lo ≤ length) :
    indexFrom length lo = .ok (length - lo) := if_pos h

theorem checkedAdd_some {w a b : Nat} (h : a + b < 2 ^ w) : checkedAdd w a b = some (a + b) :=
  if_pos h

theorem checkedMul_some {w a b : Nat} (h : a * b < 2 ^ w) : checkedMul w a b = some (a * b) :=
  if_pos h

theorem checkedSub_some {a b : Nat} (h : b ≤ a) : checkedSub a b = some (a - b) := if_pos h

/-! ## §3. Slices and words of a byte string. -/

/-- A slice that is there starts and ends inside. -/
theorem slice_bounds {bytes xs : Bytes} {lo hi : Nat} (h : slice? bytes lo hi = some xs) :
    lo ≤ hi ∧ hi ≤ bytes.length ∧ xs.length = hi - lo := by
  unfold slice? at h
  split_ifs at h with hrange
  cases h
  refine ⟨hrange.1, hrange.2, ?_⟩
  rw [List.length_take, List.length_drop]
  omega

theorem readBe32_bounds {bytes : Bytes} {offset value : Nat} (h : readBe32 bytes offset = some value) :
    offset + 4 ≤ bytes.length ∧ value < 2 ^ 32 := by
  obtain ⟨hat, hvalue⟩ := readsAt_of_readBe32 h
  have hle := hat.length_le
  rw [be32_length] at hle
  exact ⟨hle, hvalue⟩

theorem readBe64_bounds {bytes : Bytes} {offset value : Nat} (h : readBe64 bytes offset = some value) :
    offset + 8 ≤ bytes.length := by
  obtain ⟨word, hword, -⟩ := Option.map_eq_some_iff.mp h
  exact (slice_bounds hword).2.1

theorem nulPosition_lt {bytes : Bytes} {stop : Nat} (h : nulPosition bytes = some stop) :
    stop < bytes.length := by
  unfold nulPosition at h
  obtain ⟨hlt, -⟩ := List.findIdx?_eq_some_iff_getElem.mp h
  exact hlt

end RustFirmware.Lib
