/-
  RustFirmware.Lib.Text
  ─────────────────────
  **SLICES OF A STRING: WHERE VALID UTF-8 MAY BE CUT.**

  A slice of a string panics where it would start or end inside a character.  Beside
  an ASCII byte there is always a place to cut, and ASCII bytes may be doubled without
  making the string invalid.
-/
import RustFirmware.Lib.Checked

namespace RustFirmware.Lib

/-! ## §1. Places to cut. -/

/-- `text.is_char_boundary(position)`. -/
def isCharBoundary (text : Bytes) (position : Nat) : Bool :=
  match text[position]? with
  | some byte => position == 0 || byte < 0x80 || 0xC0 ≤ byte
  | none      => position == text.length

/-- `&text[start..stop]`. -/
def strSlice (text : Bytes) (start stop : Nat) : Checked Bytes :=
  if isCharBoundary text start && isCharBoundary text stop then indexRange text start stop
  else .error .outOfRange

theorem isCharBoundary_length (text : Bytes) : isCharBoundary text text.length = true := by
  unfold isCharBoundary
  rw [List.getElem?_eq_none (Nat.le_refl _)]
  exact beq_self_eq_true _

/-- There is a place to cut in front of an ASCII byte. -/
theorem isCharBoundary_ascii {text : Bytes} {position : Nat} {byte : UInt8}
    (hat : text[position]? = some byte) (hascii : byte < 0x80) :
    isCharBoundary text position = true := by
  unfold isCharBoundary
  rw [hat]
  simp [hascii]

/-- A valid string does not start inside a character. -/
theorem utf8Valid_head {byte : UInt8} {text : Bytes} (h : utf8Valid (byte :: text) = true) :
    byte < 0x80 ∨ 0xC0 ≤ byte := by
  by_contra hinside
  -- a continuation byte is no start, and from an invalid state there is no way back
  have hstep : Utf8State.boundary.step byte = .invalid := by
    simp only [Utf8State.step]
    grind
  simp only [utf8Valid, List.foldl_cons, hstep, Utf8State.foldl_invalid] at h
  exact absurd h (by decide)

/-- There is a place to cut behind an ASCII byte. -/
theorem isCharBoundary_after_ascii {text : Bytes} {position : Nat} {byte : UInt8}
    (hvalid : utf8Valid text = true) (hat : text[position]? = some byte) (hascii : byte < 0x80) :
    isCharBoundary text (position + 1) = true := by
  obtain ⟨hlt, hbyte⟩ := List.getElem?_eq_some_iff.mp hat
  have hsplit : text = text.take position ++ byte :: text.drop (position + 1) := by
    rw [← hbyte, List.getElem_cons_drop hlt, List.take_append_drop]
  rw [hsplit] at hvalid
  obtain ⟨-, hafter⟩ := (utf8Valid_append_ascii hascii _ _).mp hvalid
  unfold isCharBoundary
  -- what follows the byte is valid by itself, so it is the end or the start of a character
  cases hnext : text[position + 1]? with
  | none =>
      have hend := List.getElem?_eq_none_iff.mp hnext
      have hlast : position + 1 = text.length := by omega
      simp [hlast]
  | some next =>
      obtain ⟨hlt', hnext'⟩ := List.getElem?_eq_some_iff.mp hnext
      rw [← List.getElem_cons_drop hlt', hnext'] at hafter
      cases utf8Valid_head hafter with
      | inl hlow => simp [hlow]
      | inr hhigh => simp [hhigh]

theorem strSlice_ok {text : Bytes} {start stop : Nat} (hstart : isCharBoundary text start = true)
    (hstop : isCharBoundary text stop = true) (h : start ≤ stop) (hin : stop ≤ text.length) :
    strSlice text start stop = .ok ((text.drop start).take (stop - start)) := by
  unfold strSlice
  rw [hstart, hstop]
  exact indexRange_ok h hin

/-! ## §2. Strings put together. -/

theorem utf8Valid_append {xs ys : Bytes} (hxs : utf8Valid xs = true) (hys : utf8Valid ys = true) :
    utf8Valid (xs ++ ys) = true := by
  simp only [utf8Valid, beq_iff_eq] at hxs hys ⊢
  rw [List.foldl_append, hxs, hys]

theorem utf8Valid_ascii {xs : Bytes} (h : ∀ x ∈ xs, x < 0x80) : utf8Valid xs = true := by
  induction xs with
  | nil => rfl
  | cons x xs ih =>
      have hx := h x List.mem_cons_self
      have hrest := ih (fun y hy => h y (List.mem_cons_of_mem _ hy))
      exact (utf8Valid_append_ascii hx [] xs).mpr ⟨rfl, hrest⟩

/-- `text` with every byte in `marked` written twice. -/
def doubled (marked : UInt8 → Bool) (text : Bytes) : Bytes :=
  text.flatMap (fun byte => if marked byte then [byte, byte] else [byte])

/-- A decoder does not see that an ASCII byte was doubled. -/
theorem foldl_doubled {marked : UInt8 → Bool} (hascii : ∀ byte, marked byte → byte < 0x80)
    (text : Bytes) {s : Utf8State} (hs : s.Proper) :
    (doubled marked text).foldl Utf8State.step s = text.foldl Utf8State.step s := by
  induction text generalizing s with
  | nil => rfl
  | cons byte text ih =>
      have hproper := Utf8State.proper_step byte hs
      show ((if marked byte then [byte, byte] else [byte]) ++ doubled marked text).foldl
        Utf8State.step s = text.foldl Utf8State.step (s.step byte)
      rw [List.foldl_append]
      by_cases hmarked : marked byte = true
      -- an ASCII byte ends at a boundary or is invalid, and stays there when it is repeated
      · have htwice : (s.step byte).step byte = s.step byte := by
          rw [Utf8State.step_ascii hproper (hascii byte hmarked),
            Utf8State.step_ascii hs (hascii byte hmarked)]
          by_cases hboundary : s = .boundary
          · simp [hboundary]
          · simp [hboundary]
        rw [if_pos hmarked]
        show (doubled marked text).foldl Utf8State.step ((s.step byte).step byte) = _
        rw [htwice, ih hproper]
      · rw [if_neg hmarked]
        exact ih hproper

theorem utf8Valid_doubled {marked : UInt8 → Bool} (hascii : ∀ byte, marked byte → byte < 0x80)
    (text : Bytes) : utf8Valid (doubled marked text) = utf8Valid text := by
  unfold utf8Valid
  rw [foldl_doubled hascii text (s := .boundary) trivial]

/-! ## §3. Texts with a terminator. -/

/-- What is in front of the first `stop`, and what is behind it. -/
theorem append_terminator_inj {α : Type} {stop : α} {xs ys rest rest' : List α} (hxs : stop ∉ xs)
    (hys : stop ∉ ys) (h : xs ++ stop :: rest = ys ++ stop :: rest') : xs = ys ∧ rest = rest' := by
  induction xs generalizing ys with
  | nil =>
      cases ys with
      | nil => exact ⟨rfl, (List.cons.inj h).2⟩
      | cons y ys => exact absurd ((List.cons.inj h).1 ▸ List.mem_cons_self) hys
  | cons x xs ih =>
      cases ys with
      | nil => exact absurd ((List.cons.inj h).1 ▸ List.mem_cons_self) hxs
      | cons y ys =>
          obtain ⟨rfl, htail⟩ := List.cons.inj h
          obtain ⟨rfl, hrest⟩ := ih (fun hmem => hxs (.tail _ hmem)) (fun hmem => hys (.tail _ hmem)) htail
          exact ⟨rfl, hrest⟩

end RustFirmware.Lib
