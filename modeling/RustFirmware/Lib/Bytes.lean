/-
  RustFirmware.Lib.Bytes
  ──────────────────────
  **BYTE STRINGS: SLICES, BIG-ENDIAN WORDS, NUL-TERMINATED UTF-8.**

  What a reader of a packed binary format needs.  Slices and words are partial:
  they are `none` where the range leaves the byte string.  UTF-8 validity is a
  small automaton over the bytes, so that a NUL byte, which no multi-byte
  sequence contains, cuts a valid string into two valid strings.
-/
import Mathlib.Data.List.Basic
import Mathlib.Data.Nat.Bitwise
import Mathlib.Tactic.Common

namespace RustFirmware.Lib

abbrev Bytes := List UInt8

/-- The bytes of an ASCII literal. -/
def ascii (s : String) : Bytes := s.toList.map (fun c => c.val.toUInt8)

/-! ## §1. Slices and words. -/

/-- `bytes.get(lo..hi)`. -/
def slice? (bytes : Bytes) (lo hi : Nat) : Option Bytes :=
  if lo ≤ hi ∧ hi ≤ bytes.length then some ((bytes.drop lo).take (hi - lo)) else none

/-- The number a big-endian byte string stands for. -/
def beNat (bytes : Bytes) : Nat := bytes.foldl (fun acc b => acc * 256 + b.toNat) 0

/-- `value.to_be_bytes()` of a `u32`. -/
def be32 (value : Nat) : Bytes :=
  [UInt8.ofNat (value / 2 ^ 24), UInt8.ofNat (value / 2 ^ 16), UInt8.ofNat (value / 2 ^ 8),
   UInt8.ofNat value]

/-- `value.to_be_bytes()` of a `u64`. -/
def be64 (value : Nat) : Bytes := be32 (value / 2 ^ 32) ++ be32 value

/-- The big-endian `u32` at `offset`. -/
def readBe32 (bytes : Bytes) (offset : Nat) : Option Nat :=
  (slice? bytes offset (offset + 4)).map beNat

/-- The big-endian `u64` at `offset`. -/
def readBe64 (bytes : Bytes) (offset : Nat) : Option Nat :=
  (slice? bytes offset (offset + 8)).map beNat

/-- The number a little-endian byte string stands for. -/
def leNat (bytes : Bytes) : Nat := beNat bytes.reverse

/-- `value.to_le_bytes()` of a word of `length` bytes. -/
def leBytes (length value : Nat) : Bytes :=
  (List.range length).map (fun i => UInt8.ofNat (value / 256 ^ i))

/-- The little-endian word of `length` bytes at `offset`. -/
def readLe (length : Nat) (bytes : Bytes) (offset : Nat) : Option Nat :=
  (slice? bytes offset (offset + length)).map leNat

def readLe16 : Bytes → Nat → Option Nat := readLe 2
def readLe32 : Bytes → Nat → Option Nat := readLe 4
def readLe64 : Bytes → Nat → Option Nat := readLe 8

/-- `bytes` with `xs` written over it from `offset` on. -/
def overwrite (bytes : Bytes) (offset : Nat) (xs : Bytes) : Bytes :=
  bytes.take offset ++ xs ++ bytes.drop (offset + xs.length)

/-- `ptr::copy`: `count` bytes from `src` to `dst`, where the ranges may overlap. -/
def moveBytes (bytes : Bytes) (src dst count : Nat) : Bytes :=
  overwrite bytes dst ((bytes.drop src).take count)

/-! ## §2. UTF-8. -/

/-- Where a UTF-8 decoder stands: between characters, inside one with the next
    byte required in `[lo, hi]` and `more` bytes after it, or past an error. -/
inductive Utf8State where
  | boundary
  | expect (lo hi : UInt8) (more : Nat)
  | invalid
  deriving Repr, DecidableEq

/-- One byte of the Unicode table of well-formed UTF-8 byte sequences. -/
def Utf8State.step : Utf8State → UInt8 → Utf8State
  | .boundary, b =>
      if b < 0x80 then .boundary
      else if 0xC2 ≤ b ∧ b ≤ 0xDF then .expect 0x80 0xBF 0
      else if b = 0xE0 then .expect 0xA0 0xBF 1
      else if b = 0xED then .expect 0x80 0x9F 1
      else if 0xE1 ≤ b ∧ b ≤ 0xEF then .expect 0x80 0xBF 1
      else if b = 0xF0 then .expect 0x90 0xBF 2
      else if 0xF1 ≤ b ∧ b ≤ 0xF3 then .expect 0x80 0xBF 2
      else if b = 0xF4 then .expect 0x80 0x8F 2
      else .invalid
  | .expect lo hi more, b =>
      if lo ≤ b ∧ b ≤ hi then
        (match more with
          | 0        => .boundary
          | more + 1 => .expect 0x80 0xBF more)
      else .invalid
  | .invalid, _ => .invalid

/-- `str::from_utf8(bytes).is_ok()`. -/
def utf8Valid (bytes : Bytes) : Bool := bytes.foldl Utf8State.step .boundary == .boundary

/-- `str::from_utf8(bytes).ok()`: a string is its bytes. -/
def fromUtf8 (bytes : Bytes) : Option Bytes := if utf8Valid bytes then some bytes else none

/-- The position of the first NUL byte. -/
def nulPosition (bytes : Bytes) : Option Nat := bytes.findIdx? (· == 0)

/-! ## §3. What stands at an offset. -/

/-- `xs` stands in `bytes` from `offset` on. -/
def ReadsAt (bytes : Bytes) (offset : Nat) (xs : Bytes) : Prop :=
  ∃ before after, bytes = before ++ (xs ++ after) ∧ before.length = offset

/-- A part cut out of the middle. -/
theorem drop_eq_take_append_drop (bytes : Bytes) {lo hi : Nat} (h : lo ≤ hi) :
    bytes.drop lo = (bytes.drop lo).take (hi - lo) ++ bytes.drop hi := by
  have hrest : (bytes.drop lo).drop (hi - lo) = bytes.drop hi := by
    rw [List.drop_drop, Nat.add_sub_cancel' h]
  rw [← hrest, List.take_append_drop]

/-- A read that ends inside the first part does not see the second. -/
theorem slice_append {xs : Bytes} {lo hi : Nat} (h : hi ≤ xs.length) (ys : Bytes) :
    slice? (xs ++ ys) lo hi = slice? xs lo hi := by
  unfold slice?
  by_cases hlo : lo ≤ hi
  · rw [if_pos ⟨hlo, by rw [List.length_append]; omega⟩, if_pos ⟨hlo, h⟩,
      List.drop_append_of_le_length (by omega), List.take_append_of_le_length]
    rw [List.length_drop]
    omega
  · rw [if_neg (fun hc => hlo hc.1), if_neg (fun hc => hlo hc.1)]

section ReadsAt

variable {bytes xs ys : Bytes} {offset value : Nat}

theorem readsAt_append :
    ReadsAt bytes offset (xs ++ ys)
      ↔ ReadsAt bytes offset xs ∧ ReadsAt bytes (offset + xs.length) ys := by
  constructor
  · rintro ⟨before, after, rfl, rfl⟩
    refine ⟨⟨before, ys ++ after, by simp, rfl⟩, ⟨before ++ xs, after, by simp, by simp⟩⟩
  · rintro ⟨⟨before, after, hbytes, rfl⟩, ⟨before', after', hbytes', hlength⟩⟩
    -- both decompositions cut the byte string at the same place
    have hsame : (before ++ xs) ++ after = before' ++ (ys ++ after') := by
      rw [← hbytes', hbytes, List.append_assoc]
    obtain ⟨-, hafter⟩ := List.append_inj hsame (by simp [hlength])
    exact ⟨before, after', by rw [hbytes, hafter, List.append_assoc], rfl⟩

/-- A list of parts, cut around one of them. -/
theorem flatten_split {parts : List Bytes} {i : Nat} {part : Bytes} (h : parts[i]? = some part) :
    parts.flatten = (parts.take i).flatten ++ (part ++ (parts.drop (i + 1)).flatten) := by
  obtain ⟨hlt, rfl⟩ := List.getElem?_eq_some_iff.mp h
  rw [← List.flatten_cons, ← List.drop_eq_getElem_cons hlt, ← List.flatten_append,
    List.take_append_drop]

/-- A part of what stands at the front. -/
theorem ReadsAt.part {parts : List Bytes} (h : ReadsAt bytes 0 parts.flatten) {i : Nat} {part : Bytes}
    (hpart : parts[i]? = some part) (hoffset : (parts.take i).flatten.length = offset) :
    ReadsAt bytes offset part := by
  rw [flatten_split hpart] at h
  have hrest := (readsAt_append.mp h).2
  rw [Nat.zero_add, hoffset] at hrest
  exact (readsAt_append.mp hrest).1

theorem ReadsAt.length_le (h : ReadsAt bytes offset xs) : offset + xs.length ≤ bytes.length := by
  obtain ⟨before, after, rfl, rfl⟩ := h
  simp only [List.length_append]
  omega

theorem ReadsAt.slice (h : ReadsAt bytes offset xs) :
    slice? bytes offset (offset + xs.length) = some xs := by
  have hle := h.length_le
  obtain ⟨before, after, rfl, rfl⟩ := h
  rw [slice?, if_pos ⟨Nat.le_add_right _ _, hle⟩, Nat.add_sub_cancel_left, List.drop_left,
    List.take_left]

/-- What can be cut out stands there. -/
theorem readsAt_of_slice {stop : Nat} (h : slice? bytes offset stop = some xs) :
    ReadsAt bytes offset xs ∧ offset + xs.length = stop := by
  unfold slice? at h
  split at h
  case isFalse => cases h
  case isTrue hle =>
    cases h
    refine ⟨⟨bytes.take offset, bytes.drop stop, ?_, ?_⟩, ?_⟩
    · rw [← drop_eq_take_append_drop bytes hle.1, List.take_append_drop]
    · rw [List.length_take]
      omega
    · rw [List.length_take, List.length_drop]
      omega

@[simp] theorem be32_length (value : Nat) : (be32 value).length = 4 := rfl

theorem beNat_be32 (h : value < 2 ^ 32) : beNat (be32 value) = value := by
  simp only [beNat, be32, List.foldl, UInt8.toNat_ofNat']
  omega

/-- A number goes on with the digits behind it. -/
theorem foldl_digits (bytes : Bytes) (high : Nat) :
    bytes.foldl (fun acc b => acc * 256 + b.toNat) high = high * 256 ^ bytes.length + beNat bytes := by
  unfold beNat
  induction bytes generalizing high with
  | nil =>
      rw [List.foldl_nil, List.length_nil, Nat.pow_zero, Nat.mul_one]
      rfl
  | cons b bytes ih =>
      rw [List.foldl_cons, List.foldl_cons, ih, ih (0 * 256 + b.toNat), List.length_cons, Nat.pow_succ',
        Nat.zero_mul, Nat.zero_add, Nat.add_mul, Nat.mul_assoc, Nat.add_assoc]

theorem beNat_append (xs ys : Bytes) : beNat (xs ++ ys) = beNat xs * 256 ^ ys.length + beNat ys := by
  rw [← foldl_digits ys (beNat xs)]
  unfold beNat
  rw [List.foldl_append]

/-- Four bytes are the big-endian form of their value. -/
theorem be32_beNat (h : xs.length = 4) : be32 (beNat xs) = xs ∧ beNat xs < 2 ^ 32 := by
  match xs, h with
  | [a, b, c, d], _ =>
      have ha := a.toNat_lt
      have hb := b.toNat_lt
      have hc := c.toNat_lt
      have hd := d.toNat_lt
      simp only [beNat, List.foldl, be32, List.cons.injEq, and_true]
      refine ⟨⟨?_, ?_, ?_, ?_⟩, by omega⟩ <;>
        (apply UInt8.toNat_inj.mp; rw [UInt8.toNat_ofNat']; omega)

theorem ReadsAt.be32 (h : ReadsAt bytes offset (be32 value)) (hvalue : value < 2 ^ 32) :
    readBe32 bytes offset = some value := by
  rw [readBe32, ← be32_length value, h.slice, Option.map_some, beNat_be32 hvalue]

/-- A word that can be read stands there in big-endian form. -/
theorem readsAt_of_readBe32 (h : readBe32 bytes offset = some value) :
    ReadsAt bytes offset (Lib.be32 value) ∧ value < 2 ^ 32 := by
  obtain ⟨xs, hxs, rfl⟩ := Option.map_eq_some_iff.mp h
  obtain ⟨hat, hlength⟩ := readsAt_of_slice hxs
  have hfour : xs.length = 4 := by omega
  obtain ⟨hword, hlt⟩ := be32_beNat hfour
  rw [hword]
  exact ⟨hat, hlt⟩

/-- Four bytes can be read as a word. -/
theorem exists_readBe32 (h : offset + 4 ≤ bytes.length) : ∃ value, readBe32 bytes offset = some value :=
  ⟨_, by rw [readBe32, slice?, if_pos ⟨Nat.le_add_right _ _, h⟩, Option.map_some]⟩

end ReadsAt

/-! ## §4. Writing over a known part. -/

/-- Writing over `xs` in the middle changes nothing else. -/
theorem overwrite_middle {before xs ys after : Bytes} {offset : Nat}
    (hoffset : offset = before.length) (hlength : ys.length = xs.length) :
    overwrite (before ++ (xs ++ after)) offset ys = before ++ (ys ++ after) := by
  have hdrop : (before ++ (xs ++ after)).drop (offset + ys.length) = after := by
    rw [hoffset, hlength, ← List.append_assoc, ← List.length_append, List.drop_left]
  rw [overwrite, hdrop, hoffset, List.take_left, List.append_assoc]

/-- Bytes written where they stand. -/
theorem overwrite_self {bytes xs : Bytes} {offset : Nat} (h : ReadsAt bytes offset xs) :
    overwrite bytes offset xs = bytes := by
  obtain ⟨before, after, rfl, hoffset⟩ := h
  exact overwrite_middle hoffset.symm rfl

@[simp] theorem overwrite_length {bytes xs : Bytes} {offset : Nat}
    (h : offset + xs.length ≤ bytes.length) : (overwrite bytes offset xs).length = bytes.length := by
  simp only [overwrite, List.length_append, List.length_take, List.length_drop]
  omega

theorem overwrite_nil (bytes : Bytes) (offset : Nat) : overwrite bytes offset [] = bytes := by
  unfold overwrite
  rw [List.append_nil, List.length_nil, Nat.add_zero, List.take_append_drop]

/-- `gap` put into `bytes` in front of the byte at `offset`. -/
def insertAt (offset : Nat) (gap bytes : Bytes) : Bytes :=
  bytes.take offset ++ (gap ++ bytes.drop offset)

theorem insertAt_zero (gap bytes : Bytes) : insertAt 0 gap bytes = gap ++ bytes := rfl

theorem insertAt_length {offset : Nat} {bytes : Bytes} (h : offset ≤ bytes.length) (gap : Bytes) :
    (insertAt offset gap bytes).length = bytes.length + gap.length := by
  unfold insertAt
  simp only [List.length_append, List.length_take, List.length_drop]
  omega

theorem insertAt_append_right (xs : Bytes) (offset : Nat) (gap ys : Bytes) :
    insertAt (xs.length + offset) gap (xs ++ ys) = xs ++ insertAt offset gap ys := by
  unfold insertAt
  rw [List.take_length_add_append, List.drop_length_add_append, List.append_assoc]

theorem insertAt_append_left {xs : Bytes} {offset : Nat} (h : offset ≤ xs.length) (gap ys : Bytes) :
    insertAt offset gap (xs ++ ys) = insertAt offset gap xs ++ ys := by
  unfold insertAt
  rw [List.take_append_of_le_length h, List.drop_append_of_le_length h]
  simp only [List.append_assoc]

/-- The bytes up to the end of what was written. -/
theorem take_overwrite {bytes xs : Bytes} {offset : Nat} (h : offset + xs.length ≤ bytes.length) :
    (overwrite bytes offset xs).take (offset + xs.length) = bytes.take offset ++ xs := by
  have hfront : (bytes.take offset ++ xs).length = offset + xs.length := by
    rw [List.length_append, List.length_take]
    omega
  rw [overwrite, ← hfront, List.take_left]

/-- What stands at `i` after bytes were written over. -/
theorem overwrite_getElem? {bytes xs : Bytes} {offset : Nat} (h : offset + xs.length ≤ bytes.length)
    (i : Nat) :
    (overwrite bytes offset xs)[i]?
      = if offset ≤ i ∧ i < offset + xs.length then xs[i - offset]? else bytes[i]? := by
  have hfront : (bytes.take offset).length = offset := by
    rw [List.length_take]
    omega
  unfold overwrite
  rw [List.append_assoc]
  by_cases hbefore : i < offset
  · rw [if_neg (by omega), List.getElem?_append_left (by omega), List.getElem?_take_of_lt hbefore]
  · rw [List.getElem?_append_right (by omega), hfront]
    by_cases hin : i < offset + xs.length
    · rw [if_pos ⟨by omega, hin⟩, List.getElem?_append_left (by omega)]
    · rw [if_neg (by omega), List.getElem?_append_right (by omega), List.getElem?_drop]
      congr 1
      omega

@[simp] theorem moveBytes_length {bytes : Bytes} {src dst count : Nat}
    (hsrc : src + count ≤ bytes.length) (hdst : dst + count ≤ bytes.length) :
    (moveBytes bytes src dst count).length = bytes.length := by
  have hmoved : ((bytes.drop src).take count).length = count := by
    rw [List.length_take, List.length_drop]
    omega
  exact overwrite_length (by rw [hmoved]; exact hdst)

/-- What stands at `i` after bytes were moved. -/
theorem moveBytes_getElem? {bytes : Bytes} {src dst count : Nat}
    (hsrc : src + count ≤ bytes.length) (hdst : dst + count ≤ bytes.length) (i : Nat) :
    (moveBytes bytes src dst count)[i]?
      = if dst ≤ i ∧ i < dst + count then bytes[src + (i - dst)]? else bytes[i]? := by
  have hmoved : ((bytes.drop src).take count).length = count := by
    rw [List.length_take, List.length_drop]
    omega
  rw [moveBytes, overwrite_getElem? (by rw [hmoved]; exact hdst), hmoved]
  by_cases hin : dst ≤ i ∧ i < dst + count
  · rw [if_pos hin, if_pos hin, List.getElem?_take_of_lt (by omega), List.getElem?_drop]
  · rw [if_neg hin, if_neg hin]

/-- A word that was written is read back. -/
theorem readBe32_overwrite {bytes : Bytes} {offset value : Nat} (h : offset + 4 ≤ bytes.length)
    (hvalue : value < 2 ^ 32) : readBe32 (overwrite bytes offset (be32 value)) offset = some value := by
  have hat : ReadsAt (overwrite bytes offset (be32 value)) offset (be32 value) := by
    refine ⟨bytes.take offset, bytes.drop (offset + (be32 value).length), ?_, ?_⟩
    · rw [overwrite, List.append_assoc]
    · exact List.length_take_of_le (by omega)
  exact hat.be32 hvalue

/-- Bytes that are the same byte by byte. -/
theorem take_drop_congr {bytes bytes' : Bytes} {src dst count : Nat}
    (h : ∀ i < count, bytes'[dst + i]? = bytes[src + i]?) :
    (bytes'.drop dst).take count = (bytes.drop src).take count := by
  apply List.ext_getElem?
  intro i
  rcases Nat.lt_or_ge i count with hlt | hge
  · rw [List.getElem?_take_of_lt hlt, List.getElem?_take_of_lt hlt, List.getElem?_drop,
      List.getElem?_drop, h i hlt]
  · rw [List.getElem?_take_eq_none hge, List.getElem?_take_eq_none hge]

theorem slice_congr {bytes bytes' : Bytes} {lo hi : Nat} (hlength : bytes'.length = bytes.length)
    (h : ∀ i, lo ≤ i → i < hi → bytes'[i]? = bytes[i]?) : slice? bytes' lo hi = slice? bytes lo hi := by
  have hsame : (bytes'.drop lo).take (hi - lo) = (bytes.drop lo).take (hi - lo) := by
    apply take_drop_congr
    intro i hi'
    exact h (lo + i) (by omega) (by omega)
  rw [slice?, slice?, hlength, hsame]

/-- Two writes, one right behind the other, are one write. -/
theorem overwrite_append {bytes xs ys : Bytes} {offset : Nat}
    (h : offset + xs.length + ys.length ≤ bytes.length) :
    overwrite (overwrite bytes offset xs) (offset + xs.length) ys
      = overwrite bytes offset (xs ++ ys) := by
  have hfront : (bytes.take offset ++ xs).length = offset + xs.length := by
    rw [List.length_append, List.length_take]
    omega
  have hsplit : overwrite bytes offset xs
      = (bytes.take offset ++ xs) ++ bytes.drop (offset + xs.length) := rfl
  rw [overwrite, hsplit, ← hfront, List.take_left, ← List.drop_drop, List.drop_left, hfront,
    List.drop_drop, overwrite, List.length_append]
  simp only [List.append_assoc, Nat.add_assoc]

/-- **A move followed by a fill.**  The bytes behind the first `old` of the tail
    are moved so that `fill` fits in front of them; what the move runs over is
    lost, what it leaves behind stays. -/
theorem overwrite_moveBytes (before old kept after fill : Bytes)
    (hroom : before.length + fill.length + kept.length
      ≤ (before ++ (old ++ (kept ++ after))).length) :
    overwrite (moveBytes (before ++ (old ++ (kept ++ after))) (before.length + old.length)
        (before.length + fill.length) kept.length) before.length fill
      = before ++ (fill ++ (kept ++
          (before ++ (old ++ (kept ++ after))).drop
            (before.length + fill.length + kept.length))) := by
  have hmoved : ((before ++ (old ++ (kept ++ after))).drop (before.length + old.length)).take
      kept.length = kept := by
    rw [← List.append_assoc, ← List.length_append, List.drop_left, List.take_left]
  rw [moveBytes, hmoved]
  generalize hbytes : before ++ (old ++ (kept ++ after)) = bytes at *
  have hbefore : bytes.take before.length = before := by rw [← hbytes, List.take_left]
  -- the bytes in front of the destination end with the part that is filled
  have hfront : bytes.take (before.length + fill.length)
      = before ++ (bytes.drop before.length).take fill.length := by
    rw [List.take_add, hbefore]
  have hfill : ((bytes.drop before.length).take fill.length).length = fill.length := by
    rw [List.length_take, List.length_drop]
    omega
  have hshape : overwrite bytes (before.length + fill.length) kept
      = before ++ ((bytes.drop before.length).take fill.length
          ++ (kept ++ bytes.drop (before.length + fill.length + kept.length))) := by
    rw [overwrite, hfront]
    simp only [List.append_assoc]
  rw [hshape, overwrite_middle rfl hfill.symm]

/-- The big-endian words of a list, one after another. -/
def wordBytes (words : List Nat) : Bytes := words.flatMap be32

@[simp] theorem wordBytes_length (words : List Nat) : (wordBytes words).length = 4 * words.length := by
  induction words with
  | nil => rfl
  | cons w words ih =>
      show (be32 w ++ wordBytes words).length = _
      rw [List.length_append, ih, be32_length, List.length_cons]
      omega

/-- The word at `i`, between those before and those after it. -/
theorem wordBytes_split {words : List Nat} {i value : Nat} (h : words[i]? = some value) :
    wordBytes words
      = wordBytes (words.take i) ++ (be32 value ++ wordBytes (words.drop (i + 1))) := by
  obtain ⟨hindex, rfl⟩ := List.getElem?_eq_some_iff.mp h
  have hwords : words = words.take i ++ words[i] :: words.drop (i + 1) := by
    rw [← List.drop_eq_getElem_cons hindex, List.take_append_drop]
  calc wordBytes words
      = wordBytes (words.take i ++ words[i] :: words.drop (i + 1)) :=
        congrArg wordBytes hwords
    _ = _ := by rw [wordBytes, List.flatMap_append, List.flatMap_cons, wordBytes, wordBytes]

/-- Reading one word of a list of words. -/
theorem readBe32_wordBytes {words : List Nat} {i value : Nat} {rest : Bytes}
    (h : words[i]? = some value) (hvalue : value < 2 ^ 32) :
    readBe32 (wordBytes words ++ rest) (4 * i) = some value := by
  obtain ⟨hindex, -⟩ := List.getElem?_eq_some_iff.mp h
  refine ReadsAt.be32 ⟨wordBytes (words.take i),
    wordBytes (words.drop (i + 1)) ++ rest, ?_, ?_⟩ hvalue
  · rw [wordBytes_split h]
    simp only [List.append_assoc]
  · rw [wordBytes_length, List.length_take, Nat.min_eq_left (Nat.le_of_lt hindex)]

/-- Writing one word of a list of words. -/
theorem overwrite_wordBytes {words : List Nat} {i : Nat} (new : Nat) (rest : Bytes)
    (hindex : i < words.length) :
    overwrite (wordBytes words ++ rest) (4 * i) (be32 new)
      = wordBytes (words.set i new) ++ rest := by
  have hnew : (words.set i new)[i]? = some new := by
    rw [List.getElem?_set_self hindex]
  rw [wordBytes_split (List.getElem?_eq_getElem hindex), wordBytes_split hnew,
    List.take_set_of_le (Nat.le_refl i), List.drop_set_of_lt (Nat.lt_succ_self i)]
  simp only [List.append_assoc]
  refine overwrite_middle ?_ rfl
  rw [wordBytes_length, List.length_take, Nat.min_eq_left (Nat.le_of_lt hindex)]

/-- A word that can be read, split off. -/
theorem drop_of_readBe32 {bytes : Bytes} {offset value : Nat}
    (h : readBe32 bytes offset = some value) :
    bytes.drop offset = be32 value ++ bytes.drop (offset + 4) := by
  obtain ⟨before, after, rfl, rfl⟩ := (readsAt_of_readBe32 h).1
  have hrest : (before ++ (be32 value ++ after)).drop (before.length + 4) = after := by
    rw [← List.drop_drop, List.drop_left]
    rfl
  rw [List.drop_left, hrest]

/-! ## §5. NUL-terminated UTF-8. -/

theorem nulPosition_append {xs : Bytes} (h : 0 ∉ xs) (after : Bytes) :
    nulPosition (xs ++ 0 :: after) = some xs.length := by
  induction xs with
  | nil => rfl
  | cons x xs ih =>
      have hx : ¬ x = 0 := fun hx => h (by simp [hx])
      have hrest := ih (fun hmem => h (List.mem_cons_of_mem _ hmem))
      rw [nulPosition] at hrest ⊢
      rw [List.cons_append, List.findIdx?_cons, hrest]
      simp [hx]

/-- The first NUL cuts the bytes into a NUL-free part and the rest. -/
theorem nulPosition_eq_some {bytes : Bytes} {stop : Nat} (h : nulPosition bytes = some stop) :
    0 ∉ bytes.take stop ∧ ∃ after, bytes = bytes.take stop ++ 0 :: after := by
  induction bytes generalizing stop with
  | nil => cases h
  | cons b bytes ih =>
      rw [nulPosition, List.findIdx?_cons] at h
      by_cases hb : b = 0
      · simp only [hb, beq_self_eq_true, if_true, Option.some.injEq] at h
        subst h
        exact ⟨by simp, bytes, by simp [hb]⟩
      · rw [if_neg (by simpa using hb)] at h
        obtain ⟨stop, hstop, rfl⟩ := Option.map_eq_some_iff.mp h
        obtain ⟨hfree, after, hafter⟩ := ih hstop
        refine ⟨?_, after, ?_⟩
        · rw [List.take_succ_cons]
          exact List.not_mem_cons_of_ne_of_not_mem (fun he => hb he.symm) hfree
        · rw [List.take_succ_cons, List.cons_append, ← hafter]

/-- Inside a character only bytes from `0x80` on are acceptable. -/
def Utf8State.Proper : Utf8State → Prop
  | .expect lo _ _ => 0x80 ≤ lo
  | _ => True

theorem Utf8State.proper_step {s : Utf8State} (b : UInt8) (h : s.Proper) : (s.step b).Proper := by
  cases s with
  | boundary =>
      simp only [Utf8State.step]
      split_ifs <;> simp [Utf8State.Proper]
  | expect lo hi more =>
      simp only [Utf8State.step]
      split_ifs
      · cases more <;> simp [Utf8State.Proper]
      · trivial
  | invalid => trivial

theorem Utf8State.proper_foldl {s : Utf8State} (h : s.Proper) (bytes : Bytes) :
    (bytes.foldl Utf8State.step s).Proper := by
  induction bytes generalizing s with
  | nil => exact h
  | cons b bytes ih => exact ih (Utf8State.proper_step b h)

theorem Utf8State.foldl_invalid (bytes : Bytes) :
    bytes.foldl Utf8State.step .invalid = .invalid := by
  induction bytes with
  | nil => rfl
  | cons b bytes ih => exact ih

/-- An ASCII byte is only accepted between characters. -/
theorem Utf8State.step_ascii {s : Utf8State} {b : UInt8} (h : s.Proper) (hb : b < 0x80) :
    s.step b = if s = .boundary then .boundary else .invalid := by
  cases s with
  | boundary => simp [Utf8State.step, hb]
  | expect lo hi more =>
      have hlo : ¬ (lo ≤ b ∧ b ≤ hi) := by
        intro hin
        exact absurd (Nat.le_trans (UInt8.le_iff_toNat_le.mp h) (UInt8.le_iff_toNat_le.mp hin.1))
          (Nat.not_le.mpr (UInt8.lt_iff_toNat_lt.mp hb))
      simp [Utf8State.step, hlo]
  | invalid => simp [Utf8State.step]

/-- **An ASCII byte cuts valid UTF-8 into two valid strings.** -/
theorem utf8Valid_append_ascii {b : UInt8} (hb : b < 0x80) (xs ys : Bytes) :
    utf8Valid (xs ++ b :: ys) = true ↔ utf8Valid xs = true ∧ utf8Valid ys = true := by
  have hstep := Utf8State.step_ascii
    (Utf8State.proper_foldl (s := .boundary) trivial xs) hb
  simp only [utf8Valid, List.foldl_append, List.foldl_cons, beq_iff_eq]
  rw [hstep]
  by_cases hx : List.foldl Utf8State.step .boundary xs = .boundary
  · simp [hx]
  · rw [if_neg hx, Utf8State.foldl_invalid]
    simp [hx]

theorem fromUtf8_eq_some {xs ys : Bytes} :
    fromUtf8 xs = some ys ↔ utf8Valid xs = true ∧ xs = ys := by
  unfold fromUtf8
  split_ifs with h <;> simp [h]

end RustFirmware.Lib
