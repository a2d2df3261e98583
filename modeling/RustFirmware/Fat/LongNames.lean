/-
  RustFirmware.Fat.LongNames
  ──────────────────────────
  **WHICH ENTRIES MAKE A LONG NAME, AND WHAT NAME THEY MAKE.**

  `LongNameState` is driven by whatever the directory holds.  After any entries it is
  either idle or has collected the pieces `N, N - 1, …, k + 1` of a name, and these are
  the last entries it has seen (`Collected`).  So a name is attached to an entry exactly
  if all its pieces stand right in front of the entry.

  The collected code units up to the first `0x0000` or `0xffff` are the name; it can be
  decoded exactly if they are valid UTF-16.
-/
import RustFirmware.Fat.Entries
import RustFirmware.Lib.Unicode

namespace RustFirmware.Fat

open RustFirmware.Lib
open RustFirmware.Virtio

/-! ## §1. Decoding the code units. -/

/-- The code units in front of the end of a name. -/
def nameUnits (units : List UInt16) : List UInt16 :=
  units.takeWhile (fun unit => unit ≠ 0x0000 ∧ unit ≠ 0xffff)

theorem charFromU32_val (c : Char) : charFromU32 c.val = some c := by
  unfold charFromU32
  rw [dif_pos c.valid]

/-- A character that the buffer has room for is appended. -/
theorem encodeInto_val (c : Char) {output : Bytes}
    (h : output.length + (String.utf8EncodeChar c).length ≤ fatLongNameUtf8Bytes) :
    encodeInto c.val output = .ok (output ++ String.utf8EncodeChar c) := by
  unfold encodeInto
  rw [charFromU32_val]
  show (if output.length + (String.utf8EncodeChar c).length > fatLongNameUtf8Bytes then _ else _) = _
  rw [if_neg (by omega)]

theorem decodeUnits_one {unit : UInt16} (units : List UInt16) (output : Bytes)
    (hend : ¬ (unit = 0x0000 ∨ unit = 0xffff)) (hhigh : ¬ IsHigh unit) (hlow : ¬ IsLow unit) :
    decodeUnits (unit :: units) output = (do
      let output ← encodeInto unit.toUInt32 output
      decodeUnits units output) := by
  rw [decodeUnits.eq_def]
  dsimp only
  rw [if_neg hend, if_neg (show ¬ (0xd800 ≤ unit ∧ unit ≤ 0xdbff) from hhigh),
    if_neg (show ¬ (0xdc00 ≤ unit ∧ unit ≤ 0xdfff) from hlow)]

theorem decodeUnits_two {high low : UInt16} (units : List UInt16) (output : Bytes)
    (hend : ¬ (high = 0x0000 ∨ high = 0xffff)) (hhigh : IsHigh high) (hlow : IsLow low) :
    decodeUnits (high :: low :: units) output = (do
      let output ← encodeInto
        ((0x10000 : UInt32) + ((high.toUInt32 - 0xd800) <<< 10 ||| (low.toUInt32 - 0xdc00))) output
      decodeUnits units output) := by
  rw [decodeUnits.eq_def]
  dsimp only
  rw [if_neg hend, if_pos (show 0xd800 ≤ high ∧ high ≤ 0xdbff from hhigh),
    if_pos (show 0xdc00 ≤ low ∧ low ≤ 0xdfff from hlow)]

/-- The arithmetic on a pair of surrogates. -/
theorem pair_toNat {high low : UInt16} (hhigh : IsHigh high) (hlow : IsLow low) :
    ((0x10000 : UInt32) + ((high.toUInt32 - 0xd800) <<< 10 ||| (low.toUInt32 - 0xdc00))).toNat
      = 0x10000 + (high.toNat - 0xd800) * 0x400 + (low.toNat - 0xdc00) := by
  have hfirst := high.toNat_lt
  have hsecond := low.toNat_lt
  simp only [IsHigh, IsLow, UInt16.le_iff_toNat_le, UInt16.reduceToNat] at hhigh hlow
  have hh : (high.toUInt32 - 0xd800).toNat = high.toNat - 0xd800 := by
    rw [UInt32.toNat_sub_of_le _ _ (by rw [UInt32.le_iff_toNat_le]; simpa using hhigh.1)]
    simp
  have hl : (low.toUInt32 - 0xdc00).toNat = low.toNat - 0xdc00 := by
    rw [UInt32.toNat_sub_of_le _ _ (by rw [UInt32.le_iff_toNat_le]; simpa using hlow.1)]
    simp
  have hor : (high.toNat - 0xd800) <<< 10 ||| (low.toNat - 0xdc00)
      = (high.toNat - 0xd800) * 0x400 + (low.toNat - 0xdc00) := by
    rw [← Nat.shiftLeft_add_eq_or_of_lt (by omega), Nat.shiftLeft_eq]
  rw [UInt32.toNat_add, UInt32.toNat_or, UInt32.toNat_shiftLeft, hh, hl]
  have hshift : (high.toNat - 0xd800) <<< (UInt32.toNat 10 % 32) % 2 ^ 32
      = (high.toNat - 0xd800) <<< 10 := by
    rw [Nat.mod_eq_of_lt]
    · rfl
    · rw [Nat.shiftLeft_eq]
      show _ * 2 ^ 10 < _
      omega
  rw [hshift, hor]
  show (0x10000 + _) % 2 ^ 32 = _
  omega

/-- A character of one code unit is that unit. -/
theorem unit_val {c : Char} {unit : UInt16} (hc : utf16Char c = [unit]) : unit.toUInt32 = c.val := by
  obtain ⟨unit', hone, hval, -⟩ | ⟨high, low, htwo, -⟩ := utf16Char_cases c
  · rw [hc] at hone
    cases hone
    apply UInt32.toNat_inj.mp
    rw [UInt16.toNat_toUInt32, hval]
  · rw [hc] at htwo
    cases htwo

/-- A character of two is what the loop computes of them. -/
theorem pair_val {c : Char} {high low : UInt16} (hc : utf16Char c = [high, low]) :
    (0x10000 : UInt32) + ((high.toUInt32 - 0xd800) <<< 10 ||| (low.toUInt32 - 0xdc00)) = c.val := by
  obtain ⟨unit, hone, -⟩ | ⟨high', low', htwo, hhigh, hlow, hval⟩ := utf16Char_cases c
  · rw [hc] at hone
    cases hone
  · rw [hc] at htwo
    cases htwo
    apply UInt32.toNat_inj.mp
    rw [pair_toNat hhigh hlow, hval]

/-- **The loop decodes UTF-16**, whatever comes behind the characters. -/
theorem decodeUnits_utf16 (cs : List Char) (rest : List UInt16) {output : Bytes}
    (hend : ∀ unit ∈ utf16 cs, unit ≠ 0x0000 ∧ unit ≠ 0xffff)
    (hroom : output.length + 3 * (utf16 cs).length ≤ fatLongNameUtf8Bytes) :
    decodeUnits (utf16 cs ++ rest) output = decodeUnits rest (output ++ utf8 cs) := by
  induction cs generalizing output with
  | nil =>
      show decodeUnits rest output = decodeUnits rest (output ++ [])
      rw [List.append_nil]
  | cons c cs ih =>
      have hunits : utf16 (c :: cs) = utf16Char c ++ utf16 cs := rfl
      have hbytes : utf8 (c :: cs) = String.utf8EncodeChar c ++ utf8 cs := rfl
      have hlength := utf8EncodeChar_length_le c
      rw [hunits] at hend hroom
      rw [hunits, hbytes, List.append_assoc]
      rw [List.length_append] at hroom
      have hrest := @ih (output ++ String.utf8EncodeChar c)
        (fun unit hunit => hend unit (List.mem_append_right _ hunit))
        (by rw [List.length_append]; omega)
      rw [List.append_assoc] at hrest
      obtain ⟨unit, hc, -, hhigh, hlow⟩ | ⟨high, low, hc, hhigh, hlow, -⟩ := utf16Char_cases c
      · have hunit := hend unit (List.mem_append_left _ (by rw [hc]; exact List.mem_singleton_self _))
        rw [hc, List.singleton_append, decodeUnits_one _ _ (by simp [hunit.1, hunit.2]) hhigh hlow,
          unit_val hc, encodeInto_val c (by omega)]
        exact hrest
      · have hunit := hend high (List.mem_append_left _ (by rw [hc]; exact List.mem_cons_self))
        rw [hc]
        show decodeUnits (high :: low :: (utf16 cs ++ rest)) output = _
        rw [decodeUnits_two _ _ (by simp [hunit.1, hunit.2]) hhigh hlow, pair_val hc,
          encodeInto_val c (by omega)]
        exact hrest

theorem nameUnits_cons {unit : UInt16} (units : List UInt16) (h : ¬ (unit = 0x0000 ∨ unit = 0xffff)) :
    nameUnits (unit :: units) = unit :: nameUnits units := by
  unfold nameUnits
  rw [List.takeWhile_cons_of_pos]
  rw [decide_eq_true_iff]
  exact not_or.mp h

theorem nameUnits_end {unit : UInt16} (units : List UInt16) (h : unit = 0x0000 ∨ unit = 0xffff) :
    nameUnits (unit :: units) = [] := by
  unfold nameUnits
  rw [List.takeWhile_cons_of_neg]
  rw [decide_eq_true_iff]
  exact fun hc => not_or.mpr hc h

/-- The second code unit of a pair does not end a name. -/
theorem IsLow.not_end {unit : UInt16} (h : IsLow unit) : ¬ (unit = 0x0000 ∨ unit = 0xffff) := by
  rintro (rfl | rfl)
  · exact absurd h (by decide)
  · exact absurd h (by decide)

/-- What stands behind a name ends it. -/
theorem decodeUnits_behind (units : List UInt16) (output : Bytes) :
    decodeUnits (units.dropWhile (fun unit => unit ≠ 0x0000 ∧ unit ≠ 0xffff)) output = .ok output := by
  cases hrest : units.dropWhile (fun unit => unit ≠ 0x0000 ∧ unit ≠ 0xffff) with
  | nil => rfl
  | cons unit rest =>
      have hstop := List.head?_dropWhile_not (fun unit : UInt16 => decide (unit ≠ 0x0000 ∧ unit ≠ 0xffff)) units
      rw [hrest] at hstop
      rw [decodeUnits.eq_def]
      dsimp only
      rw [if_pos]
      by_contra hend
      obtain ⟨hzero, hones⟩ := not_or.mp hend
      simp [hzero, hones] at hstop

/-- **A name with an unpaired surrogate is not decoded.** -/
theorem decodeUnits_invalid {units : List UInt16} {output : Bytes}
    (h : utf16Valid (nameUnits units) = false)
    (hroom : output.length + 3 * units.length ≤ fatLongNameUtf8Bytes) :
    decodeUnits units output = .error .invalidLongName := by
  fun_induction decodeUnits units output with
  | case1 => cases h
  | case2 codeUnit units output hend =>
      rw [nameUnits_end units hend] at h
      cases h
  | case3 => rfl
  | case4 codeUnit output hend hhigh next units hlow high low ih =>
      -- a pair is a character, and has room
      obtain ⟨c, hc⟩ := exists_utf16Char_two hhigh hlow
      have hlength := utf8EncodeChar_length_le c
      rw [hc] at hlength
      simp only [List.length_cons, List.length_nil] at hlength hroom
      have hcode : (0x10000 : UInt32) + (high ||| low) = c.val := pair_val hc
      rw [nameUnits_cons _ hend, nameUnits_cons _ (IsLow.not_end hlow), utf16Valid_two _ _ hhigh,
        decide_eq_true (show IsLow next from hlow)] at h
      rw [hcode, encodeInto_val c (by omega)]
      exact ih _ h (by rw [List.length_append]; omega)
  | case5 => rfl
  | case6 => rfl
  | case7 codeUnit units output hend hhigh hlow ih =>
      obtain ⟨c, hc⟩ := exists_utf16Char_one hhigh hlow
      have hlength := utf8EncodeChar_length_le c
      rw [hc] at hlength
      simp only [List.length_cons, List.length_nil] at hlength hroom
      rw [nameUnits_cons _ hend, utf16Valid_one _ hhigh hlow] at h
      rw [unit_val hc, encodeInto_val c (by omega)]
      exact ih _ h (by rw [List.length_append]; omega)

namespace LongNameState

variable (state : LongNameState)

/-- The buffer has room for whatever the code units are. -/
theorem room : ([] : Bytes).length + 3 * state.codeUnits.length ≤ fatLongNameUtf8Bytes := by
  rw [state.codeUnits_length]
  decide

/-- **`to_utf8` of valid UTF-16.** -/
theorem toUtf8_of_utf16 {cs : List Char} (h : nameUnits state.codeUnits = utf16 cs) :
    state.toUtf8 = .ok (utf8 cs) := by
  have hsplit : state.codeUnits = utf16 cs
      ++ state.codeUnits.dropWhile (fun unit => unit ≠ 0x0000 ∧ unit ≠ 0xffff) := by
    rw [← h]
    exact List.takeWhile_append_dropWhile.symm
  have hend : ∀ unit ∈ utf16 cs, unit ≠ 0x0000 ∧ unit ≠ 0xffff := by
    intro unit hunit
    rw [← h] at hunit
    exact of_decide_eq_true (List.all_eq_true.mp List.all_takeWhile unit hunit)
  have hroom := state.room
  rw [hsplit, List.length_append] at hroom
  have hdecode : decodeUnits state.codeUnits [] = .ok (utf8 cs) := by
    rw [hsplit, decodeUnits_utf16 cs _ hend (by omega), List.nil_append]
    exact decodeUnits_behind state.codeUnits (utf8 cs)
  unfold toUtf8 fromUtf8
  rw [hdecode]
  show okOr (if utf8Valid (utf8 cs) = true then some (utf8 cs) else none) _ = _
  rw [if_pos (utf8Valid_utf8 cs)]
  rfl

theorem toUtf8_of_invalid (h : utf16Valid (nameUnits state.codeUnits) = false) :
    state.toUtf8 = .error .invalidLongName := by
  unfold toUtf8
  rw [decodeUnits_invalid h state.room]
  rfl

/-- **`to_utf8` succeeds exactly on valid UTF-16.** -/
theorem toUtf8_ok_iff :
    (∃ name, state.toUtf8 = .ok name) ↔ utf16Valid (nameUnits state.codeUnits) = true := by
  constructor
  · rintro ⟨name, hname⟩
    by_contra hinvalid
    rw [state.toUtf8_of_invalid (Bool.eq_false_of_not_eq_true hinvalid)] at hname
    cases hname
  · intro hvalid
    obtain ⟨cs, hcs⟩ := utf16Valid_iff.mp hvalid
    exact ⟨_, state.toUtf8_of_utf16 hcs⟩

end LongNameState

/-! ## §2. Pieces of a name. -/

/-- A live long name entry: the piece `ordinal` of the name of an entry with this checksum. -/
structure IsPiece (entry : Bytes) (ordinal : Nat) (isLast : Bool) (checksum : UInt8) : Prop where
  live        : byteAt entry 0 ≠ 0xe5
  longName    : byteAt entry 11 = fatAttributeLongName
  ordinal_eq  : (byteAt entry 0 &&& 0x1f).toNat = ordinal
  isLast_eq   : (byteAt entry 0 &&& 0x40 != 0) = isLast
  checksum_eq : byteAt entry 13 = checksum

/-- The pieces `n, n - 1, …, k + 1`, the first of them marked as the last one of the name. -/
structure Pieces (n k : Nat) (checksum : UInt8) (longs : List Bytes) : Prop where
  length : longs.length + k = n
  pieces : ∀ i entry, longs[i]? = some entry → IsPiece entry (n - i) (decide (i = 0)) checksum

/-- The entries in front of a short entry that make its long name. -/
def NamesEntry (longs : List Bytes) (entry : Bytes) : Prop :=
  1 ≤ longs.length ∧ longs.length ≤ 20
    ∧ Pieces longs.length 0 (shortNameChecksum (entry.take 11)) longs

theorem Pieces.first {n : Nat} {checksum : UInt8} {entry : Bytes} (hn : 1 ≤ n)
    (h : IsPiece entry n true checksum) : Pieces n (n - 1) checksum [entry] where
  length := by
    rw [List.length_singleton]
    omega
  pieces i entry' hi := by
    cases i with
    | zero =>
        cases hi
        exact h
    | succ i => cases hi

theorem Pieces.more {n k : Nat} {checksum : UInt8} {longs : List Bytes} {entry : Bytes}
    (h : Pieces n (k + 1) checksum longs) (hk : k + 1 < n) (hentry : IsPiece entry (k + 1) false checksum) :
    Pieces n k checksum (longs ++ [entry]) where
  length := by
    have hlength := h.length
    rw [List.length_append, List.length_singleton]
    omega
  pieces i entry' hi := by
    have hlength := h.length
    by_cases hlast : i < longs.length
    · rw [List.getElem?_append_left hlast] at hi
      exact h.pieces i entry' hi
    · rw [List.getElem?_append_right (by omega)] at hi
      have hindex : i = longs.length := by
        have hlt := (List.getElem?_eq_some_iff.mp hi).1
        rw [List.length_singleton] at hlt
        omega
      subst hindex
      rw [Nat.sub_self] at hi
      cases hi
      have hordinal : n - longs.length = k + 1 := by omega
      have hfirst : decide (longs.length = 0) = false := by
        rw [decide_eq_false_iff_not]
        omega
      rw [hordinal, hfirst]
      exact hentry

/-- The last of some pieces, and those before it. -/
theorem Pieces.split {n k : Nat} {checksum : UInt8} {longs : List Bytes} {entry : Bytes}
    (h : Pieces n k checksum (longs ++ [entry])) :
    IsPiece entry (k + 1) (decide (longs = [])) checksum
      ∧ (longs ≠ [] → Pieces n (k + 1) checksum longs) := by
  have hlength := h.length
  rw [List.length_append, List.length_singleton] at hlength
  constructor
  · have hentry := h.pieces longs.length entry (by simp)
    have hordinal : n - longs.length = k + 1 := by omega
    rw [hordinal] at hentry
    simpa only [List.length_eq_zero_iff] using hentry
  · intro _
    refine ⟨by omega, fun i entry' hi => ?_⟩
    have hlt := (List.getElem?_eq_some_iff.mp hi).1
    exact h.pieces i entry' (by rw [List.getElem?_append_left hlt]; exact hi)

/-! ## §3. What the state has collected. -/

namespace LongNameState

/-- What a pass over an entry that does not end the directory leaves of the state: pieces
    are collected, everything else clears it. -/
def after (state : LongNameState) (entry : Bytes) : LongNameState :=
  if byteAt entry 0 ≠ 0xe5 ∧ byteAt entry 11 = fatAttributeLongName then (push entry state).2
  else new

/-- The bits of the pieces `k + 1` to `n`. -/
def piecesMask (n k : Nat) : UInt32 := (1 <<< UInt32.ofNat n) - (1 <<< UInt32.ofNat k)

theorem piecesMask_first : ∀ n ≤ 20, 1 ≤ n →
    (0 : UInt32) ||| (1 <<< UInt32.ofNat (n - 1)) = piecesMask n (n - 1) := by decide

theorem piecesMask_more : ∀ n ≤ 20, ∀ k < n,
    piecesMask n (k + 1) ||| (1 <<< UInt32.ofNat k) = piecesMask n k := by decide +kernel

theorem piecesMask_full : ∀ n ≤ 20, ∀ k < n,
    (piecesMask n k = (1 <<< UInt32.ofNat n) - 1 ↔ k = 0) := by decide +kernel

/-- The state has collected the pieces `n, …, k + 1` in `longs`. -/
structure Collected (state : LongNameState) (n k : Nat) (checksum : UInt8) (longs : List Bytes) :
    Prop where
  active      : state.active = true
  maxOrdinal  : state.maxOrdinal.toNat = n
  nextOrdinal : state.nextOrdinal.toNat = k
  ordinalMask : state.ordinalMask = piecesMask n k
  checksum    : state.checksum = checksum
  codeUnits   : state.codeUnits = List.replicate (13 * k) 0xffff
      ++ (longs.reverse.flatMap copyLfnCodeUnits ++ List.replicate (fatLongNameCodeUnits - 13 * n) 0xffff)

/-- The state in which a piece is put: a last piece begins a new name. -/
def opened (entry : Bytes) (state : LongNameState) : LongNameState :=
  if byteAt entry 0 &&& 0x40 != 0 then
    { new with
      active := true
      maxOrdinal := byteAt entry 0 &&& 0x1f
      nextOrdinal := byteAt entry 0 &&& 0x1f
      checksum := byteAt entry 13 }
  else state

/-- The piece is the one that is to come next. -/
structure Accepts (entry : Bytes) (state : LongNameState) : Prop where
  ordinal_ne : byteAt entry 0 &&& 0x1f ≠ 0
  active     : (opened entry state).active = true
  le         : ¬ byteAt entry 0 &&& 0x1f > (opened entry state).maxOrdinal
  checksum   : byteAt entry 13 = (opened entry state).checksum
  next       : byteAt entry 0 &&& 0x1f = (opened entry state).nextOrdinal
  room       : (byteAt entry 0 &&& 0x1f).toNat ≤ 20

/-- What `push` does in the opened state. -/
def put (entry : Bytes) (state : LongNameState) : Except FatError Unit × LongNameState :=
  let ordinal := byteAt entry 0 &&& 0x1f
  if state.active = false ∨ ordinal > state.maxOrdinal ∨ byteAt entry 13 ≠ state.checksum then
    (.error .invalidLongName, new)
  else if ordinal ≠ state.nextOrdinal then (.error .invalidLongName, new)
  else
    let start := (ordinal.toNat - 1) * 13
    if hlong : start + 13 > state.codeUnits.length then (.error .nameTooLong, new)
    else
      (.ok (), { state with
        codeUnits := state.codeUnits.take start ++ copyLfnCodeUnits entry
          ++ state.codeUnits.drop (start + 13)
        ordinalMask := state.ordinalMask ||| (1 <<< (ordinal - 1).toUInt32)
        nextOrdinal := ordinal - 1
        codeUnits_length := by
          have hcopied : (copyLfnCodeUnits entry).length = 13 := List.length_map _
          have hlength := state.codeUnits_length
          rw [List.length_append, List.length_append, List.length_take, List.length_drop, hcopied]
          omega })

theorem push_eq (entry : Bytes) (state : LongNameState) :
    push entry state = if byteAt entry 0 &&& 0x1f = 0 then (.error .invalidLongName, new)
      else put entry (opened entry state) := rfl

/-- **`push` takes the piece that is to come next, and clears the state at any other.** -/
theorem push_cases (entry : Bytes) (state : LongNameState) :
    (¬ Accepts entry state ∧ (push entry state).2 = new)
    ∨ Accepts entry state
      ∧ (push entry state).2.active = (opened entry state).active
      ∧ (push entry state).2.maxOrdinal = (opened entry state).maxOrdinal
      ∧ (push entry state).2.nextOrdinal = (byteAt entry 0 &&& 0x1f) - 1
      ∧ (push entry state).2.ordinalMask = (opened entry state).ordinalMask
          ||| (1 <<< ((byteAt entry 0 &&& 0x1f) - 1).toUInt32)
      ∧ (push entry state).2.checksum = (opened entry state).checksum
      ∧ (push entry state).2.codeUnits
          = (opened entry state).codeUnits.take (((byteAt entry 0 &&& 0x1f).toNat - 1) * 13)
            ++ copyLfnCodeUnits entry
            ++ (opened entry state).codeUnits.drop (((byteAt entry 0 &&& 0x1f).toNat - 1) * 13 + 13) := by
  rw [push_eq]
  by_cases hzero : byteAt entry 0 &&& 0x1f = 0
  · rw [if_pos hzero]
    exact .inl ⟨fun h => h.ordinal_ne hzero, rfl⟩
  rw [if_neg hzero]
  have haccepts : Accepts entry state ↔ (opened entry state).active = true
      ∧ ¬ byteAt entry 0 &&& 0x1f > (opened entry state).maxOrdinal
      ∧ byteAt entry 13 = (opened entry state).checksum
      ∧ byteAt entry 0 &&& 0x1f = (opened entry state).nextOrdinal
      ∧ (byteAt entry 0 &&& 0x1f).toNat ≤ 20 :=
    ⟨fun h => ⟨h.active, h.le, h.checksum, h.next, h.room⟩,
      fun h => ⟨hzero, h.1, h.2.1, h.2.2.1, h.2.2.2.1, h.2.2.2.2⟩⟩
  rw [haccepts]
  generalize opened entry state = state
  unfold put
  dsimp only
  by_cases hother : state.active = false ∨ byteAt entry 0 &&& 0x1f > state.maxOrdinal
      ∨ byteAt entry 13 ≠ state.checksum
  · rw [if_pos hother]
    refine .inl ⟨fun ⟨hactive, hle, hchecksum, _⟩ => ?_, rfl⟩
    rcases hother with hidle | hgreater | hne
    · exact absurd (hactive.symm.trans hidle) (by decide)
    · exact hle hgreater
    · exact hne hchecksum
  rw [if_neg hother]
  rw [not_or, not_or] at hother
  by_cases hnext : byteAt entry 0 &&& 0x1f ≠ state.nextOrdinal
  · rw [if_pos hnext]
    exact .inl ⟨fun h => hnext h.2.2.2.1, rfl⟩
  rw [if_neg hnext]
  have hlength := state.codeUnits_length
  unfold fatLongNameCodeUnits at hlength
  by_cases hlong : ((byteAt entry 0 &&& 0x1f).toNat - 1) * 13 + 13 > state.codeUnits.length
  · rw [dif_pos hlong]
    refine .inl ⟨fun ⟨_, _, _, _, hroom⟩ => ?_, rfl⟩
    omega
  · rw [dif_neg hlong]
    exact .inr ⟨⟨Bool.eq_true_of_not_eq_false hother.1, hother.2.1, not_not.mp hother.2.2,
      not_not.mp hnext, by omega⟩, rfl, rfl, rfl, rfl, rfl, rfl⟩

/-- A number of less than 256 in a byte. -/
theorem toUInt32_of_toNat {byte : UInt8} {n : Nat} (h : byte.toNat = n) :
    byte.toUInt32 = UInt32.ofNat n := by
  apply UInt32.toNat_inj.mp
  have hlt := byte.toNat_lt
  rw [UInt8.toNat_toUInt32, UInt32.toNat_ofNat', h, Nat.mod_eq_of_lt (by omega)]

theorem pred_toNat {byte : UInt8} {k : Nat} (h : byte.toNat = k + 1) : (byte - 1).toNat = k := by
  rw [UInt8.toNat_sub_of_le _ _ (by rw [UInt8.le_iff_toNat_le]; show 1 ≤ _; omega), h]
  rfl

/-- The first piece. -/
theorem Collected.first {entry : Bytes} {n : Nat} {checksum : UInt8} (state : LongNameState)
    (hn : 1 ≤ n) (hmax : n ≤ 20) (h : IsPiece entry n true checksum) :
    Collected (push entry state).2 n (n - 1) checksum [entry] := by
  have hordinal := h.ordinal_eq
  have hopened : opened entry state = { new with
      active := true
      maxOrdinal := byteAt entry 0 &&& 0x1f
      nextOrdinal := byteAt entry 0 &&& 0x1f
      checksum := byteAt entry 13 } := by
    unfold opened
    rw [if_pos h.isLast_eq]
  have haccepts : Accepts entry state := by
    refine ⟨?_, by rw [hopened], ?_, by rw [hopened], by rw [hopened], by omega⟩
    · intro hzero
      rw [hzero] at hordinal
      exact absurd hordinal (by show ¬ 0 = n; omega)
    · rw [hopened]
      exact UInt8.lt_irrefl _
  obtain ⟨hnot, -⟩ | ⟨-, hactive, hmaxOrdinal, hnext, hmask, hchecksum, hunits⟩ := push_cases entry state
  · exact absurd haccepts hnot
  rw [hopened] at hactive hmaxOrdinal hmask hchecksum hunits
  have hpred : ((byteAt entry 0 &&& 0x1f) - 1).toNat = n - 1 := pred_toNat (by omega)
  refine ⟨hactive, by rw [hmaxOrdinal]; exact hordinal, by rw [hnext]; exact hpred, ?_,
    by rw [hchecksum]; exact h.checksum_eq, ?_⟩
  · rw [hmask, toUInt32_of_toNat hpred]
    exact piecesMask_first n hmax hn
  · rw [hunits, hordinal]
    show (List.replicate fatLongNameCodeUnits 0xffff).take _ ++ copyLfnCodeUnits entry
      ++ (List.replicate fatLongNameCodeUnits 0xffff).drop _ = _
    rw [List.take_replicate, List.drop_replicate, List.reverse_singleton, List.flatMap_singleton,
      List.append_assoc]
    have hfront : min ((n - 1) * 13) fatLongNameCodeUnits = 13 * (n - 1) := by
      unfold fatLongNameCodeUnits
      omega
    have hback : fatLongNameCodeUnits - ((n - 1) * 13 + 13) = fatLongNameCodeUnits - 13 * n := by
      omega
    rw [hfront, hback]

/-- One more piece. -/
theorem Collected.more {entry : Bytes} {n k : Nat} {checksum : UInt8} {state : LongNameState}
    {longs : List Bytes} (hc : Collected state n (k + 1) checksum longs) (hk : k + 1 < n)
    (hmax : n ≤ 20) (h : IsPiece entry (k + 1) false checksum) :
    Collected (push entry state).2 n k checksum (longs ++ [entry]) := by
  have hordinal := h.ordinal_eq
  have hopened : opened entry state = state := by
    unfold opened
    rw [if_neg (by rw [h.isLast_eq]; exact Bool.false_ne_true)]
  have haccepts : Accepts entry state := by
    refine ⟨?_, by rw [hopened]; exact hc.active, ?_, ?_, ?_, by omega⟩
    · intro hzero
      rw [hzero] at hordinal
      exact absurd hordinal (by show ¬ 0 = k + 1; omega)
    · rw [hopened, gt_iff_lt, UInt8.lt_iff_toNat_lt, hc.maxOrdinal]
      omega
    · rw [hopened, hc.checksum]
      exact h.checksum_eq
    · rw [hopened]
      exact UInt8.toNat_inj.mp (hordinal.trans hc.nextOrdinal.symm)
  obtain ⟨hnot, -⟩ | ⟨-, hactive, hmaxOrdinal, hnext, hmask, hchecksum, hunits⟩ := push_cases entry state
  · exact absurd haccepts hnot
  rw [hopened] at hactive hmaxOrdinal hmask hchecksum hunits
  have hpred : ((byteAt entry 0 &&& 0x1f) - 1).toNat = k := pred_toNat hordinal
  refine ⟨hactive.trans hc.active, by rw [hmaxOrdinal]; exact hc.maxOrdinal, by rw [hnext]; exact hpred, ?_,
    hchecksum.trans hc.checksum, ?_⟩
  · rw [hmask, hc.ordinalMask, toUInt32_of_toNat hpred]
    exact piecesMask_more n hmax k (by omega)
  · -- the thirteen units in front of those collected so far
    have hstart : (k + 1 - 1) * 13 = 13 * k := by omega
    have hsplit : (List.replicate (13 * (k + 1)) 0xffff : List UInt16)
        = List.replicate (13 * k) 0xffff ++ List.replicate 13 0xffff := by
      rw [List.replicate_append_replicate]
      rfl
    have hlength : (List.replicate (13 * k) (0xffff : UInt16)).length = 13 * k := List.length_replicate
    have hboth : (List.replicate (13 * k) (0xffff : UInt16) ++ List.replicate 13 0xffff).length
        = 13 * k + 13 := by
      rw [List.length_append, List.length_replicate, List.length_replicate]
    rw [hunits, hordinal, hstart, hc.codeUnits, hsplit]
    rw [List.drop_left' hboth, List.append_assoc (List.replicate (13 * k) 0xffff),
      List.take_left' hlength, List.reverse_append, List.reverse_singleton,
      List.flatMap_append, List.flatMap_singleton]
    simp only [List.append_assoc]

/-- **Pieces in a row are collected, whatever was there before.** -/
theorem collected_of_pieces {n k : Nat} {checksum : UInt8} {longs : List Bytes}
    (h : Pieces n k checksum longs) (hne : longs ≠ []) (hmax : n ≤ 20) (state : LongNameState) :
    Collected (longs.foldl after state) n k checksum longs := by
  induction longs using List.reverseRecOn generalizing k with
  | nil => exact absurd rfl hne
  | append_singleton longs entry ih =>
      obtain ⟨hentry, hbefore⟩ := h.split
      have hafter : ∀ s : LongNameState, after s entry = (push entry s).2 := by
        intro s
        unfold after
        rw [if_pos ⟨hentry.live, hentry.longName⟩]
      rw [List.foldl_append, List.foldl_cons, List.foldl_nil, hafter]
      by_cases hfirst : longs = []
      · subst hfirst
        have hlength := h.length
        rw [List.nil_append, List.length_singleton] at hlength
        obtain rfl : k = n - 1 := by omega
        have hordinal : n - 1 + 1 = n := by omega
        rw [hordinal] at hentry
        exact Collected.first state (by omega) hmax hentry
      · rw [decide_eq_false hfirst] at hentry
        have hpieces := hbefore hfirst
        have hlength := hpieces.length
        have hpos := List.length_pos_iff.mpr hfirst
        exact (ih hpieces hfirst).more (by omega) hmax hentry

/-- **An active state has collected the entries it has seen last.** -/
theorem exists_collected {before : List Bytes} (h : (before.foldl after new).active = true) :
    ∃ earlier longs n k checksum, before = earlier ++ longs ∧ n ≤ 20 ∧ longs ≠ []
      ∧ Pieces n k checksum longs ∧ Collected (before.foldl after new) n k checksum longs := by
  induction before using List.reverseRecOn with
  | nil => cases h
  | append_singleton before entry ih =>
      rw [List.foldl_append, List.foldl_cons, List.foldl_nil] at h ⊢
      generalize before.foldl after new = state at h ih ⊢
      by_cases hpiece : byteAt entry 0 ≠ 0xe5 ∧ byteAt entry 11 = fatAttributeLongName
      case neg =>
        unfold after at h
        rw [if_neg hpiece] at h
        cases h
      have hafter : after state entry = (push entry state).2 := if_pos hpiece
      rw [hafter] at h ⊢
      obtain ⟨-, hnew⟩ | ⟨haccepts, -⟩ := push_cases entry state
      · rw [hnew] at h
        cases h
      have hne := haccepts.ordinal_ne
      have hpos : 1 ≤ (byteAt entry 0 &&& 0x1f).toNat := by
        apply Nat.pos_of_ne_zero
        intro hzero
        exact hne (UInt8.toNat_inj.mp hzero)
      cases hlast : byteAt entry 0 &&& 0x40 != 0 with
      | true =>
          -- a new name begins
          have hentry : IsPiece entry (byteAt entry 0 &&& 0x1f).toNat true (byteAt entry 13) :=
            ⟨hpiece.1, hpiece.2, rfl, hlast, rfl⟩
          exact ⟨before, [entry], _, _, _, rfl, haccepts.room, by simp, .first hpos hentry,
            .first state hpos haccepts.room hentry⟩
      | false =>
          have hopened : opened entry state = state := by
            unfold opened
            rw [if_neg (by rw [hlast]; exact Bool.false_ne_true)]
          have hactive := haccepts.active
          have hchecksum := haccepts.checksum
          have hnext := haccepts.next
          rw [hopened] at hactive hchecksum hnext
          obtain ⟨earlier, longs, n, k, checksum, rfl, hmax, hlongs, hpieces, hc⟩ := ih hactive
          have hk := hc.nextOrdinal
          rw [← hnext] at hk
          obtain ⟨k, rfl⟩ : ∃ j, k = j + 1 := ⟨k - 1, by omega⟩
          have hlength := hpieces.length
          have hsome := List.length_pos_iff.mpr hlongs
          have hentry : IsPiece entry (k + 1) false checksum :=
            ⟨hpiece.1, hpiece.2, hk, hlast, hchecksum.trans hc.checksum⟩
          exact ⟨earlier, longs ++ [entry], n, k, checksum, by rw [List.append_assoc], hmax, by simp,
            hpieces.more (by omega) hentry, hc.more (by omega) hmax hentry⟩

/-- **A name is attached exactly if its pieces stand right in front of the entry.** -/
theorem matchesEntry_iff (before : List Bytes) (entry : Bytes) :
    (before.foldl after new).matchesEntry entry = true
      ↔ ∃ earlier longs, before = earlier ++ longs ∧ NamesEntry longs entry := by
  constructor
  · intro h
    unfold matchesEntry at h
    split at h
    · cases h
    · rename_i hsound
      rw [not_or, not_or] at hsound
      obtain ⟨earlier, longs, n, k, checksum, hbefore, hmax, hlongs, hpieces, hc⟩ :=
        exists_collected (Bool.eq_true_of_not_eq_false hsound.1)
      obtain ⟨hmask, hchecksum⟩ := (Bool.and_eq_true _ _).mp h
      rw [beq_iff_eq, hc.ordinalMask, toUInt32_of_toNat hc.maxOrdinal] at hmask
      rw [beq_iff_eq, hc.checksum] at hchecksum
      have hlength := hpieces.length
      have hsome := List.length_pos_iff.mpr hlongs
      obtain rfl := (piecesMask_full n hmax k (by omega)).mp hmask
      rw [Nat.add_zero] at hlength
      subst hlength
      rw [hchecksum] at hpieces
      exact ⟨earlier, longs, hbefore, hsome, hmax, hpieces⟩
  · rintro ⟨earlier, longs, rfl, hsome, hmax, hpieces⟩
    have hlongs : longs ≠ [] := List.length_pos_iff.mp hsome
    rw [List.foldl_append]
    have hc := collected_of_pieces hpieces hlongs hmax (earlier.foldl after new)
    have hzero : ¬ (longs.foldl after (earlier.foldl after new)).maxOrdinal = 0 := by
      intro hzero
      have hn := hc.maxOrdinal
      rw [hzero] at hn
      exact absurd hn (by show ¬ 0 = longs.length; omega)
    have hgreat : ¬ (longs.foldl after (earlier.foldl after new)).maxOrdinal > 20 := by
      rw [gt_iff_lt, UInt8.lt_iff_toNat_lt, hc.maxOrdinal]
      show ¬ 20 < longs.length
      omega
    unfold matchesEntry
    rw [if_neg (by rw [hc.active]; simp only [hzero, hgreat, or_self, Bool.true_eq_false, not_false_eq_true]),
      Bool.and_eq_true, beq_iff_eq, beq_iff_eq, hc.ordinalMask, toUInt32_of_toNat hc.maxOrdinal]
    exact ⟨(piecesMask_full _ hmax 0 (by omega)).mpr rfl, hc.checksum⟩

end LongNameState

/-! ## §4. The name of an entry. -/

/-- What fills the last piece of a name: a NUL, and then ones. -/
def vfatPadding (length : Nat) : List UInt16 :=
  if length % 13 = 0 then [] else 0x0000 :: List.replicate (12 - length % 13) 0xffff

/-- The entries are the VFAT encoding of the code units: thirteen in each, the first piece in
    the last entry. -/
def EncodesName (longs : List Bytes) (units : List UInt16) : Prop :=
  longs.reverse.flatMap copyLfnCodeUnits = units ++ vfatPadding units.length

/-- A name ends where the padding or the cleared part of the buffer begins. -/
theorem nameUnits_append {units rest : List UInt16} (hzero : 0x0000 ∉ units) (hones : 0xffff ∉ units)
    (hrest : ∀ unit, rest.head? = some unit → unit = 0x0000 ∨ unit = 0xffff) :
    nameUnits (units ++ rest) = units := by
  have hall : ∀ unit ∈ units, decide (unit ≠ 0x0000 ∧ unit ≠ 0xffff) = true := by
    intro unit hunit
    rw [decide_eq_true_iff]
    exact ⟨fun h => hzero (h ▸ hunit), fun h => hones (h ▸ hunit)⟩
  unfold nameUnits
  rw [List.takeWhile_append_of_pos hall]
  cases rest with
  | nil => exact List.append_nil units
  | cons unit rest =>
      rw [List.takeWhile_cons_of_neg, List.append_nil]
      rw [decide_eq_true_iff]
      exact fun hc => not_or.mpr hc (hrest unit rfl)

/-- **`to_utf8` gives the name that the entries encode.** -/
theorem LongNameState.toUtf8_of_encodes {longs : List Bytes} {entry : Bytes} {name : List Char}
    (h : NamesEntry longs entry) (hencodes : EncodesName longs (utf16 name))
    (hzero : 0x0000 ∉ utf16 name) (hones : 0xffff ∉ utf16 name) (state : LongNameState) :
    (longs.foldl after state).toUtf8 = .ok (utf8 name) := by
  obtain ⟨hsome, hmax, hpieces⟩ := h
  have hc := collected_of_pieces hpieces (List.length_pos_iff.mp hsome) hmax state
  apply toUtf8_of_utf16
  rw [hc.codeUnits, hencodes]
  show nameUnits ((utf16 name ++ vfatPadding (utf16 name).length) ++ _) = _
  rw [List.append_assoc]
  apply nameUnits_append hzero hones
  intro unit hunit
  unfold vfatPadding at hunit
  split at hunit
  · -- no padding: the cleared part of the buffer follows
    rw [List.nil_append] at hunit
    exact .inr (List.eq_of_mem_replicate (List.mem_of_mem_head? hunit))
  · exact .inl (Option.some.inj hunit).symm

end RustFirmware.Fat
