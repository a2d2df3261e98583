/-
  RustFirmware.Lib.Unicode
  ────────────────────────
  **CHARACTERS AS UTF-8 BYTES AND AS UTF-16 CODE UNITS.**

  The UTF-8 form of any characters is what the automaton of valid UTF-8 accepts.  A
  character beyond the first `0x10000` is a pair of surrogates in UTF-16; code units
  are the form of some characters exactly if every surrogate in them is in a pair
  (`utf16Valid_iff`).
-/
import RustFirmware.Lib.Bytes

namespace RustFirmware.Lib

/-! ## §1. UTF-8. -/

/-- The table of lead bytes, on the number of the byte. -/
theorem Utf8State.step_boundary_ofNat {n : Nat} (h : n < 256) :
    Utf8State.boundary.step (UInt8.ofNat n)
      = if n < 0x80 then .boundary
        else if 0xC2 ≤ n ∧ n ≤ 0xDF then .expect 0x80 0xBF 0
        else if n = 0xE0 then .expect 0xA0 0xBF 1
        else if n = 0xED then .expect 0x80 0x9F 1
        else if 0xE1 ≤ n ∧ n ≤ 0xEF then .expect 0x80 0xBF 1
        else if n = 0xF0 then .expect 0x90 0xBF 2
        else if 0xF1 ≤ n ∧ n ≤ 0xF3 then .expect 0x80 0xBF 2
        else if n = 0xF4 then .expect 0x80 0x8F 2
        else .invalid := by
  simp only [Utf8State.step, UInt8.lt_iff_toNat_lt, UInt8.le_iff_toNat_le, ← UInt8.toNat_inj,
    UInt8.toNat_ofNat', UInt8.reduceToNat, Nat.reducePow, Nat.mod_eq_of_lt h]

/-- A byte in the middle of a character. -/
theorem Utf8State.step_expect_ofNat {n : Nat} {lo hi : UInt8} (more : Nat) (h : n < 256)
    (hlo : lo.toNat ≤ n) (hhi : n ≤ hi.toNat) :
    (Utf8State.expect lo hi more).step (UInt8.ofNat n)
      = match more with
        | 0        => .boundary
        | more + 1 => .expect 0x80 0xBF more := by
  have hn : (UInt8.ofNat n).toNat = n := by
    rw [UInt8.toNat_ofNat', Nat.mod_eq_of_lt h]
  show (if lo ≤ UInt8.ofNat n ∧ UInt8.ofNat n ≤ hi then _ else _) = _
  exact if_pos ⟨UInt8.le_iff_toNat_le.mpr (by rw [hn]; exact hlo),
    UInt8.le_iff_toNat_le.mpr (by rw [hn]; exact hhi)⟩

/-- The last byte of a character. -/
theorem Utf8State.foldl_tail_one {n : Nat} {lo hi : UInt8} (hlo : lo.toNat ≤ n % 64 + 128)
    (hhi : n % 64 + 128 ≤ hi.toNat) :
    [UInt8.ofNat (n % 64 + 128)].foldl Utf8State.step (.expect lo hi 0) = .boundary := by
  rw [List.foldl, Utf8State.step_expect_ofNat 0 (by omega) hlo hhi]
  rfl

/-- The last two bytes. -/
theorem Utf8State.foldl_tail_two {m n : Nat} {lo hi : UInt8} (hlo : lo.toNat ≤ m % 64 + 128)
    (hhi : m % 64 + 128 ≤ hi.toNat) :
    [UInt8.ofNat (m % 64 + 128), UInt8.ofNat (n % 64 + 128)].foldl Utf8State.step (.expect lo hi 1)
      = .boundary := by
  rw [List.foldl, Utf8State.step_expect_ofNat 1 (by omega) hlo hhi]
  refine Utf8State.foldl_tail_one ?_ ?_
  · show 128 ≤ _
    omega
  · show _ ≤ 191
    omega

/-- The last three bytes. -/
theorem Utf8State.foldl_tail_three {l m n : Nat} {lo hi : UInt8} (hlo : lo.toNat ≤ l % 64 + 128)
    (hhi : l % 64 + 128 ≤ hi.toNat) :
    [UInt8.ofNat (l % 64 + 128), UInt8.ofNat (m % 64 + 128), UInt8.ofNat (n % 64 + 128)].foldl
      Utf8State.step (.expect lo hi 2) = .boundary := by
  rw [List.foldl, Utf8State.step_expect_ofNat 2 (by omega) hlo hhi]
  refine Utf8State.foldl_tail_two ?_ ?_
  · show 128 ≤ _
    omega
  · show _ ≤ 191
    omega

/-- A character is accepted as a whole. -/
theorem foldl_utf8EncodeChar (c : Char) :
    (String.utf8EncodeChar c).foldl Utf8State.step .boundary = .boundary := by
  have hvalid := c.valid
  simp only [UInt32.isValidChar, Nat.isValidChar] at hvalid
  unfold String.utf8EncodeChar
  generalize c.val.toNat = v at hvalid
  dsimp only
  split
  · rw [List.foldl, Utf8State.step_boundary_ofNat (by omega), if_pos (by omega)]
    rfl
  split
  · rw [List.foldl, Utf8State.step_boundary_ofNat (by omega), if_neg (by omega), if_pos (by omega)]
    exact Utf8State.foldl_tail_one (by show 128 ≤ _; omega) (by show _ ≤ 191; omega)
  split
  · rw [List.foldl, Utf8State.step_boundary_ofNat (by omega), if_neg (by omega), if_neg (by omega)]
    -- no overlong form, and no surrogate
    by_cases hE0 : v / 4096 % 16 + 224 = 0xE0
    · rw [if_pos hE0]
      exact Utf8State.foldl_tail_two (by show 160 ≤ _; omega) (by show _ ≤ 191; omega)
    rw [if_neg hE0]
    by_cases hED : v / 4096 % 16 + 224 = 0xED
    · rw [if_pos hED]
      exact Utf8State.foldl_tail_two (by show 128 ≤ _; omega) (by show _ ≤ 159; omega)
    rw [if_neg hED, if_pos (by omega)]
    exact Utf8State.foldl_tail_two (by show 128 ≤ _; omega) (by show _ ≤ 191; omega)
  · rw [List.foldl, Utf8State.step_boundary_ofNat (by omega), if_neg (by omega), if_neg (by omega),
      if_neg (by omega), if_neg (by omega), if_neg (by omega)]
    -- no overlong form, and nothing beyond the last character
    by_cases hF0 : v / 262144 % 8 + 240 = 0xF0
    · rw [if_pos hF0]
      exact Utf8State.foldl_tail_three (by show 144 ≤ _; omega) (by show _ ≤ 191; omega)
    rw [if_neg hF0]
    by_cases hF4 : v / 262144 % 8 + 240 = 0xF4
    · rw [if_neg (by omega), if_pos hF4]
      exact Utf8State.foldl_tail_three (by show 128 ≤ _; omega) (by show _ ≤ 143; omega)
    rw [if_pos (by omega)]
    exact Utf8State.foldl_tail_three (by show 128 ≤ _; omega) (by show _ ≤ 191; omega)

/-- The UTF-8 form of characters. -/
def utf8 (cs : List Char) : Bytes := cs.flatMap String.utf8EncodeChar

/-- **What characters are encoded to is valid.** -/
theorem utf8Valid_utf8 (cs : List Char) : utf8Valid (utf8 cs) = true := by
  have hfold : (utf8 cs).foldl Utf8State.step .boundary = .boundary := by
    induction cs with
    | nil => rfl
    | cons c cs ih =>
        show (String.utf8EncodeChar c ++ utf8 cs).foldl _ _ = _
        rw [List.foldl_append, foldl_utf8EncodeChar, ih]
  unfold utf8Valid
  rw [hfold]
  rfl

/-! ## §2. UTF-16. -/

/-- The UTF-16 form of a character. -/
def utf16Char (c : Char) : List UInt16 :=
  let v := c.val.toNat
  if v < 0x10000 then [UInt16.ofNat v]
  else [UInt16.ofNat (0xd800 + (v - 0x10000) / 0x400),
        UInt16.ofNat (0xdc00 + (v - 0x10000) % 0x400)]

/-- The UTF-16 form of characters. -/
def utf16 (cs : List Char) : List UInt16 := cs.flatMap utf16Char

/-- The first code unit of a pair. -/
def IsHigh (unit : UInt16) : Prop := 0xd800 ≤ unit ∧ unit ≤ 0xdbff

/-- The second code unit of a pair. -/
def IsLow (unit : UInt16) : Prop := 0xdc00 ≤ unit ∧ unit ≤ 0xdfff

instance (unit : UInt16) : Decidable (IsHigh unit) := inferInstanceAs (Decidable (_ ∧ _))
instance (unit : UInt16) : Decidable (IsLow unit) := inferInstanceAs (Decidable (_ ∧ _))

/-- Every surrogate is in a pair. -/
def utf16Valid : List UInt16 → Bool
  | [] => true
  | unit :: units =>
      if IsHigh unit then
        match units with
        | [] => false
        | next :: units => decide (IsLow next) && utf16Valid units
      else if IsLow unit then false
      else utf16Valid units

theorem utf16Valid_one {unit : UInt16} (units : List UInt16) (hhigh : ¬ IsHigh unit)
    (hlow : ¬ IsLow unit) : utf16Valid (unit :: units) = utf16Valid units := by
  rw [utf16Valid.eq_def]
  dsimp only
  rw [if_neg hhigh, if_neg hlow]

theorem utf16Valid_two {high : UInt16} (next : UInt16) (units : List UInt16) (hhigh : IsHigh high) :
    utf16Valid (high :: next :: units) = (decide (IsLow next) && utf16Valid units) := by
  simp only [utf16Valid, if_pos hhigh]

/-- A character is one code unit that is no surrogate, or a pair of them. -/
theorem utf16Char_cases (c : Char) :
    (∃ unit, utf16Char c = [unit] ∧ unit.toNat = c.val.toNat ∧ ¬ IsHigh unit ∧ ¬ IsLow unit)
    ∨ ∃ high low, utf16Char c = [high, low] ∧ IsHigh high ∧ IsLow low
        ∧ c.val.toNat = 0x10000 + (high.toNat - 0xd800) * 0x400 + (low.toNat - 0xdc00) := by
  have hvalid := c.valid
  simp only [UInt32.isValidChar, Nat.isValidChar] at hvalid
  unfold utf16Char
  generalize c.val.toNat = v at hvalid
  dsimp only
  split
  · refine .inl ⟨_, rfl, ?_⟩
    simp only [IsHigh, IsLow, UInt16.le_iff_toNat_le, UInt16.toNat_ofNat', UInt16.reduceToNat]
    omega
  · refine .inr ⟨_, _, rfl, ?_⟩
    simp only [IsHigh, IsLow, UInt16.le_iff_toNat_le, UInt16.toNat_ofNat', UInt16.reduceToNat]
    omega

/-- A number that is a character. -/
def charOf (v : Nat) (h : v < 0xd800 ∨ 0xdfff < v ∧ v < 0x110000) : Char := Char.ofNatAux v h

theorem charOf_val (v : Nat) (h : v < 0xd800 ∨ 0xdfff < v ∧ v < 0x110000) :
    (charOf v h).val.toNat = v := rfl

/-- A code unit that is no surrogate is a character. -/
theorem exists_utf16Char_one {unit : UInt16} (hhigh : ¬ IsHigh unit) (hlow : ¬ IsLow unit) :
    ∃ c, utf16Char c = [unit] := by
  have hlt := unit.toNat_lt
  simp only [IsHigh, IsLow, UInt16.le_iff_toNat_le, UInt16.reduceToNat] at hhigh hlow
  refine ⟨charOf unit.toNat (by omega), ?_⟩
  unfold utf16Char
  rw [charOf_val]
  dsimp only
  rw [if_pos (by omega), UInt16.ofNat_toNat]

/-- A pair of surrogates is a character. -/
theorem exists_utf16Char_two {high low : UInt16} (hhigh : IsHigh high) (hlow : IsLow low) :
    ∃ c, utf16Char c = [high, low] := by
  simp only [IsHigh, IsLow, UInt16.le_iff_toNat_le, UInt16.reduceToNat] at hhigh hlow
  refine ⟨charOf (0x10000 + (high.toNat - 0xd800) * 0x400 + (low.toNat - 0xdc00)) (by omega), ?_⟩
  unfold utf16Char
  rw [charOf_val]
  dsimp only
  rw [if_neg (by omega)]
  have hfirst : 0xd800 + (0x10000 + (high.toNat - 0xd800) * 0x400 + (low.toNat - 0xdc00) - 0x10000)
      / 0x400 = high.toNat := by omega
  have hsecond : 0xdc00 + (0x10000 + (high.toNat - 0xd800) * 0x400 + (low.toNat - 0xdc00) - 0x10000)
      % 0x400 = low.toNat := by omega
  rw [hfirst, hsecond, UInt16.ofNat_toNat, UInt16.ofNat_toNat]

/-- **Code units are the form of characters exactly if every surrogate is in a pair.** -/
theorem utf16Valid_iff {units : List UInt16} : utf16Valid units = true ↔ ∃ cs, units = utf16 cs := by
  constructor
  · intro h
    fun_induction utf16Valid units with
    | case1 => exact ⟨[], rfl⟩
    | case2 => cases h
    | case3 unit hhigh next units ih =>
        obtain ⟨hlow, hrest⟩ := (Bool.and_eq_true _ _).mp h
        obtain ⟨c, hc⟩ := exists_utf16Char_two hhigh (of_decide_eq_true hlow)
        obtain ⟨cs, rfl⟩ := ih hrest
        refine ⟨c :: cs, ?_⟩
        show _ = utf16Char c ++ utf16 cs
        rw [hc]
        rfl
    | case4 => cases h
    | case5 unit units hhigh hlow ih =>
        obtain ⟨c, hc⟩ := exists_utf16Char_one hhigh hlow
        obtain ⟨cs, rfl⟩ := ih h
        refine ⟨c :: cs, ?_⟩
        show _ = utf16Char c ++ utf16 cs
        rw [hc]
        rfl
  · rintro ⟨cs, rfl⟩
    induction cs with
    | nil => rfl
    | cons c cs ih =>
        show utf16Valid (utf16Char c ++ utf16 cs) = true
        obtain ⟨unit, hc, -, hhigh, hlow⟩ | ⟨high, low, hc, hhigh, hlow, -⟩ := utf16Char_cases c
        · rw [hc, List.singleton_append, utf16Valid_one _ hhigh hlow]
          exact ih
        · rw [hc]
          show utf16Valid (high :: low :: utf16 cs) = true
          rw [utf16Valid_two low _ hhigh, decide_eq_true hlow]
          exact ih

/-- A character takes at most three bytes for each of its code units. -/
theorem utf8EncodeChar_length_le (c : Char) :
    (String.utf8EncodeChar c).length ≤ 3 * (utf16Char c).length := by
  unfold String.utf8EncodeChar utf16Char
  generalize c.val.toNat = v
  dsimp only
  split
  · split <;> simp
  split
  · split <;> simp
  split
  · rw [if_pos (by omega)]
    simp
  · rw [if_neg (by omega)]
    simp

end RustFirmware.Lib
