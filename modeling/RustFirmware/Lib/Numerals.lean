/-
  RustFirmware.Lib.Numerals
  ─────────────────────────
  **DIGITS AND NUMERALS AS BYTES.**

  `numeral` is the numeral of a number in a base up to sixteen, in lower case and
  without leading zeros; it is `Nat.toDigits` as bytes.  `hexText` writes a byte string
  with two digits a byte, and `parseHex` reads that back.
-/
import RustFirmware.Lib.Bytes

namespace RustFirmware.Lib

/-! ## §1. Digits. -/

/-- The digit of a number below sixteen. -/
def digitByte (n : Nat) : UInt8 := n.digitChar.val.toUInt8

/-- The number of a digit. -/
def digitValue (byte : UInt8) : Option Nat :=
  (List.range 16).find? (fun n => digitByte n == byte)

/-- The numeral of `n` in a base. -/
def numeral (base n : Nat) : Bytes := (Nat.toDigits base n).map (fun c => c.val.toUInt8)

theorem digitValue_digitByte {n : Nat} (h : n < 16) : digitValue (digitByte n) = some n := by
  have hall : ∀ m : Fin 16, digitValue (digitByte m) = some m.val := by decide
  exact hall ⟨n, h⟩

theorem digitByte_injective {m n : Nat} (hm : m < 16) (hn : n < 16)
    (h : digitByte m = digitByte n) : m = n := by
  have hvalue := digitValue_digitByte hm
  rw [h, digitValue_digitByte hn] at hvalue
  exact (Option.some.inj hvalue).symm

/-! ## §2. Numerals from their lowest digit. -/

theorem numeral_of_lt {base n : Nat} (h : n < base) : numeral base n = [digitByte n] := by
  unfold numeral
  rw [Nat.toDigits_of_lt_base h]
  rfl

theorem numeral_of_le {base n : Nat} (hbase : 1 < base) (h : base ≤ n) :
    numeral base n = numeral base (n / base) ++ [digitByte (n % base)] := by
  unfold numeral
  rw [Nat.toDigits_of_base_le hbase h, List.map_append]
  rfl

/-- The numeral of a number, where that of zero has no digits. -/
def significant (base n : Nat) : Bytes := if n = 0 then [] else numeral base n

theorem significant_of_ne {base n : Nat} (h : n ≠ 0) : significant base n = numeral base n := if_neg h

/-- **The lowest digit is the last one.** -/
theorem significant_step {base n : Nat} (hbase : 1 < base) (hn : n ≠ 0) :
    significant base n = significant base (n / base) ++ [digitByte (n % base)] := by
  rw [significant_of_ne hn]
  -- a single digit has nothing above it, which only `significant` writes as no digits
  by_cases hlt : n < base
  · rw [numeral_of_lt hlt, Nat.div_eq_of_lt hlt, Nat.mod_eq_of_lt hlt]
    rfl
  · have hle : base ≤ n := Nat.not_lt.mp hlt
    have hhigh : n / base ≠ 0 := Nat.pos_iff_ne_zero.mp (Nat.div_pos hle (by omega))
    rw [numeral_of_le hbase hle, significant_of_ne hhigh]

/-! ## §3. Reading a numeral. -/

/-- Every byte of a numeral is a digit. -/
theorem mem_numeral {base n : Nat} (hbase : 1 < base) {byte : UInt8} (h : byte ∈ numeral base n) :
    ∃ d < base, byte = digitByte d := by
  induction n using Nat.strong_induction_on with
  | _ n ih =>
      by_cases hlt : n < base
      · rw [numeral_of_lt hlt] at h
        exact ⟨n, hlt, List.mem_singleton.mp h⟩
      · have hle : base ≤ n := Nat.not_lt.mp hlt
        rw [numeral_of_le hbase hle] at h
        rcases List.mem_append.mp h with hhigh | hlow
        · exact ih (n / base) (Nat.div_lt_self (by omega) hbase) hhigh
        · exact ⟨n % base, Nat.mod_lt _ (by omega), List.mem_singleton.mp hlow⟩

/-- A numeral has no more digits than the power above its number. -/
theorem numeral_length_le {base n digits : Nat} (hbase : 1 < base) (hdigits : 0 < digits)
    (h : n < base ^ digits) : (numeral base n).length ≤ digits := by
  induction digits generalizing n with
  | zero => omega
  | succ digits ih =>
      by_cases hlt : n < base
      · rw [numeral_of_lt hlt]
        exact hdigits
      · have hle : base ≤ n := Nat.not_lt.mp hlt
        have hhigh : n / base < base ^ digits := by
          rw [Nat.pow_succ] at h
          exact Nat.div_lt_of_lt_mul (Nat.mul_comm .. ▸ h)
        have hpos : 0 < digits := by
          by_contra hzero
          obtain rfl : digits = 0 := by omega
          rw [Nat.zero_add, Nat.pow_one] at h
          omega
        rw [numeral_of_le hbase hle, List.length_append]
        exact Nat.succ_le_succ (ih hpos hhigh)

/-- The number that a text of digits stands for, its highest digit first. -/
def numeralValue (base : Nat) (text : Bytes) : Nat :=
  text.foldl (fun value byte => base * value + (digitValue byte).getD 0) 0

/-- **A numeral is read back.** -/
theorem numeralValue_numeral {base : Nat} (hbase : 1 < base) (hdigits : base ≤ 16) (n : Nat) :
    numeralValue base (numeral base n) = n := by
  induction n using Nat.strong_induction_on with
  | _ n ih =>
      unfold numeralValue at *
      by_cases hlt : n < base
      · rw [numeral_of_lt hlt, List.foldl_cons, List.foldl_nil, digitValue_digitByte (by omega),
          Nat.mul_zero, Nat.zero_add]
        rfl
      · have hmod : n % base < base := Nat.mod_lt _ (by omega)
        rw [numeral_of_le hbase (Nat.not_lt.mp hlt), List.foldl_append,
          ih (n / base) (Nat.div_lt_self (by omega) hbase), List.foldl_cons, List.foldl_nil,
          digitValue_digitByte (by omega)]
        exact Nat.div_add_mod n base

/-- Zeros in front of a text do not matter. -/
theorem numeralValue_zeros {base : Nat} (count : Nat) (text : Bytes) :
    numeralValue base (List.replicate count 0x30 ++ text) = numeralValue base text := by
  induction count with
  | zero => rfl
  | succ count ih =>
      unfold numeralValue at *
      rw [List.replicate_succ, List.cons_append, List.foldl_cons]
      exact ih

theorem numeral_injective {base m n : Nat} (hbase : 1 < base) (hdigits : base ≤ 16)
    (h : numeral base m = numeral base n) : m = n := by
  rw [← numeralValue_numeral hbase hdigits m, h, numeralValue_numeral hbase hdigits]

/-! ## §4. Two digits a byte. -/

/-- A byte in two digits. -/
def hexByte (byte : UInt8) : Bytes := [digitByte (byte.toNat / 16), digitByte (byte.toNat % 16)]

/-- A byte string, two digits a byte. -/
def hexText (bytes : Bytes) : Bytes := bytes.flatMap hexByte

/-- The byte string that a text of pairs of digits writes. -/
def parseHex : (text : Bytes) → Option Bytes
  | [] => some []
  | [_] => none
  | high :: low :: text => do
      let h ← digitValue high
      let l ← digitValue low
      let bytes ← parseHex text
      some (UInt8.ofNat (16 * h + l) :: bytes)

theorem byte_halves (byte : UInt8) : byte.toNat / 16 < 16 ∧ byte.toNat % 16 < 16 := by
  have := byte.toNat_lt
  omega

theorem parseHex_hexText (bytes : Bytes) : parseHex (hexText bytes) = some bytes := by
  induction bytes with
  | nil => rfl
  | cons byte bytes ih =>
      obtain ⟨hhigh, hlow⟩ := byte_halves byte
      show (do
        let h ← digitValue (digitByte (byte.toNat / 16))
        let l ← digitValue (digitByte (byte.toNat % 16))
        let rest ← parseHex (hexText bytes)
        some (UInt8.ofNat (16 * h + l) :: rest)) = _
      rw [digitValue_digitByte hhigh, digitValue_digitByte hlow, ih]
      show some (UInt8.ofNat (16 * (byte.toNat / 16) + byte.toNat % 16) :: bytes) = _
      rw [Nat.div_add_mod, UInt8.ofNat_toNat]

theorem hexByte_injective {a b : UInt8} (h : hexByte a = hexByte b) : a = b := by
  have hparse := parseHex_hexText [a]
  have htext : hexText [a] = hexText [b] := by
    unfold hexText
    rw [List.flatMap_singleton, List.flatMap_singleton, h]
  rw [htext, parseHex_hexText] at hparse
  cases hparse
  rfl

theorem hexText_length (bytes : Bytes) : (hexText bytes).length = 2 * bytes.length := by
  induction bytes with
  | nil => rfl
  | cons byte bytes ih =>
      show (hexByte byte ++ hexText bytes).length = _
      rw [List.length_append, ih, List.length_cons]
      show 2 + _ = _
      omega

/-- A byte that is no digit is not in such a text. -/
theorem notMem_hexByte {c byte : UInt8} (hc : ∀ n < 16, digitByte n ≠ c) : c ∉ hexByte byte := by
  obtain ⟨hhigh, hlow⟩ := byte_halves byte
  intro hmem
  cases hmem with
  | head => exact hc _ hhigh rfl
  | tail _ hmem =>
      obtain rfl := List.mem_singleton.mp hmem
      exact hc _ hlow rfl

theorem notMem_hexText {c : UInt8} (hc : ∀ n < 16, digitByte n ≠ c) (bytes : Bytes) :
    c ∉ hexText bytes := by
  intro hmem
  obtain ⟨byte, -, hbyte⟩ := List.mem_flatMap.mp hmem
  exact notMem_hexByte hc hbyte

end RustFirmware.Lib
