/-
  RustFirmware.Lib.LittleEndian
  ─────────────────────────────
  **LITTLE-ENDIAN WORDS: WRITING AND READING BACK.**

  `leBytes` writes the low bytes of a value, `leNat` reads them, and each undoes the
  other on the words that fit.  A record is an append of such words; `ReadsLe` says
  where one of them stands.
-/
import RustFirmware.Lib.Bytes
import Mathlib.Data.Nat.Bitwise

namespace RustFirmware.Lib

/-! ## §1. One word. -/

@[simp] theorem leBytes_length (length value : Nat) : (leBytes length value).length = length := by
  simp [leBytes]

@[simp] theorem leNat_nil : leNat [] = 0 := rfl

/-- The first byte is the lowest. -/
theorem leNat_cons (b : UInt8) (bytes : Bytes) : leNat (b :: bytes) = b.toNat + 256 * leNat bytes := by
  unfold leNat beNat
  rw [List.reverse_cons, List.foldl_append, List.foldl_cons, List.foldl_nil]
  omega

/-- The first byte of a written word, then the rest of it. -/
theorem leBytes_succ (length value : Nat) :
    leBytes (length + 1) value = UInt8.ofNat value :: leBytes length (value / 256) := by
  unfold leBytes
  rw [List.range_succ_eq_map, List.map_cons, List.map_map, Nat.pow_zero, Nat.div_one]
  congr 1
  apply List.map_congr_left
  intro i _
  show UInt8.ofNat (value / 256 ^ (i + 1)) = UInt8.ofNat (value / 256 / 256 ^ i)
  rw [Nat.div_div_eq_div_mul, Nat.pow_succ, Nat.mul_comm]

/-- **What was written is read back**, as far as it fits. -/
theorem leNat_leBytes (length value : Nat) : leNat (leBytes length value) = value % 256 ^ length := by
  induction length generalizing value with
  | zero =>
      rw [Nat.pow_zero, Nat.mod_one]
      rfl
  | succ length ih =>
      have hlow : (UInt8.ofNat value).toNat = value % 256 := UInt8.toNat_ofNat'
      rw [leBytes_succ, leNat_cons, ih, hlow, Nat.pow_succ, Nat.mul_comm (256 ^ length), Nat.mod_mul]

theorem leNat_leBytes_of_lt {length value : Nat} (h : value < 256 ^ length) :
    leNat (leBytes length value) = value := by
  rw [leNat_leBytes, Nat.mod_eq_of_lt h]

/-- **What was read is written back.** -/
theorem leBytes_leNat (bytes : Bytes) : leBytes bytes.length (leNat bytes) = bytes := by
  induction bytes with
  | nil => rfl
  | cons b bytes ih =>
      have hb := b.toNat_lt
      have hlow : UInt8.ofNat (b.toNat + 256 * leNat bytes) = b := by
        apply UInt8.toNat.inj
        rw [UInt8.toNat_ofNat']
        omega
      have hrest : (b.toNat + 256 * leNat bytes) / 256 = leNat bytes := by omega
      rw [List.length_cons, leBytes_succ, leNat_cons, hlow, hrest, ih]

/-- So a word determines its bytes. -/
theorem leNat_inj {xs ys : Bytes} (hlength : xs.length = ys.length) (h : leNat xs = leNat ys) :
    xs = ys := by
  rw [← leBytes_leNat xs, ← leBytes_leNat ys, hlength, h]

/-- The low bits of a number and those above them. -/
theorem div_shiftLeft_or_mod (n k : Nat) : (n / 2 ^ k) <<< k ||| n % 2 ^ k = n := by
  rw [← Nat.shiftLeft_add_eq_or_of_lt (Nat.mod_lt n (Nat.two_pow_pos k)), Nat.shiftLeft_eq,
    Nat.div_add_mod']

/-! ## §2. Words inside a record. -/

theorem readLe_of_readsAt {bytes : Bytes} {offset length value : Nat}
    (h : ReadsAt bytes offset (leBytes length value)) (hvalue : value < 256 ^ length) :
    readLe length bytes offset = some value := by
  have hslice := h.slice
  rw [leBytes_length] at hslice
  unfold readLe
  rw [hslice, Option.map_some, leNat_leBytes_of_lt hvalue]

/-- A word at the front of a record. -/
theorem readLe_take {bytes : Bytes} {offset length count : Nat} (h : offset + length ≤ count)
    (hcount : count ≤ bytes.length) : readLe length (bytes.take count) offset = readLe length bytes offset := by
  have hfront : offset + length ≤ (bytes.take count).length := by
    rw [List.length_take]
    omega
  unfold readLe
  rw [← slice_append hfront (bytes.drop count), List.take_append_drop]

end RustFirmware.Lib
