/-
  RustFirmware.Lib.Word
  ─────────────────────
  **FIXED-WIDTH UNSIGNED ARITHMETIC OVER `Nat`.**

  A machine word of width `w` is a natural number below `2 ^ w`.  The checked
  operations return `none` exactly where the word would wrap, so an addition
  that cannot wrap is a plain `Nat` addition and `omega` sees through it.

  The second half is about masks: `v & !(a - 1)` for an arbitrary `a`, not only
  for a power of two.  A caller that passes a multiple of `2 ^ k` still gets a
  result whose low `k` bits are clear.
-/
import Mathlib.Data.Nat.Bitwise
import Mathlib.Tactic.Common

namespace RustFirmware.Lib

/-! ## §1. Checked and saturating operations. -/

/-- `a + b` if it fits in `w` bits. -/
def checkedAdd (w a b : Nat) : Option Nat :=
  if a + b < 2 ^ w then some (a + b) else none

/-- `a * b` if it fits in `w` bits. -/
def checkedMul (w a b : Nat) : Option Nat :=
  if a * b < 2 ^ w then some (a * b) else none

/-- `a - b` if it does not go below zero. -/
def checkedSub (a b : Nat) : Option Nat :=
  if b ≤ a then some (a - b) else none

/-- `a << n` in `w` bits, if `n` is less than `w`. -/
def checkedShl (w a n : Nat) : Option Nat :=
  if n < w then some (a * 2 ^ n % 2 ^ w) else none

/-- `a + b`, or the largest `w`-bit word where that does not fit. -/
def saturatingAdd (w a b : Nat) : Nat := min (a + b) (2 ^ w - 1)

/-- `!a`: every one of the `w` bits flipped. -/
def complement (w a : Nat) : Nat := 2 ^ w - 1 - a

/-- Turn an absent value into the error `e`. -/
def okOr {ε α : Type} (o : Option α) (e : ε) : Except ε α :=
  match o with
  | some a => .ok a
  | none   => .error e

theorem checkedAdd_eq_some {w a b c : Nat} :
    checkedAdd w a b = some c ↔ a + b < 2 ^ w ∧ c = a + b := by
  unfold checkedAdd
  split <;> simp_all [eq_comm]

theorem checkedMul_eq_some {w a b c : Nat} :
    checkedMul w a b = some c ↔ a * b < 2 ^ w ∧ c = a * b := by
  unfold checkedMul
  split <;> simp_all [eq_comm]

theorem checkedSub_eq_some {a b c : Nat} :
    checkedSub a b = some c ↔ b ≤ a ∧ c = a - b := by
  unfold checkedSub
  split <;> simp_all [eq_comm]

@[simp] theorem okOr_eq_ok {ε α : Type} {o : Option α} {e : ε} {a : α} :
    okOr o e = .ok a ↔ o = some a := by
  cases o <;> simp [okOr]

/-- A fallible sequence succeeds exactly when both halves do. -/
theorem bind_eq_ok {ε α β : Type} {x : Except ε α} {f : α → Except ε β} {b : β} :
    (x >>= f) = .ok b ↔ ∃ a, x = .ok a ∧ f a = .ok b := by
  cases x <;> simp [bind, Except.bind]

/-! ## §2. Masks. -/

/-- The bits of a complement. -/
theorem testBit_complement (w m i : Nat) (hm : m < 2 ^ w) :
    (complement w m).testBit i = (decide (i < w) && !m.testBit i) := by
  unfold complement
  rw [show 2 ^ w - 1 - m = 2 ^ w - (m + 1) by omega]
  exact Nat.testBit_two_pow_sub_succ hm i

/-- Masking off the low `k` bits of a word rounds it down to a multiple of
`2 ^ k`. -/
theorem land_complement_two_pow (w k v : Nat) (hk : k ≤ w) (hv : v < 2 ^ w) :
    v &&& complement w (2 ^ k - 1) = v / 2 ^ k * 2 ^ k := by
  have hkw : 2 ^ k ≤ 2 ^ w := Nat.pow_le_pow_right (by omega) hk
  have hkpos : 0 < 2 ^ k := Nat.two_pow_pos k
  apply Nat.eq_of_testBit_eq
  intro i
  rw [Nat.testBit_land, testBit_complement w _ i (by omega), Nat.testBit_two_pow_sub_one,
      Nat.testBit_mul_two_pow, Nat.testBit_div_two_pow]
  by_cases hik : i < k
  · simp [hik]
  · rw [show i - k + k = i by omega]
    by_cases hiw : i < w
    · simp [hik, hiw, Nat.le_of_not_lt hik]
    · have hfalse : v.testBit i = false := by
        apply Nat.testBit_lt_two_pow
        exact lt_of_lt_of_le hv (Nat.pow_le_pow_right (by omega) (by omega))
      simp [hfalse]

/-- Masking with `!(a - 1)` clears the low `k` bits for EVERY positive multiple
`a` of `2 ^ k`, power of two or not: `a - 1` has all of its low `k` bits set. -/
theorem land_complement_pred_dvd (w k v a : Nat) (ha : 0 < a) (hdvd : 2 ^ k ∣ a) :
    2 ^ k ∣ v &&& complement w (a - 1) := by
  by_cases haw : 2 ^ w < a
  · -- an `a` wider than the word leaves an empty mask
    rw [show complement w (a - 1) = 0 by unfold complement; omega, Nat.and_zero]
    exact Nat.dvd_zero _
  obtain ⟨q, rfl⟩ := hdvd
  have hkpos : 0 < 2 ^ k := Nat.two_pow_pos k
  have hqpos : 0 < q := Nat.pos_of_ne_zero (by rintro rfl; simp at ha)
  obtain ⟨r, rfl⟩ : ∃ r, q = r + 1 := ⟨q - 1, by omega⟩
  have hpred : 2 ^ k * (r + 1) - 1 = 2 ^ k * r + (2 ^ k - 1) := by
    rw [Nat.mul_add, Nat.mul_one]
    omega
  rw [hpred, Nat.dvd_iff_mod_eq_zero]
  apply Nat.eq_of_testBit_eq
  intro i
  rw [Nat.testBit_mod_two_pow, Nat.testBit_land, testBit_complement w _ i (by omega),
      Nat.testBit_two_pow_mul_add r (by omega) i]
  by_cases hik : i < k
  · simp [hik]
  · simp [hik]

/-- An odd multiple of `2 ^ j`, less one: the bits from `j` on are those of the
even number below, the low `j` bits are all set. -/
theorem pred_odd_multiple (j q : Nat) :
    2 ^ j * (2 * q + 1) - 1 = 2 ^ j * (2 * q) + (2 ^ j - 1) := by
  have hpos : 0 < 2 ^ j := Nat.two_pow_pos j
  rw [Nat.mul_add, Nat.mul_one]
  omega

/-- The bits of such a mask. -/
theorem testBit_pred_odd_multiple (j q i : Nat) :
    (2 ^ j * (2 * q + 1) - 1).testBit i
      = if i < j then true else (2 * q).testBit (i - j) := by
  have hpos : 0 < 2 ^ j := Nat.two_pow_pos j
  rw [pred_odd_multiple, Nat.testBit_two_pow_mul_add (2 * q) (by omega) i]
  by_cases hij : i < j
  · rw [if_pos hij, if_pos hij, Nat.testBit_two_pow_sub_one, decide_eq_true hij]
  · rw [if_neg hij, if_neg hij]

/-- **Where a mask is not rounding**: masking with `!(a - 1)` for an odd
multiple `a` of `2 ^ j` keeps `2 ^ j`, whether it is meant to round down or, with
`a - 1` added first, to round up. -/
theorem land_complement_odd_multiple {w j q : Nat} (hj : j < w)
    (hw : 2 ^ j * (2 * q + 1) ≤ 2 ^ w) :
    2 ^ j &&& complement w (2 ^ j * (2 * q + 1) - 1) = 2 ^ j
      ∧ (2 ^ j + (2 ^ j * (2 * q + 1) - 1)) &&& complement w (2 ^ j * (2 * q + 1) - 1)
          = 2 ^ j := by
  have hpos : 0 < 2 ^ j := Nat.two_pow_pos j
  have hmask : 2 ^ j * (2 * q + 1) - 1 < 2 ^ w := by
    have := Nat.mul_pos hpos (show 0 < 2 * q + 1 by omega)
    omega
  constructor
  · apply Nat.eq_of_testBit_eq
    intro i
    rw [Nat.testBit_land, testBit_complement w _ i hmask, testBit_pred_odd_multiple,
        Nat.testBit_two_pow]
    by_cases hij : j = i
    · subst hij
      simp [hj]
    · simp [hij]
  · have hsum : 2 ^ j + (2 ^ j * (2 * q + 1) - 1) = 2 ^ j * (2 * q + 1) + (2 ^ j - 1) := by
      have := Nat.mul_pos hpos (show 0 < 2 * q + 1 by omega)
      omega
    apply Nat.eq_of_testBit_eq
    intro i
    rw [Nat.testBit_land, testBit_complement w _ i hmask, testBit_pred_odd_multiple, hsum,
        Nat.testBit_two_pow_mul_add (2 * q + 1) (by omega) i, Nat.testBit_two_pow]
    -- below `j` the mask clears, at `j` it keeps, above `j` the two words agree
    rcases Nat.lt_trichotomy i j with hlt | rfl | hgt
    · simp [hlt, Nat.ne_of_gt hlt]
    · simp [hj]
    · obtain ⟨r, hr⟩ : ∃ r, i - j = r + 1 := ⟨i - j - 1, by omega⟩
      rw [if_neg (by omega), if_neg (by omega), hr, Nat.testBit_succ, Nat.testBit_succ,
          show (2 * q + 1) / 2 = q by omega, show 2 * q / 2 = q by omega,
          decide_eq_false (by omega : ¬ j = i)]
      cases q.testBit r <;> simp

end RustFirmware.Lib
