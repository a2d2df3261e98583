/-
  RustFirmware.Lib.Crc
  ────────────────────
  **A REFLECTED CRC DETECTS EVERY BURST THAT FITS ITS REGISTER.**

  The register is a bit vector of any width `w`, the bits go through it lowest first,
  and `poly` is the reflected polynomial.  Two facts carry everything: one bit step is
  linear over exclusive or, and it loses nothing as long as the highest bit of `poly` is
  set.  A message of at most `w` bits goes through the register as ONE word
  (`update_eq_bitSteps`), so two different ones leave different registers behind, and
  what follows them cannot make these equal again.
-/
import RustFirmware.Lib.Bytes

namespace RustFirmware.Lib.Crc

open RustFirmware.Lib

variable {w : Nat} {poly : BitVec w}

/-! ## §1. The register. -/

/-- One bit. -/
def bitStep (poly crc : BitVec w) : BitVec w :=
  if crc.getLsbD 0 then (crc >>> 1) ^^^ poly else crc >>> 1

/-- `count` bits. -/
def bitSteps (poly : BitVec w) : (count : Nat) → BitVec w → BitVec w
  | 0, crc => crc
  | count + 1, crc => bitSteps poly count (bitStep poly crc)

/-- The register after the bytes of a message. -/
def update (poly : BitVec w) : BitVec w → Bytes → BitVec w
  | crc, [] => crc
  | crc, byte :: bytes => update poly (bitSteps poly 8 (crc ^^^ byte.toBitVec.setWidth w)) bytes

/-- A message as one word, its first byte lowest. -/
def word (w : Nat) : Bytes → BitVec w
  | [] => 0
  | byte :: bytes => byte.toBitVec.setWidth w ^^^ (word w bytes <<< 8)

/-- Two messages of one length that differ, and only within `n` bytes in a row. -/
def DifferWithin (n : Nat) (a b : Bytes) : Prop :=
  a.length = b.length ∧ a ≠ b ∧ ∃ start, ∀ i, a[i]? ≠ b[i]? → start ≤ i ∧ i < start + n

/-! ## §2. One bit step is linear and loses nothing. -/

/-- The bits after a step. -/
theorem getLsbD_bitStep (poly crc : BitVec w) (i : Nat) :
    (bitStep poly crc).getLsbD i
      = (crc.getLsbD (1 + i) ^^ (crc.getLsbD 0 && poly.getLsbD i)) := by
  unfold bitStep
  cases hlow : crc.getLsbD 0 with
  | false => simp
  | true => simp

theorem bitStep_xor (poly a b : BitVec w) :
    bitStep poly (a ^^^ b) = bitStep poly a ^^^ bitStep poly b := by
  apply BitVec.eq_of_getLsbD_eq
  intro i _
  simp only [getLsbD_bitStep, BitVec.getLsbD_xor]
  cases a.getLsbD (1 + i) <;> cases b.getLsbD (1 + i) <;> cases a.getLsbD 0 <;>
    cases b.getLsbD 0 <;> simp

/-- The highest bit that comes out tells whether `poly` was added, and so which bit went
    out at the bottom. -/
theorem bitStep_injective (hpoly : poly.msb = true) {a b : BitVec w}
    (h : bitStep poly a = bitStep poly b) : a = b := by
  have hbits : ∀ i, (a.getLsbD (1 + i) ^^ (a.getLsbD 0 && poly.getLsbD i))
      = (b.getLsbD (1 + i) ^^ (b.getLsbD 0 && poly.getLsbD i)) := by
    intro i
    rw [← getLsbD_bitStep, ← getLsbD_bitStep, h]
  -- nothing is shifted in at the top, so what is found there is `poly`'s own bit or none
  have hlow : a.getLsbD 0 = b.getLsbD 0 := by
    have htop := hbits (w - 1)
    rw [BitVec.getLsbD_of_ge a _ (by omega), BitVec.getLsbD_of_ge b _ (by omega),
      ← BitVec.msb_eq_getLsbD_last, hpoly] at htop
    simpa using htop
  apply BitVec.eq_of_getLsbD_eq
  intro i _
  cases i with
  | zero => exact hlow
  | succ i =>
      have hnext := hbits i
      rw [hlow] at hnext
      rw [Nat.add_comm i 1]
      simpa using hnext

theorem bitSteps_xor (poly : BitVec w) (count : Nat) (a b : BitVec w) :
    bitSteps poly count (a ^^^ b) = bitSteps poly count a ^^^ bitSteps poly count b := by
  induction count generalizing a b with
  | zero => rfl
  | succ count ih =>
      show bitSteps poly count (bitStep poly (a ^^^ b)) = _
      rw [bitStep_xor]
      exact ih _ _

theorem bitSteps_injective (hpoly : poly.msb = true) (count : Nat) {a b : BitVec w}
    (h : bitSteps poly count a = bitSteps poly count b) : a = b := by
  induction count generalizing a b with
  | zero => exact h
  | succ count ih => exact bitStep_injective hpoly (ih h)

theorem bitSteps_add (poly : BitVec w) (m n : Nat) (crc : BitVec w) :
    bitSteps poly (m + n) crc = bitSteps poly n (bitSteps poly m crc) := by
  induction m generalizing crc with
  | zero => rw [Nat.zero_add]; rfl
  | succ m ih =>
      rw [Nat.succ_add]
      exact ih _

/-- What has been shifted up by one comes down by one. -/
theorem bitStep_shiftLeft (poly x : BitVec w) (hx : x.getLsbD (w - 1) = false) :
    bitStep poly (x <<< 1) = x := by
  apply BitVec.eq_of_getLsbD_eq
  intro i hi
  rw [getLsbD_bitStep]
  by_cases hlast : 1 + i < w
  · simp [BitVec.getLsbD_shiftLeft, hlast, BitVec.getLsbD_eq_getElem hi]
  · have hi : i = w - 1 := by omega
    subst hi
    simp [BitVec.getLsbD_shiftLeft, hlast, hx]

theorem bitSteps_shiftLeft (poly : BitVec w) (count : Nat) (x : BitVec w)
    (hx : ∀ i, w ≤ i + count → x.getLsbD i = false) :
    bitSteps poly count (x <<< count) = x := by
  induction count with
  | zero => exact BitVec.shiftLeft_zero x
  | succ count ih =>
      show bitSteps poly count (bitStep poly (x <<< (count + 1))) = x
      -- the room above `x` is as wide as the shift, so no bit of it has reached the top yet
      have htop : (x <<< count).getLsbD (w - 1) = false := by
        rw [BitVec.getLsbD_shiftLeft, hx (w - 1 - count) (by omega), Bool.and_false]
      rw [BitVec.shiftLeft_add, bitStep_shiftLeft poly _ htop]
      exact ih (fun i hi => hx i (by omega))

/-! ## §3. Messages. -/

theorem update_append (poly crc : BitVec w) (xs ys : Bytes) :
    update poly crc (xs ++ ys) = update poly (update poly crc xs) ys := by
  induction xs generalizing crc with
  | nil => rfl
  | cons x xs ih => exact ih _

/-- What follows in a message cannot undo a difference. -/
theorem update_injective (hpoly : poly.msb = true) (bytes : Bytes) {a b : BitVec w}
    (h : update poly a bytes = update poly b bytes) : a = b := by
  induction bytes generalizing a b with
  | nil => exact h
  | cons byte bytes ih => exact (BitVec.xor_left_inj _).mp (bitSteps_injective hpoly 8 (ih h))

theorem getLsbD_byte (byte : UInt8) (i : Nat) :
    (byte.toBitVec.setWidth w).getLsbD i = (decide (i < w) && byte.toBitVec.getLsbD i) :=
  BitVec.getLsbD_setWidth ..

/-- The bits of a word from its message's end on. -/
theorem getLsbD_word_of_ge (w : Nat) (bytes : Bytes) {i : Nat} (h : 8 * bytes.length ≤ i) :
    (word w bytes).getLsbD i = false := by
  induction bytes generalizing i with
  | nil => simp [word]
  | cons byte bytes ih =>
      rw [List.length_cons] at h
      unfold word
      rw [BitVec.getLsbD_xor, getLsbD_byte, BitVec.getLsbD_shiftLeft, ih (by omega),
        BitVec.getLsbD_of_ge _ i (by omega)]
      simp

/-- Messages that fit into a word can be told apart by it. -/
theorem word_injective {a b : Bytes} (hlength : a.length = b.length) (hfits : 8 * a.length ≤ w)
    (h : word w a = word w b) : a = b := by
  induction a generalizing b with
  | nil => exact (List.eq_nil_of_length_eq_zero hlength.symm).symm
  | cons x xs ih =>
      cases b with
      | nil => cases hlength
      | cons y ys =>
          rw [List.length_cons] at hfits
          have hlength := Nat.succ.inj hlength
          have hbits : ∀ i, (word w (x :: xs)).getLsbD i = (word w (y :: ys)).getLsbD i := by
            intro i
            rw [h]
          unfold word at hbits
          simp only [BitVec.getLsbD_xor, getLsbD_byte, BitVec.getLsbD_shiftLeft] at hbits
          -- the lowest eight bits are those of the first byte, the rest are the other bytes'
          have hfirst : x = y := by
            apply UInt8.toBitVec_inj.mp
            apply BitVec.eq_of_getLsbD_eq
            intro i hi
            simpa [hi, show i < w by omega] using hbits i
          have hrest : word w xs = word w ys := by
            apply BitVec.eq_of_getLsbD_eq
            intro i hi
            by_cases hin : i + 8 < w
            · have hbit := hbits (i + 8)
              rw [BitVec.getLsbD_of_ge x.toBitVec _ (by omega),
                BitVec.getLsbD_of_ge y.toBitVec _ (by omega)] at hbit
              simpa [hin, show ¬ i + 8 < 8 by omega] using hbit
            · rw [getLsbD_word_of_ge w xs (by omega), getLsbD_word_of_ge w ys (by omega)]
          rw [hfirst, ih hlength (by omega) hrest]

/-- **A message that fits goes through the register as one word.** -/
theorem update_eq_bitSteps (poly crc : BitVec w) (bytes : Bytes) (hfits : 8 * bytes.length ≤ w) :
    update poly crc bytes = bitSteps poly (8 * bytes.length) (crc ^^^ word w bytes) := by
  -- the bytes that are still to come wait above the first one, and come down with eight bits
  induction bytes generalizing crc with
  | nil =>
      show crc = crc ^^^ 0#w
      rw [BitVec.xor_zero]
  | cons byte bytes ih =>
      rw [List.length_cons] at hfits
      have hdown : bitSteps poly 8 (word w bytes <<< 8) = word w bytes :=
        bitSteps_shiftLeft poly 8 _ (fun i hi => getLsbD_word_of_ge w bytes (by omega))
      show update poly (bitSteps poly 8 (crc ^^^ byte.toBitVec.setWidth w)) bytes = _
      rw [ih _ (by omega), List.length_cons, Nat.mul_succ, Nat.add_comm, bitSteps_add,
        show word w (byte :: bytes) = byte.toBitVec.setWidth w ^^^ (word w bytes <<< 8) from rfl,
        ← BitVec.xor_assoc, bitSteps_xor poly 8 (crc ^^^ _), hdown]

/-! ## §4. Bursts. -/

/-- What two such messages share, and where they differ. -/
theorem DifferWithin.split {n : Nat} {a b : Bytes} (h : DifferWithin n a b) :
    ∃ before xs ys after, a = before ++ (xs ++ after) ∧ b = before ++ (ys ++ after)
      ∧ xs.length = ys.length ∧ xs.length ≤ n ∧ xs ≠ ys := by
  obtain ⟨hlength, hne, start, hwindow⟩ := h
  have hbefore : a.take start = b.take start := by
    apply List.ext_getElem?
    intro i
    rw [List.getElem?_take, List.getElem?_take]
    by_cases hi : i < start
    · rw [if_pos hi, if_pos hi]
      by_contra hdiffer
      exact absurd (hwindow i hdiffer).1 (by omega)
    · rw [if_neg hi, if_neg hi]
  have hafter : a.drop (start + n) = b.drop (start + n) := by
    apply List.ext_getElem?
    intro i
    rw [List.getElem?_drop, List.getElem?_drop]
    by_contra hdiffer
    exact absurd (hwindow _ hdiffer).2 (by omega)
  have hsplit : ∀ c : Bytes, c = c.take start ++ ((c.drop start).take n ++ c.drop (start + n)) := by
    intro c
    rw [← List.drop_drop, List.take_append_drop, List.take_append_drop]
  refine ⟨a.take start, (a.drop start).take n, (b.drop start).take n, a.drop (start + n),
    hsplit a, ?_, ?_, ?_, ?_⟩
  · rw [hbefore, hafter]
    exact hsplit b
  · simp only [List.length_take, List.length_drop, hlength]
  · exact List.length_take_le _ _
  · intro hsame
    apply hne
    rw [hsplit a, hsplit b, hbefore, hafter, hsame]

theorem differWithin_append {n : Nat} {xs ys : Bytes} (before after : Bytes)
    (hlength : xs.length = ys.length) (hle : xs.length ≤ n) (hne : xs ≠ ys) :
    DifferWithin n (before ++ (xs ++ after)) (before ++ (ys ++ after)) := by
  refine ⟨?_, ?_, before.length, ?_⟩
  · simp only [List.length_append, hlength]
  · intro hsame
    exact hne (List.append_cancel_right (List.append_cancel_left hsame))
  · intro i hdiffer
    by_contra hout
    apply hdiffer
    by_cases hlow : i < before.length
    · rw [List.getElem?_append_left hlow, List.getElem?_append_left hlow]
    · rw [List.getElem?_append_right (by omega), List.getElem?_append_right (by omega),
        List.getElem?_append_right (by omega), List.getElem?_append_right (by omega), hlength]

/-- A word beside the burst is the same in both. -/
theorem readLe_eq_of_window {n start : Nat} {a b : Bytes} (hlength : a.length = b.length)
    (hwindow : ∀ i, a[i]? ≠ b[i]? → start ≤ i ∧ i < start + n) {length offset : Nat}
    (hbeside : offset + length ≤ start ∨ start + n ≤ offset) :
    readLe length b offset = readLe length a offset := by
  unfold readLe
  congr 1
  apply slice_congr hlength.symm
  intro i hlow hhigh
  by_contra hdiffer
  have hin := hwindow i (fun hsame => hdiffer hsame.symm)
  omega

/-- The burst is left as it is where something else is written over. -/
theorem differWithin_overwrite {n start : Nat} {a b xs : Bytes} {offset : Nat} (hne : a ≠ b)
    (hlength : a.length = b.length) (hwindow : ∀ i, a[i]? ≠ b[i]? → start ≤ i ∧ i < start + n)
    (hfits : offset + xs.length ≤ a.length)
    (hbeside : offset + xs.length ≤ start ∨ start + n ≤ offset) :
    DifferWithin n (overwrite a offset xs) (overwrite b offset xs) := by
  have hfits' : offset + xs.length ≤ b.length := hlength ▸ hfits
  have hat := overwrite_getElem? hfits
  have hat' := overwrite_getElem? hfits'
  refine ⟨by rw [overwrite_length hfits, overwrite_length hfits', hlength], ?_, start, ?_⟩
  · intro hsame
    apply hne
    apply List.ext_getElem?
    intro i
    by_contra hdiffer
    have hin := hwindow i hdiffer
    have hboth : (overwrite a offset xs)[i]? = (overwrite b offset xs)[i]? := by rw [hsame]
    rw [hat, hat', if_neg (by omega), if_neg (by omega)] at hboth
    exact hdiffer hboth
  · intro i hdiffer
    apply hwindow
    intro hsame
    apply hdiffer
    rw [hat, hat', hsame]

/-- **Every burst that fits the register is detected.** -/
theorem update_ne_of_differWithin (hpoly : poly.msb = true) {n : Nat} (hn : 8 * n ≤ w)
    {a b : Bytes} (h : DifferWithin n a b) (crc : BitVec w) :
    update poly crc a ≠ update poly crc b := by
  obtain ⟨before, xs, ys, after, rfl, rfl, hlength, hle, hne⟩ := h.split
  intro heq
  simp only [update_append] at heq
  -- what follows the burst is undone, and what came before it is the register both started with
  have hburst := update_injective hpoly after heq
  rw [update_eq_bitSteps poly _ xs (by omega), update_eq_bitSteps poly _ ys (by omega),
    ← hlength] at hburst
  have hword := (BitVec.xor_right_inj _).mp (bitSteps_injective hpoly _ hburst)
  exact hne (word_injective hlength (by omega) hword)

end RustFirmware.Lib.Crc
