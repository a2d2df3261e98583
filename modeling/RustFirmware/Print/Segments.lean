/-
  RustFirmware.Print.Segments
  ───────────────────────────
  **`print` INVERTS THE WRITING OF FORMAT STRINGS.**

  A format string is written from segments: literal texts with their braces doubled,
  and placeholders.  `print` emits the texts and the rendered arguments.

      §1   segments, how they are written and rendered
      §2   the numerals of both renderers
      §3   the specifier of a placeholder
      §4   the scanner: what is on the console together with the pending literal
-/
import RustFirmware.Print.Format
import RustFirmware.Lib.Numerals

namespace RustFirmware.Print

open RustFirmware.Lib

/-! ## §1. Segments. -/

/-- What is between the braces of `{:[#][0][width]x}`, and the integer that it asks for.
    Without the flag `0` no width starts with that digit: it would be the flag. -/
structure HexPlaceholder where
  argument  : FormatArgument
  value     : UInt64
  fits      : argument.integer? = some value
  alternate : Bool
  zeroPad   : Bool
  width     : List (Fin 10)
  notFlag   : zeroPad = true ∨ width.head? ≠ some 0

/-- One part of a format string. -/
inductive Segment where
  | literal (text : Bytes) (valid : utf8Valid text = true)
  | display (argument : FormatArgument)
  | hex (placeholder : HexPlaceholder)

def isBrace (byte : UInt8) : Bool := byte == openBrace || byte == closeBrace

/-- A text of decimal digits. -/
def digitText (digits : List (Fin 10)) : Bytes := digits.map (fun (d : Fin 10) => digitByte d.val)

/-- The number that decimal digits stand for. -/
def decimalValue (digits : List (Fin 10)) : Nat :=
  digits.foldl (fun n (d : Fin 10) => 10 * n + d.val) 0

/-- The text between the braces. -/
def HexPlaceholder.spec (p : HexPlaceholder) : Bytes :=
  0x3a :: ((if p.alternate then [0x23] else []) ++ ((if p.zeroPad then [0x30] else [])
    ++ (digitText p.width ++ ascii "x")))

/-- A segment in a format string. -/
def Segment.written : Segment → Bytes
  | .literal text _ => doubled isBrace text
  | .display _ => [openBrace, closeBrace]
  | .hex p => openBrace :: (p.spec ++ [closeBrace])

def Segment.argument? : Segment → Option FormatArgument
  | .literal _ _ => none
  | .display argument => some argument
  | .hex p => some p.argument

/-- What `{}` renders. -/
def displayText : FormatArgument → Bytes
  | .str value   => value
  | .bool value  => if value then ascii "true" else ascii "false"
  | .usize value => numeral 10 value.toNat
  | .u64 value   => numeral 10 value.toNat
  | .u32 value   => numeral 10 value.toNat

/-- A hexadecimal numeral with its prefix, padded on the left: with spaces in front of the
    prefix, or with zeros behind it. -/
def hexField (alternate zeroPad : Bool) (width value : Nat) : Bytes :=
  let mark := if alternate then ascii "0x" else []
  let digits := numeral 16 value
  let padding := width - (mark.length + digits.length)
  if zeroPad then mark ++ (List.replicate padding 0x30 ++ digits)
  else List.replicate padding 0x20 ++ (mark ++ digits)

/-- What a segment renders, with the width that `widthOf` reads from its digits. -/
def Segment.rendered (widthOf : List (Fin 10) → Nat) : Segment → Bytes
  | .literal text _ => text
  | .display argument => displayText argument
  | .hex p => hexField p.alternate p.zeroPad (widthOf p.width) p.value.toNat

/-- The format string. -/
def formatOf (segments : List Segment) : Bytes := segments.flatMap Segment.written

/-- The arguments, in order. -/
def argumentsOf (segments : List Segment) : List FormatArgument :=
  segments.filterMap Segment.argument?

/-- The rendered parts, one after another. -/
def renderedOf (widthOf : List (Fin 10) → Nat) (segments : List Segment) : Bytes :=
  segments.flatMap (Segment.rendered widthOf)

/-- The width that the parser of specifiers makes of its digits. -/
def saturatedWidth (digits : List (Fin 10)) : Nat := min (decimalValue digits) (2 ^ 64 - 1)

/-- A field is as wide as its width, or wider. -/
theorem hexField_length (alternate zeroPad : Bool) (width value : Nat) :
    (hexField alternate zeroPad width value).length
      = max width ((if alternate then 2 else 0) + (numeral 16 value).length) := by
  have hmark : (if alternate then ascii "0x" else []).length = if alternate then 2 else 0 := by
    cases alternate <;> rfl
  unfold hexField
  cases zeroPad
  · simp only [Bool.false_eq_true, if_false, List.length_append, List.length_replicate, hmark]
    omega
  · simp only [if_true, List.length_append, List.length_replicate, hmark]
    omega

/-- A field that is padded with zeros is read back. -/
theorem hexField_injective {width m n : Nat}
    (h : hexField true true width m = hexField true true width n) : m = n := by
  have hvalue : ∀ value, numeralValue 16 ((hexField true true width value).drop 2) = value := by
    intro value
    show numeralValue 16 (List.replicate _ 0x30 ++ numeral 16 value) = value
    rw [numeralValue_zeros, numeralValue_numeral (by decide) (by decide)]
  rw [← hvalue m, h, hvalue n]

/-! ## §2. Numerals. -/

theorem decimalDigit : ∀ n < 10, UInt8.ofNat (0x30 + n) = digitByte n := by decide

/-- **The decimal loop puts the numeral in front of what the buffer has.**  The invariant
    is that the places left are enough for `value`. -/
theorem decimalLoop_ok {passes value index : Nat} {buffer : Bytes} (hpasses : index < passes)
    (hbuffer : index ≤ buffer.length) (h : value < 10 ^ index) :
    ∃ buffer' index', decimalLoop passes value buffer index = .ok (buffer', index')
      ∧ index' ≤ buffer'.length
      ∧ buffer'.drop index' = significant 10 value ++ buffer.drop index := by
  induction passes generalizing value index buffer with
  | zero => exact absurd hpasses (Nat.not_lt_zero _)
  | succ passes ih =>
      unfold decimalLoop
      by_cases hzero : value = 0
      · subst hzero
        exact ⟨buffer, index, rfl, hbuffer, rfl⟩
      -- a value that is not zero has a digit left, and by the invariant a place for it
      · have hindex : 1 ≤ index := by
          by_contra hnone
          have hlow : index = 0 := by omega
          subst hlow
          exact hzero (by simpa using h)
        obtain ⟨place, rfl⟩ : ∃ place, index = place + 1 := ⟨index - 1, by omega⟩
        have hplace : place < buffer.length := hbuffer
        have hdigit : value % 10 < 10 := Nat.mod_lt _ (by decide)
        have hbyte : 0x30 + value % 10 < 2 ^ 8 := by omega
        rw [if_neg hzero, subWord_ok hindex, addWord_ok hbyte]
        show ∃ buffer' index', (indexSet buffer place (UInt8.ofNat (0x30 + value % 10))
          >>= fun buffer => decimalLoop passes (value / 10) buffer place) = _ ∧ _
        rw [indexSet_ok hplace, ok_bind, decimalDigit _ hdigit]
        have hhigh : value / 10 < 10 ^ place := by
          rw [Nat.pow_succ] at h
          omega
        have hset : place ≤ (buffer.set place (digitByte (value % 10))).length := by
          rw [List.length_set]
          exact Nat.le_of_lt hplace
        obtain ⟨buffer', index', hloop, hin, hdrop⟩ := ih (by omega) hset hhigh
        refine ⟨buffer', index', hloop, hin, ?_⟩
        rw [hdrop, drop_set_self hplace, significant_step (by decide) hzero, List.append_assoc]
        rfl

/-- **Decimal numerals.** -/
theorem printDecimalU64_ok (value : UInt64) (console : Bytes) :
    printDecimalU64 value console = .ok (console ++ numeral 10 value.toNat) := by
  unfold printDecimalU64
  by_cases hzero : value.toNat = 0
  · rw [if_pos hzero, hzero]
    rfl
  · have hvalue : value.toNat < 10 ^ 20 := Nat.lt_trans value.toNat_lt (by decide)
    have hbuffer : 20 ≤ (List.replicate 20 (0 : UInt8)).length := by decide
    obtain ⟨buffer, index, hloop, hin, hdrop⟩ := decimalLoop_ok (by decide : 20 < 21) hbuffer hvalue
    rw [if_neg hzero, hloop, ok_bind]
    show (indexRange buffer index buffer.length >>= fun text => _) = _
    rw [indexRange_ok hin (Nat.le_refl _), ok_bind, ← List.length_drop, List.take_length, hdrop,
      significant_of_ne hzero]
    show Except.ok (console ++ (numeral 10 value.toNat ++ (List.replicate 20 (0 : UInt8)).drop 20)) = _
    rw [List.drop_of_length_le (by decide), List.append_nil]

theorem hexDigits_at : ∀ n < 16, hexDigits[n]? = some (digitByte n) := by decide

/-- **The hexadecimal loop has the numeral from its lowest digit on.** -/
theorem hexLoop_ok {passes current count : Nat} {digits : Bytes} (hlength : digits.length = 16)
    (hcount : count ≤ 16) (hpasses : 16 < passes + count) (h : current < 16 ^ (16 - count)) :
    ∃ digits' count', hexLoop passes current digits count = .ok (digits', count')
      ∧ digits'.length = 16 ∧ count' ≤ 16
      ∧ (digits'.take count').reverse = significant 16 current ++ (digits.take count).reverse := by
  induction passes generalizing current count digits with
  | zero => omega
  | succ passes ih =>
      unfold hexLoop
      by_cases hzero : current = 0
      · subst hzero
        exact ⟨digits, count, rfl, hlength, hcount, rfl⟩
      · have hplace : count < 16 := by
          by_contra hfull
          have hnone : 16 - count = 0 := by omega
          rw [hnone] at h
          exact hzero (by simpa using h)
        have hroom : count < digits.length := by omega
        have hdigit : current % 16 < 16 := Nat.mod_lt _ (by decide)
        have hmask : current &&& 0xf = current % 16 := Nat.and_two_pow_sub_one_eq_mod current 4
        have hshift : current >>> 4 = current / 16 := Nat.shiftRight_eq_div_pow current 4
        rw [if_neg hzero, hmask, hshift, index_ok (hexDigits_at _ hdigit), ok_bind,
          indexSet_ok hroom, ok_bind]
        have hhigh : current / 16 < 16 ^ (16 - (count + 1)) := by
          obtain ⟨left, hleft⟩ : ∃ left, 16 - count = left + 1 := ⟨15 - count, by omega⟩
          have hless : 16 - (count + 1) = left := by omega
          rw [hleft, Nat.pow_succ] at h
          rw [hless]
          omega
        have hset : (digits.set count (digitByte (current % 16))).length = 16 := by
          rw [List.length_set]
          exact hlength
        obtain ⟨digits', count', hloop, hlength', hcount', htake⟩ := ih hset hplace (by omega) hhigh
        refine ⟨digits', count', hloop, hlength', hcount', ?_⟩
        rw [htake, take_set_succ hroom, List.reverse_append, significant_step (by decide) hzero,
          List.append_assoc]
        rfl

theorem hexDigitsOf_ok (value : UInt64) :
    ∃ digits count, hexDigitsOf value = .ok (digits, count) ∧ digits.length = 16 ∧ count ≤ 16
      ∧ (digits.take count).reverse = numeral 16 value.toNat := by
  unfold hexDigitsOf
  by_cases hzero : value.toNat = 0
  · rw [if_pos hzero, hzero]
    exact ⟨_, 1, rfl, rfl, by decide, rfl⟩
  · have hvalue : value.toNat < 16 ^ (16 - 0) := Nat.lt_of_lt_of_le value.toNat_lt (by decide)
    obtain ⟨digits, count, hloop, hlength, hcount, htake⟩ :=
      hexLoop_ok (List.length_replicate (n := 16) (a := (0 : UInt8))) (Nat.zero_le _)
        (by decide : 16 < 17 + 0) hvalue
    rw [if_neg hzero]
    refine ⟨digits, count, hloop, hlength, hcount, ?_⟩
    rw [htake, List.take_zero, List.reverse_nil, List.append_nil, significant_of_ne hzero]

/-- **The digits turned round**, `todo` of them still to do. -/
theorem reverseLoop_ok {digits buffer : Bytes} {count todo i : Nat} (hdigits : count ≤ digits.length)
    (hbuffer : count ≤ buffer.length) (hcount : i + todo = count) :
    ∃ buffer', reverseLoop digits count todo buffer i = .ok buffer' ∧ count ≤ buffer'.length
      ∧ buffer'.take count = buffer.take i ++ (digits.take todo).reverse := by
  induction todo generalizing buffer i with
  | zero =>
      refine ⟨buffer, rfl, hbuffer, ?_⟩
      rw [← hcount, Nat.add_zero, List.take_zero, List.reverse_nil, List.append_nil]
  | succ todo ih =>
      -- place `i` gets the last of the digits that are still to do
      have hplace : count - 1 - i = todo := by omega
      have hin : todo < digits.length := by omega
      have hroom : i < buffer.length := by omega
      have hset : count ≤ (buffer.set i digits[todo]).length := by
        rw [List.length_set]
        exact hbuffer
      unfold reverseLoop
      rw [subWord_ok (by omega : 1 ≤ count), ok_bind, subWord_ok (by omega : i ≤ count - 1), ok_bind,
        hplace, index_ok (List.getElem?_eq_getElem hin), ok_bind, indexSet_ok hroom, ok_bind]
      obtain ⟨buffer', hloop, hlength, htake⟩ := ih hset (by omega : i + 1 + todo = count)
      refine ⟨buffer', hloop, hlength, ?_⟩
      rw [htake, take_set_succ hroom, List.take_succ_eq_append_getElem hin, List.reverse_append,
        List.append_assoc]
      rfl

theorem putsTimes_eq (byte : UInt8) (times : Nat) (console : Bytes) :
    putsTimes [byte] times console = console ++ List.replicate times byte := by
  induction times generalizing console with
  | zero => exact (List.append_nil console).symm
  | succ times ih =>
      show putsTimes [byte] times (console ++ [byte]) = _
      rw [ih, List.append_assoc]
      rfl

/-- **Hexadecimal fields.** -/
theorem printHexU64_ok (value : UInt64) (alternate : Bool) (width : Nat) (zeroPad : Bool)
    (console : Bytes) :
    printHexU64 value alternate width zeroPad console
      = .ok (console ++ hexField alternate zeroPad width value.toNat) := by
  obtain ⟨digits, count, hdigits, hlength, hcount, hnumeral⟩ := hexDigitsOf_ok value
  have hlengths : (numeral 16 value.toNat).length = count := by
    rw [← hnumeral, List.length_reverse, List.length_take]
    omega
  obtain ⟨buffer, hloop, hbuffer, htake⟩ :=
    @reverseLoop_ok digits (List.replicate 16 0) count count 0 (by omega)
      (by rw [List.length_replicate]; exact hcount) (Nat.zero_add count)
  rw [List.take_zero, List.nil_append, hnumeral] at htake
  unfold printHexU64
  rw [hdigits, ok_bind]
  show (reverseLoop digits count count (List.replicate 16 0) 0 >>= fun buffer => _) = _
  rw [hloop, ok_bind]
  show (indexRange buffer 0 count >>= fun text => _) = _
  rw [indexRange_ok (Nat.zero_le _) hbuffer, ok_bind, List.drop_zero, Nat.sub_zero, htake]
  have hspaces : ∀ times console, putsTimes (ascii " ") times console
      = console ++ List.replicate times 0x20 := putsTimes_eq 0x20
  have hzeros : ∀ times console, putsTimes (ascii "0") times console
      = console ++ List.replicate times 0x30 := putsTimes_eq 0x30
  have hmark : (ascii "0x").length = 2 := rfl
  -- the four cases of prefix and padding
  cases alternate <;> cases zeroPad <;>
    simp [hexField, puts, hspaces, hzeros, hmark, hlengths]

/-- **What `{}` renders.** -/
theorem printDisplay_ok (argument : FormatArgument) (console : Bytes) :
    printDisplay argument console = .ok (console ++ displayText argument) := by
  cases argument with
  | str value => rfl
  | bool value => rfl
  | usize value => exact printDecimalU64_ok value console
  | u64 value => exact printDecimalU64_ok value console
  | u32 value =>
      show printDecimalU64 value.toUInt64 console = _
      rw [printDecimalU64_ok, UInt32.toNat_toUInt64]
      rfl

/-! ## §3. The specifier. -/

theorem digitByte_digit : ∀ n < 10,
    isAsciiDigit (digitByte n) = true ∧ (digitByte n - 0x30).toNat = n := by decide

/-- **The digit loop reads a width**, or the largest word where that is less. -/
theorem parseWidth_digits (digits : List (Fin 10)) (n : Nat) :
    parseWidth (digitText digits ++ ascii "x") (min n (2 ^ 64 - 1))
      = (min (digits.foldl (fun n (d : Fin 10) => 10 * n + d.val) n) (2 ^ 64 - 1), ascii "x") := by
  induction digits generalizing n with
  | nil => rfl
  | cons d digits ih =>
      obtain ⟨hdigit, hvalue⟩ := digitByte_digit d d.isLt
      -- what has saturated once stays saturated
      have hwidth : saturatingAdd 64 (saturatingMul 64 (min n (2 ^ 64 - 1)) 10) d
          = min (10 * n + d) (2 ^ 64 - 1) := by
        unfold saturatingAdd saturatingMul
        omega
      show parseWidth (digitByte d :: (digitText digits ++ ascii "x")) _ = _
      unfold parseWidth
      rw [if_pos hdigit, hvalue, hwidth]
      exact ih (10 * n + d)

/-- A flag is taken exactly where it was written. -/
theorem takeFlag_ok {flag : UInt8} {given : Bool} {rest : Bytes}
    (h : given = true ∨ rest.head? ≠ some flag) :
    takeFlag flag ((if given then [flag] else []) ++ rest) = (given, rest) := by
  cases given with
  | true => exact if_pos rfl
  | false =>
      show takeFlag flag rest = _
      cases rest with
      | nil => rfl
      | cons byte rest =>
          have hbyte : byte ≠ flag := by simpa using h
          exact if_neg hbyte

/-- The bytes of a specifier behind its colon and its `#`. -/
def isWidthByte (byte : UInt8) : Bool := isAsciiDigit byte || byte == 0x78

theorem digitText_width (digits : List (Fin 10)) :
    ∀ byte ∈ digitText digits ++ ascii "x", isWidthByte byte = true := by
  intro byte hbyte
  rcases List.mem_append.mp hbyte with hdigit | hx
  · obtain ⟨d, -, rfl⟩ := List.mem_map.mp hdigit
    unfold isWidthByte
    rw [(digitByte_digit d d.isLt).1]
    rfl
  · obtain rfl := List.mem_singleton.mp hx
    rfl

namespace HexPlaceholder

/-- What is behind the flag `#`. -/
def behindMark (p : HexPlaceholder) : Bytes :=
  (if p.zeroPad then [0x30] else []) ++ (digitText p.width ++ ascii "x")

theorem behindMark_width (p : HexPlaceholder) : ∀ byte ∈ p.behindMark, isWidthByte byte = true := by
  intro byte hbyte
  rcases List.mem_append.mp hbyte with hflag | hrest
  · cases hpad : p.zeroPad with
    | true =>
        rw [hpad] at hflag
        obtain rfl := List.mem_singleton.mp hflag
        rfl
    | false =>
        rw [hpad] at hflag
        cases hflag
  · exact digitText_width p.width byte hrest

/-- A width that follows no flag does not start like one. -/
theorem width_head (p : HexPlaceholder) :
    p.zeroPad = true ∨ (digitText p.width ++ ascii "x").head? ≠ some 0x30 := by
  refine p.notFlag.imp_right (fun hwidth => ?_)
  cases hdigits : p.width with
  | nil => decide
  | cons d digits =>
      intro hhead
      have hzero : d = 0 :=
        Fin.ext (digitByte_injective (by omega) (by decide) (Option.some.inj hhead))
      rw [hdigits, hzero] at hwidth
      exact hwidth rfl

/-- **The parser of specifiers reads what was written.** -/
theorem parseFormatSpec_spec (p : HexPlaceholder) :
    parseFormatSpec p.spec = some ⟨.lowerHex, p.alternate, saturatedWidth p.width, p.zeroPad⟩ := by
  have hmark : p.behindMark.head? ≠ some 0x23 := by
    intro hhead
    exact absurd (p.behindMark_width _ (List.mem_of_mem_head? hhead)) (by decide)
  have halternate := @takeFlag_ok 0x23 p.alternate p.behindMark (.inr hmark)
  have hpad : takeFlag 0x30 p.behindMark = _ := takeFlag_ok p.width_head
  have hwidth := parseWidth_digits p.width 0
  show parseFormatSpec (0x3a :: ((if p.alternate then [0x23] else []) ++ p.behindMark)) = _
  rw [parseFormatSpec, if_neg (by decide), halternate]
  dsimp only
  rw [hpad]
  dsimp only
  rw [Nat.zero_min] at hwidth
  rw [hwidth]
  exact if_pos rfl

/-- No byte of a specifier is a brace, and all are ASCII. -/
theorem spec_plain (p : HexPlaceholder) : ∀ byte ∈ p.spec, byte < 0x80 ∧ isBrace byte = false := by
  have hwidth : ∀ byte, isWidthByte byte = true → byte < 0x80 ∧ isBrace byte = false := by
    intro byte h
    simp only [isWidthByte, isAsciiDigit, isBrace, openBrace, closeBrace, Bool.or_eq_true,
      Bool.and_eq_true, decide_eq_true_eq, beq_iff_eq, Bool.or_eq_false_iff] at h ⊢
    grind
  intro byte hbyte
  rcases List.mem_cons.mp hbyte with rfl | hbyte
  · decide
  · rcases List.mem_append.mp hbyte with hflag | hrest
    · cases hmark : p.alternate with
      | true =>
          rw [hmark] at hflag
          obtain rfl := List.mem_singleton.mp hflag
          decide
      | false =>
          rw [hmark] at hflag
          cases hflag
    · exact hwidth byte (p.behindMark_width byte hrest)

/-- **What a placeholder renders.** -/
theorem printArgument_ok (p : HexPlaceholder) (console : Bytes) :
    printArgument p.argument p.spec console = .ok (console
      ++ hexField p.alternate p.zeroPad (saturatedWidth p.width) p.value.toNat) := by
  unfold printArgument
  rw [p.parseFormatSpec_spec]
  show printHex p.argument _ console = _
  unfold printHex
  rw [p.fits]
  exact printHexU64_ok p.value p.alternate (saturatedWidth p.width) p.zeroPad console

end HexPlaceholder

/-! ## §4. The scanner. -/

theorem isBrace_ascii (byte : UInt8) (h : isBrace byte = true) : byte < 0x80 := by
  simp only [isBrace, openBrace, closeBrace, Bool.or_eq_true, beq_iff_eq] at h
  grind

theorem isBrace_cases {byte : UInt8} (h : isBrace byte = true) :
    byte = openBrace ∨ byte = closeBrace := by
  simpa [isBrace] using h

/-- A format string is valid UTF-8. -/
theorem formatOf_valid (segments : List Segment) : utf8Valid (formatOf segments) = true := by
  induction segments with
  | nil => rfl
  | cons segment segments ih =>
      refine utf8Valid_append ?_ ih
      cases segment with
      | literal text valid => exact (utf8Valid_doubled isBrace_ascii text).trans valid
      | display argument => rfl
      | hex p =>
          refine utf8Valid_ascii (fun byte hbyte => ?_)
          rcases List.mem_cons.mp hbyte with rfl | hbyte
          · decide
          · rcases List.mem_append.mp hbyte with hspec | hclose
            · exact (p.spec_plain byte hspec).1
            · obtain rfl := List.mem_singleton.mp hclose
              decide

/-- **The invariant of the scanner**: the console with the pending literal behind it is
    `emitted`. -/
structure Standing (format : Bytes) (literalStart index : Nat) (console emitted : Bytes) : Prop where
  start_le : literalStart ≤ index
  index_le : index ≤ format.length
  boundary : isCharBoundary format literalStart = true
  shown    : console ++ (format.drop literalStart).take (index - literalStart) = emitted

namespace Standing

variable {format console emitted : Bytes} {literalStart index : Nat}

/-- Nothing is pending. -/
theorem fresh (hle : index ≤ format.length) (hcut : isCharBoundary format index = true) :
    Standing format index index console console where
  start_le := Nat.le_refl index
  index_le := hle
  boundary := hcut
  shown := by rw [Nat.sub_self, List.take_zero, List.append_nil]

/-- One more byte is pending. -/
theorem more {byte : UInt8} (h : Standing format literalStart index console emitted)
    (hat : format[index]? = some byte) :
    Standing format literalStart (index + 1) console (emitted ++ [byte]) where
  start_le := Nat.le_succ_of_le h.start_le
  index_le := (List.getElem?_eq_some_iff.mp hat).1
  boundary := h.boundary
  shown := by
    have hstart := h.start_le
    have hsub : index + 1 - literalStart = index - literalStart + 1 := by omega
    have hplace : literalStart + (index - literalStart) = index := by omega
    have hbyte : (format.drop literalStart)[index - literalStart]? = some byte := by
      rw [List.getElem?_drop, hplace]
      exact hat
    rw [hsub, List.take_add_one, hbyte, ← h.shown, List.append_assoc]
    rfl

/-- The pending literal is written. -/
theorem flush (h : Standing format literalStart index console emitted)
    (hcut : isCharBoundary format index = true) :
    flushLiteral format literalStart index console = .ok emitted := by
  unfold flushLiteral
  have hshown := h.shown
  by_cases hnone : index ≤ literalStart
  · have hsub : index - literalStart = 0 := Nat.sub_eq_zero_of_le hnone
    rw [hsub, List.take_zero, List.append_nil] at hshown
    rw [if_pos hnone, hshown]
  · rw [if_neg hnone, strSlice_ok h.boundary hcut h.start_le h.index_le, ← hshown]
    rfl

end Standing

/-- What a string goes on with. -/
theorem drop_head {text rest : Bytes} {byte : UInt8} {index : Nat}
    (h : text.drop index = byte :: rest) :
    text[index]? = some byte ∧ text.drop (index + 1) = rest := by
  rw [← List.head?_drop, ← List.tail_drop, h]
  exact ⟨rfl, rfl⟩

section
variable {format console emitted : Bytes} {arguments : List FormatArgument}
  {passes literalStart index argumentIndex : Nat}

/-- The end of the format. -/
theorem printLoop_end (h : Standing format literalStart index console emitted)
    (hend : format.drop index = []) :
    printLoop format arguments (passes + 1) literalStart index argumentIndex console
      = .ok emitted := by
  have hindex : index = format.length := Nat.le_antisymm h.index_le (List.drop_eq_nil_iff.mp hend)
  subst hindex
  unfold printLoop
  rw [List.getElem?_eq_none (Nat.le_refl _)]
  exact h.flush (isCharBoundary_length format)

/-- A byte that is no brace stays pending. -/
theorem printLoop_byte {byte : UInt8} (hat : format[index]? = some byte)
    (hplain : isBrace byte = false) :
    printLoop format arguments (passes + 1) literalStart index argumentIndex console
      = printLoop format arguments passes literalStart (index + 1) argumentIndex console := by
  simp only [isBrace, Bool.or_eq_false_iff, beq_eq_false_iff_ne] at hplain
  rw [printLoop, hat]
  dsimp only
  rw [if_neg hplain.1, if_neg hplain.2]

/-- A brace that is doubled is written once, behind what was pending. -/
theorem printLoop_escape {brace : UInt8} (h : Standing format literalStart index console emitted)
    (hat : format[index]? = some brace) (hnext : format[index + 1]? = some brace)
    (hbrace : isBrace brace = true) :
    printLoop format arguments (passes + 1) literalStart index argumentIndex console
      = printLoop format arguments passes (index + 2) (index + 2) argumentIndex
          (emitted ++ [brace]) := by
  have hflush := h.flush (isCharBoundary_ascii hat (isBrace_ascii brace hbrace))
  rw [printLoop, hat]
  dsimp only
  cases isBrace_cases hbrace with
  | inl hopen =>
      subst hopen
      rw [if_pos rfl, if_pos hnext, hflush]
      rfl
  | inr hclose =>
      subst hclose
      have hother : closeBrace ≠ openBrace := by decide
      rw [if_neg hother, if_pos rfl, if_pos hnext, hflush]
      rfl

/-- **A literal text**: it is on the console or pending when the scanner is behind it. -/
theorem printLoop_literal {after text : Bytes} {r : Checked Bytes} (hvalid : utf8Valid format = true)
    (h : Standing format literalStart index console emitted)
    (hpasses : format.length < passes + index) (hdrop : format.drop index = doubled isBrace text ++ after)
    (hcont : ∀ passes literalStart index console, format.length < passes + index →
      format.drop index = after → Standing format literalStart index console (emitted ++ text) →
      printLoop format arguments passes literalStart index argumentIndex console = r) :
    printLoop format arguments passes literalStart index argumentIndex console = r := by
  induction text generalizing passes literalStart index console emitted with
  | nil =>
      rw [List.append_nil] at hcont
      exact hcont passes literalStart index console hpasses hdrop h
  | cons byte text ih =>
      obtain ⟨passes, rfl⟩ : ∃ n, passes = n + 1 := ⟨passes - 1, by have := h.index_le; omega⟩
      by_cases hbrace : isBrace byte = true
      · have hhead : format.drop index = byte :: byte :: (doubled isBrace text ++ after) := by
          rw [hdrop]
          show (if isBrace byte then [byte, byte] else [byte]) ++ doubled isBrace text ++ after = _
          rw [if_pos hbrace]
          rfl
        obtain ⟨hat, htail⟩ := drop_head hhead
        obtain ⟨hnext, hbehind⟩ := drop_head htail
        rw [printLoop_escape h hat hnext hbrace]
        -- the scanner is behind both braces, and nothing is pending any more
        have hcut := isCharBoundary_after_ascii hvalid hnext (isBrace_ascii byte hbrace)
        have hle : index + 2 ≤ format.length := (List.getElem?_eq_some_iff.mp hnext).1
        refine ih (Standing.fresh hle hcut) (by omega) hbehind ?_
        rw [List.append_assoc]
        exact hcont
      · have hplain : isBrace byte = false := by simpa using hbrace
        have hhead : format.drop index = byte :: (doubled isBrace text ++ after) := by
          rw [hdrop]
          show (if isBrace byte then [byte, byte] else [byte]) ++ doubled isBrace text ++ after = _
          rw [if_neg hbrace]
          rfl
        obtain ⟨hat, hbehind⟩ := drop_head hhead
        rw [printLoop_byte hat hplain]
        refine ih (h.more hat) (by omega) hbehind ?_
        rw [List.append_assoc]
        exact hcont

/-- The closing brace behind a specifier. -/
theorem findClosingBrace_spec {spec after : Bytes} (hspec : ∀ byte ∈ spec, isBrace byte = false)
    (hdrop : format.drop index = spec ++ closeBrace :: after) :
    findClosingBrace format index = some (index + spec.length) := by
  have hfind : (spec ++ closeBrace :: after).findIdx? (fun byte => byte == closeBrace)
      = some spec.length := by
    rw [List.findIdx?_append, List.findIdx?_eq_none_iff.mpr ?_]
    · rw [List.findIdx?_cons, if_pos (by decide)]
      show some (0 + spec.length) = _
      rw [Nat.zero_add]
    · intro byte hbyte
      have hplain := hspec byte hbyte
      simp only [isBrace, Bool.or_eq_false_iff] at hplain
      exact hplain.2
  unfold findClosingBrace
  rw [hdrop, hfind]
  rfl

/-- **A placeholder**: what was pending is written, then the argument. -/
theorem printLoop_placeholder {spec after text : Bytes} {argument : FormatArgument}
    {r : Checked Bytes} (hvalid : utf8Valid format = true)
    (h : Standing format literalStart index console emitted)
    (hpasses : format.length < passes + index)
    (hspec : ∀ byte ∈ spec, byte < 0x80 ∧ isBrace byte = false)
    (hdrop : format.drop index = openBrace :: (spec ++ closeBrace :: after))
    (hargument : arguments[argumentIndex]? = some argument)
    (hprint : printArgument argument spec emitted = .ok text)
    (hcont : ∀ passes index, format.length < passes + index → format.drop index = after →
      Standing format index index text text →
      printLoop format arguments passes index index (argumentIndex + 1) text = r) :
    printLoop format arguments passes literalStart index argumentIndex console = r := by
  obtain ⟨passes, rfl⟩ : ∃ n, passes = n + 1 := ⟨passes - 1, by have := h.index_le; omega⟩
  obtain ⟨hat, htail⟩ := drop_head hdrop
  -- where the specifier ends
  have hclose : format.drop (index + 1 + spec.length) = closeBrace :: after := by
    rw [← List.drop_drop, htail, List.drop_left]
  obtain ⟨hend, hbehind⟩ := drop_head hclose
  -- behind the brace is a byte of the specifier or the closing brace, so this is no escape
  have hnext : format[index + 1]? ≠ some openBrace := by
    rw [← List.head?_drop, htail]
    cases spec with
    | nil =>
        show some closeBrace ≠ some openBrace
        decide
    | cons byte spec =>
        intro hopen
        have hplain := (hspec byte List.mem_cons_self).2
        rw [Option.some.inj hopen] at hplain
        exact absurd hplain (by decide)
  have hfind := findClosingBrace_spec (fun byte hbyte => (hspec byte hbyte).2) htail
  have hle : index + 1 + spec.length + 1 ≤ format.length := (List.getElem?_eq_some_iff.mp hend).1
  -- the specifier stands between two ASCII bytes, so cutting it out does not panic
  have hslice : strSlice format (index + 1) (index + 1 + spec.length) = .ok spec := by
    rw [strSlice_ok (isCharBoundary_after_ascii hvalid hat (by decide))
      (isCharBoundary_ascii hend (by decide)) (Nat.le_add_right _ _) (Nat.le_of_succ_le hle),
      Nat.add_sub_cancel_left, htail, List.take_left]
  have hflush := h.flush (isCharBoundary_ascii hat (by decide))
  rw [printLoop, hat]
  dsimp only
  rw [if_pos rfl, if_neg hnext, hflush, ok_bind, hfind]
  dsimp only
  rw [hslice, ok_bind, hargument]
  dsimp only
  rw [hprint, ok_bind]
  exact hcont passes _ (by omega) hbehind
    (Standing.fresh hle (isCharBoundary_after_ascii hvalid hend (by decide)))

/-- **The scanner of a written format**, by induction on what is left of it. -/
theorem printLoop_segments {segments : List Segment} (hvalid : utf8Valid format = true)
    (h : Standing format literalStart index console emitted)
    (hpasses : format.length < passes + index) (hdrop : format.drop index = formatOf segments)
    (harguments : arguments.drop argumentIndex = argumentsOf segments) :
    printLoop format arguments passes literalStart index argumentIndex console
      = .ok (emitted ++ renderedOf saturatedWidth segments) := by
  induction segments generalizing passes literalStart index argumentIndex console emitted with
  | nil =>
      obtain ⟨passes, rfl⟩ : ∃ n, passes = n + 1 := ⟨passes - 1, by have := h.index_le; omega⟩
      rw [printLoop_end h hdrop]
      show _ = Except.ok (emitted ++ [])
      rw [List.append_nil]
  | cons segment segments ih =>
      -- a segment that asks for an argument: the argument is there, the others are behind it
      have hargument : ∀ argument, segment.argument? = some argument →
          arguments[argumentIndex]? = some argument
            ∧ arguments.drop (argumentIndex + 1) = argumentsOf segments := by
        intro argument hsome
        have hcons : arguments.drop argumentIndex = argument :: argumentsOf segments := by
          rw [harguments]
          exact List.filterMap_cons_some hsome
        rw [← List.head?_drop, ← List.tail_drop, hcons]
        exact ⟨rfl, rfl⟩
      cases segment with
      | literal text valid =>
          refine printLoop_literal hvalid h hpasses hdrop ?_
          intro passes literalStart index console hpasses hdrop hstanding
          rw [ih hstanding hpasses hdrop harguments, List.append_assoc]
          rfl
      | display argument =>
          obtain ⟨hat, hrest⟩ := hargument argument rfl
          refine @printLoop_placeholder _ _ _ _ _ _ _ _ [] _ _ _ _ hvalid h hpasses
            (List.forall_mem_nil _) hdrop hat (printDisplay_ok argument emitted) ?_
          intro passes index hpasses hdrop hstanding
          rw [ih hstanding hpasses hdrop hrest, List.append_assoc]
          rfl
      | hex p =>
          obtain ⟨hat, hrest⟩ := hargument p.argument rfl
          have hopen : format.drop index
              = openBrace :: (p.spec ++ closeBrace :: formatOf segments) := by
            rw [hdrop]
            show openBrace :: (p.spec ++ [closeBrace]) ++ formatOf segments = _
            rw [List.cons_append, List.append_assoc]
            rfl
          refine printLoop_placeholder hvalid h hpasses p.spec_plain hopen hat
            (p.printArgument_ok emitted) ?_
          intro passes index hpasses hdrop hstanding
          rw [ih hstanding hpasses hdrop hrest, List.append_assoc]
          rfl

end

/-- The scanner of a written format, from its beginning. -/
theorem printLoop_formatOf (segments : List Segment) (console : Bytes) :
    printLoop (formatOf segments) (argumentsOf segments) ((formatOf segments).length + 1) 0 0 0
      console = .ok (console ++ renderedOf saturatedWidth segments) := by
  have hcut : isCharBoundary (formatOf segments) 0 = true := by
    unfold isCharBoundary
    cases formatOf segments <;> rfl
  exact printLoop_segments (formatOf_valid segments) (Standing.fresh (Nat.zero_le _) hcut)
    (Nat.lt_succ_self _) rfl rfl

/-- **`print` emits the texts and the rendered arguments**, and nothing else. -/
theorem print_segments (segments : List Segment) (console : Bytes) :
    print (formatOf segments) (argumentsOf segments) console
      = .ok (console ++ renderedOf saturatedWidth segments) :=
  printLoop_formatOf segments console

/-- `{:18446744073709551616x}`: its width does not fit in a word. -/
def widestPlaceholder : HexPlaceholder where
  argument  := .u64 0
  value     := 0
  fits      := rfl
  alternate := false
  zeroPad   := false
  width     := [1, 8, 4, 4, 6, 7, 4, 4, 0, 7, 3, 7, 0, 9, 5, 5, 1, 6, 1, 6]
  notFlag   := .inr (by decide)

/-- A width saturates: that field is one character too short. -/
theorem print_segments_wide :
    ¬ ∀ segments console, print (formatOf segments) (argumentsOf segments) console
      = .ok (console ++ renderedOf decimalValue segments) := by
  intro h
  -- the digits stand for 2 ^ 64, and only the length of the field is needed to see one less
  have hprinted := (printLoop_formatOf [.hex widestPlaceholder] []).symm.trans
    (h [.hex widestPlaceholder] [])
  have hlength := congrArg List.length (Except.ok.inj hprinted)
  have hfield : ∀ widthOf, ([] ++ renderedOf widthOf [.hex widestPlaceholder]).length
      = max (widthOf widestPlaceholder.width) 1 := by
    intro widthOf
    show (hexField false false (widthOf widestPlaceholder.width) 0 ++ []).length = _
    rw [List.append_nil, hexField_length]
    rfl
  rw [hfield, hfield] at hlength
  exact absurd hlength (by decide)

example : print (ascii "\x7b\x7bat \x7d\x7d\x7b:#06x\x7d, \x7b\x7d") [.u64 0xab, .u32 70] []
    = .ok (ascii "\x7bat \x7d0x00ab, 70") := by decide +kernel

end RustFirmware.Print
