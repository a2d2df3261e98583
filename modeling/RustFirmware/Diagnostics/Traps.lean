/-
  RustFirmware.Diagnostics.Traps
  ──────────────────────────────
  **THE REPORT OF A TRAP SAYS WHICH TRAP IT WAS.**

  Every trap of the firmware is fatal, and the line on the console is all that is left of
  it.  The line has the three registers in it, so that they can be read back: the cause as
  its kind and a decimal numeral, the other two as fields of a fixed width.

  What comes behind the report, the reset of the machine, is not modelled here.
-/
import RustFirmware.Print.Segments

namespace RustFirmware.Diagnostics

open RustFirmware.Lib
open RustFirmware.Print

/-! ## §1. The functions of the source. -/

/-- The names of `print_trap_cause_name`. -/
def trapCauseName (isInterrupt : Bool) (causeCode : Nat) : Bytes :=
  if isInterrupt then
    match causeCode with
    | 1 => ascii "supervisor software interrupt"
    | 5 => ascii "supervisor timer interrupt"
    | 9 => ascii "supervisor external interrupt"
    | _ => ascii "unknown interrupt"
  else
    match causeCode with
    | 0  => ascii "instruction address misaligned"
    | 1  => ascii "instruction access fault"
    | 2  => ascii "illegal instruction"
    | 3  => ascii "breakpoint"
    | 4  => ascii "load address misaligned"
    | 5  => ascii "load access fault"
    | 6  => ascii "store or AMO address misaligned"
    | 7  => ascii "store or AMO access fault"
    | 8  => ascii "environment call from U-mode"
    | 9  => ascii "environment call from S-mode"
    | 12 => ascii "instruction page fault"
    | 13 => ascii "load page fault"
    | 15 => ascii "store or AMO page fault"
    | _  => ascii "unknown exception"

/-- `print_trap_cause_name`. -/
def printTrapCauseName (isInterrupt : Bool) (causeCode : UInt64) (console : Bytes) : Bytes :=
  puts (trapCauseName isInterrupt causeCode.toNat) console

def interruptBit : UInt64 := (1 : UInt64) <<< (63 : UInt64)

/-- The start of the line, with the cause as a number. -/
def printCause (isInterrupt : Bool) (causeCode : UInt64) (console : Bytes) : Checked Bytes :=
  if isInterrupt then
    print (ascii "rustfimware: s-mode interrupt cause=\x7b\x7d (") [.usize causeCode] console
  else print (ascii "rustfimware: s-mode exception cause=\x7b\x7d (") [.usize causeCode] console

/-- `rust_smode_trap`, up to the reset. -/
def rustSmodeTrap (scause stval sepc : UInt64) (console : Bytes) : Checked Bytes := do
  let isInterrupt := scause &&& interruptBit != 0
  let causeCode := scause &&& ~~~interruptBit
  let console ← printCause isInterrupt causeCode console
  let console := printTrapCauseName isInterrupt causeCode console
  println (ascii ") stval=\x7b:#018x\x7d sepc=\x7b:#018x\x7d") [.usize stval, .usize sepc] console

/-! ## §2. What is printed. -/

/-- A format string that is written from segments. -/
theorem print_of_segments {format : Bytes} {arguments : List FormatArgument} {segments : List Segment}
    (hformat : format = formatOf segments) (harguments : arguments = argumentsOf segments)
    (console : Bytes) :
    print format arguments console = .ok (console ++ renderedOf saturatedWidth segments) := by
  subst hformat harguments
  exact printLoop_formatOf segments console

theorem register_fits (value : UInt64) : (FormatArgument.usize value).integer? = some value := rfl

theorem one_lt_base : 1 < 10 := by decide

theorem eight_lt_base : 8 < 10 := by decide

theorem register_notFlag : true = true
    ∨ ([⟨1, one_lt_base⟩, ⟨8, eight_lt_base⟩] : List (Fin 10)).head? ≠ some 0 := .inl rfl

/-- The placeholder `:#018x`, with a register: `18` is its width behind the flag `0`. -/
def registerPlaceholder (value : UInt64) : HexPlaceholder where
  argument  := .usize value
  value     := value
  fits      := register_fits value
  alternate := true
  zeroPad   := true
  width     := [⟨1, one_lt_base⟩, ⟨8, eight_lt_base⟩]
  notFlag   := register_notFlag

/-- What it renders. -/
def registerField (value : UInt64) : Bytes := hexField true true 18 value.toNat

def kindText (isInterrupt : Bool) : Bytes :=
  if isInterrupt then ascii "rustfimware: s-mode interrupt cause="
  else ascii "rustfimware: s-mode exception cause="

/-- The line on the console. -/
def trapReport (isInterrupt : Bool) (causeCode : Nat) (stval sepc : UInt64) : Bytes :=
  kindText isInterrupt ++ (numeral 10 causeCode ++ (0x20 :: (ascii "("
    ++ (trapCauseName isInterrupt causeCode ++ (ascii ") stval=" ++ (registerField stval
    ++ (ascii " sepc=" ++ (registerField sepc ++ ascii "\n"))))))))

theorem printCause_eq (isInterrupt : Bool) (causeCode : UInt64) (console : Bytes) :
    printCause isInterrupt causeCode console
      = .ok (console ++ (kindText isInterrupt ++ (numeral 10 causeCode.toNat ++ ascii " ("))) := by
  have hprint : ∀ (kind format : Bytes) (valid : utf8Valid kind = true),
      format = formatOf [.literal kind valid, .display (.usize 0), .literal (ascii " (") rfl] →
      print format [.usize causeCode] console
        = .ok (console ++ (kind ++ (numeral 10 causeCode.toNat ++ ascii " ("))) := by
    intro kind format valid hformat
    -- the argument is not in the format
    have hrendered := @print_of_segments format [.usize causeCode]
      [.literal kind valid, .display (.usize causeCode), .literal (ascii " (") rfl] hformat rfl console
    rw [hrendered]
    show Except.ok (console ++ (kind ++ (numeral 10 causeCode.toNat ++ (ascii " (" ++ [])))) = _
    rw [List.append_nil]
  cases isInterrupt with
  | true =>
      have hformat : ascii "rustfimware: s-mode interrupt cause=\x7b\x7d (" = formatOf
          [.literal (kindText true) (by decide +kernel), .display (.usize 0),
            .literal (ascii " (") rfl] := by decide +kernel
      exact hprint _ _ _ hformat
  | false =>
      have hformat : ascii "rustfimware: s-mode exception cause=\x7b\x7d (" = formatOf
          [.literal (kindText false) (by decide +kernel), .display (.usize 0),
            .literal (ascii " (") rfl] := by decide +kernel
      exact hprint _ _ _ hformat

theorem printRegisters_eq (stval sepc : UInt64) (console : Bytes) :
    println (ascii ") stval=\x7b:#018x\x7d sepc=\x7b:#018x\x7d") [.usize stval, .usize sepc] console
      = .ok (console ++ (ascii ") stval=" ++ (registerField stval ++ (ascii " sepc="
          ++ (registerField sepc ++ ascii "\n"))))) := by
  have hformat : ascii ") stval=\x7b:#018x\x7d sepc=\x7b:#018x\x7d" = formatOf
      [.literal (ascii ") stval=") rfl, .hex (registerPlaceholder 0),
        .literal (ascii " sepc=") rfl, .hex (registerPlaceholder 0)] := by decide +kernel
  have hrendered := @print_of_segments (ascii ") stval=\x7b:#018x\x7d sepc=\x7b:#018x\x7d")
    [.usize stval, .usize sepc]
    [.literal (ascii ") stval=") rfl, .hex (registerPlaceholder stval),
      .literal (ascii " sepc=") rfl, .hex (registerPlaceholder sepc)] hformat rfl console
  unfold println
  rw [hrendered, ok_bind]
  show Except.ok (console ++ (ascii ") stval=" ++ (registerField stval ++ (ascii " sepc="
    ++ (registerField sepc ++ [])))) ++ ascii "\n") = _
  simp only [List.append_assoc, List.append_nil]

/-- **The handler prints the report**, and does not panic on the way. -/
theorem rustSmodeTrap_eq (scause stval sepc : UInt64) (console : Bytes) :
    rustSmodeTrap scause stval sepc console
      = .ok (console ++ trapReport (scause &&& interruptBit != 0)
          (scause &&& ~~~interruptBit).toNat stval sepc) := by
  unfold rustSmodeTrap
  dsimp only
  rw [printCause_eq, ok_bind, printRegisters_eq]
  unfold trapReport printTrapCauseName puts
  simp only [List.append_assoc]
  rfl

/-! ## §3. Reading the report. -/

theorem registerField_length (value : UInt64) : (registerField value).length = 18 := by
  have hdigits : (numeral 16 value.toNat).length ≤ 16 := numeral_length_le (by decide) (by decide)
    (Nat.lt_of_lt_of_le value.toNat_lt (by decide))
  unfold registerField
  rw [hexField_length, if_pos rfl]
  omega

theorem registerField_injective {a b : UInt64} (h : registerField a = registerField b) : a = b :=
  UInt64.toNat_inj.mp (hexField_injective h)

/-- A register behind its label, and what is behind it. -/
theorem registerField_append_inj {a b : UInt64} {label rest rest' : Bytes}
    (h : label ++ (registerField a ++ rest) = label ++ (registerField b ++ rest')) :
    a = b ∧ rest = rest' := by
  have hfields := List.append_cancel_left h
  obtain ⟨hfield, hrest⟩ := List.append_inj hfields
    (by rw [registerField_length, registerField_length])
  exact ⟨registerField_injective hfield, hrest⟩

/-- There is no blank in a numeral. -/
theorem blank_notMem_numeral (n : Nat) : (0x20 : UInt8) ∉ numeral 10 n := by
  have hdigits : ∀ d < 10, digitByte d ≠ 0x20 := by decide
  intro hmem
  obtain ⟨d, hd, hblank⟩ := mem_numeral (by decide) hmem
  exact hdigits d hd hblank.symm

theorem kindText_length (isInterrupt : Bool) : (kindText isInterrupt).length = 36 := by
  cases isInterrupt with
  | true => decide +kernel
  | false => decide +kernel

theorem kindText_injective {isInterrupt isInterrupt' : Bool}
    (h : kindText isInterrupt = kindText isInterrupt') : isInterrupt = isInterrupt' := by
  have hdiffer : kindText true ≠ kindText false := by decide +kernel
  cases isInterrupt <;> cases isInterrupt'
  · rfl
  · exact absurd h.symm hdiffer
  · exact absurd h hdiffer
  · rfl

/-- **The parts of a report**, from its front to its end. -/
theorem trapReport_injective {isInterrupt isInterrupt' : Bool} {causeCode causeCode' : Nat}
    {stval stval' sepc sepc' : UInt64}
    (h : trapReport isInterrupt causeCode stval sepc = trapReport isInterrupt' causeCode' stval' sepc') :
    isInterrupt = isInterrupt' ∧ causeCode = causeCode' ∧ stval = stval' ∧ sepc = sepc' := by
  unfold trapReport at h
  obtain ⟨hkind, hcause⟩ := List.append_inj h (by rw [kindText_length, kindText_length])
  obtain rfl := kindText_injective hkind
  obtain ⟨hnumeral, hname⟩ :=
    append_terminator_inj (blank_notMem_numeral causeCode) (blank_notMem_numeral causeCode') hcause
  obtain rfl := numeral_injective (by decide) (by decide) hnumeral
  -- the name is that of the cause, so it tells nothing more
  have hregisters := List.append_cancel_left (List.append_cancel_left hname)
  obtain ⟨rfl, hrest⟩ := registerField_append_inj hregisters
  obtain ⟨rfl, -⟩ := registerField_append_inj hrest
  exact ⟨rfl, rfl, rfl, rfl⟩

/-- The bit is clear or set. -/
theorem interrupt_cases (x : UInt64) : x &&& interruptBit = 0 ∨ x &&& interruptBit = interruptBit := by
  -- the mask has a single bit, so what it leaves is that bit or nothing
  have hbit : interruptBit.toBitVec = BitVec.twoPow 64 63 := by decide
  rw [← UInt64.toBitVec_inj, ← UInt64.toBitVec_inj, UInt64.toBitVec_and, hbit, BitVec.and_twoPow]
  split_ifs with hset
  · exact .inr rfl
  · exact .inl rfl

/-- A register is its bit and the rest. -/
theorem split_interrupt (x : UInt64) : (x &&& interruptBit) ||| (x &&& ~~~interruptBit) = x := by
  apply UInt64.toBitVec_inj.mp
  rw [UInt64.toBitVec_or, UInt64.toBitVec_and, UInt64.toBitVec_and, UInt64.toBitVec_not]
  ext i hi
  simp only [BitVec.getElem_or, BitVec.getElem_and, BitVec.getElem_not]
  cases x.toBitVec[i] <;> cases interruptBit.toBitVec[i] <;> rfl

/-- The cause is its kind and its code. -/
theorem scause_eq {scause scause' : UInt64}
    (hkind : (scause &&& interruptBit != 0) = (scause' &&& interruptBit != 0))
    (hcode : scause &&& ~~~interruptBit = scause' &&& ~~~interruptBit) : scause = scause' := by
  have hbit : scause &&& interruptBit = scause' &&& interruptBit := by
    have hset : (interruptBit != 0) = true := by decide
    rcases interrupt_cases scause with hbit | hbit <;>
      rcases interrupt_cases scause' with hbit' | hbit'
    · rw [hbit, hbit']
    · rw [hbit, hbit', hset] at hkind
      cases hkind
    · rw [hbit, hbit', hset] at hkind
      cases hkind
    · rw [hbit, hbit']
  rw [← split_interrupt scause, hbit, hcode, split_interrupt]

/-- **The report of a trap is lossless**: it is printed whatever the registers hold, and
    another trap has another report. -/
theorem rustSmodeTrap_lossless (scause stval sepc scause' stval' sepc' : UInt64) (console : Bytes) :
    (∃ report, rustSmodeTrap scause stval sepc console = .ok (console ++ report))
      ∧ (rustSmodeTrap scause stval sepc console = rustSmodeTrap scause' stval' sepc' console
        ↔ scause = scause' ∧ stval = stval' ∧ sepc = sepc') := by
  refine ⟨⟨_, rustSmodeTrap_eq scause stval sepc console⟩, ?_, ?_⟩
  · intro hsame
    rw [rustSmodeTrap_eq, rustSmodeTrap_eq] at hsame
    have hreport := List.append_cancel_left (Except.ok.inj hsame)
    obtain ⟨hkind, hcode, hstval, hsepc⟩ := trapReport_injective hreport
    exact ⟨scause_eq hkind (UInt64.toNat_inj.mp hcode), hstval, hsepc⟩
  · intro hsame
    obtain ⟨rfl, rfl, rfl⟩ := hsame
    rfl

/-- An illegal instruction. -/
example : rustSmodeTrap 2 0 0x80200000 [] = .ok (ascii
    "rustfimware: s-mode exception cause=2 (illegal instruction) stval=0x0000000000000000 sepc=0x0000000080200000\n") := by
  decide +kernel

end RustFirmware.Diagnostics
