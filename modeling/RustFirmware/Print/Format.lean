/-
  RustFirmware.Print.Format
  ─────────────────────────
  **THE CONSOLE FORMATTER: `print`, ITS FORMAT STRINGS AND ITS NUMERALS.**

  The console is the bytes that `puts` was given, in order.  Strings are their bytes;
  a slice of the format string that would cut a character is a panic, as are a place
  outside a digit buffer and a subtraction below zero.

      §1   arguments and format specifiers
      §2   decimal and hexadecimal numerals in fixed buffers
      §3   the scanner of the format string
-/
import RustFirmware.Lib.Text

namespace RustFirmware.Print

open RustFirmware.Lib

/-! ## §1. Arguments and format specifiers. -/

/-- `FormatArgument`. -/
inductive FormatArgument where
  | str (value : Bytes)
  | bool (value : Bool)
  | usize (value : UInt64)
  | u64 (value : UInt64)
  | u32 (value : UInt32)
  deriving Repr, DecidableEq

/-- `into_argument` of a `u8`. -/
def u8IntoArgument (value : UInt8) : FormatArgument := .u32 value.toUInt32

/-- `FormatKind`. -/
inductive FormatKind where
  | display
  | lowerHex
  deriving Repr, DecidableEq

/-- `ParsedFormatSpec`. -/
structure ParsedFormatSpec where
  kind      : FormatKind
  alternate : Bool
  width     : Nat
  zeroPad   : Bool
  deriving Repr, DecidableEq

/-- `a.saturating_mul(b)` on `w`-bit words. -/
def saturatingMul (w a b : Nat) : Nat := min (a * b) (2 ^ w - 1)

def isAsciiDigit (byte : UInt8) : Bool := 0x30 ≤ byte && byte ≤ 0x39

/-- The digit loop of `parse_format_spec`: the width, and what is behind its digits. -/
def parseWidth : (bytes : Bytes) → (width : Nat) → Nat × Bytes
  | [], width => (width, [])
  | byte :: bytes, width =>
      if isAsciiDigit byte then
        parseWidth bytes (saturatingAdd 64 (saturatingMul 64 width 10) (byte - 0x30).toNat)
      else (width, byte :: bytes)

/-- An optional flag at the front of `bytes`. -/
def takeFlag (flag : UInt8) : Bytes → Bool × Bytes
  | byte :: bytes => if byte = flag then (true, bytes) else (false, byte :: bytes)
  | [] => (false, [])

/-- `parse_format_spec`. -/
def parseFormatSpec : (spec : Bytes) → Option ParsedFormatSpec
  | [] => some ⟨.display, false, 0, false⟩
  | first :: remainder =>
      if first ≠ 0x3a then none
      else
        let (alternate, bytes) := takeFlag 0x23 remainder
        let (zeroPad, bytes) := takeFlag 0x30 bytes
        let (width, bytes) := parseWidth bytes 0
        -- `x` must be the last byte, and without it there is no hexadecimal kind
        if bytes = ascii "x" then some ⟨.lowerHex, alternate, width, zeroPad⟩ else none

/-- `puts`: the console with one more message. -/
def puts (message console : Bytes) : Bytes := console ++ message

/-- A loop of `puts` of the same message. -/
def putsTimes (message : Bytes) : (times : Nat) → (console : Bytes) → Bytes
  | 0, console => console
  | times + 1, console => putsTimes message times (puts message console)

def formatError : Bytes := ascii "<format-error>"

def missingArg : Bytes := ascii "<missing-arg>"

/-! ## §2. Numerals. -/

/-- The loop of `print_decimal_u64`: `buffer` and `index` where `value` is used up. -/
def decimalLoop : (passes value : Nat) → (buffer : Bytes) → (index : Nat) → Checked (Bytes × Nat)
  | 0, _, _, _ => .error .outOfFuel
  | passes + 1, value, buffer, index =>
      if value = 0 then .ok (buffer, index)
      else do
        let index ← subWord index 1
        let digit ← addWord 8 0x30 (value % 10)
        let buffer ← indexSet buffer index (UInt8.ofNat digit)
        decimalLoop passes (value / 10) buffer index

/-- `print_decimal_u64`.  One pass more than the buffer has places is enough. -/
def printDecimalU64 (value : UInt64) (console : Bytes) : Checked Bytes :=
  if value.toNat = 0 then .ok (puts (ascii "0") console)
  else do
    let (buffer, index) ← decimalLoop 21 value.toNat (List.replicate 20 0) 20
    let text ← indexRange buffer index buffer.length
    .ok (puts text console)

/-- `HEX_DIGITS`. -/
def hexDigits : Bytes := ascii "0123456789abcdef"

/-- The loop of `print_hex_u64` that takes `current` apart, its lowest digit first. -/
def hexLoop : (passes current : Nat) → (digits : Bytes) → (digitCount : Nat) →
    Checked (Bytes × Nat)
  | 0, _, _, _ => .error .outOfFuel
  | passes + 1, current, digits, digitCount =>
      if current = 0 then .ok (digits, digitCount)
      else do
        let digit ← index hexDigits (current &&& 0xf)
        let digits ← indexSet digits digitCount digit
        hexLoop passes (current >>> 4) digits (digitCount + 1)

/-- The loop of `print_hex_u64` that turns the digits round. -/
def reverseLoop (digits : Bytes) (digitCount : Nat) : (todo : Nat) → (buffer : Bytes) →
    (i : Nat) → Checked Bytes
  | 0, buffer, _ => .ok buffer
  | todo + 1, buffer, i => do
      let last ← subWord digitCount 1
      let place ← subWord last i
      let digit ← index digits place
      let buffer ← indexSet buffer i digit
      reverseLoop digits digitCount todo buffer (i + 1)

/-- The digits of `print_hex_u64` and how many they are, the lowest first. -/
def hexDigitsOf (value : UInt64) : Checked (Bytes × Nat) :=
  if value.toNat = 0 then .ok ((List.replicate 16 0).set 0 0x30, 1)
  else hexLoop 17 value.toNat (List.replicate 16 0) 0

/-- `print_hex_u64`. -/
def printHexU64 (value : UInt64) (alternate : Bool) (width : Nat) (zeroPad : Bool)
    (console : Bytes) : Checked Bytes := do
  let (digits, digitCount) ← hexDigitsOf value
  let prefixLen := if alternate then 2 else 0
  let totalLen := prefixLen + digitCount
  let padding := width - totalLen
  -- spaces come in front of `0x`, zeros behind it
  let console := if zeroPad then console else putsTimes (ascii " ") padding console
  let console := if alternate then puts (ascii "0x") console else console
  let console := if zeroPad then putsTimes (ascii "0") padding console else console
  let buffer ← reverseLoop digits digitCount digitCount (List.replicate 16 0) 0
  let text ← indexRange buffer 0 digitCount
  .ok (puts text console)

/-- `print_display`. -/
def printDisplay (argument : FormatArgument) (console : Bytes) : Checked Bytes :=
  match argument with
  | .str value   => .ok (puts value console)
  | .bool value  => .ok (puts (if value then ascii "true" else ascii "false") console)
  | .usize value => printDecimalU64 value console
  | .u64 value   => printDecimalU64 value console
  | .u32 value   => printDecimalU64 value.toUInt64 console

/-- The integers among the arguments, as `u64`. -/
def FormatArgument.integer? : FormatArgument → Option UInt64
  | .usize value => some value
  | .u64 value   => some value
  | .u32 value   => some value.toUInt64
  | _ => none

/-- `print_hex`. -/
def printHex (argument : FormatArgument) (specification : ParsedFormatSpec) (console : Bytes) :
    Checked Bytes :=
  match argument.integer? with
  | some value =>
      printHexU64 value specification.alternate specification.width specification.zeroPad console
  | none => .ok (puts formatError console)

/-- `print_argument`. -/
def printArgument (argument : FormatArgument) (spec console : Bytes) : Checked Bytes :=
  match parseFormatSpec spec with
  | some specification =>
      match specification.kind with
      | .display  => printDisplay argument console
      | .lowerHex => printHex argument specification console
  | none => .ok (puts formatError console)

/-! ## §3. The scanner. -/

def openBrace : UInt8 := 0x7b

def closeBrace : UInt8 := 0x7d

/-- `flush_literal`. -/
def flushLiteral (format : Bytes) (start stop : Nat) (console : Bytes) : Checked Bytes :=
  if stop ≤ start then .ok console
  else do
    let text ← strSlice format start stop
    .ok (puts text console)

/-- `find_closing_brace`. -/
def findClosingBrace (bytes : Bytes) (start : Nat) : Option Nat :=
  ((bytes.drop start).findIdx? (fun byte => byte == closeBrace)).map (fun i => start + i)

/-- The loop of `print`. -/
def printLoop (format : Bytes) (arguments : List FormatArgument) :
    (passes literalStart index argumentIndex : Nat) → (console : Bytes) → Checked Bytes
  | 0, _, _, _, _ => .error .outOfFuel
  | passes + 1, literalStart, index, argumentIndex, console =>
      match format[index]? with
      | none => flushLiteral format literalStart format.length console
      | some byte =>
          if byte = openBrace then
            if format[index + 1]? = some openBrace then do
              let console ← flushLiteral format literalStart index console
              printLoop format arguments passes (index + 2) (index + 2) argumentIndex
                (puts [openBrace] console)
            else do
              let console ← flushLiteral format literalStart index console
              match findClosingBrace format (index + 1) with
              | none => .ok (puts formatError console)
              | some specEnd => do
                  let spec ← strSlice format (index + 1) specEnd
                  -- a missing argument ends the call, as an unclosed brace does
                  match arguments[argumentIndex]? with
                  | none => .ok (puts missingArg console)
                  | some argument => do
                      let console ← printArgument argument spec console
                      printLoop format arguments passes (specEnd + 1) (specEnd + 1)
                        (argumentIndex + 1) console
          else if byte = closeBrace then
            if format[index + 1]? = some closeBrace then do
              let console ← flushLiteral format literalStart index console
              printLoop format arguments passes (index + 2) (index + 2) argumentIndex
                (puts [closeBrace] console)
            -- what is pending is not written in front of the error
            else .ok (puts formatError console)
          else printLoop format arguments passes literalStart (index + 1) argumentIndex console

/-- `print`.  Every pass but the last one uses up at least one byte of the format. -/
def print (format : Bytes) (arguments : List FormatArgument) (console : Bytes) : Checked Bytes :=
  printLoop format arguments (format.length + 1) 0 0 0 console

/-- `println`. -/
def println (format : Bytes) (arguments : List FormatArgument) (console : Bytes) :
    Checked Bytes := do
  let console ← print format arguments console
  .ok (puts (ascii "\n") console)

end RustFirmware.Print
