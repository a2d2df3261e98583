/-
  RustFirmware.Fat.Entries
  ────────────────────────
  **DIRECTORY ENTRIES AND THEIR NAMES: SHORT NAMES, AND LONG NAMES IN PIECES.**

  A name is a list of bytes.  A long name is spread over the entries in front of the one
  it names; `LongNameState` collects its pieces, 13 UTF-16 code units each, last piece
  first.  What is left of it at the end of one sector is there for the next one.
-/
import RustFirmware.Fat.Volume
import RustFirmware.Lib.Listing
import Mathlib.Data.FinEnum
import Mathlib.Data.Fintype.Vector

namespace RustFirmware.Fat

open RustFirmware.Lib
open RustFirmware.Virtio

/-! ## §1. Entries. -/

/-- `FatDirectoryEntry`. -/
structure FatDirectoryEntry where
  attributes   : UInt8
  firstCluster : UInt32
  fileSize     : UInt32
  deriving Repr, DecidableEq

/-- `is_directory`. -/
def FatDirectoryEntry.isDirectory (entry : FatDirectoryEntry) : Bool :=
  entry.attributes &&& fatAttributeDirectory != 0

/-- `sector_entry`. -/
def sectorEntry (sector : Bytes) (offset : Nat) : Option Bytes :=
  slice? sector offset (offset + fatDirEntrySize)

theorem sectorEntry_length {sector entry : Bytes} {offset : Nat}
    (h : sectorEntry sector offset = some entry) : entry.length = fatDirEntrySize := by
  obtain ⟨hread, hstop⟩ := readsAt_of_slice h
  omega

/-- A byte of an entry, which is an array of `FAT_DIR_ENTRY_SIZE` bytes. -/
def byteAt (entry : Bytes) (i : Nat) : UInt8 := entry.getD i 0

/-- `parse_directory_entry`. -/
def parseDirectoryEntry (entry : Bytes) : Except FatError FatDirectoryEntry := do
  let clusterHigh ← okOr (readU16 entry 20) .invalidBootSector
  let clusterLow ← okOr (readU16 entry 26) .invalidBootSector
  let fileSize ← okOr (readU32 entry 28) .invalidBootSector
  .ok {
    attributes := byteAt entry 11
    firstCluster := (clusterHigh.toUInt32 <<< 16) ||| clusterLow.toUInt32
    fileSize := fileSize }

theorem exists_readLe (length : Nat) {bytes : Bytes} (offset : Nat)
    (h : offset + length ≤ bytes.length) :
    ∃ value, readLe length bytes offset = some value := by
  unfold readLe slice?
  rw [if_pos ⟨Nat.le_add_right _ _, h⟩]
  exact ⟨_, rfl⟩

/-- All 32 bytes are there, so this does not fail. -/
theorem exists_parseDirectoryEntry {entry : Bytes} (h : entry.length = fatDirEntrySize) :
    ∃ directoryEntry, parseDirectoryEntry entry = .ok directoryEntry := by
  unfold fatDirEntrySize at h
  obtain ⟨high, hhigh⟩ := @exists_readLe 2 entry 20 (by omega)
  obtain ⟨low, hlow⟩ := @exists_readLe 2 entry 26 (by omega)
  obtain ⟨size, hsize⟩ := @exists_readLe 4 entry 28 (by omega)
  unfold parseDirectoryEntry readU16 readU32 readLe16 readLe32
  rw [hhigh, hlow, hsize]
  exact ⟨_, rfl⟩

/-! ## §2. Short names. -/

/-- The byte of a space. -/
def space : UInt8 := 0x20

/-- The eight bytes of the name in front of the extension. -/
def baseField (entry : Bytes) : Bytes := entry.take 8

/-- The three bytes of the extension. -/
def extensionField (entry : Bytes) : Bytes := (entry.drop 8).take 3

/-- `decode_short_name`. -/
def decodeShortName (entry : Bytes) : Bytes :=
  let base := ((baseField entry).takeWhile (· != space)).map
    (fun byte => if byte = 0x05 then 0xe5 else byte)
  let extensionStart := base.length
  let hasExtension := (extensionField entry).any (· != space)
  let output :=
    if hasExtension then base ++ ascii "." ++ (extensionField entry).takeWhile (· != space)
    else base
  if output.length = extensionStart ∧ hasExtension = false then ascii "-" else output

/-- `short_name_checksum`. -/
def shortNameChecksum (shortName : Bytes) : UInt8 :=
  shortName.foldl (fun checksum byte => ((checksum &&& 1) <<< 7) + (checksum >>> 1) + byte) 0

/-! ## §3. Long names. -/

/-- `LongNameState`. -/
structure LongNameState where
  codeUnits        : List UInt16
  maxOrdinal       : UInt8
  nextOrdinal      : UInt8
  ordinalMask      : UInt32
  checksum         : UInt8
  active           : Bool
  codeUnits_length : codeUnits.length = fatLongNameCodeUnits
  deriving Repr, DecidableEq

/-- Where the code units of an entry are. -/
def lfnPositions : List Nat := [1, 3, 5, 7, 9, 14, 16, 18, 20, 22, 24, 28, 30]

/-- `copy_lfn_code_units`. -/
def copyLfnCodeUnits (entry : Bytes) : List UInt16 :=
  lfnPositions.map (fun offset =>
    (byteAt entry offset).toUInt16 ||| ((byteAt entry (offset + 1)).toUInt16 <<< 8))

/-- `char::from_u32`. -/
def charFromU32 (codePoint : UInt32) : Option Char :=
  if h : codePoint.isValidChar then some ⟨codePoint, h⟩ else none

/-- One character more in the buffer for the name. -/
def encodeInto (codePoint : UInt32) (output : Bytes) : Except FatError Bytes := do
  let character ← okOr (charFromU32 codePoint) .invalidLongName
  let encoded := String.utf8EncodeChar character
  if output.length + encoded.length > fatLongNameUtf8Bytes then .error .nameTooLong
  else .ok (output ++ encoded)

/-- The loop of `to_utf8`, over the code units that are left. -/
def decodeUnits : (units : List UInt16) → (output : Bytes) → Except FatError Bytes
  | [], output => .ok output
  | codeUnit :: units, output =>
      if codeUnit = 0x0000 ∨ codeUnit = 0xffff then .ok output
      else if 0xd800 ≤ codeUnit ∧ codeUnit ≤ 0xdbff then
        match units with
        | [] => .error .invalidLongName
        | next :: units =>
            if 0xdc00 ≤ next ∧ next ≤ 0xdfff then do
              let high : UInt32 := (codeUnit.toUInt32 - 0xd800) <<< 10
              let low : UInt32 := next.toUInt32 - 0xdc00
              let output ← encodeInto (0x10000 + (high ||| low)) output
              decodeUnits units output
            else .error .invalidLongName
      else if 0xdc00 ≤ codeUnit ∧ codeUnit ≤ 0xdfff then .error .invalidLongName
      else do
        let output ← encodeInto codeUnit.toUInt32 output
        decodeUnits units output

namespace LongNameState

/-- `new`, and what `clear` leaves. -/
def new : LongNameState where
  codeUnits        := List.replicate fatLongNameCodeUnits 0xffff
  maxOrdinal       := 0
  nextOrdinal      := 0
  ordinalMask      := 0
  checksum         := 0
  active           := false
  codeUnits_length := List.length_replicate

/-- `push`: whenever it fails it has cleared the state. -/
def push (entry : Bytes) : Keep FatError LongNameState Unit := fun state =>
  let ordinal := byteAt entry 0 &&& 0x1f
  let isLast := byteAt entry 0 &&& 0x40 != 0
  if ordinal = 0 then (.error .invalidLongName, new)
  else
    let state :=
      if isLast then
        { new with
          active := true
          maxOrdinal := ordinal
          nextOrdinal := ordinal
          checksum := byteAt entry 13 }
      else state
    if state.active = false ∨ ordinal > state.maxOrdinal
        ∨ byteAt entry 13 ≠ state.checksum then
      (.error .invalidLongName, new)
    else if ordinal ≠ state.nextOrdinal then (.error .invalidLongName, new)
    else
      let start := (ordinal.toNat - 1) * 13
      if hlong : start + 13 > state.codeUnits.length then (.error .nameTooLong, new)
      else
        (.ok (), { state with
          codeUnits := state.codeUnits.take start ++ copyLfnCodeUnits entry
            ++ state.codeUnits.drop (start + 13)
          ordinalMask := state.ordinalMask ||| (1 <<< (ordinal - 1).toUInt32)
          nextOrdinal := ordinal - 1
          codeUnits_length := by
            have hcopied : (copyLfnCodeUnits entry).length = 13 := List.length_map _
            have hlength := state.codeUnits_length
            rw [List.length_append, List.length_append, List.length_take, List.length_drop,
              hcopied]
            omega })

variable (state : LongNameState)

/-- `matches_entry`. -/
def matchesEntry (entry : Bytes) : Bool :=
  if state.active = false ∨ state.maxOrdinal = 0 ∨ state.maxOrdinal > 20 then false
  else
    let expectedMask : UInt32 := (1 <<< state.maxOrdinal.toUInt32) - 1
    state.ordinalMask == expectedMask && state.checksum == shortNameChecksum (entry.take 11)

/-- `to_utf8`. -/
def toUtf8 : Except FatError Bytes := do
  let output ← decodeUnits state.codeUnits []
  okOr (fromUtf8 output) .invalidLongName

/-- The name of an entry, as both loops over a sector find it. -/
def nameOf (entry : Bytes) : Except FatError Bytes :=
  if state.matchesEntry entry then state.toUtf8 else .ok (decodeShortName entry)

/-- The fields of a state as a tuple. -/
def fields : List.Vector UInt16 fatLongNameCodeUnits × UInt8 × UInt8 × UInt32 × UInt8 × Bool :=
  (⟨state.codeUnits, state.codeUnits_length⟩, state.maxOrdinal, state.nextOrdinal,
    state.ordinalMask, state.checksum, state.active)

theorem fields_injective : Function.Injective fields := by
  intro state state' h
  obtain ⟨units, maxOrdinal, nextOrdinal, mask, checksum, active, hlength⟩ := state
  obtain ⟨units', maxOrdinal', nextOrdinal', mask', checksum', active', hlength'⟩ := state'
  cases h
  rfl

/-- There are only so many states. -/
instance : Finite LongNameState := Finite.of_injective fields fields_injective

end LongNameState

/-! ## §4. No name is longer than its buffer. -/

theorem encodeInto_length {codePoint : UInt32} {output output' : Bytes}
    (h : encodeInto codePoint output = .ok output') : output'.length ≤ fatLongNameUtf8Bytes := by
  obtain ⟨character, -, hencoded⟩ := bind_eq_ok.mp h
  dsimp only at hencoded
  split at hencoded
  · cases hencoded
  · cases hencoded
    rw [List.length_append]
    omega

theorem decodeUnits_length {units : List UInt16} {output name : Bytes}
    (houtput : output.length ≤ fatLongNameUtf8Bytes) (h : decodeUnits units output = .ok name) :
    name.length ≤ fatLongNameUtf8Bytes := by
  fun_induction decodeUnits units output with
  | case1 output =>
      cases h
      exact houtput
  | case2 output codeUnit units hend =>
      cases h
      exact houtput
  | case3 => cases h
  | case4 output codeUnit hend hhigh next units hlow high low ih =>
      obtain ⟨longer, hencode, hrest⟩ := bind_eq_ok.mp h
      exact ih longer (encodeInto_length hencode) hrest
  | case5 => cases h
  | case6 => cases h
  | case7 output codeUnit units hend hhigh hlow ih =>
      obtain ⟨longer, hencode, hrest⟩ := bind_eq_ok.mp h
      exact ih longer (encodeInto_length hencode) hrest

theorem decodeShortName_length (entry : Bytes) : (decodeShortName entry).length ≤ 12 := by
  have hbase : ((baseField entry).takeWhile (· != space)).length ≤ 8 := by
    have htake : (baseField entry).length ≤ 8 := List.length_take_le _ _
    have hwhile := (List.takeWhile_prefix (· != space) (l := baseField entry)).length_le
    omega
  have hextension : ((extensionField entry).takeWhile (· != space)).length ≤ 3 := by
    have htake : (extensionField entry).length ≤ 3 := List.length_take_le _ _
    have hwhile := (List.takeWhile_prefix (· != space) (l := extensionField entry)).length_le
    omega
  have hdot : (ascii ".").length = 1 := rfl
  have hdash : (ascii "-").length = 1 := rfl
  unfold decodeShortName
  dsimp only
  by_cases hext : (extensionField entry).any (· != space) = true
  · rw [if_pos hext, if_neg (fun h => by rw [hext] at h; exact Bool.noConfusion h.2),
      List.length_append, List.length_append, List.length_map]
    omega
  · rw [if_neg hext, if_pos ⟨rfl, Bool.not_eq_true _ ▸ hext⟩]
    omega

theorem LongNameState.nameOf_length {state : LongNameState} {entry name : Bytes}
    (h : state.nameOf entry = .ok name) : name.length ≤ fatLongNameUtf8Bytes := by
  unfold nameOf at h
  split at h
  · obtain ⟨output, hdecode, hutf8⟩ := bind_eq_ok.mp h
    obtain rfl : output = name := by
      unfold fromUtf8 at hutf8
      split at hutf8
      · exact Except.ok.inj hutf8
      · cases hutf8
    exact decodeUnits_length (Nat.zero_le _) hdecode
  · cases h
    have hshort := decodeShortName_length entry
    unfold fatLongNameUtf8Bytes fatLongNameCodeUnits
    omega

end RustFirmware.Fat
