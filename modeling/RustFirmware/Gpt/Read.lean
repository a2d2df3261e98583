/-
  RustFirmware.Gpt.Read
  ─────────────────────
  **THE GPT READER OF `src/gpt.rs`, FUNCTION BY FUNCTION.**

  `Reading` is what the functions compute in: a result, the `None` of the source, or
  a trap where an unchecked operation overflows or an index is out of range, and
  beside it the sector ranges that were read.
-/
import RustFirmware.Virtio.BlockDevice
import RustFirmware.Lib.Checked

namespace RustFirmware.Gpt

open RustFirmware.Lib
open RustFirmware.Virtio

/-! ## §1. Readers. -/

/-- Why a reader has no value: it returned `None`, or it went wrong. -/
inductive Stop where
  | none
  | trap (reason : Trap)
  deriving Repr, DecidableEq

/-- The result, and the reads `(lba, count)` made for it, in order. -/
def Reading (α : Type) : Type := Except Stop α × List (Nat × Nat)

namespace Reading

variable {α β : Type}

instance : Monad Reading where
  pure a := (.ok a, [])
  bind x f :=
    match x with
    | (.ok a, reads)    => ((f a).1, reads ++ (f a).2)
    | (.error e, reads) => (.error e, reads)

/-- `return None`. -/
def none : Reading α := (.error .none, [])

/-- `value?`. -/
def some? : Option α → Reading α
  | .some a => pure a
  | .none   => none

/-- An operation that may trap. -/
def checked : Checked α → Reading α
  | .ok a    => pure a
  | .error t => (.error (.trap t), [])

/-- `device.read_blocks(lba, buffer).ok()?` into a buffer of `count` sectors. -/
def readBlocks (device : BlockDevice) (lba count : Nat) : Reading Bytes :=
  match device.readBlocks lba count with
  | .ok bytes => (.ok bytes, [(lba, count)])
  | .error _  => (.error .none, [(lba, count)])

/-- The value, if the reader has one. -/
def result (x : Reading α) : Except Stop α := x.1

/-- The reads it made. -/
def reads (x : Reading α) : List (Nat × Nat) := x.2

end Reading

/-! ## §2. CRC-32. -/

/-- One bit of `crc32_update`. -/
def crc32Bit (crc : UInt32) : UInt32 :=
  if crc &&& 1 ≠ 0 then (crc >>> 1) ^^^ 0xedb88320 else crc >>> 1

/-- `count` rounds of the inner loop. -/
def crc32Bits : (count : Nat) → UInt32 → UInt32
  | 0, crc => crc
  | count + 1, crc => crc32Bits count (crc32Bit crc)

/-- `crc32_update`. -/
def crc32Update : UInt32 → Bytes → UInt32
  | crc, [] => crc
  | crc, byte :: bytes => crc32Update (crc32Bits 8 (crc ^^^ byte.toUInt32)) bytes

/-- `crc32_finalize`. -/
def crc32Finalize (crc : UInt32) : UInt32 := ~~~crc

/-- `crc32`. -/
def crc32 (bytes : Bytes) : UInt32 := crc32Finalize (crc32Update 0xffffffff bytes)

/-- Updating piece by piece is updating with the whole. -/
theorem crc32Update_append (crc : UInt32) (xs ys : Bytes) :
    crc32Update crc (xs ++ ys) = crc32Update (crc32Update crc xs) ys := by
  induction xs generalizing crc with
  | nil => rfl
  | cons x xs ih => exact ih _

/-! ## §3. The header. -/

def gptSignature : Bytes := ascii "EFI PART"
def gptHeaderMinSize : Nat := 92
def gptHeaderCrcOffset : Nat := 16
def gptHeaderLbaOffset : Nat := 24
def gptBackupLbaOffset : Nat := 32
def gptFirstUsableLbaOffset : Nat := 40
def gptLastUsableLbaOffset : Nat := 48
def gptPartitionEntryLbaOffset : Nat := 72
def gptPartitionEntryCountOffset : Nat := 80
def gptPartitionEntrySizeOffset : Nat := 84
def gptPartitionEntryArrayCrcOffset : Nat := 88
def gptPartitionNameLen : Nat := 36
def gptEntryMinSize : Nat := 128
def gptEntryReadBufferSize : Nat := virtioSectorSize * 2

/-- `GptHeader`. -/
structure GptHeader where
  partitionEntryLba   : Nat
  partitionEntryCount : Nat
  partitionEntrySize  : Nat
  deriving Repr, DecidableEq

/-- `GptPartitionEntry`. -/
structure GptPartitionEntry where
  partitionTypeGuid   : Bytes
  uniquePartitionGuid : Bytes
  firstLba            : Nat
  lastLba             : Nat
  attributes          : Nat
  partitionName       : List Nat
  deriving Repr, DecidableEq

/-- `a.div_ceil(b)`. -/
def divCeil (a b : Nat) : Nat := (a + (b - 1)) / b

/-- The loop of `verify_entry_array_crc`: the CRC state after the remaining bytes. -/
def entryArrayCrcLoop (device : BlockDevice) :
    (fuel : Nat) → (currentLba remaining : Nat) → (crc : UInt32) → Reading UInt32
  | 0, _, _, _ => Reading.checked (.error .outOfFuel)
  | fuel + 1, currentLba, remaining, crc =>
      if remaining = 0 then pure crc
      else do
        let sector ← Reading.readBlocks device currentLba 1
        let take := min remaining virtioSectorSize
        let chunk ← Reading.checked (indexRange sector 0 take)
        let rest ← Reading.checked (subWord remaining take)
        let nextLba ← Reading.some? (checkedAdd 64 currentLba 1)
        entryArrayCrcLoop device fuel nextLba rest (crc32Update crc chunk)

/-- `verify_entry_array_crc`; where the source returns `false` the reader stops, as its
    caller does. -/
def verifyEntryArrayCrc (device : BlockDevice) (startLba byteLen : Nat) (expectedCrc : Nat) :
    Reading Unit := do
  let crc ← entryArrayCrcLoop device (byteLen + 1) startLba byteLen 0xffffffff
  if (crc32Finalize crc).toNat ≠ expectedCrc then Reading.none else pure ()

/-- `read_header_at`. -/
def readHeaderAt (device : BlockDevice) (headerLba : Nat) : Reading GptHeader := do
  let sector ← Reading.readBlocks device headerLba 1
  let signature ← Reading.checked (indexRange sector 0 8)
  if signature ≠ gptSignature then Reading.none
  else
    let headerSize ← Reading.some? (readLe32 sector 12)
    if ¬ (gptHeaderMinSize ≤ headerSize ∧ headerSize ≤ virtioSectorSize) then Reading.none
    else
      let headerCrc ← Reading.some? (readLe32 sector gptHeaderCrcOffset)
      let copied ← Reading.checked (indexRange sector 0 headerSize)
      -- the CRC field counts as zero
      let headerBytes := overwrite copied gptHeaderCrcOffset [0, 0, 0, 0]
      if (crc32 headerBytes).toNat ≠ headerCrc then Reading.none
      else
        let currentLba ← Reading.some? (readLe64 sector gptHeaderLbaOffset)
        if currentLba ≠ headerLba then Reading.none
        else
          let backupLba ← Reading.some? (readLe64 sector gptBackupLbaOffset)
          if backupLba ≥ device.sectorCount ∨ backupLba = currentLba then Reading.none
          else
            let firstUsableLba ← Reading.some? (readLe64 sector gptFirstUsableLbaOffset)
            let lastUsableLba ← Reading.some? (readLe64 sector gptLastUsableLbaOffset)
            if firstUsableLba > lastUsableLba ∨ lastUsableLba ≥ device.sectorCount then Reading.none
            else
              let partitionEntryLba ← Reading.some? (readLe64 sector gptPartitionEntryLbaOffset)
              let partitionEntryCount ← Reading.some? (readLe32 sector gptPartitionEntryCountOffset)
              let entrySize ← Reading.some? (readLe32 sector gptPartitionEntrySizeOffset)
              if partitionEntryCount = 0 ∨ entrySize < gptEntryMinSize
                  ∨ entrySize % gptEntryMinSize ≠ 0 then Reading.none
              else
                let entryArrayBytes ← Reading.some? (checkedMul 64 partitionEntryCount entrySize)
                let entryArraySectors := divCeil entryArrayBytes virtioSectorSize
                let entryArrayEndLba ←
                  Reading.some? (checkedAdd 64 partitionEntryLba entryArraySectors)
                if partitionEntryLba = 0 ∨ entryArrayEndLba > device.sectorCount then Reading.none
                else if headerLba ≥ partitionEntryLba ∧ headerLba < entryArrayEndLba then Reading.none
                else
                  let entryArrayCrc ←
                    Reading.some? (readLe32 sector gptPartitionEntryArrayCrcOffset)
                  verifyEntryArrayCrc device partitionEntryLba entryArrayBytes entryArrayCrc
                  pure { partitionEntryLba := partitionEntryLba,
                         partitionEntryCount := partitionEntryCount,
                         partitionEntrySize := entrySize }

/-! ## §4. Entries. -/

/-- `required_entry_sectors`. -/
def requiredEntrySectors (sectorOffset : Nat) : Option Nat :=
  (checkedAdd 64 sectorOffset gptEntryMinSize).map (fun bytesNeeded => divCeil bytesNeeded virtioSectorSize)

/-- `copy_16`. -/
def copy16 (bytes : Bytes) (offset : Nat) : Option Bytes := slice? bytes offset (offset + 16)

/-- The loop over the name: the code units from `nameIndex` on. -/
def decodeName (entry : Bytes) : (count : Nat) → (nameIndex : Nat) → Checked (List Nat)
  | 0, _ => .ok []
  | count + 1, nameIndex => do
      let offset := 56 + nameIndex * 2
      let low ← index entry offset
      let high ← index entry (offset + 1)
      let rest ← decodeName entry count (nameIndex + 1)
      .ok (leNat [low, high] :: rest)

/-- `read_partition_entry`. -/
def readPartitionEntry (device : BlockDevice) (header : GptHeader) (entryIndex : Nat) :
    Reading GptPartitionEntry := do
  if entryIndex ≥ header.partitionEntryCount then Reading.none
  else
    let entryOffset ← Reading.some? (checkedMul 64 entryIndex header.partitionEntrySize)
    let sectorLba ← Reading.some?
      (checkedAdd 64 header.partitionEntryLba (entryOffset / virtioSectorSize))
    let sectorOffset := entryOffset % virtioSectorSize
    let sectorsToRead ← Reading.some? (requiredEntrySectors sectorOffset)
    let bytesToRead ← Reading.checked (mulWord 64 sectorsToRead virtioSectorSize)
    if bytesToRead > gptEntryReadBufferSize then Reading.none
    else
      let read ← Reading.readBlocks device sectorLba sectorsToRead
      -- the rest of the buffer stays zero
      let sectors := read ++ List.replicate (gptEntryReadBufferSize - bytesToRead) 0
      let stop ← Reading.checked (addWord 64 sectorOffset gptEntryMinSize)
      let entry ← Reading.checked (indexRange sectors sectorOffset stop)
      let partitionName ← Reading.checked (decodeName entry gptPartitionNameLen 0)
      let partitionTypeGuid ← Reading.some? (copy16 entry 0)
      let uniquePartitionGuid ← Reading.some? (copy16 entry 16)
      let firstLba ← Reading.some? (readLe64 entry 32)
      let lastLba ← Reading.some? (readLe64 entry 40)
      let attributes ← Reading.some? (readLe64 entry 48)
      if firstLba > lastLba ∨ lastLba ≥ device.sectorCount then Reading.none
      else
        pure { partitionTypeGuid := partitionTypeGuid, uniquePartitionGuid := uniquePartitionGuid,
               firstLba := firstLba, lastLba := lastLba, attributes := attributes,
               partitionName := partitionName }

end RustFirmware.Gpt
