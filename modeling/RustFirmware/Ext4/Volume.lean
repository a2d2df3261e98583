/-
  RustFirmware.Ext4.Volume
  ────────────────────────
  **A MOUNTED EXT4 VOLUME OF `src/ext4.rs`: SUPERBLOCK, BLOCKS AND INODES.**

  `Ext4Volume` carries what `new` has checked, so that a volume with a zero block
  size or no inodes in a group cannot be built.  Block numbers become sector
  numbers modulo `2 ^ 64`, as the unchecked `u64` operations of the source do.
-/
import RustFirmware.Virtio.BlockDevice
import RustFirmware.Lib.Loop
import RustFirmware.Memory.Types

namespace RustFirmware.Ext4

open RustFirmware.Lib
open RustFirmware.Memory
open RustFirmware.Virtio

/-! ## §1. Constants and errors. -/

def ext4SuperMagic : Nat := 0xef53
def ext4MaxBlockSize : Nat := 4096
def ext4MaxInodeSize : Nat := 512
def ext4PathBytes : Nat := 1024
def ext4RootInode : Nat := 2
def ext4MaxSymlinkDepth : Nat := 8
def ext4MaxExtents : Nat := 128
def ext4MaxExtentDepth : Nat := 5
def ext4ExtentMagic : Nat := 0xf30a
def ext4FeatureIncompatFiletype : Nat := 0x0002
def ext4FeatureIncompatRecover : Nat := 0x0004
def ext4FeatureIncompatExtents : Nat := 0x0040
def ext4FeatureIncompat64bit : Nat := 0x0080
def ext4FeatureIncompatFlexBg : Nat := 0x0200

/-- The features that a volume may require. -/
def ext4SupportedIncompatFeatures : Nat :=
  ext4FeatureIncompatFiletype ||| ext4FeatureIncompatRecover ||| ext4FeatureIncompatExtents
    ||| ext4FeatureIncompat64bit ||| ext4FeatureIncompatFlexBg

def ext4InodeFlagExtents : Nat := 0x00080000
def ext4ModeRegular : Nat := 0x8000
def ext4ModeDirectory : Nat := 0x4000
def ext4ModeSymlink : Nat := 0xa000
def ext4ModeTypeMask : Nat := 0xf000

/-- `Ext4Error`. -/
inductive Ext4Error where
  | device (error : VirtioError)
  | memory (error : MemoryError)
  | invalidSuperblock
  | unsupportedBlockSize (size : Nat)
  | unsupportedInodeSize (size : Nat)
  | unsupportedIncompatibleFeatures (features : Nat)
  | unsupportedMapping
  | invalidPath
  | notFound
  | notDirectory
  | isDirectory
  | bufferTooSmall
  | invalidInode (number : Nat)
  | invalidExtentTree
  | invalidDirectoryEntry
  | nameTooLong
  | symlinkLoop
  | unsupportedFileType (mode : Nat)
  deriving Repr, DecidableEq

/-- `value?` on a result of the device. -/
def fromDevice {α : Type} (result : Except VirtioError α) : Except Ext4Error α :=
  result.mapError Ext4Error.device

theorem fromDevice_ok {α : Type} {result : Except VirtioError α} {a : α} :
    fromDevice result = .ok a ↔ result = .ok a := by
  cases result with
  | ok b => exact ⟨fun h => (by cases h; rfl), fun h => (by cases h; rfl)⟩
  | error e => exact ⟨fun h => (by cases h), fun h => (by cases h)⟩

/-! ## §2. Volumes and inodes. -/

/-- `Ext4Volume`, with what `new` has checked. -/
structure Ext4Volume where
  device                    : BlockDevice
  partitionStartLba         : Nat
  blockSize                 : Nat
  sectorsPerBlock           : Nat
  inodesPerGroup            : Nat
  inodeSize                 : Nat
  groupDescriptorSize       : Nat
  groupDescriptorTableBlock : Nat
  blockSize_le              : blockSize ≤ ext4MaxBlockSize
  blockSize_eq              : blockSize = virtioSectorSize * sectorsPerBlock
  sectorsPerBlock_pos       : 0 < sectorsPerBlock
  inodesPerGroup_pos        : 0 < inodesPerGroup
  inodeSize_le              : inodeSize ≤ ext4MaxInodeSize
  groupDescriptorSize_eq    : groupDescriptorSize = 32 ∨ groupDescriptorSize = 64

/-- `Ext4Inode`. -/
structure Ext4Inode where
  inodeNumber      : Nat
  mode             : Nat
  sizeBytes        : Nat
  flags            : Nat
  blockData        : Bytes
  blockData_length : blockData.length = 60
  deriving Repr, DecidableEq

namespace Ext4Inode

variable (inode : Ext4Inode)

/-- `is_directory`. -/
def isDirectory : Bool := inode.mode &&& ext4ModeTypeMask == ext4ModeDirectory

/-- `is_regular_file`. -/
def isRegularFile : Bool := inode.mode &&& ext4ModeTypeMask == ext4ModeRegular

/-- `is_symlink`. -/
def isSymlink : Bool := inode.mode &&& ext4ModeTypeMask == ext4ModeSymlink

/-- `uses_extents`. -/
def usesExtents : Bool := inode.flags &&& ext4InodeFlagExtents != 0

theorem isSymlink_of_isRegularFile (h : inode.isRegularFile = true) : inode.isSymlink = false := by
  unfold isRegularFile at h
  unfold isSymlink
  rw [beq_iff_eq] at h
  rw [h]
  rfl

theorem isSymlink_of_isDirectory (h : inode.isDirectory = true) : inode.isSymlink = false := by
  unfold isDirectory at h
  unfold isSymlink
  rw [beq_iff_eq] at h
  rw [h]
  rfl

theorem isDirectory_of_isRegularFile (h : inode.isRegularFile = true) :
    inode.isDirectory = false := by
  unfold isRegularFile at h
  unfold isDirectory
  rw [beq_iff_eq] at h
  rw [h]
  rfl

end Ext4Inode

/-! ## §3. Reading bytes and blocks. -/

/-- The loop of `read_device_bytes`: `copied` are the bytes so far.  A pass copies at least
    one byte, so `length` passes are enough. -/
def readDeviceBytesLoop (device : BlockDevice) (partitionStartLba byteOffset length : Nat) :
    (passes : Nat) → (copied : Bytes) → Except VirtioError Bytes
  | 0, copied => .ok copied
  | passes + 1, copied =>
      if length ≤ copied.length then .ok copied
      else do
        let absoluteOffset := (byteOffset + copied.length) % 2 ^ 64
        let sectorIndex := absoluteOffset / virtioSectorSize
        let sectorOffset := absoluteOffset % virtioSectorSize
        let sector ← device.readBlocks ((partitionStartLba + sectorIndex) % 2 ^ 64) 1
        let take := min (length - copied.length) (virtioSectorSize - sectorOffset)
        readDeviceBytesLoop device partitionStartLba byteOffset length passes
          (copied ++ (sector.drop sectorOffset).take take)

/-- `read_device_bytes` into a buffer of `length` bytes. -/
def readDeviceBytes (device : BlockDevice) (partitionStartLba byteOffset length : Nat) :
    Except VirtioError Bytes :=
  if length = 0 then .ok []
  else if byteOffset % virtioSectorSize = 0 ∧ length % virtioSectorSize = 0 then
    device.readBlocks ((partitionStartLba + byteOffset / virtioSectorSize) % 2 ^ 64)
      (length / virtioSectorSize)
  else readDeviceBytesLoop device partitionStartLba byteOffset length length []

/-- `Ext4Volume::new`. -/
def Ext4Volume.new (device : BlockDevice) (partitionStartLba : Nat) :
    Except Ext4Error Ext4Volume := do
  let superblockBytes ← fromDevice (readDeviceBytes device partitionStartLba 1024 1024)
  let magic ← okOr (readLe16 superblockBytes 0x38) .invalidSuperblock
  if magic ≠ ext4SuperMagic then .error .invalidSuperblock
  else
    let logBlockSize ← okOr (readLe32 superblockBytes 0x18) .invalidSuperblock
    let blockSize ← okOr (checkedShl 32 1024 logBlockSize) .invalidSuperblock
    if hblock : blockSize > ext4MaxBlockSize ∨ blockSize < virtioSectorSize
        ∨ blockSize % virtioSectorSize ≠ 0 then .error (.unsupportedBlockSize blockSize)
    else
      let inodeSize ← okOr (readLe16 superblockBytes 0x58) .invalidSuperblock
      if hinode : inodeSize = 0 ∨ inodeSize > ext4MaxInodeSize then
        .error (.unsupportedInodeSize inodeSize)
      else
        let incompatFeatures ← okOr (readLe32 superblockBytes 0x60) .invalidSuperblock
        let unsupported := incompatFeatures &&& complement 32 ext4SupportedIncompatFeatures
        if unsupported ≠ 0 then .error (.unsupportedIncompatibleFeatures unsupported)
        else
          let blocksPerGroup ← okOr (readLe32 superblockBytes 0x20) .invalidSuperblock
          let inodesPerGroup ← okOr (readLe32 superblockBytes 0x28) .invalidSuperblock
          if hgroup : blocksPerGroup = 0 ∨ inodesPerGroup = 0 then .error .invalidSuperblock
          else
            let stated ← okOr (readLe16 superblockBytes 0xfe) .invalidSuperblock
            let groupDescriptorSize := if stated = 0 then 32 else stated
            if hsize : groupDescriptorSize ≠ 32 ∧ groupDescriptorSize ≠ 64 then
              .error .invalidSuperblock
            else
              .ok {
                device := device
                partitionStartLba := partitionStartLba
                blockSize := blockSize
                sectorsPerBlock := blockSize / virtioSectorSize
                inodesPerGroup := inodesPerGroup
                inodeSize := inodeSize
                groupDescriptorSize := groupDescriptorSize
                groupDescriptorTableBlock := if blockSize = 1024 then 2 else 1
                blockSize_le := by omega
                blockSize_eq := by
                  unfold virtioSectorSize at *
                  omega
                sectorsPerBlock_pos := by
                  unfold virtioSectorSize at *
                  omega
                inodesPerGroup_pos := by omega
                inodeSize_le := by omega
                groupDescriptorSize_eq := by omega }

namespace Ext4Volume

variable (volume : Ext4Volume)

/-- `block_to_lba`. -/
def blockToLba (blockNumber : Nat) : Nat :=
  (volume.partitionStartLba + blockNumber * volume.sectorsPerBlock) % 2 ^ 64

/-- `read_block`. -/
def readBlock (blockNumber : Nat) : Except Ext4Error Bytes :=
  fromDevice (volume.device.readBlocks (volume.blockToLba blockNumber) volume.sectorsPerBlock)

/-- `read_volume_bytes`. -/
def readVolumeBytes (byteOffset length : Nat) : Except Ext4Error Bytes :=
  fromDevice (readDeviceBytes volume.device volume.partitionStartLba byteOffset length)

/-- A buffer of `size` bytes whose first bytes were read. -/
def padded (bytes : Bytes) (size : Nat) : Bytes :=
  bytes ++ List.replicate (size - bytes.length) 0

theorem le_padded_length (bytes : Bytes) (size : Nat) : size ≤ (padded bytes size).length := by
  unfold padded
  rw [List.length_append, List.length_replicate]
  omega

/-- `inode_table_block`. -/
def inodeTableBlock (group : Nat) : Except Ext4Error Nat := do
  let descriptorOffset ← okOr
    ((checkedMul 64 volume.groupDescriptorTableBlock volume.blockSize).bind
      (fun value => checkedAdd 64 value (group * volume.groupDescriptorSize)))
    .invalidSuperblock
  let read ← volume.readVolumeBytes descriptorOffset volume.groupDescriptorSize
  let descriptor := padded read 64
  let tableLow ← okOr (readLe32 descriptor 8) .invalidSuperblock
  let tableHigh ←
    if volume.groupDescriptorSize ≥ 44 then okOr (readLe32 descriptor 0x28) .invalidSuperblock
    else .ok 0
  .ok (tableHigh * 2 ^ 32 + tableLow)

/-- `read_inode`. -/
def readInode (inodeNumber : Nat) : Except Ext4Error Ext4Inode :=
  if inodeNumber = 0 then .error (.invalidInode inodeNumber)
  else do
    let group := (inodeNumber - 1) / volume.inodesPerGroup
    let index := (inodeNumber - 1) % volume.inodesPerGroup
    let inodeTableBlock ← volume.inodeTableBlock group
    let inodeOffset ← okOr
      ((checkedMul 64 inodeTableBlock volume.blockSize).bind
        (fun value => checkedAdd 64 value (index * volume.inodeSize)))
      (.invalidInode inodeNumber)
    let read ← volume.readVolumeBytes inodeOffset volume.inodeSize
    let inodeBytes := padded read ext4MaxInodeSize
    let mode ← okOr (readLe16 inodeBytes 0) (.invalidInode inodeNumber)
    let sizeLow ← okOr (readLe32 inodeBytes 4) (.invalidInode inodeNumber)
    let flags ← okOr (readLe32 inodeBytes 0x20) (.invalidInode inodeNumber)
    let sizeHigh := (readLe32 inodeBytes 0x6c).getD 0
    .ok {
      inodeNumber := inodeNumber
      mode := mode
      sizeBytes := sizeLow + sizeHigh * 2 ^ 32
      flags := flags
      blockData := (inodeBytes.drop 0x28).take 60
      blockData_length := by
        have hsize : ext4MaxInodeSize ≤ inodeBytes.length := le_padded_length read ext4MaxInodeSize
        unfold ext4MaxInodeSize at hsize
        rw [List.length_take, List.length_drop]
        omega }

/-- The contents of a block. -/
def block (blockNumber : Nat) : Bytes :=
  volume.device.sectors (volume.partitionStartLba + blockNumber * volume.sectorsPerBlock)
    volume.sectorsPerBlock

theorem readBlock_ok {blockNumber : Nat} {bytes : Bytes}
    (h : volume.readBlock blockNumber = .ok bytes) : bytes = volume.block blockNumber := by
  rw [volume.device.readBlocks_ok (fromDevice_ok.mp h), blockToLba, volume.device.sectors_mod]
  rfl

/-- The contents of `count` blocks, one after another. -/
def blocks (blockNumber count : Nat) : Bytes :=
  volume.device.sectors (volume.partitionStartLba + blockNumber * volume.sectorsPerBlock)
    (count * volume.sectorsPerBlock)

theorem blockSize_pos : 0 < volume.blockSize := by
  rw [volume.blockSize_eq]
  exact Nat.mul_pos (by decide) volume.sectorsPerBlock_pos

theorem blocks_length (blockNumber count : Nat) :
    (volume.blocks blockNumber count).length = count * volume.blockSize := by
  unfold blocks
  rw [volume.device.sectors_length, volume.blockSize_eq, Nat.mul_left_comm]

theorem blocks_succ (blockNumber count : Nat) :
    volume.blocks blockNumber (count + 1)
      = volume.blocks blockNumber count ++ volume.block (blockNumber + count) := by
  unfold blocks block
  rw [Nat.succ_mul, volume.device.sectors_add, Nat.add_assoc, Nat.add_mul]

/-- Byte `i` of a run of blocks is byte `i % blockSize` of block `i / blockSize` of it. -/
theorem blocks_getElem? {blockNumber count i : Nat} (h : i < count * volume.blockSize) :
    (volume.blocks blockNumber count)[i]?
      = (volume.block (blockNumber + i / volume.blockSize))[i % volume.blockSize]? := by
  induction count with
  | zero =>
      rw [Nat.zero_mul] at h
      exact absurd h (Nat.not_lt_zero i)
  | succ count ih =>
      have hlength := volume.blocks_length blockNumber count
      rw [blocks_succ]
      by_cases hin : i < count * volume.blockSize
      · rw [List.getElem?_append_left (by omega), ih hin]
      · -- the last block of the run
        rw [Nat.succ_mul] at h
        have hdiv : i / volume.blockSize = count := by
          rw [Nat.div_eq_iff volume.blockSize_pos]
          omega
        have hmod := Nat.div_add_mod i volume.blockSize
        rw [hdiv, Nat.mul_comm] at hmod
        rw [List.getElem?_append_right (by omega), hlength, hdiv]
        congr 1
        omega

end Ext4Volume

/-- A volume of 1 KiB blocks on a disk whose sectors begin with `contents`. -/
def volumeOf (contents : Nat → Bytes) : Ext4Volume where
  device := {
    sectorCount    := 64
    sector lba     := (contents lba ++ List.replicate virtioSectorSize 0).take virtioSectorSize
    error _ _      := none
    sectorCount_lt := by decide
    sector_length  := by
      intro lba
      rw [List.length_take, List.length_append, List.length_replicate]
      exact Nat.min_eq_left (Nat.le_add_left _ _) }
  partitionStartLba         := 0
  blockSize                 := 1024
  sectorsPerBlock           := 2
  inodesPerGroup            := 8
  inodeSize                 := 128
  groupDescriptorSize       := 32
  groupDescriptorTableBlock := 2
  blockSize_le              := by decide
  blockSize_eq              := by decide
  sectorsPerBlock_pos       := by decide
  inodesPerGroup_pos        := by decide
  inodeSize_le              := by decide
  groupDescriptorSize_eq    := by decide

end RustFirmware.Ext4
