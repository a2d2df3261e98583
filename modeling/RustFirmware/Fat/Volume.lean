/-
  RustFirmware.Fat.Volume
  ───────────────────────
  **A MOUNTED FAT VOLUME OF `src/fat.rs`: BOOT SECTOR, SECTORS AND CLUSTERS.**

  `FatVolume` carries what `new` has checked: a volume with empty clusters or with too
  few of them for FAT16 cannot be built.  Sector and cluster numbers are fixed-width
  integers that wrap, as the unchecked operations of the source do.
-/
import RustFirmware.Virtio.BlockDevice
import RustFirmware.Lib.Word
import RustFirmware.Memory.Types

namespace RustFirmware.Fat

open RustFirmware.Lib
open RustFirmware.Memory
open RustFirmware.Virtio

/-! ## §1. Constants and errors. -/

def fatLongNameCodeUnits : Nat := 260
def fatLongNameUtf8Bytes : Nat := fatLongNameCodeUnits * 3
def fatPathUtf8Bytes : Nat := 1024
def fatDirEntrySize : Nat := 32
def fatAttributeVolumeId : UInt8 := 0x08
def fatAttributeDirectory : UInt8 := 0x10
def fatAttributeLongName : UInt8 := 0x0f
def fat16EndOfChain : UInt32 := 0xfff8
def fat16BadCluster : UInt32 := 0xfff7
def fat32EndOfChain : UInt32 := 0x0ffffff8
def fat32BadCluster : UInt32 := 0x0ffffff7

/-- `FatType`. -/
inductive FatType where
  | fat16
  | fat32
  deriving Repr, DecidableEq

/-- `FatError`. -/
inductive FatError where
  | device (error : VirtioError)
  | memory (error : MemoryError)
  | invalidBootSector
  | unsupportedSectorSize (size : UInt16)
  | unsupportedFatType
  | invalidPath
  | notFound
  | notDirectory
  | isDirectory
  | bufferTooSmall
  | invalidCluster (cluster : UInt32)
  | chainTooShort
  | fileTooLarge
  | invalidLongName
  | nameTooLong
  deriving Repr, DecidableEq

/-- `read_u16`. -/
def readU16 (bytes : Bytes) (offset : Nat) : Option UInt16 :=
  (readLe16 bytes offset).map UInt16.ofNat

/-- `read_u32`. -/
def readU32 (bytes : Bytes) (offset : Nat) : Option UInt32 :=
  (readLe32 bytes offset).map UInt32.ofNat

/-! ## §2. Volumes. -/

/-- `FatVolume`, with what `new` has checked. -/
structure FatVolume where
  device                  : BlockDevice
  partitionStartLba       : UInt64
  fatType                 : FatType
  sectorsPerCluster       : UInt8
  reservedSectorCount     : UInt16
  rootDirSectors          : UInt32
  rootDirFirstSector      : UInt32
  dataFirstSector         : UInt32
  rootCluster             : UInt32
  totalClusters           : UInt32
  sectorsPerCluster_ne    : sectorsPerCluster ≠ 0
  reservedSectorCount_ne  : reservedSectorCount ≠ 0
  fatType_eq              : fatType = if totalClusters < 65525 then .fat16 else .fat32
  totalClusters_ge        : 4085 ≤ totalClusters
  rootCluster_eq          : fatType = .fat16 → rootCluster = 0
  rootCluster_ge          : fatType = .fat32 → 2 ≤ rootCluster

/-- `FatVolume::new`. -/
def FatVolume.new (device : BlockDevice) (partitionStartLba : UInt64) :
    Except FatError FatVolume := do
  let bootSector ← (device.readBlocks partitionStartLba.toNat 1).mapError .device
  let bytesPerSector ← okOr (readU16 bootSector 11) .invalidBootSector
  if bytesPerSector.toNat ≠ virtioSectorSize then .error (.unsupportedSectorSize bytesPerSector)
  else
    let sectorsPerCluster ← okOr bootSector[13]? .invalidBootSector
    let reservedSectorCount ← okOr (readU16 bootSector 14) .invalidBootSector
    let fatCount ← okOr bootSector[16]? .invalidBootSector
    let rootDirEntries ← okOr (readU16 bootSector 17) .invalidBootSector
    let totalSectors16 ← okOr (readU16 bootSector 19) .invalidBootSector
    let fatSize16 ← okOr (readU16 bootSector 22) .invalidBootSector
    let totalSectors32 ← okOr (readU32 bootSector 32) .invalidBootSector
    let fatSize32 ← okOr (readU32 bootSector 36) .invalidBootSector
    let rootCluster ← okOr (readU32 bootSector 44) .invalidBootSector
    if hzero : sectorsPerCluster = 0 ∨ reservedSectorCount = 0 ∨ fatCount = 0 then
      .error .invalidBootSector
    else
      let totalSectors := if totalSectors16 ≠ 0 then totalSectors16.toUInt32 else totalSectors32
      let fatSizeSectors := if fatSize16 ≠ 0 then fatSize16.toUInt32 else fatSize32
      if totalSectors = 0 ∨ fatSizeSectors = 0 then .error .invalidBootSector
      else
        -- `div_ceil`
        let rootDirSectors := (rootDirEntries.toUInt32 * 32 + 511) / 512
        let rootDirFirstSector := reservedSectorCount.toUInt32 + fatCount.toUInt32 * fatSizeSectors
        let dataFirstSector := rootDirFirstSector + rootDirSectors
        if totalSectors < dataFirstSector then .error .invalidBootSector
        else
          let totalClusters := (totalSectors - dataFirstSector) / sectorsPerCluster.toUInt32
          if hfew : totalClusters < 4085 then .error .unsupportedFatType
          else if hfat16 : totalClusters < 65525 then
            .ok {
              device := device
              partitionStartLba := partitionStartLba
              fatType := .fat16
              sectorsPerCluster := sectorsPerCluster
              reservedSectorCount := reservedSectorCount
              rootDirSectors := rootDirSectors
              rootDirFirstSector := rootDirFirstSector
              dataFirstSector := dataFirstSector
              rootCluster := 0
              totalClusters := totalClusters
              sectorsPerCluster_ne := fun h => hzero (.inl h)
              reservedSectorCount_ne := fun h => hzero (.inr (.inl h))
              fatType_eq := by rw [if_pos hfat16]
              totalClusters_ge := UInt32.not_lt.mp hfew
              rootCluster_eq := fun _ => rfl
              rootCluster_ge := fun h => (by cases h) }
          else if hroot : 2 ≤ rootCluster then
            .ok {
              device := device
              partitionStartLba := partitionStartLba
              fatType := .fat32
              sectorsPerCluster := sectorsPerCluster
              reservedSectorCount := reservedSectorCount
              rootDirSectors := rootDirSectors
              rootDirFirstSector := rootDirFirstSector
              dataFirstSector := dataFirstSector
              rootCluster := rootCluster
              totalClusters := totalClusters
              sectorsPerCluster_ne := fun h => hzero (.inl h)
              reservedSectorCount_ne := fun h => hzero (.inr (.inl h))
              fatType_eq := by rw [if_neg hfat16]
              totalClusters_ge := UInt32.not_lt.mp hfew
              rootCluster_eq := fun h => (by cases h)
              rootCluster_ge := fun _ => hroot }
          else .error .invalidBootSector

namespace FatVolume

variable (volume : FatVolume)

/-- `read_relative_blocks`: one sector. -/
def readRelativeBlocks (relativeSector : UInt32) : Except FatError Bytes :=
  (volume.device.readBlocks (volume.partitionStartLba + relativeSector.toUInt64).toNat 1).mapError
    .device

/-- `is_valid_cluster`. -/
def isValidCluster (cluster : UInt32) : Bool :=
  2 ≤ cluster ∧ cluster < volume.totalClusters + 2

/-- `is_end_of_chain`. -/
def isEndOfChain (cluster : UInt32) : Bool :=
  match volume.fatType with
  | .fat16 => fat16EndOfChain ≤ cluster
  | .fat32 => fat32EndOfChain ≤ cluster

/-- `cluster_first_sector`. -/
def clusterFirstSector (cluster : UInt32) : Except FatError UInt32 :=
  if volume.isValidCluster cluster then
    .ok (volume.dataFirstSector + (cluster - 2) * volume.sectorsPerCluster.toUInt32)
  else .error (.invalidCluster cluster)

/-- `next_cluster`. -/
def nextCluster (cluster : UInt32) : Except FatError UInt32 :=
  if volume.isValidCluster cluster = false then .error (.invalidCluster cluster)
  else do
    let entrySize : UInt32 :=
      match volume.fatType with
      | .fat16 => 2
      | .fat32 => 4
    let fatOffset := cluster * entrySize
    let fatSector := volume.reservedSectorCount.toUInt32 + fatOffset / 512
    let entryOffset := fatOffset.toNat % virtioSectorSize
    let sector ← volume.readRelativeBlocks fatSector
    match volume.fatType with
    | .fat16 =>
        let next ← okOr (readU16 sector entryOffset) .invalidBootSector
        if next.toUInt32 = fat16BadCluster then .error (.invalidCluster next.toUInt32)
        else .ok next.toUInt32
    | .fat32 =>
        let entry ← okOr (readU32 sector entryOffset) .invalidBootSector
        let next := entry &&& 0x0fffffff
        if next = fat32BadCluster then .error (.invalidCluster next)
        else .ok next

end FatVolume

/-! ## §3. A small FAT16 volume. -/

/-- A sector that begins with `contents`. -/
def sectorOf (contents : Bytes) : Bytes :=
  (contents ++ List.replicate virtioSectorSize 0).take virtioSectorSize

theorem sectorOf_length (contents : Bytes) : (sectorOf contents).length = virtioSectorSize := by
  unfold sectorOf
  rw [List.length_take, List.length_append, List.length_replicate]
  exact Nat.min_eq_left (Nat.le_add_left _ _)

/-- 5000 sectors: the boot sector, one FAT of 20 sectors, one sector of 16 root directory
    entries, and clusters of one sector. -/
def fat16BootSector : Bytes :=
  sectorOf (List.replicate 11 0 ++ leBytes 2 512 ++ leBytes 1 1 ++ leBytes 2 1 ++ leBytes 1 1
    ++ leBytes 2 16 ++ leBytes 2 5000 ++ leBytes 1 0 ++ leBytes 2 20)

theorem smallDisk_lt : 5000 < 2 ^ 64 := by decide

/-- A disk with this boot sector and `contents` in the sectors behind it. -/
def fat16Device (contents : Nat → Bytes) : BlockDevice where
  sectorCount    := 5000
  sector lba     := if lba = 0 then fat16BootSector else sectorOf (contents lba)
  error _ _      := none
  sectorCount_lt := smallDisk_lt
  sector_length  := by
    intro lba
    split
    · exact sectorOf_length _
    · exact sectorOf_length _

/-- The volume that is mounted from it. -/
def fat16Volume (contents : Nat → Bytes) : FatVolume where
  device                  := fat16Device contents
  partitionStartLba       := 0
  fatType                 := .fat16
  sectorsPerCluster       := 1
  reservedSectorCount     := 1
  rootDirSectors          := 1
  rootDirFirstSector      := 21
  dataFirstSector         := 22
  rootCluster             := 0
  totalClusters           := 4978
  sectorsPerCluster_ne    := by decide
  reservedSectorCount_ne  := by decide
  fatType_eq              := by decide
  totalClusters_ge        := by decide
  rootCluster_eq          := fun _ => rfl
  rootCluster_ge          := fun h => (by cases h)

/-- A device with this boot sector at `start` is mounted as such a volume. -/
theorem new_of_readBlocks {device : BlockDevice} {start : UInt64} (contents : Nat → Bytes)
    (h : device.readBlocks start.toNat 1 = .ok fat16BootSector) :
    FatVolume.new device start
      = .ok { fat16Volume contents with device := device, partitionStartLba := start } := by
  have h11 : readU16 fat16BootSector 11 = some 512 := by decide +kernel
  have h13 : fat16BootSector[13]? = some 1 := by decide +kernel
  have h14 : readU16 fat16BootSector 14 = some 1 := by decide +kernel
  have h16 : fat16BootSector[16]? = some 1 := by decide +kernel
  have h17 : readU16 fat16BootSector 17 = some 16 := by decide +kernel
  have h19 : readU16 fat16BootSector 19 = some 5000 := by decide +kernel
  have h22 : readU16 fat16BootSector 22 = some 20 := by decide +kernel
  have h32 : readU32 fat16BootSector 32 = some 0 := by decide +kernel
  have h36 : readU32 fat16BootSector 36 = some 0 := by decide +kernel
  have h44 : readU32 fat16BootSector 44 = some 0 := by decide +kernel
  have hread : ∀ next : Bytes → Except FatError FatVolume,
      ((Except.ok fat16BootSector : Except VirtioError Bytes).mapError FatError.device >>= next)
        = next fat16BootSector := fun _ => rfl
  unfold FatVolume.new
  rw [h, hread, h11, h13, h14, h16, h17, h19, h22, h32, h36, h44]
  rfl

theorem new_fat16Device (contents : Nat → Bytes) :
    FatVolume.new (fat16Device contents) 0 = .ok (fat16Volume contents) := by
  apply new_of_readBlocks contents
  show Except.ok ((fat16Device contents).sectors 0 1) = _
  show Except.ok ((if 0 % 2 ^ 64 = 0 then fat16BootSector
    else sectorOf (contents (0 % 2 ^ 64))) ++ []) = _
  rw [if_pos (by decide), List.append_nil]

end RustFirmware.Fat
