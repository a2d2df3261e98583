/-
  RustFirmware.Ext4.Image
  ───────────────────────
  **`read_device_bytes` READS THE FLAT DISK IMAGE.**

  A device is one run of bytes, sector after sector.  A range of it that lies on the
  device is what `read_device_bytes` returns, by one bulk read or sector by sector; the
  loop is carried by one invariant, that what was copied so far is the front of the
  range.  All metadata is read this way, so an inode is decoded from its place in the
  inode table.
-/
import RustFirmware.Ext4.Volume
import RustFirmware.Lib.Checked

namespace RustFirmware.Ext4

open RustFirmware.Lib
open RustFirmware.Virtio

/-! ## §1. The image. -/

/-- All bytes of a device. -/
def diskImage (device : BlockDevice) : Bytes := device.sectors 0 device.sectorCount

/-- `length` bytes of the image from `start` on. -/
def imageBytes (device : BlockDevice) (start length : Nat) : Bytes :=
  ((diskImage device).drop start).take length

/-- Every read of sectors of the device succeeds. -/
def ReadsSucceed (device : BlockDevice) : Prop :=
  ∀ lba count, lba + count ≤ device.sectorCount → device.error lba count = none

/-- A run of sectors is a part of the image. -/
theorem sectors_eq_imageBytes (device : BlockDevice) {lba count : Nat}
    (h : lba + count ≤ device.sectorCount) :
    device.sectors lba count
      = imageBytes device (virtioSectorSize * lba) (virtioSectorSize * count) := by
  unfold imageBytes diskImage
  rw [device.sectors_drop 0 _ lba (by omega), Nat.zero_add, device.sectors_take _ _ _ (by omega)]

/-- Two parts of the image, one behind the other. -/
theorem imageBytes_append (device : BlockDevice) (start m n : Nat) :
    imageBytes device start m ++ imageBytes device (start + m) n = imageBytes device start (m + n) := by
  unfold imageBytes
  rw [List.take_add, List.drop_drop]

theorem imageBytes_length (device : BlockDevice) {start length : Nat}
    (h : start + length ≤ virtioSectorSize * device.sectorCount) :
    (imageBytes device start length).length = length := by
  unfold imageBytes diskImage
  rw [List.length_take, List.length_drop, device.sectors_length]
  omega

/-- A part of a part. -/
theorem imageBytes_part (device : BlockDevice) {start length skip keep : Nat}
    (h : skip + keep ≤ length) :
    ((imageBytes device start length).drop skip).take keep
      = imageBytes device (start + skip) keep := by
  unfold imageBytes
  rw [List.drop_take, List.take_take, List.drop_drop, Nat.min_eq_left (by omega)]

/-! ## §2. The two paths. -/

section Paths

variable {device : BlockDevice} {partitionStartLba byteOffset length : Nat}

/-- A read of the device, on the device. -/
theorem readBlocks_image {lba count : Nat} (h : lba + count ≤ device.sectorCount) :
    (∀ bytes, device.readBlocks (lba % 2 ^ 64) count = .ok bytes →
        bytes = imageBytes device (virtioSectorSize * lba) (virtioSectorSize * count))
    ∧ (ReadsSucceed device → device.readBlocks (lba % 2 ^ 64) count
        = .ok (imageBytes device (virtioSectorSize * lba) (virtioSectorSize * count))) := by
  have hsectors : device.sectors (lba % 2 ^ 64) count
      = imageBytes device (virtioSectorSize * lba) (virtioSectorSize * count) := by
    rw [device.sectors_mod, sectors_eq_imageBytes device h]
  constructor
  · intro bytes hread
    rw [device.readBlocks_ok hread, hsectors]
  · intro hreads
    have hlow : lba % 2 ^ 64 + count ≤ device.sectorCount :=
      Nat.le_trans (Nat.add_le_add_right (Nat.mod_le _ _) _) h
    unfold BlockDevice.readBlocks
    rw [hreads _ _ hlow, hsectors]

/-- **The sector-by-sector path**: what was copied stays the front of the range. -/
theorem readDeviceBytesLoop_image
    (hrange : virtioSectorSize * partitionStartLba + byteOffset + length
      ≤ virtioSectorSize * device.sectorCount)
    (hfits : byteOffset + length < 2 ^ 64) {passes : Nat} {copied : Bytes}
    (hcopied : copied = imageBytes device (virtioSectorSize * partitionStartLba + byteOffset)
      copied.length)
    (hle : copied.length ≤ length) (hpasses : length ≤ passes + copied.length) :
    (∀ bytes, readDeviceBytesLoop device partitionStartLba byteOffset length passes copied
          = .ok bytes →
        bytes = imageBytes device (virtioSectorSize * partitionStartLba + byteOffset) length)
    ∧ (ReadsSucceed device →
        readDeviceBytesLoop device partitionStartLba byteOffset length passes copied
          = .ok (imageBytes device (virtioSectorSize * partitionStartLba + byteOffset) length)) := by
  induction passes generalizing copied with
  | zero =>
      obtain rfl : length = copied.length := by omega
      rw [← hcopied]
      exact ⟨fun bytes h => (Except.ok.inj h).symm, fun _ => rfl⟩
  | succ passes ih =>
      unfold readDeviceBytesLoop
      by_cases hdone : length ≤ copied.length
      · obtain rfl : length = copied.length := by omega
        rw [if_pos hdone, ← hcopied]
        exact ⟨fun bytes h => (Except.ok.inj h).symm, fun _ => rfl⟩
      · rw [if_neg hdone]
        have hoffset : (byteOffset + copied.length) % 2 ^ 64 = byteOffset + copied.length :=
          Nat.mod_eq_of_lt (by omega)
        simp only [hoffset]
        -- from here on only the sector and the offset in it matter
        generalize hpos : byteOffset + copied.length = position at *
        have hsplit := Nat.div_add_mod position virtioSectorSize
        have hwithin := Nat.mod_lt position (show 0 < virtioSectorSize by decide)
        generalize position / virtioSectorSize = sectorIndex at *
        generalize position % virtioSectorSize = sectorOffset at *
        have hlba : partitionStartLba + sectorIndex + 1 ≤ device.sectorCount := by
          unfold virtioSectorSize at *
          omega
        obtain ⟨hread, hreads⟩ := readBlocks_image hlba
        -- the bytes of this sector that are copied go on where the others ended
        have hchunk : ∀ take, sectorOffset + take ≤ virtioSectorSize →
            ((imageBytes device (virtioSectorSize * (partitionStartLba + sectorIndex))
              (virtioSectorSize * 1)).drop sectorOffset).take take
            = imageBytes device (virtioSectorSize * partitionStartLba + byteOffset + copied.length)
              take := by
          intro take htake
          rw [imageBytes_part device (by omega)]
          congr 1
          rw [Nat.mul_add]
          omega
        generalize htake : min (length - copied.length) (virtioSectorSize - sectorOffset) = take
        have hnext : copied ++ imageBytes device
            (virtioSectorSize * partitionStartLba + byteOffset + copied.length) take
            = imageBytes device (virtioSectorSize * partitionStartLba + byteOffset)
              (copied.length + take) := by
          conv_lhs => rw [hcopied]
          rw [imageBytes_length device (by omega), imageBytes_append]
        have hnextLength : (imageBytes device (virtioSectorSize * partitionStartLba + byteOffset)
            (copied.length + take)).length = copied.length + take :=
          imageBytes_length device (by omega)
        have hstep := @ih (imageBytes device (virtioSectorSize * partitionStartLba + byteOffset)
          (copied.length + take)) (by rw [hnextLength]) (by rw [hnextLength]; omega)
          (by rw [hnextLength]; omega)
        constructor
        · intro bytes h
          cases hsector : device.readBlocks ((partitionStartLba + sectorIndex) % 2 ^ 64) 1 with
          | error e =>
              rw [hsector] at h
              cases h
          | ok sector =>
              rw [hsector, hread sector hsector] at h
              change readDeviceBytesLoop _ _ _ _ passes (copied ++ _) = _ at h
              rw [hchunk take (by omega), hnext] at h
              exact hstep.1 bytes h
        · intro hall
          rw [hreads hall]
          show readDeviceBytesLoop _ _ _ _ passes (copied ++ _) = _
          rw [hchunk take (by omega), hnext]
          exact hstep.2 hall

/-- **The path of one bulk read.** -/
theorem readBlocks_aligned
    (hrange : virtioSectorSize * partitionStartLba + byteOffset + length
      ≤ virtioSectorSize * device.sectorCount)
    (haligned : byteOffset % virtioSectorSize = 0 ∧ length % virtioSectorSize = 0) :
    (∀ bytes, device.readBlocks ((partitionStartLba + byteOffset / virtioSectorSize) % 2 ^ 64)
          (length / virtioSectorSize) = .ok bytes →
        bytes = imageBytes device (virtioSectorSize * partitionStartLba + byteOffset) length)
    ∧ (ReadsSucceed device →
        device.readBlocks ((partitionStartLba + byteOffset / virtioSectorSize) % 2 ^ 64)
          (length / virtioSectorSize)
          = .ok (imageBytes device (virtioSectorSize * partitionStartLba + byteOffset) length)) := by
  -- whole sectors from the start of one: nothing is lost in the two divisions
  have hbyte := Nat.mul_div_cancel' (Nat.dvd_of_mod_eq_zero haligned.1)
  have hlength := Nat.mul_div_cancel' (Nat.dvd_of_mod_eq_zero haligned.2)
  have hlba : partitionStartLba + byteOffset / virtioSectorSize + length / virtioSectorSize
      ≤ device.sectorCount := by
    apply Nat.le_of_mul_le_mul_left _ (show 0 < virtioSectorSize by decide)
    rw [Nat.mul_add, Nat.mul_add, hbyte, hlength]
    exact hrange
  have hread := readBlocks_image hlba
  rw [Nat.mul_add, hbyte, hlength] at hread
  exact hread

/-- **What `read_device_bytes` returns is the range of the image.** -/
theorem readDeviceBytes_range
    (hrange : virtioSectorSize * partitionStartLba + byteOffset + length
      ≤ virtioSectorSize * device.sectorCount)
    (hfits : byteOffset + length < 2 ^ 64) :
    (∀ bytes, readDeviceBytes device partitionStartLba byteOffset length = .ok bytes →
        bytes = imageBytes device (virtioSectorSize * partitionStartLba + byteOffset) length)
    ∧ (ReadsSucceed device → readDeviceBytes device partitionStartLba byteOffset length
        = .ok (imageBytes device (virtioSectorSize * partitionStartLba + byteOffset) length)) := by
  unfold readDeviceBytes
  by_cases hempty : length = 0
  · rw [if_pos hempty, hempty]
    exact ⟨fun bytes h => (Except.ok.inj h).symm, fun _ => rfl⟩
  · rw [if_neg hempty]
    by_cases haligned : byteOffset % virtioSectorSize = 0 ∧ length % virtioSectorSize = 0
    · rw [if_pos haligned]
      exact readBlocks_aligned hrange haligned
    · rw [if_neg haligned]
      exact readDeviceBytesLoop_image hrange hfits rfl (Nat.zero_le _) (Nat.le_refl _)

end Paths

/-! ## §3. Inodes. -/

/-- The number in `length` bytes of a record, its lowest byte first. -/
def numberAt (record : Bytes) (offset length : Nat) : Nat :=
  leNat ((record.drop offset).take length)

theorem readLe_numberAt {record : Bytes} {offset length : Nat} (h : offset + length ≤ record.length) :
    readLe length record offset = some (numberAt record offset length) := by
  unfold readLe slice? numberAt
  rw [if_pos ⟨Nat.le_add_right _ _, h⟩, Nat.add_sub_cancel_left]
  rfl

open Ext4Volume (padded le_padded_length)

/-- What the bytes of a group descriptor say of its inode table: the upper half of the block
    number is there only if the descriptor is long enough. -/
def decodeTableBlock (record : Bytes) : Nat :=
  (if 44 ≤ record.length then numberAt (padded record 64) 0x28 4 else 0) * 2 ^ 32
    + numberAt (padded record 64) 8 4

theorem inodeBlock_length (record : Bytes) :
    (((padded record ext4MaxInodeSize).drop 0x28).take 60).length = 60 := by
  have hsize : ext4MaxInodeSize ≤ _ := le_padded_length record ext4MaxInodeSize
  unfold ext4MaxInodeSize at *
  rw [List.length_take, List.length_drop]
  omega

/-- What the bytes of an inode stand for; behind their end they count as zero. -/
def decodeInode (inodeNumber : Nat) (record : Bytes) : Ext4Inode where
  inodeNumber      := inodeNumber
  mode             := numberAt (padded record ext4MaxInodeSize) 0 2
  sizeBytes        := numberAt (padded record ext4MaxInodeSize) 4 4
    + numberAt (padded record ext4MaxInodeSize) 0x6c 4 * 2 ^ 32
  flags            := numberAt (padded record ext4MaxInodeSize) 0x20 4
  blockData        := ((padded record ext4MaxInodeSize).drop 0x28).take 60
  blockData_length := inodeBlock_length record

namespace Ext4Volume

variable (volume : Ext4Volume)

/-- Where byte `byteOffset` of the volume is on the disk. -/
def imageOffset (byteOffset : Nat) : Nat :=
  virtioSectorSize * volume.partitionStartLba + byteOffset

/-- A range of the volume lies on the device, and its end is a `u64`. -/
def OnDevice (byteOffset length : Nat) : Prop :=
  volume.imageOffset byteOffset + length ≤ virtioSectorSize * volume.device.sectorCount
    ∧ byteOffset + length < 2 ^ 64

theorem readVolumeBytes_image {byteOffset length : Nat} (h : volume.OnDevice byteOffset length) :
    (∀ bytes, volume.readVolumeBytes byteOffset length = .ok bytes →
        bytes = imageBytes volume.device (volume.imageOffset byteOffset) length)
    ∧ (ReadsSucceed volume.device → volume.readVolumeBytes byteOffset length
        = .ok (imageBytes volume.device (volume.imageOffset byteOffset) length)) := by
  obtain ⟨hread, hreads⟩ := readDeviceBytes_range h.1 h.2
  constructor
  · intro bytes hbytes
    exact hread bytes (fromDevice_ok.mp hbytes)
  · intro hall
    exact fromDevice_ok.mpr (hreads hall)

/-- Where the descriptor of a group is. -/
def descriptorOffset (group : Nat) : Nat :=
  volume.groupDescriptorTableBlock * volume.blockSize + group * volume.groupDescriptorSize

/-- **`inode_table_block` decodes the descriptor of its group.** -/
theorem inodeTableBlock_image {group : Nat}
    (h : volume.OnDevice (volume.descriptorOffset group) volume.groupDescriptorSize)
    (hreads : ReadsSucceed volume.device) :
    volume.inodeTableBlock group = .ok (decodeTableBlock (imageBytes volume.device
      (volume.imageOffset (volume.descriptorOffset group)) volume.groupDescriptorSize)) := by
  have hlength := imageBytes_length volume.device h.1
  have hread := (volume.readVolumeBytes_image h).2 hreads
  have hfits := h.2
  generalize hrecord : imageBytes volume.device
    (volume.imageOffset (volume.descriptorOffset group)) volume.groupDescriptorSize = record at *
  unfold descriptorOffset at hfits hread
  have hpadded := le_padded_length record 64
  unfold inodeTableBlock decodeTableBlock
  rw [checkedMul_some (by omega), Option.bind_some, checkedAdd_some (by omega)]
  show (do
    let read ← volume.readVolumeBytes _ volume.groupDescriptorSize
    _) = _
  rw [hread, hlength]
  show (do
    let tableLow ← okOr (readLe 4 (padded record 64) 8) Ext4Error.invalidSuperblock
    _) = _
  rw [readLe_numberAt (by omega)]
  -- the upper half is read under the same condition as it is decoded
  by_cases hlong : 44 ≤ volume.groupDescriptorSize
  · rw [if_pos hlong]
    show (if 44 ≤ volume.groupDescriptorSize then _ else _) = _
    rw [if_pos hlong]
    show (do
      let tableHigh ← okOr (readLe 4 (padded record 64) 0x28) Ext4Error.invalidSuperblock
      _) = _
    rw [readLe_numberAt (by omega)]
    rfl
  · rw [if_neg hlong]
    show (if 44 ≤ volume.groupDescriptorSize then _ else _) = _
    rw [if_neg hlong]
    rfl

/-- Where an inode is, given the block of its group's table. -/
def inodeOffset (tableBlock inodeNumber : Nat) : Nat :=
  tableBlock * volume.blockSize + (inodeNumber - 1) % volume.inodesPerGroup * volume.inodeSize

/-- What `read_inode` makes of the bytes it has read. -/
theorem readInode_of_read {inodeNumber tableBlock : Nat} {record : Bytes} (hnumber : inodeNumber ≠ 0)
    (htable : volume.inodeTableBlock ((inodeNumber - 1) / volume.inodesPerGroup) = .ok tableBlock)
    (hfits : volume.inodeOffset tableBlock inodeNumber < 2 ^ 64)
    (hread : volume.readVolumeBytes (volume.inodeOffset tableBlock inodeNumber) volume.inodeSize
      = .ok record) :
    volume.readInode inodeNumber = .ok (decodeInode inodeNumber record) := by
  have hpadded : ext4MaxInodeSize ≤ (padded record ext4MaxInodeSize).length :=
    le_padded_length record ext4MaxInodeSize
  have hfield : ∀ offset length, offset + length ≤ 112 → readLe length (padded record ext4MaxInodeSize)
      offset = some (numberAt (padded record ext4MaxInodeSize) offset length) := by
    intro offset length hin
    unfold ext4MaxInodeSize at hpadded
    exact readLe_numberAt (by unfold ext4MaxInodeSize; omega)
  unfold inodeOffset at hfits hread
  unfold readInode
  rw [if_neg hnumber]
  show (do
    let inodeTableBlock ← volume.inodeTableBlock ((inodeNumber - 1) / volume.inodesPerGroup)
    _) = _
  rw [htable]
  show (do
    let inodeOffset ← okOr ((checkedMul 64 tableBlock volume.blockSize).bind _) _
    _) = _
  rw [checkedMul_some (by omega), Option.bind_some, checkedAdd_some (by omega)]
  show (do
    let read ← volume.readVolumeBytes _ volume.inodeSize
    _) = _
  rw [hread]
  show (do
    let mode ← okOr (readLe 2 (padded record ext4MaxInodeSize) 0) (Ext4Error.invalidInode inodeNumber)
    let sizeLow ← okOr (readLe 4 (padded record ext4MaxInodeSize) 4) (Ext4Error.invalidInode inodeNumber)
    let flags ← okOr (readLe 4 (padded record ext4MaxInodeSize) 0x20) (Ext4Error.invalidInode inodeNumber)
    Except.ok (Ext4Inode.mk inodeNumber mode
      (sizeLow + (readLe 4 (padded record ext4MaxInodeSize) 0x6c).getD 0 * 2 ^ 32) flags
      (((padded record ext4MaxInodeSize).drop 0x28).take 60) _)) = _
  -- the bytes are padded first, so no field of the inode is missing
  simp only [hfield 0 2 (by decide), hfield 4 4 (by decide), hfield 0x20 4 (by decide),
    hfield 0x6c 4 (by decide)]
  rfl

theorem readInode_image {inodeNumber tableBlock : Nat} (hnumber : inodeNumber ≠ 0)
    (htable : volume.inodeTableBlock ((inodeNumber - 1) / volume.inodesPerGroup) = .ok tableBlock)
    (hrange : volume.OnDevice (volume.inodeOffset tableBlock inodeNumber) volume.inodeSize)
    (hreads : ReadsSucceed volume.device) :
    volume.readInode inodeNumber = .ok (decodeInode inodeNumber (imageBytes volume.device
      (volume.imageOffset (volume.inodeOffset tableBlock inodeNumber)) volume.inodeSize)) := by
  have hfits := hrange.2
  exact volume.readInode_of_read hnumber htable (by omega)
    ((volume.readVolumeBytes_image hrange).2 hreads)

end Ext4Volume

/-- **Reading is reading the image**: bytes that `read_device_bytes` returns for a range on
    the device are that range of the disk; it returns them where the device reads its
    sectors, by either path where both apply; and an inode is decoded from its place in
    the table of its group, whose block is decoded from the group's descriptor. -/
theorem readDeviceBytes_image :
    (∀ (device : BlockDevice) (partitionStartLba byteOffset length : Nat),
        virtioSectorSize * partitionStartLba + byteOffset + length
          ≤ virtioSectorSize * device.sectorCount →
        byteOffset + length < 2 ^ 64 →
        (∀ bytes, readDeviceBytes device partitionStartLba byteOffset length = .ok bytes →
          bytes = imageBytes device (virtioSectorSize * partitionStartLba + byteOffset) length)
        ∧ (ReadsSucceed device →
          readDeviceBytes device partitionStartLba byteOffset length
            = .ok (imageBytes device (virtioSectorSize * partitionStartLba + byteOffset) length)
          ∧ (byteOffset % virtioSectorSize = 0 ∧ length % virtioSectorSize = 0 →
            device.readBlocks ((partitionStartLba + byteOffset / virtioSectorSize) % 2 ^ 64)
                (length / virtioSectorSize)
              = readDeviceBytesLoop device partitionStartLba byteOffset length length [])))
    ∧ (∀ (volume : Ext4Volume) (inodeNumber : Nat), ReadsSucceed volume.device →
        (∀ group, volume.OnDevice (volume.descriptorOffset group) volume.groupDescriptorSize →
          volume.inodeTableBlock group = .ok (decodeTableBlock (imageBytes volume.device
            (volume.imageOffset (volume.descriptorOffset group)) volume.groupDescriptorSize)))
        ∧ ∀ tableBlock, inodeNumber ≠ 0 →
          volume.inodeTableBlock ((inodeNumber - 1) / volume.inodesPerGroup) = .ok tableBlock →
          volume.OnDevice (volume.inodeOffset tableBlock inodeNumber) volume.inodeSize →
          volume.readInode inodeNumber = .ok (decodeInode inodeNumber (imageBytes volume.device
            (volume.imageOffset (volume.inodeOffset tableBlock inodeNumber)) volume.inodeSize))) := by
  constructor
  · intro device partitionStartLba byteOffset length hrange hfits
    have hbytes := readDeviceBytes_range hrange hfits
    refine ⟨hbytes.1, fun hreads => ⟨hbytes.2 hreads, fun haligned => ?_⟩⟩
    have hloop := @readDeviceBytesLoop_image _ _ _ _ hrange hfits length [] rfl (Nat.zero_le _)
      (Nat.le_refl _)
    rw [(readBlocks_aligned hrange haligned).2 hreads, hloop.2 hreads]
  · intro volume inodeNumber hreads
    refine ⟨fun group hrange => volume.inodeTableBlock_image hrange hreads, ?_⟩
    intro tableBlock hnumber htable hrange
    exact volume.readInode_image hnumber htable hrange hreads

/-- A volume with text in its first two sectors. -/
def textVolume : Ext4Volume :=
  volumeOf (fun lba => if lba = 0 then List.replicate 510 7 ++ [1, 2] else if lba = 1 then [3, 4] else [])

set_option maxRecDepth 20000 in
theorem readDeviceBytes_image_example :
    readDeviceBytes textVolume.device 0 510 4 = .ok [1, 2, 3, 4]
      ∧ textVolume.readInode 2 = .ok (decodeInode 2 (imageBytes textVolume.device 128 128)) := by
  obtain ⟨hbytes, hinodes⟩ := readDeviceBytes_image
  have hreads : ReadsSucceed textVolume.device := fun _ _ _ => rfl
  have himage : imageBytes textVolume.device 510 4 = [1, 2, 3, 4] := by decide +kernel
  constructor
  · rw [← himage]
    exact ((hbytes textVolume.device 0 510 4 (by decide) (by decide)).2 hreads).1
  · exact (hinodes textVolume 2 hreads).2 0 (by decide) (by decide +kernel)
      ⟨by decide, by decide⟩

end RustFirmware.Ext4
