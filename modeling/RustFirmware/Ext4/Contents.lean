/-
  RustFirmware.Ext4.Contents
  ──────────────────────────
  **READING A FILE: `read_inode_contents` AGAINST THE MAPPING ITS EXTENTS STAND FOR.**

  The buffer is zeroed and then filled extent by extent: whole blocks in one read, a
  partial last block through a block buffer, and nothing from extents that start behind
  the end of the file.  `Covers` and `fileByte` say what the extents mean, one byte at a
  time; `copyExtents_ok` is the loop's invariant against them.
-/
import RustFirmware.Ext4.Extents

namespace RustFirmware.Ext4

open RustFirmware.Lib
open RustFirmware.Virtio

/-! ## §1. The reader. -/

/-- The whole blocks of an extent, read straight into the buffer. -/
def readFullBlocks (volume : Ext4Volume) (extent : Ext4Extent) (fullBlocks : Nat) :
    Except Ext4Error Bytes :=
  if fullBlocks ≠ 0 then
    fromDevice (volume.device.readBlocks (volume.blockToLba extent.physicalBlock)
      (fullBlocks * volume.blockSize / virtioSectorSize))
  else .ok []

/-- The part of a block behind them, read through the block buffer. -/
def readTailBytes (volume : Ext4Volume) (extent : Ext4Extent) (fullBlocks tailBytes : Nat) :
    Except Ext4Error Bytes :=
  if tailBytes ≠ 0 then do
    let block ← volume.readBlock (extent.physicalBlock + fullBlocks)
    .ok (block.take tailBytes)
  else .ok []

/-- The loop of `read_inode_contents` over the extents. -/
def copyExtents (volume : Ext4Volume) (sizeBytes : Nat) :
    List Ext4Extent → (buffer : Bytes) → Except Ext4Error Bytes
  | [], buffer => .ok buffer
  | extent :: extents, buffer =>
      let fileOffset := extent.logicalBlock * volume.blockSize
      if fileOffset ≥ sizeBytes then .ok buffer
      else do
        let extentCapacity := extent.blockCount * volume.blockSize
        let extentBytes := min (sizeBytes - fileOffset) extentCapacity
        let fullBlocks := extentBytes / volume.blockSize
        let full ← readFullBlocks volume extent fullBlocks
        let buffer := overwrite buffer fileOffset full
        let tailBytes := extentBytes % volume.blockSize
        let tail ← readTailBytes volume extent fullBlocks tailBytes
        let buffer := overwrite buffer (fileOffset + fullBlocks * volume.blockSize) tail
        copyExtents volume sizeBytes extents buffer

/-- `read_inode_contents`: the number of bytes and the buffer. -/
def readInodeContents (volume : Ext4Volume) (levels : Nat) (inode : Ext4Inode) (buffer : Bytes) :
    Except Halt (Nat × Bytes) :=
  if inode.isDirectory then .error (.error .isDirectory)
  else
    let sizeBytes := inode.sizeBytes
    if buffer.length < sizeBytes then .error (.error .bufferTooSmall)
    else if sizeBytes = 0 then .ok (0, buffer)
    else do
      let zeroed := overwrite buffer 0 (List.replicate sizeBytes 0)
      let extents ← collectInodeExtents volume levels inode
      let filled ← ended (copyExtents volume sizeBytes extents zeroed)
      .ok (sizeBytes, filled)

/-! ## §2. What the extents mean. -/

/-- The extent covers a logical block. -/
def Covers (extent : Ext4Extent) (logicalBlock : Nat) : Prop :=
  extent.logicalBlock ≤ logicalBlock ∧ logicalBlock < extent.logicalBlock + extent.blockCount

instance (extent : Ext4Extent) (logicalBlock : Nat) : Decidable (Covers extent logicalBlock) :=
  inferInstanceAs (Decidable (_ ∧ _))

/-- Increasing starts, and no logical block covered twice. -/
def Ordered (extents : List Ext4Extent) : Prop :=
  extents.Pairwise (fun e e' =>
    e.logicalBlock < e'.logicalBlock ∧ ∀ logicalBlock, Covers e logicalBlock → ¬ Covers e' logicalBlock)

section Meaning

variable (volume : Ext4Volume)

/-- The byte at `position` of the file in the physical block that the extent maps it to. -/
def fileByte (extent : Ext4Extent) (position : Nat) : Option UInt8 :=
  (volume.block
    (extent.physicalBlock + (position / volume.blockSize - extent.logicalBlock)))[
      position % volume.blockSize]?

variable {volume}

theorem readFullBlocks_ok {extent : Ext4Extent} {fullBlocks : Nat} {full : Bytes}
    (h : readFullBlocks volume extent fullBlocks = .ok full) :
    full = volume.blocks extent.physicalBlock fullBlocks := by
  unfold readFullBlocks at h
  by_cases hzero : fullBlocks = 0
  · rw [if_neg (not_not.mpr hzero)] at h
    cases h
    rw [hzero, Ext4Volume.blocks, Nat.zero_mul]
    rfl
  · rw [if_pos hzero] at h
    have hcount : fullBlocks * volume.blockSize / virtioSectorSize
        = fullBlocks * volume.sectorsPerBlock := by
      rw [volume.blockSize_eq, Nat.mul_left_comm]
      exact Nat.mul_div_cancel_left _ (by decide)
    rw [volume.device.readBlocks_ok (fromDevice_ok.mp h), hcount, Ext4Volume.blockToLba,
      volume.device.sectors_mod]
    rfl

theorem readTailBytes_ok {extent : Ext4Extent} {fullBlocks tailBytes : Nat} {tail : Bytes}
    (h : readTailBytes volume extent fullBlocks tailBytes = .ok tail) :
    tail = (volume.block (extent.physicalBlock + fullBlocks)).take tailBytes := by
  unfold readTailBytes at h
  by_cases hzero : tailBytes = 0
  · rw [if_neg (not_not.mpr hzero)] at h
    cases h
    rw [hzero, List.take_zero]
  · rw [if_pos hzero] at h
    obtain ⟨block, hblock, htail⟩ := bind_eq_ok.mp h
    cases htail
    rw [volume.readBlock_ok hblock]

/-- **What one pass reads is the beginning of the extent's run of blocks.** -/
theorem full_append_tail {extent : Ext4Extent} {extentBytes : Nat} {full tail : Bytes}
    (hfull : readFullBlocks volume extent (extentBytes / volume.blockSize) = .ok full)
    (htail : readTailBytes volume extent (extentBytes / volume.blockSize)
      (extentBytes % volume.blockSize) = .ok tail) :
    full ++ tail
      = (volume.blocks extent.physicalBlock (extentBytes / volume.blockSize + 1)).take extentBytes
      := by
  have hsplit := Nat.div_add_mod extentBytes volume.blockSize
  rw [readFullBlocks_ok hfull, readTailBytes_ok htail]
  generalize extentBytes / volume.blockSize = fullBlocks at *
  generalize extentBytes % volume.blockSize = tailBytes at *
  have hlength := volume.blocks_length extent.physicalBlock fullBlocks
  have hwhole : (volume.blocks extent.physicalBlock fullBlocks).take
      (fullBlocks * volume.blockSize + tailBytes) = volume.blocks extent.physicalBlock fullBlocks :=
    List.take_of_length_le (Nat.le_trans (Nat.le_of_eq hlength) (Nat.le_add_right _ _))
  rw [volume.blocks_succ, List.take_append, hlength, ← hsplit, Nat.mul_comm,
    Nat.add_sub_cancel_left, hwhole]

/-! ## §3. The loop over the extents. -/

/-- The part of an extent inside the file. -/
def extentBytes (volume : Ext4Volume) (sizeBytes : Nat) (extent : Ext4Extent) : Nat :=
  min (sizeBytes - extent.logicalBlock * volume.blockSize) (extent.blockCount * volume.blockSize)

/-- A position in the file is covered exactly if it is in the bytes that are copied. -/
theorem covers_iff {extent : Ext4Extent} {sizeBytes position : Nat} (h : position < sizeBytes) :
    Covers extent (position / volume.blockSize)
      ↔ extent.logicalBlock * volume.blockSize ≤ position
        ∧ position < extent.logicalBlock * volume.blockSize + extentBytes volume sizeBytes extent := by
  unfold Covers extentBytes
  rw [Nat.le_div_iff_mul_le volume.blockSize_pos, Nat.div_lt_iff_lt_mul volume.blockSize_pos,
    Nat.add_mul]
  omega

/-- **One pass**: the covered bytes become the bytes of the extent, the others stay. -/
theorem writeExtent {extent : Ext4Extent} {sizeBytes : Nat} {buffer full tail : Bytes}
    (hbuffer : sizeBytes ≤ buffer.length)
    (hstart : extent.logicalBlock * volume.blockSize < sizeBytes)
    (hfull : readFullBlocks volume extent (extentBytes volume sizeBytes extent / volume.blockSize)
      = .ok full)
    (htail : readTailBytes volume extent (extentBytes volume sizeBytes extent / volume.blockSize)
      (extentBytes volume sizeBytes extent % volume.blockSize) = .ok tail) :
    let buffer' := overwrite (overwrite buffer (extent.logicalBlock * volume.blockSize) full)
      (extent.logicalBlock * volume.blockSize
        + extentBytes volume sizeBytes extent / volume.blockSize * volume.blockSize) tail
    buffer'.length = buffer.length
    ∧ (∀ i, sizeBytes ≤ i → buffer'[i]? = buffer[i]?)
    ∧ ∀ i < sizeBytes, buffer'[i]? = if Covers extent (i / volume.blockSize)
        then fileByte volume extent i else buffer[i]? := by
  have hdata := full_append_tail hfull htail
  have hfulls : full.length
      = extentBytes volume sizeBytes extent / volume.blockSize * volume.blockSize := by
    rw [readFullBlocks_ok hfull, volume.blocks_length]
  have hends : extentBytes volume sizeBytes extent
      ≤ sizeBytes - extent.logicalBlock * volume.blockSize := Nat.min_le_left _ _
  have hcovers := @covers_iff volume extent sizeBytes
  generalize extentBytes volume sizeBytes extent = size at *
  have hsize : size < (size / volume.blockSize + 1) * volume.blockSize := by
    have hsplit := Nat.div_add_mod size volume.blockSize
    have hless := Nat.mod_lt size volume.blockSize_pos
    rw [Nat.succ_mul, Nat.mul_comm (size / volume.blockSize)]
    omega
  have hlength : (full ++ tail).length = size := by
    rw [hdata, List.length_take, volume.blocks_length]
    omega
  have hroom : extent.logicalBlock * volume.blockSize + (full ++ tail).length ≤ buffer.length := by
    omega
  -- the two copies are one
  intro buffer'
  have hbuffer' : buffer' = overwrite buffer (extent.logicalBlock * volume.blockSize) (full ++ tail) := by
    rw [← overwrite_append (by rw [List.length_append] at hroom; omega), hfulls]
  have hget := fun i => overwrite_getElem? hroom i
  rw [hbuffer']
  refine ⟨overwrite_length hroom, ?_, ?_⟩
  · intro i hi
    rw [hget, if_neg (by omega)]
  · intro i hi
    rw [hget, hlength]
    by_cases hin : Covers extent (i / volume.blockSize)
    · have hrange := (hcovers hi).mp hin
      rw [if_pos hin, if_pos hrange, hdata, List.getElem?_take_of_lt (by omega),
        volume.blocks_getElem? (by omega), fileByte, Nat.mul_comm,
        Nat.sub_mul_div, Nat.sub_mul_mod (by rw [Nat.mul_comm]; exact hrange.1)]
    · rw [if_neg hin, if_neg (fun hrange => hin ((hcovers hi).mpr hrange))]

/-- **The loop**: after it every covered byte is the byte of the extent that covers it, and
    the others are as they were. -/
theorem copyExtents_ok {extents : List Ext4Extent} {sizeBytes : Nat} {buffer buffer' : Bytes}
    (h : copyExtents volume sizeBytes extents buffer = .ok buffer')
    (hordered : Ordered extents) (hbuffer : sizeBytes ≤ buffer.length) :
    buffer'.length = buffer.length
    ∧ (∀ i, sizeBytes ≤ i → buffer'[i]? = buffer[i]?)
    ∧ ∀ i < sizeBytes,
        (∀ extent ∈ extents, Covers extent (i / volume.blockSize) →
          buffer'[i]? = fileByte volume extent i)
        ∧ ((∀ extent ∈ extents, ¬ Covers extent (i / volume.blockSize)) →
          buffer'[i]? = buffer[i]?) := by
  induction extents generalizing buffer with
  | nil =>
      cases h
      exact ⟨rfl, fun _ _ => rfl, fun i _ => ⟨fun e he => (by cases he), fun _ => rfl⟩⟩
  | cons extent extents ih =>
      obtain ⟨hafter, hrest⟩ := List.pairwise_cons.mp hordered
      unfold copyExtents at h
      by_cases hbehind : extent.logicalBlock * volume.blockSize ≥ sizeBytes
      · -- this extent and all after it start behind the end of the file
        rw [if_pos hbehind] at h
        cases h
        refine ⟨rfl, fun _ _ => rfl, fun i hi => ⟨?_, fun _ => rfl⟩⟩
        intro e he hcovers
        have hstart : extent.logicalBlock ≤ e.logicalBlock := by
          obtain rfl | hmem := List.mem_cons.mp he
          · exact Nat.le_refl _
          · exact Nat.le_of_lt (hafter e hmem).1
        have hle := (Nat.le_div_iff_mul_le volume.blockSize_pos).mp (Nat.le_trans hstart hcovers.1)
        omega
      · rw [if_neg hbehind] at h
        obtain ⟨full, hfull, h⟩ := bind_eq_ok.mp h
        obtain ⟨tail, htail, h⟩ := bind_eq_ok.mp h
        obtain ⟨hlength, hkept, hbytes⟩ := writeExtent hbuffer (Nat.not_le.mp hbehind) hfull htail
        obtain ⟨hlength', hkept', hbytes'⟩ := ih h hrest (Nat.le_trans hbuffer (Nat.le_of_eq hlength.symm))
        refine ⟨hlength'.trans hlength, fun i hi => (hkept' i hi).trans (hkept i hi), ?_⟩
        intro i hi
        constructor
        · intro e he hcovers
          obtain rfl | hmem := List.mem_cons.mp he
          · -- no later extent writes over it
            have hlater := (hbytes' i hi).2 (fun e' he' => (hafter e' he').2 _ hcovers)
            exact hlater.trans ((hbytes i hi).trans (if_pos hcovers))
          · exact (hbytes' i hi).1 e hmem hcovers
        · intro hnone
          have hlater := (hbytes' i hi).2 (fun e he => hnone e (List.mem_cons_of_mem _ he))
          exact hlater.trans ((hbytes i hi).trans (if_neg (hnone extent List.mem_cons_self)))

/-! ## §4. The whole file. -/

/-- **A file that is read is the file its extents describe.**  Whatever the device holds, if
    the leaves of the extent tree start in increasing order and cover no block twice, then
    a read that succeeds returns the size of the file; each byte below it is the byte of the
    physical block that the covering leaf maps its block to, or zero where there is none;
    and the rest of the buffer is untouched. -/
theorem readInodeContents_ok {levels : Nat} {inode : Ext4Inode} {leaves : List Ext4Extent}
    {buffer buffer' : Bytes} {n : Nat} (hleaves : Leaves volume inode.blockData leaves)
    (hordered : Ordered leaves)
    (h : readInodeContents volume levels inode buffer = .ok (n, buffer')) :
    n = inode.sizeBytes
    ∧ (∀ i < n,
        (∀ leaf ∈ leaves, Covers leaf (i / volume.blockSize) →
          buffer'[i]? = (volume.block (leaf.physicalBlock
            + (i / volume.blockSize - leaf.logicalBlock)))[i % volume.blockSize]?)
        ∧ ((∀ leaf ∈ leaves, ¬ Covers leaf (i / volume.blockSize)) → buffer'[i]? = some 0))
    ∧ buffer'.length = buffer.length
    ∧ ∀ i, n ≤ i → buffer'[i]? = buffer[i]? := by
  unfold readInodeContents at h
  split at h
  · cases h
  · dsimp only at h
    split at h
    · cases h
    · rename_i hlarge
      split at h
      · rename_i hzero
        cases h
        exact ⟨hzero.symm, fun i hi => absurd hi (Nat.not_lt_zero i), rfl, fun _ _ => rfl⟩
      · obtain ⟨extents, hextents, h⟩ := bind_eq_ok.mp h
        obtain ⟨filled, hfilled, h⟩ := bind_eq_ok.mp h
        cases h
        have hroom : inode.sizeBytes ≤ buffer.length := Nat.not_lt.mp hlarge
        -- what was collected are the leaves
        have hsame : extents = leaves := collectInodeExtents_leaves hextents hleaves
        subst hsame
        have hzeros : 0 + (List.replicate inode.sizeBytes (0 : UInt8)).length ≤ buffer.length := by
          rw [List.length_replicate, Nat.zero_add]
          exact hroom
        have hlength := overwrite_length hzeros
        have hget := overwrite_getElem? hzeros
        rw [List.length_replicate] at hget
        obtain ⟨hlength', hkept, hbytes⟩ := copyExtents_ok (ended_ok.mp hfilled) hordered
          (Nat.le_trans hroom (Nat.le_of_eq hlength.symm))
        refine ⟨rfl, fun i hi => ⟨(hbytes i hi).1, ?_⟩, hlength'.trans hlength, ?_⟩
        · intro hnone
          rw [(hbytes i hi).2 hnone, hget, if_pos ⟨Nat.zero_le _, by omega⟩,
            List.getElem?_replicate, if_pos (by omega)]
        · intro i hi
          rw [hkept i hi, hget, if_neg (by omega)]

/-! ## §5. When the file can be read. -/

/-- The device gives what the file needs of an extent: its whole blocks, and the block in
    which the file ends, if it ends in the middle of one. -/
structure ExtentReads (volume : Ext4Volume) (sizeBytes : Nat) (extent : Ext4Extent) : Prop where
  full : extentBytes volume sizeBytes extent / volume.blockSize ≠ 0 →
    volume.device.error (volume.blockToLba extent.physicalBlock)
      (extentBytes volume sizeBytes extent / volume.blockSize * volume.blockSize
        / virtioSectorSize) = none
  tail : extentBytes volume sizeBytes extent % volume.blockSize ≠ 0 →
    volume.device.error (volume.blockToLba
      (extent.physicalBlock + extentBytes volume sizeBytes extent / volume.blockSize))
      volume.sectorsPerBlock = none

/-- The extents in front of the first one that starts behind the end of the file. -/
def extentsInFile (volume : Ext4Volume) (sizeBytes : Nat) (extents : List Ext4Extent) :
    List Ext4Extent :=
  extents.takeWhile (fun extent => extent.logicalBlock * volume.blockSize < sizeBytes)

/-- **The inode describes a file that can be read**: its tree has leaves, not more than the
    array has room for, and the device gives the blocks of those inside the file. -/
structure InodeReads (volume : Ext4Volume) (inode : Ext4Inode) : Prop where
  extents : inode.usesExtents = true
  leaves  : ∃ leaves, Leaves volume inode.blockData leaves ∧ leaves.length ≤ ext4MaxExtents
    ∧ ∀ leaf ∈ extentsInFile volume inode.sizeBytes leaves,
        ExtentReads volume inode.sizeBytes leaf

/-- **The collection of the extents never ends**: it arrives at chains of links of every
    length. -/
structure NeverEnds (volume : Ext4Volume) (inode : Ext4Inode) : Prop where
  extents  : inode.usesExtents = true
  descends : ∀ links, Descends volume links inode.blockData []

theorem fromDevice_readBlocks_ok {device : BlockDevice} {lba count : Nat} :
    (∃ bytes, fromDevice (device.readBlocks lba count) = .ok bytes)
      ↔ device.error lba count = none := by
  unfold BlockDevice.readBlocks
  cases device.error lba count with
  | none =>
      constructor
      · intro _
        rfl
      · intro _
        exact ⟨_, rfl⟩
  | some e =>
      constructor
      · rintro ⟨bytes, h⟩
        cases h
      · intro h
        cases h

theorem readFullBlocks_ok_iff {extent : Ext4Extent} {fullBlocks : Nat} :
    (∃ full, readFullBlocks volume extent fullBlocks = .ok full)
      ↔ (fullBlocks ≠ 0 → volume.device.error (volume.blockToLba extent.physicalBlock)
          (fullBlocks * volume.blockSize / virtioSectorSize) = none) := by
  unfold readFullBlocks
  by_cases hzero : fullBlocks = 0
  · rw [if_neg (not_not.mpr hzero)]
    exact ⟨fun _ hne => absurd hzero hne, fun _ => ⟨[], rfl⟩⟩
  · rw [if_pos hzero, fromDevice_readBlocks_ok]
    exact ⟨fun h _ => h, fun h => h hzero⟩

theorem readTailBytes_ok_iff {extent : Ext4Extent} {fullBlocks tailBytes : Nat} :
    (∃ tail, readTailBytes volume extent fullBlocks tailBytes = .ok tail)
      ↔ (tailBytes ≠ 0 → volume.device.error
          (volume.blockToLba (extent.physicalBlock + fullBlocks)) volume.sectorsPerBlock = none)
      := by
  unfold readTailBytes Ext4Volume.readBlock
  by_cases hzero : tailBytes = 0
  · rw [if_neg (not_not.mpr hzero)]
    exact ⟨fun _ hne => absurd hzero hne, fun _ => ⟨[], rfl⟩⟩
  · rw [if_pos hzero, ← fromDevice_readBlocks_ok]
    constructor
    · rintro ⟨tail, htail⟩ _
      obtain ⟨block, hblock, _⟩ := bind_eq_ok.mp htail
      exact ⟨block, hblock⟩
    · intro h
      obtain ⟨block, hblock⟩ := h hzero
      exact ⟨_, bind_eq_ok.mpr ⟨block, hblock, rfl⟩⟩

/-- **The loop over the extents succeeds exactly if those inside the file can be read.** -/
theorem copyExtents_ok_iff {extents : List Ext4Extent} {sizeBytes : Nat} {buffer : Bytes} :
    (∃ buffer', copyExtents volume sizeBytes extents buffer = .ok buffer')
      ↔ ∀ extent ∈ extentsInFile volume sizeBytes extents,
          ExtentReads volume sizeBytes extent := by
  unfold extentsInFile
  induction extents generalizing buffer with
  | nil => exact ⟨fun _ e he => absurd he List.not_mem_nil, fun _ => ⟨buffer, rfl⟩⟩
  | cons extent extents ih =>
      unfold copyExtents
      by_cases hbehind : extent.logicalBlock * volume.blockSize ≥ sizeBytes
      · -- the loop stops here, and so does the list
        rw [if_pos hbehind, List.takeWhile_cons_of_neg (by simpa using hbehind)]
        exact ⟨fun _ e he => absurd he List.not_mem_nil, fun _ => ⟨buffer, rfl⟩⟩
      · rw [if_neg hbehind, List.takeWhile_cons_of_pos (by simpa using hbehind),
          List.forall_mem_cons]
        constructor
        · rintro ⟨buffer', h⟩
          obtain ⟨full, hfull, h⟩ := bind_eq_ok.mp h
          obtain ⟨tail, htail, h⟩ := bind_eq_ok.mp h
          exact ⟨⟨readFullBlocks_ok_iff.mp ⟨full, hfull⟩, readTailBytes_ok_iff.mp ⟨tail, htail⟩⟩,
            ih.mp ⟨buffer', h⟩⟩
        · rintro ⟨hreads, hrest⟩
          obtain ⟨full, hfull⟩ := readFullBlocks_ok_iff.mpr hreads.full
          obtain ⟨tail, htail⟩ := readTailBytes_ok_iff.mpr hreads.tail
          obtain ⟨buffer', hcopied⟩ := ih.mpr hrest
          exact ⟨buffer', bind_eq_ok.mpr ⟨full, hfull, bind_eq_ok.mpr ⟨tail, htail, hcopied⟩⟩⟩

/-- The collection never ends exactly if no number of levels is enough. -/
theorem neverEnds_iff {inode : Ext4Inode} :
    NeverEnds volume inode ↔ ∀ levels, collectInodeExtents volume levels inode = .error .deeper := by
  have hempty : ([] : List Ext4Extent).length ≤ ext4MaxExtents := Nat.zero_le _
  unfold collectInodeExtents
  cases huses : inode.usesExtents with
  | false =>
      constructor
      · rintro ⟨huses', _⟩
        rw [huses] at huses'
        cases huses'
      · intro h
        cases h 0
  | true =>
      simp only [Bool.true_eq_false, if_false]
      constructor
      · rintro ⟨_, hdescends⟩ levels
        exact (collectExtentNode_deeper hempty).mpr (hdescends levels)
      · intro h
        exact ⟨huses, fun links => (collectExtentNode_deeper hempty).mp (h links)⟩

/-- What is collected are the leaves of a tree, and they fit. -/
theorem collectInodeExtents_ok {levels : Nat} {inode : Ext4Inode} {extents : List Ext4Extent}
    (h : collectInodeExtents volume levels inode = .ok extents) :
    inode.usesExtents = true ∧ Leaves volume inode.blockData extents
      ∧ extents.length ≤ ext4MaxExtents := by
  unfold collectInodeExtents at h
  split at h
  · cases h
  next huses =>
    obtain ⟨leaves, hleaves, hsame, hroom⟩ := collectExtentNode_ok h (Nat.zero_le _)
    rw [List.nil_append] at hsame
    subst hsame
    exact ⟨by simpa using huses, hleaves, hroom⟩

/-- Leaves that fit are collected, unless the tree nests too deep. -/
theorem Leaves.collected {inode : Ext4Inode} {leaves : List Ext4Extent}
    (h : Leaves volume inode.blockData leaves) (huses : inode.usesExtents = true)
    (hroom : leaves.length ≤ ext4MaxExtents) (levels : Nat) :
    GivesOrNests (collectInodeExtents volume levels inode) leaves := by
  unfold collectInodeExtents
  rw [huses, if_neg (by decide)]
  exact h.gives levels [] hroom

/-- What `read_inode_contents` does with a file that is not empty. -/
theorem readInodeContents_eq {inode : Ext4Inode} {buffer : Bytes}
    (hfile : inode.isDirectory = false) (hbuffer : inode.sizeBytes ≤ buffer.length)
    (hsize : inode.sizeBytes ≠ 0) (levels : Nat) :
    readInodeContents volume levels inode buffer
      = collectInodeExtents volume levels inode >>= fun extents =>
          ended (copyExtents volume inode.sizeBytes extents
            (overwrite buffer 0 (List.replicate inode.sizeBytes 0))) >>= fun filled =>
              .ok (inode.sizeBytes, filled) := by
  unfold readInodeContents
  rw [if_neg (by rw [hfile]; exact Bool.false_ne_true)]
  dsimp only
  rw [if_neg (by omega), if_neg hsize]

/-- Copying reports an error exactly if an extent inside the file cannot be read. -/
theorem copyExtents_succeeds_iff {extents : List Ext4Extent} {sizeBytes : Nat} {buffer : Bytes} :
    (∀ e, (ended (copyExtents volume sizeBytes extents buffer) >>= fun filled =>
        Except.ok (sizeBytes, filled)) ≠ .error (.error e))
      ↔ ∀ extent ∈ extentsInFile volume sizeBytes extents,
          ExtentReads volume sizeBytes extent := by
  rw [← copyExtents_ok_iff]
  cases copyExtents volume sizeBytes extents buffer with
  | ok filled =>
      constructor
      · intro _
        exact ⟨filled, rfl⟩
      · intro _ e h
        cases h
  | error e =>
      constructor
      · intro h
        exact absurd rfl (h e)
      · rintro ⟨filled, h⟩
        cases h

/-- **`read_inode_contents` reports no error exactly if the file can be read**, or the
    collection of its extents never ends. -/
theorem readInodeContents_succeeds_iff {inode : Ext4Inode} {buffer : Bytes}
    (hfile : inode.isDirectory = false) (hbuffer : inode.sizeBytes ≤ buffer.length) :
    (∀ levels e, readInodeContents volume levels inode buffer ≠ .error (.error e))
      ↔ (inode.sizeBytes ≠ 0 → NeverEnds volume inode ∨ InodeReads volume inode) := by
  by_cases hsize : inode.sizeBytes = 0
  · constructor
    · intro _ hne
      exact absurd hsize hne
    · intro _ levels e h
      unfold readInodeContents at h
      rw [if_neg (by rw [hfile]; exact Bool.false_ne_true)] at h
      dsimp only at h
      rw [if_neg (by omega), if_pos hsize] at h
      cases h
  · have hread := @readInodeContents_eq volume inode buffer hfile hbuffer hsize
    constructor
    · intro h _
      by_cases hends : ∃ levels, collectInodeExtents volume levels inode ≠ .error .deeper
      · -- the collection ends, and it cannot end in an error
        obtain ⟨levels, hends⟩ := hends
        have hlevel := h levels
        rw [hread] at hlevel
        cases hcollect : collectInodeExtents volume levels inode with
        | error halt =>
            rw [hcollect] at hlevel hends
            cases halt with
            | error e => exact absurd rfl (hlevel e)
            | deeper => exact absurd rfl hends
        | ok extents =>
            rw [hcollect] at hlevel
            obtain ⟨huses, hleaves, hroom⟩ := collectInodeExtents_ok hcollect
            exact Or.inr ⟨huses, extents, hleaves, hroom, copyExtents_succeeds_iff.mp hlevel⟩
      · refine Or.inl (neverEnds_iff.mpr ?_)
        intro levels
        by_contra hne
        exact hends ⟨levels, hne⟩
    · intro h levels e
      rw [hread]
      obtain hnever | ⟨huses, leaves, hleaves, hroom, hreads⟩ := h hsize
      · rw [neverEnds_iff.mp hnever levels]
        intro hfails
        cases hfails
      · obtain hmade | hdeeper := hleaves.collected huses hroom levels
        · rw [hmade]
          exact copyExtents_succeeds_iff.mpr hreads e
        · rw [hdeeper]
          intro hfails
          cases hfails

end Meaning

/-- The header of a leaf with one extent, and the extent. -/
def leafNode (extent : Ext4Extent) : Bytes :=
  leBytes 2 ext4ExtentMagic ++ leBytes 2 1 ++ leBytes 2 1 ++ leBytes 2 0 ++ leBytes 4 0
    ++ leBytes 4 extent.logicalBlock ++ leBytes 2 extent.blockCount
    ++ leBytes 2 (extent.physicalBlock / 2 ^ 32) ++ leBytes 4 extent.physicalBlock

/-- Block 3 of the volume begins with four bytes. -/
def sparseVolume : Ext4Volume := volumeOf (fun lba => if lba = 6 then [1, 2, 3, 4] else [])

/-- A file with a hole of one block and three bytes behind it. -/
def sparseInode : Ext4Inode where
  inodeNumber      := 12
  mode             := ext4ModeRegular
  sizeBytes        := 1027
  flags            := ext4InodeFlagExtents
  blockData        := leafNode ⟨1, 1, 3⟩ ++ List.replicate 36 0
  blockData_length := by decide

/-- What a buffer of nines holds after it was read. -/
def sparseBuffer : Bytes := List.replicate 1024 0 ++ [1, 2, 3, 9]

set_option maxRecDepth 20000 in
theorem readInodeContents_ok_example :
    readInodeContents sparseVolume 6 sparseInode (List.replicate 1028 9) = .ok (1027, sparseBuffer)
      ∧ sparseBuffer[1025]? = (sparseVolume.block 3)[1]? := by
  have hread : readInodeContents sparseVolume 6 sparseInode (List.replicate 1028 9)
      = .ok (1027, sparseBuffer) := by decide +kernel
  have hleaves : Leaves sparseVolume sparseInode.blockData
      ((List.range 1).map (fun _ => ⟨1, 1, 3⟩)) := by
    refine .leaf (by decide +kernel) (fun i hi => ?_)
    obtain rfl : i = 0 := Nat.lt_one_iff.mp hi
    decide +kernel
  obtain ⟨-, hbytes, -, -⟩ := readInodeContents_ok hleaves (List.pairwise_singleton _ _) hread
  have hcovers : Covers ⟨1, 1, 3⟩ (1025 / sparseVolume.blockSize) := by decide
  exact ⟨hread, (hbytes 1025 (by decide)).1 ⟨1, 1, 3⟩ List.mem_cons_self hcovers⟩

end RustFirmware.Ext4
