/-
  RustFirmware.Ext4.ExtentTrees
  ─────────────────────────────
  **EVERY VALID TREE IS COLLECTED, BUT FOR AN EXTENT OF 32768 BLOCKS.**

  `ValidExtentTree` is the format, apart from the source: a node has the magic number, its
  entries fit into it, its depth is one less than that of the node above, and an
  initialized leaf covers 1 to 32768 blocks.  The source takes the highest bit of a
  length for the mark of an uninitialized extent; a length of exactly 32768 has that
  bit and is initialized.
-/
import RustFirmware.Ext4.Contents

namespace RustFirmware.Ext4

open RustFirmware.Lib
open RustFirmware.Virtio

/-! ## §1. The format. -/

/-- The largest number of blocks of an initialized extent. -/
def maxInitializedLength : Nat := 32768

/-- What a node says of itself: its entries, which fit into it, and its depth. -/
structure NodeHeader (node : Bytes) (count depth : Nat) : Prop where
  hasMagic : readLe16 node 0 = some ext4ExtentMagic
  hasCount : readLe16 node 2 = some count
  hasDepth : readLe16 node 6 = some depth
  fits     : 12 + count * 12 ≤ node.length

/-- Entry `index` of a leaf node is an initialized extent: logical block, length, and a
    physical block of 48 bits with its upper half first. -/
structure LeafEntry (node : Bytes) (index : Nat) (extent : Ext4Extent) : Prop where
  logical  : readLe32 node (12 + index * 12) = some extent.logicalBlock
  length   : readLe16 node (12 + index * 12 + 4) = some extent.blockCount
  physical : ∃ high low, readLe16 node (12 + index * 12 + 6) = some high
    ∧ readLe32 node (12 + index * 12 + 8) = some low
    ∧ extent.physicalBlock = high * 2 ^ 32 + low
  bounds   : 1 ≤ extent.blockCount ∧ extent.blockCount ≤ maxInitializedLength

/-- Entry `index` of an interior node names a block of 48 bits, with its lower half first. -/
def ChildEntry (node : Bytes) (index blockNumber : Nat) : Prop :=
  ∃ high low, readLe32 node (12 + index * 12 + 4) = some low
    ∧ readLe16 node (12 + index * 12 + 8) = some high ∧ blockNumber = high * 2 ^ 32 + low

/-- **A valid tree of a depth, and its leaves from left to right.** -/
inductive ValidExtentTree (volume : Ext4Volume) : (depth : Nat) → (node : Bytes) → List Ext4Extent → Prop where
  | leaf {node : Bytes} {count : Nat} {extent : Nat → Ext4Extent}
      (hheader : NodeHeader node count 0)
      (hentry : ∀ i < count, LeafEntry node i (extent i)) :
      ValidExtentTree volume 0 node ((List.range count).map extent)
  | interior {node : Bytes} {count depth : Nat} {child : Nat → Nat}
      {parts : Nat → List Ext4Extent}
      (hheader : NodeHeader node count (depth + 1))
      (hentry : ∀ i < count, ChildEntry node i (child i))
      (hparts : ∀ i < count, ValidExtentTree volume depth (volume.block (child i)) (parts i)) :
      ValidExtentTree volume (depth + 1) node ((List.range count).flatMap parts)

/-! ## §2. What the source makes of it. -/

theorem NodeHeader.extentHeader {node : Bytes} {count depth : Nat}
    (h : NodeHeader node count depth) (hdepth : depth ≤ ext4MaxExtentDepth) :
    extentHeader node = .ok (count, depth) := by
  unfold RustFirmware.Ext4.extentHeader
  simp only [h.hasMagic, h.hasCount, h.hasDepth]
  show (if ext4ExtentMagic ≠ ext4ExtentMagic then Except.error Ext4Error.invalidExtentTree
    else if depth > ext4MaxExtentDepth then .error .invalidExtentTree
    else if 12 + count * 12 > node.length then .error .invalidExtentTree
    else .ok (count, depth)) = _
  rw [if_neg (not_not.mpr rfl), if_neg (Nat.not_lt.mpr hdepth), if_neg (Nat.not_lt.mpr h.fits)]

/-- The bit that the source tests is set in a legal length only if that is the longest. -/
theorem legal_length_bit {length : Nat} (h : length ≤ maxInitializedLength) :
    length &&& 0x8000 ≠ 0 ↔ length = maxInitializedLength := by
  unfold maxInitializedLength at *
  obtain hlt | rfl := Nat.lt_or_eq_of_le h
  · have hbit : length &&& 2 ^ 15 = 0 := by
      rw [Nat.and_two_pow, Nat.testBit_lt_two_pow hlt]
      rfl
    exact ⟨fun hne => absurd hbit hne, fun heq => absurd hlt (by omega)⟩
  · exact ⟨fun _ => rfl, fun _ => by decide⟩

theorem LeafEntry.leafExtent {node : Bytes} {index : Nat} {extent : Ext4Extent}
    (h : LeafEntry node index extent) :
    leafExtent node index
      = if extent.blockCount < maxInitializedLength then .ok extent
        else .error .invalidExtentTree := by
  obtain ⟨high, low, hhigh, hlow, hphysical⟩ := h.physical
  have hbit := legal_length_bit h.bounds.2
  unfold RustFirmware.Ext4.leafExtent
  simp only [h.logical, h.length, hhigh, hlow]
  show (if extent.blockCount &&& 0x8000 ≠ 0 then _ else _) = _
  by_cases hlong : extent.blockCount = maxInitializedLength
  · rw [if_pos (hbit.mpr hlong), if_neg (by omega)]
  · have hle := h.bounds.2
    rw [if_neg (fun hset => hlong (hbit.mp hset)), if_pos (by omega)]
    show Except.ok (⟨extent.logicalBlock, extent.blockCount, high * 2 ^ 32 + low⟩ : Ext4Extent) = _
    rw [← hphysical]

theorem ChildEntry.readChild {volume : Ext4Volume} {node : Bytes} {index blockNumber : Nat}
    (h : ChildEntry node index blockNumber)
    (hreads : ∀ lba count, volume.device.error lba count = none) :
    readChild volume node index = .ok (volume.block blockNumber) := by
  obtain ⟨high, low, hlow, hhigh, rfl⟩ := h
  have hread : volume.readBlock (high * 2 ^ 32 + low)
      = .ok (volume.block (high * 2 ^ 32 + low)) := by
    unfold Ext4Volume.readBlock BlockDevice.readBlocks Ext4Volume.blockToLba Ext4Volume.block
    rw [hreads, volume.device.sectors_mod]
    rfl
  unfold RustFirmware.Ext4.readChild
  simp only [hlow, hhigh]
  exact hread

/-- A collection of readable nodes ends with extents or with this one error. -/
def CollectsOrRefuses (result : Except Halt (List Ext4Extent)) : Prop :=
  (∃ extents, result = .ok extents) ∨ result = .error (.error .invalidExtentTree)

theorem collectLeafExtent_error {node : Bytes} {index : Nat} {extent : Ext4Extent}
    {extents : List Ext4Extent} {e : Ext4Error} (hentry : LeafEntry node index extent)
    (h : collectLeafExtent node index extents = .error e) : e = .invalidExtentTree := by
  unfold collectLeafExtent at h
  rw [hentry.leafExtent] at h
  by_cases hshort : extent.blockCount < maxInitializedLength
  · -- the extent is read, so the array was full
    rw [if_pos hshort] at h
    change (if extents.length ≥ ext4MaxExtents then _ else _) = _ at h
    split_ifs at h
    exact (Except.error.inj h).symm
  · rw [if_neg hshort] at h
    exact (Except.error.inj h).symm

section Collect

variable {volume : Ext4Volume} {depth : Nat} {node : Bytes} {leaves : List Ext4Extent}

/-- A valid tree is gone through with one activation for each of its levels. -/
theorem ValidExtentTree.collects_or_refuses (htree : ValidExtentTree volume depth node leaves)
    (hreads : ∀ lba count, volume.device.error lba count = none)
    (hdepth : depth ≤ ext4MaxExtentDepth) {levels : Nat} (hlevels : depth < levels)
    (extents : List Ext4Extent) :
    CollectsOrRefuses (collectExtentNode volume levels node extents) := by
  induction htree generalizing levels extents with
  | @leaf node count extent hheader hentry =>
      obtain ⟨levels, rfl⟩ : ∃ l, levels = l + 1 := ⟨levels - 1, by omega⟩
      rw [collectExtentNode_leaf (hheader.extentHeader hdepth)]
      cases hloop : forCount (collectLeafExtent node) count 0 extents with
      | ok collected => exact .inl ⟨collected, rfl⟩
      | error e =>
          obtain ⟨i, hi, acc, -, hpass⟩ := forCount_error.mp hloop
          rw [Nat.zero_add] at hpass
          rw [collectLeafExtent_error (hentry i hi) hpass]
          exact .inr rfl
  | @interior node count depth child parts hheader hentry _ ih =>
      obtain ⟨levels, rfl⟩ : ∃ l, levels = l + 1 := ⟨levels - 1, by omega⟩
      rw [collectExtentNode_interior (hheader.extentHeader hdepth) (Nat.succ_ne_zero depth)]
      cases hloop : forCount (collectChild volume levels node) count 0 extents with
      | ok collected => exact .inl ⟨collected, rfl⟩
      | error halt =>
          -- the first pass that failed did so below its child
          obtain ⟨i, hi, acc, -, hpass⟩ := forCount_error.mp hloop
          rw [Nat.zero_add] at hpass
          unfold collectChild at hpass
          rw [(hentry i hi).readChild hreads] at hpass
          have hbelow : depth < levels := by omega
          obtain ⟨_, hok⟩ | hrefused := ih i hi (by omega) hbelow acc
          · cases hok.symm.trans hpass
          · exact .inr (hpass.symm.trans hrefused)

/-- Where every leaf is short enough, the leaves of the format are those of the source. -/
theorem ValidExtentTree.to_leaves (htree : ValidExtentTree volume depth node leaves)
    (hreads : ∀ lba count, volume.device.error lba count = none)
    (hdepth : depth ≤ ext4MaxExtentDepth)
    (hshort : ∀ extent ∈ leaves, extent.blockCount < maxInitializedLength) :
    Leaves volume node leaves := by
  induction htree with
  | @leaf node count extent hheader hentry =>
      refine .leaf (hheader.extentHeader hdepth) (fun i hi => ?_)
      rw [(hentry i hi).leafExtent,
        if_pos (hshort _ (List.mem_map_of_mem (List.mem_range.mpr hi)))]
  | @interior node count depth child parts hheader hentry _ ih =>
      refine .interior (hheader.extentHeader hdepth) (Nat.succ_ne_zero depth)
        (fun i hi => (hentry i hi).readChild hreads) (fun i hi => ih i hi (by omega) ?_)
      intro extent hmem
      exact hshort extent (List.mem_flatMap.mpr ⟨i, List.mem_range.mpr hi, hmem⟩)

/-- Where the source has leaves, they are those of the format, and short enough. -/
theorem ValidExtentTree.of_leaves (htree : ValidExtentTree volume depth node leaves)
    (hreads : ∀ lba count, volume.device.error lba count = none)
    (hdepth : depth ≤ ext4MaxExtentDepth) {found : List Ext4Extent}
    (hfound : Leaves volume node found) :
    ∀ extent ∈ leaves, extent.blockCount < maxInitializedLength := by
  induction htree generalizing found with
  | @leaf node count extent hheader hentry =>
      cases hfound with
      | leaf hheader' hextent =>
          rw [hheader.extentHeader hdepth] at hheader'
          cases hheader'
          intro extent hmem
          obtain ⟨i, hi, rfl⟩ := List.mem_map.mp hmem
          have hread := hextent i (List.mem_range.mp hi)
          rw [(hentry i (List.mem_range.mp hi)).leafExtent] at hread
          split_ifs at hread with hshort
          exact hshort
      | interior hheader' hdepth' _ _ =>
          rw [hheader.extentHeader hdepth] at hheader'
          cases hheader'
          exact absurd rfl hdepth'
  | @interior node count depth child parts hheader hentry _ ih =>
      cases hfound with
      | leaf hheader' _ =>
          rw [hheader.extentHeader hdepth] at hheader'
          cases hheader'
      | interior hheader' _ hchild hparts =>
          rw [hheader.extentHeader hdepth] at hheader'
          cases hheader'
          intro extent hmem
          obtain ⟨i, hi, hpart⟩ := List.mem_flatMap.mp hmem
          have hlt := List.mem_range.mp hi
          have hsame := (hchild i hlt).symm.trans ((hentry i hlt).readChild hreads)
          have hleaves := hparts i hlt
          rw [Except.ok.inj hsame] at hleaves
          exact ih i hlt (by omega) hleaves extent hpart

end Collect

/-! ## §3. Acceptance. -/

/-- **A valid tree with room for its leaves is collected exactly where none of them has
    the longest legal length**; where one has, the tree is refused. -/
theorem collectInodeExtents_valid_iff (volume : Ext4Volume) (inode : Ext4Inode) (depth levels : Nat)
    (leaves : List Ext4Extent) (hreads : ∀ lba count, volume.device.error lba count = none)
    (huses : inode.usesExtents = true) (htree : ValidExtentTree volume depth inode.blockData leaves)
    (hdepth : depth ≤ ext4MaxExtentDepth) (hroom : leaves.length ≤ ext4MaxExtents)
    (hlevels : ext4MaxExtentDepth < levels) :
    (collectInodeExtents volume levels inode = .ok leaves
      ↔ ∀ extent ∈ leaves, extent.blockCount < maxInitializedLength)
    ∧ ((∃ extent ∈ leaves, extent.blockCount = maxInitializedLength) →
        collectInodeExtents volume levels inode = .error (.error .invalidExtentTree)) := by
  have hcollect : collectInodeExtents volume levels inode
      = collectExtentNode volume levels inode.blockData [] := by
    unfold collectInodeExtents
    rw [huses]
    exact if_neg (by decide)
  have hends := htree.collects_or_refuses hreads hdepth (by omega : depth < levels) []
  have hempty : ([] : List Ext4Extent).length ≤ ext4MaxExtents := Nat.zero_le _
  -- what is collected are leaves of the source
  have hshort : ∀ collected, collectExtentNode volume levels inode.blockData [] = .ok collected →
      ∀ extent ∈ leaves, extent.blockCount < maxInitializedLength := by
    intro collected hok
    obtain ⟨found, hfound, -, -⟩ := collectExtentNode_ok hok hempty
    exact htree.of_leaves hreads hdepth hfound
  rw [hcollect]
  refine ⟨⟨hshort leaves, ?_⟩, ?_⟩
  · intro hall
    obtain hgives | hnests := (htree.to_leaves hreads hdepth hall).gives levels [] hroom
    · exact hgives
    · obtain ⟨_, hok⟩ | hrefused := hends
      · cases hok.symm.trans hnests
      · cases hrefused.symm.trans hnests
  · intro hlong
    obtain ⟨extent, hmem, hlength⟩ := hlong
    obtain ⟨collected, hok⟩ | hrefused := hends
    · exact absurd (hshort collected hok extent hmem) (by omega)
    · exact hrefused

/-- An inode with one extent. -/
def extentInode (extent : Ext4Extent) : Ext4Inode where
  inodeNumber      := 12
  mode             := ext4ModeRegular
  sizeBytes        := extent.blockCount * 1024
  flags            := ext4InodeFlagExtents
  blockData        := leafNode extent ++ List.replicate 36 0
  blockData_length := by
    unfold leafNode
    simp only [List.length_append, List.length_replicate]
    rfl

/-- An extent of the longest legal length is refused on a disk that reads without error. -/
theorem collectInodeExtents_longest :
    ¬ ∀ (volume : Ext4Volume) (inode : Ext4Inode) (depth levels : Nat) (leaves : List Ext4Extent),
        (∀ lba count, volume.device.error lba count = none) → inode.usesExtents = true →
        ValidExtentTree volume depth inode.blockData leaves → depth ≤ ext4MaxExtentDepth →
        leaves.length ≤ ext4MaxExtents → ext4MaxExtentDepth < levels →
        collectInodeExtents volume levels inode = .ok leaves := by
  intro hclaim
  have htree : ValidExtentTree sparseVolume 0 (extentInode ⟨0, 32768, 100⟩).blockData
      ((List.range 1).map (fun _ => ⟨0, 32768, 100⟩)) := by
    refine .leaf ⟨by decide, by decide, by decide, by decide⟩ (fun i hi => ?_)
    obtain rfl : i = 0 := Nat.lt_one_iff.mp hi
    exact ⟨by decide, by decide, ⟨0, 100, by decide, by decide, by decide⟩, by decide⟩
  have hclaimed := hclaim sparseVolume (extentInode ⟨0, 32768, 100⟩) 0 6 _ (fun _ _ => rfl)
    (by decide) htree (by decide) (by decide) (by decide)
  have hcode : collectInodeExtents sparseVolume 6 (extentInode ⟨0, 32768, 100⟩)
      = .error (.error .invalidExtentTree) := by decide +kernel
  rw [hcode] at hclaimed
  cases hclaimed

/-- A volume whose block 2 is a leaf with an extent of three blocks. -/
def twoLevelVolume : Ext4Volume := volumeOf (fun lba => if lba = 4 then leafNode ⟨7, 3, 20⟩ else [])

/-- A file whose tree has that leaf below its root. -/
def twoLevelInode : Ext4Inode where
  inodeNumber      := 12
  mode             := ext4ModeRegular
  sizeBytes        := 10240
  flags            := ext4InodeFlagExtents
  blockData        := interiorNode 1 2 ++ List.replicate 36 0
  blockData_length := by decide

set_option maxRecDepth 20000 in
theorem collectInodeExtents_valid_iff_example :
    collectInodeExtents twoLevelVolume 6 twoLevelInode = .ok [⟨7, 3, 20⟩] := by
  have hleaf : ValidExtentTree twoLevelVolume 0 (twoLevelVolume.block 2)
      ((List.range 1).map (fun _ => ⟨7, 3, 20⟩)) := by
    refine .leaf ⟨by decide +kernel, by decide +kernel, by decide +kernel, by decide +kernel⟩
      (fun i hi => ?_)
    obtain rfl : i = 0 := Nat.lt_one_iff.mp hi
    exact ⟨by decide +kernel, by decide +kernel,
      ⟨0, 20, by decide +kernel, by decide +kernel, by decide⟩, by decide⟩
  have htree : ValidExtentTree twoLevelVolume 1 twoLevelInode.blockData
      ((List.range 1).flatMap (fun _ => [⟨7, 3, 20⟩])) := by
    refine @ValidExtentTree.interior twoLevelVolume _ 1 0 (fun _ => 2) (fun _ => [⟨7, 3, 20⟩])
      ⟨by decide +kernel, by decide +kernel, by decide +kernel, by decide +kernel⟩
      (fun i hi => ?_) (fun i _ => hleaf)
    obtain rfl : i = 0 := Nat.lt_one_iff.mp hi
    exact ⟨0, 2, by decide +kernel, by decide +kernel, by decide⟩
  exact (collectInodeExtents_valid_iff twoLevelVolume twoLevelInode 1 6 [⟨7, 3, 20⟩]
    (fun _ _ => rfl) (by decide) htree (by decide) (by decide) (by decide)).1.mpr (by decide)

end RustFirmware.Ext4
