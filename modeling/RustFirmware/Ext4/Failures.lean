/-
  RustFirmware.Ext4.Failures
  ──────────────────────────
  **NO READ OF THE VOLUME ENDS AS ONLY RESOLUTION DOES.**

  `SymlinkLoop` and `NameTooLong` are errors of path resolution.  No reader of inodes,
  extents, directories or contents gives them, whatever the device holds.
-/
import RustFirmware.Ext4.Directory
import RustFirmware.Lib.Failing

namespace RustFirmware.Ext4

open RustFirmware.Lib
open RustFirmware.Virtio

/-- An error that is not one of path resolution alone. -/
def Ext4Error.Plain : Ext4Error → Prop
  | .symlinkLoop => False
  | .nameTooLong => False
  | _ => True

/-- Such an error, or too many nested activations. -/
def Halt.Plain : Halt → Prop
  | .error e => e.Plain
  | .deeper => True

theorem ended_fails {α : Type} {result : Except Ext4Error α} (h : FailsIn Ext4Error.Plain result) :
    FailsIn Halt.Plain (ended result) := by
  cases result with
  | ok a => exact .ok a
  | error e => exact .error (h e rfl)

theorem fromDevice_fails {α : Type} (result : Except VirtioError α) :
    FailsIn Ext4Error.Plain (fromDevice result) := by
  cases result with
  | ok a => exact .ok a
  | error e => exact .error trivial

section Reads

variable (volume : Ext4Volume)

theorem readBlock_fails (blockNumber : Nat) :
    FailsIn Ext4Error.Plain (volume.readBlock blockNumber) := fromDevice_fails _

theorem inodeTableBlock_fails (group : Nat) :
    FailsIn Ext4Error.Plain (volume.inodeTableBlock group) := by
  unfold Ext4Volume.inodeTableBlock
  refine .bind (.okOr trivial) (fun _ => .bind (fromDevice_fails _) (fun _ => ?_))
  refine .bind (.okOr trivial) (fun _ => .ite ?_ (.ok _))
  exact .bind (.okOr trivial) (fun _ => .ok _)

theorem readInode_fails (inodeNumber : Nat) :
    FailsIn Ext4Error.Plain (volume.readInode inodeNumber) := by
  unfold Ext4Volume.readInode
  refine .ite (.error trivial) (.bind (inodeTableBlock_fails volume _) (fun _ => ?_))
  refine .bind (.okOr trivial) (fun _ => .bind (fromDevice_fails _) (fun _ => ?_))
  refine .bind (.okOr trivial) (fun _ => .bind (.okOr trivial) (fun _ => ?_))
  exact .bind (.okOr trivial) (fun _ => .ok _)

/-! ## §1. Extents. -/

theorem extentHeader_fails (node : Bytes) : FailsIn Ext4Error.Plain (extentHeader node) := by
  unfold extentHeader
  refine .bind (.okOr trivial) (fun _ => .ite (.error trivial) ?_)
  refine .bind (.okOr trivial) (fun _ => .bind (.okOr trivial) (fun _ => ?_))
  exact .ite (.error trivial) (.ite (.error trivial) (.ok _))

theorem collectLeafExtent_fails (node : Bytes) (index : Nat) (extents : List Ext4Extent) :
    FailsIn Ext4Error.Plain (collectLeafExtent node index extents) := by
  unfold collectLeafExtent leafExtent
  refine .bind ?_ (fun _ => .ite (.error trivial) (.ok _))
  refine .bind (.okOr trivial) (fun _ => .bind (.okOr trivial) (fun _ => ?_))
  refine .ite (.error trivial) (.bind (.okOr trivial) (fun _ => ?_))
  exact .bind (.okOr trivial) (fun _ => .ok _)

theorem readChild_fails (node : Bytes) (index : Nat) :
    FailsIn Ext4Error.Plain (readChild volume node index) := by
  unfold readChild
  refine .bind (.okOr trivial) (fun _ => .bind (.okOr trivial) (fun _ => ?_))
  exact readBlock_fails volume _

theorem collectExtentNode_fails (levels : Nat) (node : Bytes) (extents : List Ext4Extent) :
    FailsIn Halt.Plain (collectExtentNode volume levels node extents) := by
  -- the one error that is not of the volume is that of no level left, and it is plain
  induction levels generalizing node extents with
  | zero => exact .error trivial
  | succ levels ih =>
      unfold collectExtentNode
      refine .bind (ended_fails (extentHeader_fails node)) (fun header => .ite ?_ ?_)
      · exact ended_fails (.forCount (collectLeafExtent_fails node) _ _ _)
      · refine .forCount (fun index acc => ?_) _ _ _
        exact .bind (ended_fails (readChild_fails volume node index)) (fun child => ih child acc)

theorem collectInodeExtents_fails (levels : Nat) (inode : Ext4Inode) :
    FailsIn Halt.Plain (collectInodeExtents volume levels inode) :=
  .ite (.error trivial) (collectExtentNode_fails volume levels _ _)

/-! ## §2. Directories. -/

theorem directoryRecord_fails (blockSize : Nat) (block : Bytes) (entryOffset : Nat) :
    FailsIn Ext4Error.Plain (directoryRecord blockSize block entryOffset) := by
  unfold directoryRecord
  refine .bind (.okOr trivial) (fun _ => .bind (.okOr trivial) (fun _ => ?_))
  exact .bind (.okOr trivial) (fun _ => .ite (.error trivial) (.ok _))

theorem findInBlock_fails (blockSize : Nat) (component block : Bytes) (passes entryOffset : Nat) :
    FailsIn Ext4Error.Plain (findInBlock blockSize component block passes entryOffset) := by
  induction passes generalizing entryOffset with
  | zero => exact .ok none
  | succ passes ih =>
      unfold findInBlock
      refine .ite (.bind (directoryRecord_fails _ _ _) (fun record => ?_)) (.ok none)
      exact .ite (.ok _) (ih _)

theorem findInBlocks_fails (component : Bytes) (blockNumbers : List Nat) :
    FailsIn Ext4Error.Plain (findInBlocks volume component blockNumbers) := by
  induction blockNumbers with
  | nil => exact .error trivial
  | cons blockNumber blockNumbers ih =>
      unfold findInBlocks
      refine .bind (readBlock_fails volume _) (fun block => ?_)
      refine .bind (findInBlock_fails _ _ _ _ _) (fun found => ?_)
      -- a block without the name sends the search on, and the search ends in `NotFound`
      cases found with
      | none => exact ih
      | some inodeNumber => exact .ok inodeNumber

theorem findDirectoryEntry_fails (levels : Nat) (directory : Ext4Inode) (component : Bytes) :
    FailsIn Halt.Plain (findDirectoryEntry volume levels directory component) :=
  .bind (collectInodeExtents_fails volume levels directory)
    (fun _ => ended_fails (findInBlocks_fails volume component _))

/-! ## §3. Contents. -/

theorem copyExtents_fails (sizeBytes : Nat) (extents : List Ext4Extent) (buffer : Bytes) :
    FailsIn Ext4Error.Plain (copyExtents volume sizeBytes extents buffer) := by
  induction extents generalizing buffer with
  | nil => exact .ok buffer
  | cons extent extents ih =>
      unfold copyExtents
      refine .ite (.ok _) (.bind ?_ (fun full => .bind ?_ (fun tail => ih _)))
      · exact .ite (fromDevice_fails _) (.ok _)
      · exact .ite (.bind (readBlock_fails volume _) (fun _ => .ok _)) (.ok _)

theorem readInodeContents_fails (levels : Nat) (inode : Ext4Inode) (buffer : Bytes) :
    FailsIn Halt.Plain (readInodeContents volume levels inode buffer) := by
  unfold readInodeContents
  refine .ite (.error trivial) (.ite (.error trivial) (.ite (.ok _) ?_))
  refine .bind (collectInodeExtents_fails volume levels inode) (fun extents => ?_)
  exact .bind (ended_fails (copyExtents_fails volume _ extents _)) (fun _ => .ok _)

end Reads

end RustFirmware.Ext4
