/-
  RustFirmware.Ext4.Directory
  ───────────────────────────
  **DIRECTORIES AND PATHS OF `src/ext4.rs`: LOOKUP, RESOLUTION AND THE WALK.**

  Lookup and walk each have their own loops over extents, blocks and records, as in
  the source.  The walk carries the path buffer that all recursion levels share, and
  the list of what was reported so far, which stays also when the walk fails.
  `levels` is passed on to the extent trees; the other allowances are large enough by
  themselves, which is proved next to the definitions.
-/
import RustFirmware.Ext4.Contents
import RustFirmware.Lib.Listing

namespace RustFirmware.Ext4

open RustFirmware.Lib

/-! ## §1. Records. -/

/-- One directory record. -/
structure DirectoryRecord where
  inodeNumber  : Nat
  recordLength : Nat
  name         : Bytes
  deriving Repr, DecidableEq

/-- The record at `entryOffset`, checked as both loops do. -/
def directoryRecord (blockSize : Nat) (block : Bytes) (entryOffset : Nat) :
    Except Ext4Error DirectoryRecord := do
  let inodeNumber ← okOr (readLe32 block entryOffset) .invalidDirectoryEntry
  let recordLength ← okOr (readLe16 block (entryOffset + 4)) .invalidDirectoryEntry
  let nameLength ← okOr (block[entryOffset + 6]?.map UInt8.toNat) .invalidDirectoryEntry
  if recordLength < 8 ∨ recordLength % 4 ≠ 0 ∨ entryOffset + recordLength > blockSize
      ∨ nameLength > recordLength - 8 then .error .invalidDirectoryEntry
  else .ok {
    inodeNumber := inodeNumber
    recordLength := recordLength
    name := (block.drop (entryOffset + 8)).take nameLength }

/-- The blocks of a list of extents, in the order the two outer loops go through them. -/
def extentBlocks (extents : List Ext4Extent) : List Nat :=
  extents.flatMap (fun extent => (List.range extent.blockCount).map (extent.physicalBlock + ·))

/-! ## §2. Lookup. -/

/-- The loop over the records of one block: the inode number, if the name is there. -/
def findInBlock (blockSize : Nat) (component block : Bytes) :
    (passes : Nat) → (entryOffset : Nat) → Except Ext4Error (Option Nat)
  | 0, _ => .ok none
  | passes + 1, entryOffset =>
      if entryOffset + 8 ≤ blockSize then do
        let record ← directoryRecord blockSize block entryOffset
        if record.inodeNumber ≠ 0 ∧ record.name = component then .ok (some record.inodeNumber)
        else findInBlock blockSize component block passes (entryOffset + record.recordLength)
      else .ok none

/-- The loops over the blocks. -/
def findInBlocks (volume : Ext4Volume) (component : Bytes) : List Nat → Except Ext4Error Nat
  | [] => .error .notFound
  | blockNumber :: blockNumbers => do
      let block ← volume.readBlock blockNumber
      -- a record takes at least eight bytes
      match ← findInBlock volume.blockSize component block (volume.blockSize / 8 + 1) 0 with
      | some inodeNumber => .ok inodeNumber
      | none             => findInBlocks volume component blockNumbers

/-- `find_directory_entry`. -/
def findDirectoryEntry (volume : Ext4Volume) (levels : Nat) (directory : Ext4Inode)
    (component : Bytes) : Except Halt Nat := do
  let extents ← collectInodeExtents volume levels directory
  ended (findInBlocks volume component (extentBlocks extents))

/-! ## §3. Paths. -/

/-- The byte of `/`. -/
def separator : UInt8 := 47

/-- `trim_leading_separators`. -/
def trimLeadingSeparators (path : Bytes) : Bytes := path.dropWhile (· == separator)

/-- `split_path_component`. -/
def splitPathComponent (path : Bytes) : Except Ext4Error (Bytes × Bytes) :=
  let path := trimLeadingSeparators path
  if path = [] then .error .invalidPath
  else
    match path.findIdx? (· == separator) with
    | some index => .ok (path.take index, trimLeadingSeparators (path.drop (index + 1)))
    | none       => .ok (path, [])

/-- `append_path_component`: the buffer and how much of it is used. -/
def appendPathComponent (path : Bytes) (pathLen : Nat) (component : Bytes) :
    Except Ext4Error (Bytes × Nat) := do
  let nextLen ← okOr
    ((checkedAdd 64 pathLen 1).bind (fun len => checkedAdd 64 len component.length)) .nameTooLong
  if nextLen > path.length then .error .nameTooLong
  else .ok (overwrite (overwrite path pathLen [separator]) (pathLen + 1) component, nextLen)

/-- `read_symlink_target` into the path buffer. -/
def readSymlinkTarget (volume : Ext4Volume) (levels : Nat) (inode : Ext4Inode) :
    Except Halt Bytes :=
  let size := inode.sizeBytes
  if size > ext4PathBytes then .error (.error .nameTooLong)
  else if inode.usesExtents = false ∧ size ≤ inode.blockData.length then
    .ok (inode.blockData.take size)
  else do
    let (_, buffer) ← readInodeContents volume levels inode (List.replicate size 0)
    .ok buffer

/-- `read_symlink_path`: the target and the unresolved tail behind it. -/
def readSymlinkPath (volume : Ext4Volume) (levels : Nat) (inode : Ext4Inode) (tail : Bytes) :
    Except Halt Bytes := do
  let target ← readSymlinkTarget volume levels inode
  let tail := trimLeadingSeparators tail
  if tail = [] then .ok target
  else if target ≠ [] ∧ target.getLast? ≠ some separator then
    if target.length ≥ ext4PathBytes then .error (.error .nameTooLong)
    else if target.length + 1 + tail.length > ext4PathBytes then .error (.error .nameTooLong)
    else .ok (target ++ [separator] ++ tail)
  else if target.length + tail.length > ext4PathBytes then .error (.error .nameTooLong)
  else .ok (target ++ tail)

/-- What resolution goes on with at a symlink: from the directory it is in, its inode and
    the rest of the path. -/
abbrev Expand := (directory : Nat) → (link : Ext4Inode) → (rest : Bytes) →
  Except Halt (Nat × Ext4Inode)

/-- The loop of `resolve_path_from`; every pass consumes a component. -/
def resolveLoop (volume : Ext4Volume) (levels : Nat) (expand : Expand) :
    (passes : Nat) → (current : Nat) → (remaining : Bytes) → Except Halt (Nat × Ext4Inode)
  | 0, _, _ => .error .deeper
  | passes + 1, current, remaining =>
      if remaining = [] then do
        let inode ← ended (volume.readInode current)
        .ok (current, inode)
      else do
        let currentInode ← ended (volume.readInode current)
        if currentInode.isDirectory = false then .error (.error .notDirectory)
        else
          let (component, rest) ← ended (splitPathComponent remaining)
          if component = ascii "." then resolveLoop volume levels expand passes current rest
          else if component = ascii ".." then .error (.error .invalidPath)
          else
            let child ← findDirectoryEntry volume levels currentInode component
            let childInode ← ended (volume.readInode child)
            if childInode.isSymlink then expand current childInode rest
            else resolveLoop volume levels expand passes child rest

/-- `resolve_path_from` up to a symlink. -/
def resolveUpToSymlink (volume : Ext4Volume) (levels : Nat) (expand : Expand) (start : Nat)
    (path : Bytes) : Except Halt (Nat × Ext4Inode) :=
  let current := if path.head? = some separator then ext4RootInode else start
  let remaining := trimLeadingSeparators path
  resolveLoop volume levels expand (remaining.length + 1) current remaining

/-- `resolve_path_from`, where `expansions` more symlinks may be expanded:
    `EXT4_MAX_SYMLINK_DEPTH - symlink_depth`. -/
def resolvePathFrom (volume : Ext4Volume) (levels : Nat) :
    (expansions : Nat) → (start : Nat) → (path : Bytes) → Except Halt (Nat × Ext4Inode)
  | 0, start, path =>
      resolveUpToSymlink volume levels (fun _ _ _ => .error (.error .symlinkLoop)) start path
  | expansions + 1, start, path =>
      resolveUpToSymlink volume levels
        (fun directory link rest => do
          let expanded ← readSymlinkPath volume levels link rest
          let expanded ← ended (okOr (fromUtf8 expanded) .invalidPath)
          resolvePathFrom volume levels expansions directory expanded)
        start path

/-- `resolve_path(path, 0)`. -/
def resolvePath (volume : Ext4Volume) (levels : Nat) (path : Bytes) :
    Except Halt (Nat × Ext4Inode) :=
  resolvePathFrom volume levels ext4MaxSymlinkDepth ext4RootInode path

/-! ## §4. The walk. -/

/-- What the recursion levels of a walk share: the path buffer, and the calls of the
    visitor so far. -/
structure WalkState where
  path     : Bytes
  reported : List (Bytes × Nat)
  deriving Repr, DecidableEq

abbrev Walk := Keep Halt WalkState

/-- `append_path_component` on the shared buffer. -/
def Walk.append (pathLen : Nat) (component : Bytes) : Walk Nat := fun s =>
  match appendPathComponent s.path pathLen component with
  | .ok (path, nextLen) => (.ok nextLen, { s with path := path })
  | .error e            => (.error (.error e), s)

/-- The call of the visitor with the first `pathLen` bytes of the buffer. -/
def Walk.report (pathLen sizeBytes : Nat) : Walk Unit := fun s =>
  match fromUtf8 (s.path.take pathLen) with
  | some filePath => (.ok (), { s with reported := s.reported ++ [(filePath, sizeBytes)] })
  | none          => (.error (.error .invalidDirectoryEntry), s)

/-- What is done for one live record. -/
def visitRecord (volume : Ext4Volume) (descend : Ext4Inode → (pathLen : Nat) → Walk Unit)
    (pathLen : Nat) (record : DirectoryRecord) : Walk Unit :=
  if record.name ≠ ascii "." ∧ record.name ≠ ascii ".." then do
    let nextLen ← Walk.append pathLen record.name
    let childInode ← Keep.lift (ended (volume.readInode record.inodeNumber))
    if childInode.isDirectory then descend childInode nextLen
    else Walk.report nextLen childInode.sizeBytes
  else pure ()

/-- A record without an inode is passed over. -/
def visitLive (visit : DirectoryRecord → Walk Unit) (record : DirectoryRecord) : Walk Unit :=
  if record.inodeNumber ≠ 0 then visit record else pure ()

/-- The loop over the records of one block. -/
def walkBlock (blockSize : Nat) (visit : DirectoryRecord → Walk Unit) (block : Bytes) :
    (passes : Nat) → (entryOffset : Nat) → Walk Unit
  | 0, _ => pure ()
  | passes + 1, entryOffset =>
      if entryOffset + 8 ≤ blockSize then do
        let record ← Keep.lift (ended (directoryRecord blockSize block entryOffset))
        visitLive visit record
        walkBlock blockSize visit block passes (entryOffset + record.recordLength)
      else pure ()

/-- The loops over the blocks. -/
def walkBlocks (volume : Ext4Volume) (visit : DirectoryRecord → Walk Unit) :
    List Nat → Walk Unit
  | [] => pure ()
  | blockNumber :: blockNumbers => do
      let block ← Keep.lift (ended (volume.readBlock blockNumber))
      walkBlock volume.blockSize visit block (volume.blockSize / 8 + 1) 0
      walkBlocks volume visit blockNumbers

/-- `walk_directory`, with `nested` activations allowed. -/
def walkDirectory (volume : Ext4Volume) (levels : Nat) :
    (nested : Nat) → (directory : Ext4Inode) → (pathLen : Nat) → Walk Unit
  | 0, _, _ => Keep.throw .deeper
  | nested + 1, directory, pathLen => do
      let extents ← Keep.lift (collectInodeExtents volume levels directory)
      walkBlocks volume
        (visitRecord volume (fun child nextLen => walkDirectory volume levels nested child nextLen)
          pathLen)
        (extentBlocks extents)

/-- `walk_files_in_directory`: its result, and the calls of the visitor. -/
def walkFilesInDirectory (volume : Ext4Volume) (levels : Nat) (path : Bytes) :
    Except Halt Unit × List (Bytes × Nat) :=
  match resolvePath volume levels path with
  | .error halt => (.error halt, [])
  | .ok (_, inode) =>
      if inode.isDirectory = false then (.error (.error .notDirectory), [])
      else
        let trimmed := trimLeadingSeparators path
        let initialLen := trimmed.length + 1
        if trimmed ≠ [] ∧ initialLen > ext4PathBytes then (.error (.error .nameTooLong), [])
        else
          let empty := List.replicate ext4PathBytes 0
          let (currentPath, pathLen) :=
            if trimmed = [] then (empty, 0)
            else (overwrite empty 0 (separator :: trimmed), initialLen)
          -- each nested activation has a longer path, so the path buffer bounds them
          let (result, state) := walkDirectory volume levels (ext4PathBytes + 1) inode pathLen
            { path := currentPath, reported := [] }
          (result, state.reported)

end RustFirmware.Ext4
