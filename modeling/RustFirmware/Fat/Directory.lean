/-
  RustFirmware.Fat.Directory
  ──────────────────────────
  **DIRECTORIES AND PATHS OF `src/fat.rs`: LOOKUP, RESOLUTION AND THE WALK.**

  Lookup and walk each have their own loops over clusters, sectors and entries, as in the
  source.  Neither bounds the clusters it goes through: `clusters` is how many passes of
  the cluster loop an activation may make, and `nested` how many activations of the walk
  there may be.  A call that needs more `runsOn`.
-/
import RustFirmware.Fat.Entries
import RustFirmware.Lib.Path

namespace RustFirmware.Fat

open RustFirmware.Lib
open RustFirmware.Virtio

/-! ## §1. Locations and allowances. -/

/-- `DirectoryLocation`. -/
inductive DirectoryLocation where
  | rootDirectory
  | clusterChain (cluster : UInt32)
  deriving Repr, DecidableEq

/-- How a call can stop without a result. -/
inductive Halt where
  | error (error : FatError)
  /-- It has used up what it is allowed. -/
  | runsOn
  deriving Repr, DecidableEq

/-- A call that has ended. -/
def ended {α : Type} (result : Except FatError α) : Except Halt α := result.mapError Halt.error

/-! ## §2. Lookup. -/

/-- `DirectoryScanResult`; `more` is `Continue`. -/
inductive DirectoryScanResult where
  | found (entry : FatDirectoryEntry)
  | more
  | endOfDirectory
  deriving Repr, DecidableEq

/-- A byte without the difference between upper and lower case. -/
def foldCase (byte : UInt8) : UInt8 := if 0x41 ≤ byte ∧ byte ≤ 0x5a then byte + 0x20 else byte

/-- `eq_ignore_ascii_case`. -/
def eqIgnoreAsciiCase (name name' : Bytes) : Bool := name.map foldCase == name'.map foldCase

/-- `scan_directory_sector`, from `offset` on, and the state it leaves. -/
def scanDirectorySector (sector component : Bytes) :
    (passes : Nat) → (offset : Nat) → LongNameState →
      Except FatError (DirectoryScanResult × LongNameState)
  | 0, _, state => .ok (.more, state)
  | passes + 1, offset, state =>
      if offset < sector.length then do
        let entry ← okOr (sectorEntry sector offset) .invalidBootSector
        let firstByte := byteAt entry 0
        let attributes := byteAt entry 11
        if firstByte = 0x00 then .ok (.endOfDirectory, .new)
        -- deleted entries
        else if firstByte = 0xe5 then
          scanDirectorySector sector component passes (offset + fatDirEntrySize) .new
        else if attributes = fatAttributeLongName then
          scanDirectorySector sector component passes (offset + fatDirEntrySize)
            (LongNameState.push entry state).2
        else if attributes &&& fatAttributeVolumeId ≠ 0 then
          scanDirectorySector sector component passes (offset + fatDirEntrySize) .new
        else
          let name ← state.nameOf entry
          let directoryEntry ← parseDirectoryEntry entry
          if eqIgnoreAsciiCase name component then .ok (.found directoryEntry, .new)
          else scanDirectorySector sector component passes (offset + fatDirEntrySize) .new
      else .ok (.more, state)

/-- The entries of a sector. -/
def entriesPerSector : Nat := virtioSectorSize / fatDirEntrySize

/-- The loop over `todo` consecutive sectors, of the root region or of a cluster. -/
def findInSectors (volume : FatVolume) (component : Bytes) :
    (todo : Nat) → (sector : UInt32) → LongNameState →
      Except FatError (DirectoryScanResult × LongNameState)
  | 0, _, state => .ok (.more, state)
  | todo + 1, sector, state => do
      let bytes ← volume.readRelativeBlocks sector
      match ← scanDirectorySector bytes component entriesPerSector 0 state with
      | (.more, state) => findInSectors volume component todo (sector + 1) state
      | result         => .ok result

/-- The loop over the clusters of a directory. -/
def findInChain (volume : FatVolume) (component : Bytes) :
    (clusters : Nat) → (cluster : UInt32) → LongNameState → Except Halt FatDirectoryEntry
  | 0, _, _ => .error .runsOn
  | clusters + 1, cluster, state =>
      if volume.isValidCluster cluster then do
        let firstSector ← ended (volume.clusterFirstSector cluster)
        match ← ended (findInSectors volume component volume.sectorsPerCluster.toNat firstSector
          state) with
        | (.found entry, _)     => .ok entry
        | (.endOfDirectory, _)  => .error (.error .notFound)
        | (.more, state)        => do
            let next ← ended (volume.nextCluster cluster)
            if volume.isEndOfChain next then .error (.error .notFound)
            else findInChain volume component clusters next state
      else .error (.error .notFound)

/-- The loop over the fixed region of the FAT16 root directory. -/
def findInRoot (volume : FatVolume) (component : Bytes) : Except Halt FatDirectoryEntry := do
  match ← ended (findInSectors volume component volume.rootDirSectors.toNat
    volume.rootDirFirstSector .new) with
  | (.found entry, _) => .ok entry
  | _                 => .error (.error .notFound)

/-- `find_directory_entry`. -/
def findDirectoryEntry (volume : FatVolume) (clusters : Nat) (directory : DirectoryLocation)
    (component : Bytes) : Except Halt FatDirectoryEntry :=
  match directory with
  | .rootDirectory =>
      match volume.fatType with
      | .fat16 => findInRoot volume component
      | .fat32 => findInChain volume component clusters volume.rootCluster .new
  | .clusterChain cluster => findInChain volume component clusters cluster .new

/-! ## §3. Paths. -/

/-- The byte of `/`. -/
def separator : UInt8 := 47

/-- The components of a path that are not empty. -/
def pathComponents (path : Bytes) : List Bytes :=
  (path.splitOnP (· == separator)).filter (· ≠ [])

/-- The loop of `find_path_entry` over the components that are left. -/
def findComponents (volume : FatVolume) (clusters : Nat) :
    (directory : DirectoryLocation) → (components : List Bytes) → Except Halt FatDirectoryEntry
  | _, [] => .error (.error .invalidPath)
  | directory, component :: components =>
      if component = ascii "." ∨ component = ascii ".." then .error (.error .invalidPath)
      else do
        let entry ← findDirectoryEntry volume clusters directory component
        if components = [] then .ok entry
        else if entry.isDirectory = false then .error (.error .notDirectory)
        else findComponents volume clusters (.clusterChain entry.firstCluster) components

/-- `find_path_entry`. -/
def findPathEntry (volume : FatVolume) (clusters : Nat) (path : Bytes) :
    Except Halt FatDirectoryEntry :=
  findComponents volume clusters .rootDirectory (pathComponents path)

/-- `append_path_component`: the buffer and how much of it is used. -/
def appendPathComponent (path : Bytes) (pathLen : Nat) (component : Bytes) :
    Except FatError (Bytes × Nat) :=
  appendComponent .nameTooLong separator path pathLen component

/-! ## §4. The walk. -/

/-- What the recursion levels of a walk share: the path buffer, and the calls of the
    visitor so far. -/
structure WalkState where
  path     : Bytes
  reported : List (Bytes × UInt32)
  deriving Repr, DecidableEq

abbrev Walk := Keep Halt WalkState

/-- `append_path_component` on the shared buffer. -/
def Walk.append (pathLen : Nat) (component : Bytes) : Walk Nat := fun s =>
  match appendPathComponent s.path pathLen component with
  | .ok (path, totalLen) => (.ok totalLen, { s with path := path })
  | .error e             => (.error (.error e), s)

/-- The call of the visitor with the first `pathLen` bytes of the buffer. -/
def Walk.report (pathLen : Nat) (fileSize : UInt32) : Walk Unit :=
  Keep.modify (fun s => { s with reported := s.reported ++ [(s.path.take pathLen, fileSize)] })

/-- `visit_walk_entry`. -/
def visitWalkEntry (descend : DirectoryLocation → (pathLen : Nat) → Walk Unit) (pathLen : Nat)
    (name : Bytes) (entry : FatDirectoryEntry) : Walk Unit :=
  if name = ascii "." ∨ name = ascii ".." then pure ()
  else do
    let fullPathLen ← Walk.append pathLen name
    if entry.isDirectory then descend (.clusterChain entry.firstCluster) fullPathLen
    else Walk.report fullPathLen entry.fileSize

/-- `scan_directory_sector_entries`, from `offset` on: whether the directory ended, and the
    long name state it leaves. -/
def scanDirectorySectorEntries (sector : Bytes)
    (visitor : Bytes → FatDirectoryEntry → Walk Unit) :
    (passes : Nat) → (offset : Nat) → LongNameState → Walk (Bool × LongNameState)
  | 0, _, state => pure (false, state)
  | passes + 1, offset, state =>
      if offset < sector.length then do
        let entry ← Keep.lift (ended (okOr (sectorEntry sector offset) .invalidBootSector))
        let firstByte := byteAt entry 0
        let attributes := byteAt entry 11
        if firstByte = 0x00 then pure (true, .new)
        -- deleted entries
        else if firstByte = 0xe5 then
          scanDirectorySectorEntries sector visitor passes (offset + fatDirEntrySize) .new
        else if attributes = fatAttributeLongName then
          scanDirectorySectorEntries sector visitor passes (offset + fatDirEntrySize)
            (LongNameState.push entry state).2
        else if attributes &&& fatAttributeVolumeId ≠ 0 then
          scanDirectorySectorEntries sector visitor passes (offset + fatDirEntrySize) .new
        else
          let directoryEntry ← Keep.lift (ended (parseDirectoryEntry entry))
          let name ← Keep.lift (ended (state.nameOf entry))
          visitor name directoryEntry
          scanDirectorySectorEntries sector visitor passes (offset + fatDirEntrySize) .new
      else pure (false, state)

/-- The loop over `todo` consecutive sectors, of the root region or of a cluster. -/
def walkSectors (volume : FatVolume) (visitor : Bytes → FatDirectoryEntry → Walk Unit) :
    (todo : Nat) → (sector : UInt32) → LongNameState → Walk (Bool × LongNameState)
  | 0, _, state => pure (false, state)
  | todo + 1, sector, state => do
      let bytes ← Keep.lift (ended (volume.readRelativeBlocks sector))
      match ← scanDirectorySectorEntries bytes visitor entriesPerSector 0 state with
      | (false, state) => walkSectors volume visitor todo (sector + 1) state
      | (true, state)  => pure (true, state)

/-- The loop over the clusters of a directory. -/
def walkChain (volume : FatVolume) (visitor : Bytes → FatDirectoryEntry → Walk Unit) :
    (clusters : Nat) → (cluster : UInt32) → LongNameState → Walk Unit
  | 0, _, _ => Keep.throw .runsOn
  | clusters + 1, cluster, state =>
      if volume.isValidCluster cluster then do
        let firstSector ← Keep.lift (ended (volume.clusterFirstSector cluster))
        match ← walkSectors volume visitor volume.sectorsPerCluster.toNat firstSector state with
        | (true, _)      => pure ()
        | (false, state) => do
            let next ← Keep.lift (ended (volume.nextCluster cluster))
            if volume.isEndOfChain next then pure ()
            else walkChain volume visitor clusters next state
      else pure ()

/-- The loop over the fixed region of the FAT16 root directory. -/
def walkRoot (volume : FatVolume) (visitor : Bytes → FatDirectoryEntry → Walk Unit) :
    Walk Unit := do
  let _ ← walkSectors volume visitor volume.rootDirSectors.toNat volume.rootDirFirstSector .new
  pure ()

/-- The loops of `walk_directory` over a location. -/
def walkLocation (volume : FatVolume) (clusters : Nat)
    (visitor : Bytes → FatDirectoryEntry → Walk Unit) (directory : DirectoryLocation) :
    Walk Unit :=
  match directory with
  | .rootDirectory =>
      match volume.fatType with
      | .fat16 => walkRoot volume visitor
      | .fat32 => walkChain volume visitor clusters volume.rootCluster .new
  | .clusterChain cluster => walkChain volume visitor clusters cluster .new

/-- `walk_directory`. -/
def walkDirectory (volume : FatVolume) (clusters : Nat) :
    (nested : Nat) → (directory : DirectoryLocation) → (pathLen : Nat) → Walk Unit
  | 0, _, _ => Keep.throw .runsOn
  | nested + 1, directory, pathLen =>
      walkLocation volume clusters
        (visitWalkEntry
          (fun child fullPathLen => walkDirectory volume clusters nested child fullPathLen) pathLen)
        directory

/-- The state that a walk begins with. -/
def emptyWalk : WalkState := { path := List.replicate fatPathUtf8Bytes 0, reported := [] }

/-- `walk_files`: its result, and the calls of the visitor. -/
def walkFiles (volume : FatVolume) (clusters : Nat) : Except Halt Unit × List (Bytes × UInt32) :=
  -- each activation but the first has made the path longer
  let (result, state) :=
    walkDirectory volume clusters (fatPathUtf8Bytes + 1) .rootDirectory 0 emptyWalk
  (result, state.reported)

end RustFirmware.Fat
