/-
  RustFirmware.Fat.Records
  ────────────────────────
  **LOOKUP AND WALK SEE THE SAME RECORDS.**

  What both loops go through is one listing, `directoryRecords`: the entries that are
  neither deleted nor volume labels, each with the long name in front of it, up to the
  end of the directory.  Lookup is a search in it (`findDirectoryEntry_eq`), an
  activation of the walk visits it (`walkLocation_eq`).
-/
import RustFirmware.Fat.Directory

namespace RustFirmware.Fat

open RustFirmware.Lib
open RustFirmware.Virtio

/-! ## §1. Records. -/

/-- An entry with the long name that belongs to it. -/
structure FatRecord where
  raw      : Bytes
  longName : Option Bytes
  entry    : FatDirectoryEntry
  deriving Repr, DecidableEq

/-- What the code calls it. -/
def FatRecord.name (record : FatRecord) : Bytes := record.longName.getD (decodeShortName record.raw)

/-- The record of an entry in front of which `state` was collected. -/
def recordOf (state : LongNameState) (entry : Bytes) : Except FatError FatRecord :=
  match parseDirectoryEntry entry with
  | .error e => .error e
  | .ok directoryEntry =>
      if state.matchesEntry entry then
        state.toUtf8.map (fun name => ⟨entry, some name, directoryEntry⟩)
      else .ok ⟨entry, none, directoryEntry⟩

/-- The records of a sector from `offset` on, and the long name state behind them unless the
    directory ends there. -/
def sectorRecords (sector : Bytes) :
    (passes : Nat) → (offset : Nat) → LongNameState →
      Listing Halt FatRecord (Option LongNameState)
  | 0, _, state => pure (some state)
  | passes + 1, offset, state =>
      if offset < sector.length then
        match sectorEntry sector offset with
        | none       => .fail (.error .invalidBootSector)
        | some entry =>
            if byteAt entry 0 = 0x00 then pure none
            else if byteAt entry 0 = 0xe5 then
              sectorRecords sector passes (offset + fatDirEntrySize) .new
            else if byteAt entry 11 = fatAttributeLongName then
              sectorRecords sector passes (offset + fatDirEntrySize)
                (LongNameState.push entry state).2
            else if byteAt entry 11 &&& fatAttributeVolumeId ≠ 0 then
              sectorRecords sector passes (offset + fatDirEntrySize) .new
            else
              match recordOf state entry with
              | .error e   => .fail (.error e)
              | .ok record =>
                  .cons record (sectorRecords sector passes (offset + fatDirEntrySize) .new)
      else pure (some state)

/-- The records of consecutive sectors. -/
def sectorsRecords (volume : FatVolume) :
    (todo : Nat) → (sector : UInt32) → LongNameState →
      Listing Halt FatRecord (Option LongNameState)
  | 0, _, state => pure (some state)
  | todo + 1, sector, state =>
      match volume.readRelativeBlocks sector with
      | .error e  => .fail (.error e)
      | .ok bytes => do
          match ← sectorRecords bytes entriesPerSector 0 state with
          | some state => sectorsRecords volume todo (sector + 1) state
          | none       => pure none

/-- The records of a cluster, and with which cluster and long name state the directory goes
    on, if it does. -/
def clusterRecords (volume : FatVolume) (cluster : UInt32) (state : LongNameState) :
    Listing Halt FatRecord (Option (UInt32 × LongNameState)) :=
  match volume.clusterFirstSector cluster with
  | .error e => .fail (.error e)
  | .ok firstSector => do
      match ← sectorsRecords volume volume.sectorsPerCluster.toNat firstSector state with
      | none       => pure none
      | some state =>
          match volume.nextCluster cluster with
          | .error e => .fail (.error e)
          | .ok next => pure (if volume.isEndOfChain next then none else some (next, state))

/-- The records of a chain of clusters. -/
def chainRecords (volume : FatVolume) :
    (clusters : Nat) → (cluster : UInt32) → LongNameState → Listing Halt FatRecord Unit
  | 0, _, _ => .fail .runsOn
  | clusters + 1, cluster, state =>
      if volume.isValidCluster cluster then do
        match ← clusterRecords volume cluster state with
        | none               => pure ()
        | some (next, state) => chainRecords volume clusters next state
      else pure ()

/-- The records of the fixed region of the FAT16 root directory. -/
def rootRecords (volume : FatVolume) : Listing Halt FatRecord Unit := do
  let _ ← sectorsRecords volume volume.rootDirSectors.toNat volume.rootDirFirstSector .new
  pure ()

/-- **The records of a directory**, up to where it cannot be read. -/
def directoryRecords (volume : FatVolume) (clusters : Nat) (directory : DirectoryLocation) :
    Listing Halt FatRecord Unit :=
  match directory with
  | .rootDirectory =>
      match volume.fatType with
      | .fat16 => rootRecords volume
      | .fat32 => chainRecords volume clusters volume.rootCluster .new
  | .clusterChain cluster => chainRecords volume clusters cluster .new

/-! ## §2. What a record says. -/

/-- A record is built from the name that both loops find, or fails as that does. -/
theorem recordOf_cases (state : LongNameState) {entry : Bytes}
    {directoryEntry : FatDirectoryEntry} (hentry : parseDirectoryEntry entry = .ok directoryEntry) :
    (∃ e, state.nameOf entry = .error e ∧ recordOf state entry = .error e)
    ∨ ∃ record, state.nameOf entry = .ok record.name ∧ record.entry = directoryEntry
        ∧ recordOf state entry = .ok record := by
  unfold LongNameState.nameOf recordOf
  rw [hentry]
  dsimp only
  by_cases hlong : state.matchesEntry entry = true
  · rw [if_pos hlong, if_pos hlong]
    cases state.toUtf8 with
    | error e => exact .inl ⟨e, rfl, rfl⟩
    | ok name => exact .inr ⟨⟨entry, some name, directoryEntry⟩, rfl, rfl, rfl⟩
  · rw [if_neg hlong, if_neg hlong]
    exact .inr ⟨⟨entry, none, directoryEntry⟩, rfl, rfl, rfl⟩

theorem ended_bind {α β : Type} (result : Except FatError α) (next : α → Except FatError β) :
    ended (result >>= next) = (ended result >>= fun a => ended (next a)) := by
  cases result <;> rfl

/-! ## §3. Lookup is a search. -/

/-- The test of the lookup loop. -/
def answersTo (component : Bytes) (record : FatRecord) : Bool :=
  eqIgnoreAsciiCase record.name component

/-- How a search in part of a directory ends, as the code says it. -/
def scanned : FatRecord ⊕ Option LongNameState → DirectoryScanResult × LongNameState
  | .inl record       => (.found record.entry, .new)
  | .inr none         => (.endOfDirectory, .new)
  | .inr (some state) => (.more, state)

theorem scanDirectorySector_eq (sector component : Bytes) (passes offset : Nat)
    (state : LongNameState) :
    ended (scanDirectorySector sector component passes offset state)
      = ((sectorRecords sector passes offset state).find (answersTo component)).map scanned := by
  induction passes generalizing offset state with
  | zero => rfl
  | succ passes ih =>
      unfold scanDirectorySector sectorRecords
      by_cases hmore : offset < sector.length
      case neg =>
        rw [if_neg hmore, if_neg hmore]
        rfl
      case pos =>
        rw [if_pos hmore, if_pos hmore]
        cases hentry : sectorEntry sector offset with
        | none => rfl
        | some entry =>
            obtain ⟨directoryEntry, hparse⟩ := exists_parseDirectoryEntry (sectorEntry_length hentry)
            show ended (if byteAt entry 0 = 0x00 then _ else _) = _
            dsimp only
            -- both sides test the entry in the order of the source, and every entry parses
            by_cases hend : byteAt entry 0 = 0x00
            · rw [if_pos hend, if_pos hend]
              rfl
            rw [if_neg hend, if_neg hend]
            by_cases hdeleted : byteAt entry 0 = 0xe5
            · rw [if_pos hdeleted, if_pos hdeleted, ih]
            rw [if_neg hdeleted, if_neg hdeleted]
            by_cases hlong : byteAt entry 11 = fatAttributeLongName
            · rw [if_pos hlong, if_pos hlong, ih]
            rw [if_neg hlong, if_neg hlong]
            by_cases hlabel : byteAt entry 11 &&& fatAttributeVolumeId ≠ 0
            · rw [if_pos hlabel, if_pos hlabel, ih]
            rw [if_neg hlabel, if_neg hlabel]
            obtain ⟨e, hname, hrecord⟩ | ⟨record, hname, rfl, hrecord⟩ :=
              recordOf_cases state hparse
            · rw [hname, hrecord]
              rfl
            · rw [hname, hparse, hrecord]
              dsimp only
              rw [Listing.find_cons]
              show ended (if eqIgnoreAsciiCase record.name component = true then _ else _) = _
              unfold answersTo
              by_cases hanswers : eqIgnoreAsciiCase record.name component = true
              · rw [if_pos hanswers, if_pos hanswers]
                rfl
              · rw [if_neg hanswers, if_neg hanswers, ih]
                rfl

variable {volume : FatVolume}

theorem findInSectors_eq (component : Bytes) (todo : Nat) (sector : UInt32)
    (state : LongNameState) :
    ended (findInSectors volume component todo sector state)
      = ((sectorsRecords volume todo sector state).find (answersTo component)).map scanned := by
  induction todo generalizing sector state with
  | zero => rfl
  | succ todo ih =>
      unfold findInSectors sectorsRecords
      cases volume.readRelativeBlocks sector with
      | error e => rfl
      | ok bytes =>
          show ended (scanDirectorySector bytes component entriesPerSector 0 state >>= _) = _
          dsimp only
          rw [ended_bind, scanDirectorySector_eq, Listing.find_bind]
          cases (sectorRecords bytes entriesPerSector 0 state).find (answersTo component) with
          | error halt => rfl
          | ok found =>
              rcases found with record | left
              · rfl
              · cases left with
                | none => rfl
                | some state => exact ih (sector + 1) state

/-- The result of a lookup that has been through the whole directory. -/
def lookedUp : FatRecord ⊕ Unit → Except Halt FatDirectoryEntry
  | .inl record => .ok record.entry
  | .inr _      => .error (.error .notFound)

theorem findInChain_eq (component : Bytes) (clusters : Nat) (cluster : UInt32)
    (state : LongNameState) :
    findInChain volume component clusters cluster state
      = ((chainRecords volume clusters cluster state).find (answersTo component)
          >>= lookedUp) := by
  -- the search in a cluster is a search in its records; the cluster after it is the recursion
  induction clusters generalizing cluster state with
  | zero => rfl
  | succ clusters ih =>
      unfold findInChain chainRecords
      by_cases hvalid : volume.isValidCluster cluster = true
      case neg =>
        rw [if_neg hvalid, if_neg hvalid]
        rfl
      case pos =>
        rw [if_pos hvalid, if_pos hvalid, Listing.find_bind]
        unfold clusterRecords
        cases volume.clusterFirstSector cluster with
        | error e => rfl
        | ok firstSector =>
            show (ended (findInSectors volume component volume.sectorsPerCluster.toNat firstSector
              state) >>= _) = _
            dsimp only
            rw [findInSectors_eq, Listing.find_bind]
            cases (sectorsRecords volume volume.sectorsPerCluster.toNat firstSector state).find
                (answersTo component) with
            | error halt => rfl
            | ok found =>
                rcases found with record | left
                · rfl
                · cases left with
                  | none => rfl
                  | some state =>
                      show (ended (volume.nextCluster cluster) >>= _) = _
                      cases volume.nextCluster cluster with
                      | error e => rfl
                      | ok next =>
                          show (if volume.isEndOfChain next = true then _ else _)
                            = (Listing.find (answersTo component) (pure
                                (if volume.isEndOfChain next = true then none
                                  else some (next, state))) >>= _) >>= _
                          cases volume.isEndOfChain next with
                          | true => rfl
                          | false => exact ih next state

/-- **Lookup is a search among the records.** -/
theorem findDirectoryEntry_eq (clusters : Nat) (directory : DirectoryLocation)
    (component : Bytes) :
    findDirectoryEntry volume clusters directory component
      = ((directoryRecords volume clusters directory).find (answersTo component) >>= lookedUp) := by
  unfold findDirectoryEntry directoryRecords
  cases directory with
  | clusterChain cluster => exact findInChain_eq component clusters cluster .new
  | rootDirectory =>
      cases volume.fatType with
      | fat32 => exact findInChain_eq component clusters volume.rootCluster .new
      | fat16 =>
          show findInRoot volume component = (rootRecords volume).find _ >>= _
          unfold findInRoot rootRecords
          rw [findInSectors_eq, Listing.find_bind]
          cases (sectorsRecords volume volume.rootDirSectors.toNat volume.rootDirFirstSector
              .new).find (answersTo component) with
          | error halt => rfl
          | ok found =>
              rcases found with record | left
              · rfl
              · cases left <;> rfl

/-! ## §4. The walk visits. -/

section Visit

variable (visitor : Bytes → FatDirectoryEntry → Walk Unit)

/-- The visitor on a record. -/
def visitRecord (record : FatRecord) : Walk Unit := visitor record.name record.entry

/-- Whether the directory ended, and the long name state, as the code says it. -/
def walked : Option LongNameState → Bool × LongNameState
  | none       => (true, .new)
  | some state => (false, state)

theorem scanDirectorySectorEntries_eq (sector : Bytes) (passes offset : Nat)
    (state : LongNameState) :
    scanDirectorySectorEntries sector visitor passes offset state
      = ((sectorRecords sector passes offset state).visitAll (visitRecord visitor)
          >>= fun left => pure (walked left)) := by
  induction passes generalizing offset state with
  | zero => rfl
  | succ passes ih =>
      unfold scanDirectorySectorEntries sectorRecords
      by_cases hmore : offset < sector.length
      case neg =>
        rw [if_neg hmore, if_neg hmore]
        rfl
      case pos =>
        rw [if_pos hmore, if_pos hmore]
        cases hentry : sectorEntry sector offset with
        | none => rfl
        | some entry =>
            obtain ⟨directoryEntry, hparse⟩ := exists_parseDirectoryEntry (sectorEntry_length hentry)
            show (if byteAt entry 0 = 0x00 then _ else _) = _
            dsimp only
            -- the walk and the search test an entry in the same order, and the records stand for both
            by_cases hend : byteAt entry 0 = 0x00
            · rw [if_pos hend, if_pos hend]
              rfl
            rw [if_neg hend, if_neg hend]
            by_cases hdeleted : byteAt entry 0 = 0xe5
            · rw [if_pos hdeleted, if_pos hdeleted, ih]
            rw [if_neg hdeleted, if_neg hdeleted]
            by_cases hlong : byteAt entry 11 = fatAttributeLongName
            · rw [if_pos hlong, if_pos hlong, ih]
            rw [if_neg hlong, if_neg hlong]
            by_cases hlabel : byteAt entry 11 &&& fatAttributeVolumeId ≠ 0
            · rw [if_pos hlabel, if_pos hlabel, ih]
            rw [if_neg hlabel, if_neg hlabel, hparse]
            obtain ⟨e, hname, hrecord⟩ | ⟨record, hname, rfl, hrecord⟩ :=
              recordOf_cases state hparse
            · rw [hname, hrecord]
              rfl
            · rw [hname, hrecord]
              dsimp only
              rw [Listing.visitAll_cons, bind_assoc, ← ih]
              rfl

theorem walkSectors_eq (todo : Nat) (sector : UInt32) (state : LongNameState) :
    walkSectors volume visitor todo sector state
      = ((sectorsRecords volume todo sector state).visitAll (visitRecord visitor)
          >>= fun left => pure (walked left)) := by
  induction todo generalizing sector state with
  | zero => rfl
  | succ todo ih =>
      unfold walkSectors sectorsRecords
      cases volume.readRelativeBlocks sector with
      | error e => rfl
      | ok bytes =>
          show (scanDirectorySectorEntries bytes visitor entriesPerSector 0 state >>= _) = _
          dsimp only
          rw [scanDirectorySectorEntries_eq, Listing.visitAll_bind, bind_assoc, bind_assoc]
          congr 1
          funext left
          cases left with
          | none => rfl
          | some state => exact ih (sector + 1) state

theorem walkChain_eq (clusters : Nat) (cluster : UInt32) (state : LongNameState) :
    walkChain volume visitor clusters cluster state
      = (chainRecords volume clusters cluster state).visitAll (visitRecord visitor) := by
  induction clusters generalizing cluster state with
  | zero => rfl
  | succ clusters ih =>
      unfold walkChain chainRecords
      by_cases hvalid : volume.isValidCluster cluster = true
      case neg =>
        rw [if_neg hvalid, if_neg hvalid]
        rfl
      case pos =>
        rw [if_pos hvalid, if_pos hvalid, Listing.visitAll_bind]
        unfold clusterRecords
        cases volume.clusterFirstSector cluster with
        | error e => rfl
        | ok firstSector =>
            show (walkSectors volume visitor volume.sectorsPerCluster.toNat firstSector state
              >>= _) = _
            dsimp only
            rw [walkSectors_eq, Listing.visitAll_bind, bind_assoc, bind_assoc]
            congr 1
            funext left
            cases left with
            | none => rfl
            | some state =>
                show (Keep.lift (ended (volume.nextCluster cluster)) >>= _) = _
                dsimp only
                cases volume.nextCluster cluster with
                | error e => rfl
                | ok next =>
                    show (if volume.isEndOfChain next = true then _ else _)
                      = (Listing.visitAll (visitRecord visitor) (pure
                          (if volume.isEndOfChain next = true then none
                            else some (next, state))) >>= _)
                    cases volume.isEndOfChain next with
                    | true => rfl
                    | false => exact ih next state

/-- **An activation of the walk visits the records.** -/
theorem walkLocation_eq (clusters : Nat) (directory : DirectoryLocation) :
    walkLocation volume clusters visitor directory
      = (directoryRecords volume clusters directory).visitAll (visitRecord visitor) := by
  unfold walkLocation directoryRecords
  cases directory with
  | clusterChain cluster => exact walkChain_eq visitor clusters cluster .new
  | rootDirectory =>
      cases volume.fatType with
      | fat32 => exact walkChain_eq visitor clusters volume.rootCluster .new
      | fat16 =>
          show walkRoot volume visitor = (rootRecords volume).visitAll _
          unfold walkRoot rootRecords
          rw [walkSectors_eq, Listing.visitAll_bind, bind_assoc]
          rfl

end Visit

end RustFirmware.Fat
