/-
  RustFirmware.Fat.Stream
  ───────────────────────
  **A DIRECTORY IS A STREAM OF ENTRIES.**

  Lookup and walk go through a directory sector by sector and cluster by cluster and
  carry the long name state along.  Where the boundaries are makes no difference: the
  records of a directory are those of its entries in a row (`directoryRecords_eq`), and
  how its sectors can be read matters only if no entry ends it before.
-/
import RustFirmware.Fat.Records
import RustFirmware.Fat.LongNames

namespace RustFirmware.Fat

open RustFirmware.Lib
open RustFirmware.Virtio

/-! ## §1. The entries of a directory. -/

/-- The first `count` entries in the bytes. -/
def entriesOf : (count : Nat) → (bytes : Bytes) → List Bytes
  | 0, _ => []
  | count + 1, bytes => bytes.take fatDirEntrySize :: entriesOf count (bytes.drop fatDirEntrySize)

/-- The entries of consecutive sectors. -/
def sectorsEntries (volume : FatVolume) : (todo : Nat) → (sector : UInt32) → Listing Halt Bytes Unit
  | 0, _ => pure ()
  | todo + 1, sector =>
      match volume.readRelativeBlocks sector with
      | .error e  => .fail (.error e)
      | .ok bytes => do
          let _ ← (⟨entriesOf entriesPerSector bytes, .ok ()⟩ : Listing Halt Bytes Unit)
          sectorsEntries volume todo (sector + 1)

/-- The entries of a cluster, and the cluster behind it if there is one. -/
def clusterEntries (volume : FatVolume) (cluster : UInt32) : Listing Halt Bytes (Option UInt32) :=
  match volume.clusterFirstSector cluster with
  | .error e => .fail (.error e)
  | .ok firstSector => do
      sectorsEntries volume volume.sectorsPerCluster.toNat firstSector
      match volume.nextCluster cluster with
      | .error e => .fail (.error e)
      | .ok next => pure (if volume.isEndOfChain next then none else some next)

/-- The entries of a chain of clusters. -/
def chainEntries (volume : FatVolume) : (clusters : Nat) → (cluster : UInt32) → Listing Halt Bytes Unit
  | 0, _ => .fail .runsOn
  | clusters + 1, cluster =>
      if volume.isValidCluster cluster then do
        match ← clusterEntries volume cluster with
        | none      => pure ()
        | some next => chainEntries volume clusters next
      else pure ()

/-- **The entries of a directory**, behind its end as well, and how its chain ends. -/
def directoryEntries (volume : FatVolume) (clusters : Nat) (directory : DirectoryLocation) :
    Listing Halt Bytes Unit :=
  match directory with
  | .rootDirectory =>
      match volume.fatType with
      | .fat16 => sectorsEntries volume volume.rootDirSectors.toNat volume.rootDirFirstSector
      | .fat32 => chainEntries volume clusters volume.rootCluster
  | .clusterChain cluster => chainEntries volume clusters cluster

/-- An entry that is reported: not deleted, no piece of a long name and no volume label. -/
def IsRegular (entry : Bytes) : Prop :=
  byteAt entry 0 ≠ 0xe5 ∧ byteAt entry 11 ≠ fatAttributeLongName
    ∧ byteAt entry 11 &&& fatAttributeVolumeId = 0

instance (entry : Bytes) : Decidable (IsRegular entry) := by
  unfold IsRegular
  infer_instance

/-- The records of entries in a row, and the long name state behind them unless one of them
    ends the directory. -/
def entriesRecords : (entries : List Bytes) → LongNameState →
    Listing Halt FatRecord (Option LongNameState)
  | [], state => pure (some state)
  | entry :: entries, state =>
      if byteAt entry 0 = 0x00 then pure none
      else if IsRegular entry then
        match recordOf state entry with
        | .error e   => .fail (.error e)
        | .ok record => .cons record (entriesRecords entries (state.after entry))
      else entriesRecords entries (state.after entry)

/-- The records of a stream of entries: what follows the stream if it is not ended by one of
    its entries. -/
def streamRecords {α : Type} (stream : Listing Halt Bytes α) (state : LongNameState) :
    Listing Halt FatRecord (Option (α × LongNameState)) := do
  match ← entriesRecords stream.items state with
  | none       => pure none
  | some state =>
      match stream.ending with
      | .error halt => .fail halt
      | .ok a       => pure (some (a, state))

/-! ## §2. The records of entries in a row. -/

theorem LongNameState.after_of_not {state : LongNameState} {entry : Bytes}
    (h : ¬ (byteAt entry 0 ≠ 0xe5 ∧ byteAt entry 11 = fatAttributeLongName)) :
    state.after entry = .new := if_neg h

theorem entriesRecords_cons (entry : Bytes) (entries : List Bytes) (state : LongNameState) :
    entriesRecords (entry :: entries) state
      = if byteAt entry 0 = 0x00 then pure none
        else if IsRegular entry then
          match recordOf state entry with
          | .error e   => .fail (.error e)
          | .ok record => .cons record (entriesRecords entries (state.after entry))
        else entriesRecords entries (state.after entry) := rfl

theorem entriesRecords_append (before rest : List Bytes) (state : LongNameState) :
    entriesRecords (before ++ rest) state = (do
      match ← entriesRecords before state with
      | none       => pure none
      | some state => entriesRecords rest state) := by
  induction before generalizing state with
  | nil => rfl
  | cons entry before ih =>
      rw [List.cons_append, entriesRecords_cons, entriesRecords_cons]
      by_cases hend : byteAt entry 0 = 0x00
      · rw [if_pos hend, if_pos hend]
        rfl
      rw [if_neg hend, if_neg hend]
      by_cases hregular : IsRegular entry
      · rw [if_pos hregular, if_pos hregular]
        cases recordOf state entry with
        | error e => rfl
        | ok record =>
            dsimp only
            rw [ih, Listing.cons_bind]
      · rw [if_neg hregular, if_neg hregular, ih]

/-- One stream behind another. -/
theorem streamRecords_bind {α β : Type} (first : Listing Halt Bytes α)
    (next : α → Listing Halt Bytes β) (state : LongNameState) :
    streamRecords (first >>= next) state = (do
      match ← streamRecords first state with
      | none            => pure none
      | some (a, state) => streamRecords (next a) state) := by
  cases hending : first.ending with
  | error halt =>
      rw [Listing.bind_error hending]
      unfold streamRecords
      rw [hending, bind_assoc]
      congr 1
      funext left
      cases left <;> rfl
  | ok a =>
      rw [Listing.bind_ok hending]
      unfold streamRecords
      rw [hending, entriesRecords_append, bind_assoc, bind_assoc]
      congr 1
      funext left
      cases left <;> rfl

/-- A stream of some entries. -/
theorem streamRecords_entries (entries : List Bytes) (state : LongNameState) :
    streamRecords (⟨entries, .ok ()⟩ : Listing Halt Bytes Unit) state = (do
      match ← entriesRecords entries state with
      | none       => pure none
      | some state => pure (some ((), state))) := rfl

/-! ## §3. Sectors and clusters. -/

theorem sectorRecords_eq {sector : Bytes} {passes offset : Nat} (state : LongNameState)
    (h : offset + fatDirEntrySize * passes ≤ sector.length) :
    sectorRecords sector passes offset state
      = entriesRecords (entriesOf passes (sector.drop offset)) state := by
  induction passes generalizing offset state with
  | zero => rfl
  | succ passes ih =>
      rw [Nat.mul_succ] at h
      have hpos : 0 < fatDirEntrySize := by decide
      have hentry : sectorEntry sector offset = some ((sector.drop offset).take fatDirEntrySize) := by
        unfold sectorEntry slice?
        rw [if_pos ⟨Nat.le_add_right _ _, by omega⟩, Nat.add_sub_cancel_left]
      have hrest : (sector.drop offset).drop fatDirEntrySize = sector.drop (offset + fatDirEntrySize) :=
        List.drop_drop
      unfold sectorRecords entriesOf
      rw [if_pos (by omega), hentry, entriesRecords_cons, hrest]
      generalize (sector.drop offset).take fatDirEntrySize = entry
      have hnext : ∀ state, sectorRecords sector passes (offset + fatDirEntrySize) state
          = entriesRecords (entriesOf passes (sector.drop (offset + fatDirEntrySize))) state :=
        fun state => ih state (by omega)
      dsimp only
      -- both sides test the entry in the order of the source
      by_cases hend : byteAt entry 0 = 0x00
      · rw [if_pos hend, if_pos hend]
      rw [if_neg hend, if_neg hend]
      by_cases hdeleted : byteAt entry 0 = 0xe5
      · rw [if_pos hdeleted, if_neg (fun h => h.1 hdeleted), hnext,
          LongNameState.after_of_not (fun h => h.1 hdeleted)]
      rw [if_neg hdeleted]
      by_cases hlong : byteAt entry 11 = fatAttributeLongName
      · have hafter : state.after entry = (LongNameState.push entry state).2 := if_pos ⟨hdeleted, hlong⟩
        rw [if_pos hlong, if_neg (fun h => h.2.1 hlong), hnext, hafter]
      rw [if_neg hlong, LongNameState.after_of_not (fun h => hlong h.2)]
      by_cases hlabel : byteAt entry 11 &&& fatAttributeVolumeId ≠ 0
      · rw [if_pos hlabel, if_neg (fun h => hlabel h.2.2), hnext]
      · cases recordOf state entry <;>
          rw [if_neg hlabel, if_pos ⟨hdeleted, hlong, not_not.mp hlabel⟩, hnext]

variable {volume : FatVolume}

theorem readRelativeBlocks_length {sector : UInt32} {bytes : Bytes}
    (h : volume.readRelativeBlocks sector = .ok bytes) : bytes.length = virtioSectorSize := by
  unfold FatVolume.readRelativeBlocks at h
  cases hread : volume.device.readBlocks
      (volume.partitionStartLba + sector.toUInt64).toNat 1 with
  | error e =>
      rw [hread] at h
      cases h
  | ok bytes' =>
      rw [hread] at h
      cases h
      rw [volume.device.readBlocks_ok hread, BlockDevice.sectors_length, Nat.mul_one]

/-- What is left of a part of a directory, without the location behind it. -/
def stateLeft {α : Type} (left : Option (α × LongNameState)) : Option LongNameState :=
  left.map Prod.snd

theorem sectorsRecords_eq (todo : Nat) (sector : UInt32) (state : LongNameState) :
    sectorsRecords volume todo sector state = (do
      let left ← streamRecords (sectorsEntries volume todo sector) state
      pure (stateLeft left)) := by
  induction todo generalizing sector state with
  | zero => rfl
  | succ todo ih =>
      unfold sectorsRecords sectorsEntries
      cases hread : volume.readRelativeBlocks sector with
      | error e => rfl
      | ok bytes =>
          have hlength := readRelativeBlocks_length hread
          dsimp only
          rw [sectorRecords_eq state (by rw [hlength]; decide), List.drop_zero, streamRecords_bind,
            streamRecords_entries, bind_assoc, bind_assoc]
          congr 1
          funext left
          cases left with
          | none => rfl
          | some state =>
              show sectorsRecords volume todo (sector + 1) state = _
              rw [ih]
              rfl

theorem clusterRecords_eq (cluster : UInt32) (state : LongNameState) :
    clusterRecords volume cluster state = (do
      match ← streamRecords (clusterEntries volume cluster) state with
      | none                    => pure none
      | some (none, _)          => pure none
      | some (some next, state) => pure (some (next, state))) := by
  unfold clusterRecords clusterEntries
  cases volume.clusterFirstSector cluster with
  | error e => rfl
  | ok firstSector =>
      dsimp only
      rw [sectorsRecords_eq, streamRecords_bind, bind_assoc, bind_assoc]
      congr 1
      funext left
      cases left with
      | none => rfl
      | some left =>
          obtain ⟨_, state⟩ := left
          show (match volume.nextCluster cluster with
            | .error e => (Listing.fail (Halt.error e) : Listing Halt FatRecord _)
            | .ok next => pure (if volume.isEndOfChain next then none else some (next, state))) = _
          cases volume.nextCluster cluster with
          | error e => rfl
          | ok next =>
              dsimp only
              cases volume.isEndOfChain next <;> rfl

theorem chainRecords_eq (clusters : Nat) (cluster : UInt32) (state : LongNameState) :
    chainRecords volume clusters cluster state = (do
      let _ ← streamRecords (chainEntries volume clusters cluster) state
      pure ()) := by
  -- the state of the long name goes on from cluster to cluster, so it is generalized
  induction clusters generalizing cluster state with
  | zero => rfl
  | succ clusters ih =>
      unfold chainRecords chainEntries
      by_cases hvalid : volume.isValidCluster cluster = true
      case neg =>
        rw [if_neg hvalid, if_neg hvalid]
        rfl
      case pos =>
        rw [if_pos hvalid, if_pos hvalid, clusterRecords_eq, streamRecords_bind, bind_assoc, bind_assoc]
        congr 1
        funext left
        cases left with
        | none => rfl
        | some left =>
            obtain ⟨next, state⟩ := left
            cases next with
            | none => rfl
            | some next => exact ih next state

/-- **The records of a directory are those of its entries.** -/
theorem directoryRecords_eq (clusters : Nat) (directory : DirectoryLocation) :
    directoryRecords volume clusters directory = (do
      let _ ← streamRecords (directoryEntries volume clusters directory) .new
      pure ()) := by
  unfold directoryRecords directoryEntries
  cases directory with
  | clusterChain cluster => exact chainRecords_eq clusters cluster .new
  | rootDirectory =>
      cases volume.fatType with
      | fat32 => exact chainRecords_eq clusters volume.rootCluster .new
      | fat16 =>
          show rootRecords volume = _
          unfold rootRecords
          rw [sectorsRecords_eq, bind_assoc]
          rfl

/-! ## §4. Lookup in a stream. -/

/-- The records of a whole directory, from its entries and how they can be read. -/
def recordsIn (stream : Listing Halt Bytes Unit) : Listing Halt FatRecord Unit := do
  let _ ← streamRecords stream .new
  pure ()

theorem entriesRecords_cons_left {entry : Bytes} {entries : List Bytes} {state left : LongNameState}
    (h : (entriesRecords (entry :: entries) state).ending = .ok (some left)) :
    byteAt entry 0 ≠ 0x00 ∧ (entriesRecords entries (state.after entry)).ending = .ok (some left) := by
  rw [entriesRecords_cons] at h
  by_cases hend : byteAt entry 0 = 0x00
  · rw [if_pos hend] at h
    cases h
  rw [if_neg hend] at h
  refine ⟨hend, ?_⟩
  by_cases hregular : IsRegular entry
  · rw [if_pos hregular] at h
    cases hrecord : recordOf state entry with
    | error e =>
        rw [hrecord] at h
        cases h
    | ok record =>
        rw [hrecord] at h
        exact h
  · rw [if_neg hregular] at h
    exact h

/-- A scan that gets behind some entries has collected what they leave, and none of them ends
    the directory. -/
theorem entriesRecords_left {entries : List Bytes} {state left : LongNameState}
    (h : (entriesRecords entries state).ending = .ok (some left)) :
    left = entries.foldl LongNameState.after state ∧ ∀ entry ∈ entries, byteAt entry 0 ≠ 0x00 := by
  induction entries generalizing state with
  | nil =>
      cases h
      exact ⟨rfl, fun entry hentry => absurd hentry List.not_mem_nil⟩
  | cons entry entries ih =>
      obtain ⟨hend, hrest⟩ := entriesRecords_cons_left h
      obtain ⟨hleft, hentries⟩ := ih hrest
      exact ⟨hleft, List.forall_mem_cons.mpr ⟨hend, hentries⟩⟩

theorem recordsIn_congr {stream stream' : Listing Halt Bytes Unit} (hitems : stream'.items = stream.items)
    (hending : stream'.ending = stream.ending ∨ ∃ entry ∈ stream.items, byteAt entry 0 = 0x00) :
    recordsIn stream' = recordsIn stream := by
  obtain hending | ⟨entry, hentry, hend⟩ := hending
  · obtain ⟨items, ending⟩ := stream
    obtain ⟨items', ending'⟩ := stream'
    cases hitems
    cases hending
    rfl
  · unfold recordsIn streamRecords
    rw [hitems]
    cases hleft : (entriesRecords stream.items .new).ending with
    | error halt =>
        rw [Listing.bind_error hleft, Listing.bind_error hleft]
    | ok left =>
        cases left with
        | none =>
            rw [Listing.bind_ok hleft, Listing.bind_ok hleft]
        | some state => exact absurd hend ((entriesRecords_left hleft).2 entry hentry)

/-- **Lookup finds the first entry that an enumeration of the directory reports under the
    name, and what it finds depends on the entries only.** -/
theorem findDirectoryEntry_first_reported (volume : FatVolume) (clusters : Nat)
    (directory : DirectoryLocation) :
    (∃ reported : Listing Halt (Bytes × FatDirectoryEntry) Unit,
      (∀ visitor, walkLocation volume clusters visitor directory
        = reported.visitAll (fun (name, entry) => visitor name entry))
      ∧ ∀ component, findDirectoryEntry volume clusters directory component
        = match reported.items.find? (fun (name, _) => eqIgnoreAsciiCase name component) with
          | some (_, entry) => .ok entry
          | none            =>
              match reported.ending with
              | .ok _       => .error (.error .notFound)
              | .error halt => .error halt)
    ∧ ∀ (volume' : FatVolume) (clusters' : Nat) (directory' : DirectoryLocation),
        (directoryEntries volume' clusters' directory').items
          = (directoryEntries volume clusters directory).items →
        (directoryEntries volume' clusters' directory').ending
            = (directoryEntries volume clusters directory).ending
          ∨ (∃ entry ∈ (directoryEntries volume clusters directory).items, byteAt entry 0 = 0x00) →
        ∀ component, findDirectoryEntry volume' clusters' directory' component
          = findDirectoryEntry volume clusters directory component := by
  constructor
  · refine ⟨⟨(directoryRecords volume clusters directory).items.map (fun record => (record.name, record.entry)),
      (directoryRecords volume clusters directory).ending⟩, fun visitor => ?_, fun component => ?_⟩
    · rw [walkLocation_eq]
      show Listing.visitAll _ _ = (do
        Keep.visitAll _ ((directoryRecords volume clusters directory).items.map _)
        _)
      rw [Keep.visitAll_map]
      rfl
    · -- the reported names are those of the records
      have hfind : ((directoryRecords volume clusters directory).items.map
            (fun record => (record.name, record.entry))).find?
            (fun (name, _) => eqIgnoreAsciiCase name component)
          = ((directoryRecords volume clusters directory).items.find? (answersTo component)).map
            (fun record => (record.name, record.entry)) := List.find?_map
      rw [findDirectoryEntry_eq, hfind]
      unfold Listing.find
      cases (directoryRecords volume clusters directory).items.find? (answersTo component) with
      | some record => rfl
      | none => cases (directoryRecords volume clusters directory).ending <;> rfl
  · intro volume' clusters' directory' hitems hending component
    have hrecords : directoryRecords volume' clusters' directory'
        = directoryRecords volume clusters directory := by
      rw [directoryRecords_eq, directoryRecords_eq]
      exact recordsIn_congr hitems hending
    rw [findDirectoryEntry_eq, findDirectoryEntry_eq, hrecords]

/-! ## §5. Long names in a stream. -/

/-- **A long name is attached exactly if it stands right in front of the entry, and it is
    decoded as it was encoded.** -/
theorem scanned_long_name {before : List Bytes} {state : LongNameState}
    (harrives : (entriesRecords before .new).ending = .ok (some state)) (entry : Bytes) :
    (state.matchesEntry entry = true
      ↔ ∃ earlier longs, before = earlier ++ longs ∧ NamesEntry longs entry)
    ∧ ∀ earlier longs name, before = earlier ++ longs → NamesEntry longs entry →
        EncodesName longs (utf16 name) → 0x0000 ∉ utf16 name → 0xffff ∉ utf16 name →
        state.toUtf8 = .ok (utf8 name) := by
  obtain ⟨rfl, -⟩ := entriesRecords_left harrives
  refine ⟨LongNameState.matchesEntry_iff before entry, ?_⟩
  intro earlier longs name hbefore hnames hencodes hzero hones
  rw [hbefore, List.foldl_append]
  exact LongNameState.toUtf8_of_encodes hnames hencodes hzero hones _

/-- A piece of a long name with these code units. -/
def pieceBytes (first checksum : UInt8) (units : List UInt16) : Bytes :=
  let bytes := units.flatMap (fun unit => leBytes 2 unit.toNat)
  [first] ++ bytes.take 10 ++ [fatAttributeLongName, 0, checksum] ++ (bytes.drop 10).take 12
    ++ [0, 0] ++ (bytes.drop 22).take 4

/-- A short entry without anything but its name. -/
def namedEntry (name : Bytes) : Bytes := name ++ List.replicate 21 0

/-- The short entry `A.TXT`. -/
def shortEntry : Bytes := namedEntry (ascii "A       TXT")

/-- The only piece of the long name `a!` of `shortEntry`. -/
def longEntry : Bytes :=
  pieceBytes 0x41 (shortNameChecksum (ascii "A       TXT"))
    (utf16 ['a', '!'] ++ vfatPadding 2)

theorem longEntry_names : NamesEntry [longEntry] shortEntry where
  left := by decide
  right := ⟨by decide, rfl, fun i entry hi => by
    cases i with
    | zero =>
        cases hi
        exact ⟨by decide, by decide, by decide, by decide, by decide⟩
    | succ i => cases hi⟩

theorem scanned_long_name_example :
    ([longEntry].foldl LongNameState.after .new).matchesEntry shortEntry = true
      ∧ ([longEntry].foldl LongNameState.after .new).toUtf8 = .ok (ascii "a!") := by
  have h := @scanned_long_name [longEntry] ([longEntry].foldl LongNameState.after .new) rfl shortEntry
  exact ⟨h.1.mpr ⟨[], [longEntry], rfl, longEntry_names⟩,
    h.2 [] [longEntry] ['a', '!'] rfl longEntry_names rfl (by decide) (by decide)⟩

end RustFirmware.Fat
