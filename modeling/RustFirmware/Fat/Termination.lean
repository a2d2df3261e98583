/-
  RustFirmware.Fat.Termination
  ────────────────────────────
  **WHICH VOLUMES THE LOOPS OVER A DIRECTORY COME TO AN END ON.**

  Nothing counts the clusters of a directory.  `nextPass` is what one pass of the cluster
  loop hands to the next; since there are only so many clusters and long name states, the
  loops end if and only if these passes never come back to where they have been
  (`directories_end_iff`).
-/
import RustFirmware.Fat.Records
import RustFirmware.Lib.Cycle

namespace RustFirmware.Fat

open RustFirmware.Lib
open RustFirmware.Virtio

variable {volume : FatVolume}

/-! ## §1. One pass of the cluster loop. -/

/-- The cluster and the long name state that the pass over a cluster goes on with: none if
    the cluster is not valid, cannot be read, ends the directory or is the last one. -/
def nextPass (volume : FatVolume) :
    UInt32 × LongNameState → Option (UInt32 × LongNameState) := fun (cluster, state) =>
  if volume.isValidCluster cluster then
    match (clusterRecords volume cluster state).ending with
    | .ok follow => follow
    | .error _   => none
  else none

/-- A result that is not an exhausted allowance. -/
def Ends {α : Type} (result : Except Halt α) : Prop := result ≠ .error .runsOn

theorem ends_error {α : Type} (e : FatError) : Ends (.error (.error e) : Except Halt α) :=
  fun h => (by cases h)

theorem ends_ok {α : Type} (a : α) : Ends (.ok a : Except Halt α) := fun h => (by cases h)

/-- Part of a directory: it ends, and all names in it are short enough for their buffer. -/
def Tame {α : Type} (listing : Listing Halt FatRecord α) : Prop :=
  Ends listing.ending ∧ listing.All (fun record => record.name.length ≤ fatLongNameUtf8Bytes)

theorem tame_pure {α : Type} (a : α) : Tame (pure a : Listing Halt FatRecord α) :=
  ⟨ends_ok a, .pure a⟩

theorem tame_fail {α : Type} (e : FatError) :
    Tame (.fail (.error e) : Listing Halt FatRecord α) :=
  ⟨ends_error e, .fail _⟩

theorem Tame.bind {α β : Type} {first : Listing Halt FatRecord α}
    {next : α → Listing Halt FatRecord β} (hfirst : Tame first) (hnext : ∀ a, Tame (next a)) :
    Tame (first >>= next) := by
  refine ⟨?_, hfirst.2.bind (fun a => (hnext a).2)⟩
  cases hending : first.ending with
  | error halt =>
      have hends := hfirst.1
      rw [hending] at hends
      rw [Listing.bind_error hending]
      exact fun h => hends (by rw [Except.error.inj h])
  | ok a =>
      rw [Listing.bind_ok hending]
      exact (hnext a).1

theorem sectorRecords_tame (sector : Bytes) (passes offset : Nat) (state : LongNameState) :
    Tame (sectorRecords sector passes offset state) := by
  induction passes generalizing offset state with
  | zero => exact tame_pure _
  | succ passes ih =>
      unfold sectorRecords
      split
      · cases hentry : sectorEntry sector offset with
        | none => exact tame_fail _
        | some entry =>
            -- one case per kind of entry
            dsimp only
            split
            · exact tame_pure _
            split
            · exact ih _ _
            split
            · exact ih _ _
            split
            · exact ih _ _
            · obtain ⟨directoryEntry, hparse⟩ :=
                exists_parseDirectoryEntry (sectorEntry_length hentry)
              obtain ⟨e, -, hrecord⟩ | ⟨record, hname, -, hrecord⟩ := recordOf_cases state hparse
              · rw [hrecord]
                exact tame_fail e
              · rw [hrecord]
                have hrest := ih (offset + fatDirEntrySize) .new
                exact ⟨hrest.1, .cons (LongNameState.nameOf_length hname) hrest.2⟩
      · exact tame_pure _

theorem sectorsRecords_tame (todo : Nat) (sector : UInt32) (state : LongNameState) :
    Tame (sectorsRecords volume todo sector state) := by
  induction todo generalizing sector state with
  | zero => exact tame_pure _
  | succ todo ih =>
      unfold sectorsRecords
      cases volume.readRelativeBlocks sector with
      | error e => exact tame_fail e
      | ok bytes =>
          refine (sectorRecords_tame bytes entriesPerSector 0 state).bind (fun left => ?_)
          cases left with
          | none => exact tame_pure _
          | some state => exact ih (sector + 1) state

theorem clusterRecords_tame (cluster : UInt32) (state : LongNameState) :
    Tame (clusterRecords volume cluster state) := by
  unfold clusterRecords
  cases volume.clusterFirstSector cluster with
  | error e => exact tame_fail e
  | ok firstSector =>
      refine (sectorsRecords_tame _ firstSector state).bind (fun left => ?_)
      cases left with
      | none => exact tame_pure _
      | some state =>
          dsimp only
          cases volume.nextCluster cluster with
          | error e => exact tame_fail e
          | ok next => exact tame_pure _

/-- **A chain runs on exactly as long as there is a next pass.** -/
theorem chainRecords_ends_iff (clusters : Nat) (cluster : UInt32) (state : LongNameState) :
    Ends (chainRecords volume clusters cluster state).ending
      ↔ steps (nextPass volume) clusters (cluster, state) = none := by
  induction clusters generalizing cluster state with
  | zero => exact ⟨fun h => absurd rfl h, fun h => (by cases h)⟩
  | succ clusters ih =>
      show _ ↔ (nextPass volume (cluster, state)).bind _ = none
      unfold chainRecords nextPass
      by_cases hvalid : volume.isValidCluster cluster = true
      case neg =>
        rw [if_neg hvalid]
        dsimp only
        rw [if_neg hvalid]
        exact ⟨fun _ => rfl, fun _ => ends_ok _⟩
      case pos =>
        rw [if_pos hvalid]
        dsimp only
        rw [if_pos hvalid]
        have hends : Ends (clusterRecords volume cluster state).ending :=
          (clusterRecords_tame cluster state).1
        cases hending : (clusterRecords volume cluster state).ending with
        | error halt =>
            rw [hending] at hends
            rw [Listing.bind_error hending]
            refine ⟨fun _ => rfl, fun _ h => hends ?_⟩
            rw [Except.error.inj h]
        | ok follow =>
            rw [Listing.bind_ok hending]
            cases follow with
            | none => exact ⟨fun _ => rfl, fun _ => ends_ok _⟩
            | some pair => exact ih pair.1 pair.2

/-- A chain that ends within an allowance is the same with a larger one. -/
theorem chainRecords_mono {clusters clusters' : Nat} (hle : clusters ≤ clusters')
    {cluster : UInt32} {state : LongNameState}
    (hends : Ends (chainRecords volume clusters cluster state).ending) :
    chainRecords volume clusters' cluster state = chainRecords volume clusters cluster state := by
  induction clusters generalizing clusters' cluster state with
  | zero => exact absurd rfl hends
  | succ clusters ih =>
      obtain ⟨more, rfl⟩ := Nat.exists_eq_add_of_le hle
      rw [Nat.succ_add] at hle ⊢
      unfold chainRecords at hends ⊢
      by_cases hvalid : volume.isValidCluster cluster = true
      case neg => rw [if_neg hvalid, if_neg hvalid]
      case pos =>
        rw [if_pos hvalid] at hends
        rw [if_pos hvalid, if_pos hvalid]
        cases hending : (clusterRecords volume cluster state).ending with
        | error halt => rw [Listing.bind_error hending, Listing.bind_error hending]
        | ok follow =>
            rw [Listing.bind_ok hending] at hends
            rw [Listing.bind_ok hending, Listing.bind_ok hending]
            cases follow with
            | none => rfl
            | some pair =>
                have hrest := ih (Nat.le_add_right clusters more) hends
                dsimp only
                rw [hrest]

theorem directoryRecords_mono {clusters clusters' : Nat} (hle : clusters ≤ clusters')
    {directory : DirectoryLocation}
    (hends : Ends (directoryRecords volume clusters directory).ending) :
    directoryRecords volume clusters' directory = directoryRecords volume clusters directory := by
  unfold directoryRecords at hends ⊢
  cases directory with
  | clusterChain cluster => exact chainRecords_mono hle hends
  | rootDirectory =>
      cases hfat : volume.fatType with
      | fat16 => rfl
      | fat32 =>
          rw [hfat] at hends
          exact chainRecords_mono hle hends

/-! ## §2. Lookup and walk. -/

/-- The passes over clusters never come back to where they have been. -/
def NoCycle (volume : FatVolume) : Prop :=
  ∀ cluster, ¬ ReachesCycle (nextPass volume) (cluster, LongNameState.new)

/-- Without a cycle, as many passes as there are points are enough for every directory. -/
noncomputable def enoughClusters : Nat := Nat.card (UInt32 × LongNameState)

theorem chainRecords_ends (hnone : NoCycle volume) (cluster : UInt32) :
    Ends (chainRecords volume enoughClusters cluster .new).ending := by
  rw [chainRecords_ends_iff]
  cases hsteps : steps (nextPass volume) enoughClusters (cluster, LongNameState.new) with
  | none => rfl
  | some pair => exact absurd (reachesCycle_of_card hsteps) (hnone cluster)

theorem directoryRecords_ends (hnone : NoCycle volume) (directory : DirectoryLocation) :
    Ends (directoryRecords volume enoughClusters directory).ending := by
  unfold directoryRecords
  cases directory with
  | clusterChain cluster => exact chainRecords_ends hnone cluster
  | rootDirectory =>
      cases volume.fatType with
      | fat16 => exact ((sectorsRecords_tame _ _ _).bind (fun _ => tame_pure _)).1
      | fat32 => exact chainRecords_ends hnone volume.rootCluster

theorem findDirectoryEntry_ends (hnone : NoCycle volume) (directory : DirectoryLocation)
    (component : Bytes) :
    Ends (findDirectoryEntry volume enoughClusters directory component) := by
  rw [findDirectoryEntry_eq]
  cases hfind : (directoryRecords volume enoughClusters directory).find (answersTo component) with
  | error halt =>
      have hends : Ends (directoryRecords volume enoughClusters directory).ending :=
        directoryRecords_ends hnone directory
      rw [Listing.ending_of_find_error hfind] at hends
      -- the search fails as the listing does
      exact fun h => hends (by rw [Except.error.inj h])
  | ok found =>
      cases found with
      | inl record => exact ends_ok record.entry
      | inr u => exact ends_error .notFound

/-- **Without a cycle every path is looked up to an end**, with that many passes or more. -/
theorem findPathEntry_ends (hnone : NoCycle volume) {clusters : Nat} (hle : enoughClusters ≤ clusters)
    (path : Bytes) : Ends (findPathEntry volume clusters path) := by
  unfold findPathEntry
  generalize DirectoryLocation.rootDirectory = directory
  induction pathComponents path generalizing directory with
  | nil => exact ends_error _
  | cons component components ih =>
      unfold findComponents
      by_cases hdots : component = ascii "." ∨ component = ascii ".."
      · rw [if_pos hdots]
        exact ends_error _
      rw [if_neg hdots]
      have hmore : findDirectoryEntry volume clusters directory component
          = findDirectoryEntry volume enoughClusters directory component := by
        rw [findDirectoryEntry_eq, findDirectoryEntry_eq,
          directoryRecords_mono hle (directoryRecords_ends hnone directory)]
      have hends := findDirectoryEntry_ends hnone directory component
      rw [hmore]
      cases hfound : findDirectoryEntry volume enoughClusters directory component with
      | error halt => exact fun h => hends (by rw [hfound, Except.error.inj h])
      | ok entry =>
          show Ends (if components = [] then .ok entry
            else if entry.isDirectory = false then .error (.error .notDirectory)
            else findComponents volume clusters (.clusterChain entry.firstCluster) components)
          split_ifs
          · exact ends_ok _
          · exact ends_error _
          · exact ih _

/-- What `append_path_component` does to the shared buffer. -/
theorem Walk.append_cases (pathLen : Nat) (component : Bytes) (s : WalkState) :
    pathLen + 1 + component.length ≤ s.path.length
      ∧ Walk.append pathLen component s
          = (.ok (pathLen + 1 + component.length),
              { s with path := overwrite s.path pathLen (separator :: component) })
    ∨ Walk.append pathLen component s = (.error (.error .nameTooLong), s) := by
  unfold Walk.append appendPathComponent
  obtain ⟨hroom, happend⟩ | hlong :=
    appendComponent_cases FatError.nameTooLong separator s.path pathLen component
  · rw [happend]
    exact .inl ⟨hroom, rfl⟩
  · rw [hlong]
    exact .inr rfl

/-- **The buffer bounds the recursion**: each activation but the first has a longer path,
    so that one more of them than the buffer has bytes left is enough. -/
theorem walkDirectory_ends (hnone : NoCycle volume) (room nested : Nat)
    (directory : DirectoryLocation) (pathLen : Nat) (hnested : room < nested + pathLen)
    (hpos : 0 < nested) :
    (walkDirectory volume enoughClusters nested directory pathLen).Avoids .runsOn
      (fun s => s.path.length = room) := by
  induction nested generalizing directory pathLen with
  | zero => exact absurd hpos (Nat.lt_irrefl 0)
  | succ nested ih =>
      unfold walkDirectory
      rw [walkLocation_eq]
      refine Listing.visitAll_avoids (fun record _ => ?_) (directoryRecords_ends hnone directory)
      intro s hs
      unfold visitRecord visitWalkEntry
      by_cases hdots : record.name = ascii "." ∨ record.name = ascii ".."
      · rw [if_pos hdots]
        exact ⟨ends_ok (), hs⟩
      rw [if_neg hdots]
      obtain ⟨hroom, happend⟩ | hlong := Walk.append_cases pathLen record.name s
      case inr =>
        rw [Keep.bind_error hlong]
        exact ⟨ends_error .nameTooLong, hs⟩
      case inl =>
        rw [Keep.bind_ok happend]
        have hs' : (overwrite s.path pathLen (separator :: record.name)).length = room := by
          rw [overwrite_length (appendComponent_fits hroom), hs]
        by_cases hdir : record.entry.isDirectory = true
        · rw [if_pos hdir]
          exact ih _ _ (by omega) (by omega) _ hs'
        · rw [if_neg hdir]
          exact ⟨ends_ok (), hs'⟩

/-! ## §3. Around a cycle. -/

theorem chainRecords_short (clusters : Nat) (cluster : UInt32) (state : LongNameState) :
    (chainRecords volume clusters cluster state).All
      (fun record => record.name.length ≤ fatLongNameUtf8Bytes) := by
  induction clusters generalizing cluster state with
  | zero => exact .fail _
  | succ clusters ih =>
      unfold chainRecords
      split
      · refine (clusterRecords_tame cluster state).2.bind (fun follow => ?_)
        cases follow with
        | none => exact .pure _
        | some pair => exact ih pair.1 pair.2
      · exact .pure _

/-- A component that is longer than any name. -/
def longComponent : Bytes := List.replicate (fatLongNameUtf8Bytes + 1) 0

theorem answersTo_longComponent {record : FatRecord}
    (h : record.name.length ≤ fatLongNameUtf8Bytes) : answersTo longComponent record = false := by
  unfold answersTo eqIgnoreAsciiCase
  rw [beq_eq_false_iff_ne]
  intro hsame
  have hlength := congrArg List.length hsame
  rw [List.length_map, List.length_map, longComponent, List.length_replicate] at hlength
  omega

/-- **A cycle is never left**, unless the component is found on it. -/
theorem findDirectoryEntry_runsOn {cluster : UInt32}
    (hcycle : ReachesCycle (nextPass volume) (cluster, LongNameState.new)) (clusters : Nat) :
    findDirectoryEntry volume clusters (.clusterChain cluster) longComponent
      = .error .runsOn := by
  have hending : (chainRecords volume clusters cluster .new).ending = .error .runsOn := by
    by_contra hends
    obtain ⟨pair, hpair⟩ := hcycle.endless clusters
    rw [(chainRecords_ends_iff clusters cluster .new).mp hends] at hpair
    cases hpair
  rw [findDirectoryEntry_eq]
  show (chainRecords volume clusters cluster .new).find _ >>= _ = _
  rw [Listing.find_of_none (fun record hrecord =>
    answersTo_longComponent (chainRecords_short clusters cluster .new record hrecord)), hending]
  rfl

/-- The next cluster of a chain, as the FAT has it. -/
def nextInChain (volume : FatVolume) (cluster : UInt32) : Option UInt32 :=
  match volume.nextCluster cluster with
  | .ok next => if volume.isEndOfChain next then none else some next
  | .error _ => none

/-- A pass goes on with the next cluster of the chain. -/
theorem nextInChain_of_nextPass {point follow : UInt32 × LongNameState}
    (h : nextPass volume point = some follow) : nextInChain volume point.1 = some follow.1 := by
  unfold nextPass at h
  dsimp only at h
  split at h
  case isFalse => cases h
  case isTrue =>
    cases hending : (clusterRecords volume point.1 point.2).ending with
    | error halt =>
        rw [hending] at h
        cases h
    | ok result =>
        rw [hending] at h
        obtain rfl : result = some follow := h
        unfold clusterRecords at hending
        cases hfirst : volume.clusterFirstSector point.1 with
        | error e =>
            rw [hfirst] at hending
            cases hending
        | ok firstSector =>
            rw [hfirst] at hending
            dsimp only at hending
            cases hsectors : (sectorsRecords volume volume.sectorsPerCluster.toNat firstSector
                point.2).ending with
            | error halt =>
                rw [Listing.bind_error hsectors] at hending
                cases hending
            | ok left =>
                rw [Listing.bind_ok hsectors] at hending
                cases left with
                | none => cases hending
                | some state =>
                    unfold nextInChain
                    cases hnext : volume.nextCluster point.1 with
                    | error e =>
                        rw [hnext] at hending
                        cases hending
                    | ok next =>
                        rw [hnext] at hending
                        dsimp only at hending ⊢
                        cases hlast : volume.isEndOfChain next with
                        | true =>
                            rw [hlast] at hending
                            cases hending
                        | false =>
                            rw [hlast] at hending
                            cases hending
                            rfl

/-- **Where the FAT has no cyclic chain, there is no cycle.** -/
theorem noCycle_of_chains (h : ∀ cluster, ¬ ReachesCycle (nextInChain volume) cluster) :
    NoCycle volume := by
  intro cluster hcycle
  exact h cluster (hcycle.map (fun _ _ => nextInChain_of_nextPass))

/-! ## §4. Lookup and walk end if and only if there is no cycle. -/

/-- **Lookup and walk end on every directory location of a volume, for every component and
    from every state of the walk, if and only if the passes over clusters have no cycle.** -/
theorem directories_end_iff (volume : FatVolume) :
    ((∀ directory component, ∃ clusters,
        findDirectoryEntry volume clusters directory component ≠ .error .runsOn)
      ∧ (∀ directory pathLen s, ∃ clusters nested,
        (walkDirectory volume clusters nested directory pathLen s).1 ≠ .error .runsOn))
    ↔ NoCycle volume := by
  constructor
  · rintro ⟨hfind, -⟩ cluster hcycle
    obtain ⟨clusters, hends⟩ := hfind (.clusterChain cluster) longComponent
    exact hends (findDirectoryEntry_runsOn hcycle clusters)
  · intro hnone
    constructor
    · intro directory component
      exact ⟨enoughClusters, findDirectoryEntry_ends hnone directory component⟩
    · intro directory pathLen s
      refine ⟨enoughClusters, s.path.length + 1, ?_⟩
      exact (walkDirectory_ends hnone s.path.length (s.path.length + 1) directory pathLen
        (by omega) (Nat.succ_pos _) s rfl).1

/-- A directory of deleted entries in cluster 2, which the FAT makes its own successor. -/
def cyclicContents (lba : Nat) : Bytes :=
  if lba = 1 then List.replicate 4 0 ++ leBytes 2 2
  else if lba = 22 then List.replicate virtioSectorSize 0xe5
  else []

def cyclicVolume : FatVolume := fat16Volume cyclicContents

set_option maxRecDepth 20000 in
theorem cyclicVolume_cluster :
    (clusterRecords cyclicVolume 2 .new).items = []
    ∧ (clusterRecords cyclicVolume 2 .new).ending = .ok (some (2, .new)) := by
  constructor
  · decide +kernel
  · decide +kernel

/-- However many clusters are gone through, there is neither a record nor an end. -/
theorem cyclicVolume_chain (clusters : Nat) :
    (chainRecords cyclicVolume clusters 2 .new).items = []
    ∧ (chainRecords cyclicVolume clusters 2 .new).ending = .error .runsOn := by
  induction clusters with
  | zero => exact ⟨rfl, rfl⟩
  | succ clusters ih =>
      have hvalid : cyclicVolume.isValidCluster 2 = true := by decide
      obtain ⟨hitems, hending⟩ := cyclicVolume_cluster
      unfold chainRecords
      rw [if_pos hvalid, Listing.bind_ok hending, hitems]
      exact ih

/-- **The chain that never ends**: both loops go around for ever. -/
theorem cyclicVolume_runsOn :
    FatVolume.new (fat16Device cyclicContents) 0 = .ok cyclicVolume
    ∧ (∀ clusters component,
        findDirectoryEntry cyclicVolume clusters (.clusterChain 2) component = .error .runsOn)
    ∧ (∀ clusters nested,
        (walkDirectory cyclicVolume clusters nested (.clusterChain 2) 0 emptyWalk).1
          = .error .runsOn) := by
  refine ⟨new_fat16Device cyclicContents, fun clusters component => ?_, fun clusters nested => ?_⟩
  · obtain ⟨hitems, hending⟩ := cyclicVolume_chain clusters
    rw [findDirectoryEntry_eq]
    show (chainRecords cyclicVolume clusters 2 .new).find _ >>= _ = _
    rw [Listing.find_of_none (fun record hrecord => ?_), hending]
    · rfl
    · rw [hitems] at hrecord
      cases hrecord
  · cases nested with
    | zero => rfl
    | succ nested =>
        obtain ⟨hitems, hending⟩ := cyclicVolume_chain clusters
        unfold walkDirectory
        rw [walkLocation_eq]
        show ((chainRecords cyclicVolume clusters 2 .new).visitAll _ emptyWalk).1 = _
        unfold Listing.visitAll
        rw [hitems, hending]
        rfl

end RustFirmware.Fat
