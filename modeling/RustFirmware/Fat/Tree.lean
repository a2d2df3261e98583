/-
  RustFirmware.Fat.Tree
  ─────────────────────
  **WHICH WELL-FORMED TREES ARE WALKED AS THEY SHOULD BE.**

  `WellFormed` is what a directory tree has to be, by the names on disk; `WalkCorrect` is
  that the walk reports each of its files once, under a path that is found again.  Since
  the code calls `.` and `..` both `-`, it walks every subdirectory into itself until the
  path buffer is full; so only a root directory without subdirectories is walked to its
  end, and its files without extension are all looked up as the first of them
  (`walkFiles_correct_iff`).
-/
import RustFirmware.Fat.Names
import RustFirmware.Fat.Termination
import Mathlib.Data.List.Nodup
import Mathlib.Data.List.Forall2

namespace RustFirmware.Fat

open RustFirmware.Lib

/-! ## §1. Directory trees. -/

section Definitions

variable (volume : FatVolume) (clusters : Nat)

/-- The records of a directory apart from the two that a subdirectory starts with. -/
def ownRecords (directory : DirectoryLocation) : List FatRecord :=
  match directory with
  | .rootDirectory          => (directoryRecords volume clusters directory).items
  | .clusterChain _ => (directoryRecords volume clusters directory).items.drop 2

/-- Below the root the names lead to a directory. -/
inductive Within : DirectoryLocation → List Bytes → Prop
  | root : Within .rootDirectory []
  | sub {directory : DirectoryLocation} {names : List Bytes} {record : FatRecord} :
      Within directory names → record ∈ ownRecords volume clusters directory →
      record.entry.isDirectory = true →
      Within (.clusterChain record.entry.firstCluster) (names ++ [record.trueName])

/-- The path with these components. -/
def joined (names : List Bytes) : Bytes := names.flatMap (separator :: ·)

/-- The entry `.` or `..`, for the directory at `cluster`. -/
structure IsDots (dots : Bytes) (cluster : UInt32) (record : FatRecord) : Prop where
  noLongName   : record.longName = none
  name         : record.raw.take 11 = dots ++ List.replicate (11 - dots.length) space
  isDirectory  : record.entry.isDirectory = true
  firstCluster : record.entry.firstCluster = cluster

/-- How `..` refers to a directory. -/
def parentCluster (directory : DirectoryLocation) : UInt32 :=
  match directory with
  | .rootDirectory        => 0
  | .clusterChain cluster => cluster

/-- The directory at `cluster` starts with `.` and `..`. -/
def StartsWithDots (parent : DirectoryLocation) (cluster : UInt32) : Prop :=
  ∃ dot dotdot rest,
    (directoryRecords volume clusters (.clusterChain cluster)).items = dot :: dotdot :: rest
    ∧ IsDots (ascii ".") cluster dot ∧ IsDots (ascii "..") (parentCluster parent) dotdot

/-- **A well-formed directory tree**, in which no directory has more than `clusters`
    clusters. -/
structure WellFormed : Prop where
  /-- Every directory can be read to its end. -/
  ends   : ∀ directory names, Within volume clusters directory names →
    (directoryRecords volume clusters directory).ending = .ok ()
  /-- Every subdirectory starts with its `.` and `..` entries. -/
  dots   : ∀ directory names, Within volume clusters directory names →
    ∀ record ∈ ownRecords volume clusters directory, record.entry.isDirectory = true →
      StartsWithDots volume clusters directory record.entry.firstCluster
  /-- Names are valid. -/
  valid  : ∀ directory names, Within volume clusters directory names →
    ∀ record ∈ ownRecords volume clusters directory, ValidName record
  /-- Names are unique in their directory, ignoring case. -/
  unique : ∀ directory names, Within volume clusters directory names →
    ((ownRecords volume clusters directory).map (fun record => folded record.trueName)).Nodup
  /-- Full paths fit in the buffer. -/
  paths  : ∀ directory names, Within volume clusters directory names →
    ∀ record ∈ ownRecords volume clusters directory,
      (joined (names ++ [record.trueName])).length ≤ fatPathUtf8Bytes

/-- The list has every regular file of the tree once, with the names that lead to it. -/
def FilesOfTree (files : List (List Bytes × FatRecord)) : Prop :=
  files.Nodup
  ∧ ∀ path record, (path, record) ∈ files ↔
      ∃ directory names, Within volume clusters directory names
        ∧ record ∈ ownRecords volume clusters directory
        ∧ record.entry.isDirectory = false ∧ path = names ++ [record.trueName]

/-- A call of the visitor for a file: with its size, and a path that resolves to its entry. -/
def ReportsFile (file : List Bytes × FatRecord) (report : Bytes × UInt32) : Prop :=
  report.2 = file.2.entry.fileSize
  ∧ findPathEntry volume clusters report.1 = .ok file.2.entry

/-- **The walk succeeds, and its reports are one for each regular file of the tree.** -/
def WalkCorrect : Prop :=
  (walkFiles volume clusters).1 = .ok ()
  ∧ ∃ files, FilesOfTree volume clusters files
      ∧ List.Forall₂ (ReportsFile volume clusters) files (walkFiles volume clusters).2

/-- No subdirectory in the root directory, and no two entries that the code calls `-` but
    that differ in their attributes, first cluster or size. -/
def FlatWithOneDash : Prop :=
  (∀ record ∈ ownRecords volume clusters .rootDirectory, record.entry.isDirectory = false)
  ∧ ∀ record ∈ ownRecords volume clusters .rootDirectory,
    ∀ record' ∈ ownRecords volume clusters .rootDirectory,
      Dashed record → Dashed record' → record.entry = record'.entry

end Definitions

variable {volume : FatVolume} {clusters : Nat}

section Allowance

variable {clusters' : Nat} (hle : clusters ≤ clusters') (hwell : WellFormed volume clusters)

include hle hwell in
theorem WellFormed.directoryRecords_eq {directory : DirectoryLocation} {names : List Bytes}
    (h : Within volume clusters directory names) :
    directoryRecords volume clusters' directory = directoryRecords volume clusters directory := by
  refine directoryRecords_mono hle ?_
  rw [hwell.ends directory names h]
  exact ends_ok ()

include hle hwell in
theorem WellFormed.ownRecords_eq {directory : DirectoryLocation} {names : List Bytes}
    (h : Within volume clusters directory names) :
    ownRecords volume clusters' directory = ownRecords volume clusters directory := by
  unfold ownRecords
  rw [hwell.directoryRecords_eq hle h]

include hle hwell in
theorem WellFormed.within {directory : DirectoryLocation} {names : List Bytes}
    (h : Within volume clusters' directory names) : Within volume clusters directory names := by
  induction h with
  | root => exact .root
  | sub _ hrecord hdir ih =>
      rw [hwell.ownRecords_eq hle ih] at hrecord
      exact .sub ih hrecord hdir

include hle hwell in
/-- **The allowance does not matter once it is enough.** -/
theorem WellFormed.mono : WellFormed volume clusters' where
  ends directory names h := by
    rw [hwell.directoryRecords_eq hle (hwell.within hle h)]
    exact hwell.ends _ _ (hwell.within hle h)
  dots directory names h record hrecord hdir := by
    have hwithin := hwell.within hle h
    rw [hwell.ownRecords_eq hle hwithin] at hrecord
    unfold StartsWithDots
    rw [hwell.directoryRecords_eq hle (.sub hwithin hrecord hdir)]
    exact hwell.dots _ _ hwithin record hrecord hdir
  valid directory names h := by
    rw [hwell.ownRecords_eq hle (hwell.within hle h)]
    exact hwell.valid _ _ (hwell.within hle h)
  unique directory names h := by
    rw [hwell.ownRecords_eq hle (hwell.within hle h)]
    exact hwell.unique _ _ (hwell.within hle h)
  paths directory names h := by
    rw [hwell.ownRecords_eq hle (hwell.within hle h)]
    exact hwell.paths _ _ (hwell.within hle h)

end Allowance

/-! ## §2. A subdirectory is walked into itself. -/

/-- The visitor that the walk uses in a directory whose path has `pathLen` bytes. -/
def walkVisitor (volume : FatVolume) (clusters nested pathLen : Nat) : FatRecord → Walk Unit :=
  visitRecord (visitWalkEntry
    (fun child fullPathLen => walkDirectory volume clusters nested child fullPathLen) pathLen)

theorem walkDirectory_eq (nested : Nat) (directory : DirectoryLocation) (pathLen : Nat) :
    walkDirectory volume clusters (nested + 1) directory pathLen
      = (directoryRecords volume clusters directory).visitAll
          (walkVisitor volume clusters nested pathLen) := walkLocation_eq _ clusters directory

theorem walkFiles_eq (volume : FatVolume) (clusters : Nat) :
    walkFiles volume clusters
      = (((directoryRecords volume clusters .rootDirectory).visitAll
            (walkVisitor volume clusters fatPathUtf8Bytes 0) emptyWalk).1,
          ((directoryRecords volume clusters .rootDirectory).visitAll
            (walkVisitor volume clusters fatPathUtf8Bytes 0) emptyWalk).2.reported) := by
  rw [← walkDirectory_eq]
  rfl

/-- A directory whose visit succeeds has been walked. -/
theorem exists_walkDirectory_ok {nested pathLen : Nat} {record : FatRecord} {s : WalkState}
    (hname : ¬ (record.name = ascii "." ∨ record.name = ascii ".."))
    (hdir : record.entry.isDirectory = true)
    (h : (walkVisitor volume clusters nested pathLen record s).1 = .ok ()) :
    ∃ pathLen' s', (walkDirectory volume clusters nested
      (.clusterChain record.entry.firstCluster) pathLen' s').1 = .ok () := by
  unfold walkVisitor visitRecord visitWalkEntry at h
  rw [if_neg hname] at h
  obtain ⟨-, happend⟩ | hlong := Walk.append_cases pathLen record.name s
  · rw [Keep.bind_ok happend, if_pos hdir] at h
    exact ⟨_, _, h⟩
  · rw [Keep.bind_error hlong] at h
    cases h

/-- The two fields of the entries `.` and `..`. -/
theorem IsDots.fields {dots : Bytes} {cluster : UInt32} {record : FatRecord}
    (h : IsDots dots cluster record) :
    baseField record.raw = (dots ++ List.replicate (11 - dots.length) space).take 8
      ∧ extensionField record.raw = (dots ++ List.replicate (11 - dots.length) space).drop 8 := by
  rw [← h.name]
  constructor
  · rw [List.take_take]
    rfl
  · rw [List.drop_take]
    rfl

/-- The code calls the entries `.` and `..` something else. -/
theorem IsDots.name_eq {dots : Bytes} {cluster : UInt32} {record : FatRecord}
    (h : IsDots dots cluster record) (hdots : dots.length ≤ 8) : record.name = ascii "-" := by
  refine Dashed.name (.inr ⟨h.noLongName, ?_⟩)
  have hfield : extensionField record.raw = List.replicate 3 space := by
    rw [h.fields.2, List.drop_append, List.drop_eq_nil_of_le hdots, List.nil_append,
      List.drop_replicate]
    congr 1
    omega
  unfold extensionName
  rw [hfield]
  decide

/-- On the disk they have their own names. -/
theorem IsDots.trueName_eq {dots : Bytes} {cluster : UInt32} {record : FatRecord}
    (h : IsDots dots cluster record) (hdots : dots = ascii "." ∨ dots = ascii "..") :
    record.trueName = dots := by
  obtain ⟨hbase, hextension⟩ := h.fields
  unfold FatRecord.trueName
  rw [h.noLongName]
  show shortName record.raw = dots
  unfold shortName baseName extensionName
  rw [hbase, hextension]
  rcases hdots with rfl | rfl
  · decide
  · decide

/-- **A directory that starts with `.` is never walked to its end**: its first record leads
    back to it, one activation deeper. -/
theorem walkDirectory_ne_ok {cluster : UInt32} {dot : FatRecord} {rest : List FatRecord}
    (hitems : (directoryRecords volume clusters (.clusterChain cluster)).items = dot :: rest)
    (hdot : IsDots (ascii ".") cluster dot) (nested pathLen : Nat) (s : WalkState) :
    (walkDirectory volume clusters nested (.clusterChain cluster) pathLen s).1 ≠ .ok () := by
  induction nested generalizing pathLen s with
  | zero => exact fun h => (by cases h)
  | succ nested ih =>
      intro hok
      rw [walkDirectory_eq] at hok
      have hmem : dot ∈ (directoryRecords volume clusters (.clusterChain cluster)).items := by
        rw [hitems]
        exact List.mem_cons_self
      obtain ⟨s₁, hvisit⟩ := Listing.exists_visit_ok hok hmem
      have hname : ¬ (dot.name = ascii "." ∨ dot.name = ascii "..") := by
        rw [hdot.name_eq (by decide)]
        decide
      obtain ⟨pathLen', s', hwalk⟩ := exists_walkDirectory_ok hname hdot.isDirectory hvisit
      rw [hdot.firstCluster] at hwalk
      exact ih pathLen' s' hwalk

/-- From within the buffer it ends with `NameTooLong`, and nothing has been reported. -/
theorem walkDirectory_nameTooLong {cluster : UInt32} {dot : FatRecord} {rest : List FatRecord}
    (hitems : (directoryRecords volume clusters (.clusterChain cluster)).items = dot :: rest)
    (hdot : IsDots (ascii ".") cluster dot) {nested pathLen : Nat} {s : WalkState}
    (hlen : pathLen ≤ fatPathUtf8Bytes) (hnested : fatPathUtf8Bytes < nested + pathLen)
    (hs : s.path.length = fatPathUtf8Bytes) :
    ∃ s', walkDirectory volume clusters nested (.clusterChain cluster) pathLen s
        = (.error (.error .nameTooLong), s')
      ∧ s'.reported = s.reported := by
  induction nested generalizing pathLen s with
  | zero => omega
  | succ nested ih =>
      have hname : dot.name = ascii "-" := hdot.name_eq (by decide)
      have hvisit : ∃ s', walkVisitor volume clusters nested pathLen dot s
          = (.error (.error .nameTooLong), s') ∧ s'.reported = s.reported := by
        unfold walkVisitor visitRecord visitWalkEntry
        rw [hname, if_neg (by decide)]
        obtain ⟨hroom, happend⟩ | hlong := Walk.append_cases pathLen (ascii "-") s
        · -- one activation deeper, with two more bytes in the path
          have hdash : (ascii "-").length = 1 := rfl
          have hs' : (overwrite s.path pathLen (separator :: ascii "-")).length
              = fatPathUtf8Bytes := by
            rw [overwrite_length (appendComponent_fits hroom), hs]
          rw [Keep.bind_ok happend, if_pos hdot.isDirectory, hdot.firstCluster]
          exact ih (by omega) (by omega) hs'
        · exact ⟨s, Keep.bind_error hlong, rfl⟩
      obtain ⟨s', hfirst, hreported⟩ := hvisit
      rw [walkDirectory_eq]
      exact ⟨s', Listing.visitAll_first_error hitems hfirst, hreported⟩

/-- **So a walk that succeeds has met no subdirectory.** -/
theorem isDirectory_of_walkFiles_ok (hwell : WellFormed volume clusters)
    (hok : (walkFiles volume clusters).1 = .ok ()) :
    ∀ record ∈ ownRecords volume clusters .rootDirectory, record.entry.isDirectory = false := by
  intro record hrecord
  by_contra hdir
  rw [Bool.not_eq_false] at hdir
  rw [walkFiles_eq] at hok
  obtain ⟨s, hvisit⟩ := Listing.exists_visit_ok hok hrecord
  obtain ⟨-, -, hdot, hdotdot⟩ := (hwell.valid _ _ .root record hrecord).name_proper
  obtain ⟨pathLen, s', hchild⟩ :=
    exists_walkDirectory_ok (fun h => h.elim hdot hdotdot) hdir hvisit
  obtain ⟨dot, dotdot, rest, hitems, hdot, -⟩ := hwell.dots _ _ .root record hrecord hdir
  exact walkDirectory_ne_ok hitems hdot _ pathLen s' hchild

/-! ## §3. A root directory without subdirectories. -/

section Flat

variable (hwell : WellFormed volume clusters)
  (hflat : ∀ record ∈ ownRecords volume clusters .rootDirectory,
    record.entry.isDirectory = false)

include hflat in
/-- There is no other directory. -/
theorem within_of_flat {directory : DirectoryLocation} {names : List Bytes}
    (h : Within volume clusters directory names) : directory = .rootDirectory ∧ names = [] := by
  induction h with
  | root => exact ⟨rfl, rfl⟩
  | sub hwithin hrecord hdir ih =>
      obtain ⟨rfl, rfl⟩ := ih
      rw [hflat _ hrecord] at hdir
      cases hdir

/-- What is reported for a file of the root directory. -/
def rootReport (record : FatRecord) : Bytes × UInt32 :=
  (separator :: record.name, record.entry.fileSize)

include hwell in
/-- The path of a file fits in the buffer under the name that the code has for it. -/
theorem name_fits {record : FatRecord}
    (hrecord : record ∈ ownRecords volume clusters .rootDirectory) :
    record.name.length < fatPathUtf8Bytes := by
  by_cases hdash : Dashed record
  · rw [hdash.name]
    decide
  · have hpath := hwell.paths _ _ .root record hrecord
    rw [(hwell.valid _ _ .root record hrecord).name hdash]
    rw [List.nil_append, joined, List.flatMap_singleton, List.length_cons] at hpath
    exact hpath

/-- The visit of a file reports it. -/
theorem walkVisitor_file {nested : Nat} {record : FatRecord} {s : WalkState}
    (hs : s.path.length = fatPathUtf8Bytes)
    (hname : ¬ (record.name = ascii "." ∨ record.name = ascii ".."))
    (hfile : record.entry.isDirectory = false) (hfits : record.name.length < fatPathUtf8Bytes) :
    ∃ s', walkVisitor volume clusters nested 0 record s = (.ok (), s')
      ∧ s'.path.length = fatPathUtf8Bytes
      ∧ s'.reported = s.reported ++ [rootReport record] := by
  have hroom : 0 + 1 + record.name.length ≤ s.path.length := by omega
  have happend : Walk.append 0 record.name s = (.ok (0 + 1 + record.name.length),
      { s with path := overwrite s.path 0 (separator :: record.name) }) := by
    have hone := appendComponent_ok FatError.nameTooLong separator hroom (by rw [hs]; decide)
    unfold Walk.append appendPathComponent
    rw [hone]
  have hbuffer : (overwrite s.path 0 (separator :: record.name)).length = fatPathUtf8Bytes := by
    rw [overwrite_length (appendComponent_fits hroom), hs]
  have hpath : (overwrite s.path 0 (separator :: record.name)).take (0 + 1 + record.name.length)
      = separator :: record.name := by
    have hfits : 0 + (separator :: record.name).length ≤ s.path.length :=
      appendComponent_fits hroom
    have htake := take_overwrite hfits
    have hlength : 0 + (separator :: record.name).length = 0 + 1 + record.name.length := by
      rw [List.length_cons]
      omega
    rw [hlength, List.take_zero, List.nil_append] at htake
    exact htake
  unfold walkVisitor visitRecord visitWalkEntry
  rw [if_neg hname, Keep.bind_ok happend, if_neg (by rw [hfile]; decide)]
  refine ⟨_, rfl, hbuffer, ?_⟩
  show s.reported ++ [(_, record.entry.fileSize)] = _
  rw [hpath]
  rfl

include hwell hflat in
/-- **The walk of such a root directory** reports its files in their order. -/
theorem walkFiles_of_flat :
    walkFiles volume clusters
      = (.ok (), (ownRecords volume clusters .rootDirectory).map rootReport) := by
  have hvisit : ∀ record ∈ (directoryRecords volume clusters .rootDirectory).items,
      ∀ s : WalkState, s.path.length = fatPathUtf8Bytes →
        ∃ s', walkVisitor volume clusters fatPathUtf8Bytes 0 record s = (.ok (), s')
          ∧ s'.path.length = fatPathUtf8Bytes
          ∧ s'.reported = s.reported ++ [rootReport record] := by
    intro record hrecord s hs
    obtain ⟨-, -, hdot, hdotdot⟩ := (hwell.valid _ _ .root record hrecord).name_proper
    exact walkVisitor_file hs (fun h => h.elim hdot hdotdot) (hflat record hrecord)
      (name_fits hwell hrecord)
  have hempty : emptyWalk.path.length = fatPathUtf8Bytes := List.length_replicate
  obtain ⟨s', hwalk, -, hreported⟩ := Listing.visitAll_reports
    (fun s : WalkState => s.path.length = fatPathUtf8Bytes) WalkState.reported hvisit hempty
  rw [hwell.ends _ _ .root] at hwalk
  rw [walkFiles_eq, hwalk]
  show (Except.ok (), s'.reported) = _
  rw [hreported]
  rfl

/-! ## §4. What the reported paths resolve to. -/

/-- A path of one component. -/
theorem findPathEntry_single {name : Bytes} (hname : ProperName name) :
    findPathEntry volume clusters (separator :: name)
      = findDirectoryEntry volume clusters .rootDirectory name := by
  obtain ⟨hne, hseparator, hdot, hdotdot⟩ := hname
  have hsplit : name.splitOnP (· == separator) = [name] := by
    refine List.splitOnP_eq_singleton (fun b hb => ?_)
    rw [beq_eq_false_iff_ne]
    rintro rfl
    exact hseparator hb
  have hcomponents : pathComponents (separator :: name) = [name] := by
    unfold pathComponents
    rw [List.splitOnP_cons_eq_if_modifyHead, if_pos (beq_self_eq_true separator), hsplit]
    show [[], name].filter (fun component => decide (component ≠ [])) = [name]
    rw [List.filter_cons_of_neg (by decide), List.filter_singleton, decide_eq_true hne]
    rfl
  unfold findPathEntry
  rw [hcomponents]
  unfold findComponents
  rw [if_neg (fun h => h.elim hdot hdotdot)]
  cases findDirectoryEntry volume clusters .rootDirectory name with
  | error halt => rfl
  | ok entry => rfl

/-- The record of the root directory that answers to the name of another. -/
theorem exists_answer {record : FatRecord}
    (hrecord : record ∈ ownRecords volume clusters .rootDirectory) :
    ∃ answer ∈ ownRecords volume clusters .rootDirectory,
      folded answer.name = folded record.name
      ∧ (ownRecords volume clusters .rootDirectory).find? (answersTo record.name) = some answer
      ∧ findDirectoryEntry volume clusters .rootDirectory record.name = .ok answer.entry := by
  cases hfind : (ownRecords volume clusters .rootDirectory).find? (answersTo record.name) with
  | none =>
      rw [List.find?_eq_none] at hfind
      exact absurd (answersTo_iff.mpr rfl) (hfind record hrecord)
  | some answer =>
      refine ⟨answer, List.mem_of_find?_eq_some hfind,
        answersTo_iff.mp (List.find?_some hfind), rfl, ?_⟩
      rw [findDirectoryEntry_eq]
      unfold Listing.find
      have hitems : (directoryRecords volume clusters .rootDirectory).items.find?
          (answersTo record.name) = some answer := hfind
      rw [hitems]
      rfl

include hwell in
/-- Only dashed records answer to the names of others. -/
theorem answer_eq {record answer : FatRecord}
    (hrecord : record ∈ ownRecords volume clusters .rootDirectory)
    (hanswer : answer ∈ ownRecords volume clusters .rootDirectory)
    (hname : folded answer.name = folded record.name) :
    answer = record ∨ (Dashed answer ∧ Dashed record) := by
  have hvalid := hwell.valid _ _ .root record hrecord
  have hvalid' := hwell.valid _ _ .root answer hanswer
  by_cases hdash : Dashed record
  · right
    rw [hdash.name] at hname
    exact ⟨hvalid'.name_eq_dash.mp (folded_eq_dash hname), hdash⟩
  by_cases hdash' : Dashed answer
  · right
    rw [hdash'.name] at hname
    exact ⟨hdash', hvalid.name_eq_dash.mp (folded_eq_dash hname.symm)⟩
  · left
    rw [hvalid.name hdash, hvalid'.name hdash'] at hname
    exact List.inj_on_of_nodup_map (hwell.unique _ _ .root) hanswer hrecord hname

include hwell hflat in
/-- The files of such a tree. -/
theorem filesOfTree_of_flat :
    FilesOfTree volume clusters ((ownRecords volume clusters .rootDirectory).map
      (fun record => ([record.trueName], record))) := by
  constructor
  · refine List.Nodup.map (fun _ _ h => (Prod.mk.inj h).2) ?_
    exact List.Nodup.of_map _ (hwell.unique _ _ .root)
  · intro path record
    rw [List.mem_map]
    constructor
    · rintro ⟨record', hrecord, hsame⟩
      cases hsame
      exact ⟨_, _, .root, hrecord, hflat _ hrecord, rfl⟩
    · rintro ⟨directory, names, hwithin, hrecord, -, rfl⟩
      obtain ⟨rfl, rfl⟩ := within_of_flat hflat hwithin
      exact ⟨record, hrecord, rfl⟩

/-! ## §5. Counting entries. -/

/-- What the path of a file of the root directory resolves to. -/
def resolved (volume : FatVolume) (clusters : Nat) (record : FatRecord) :
    Except Halt FatDirectoryEntry :=
  findPathEntry volume clusters (separator :: record.name)

include hwell in
/-- The path of a record that is not dashed resolves to its entry. -/
theorem resolved_of_not_dashed {record : FatRecord}
    (hrecord : record ∈ ownRecords volume clusters .rootDirectory) (hdash : ¬ Dashed record) :
    resolved volume clusters record = .ok record.entry := by
  obtain ⟨answer, hanswer, hname, -, hfind⟩ := exists_answer hrecord
  unfold resolved
  rw [findPathEntry_single (hwell.valid _ _ .root record hrecord).name_proper, hfind]
  obtain rfl | ⟨-, hdash'⟩ := answer_eq hwell hrecord hanswer hname
  · rfl
  · exact absurd hdash' hdash

/-- The records of a list of files of such a tree are those of the root directory. -/
theorem FilesOfTree.perm {files : List (List Bytes × FatRecord)}
    (hfiles : FilesOfTree volume clusters files)
    (hwell : WellFormed volume clusters)
    (hflat : ∀ record ∈ ownRecords volume clusters .rootDirectory,
      record.entry.isDirectory = false) :
    (files.map Prod.snd).Perm (ownRecords volume clusters .rootDirectory) := by
  obtain ⟨hnodup, hmem⟩ := hfiles
  have hpath : ∀ file ∈ files, file.1 = [file.2.trueName]
      ∧ file.2 ∈ ownRecords volume clusters .rootDirectory := by
    intro file hfile
    obtain ⟨directory, names, hwithin, hrecord, -, hpath⟩ := (hmem file.1 file.2).mp hfile
    obtain ⟨rfl, rfl⟩ := within_of_flat hflat hwithin
    exact ⟨hpath, hrecord⟩
  have hsnd : (files.map Prod.snd).Nodup := by
    refine List.Nodup.map_on (fun file hfile file' hfile' hsame => ?_) hnodup
    refine Prod.ext ?_ hsame
    rw [(hpath file hfile).1, (hpath file' hfile').1, hsame]
  rw [List.perm_ext_iff_of_nodup hsnd (List.Nodup.of_map _ (hwell.unique _ _ .root))]
  intro record
  rw [List.mem_map]
  constructor
  · rintro ⟨file, hfile, rfl⟩
    exact (hpath file hfile).2
  · intro hrecord
    exact ⟨([record.trueName], record),
      (hmem _ _).mpr ⟨_, _, .root, hrecord, hflat _ hrecord, rfl⟩, rfl⟩

include hwell hflat in
/-- **All dashed files are reported under one path**, and there have to be as many files with
    the entry that it resolves to. -/
theorem entry_eq_of_dashed
    (hreports : ∃ files, FilesOfTree volume clusters files
      ∧ List.Forall₂ (ReportsFile volume clusters) files (walkFiles volume clusters).2)
    {record : FatRecord} (hrecord : record ∈ ownRecords volume clusters .rootDirectory)
    (hdash : Dashed record) :
    findPathEntry volume clusters (separator :: ascii "-") = .ok record.entry := by
  obtain ⟨files, hfiles, hall⟩ := hreports
  rw [walkFiles_of_flat hwell hflat, List.forall₂_map_right_iff] at hall
  -- the files have the entries that their reports resolve to
  have hentries : files.map (fun file => Except.ok file.2.entry)
      = (ownRecords volume clusters .rootDirectory).map (resolved volume clusters) := by
    rw [← List.forall₂_eq_eq_eq, List.forall₂_map_left_iff, List.forall₂_map_right_iff]
    exact hall.imp (fun file record hreport => hreport.2.symm)
  have hperm : ((ownRecords volume clusters .rootDirectory).map (resolved volume clusters)).Perm
      ((ownRecords volume clusters .rootDirectory).map (fun record => .ok record.entry)) := by
    rw [← hentries]
    have hmap := (hfiles.perm hwell hflat).map
      (fun record : FatRecord => (Except.ok record.entry : Except Halt FatDirectoryEntry))
    rw [List.map_map] at hmap
    exact hmap
  -- where nothing is dashed the two sides are the same
  have hdashed := perm_map_filter (fun record => decide (Dashed record)) hperm
    (fun record hrecord hnot =>
      resolved_of_not_dashed hwell hrecord (of_decide_eq_false hnot))
  have hmem : (Except.ok record.entry : Except Halt FatDirectoryEntry)
      ∈ ((ownRecords volume clusters .rootDirectory).filter
          (fun record => decide (Dashed record))).map (resolved volume clusters) := by
    rw [hdashed.mem_iff]
    exact List.mem_map_of_mem (List.mem_filter.mpr ⟨hrecord, decide_eq_true hdash⟩)
  obtain ⟨record', hrecord', hresolved⟩ := List.mem_map.mp hmem
  rw [← hresolved, resolved, (of_decide_eq_true (List.mem_filter.mp hrecord').2).name]

end Flat

/-! ## §6. The condition. -/

/-- **The walk of a well-formed tree is correct if and only if the root directory has no
    subdirectory, and its files that the code calls `-` cannot be told apart.** -/
theorem walkFiles_correct_iff (volume : FatVolume) (clusters : Nat)
    (hwell : WellFormed volume clusters) :
    WalkCorrect volume clusters ↔ FlatWithOneDash volume clusters := by
  constructor
  · rintro ⟨hok, hreports⟩
    have hflat := isDirectory_of_walkFiles_ok hwell hok
    refine ⟨hflat, fun record hrecord record' hrecord' hdash hdash' => ?_⟩
    have hentry := entry_eq_of_dashed hwell hflat hreports hrecord hdash
    rw [entry_eq_of_dashed hwell hflat hreports hrecord' hdash'] at hentry
    exact (Except.ok.inj hentry).symm
  · rintro ⟨hflat, hone⟩
    refine ⟨by rw [walkFiles_of_flat hwell hflat], _, filesOfTree_of_flat hwell hflat, ?_⟩
    rw [walkFiles_of_flat hwell hflat, List.forall₂_map_left_iff, List.forall₂_map_right_iff,
      List.forall₂_same]
    intro record hrecord
    refine ⟨rfl, ?_⟩
    show findPathEntry volume clusters (separator :: record.name) = .ok record.entry
    obtain ⟨answer, hanswer, hname, -, hfind⟩ := exists_answer hrecord
    rw [findPathEntry_single (hwell.valid _ _ .root record hrecord).name_proper, hfind]
    obtain rfl | ⟨hdash, hdash'⟩ := answer_eq hwell hrecord hanswer hname
    · rfl
    · rw [hone answer hanswer record hrecord hdash hdash']

/-! ## §7. A file without extension, and a subdirectory. -/

/-- A directory entry. -/
def entryBytes (name : Bytes) (attributes : UInt8) (firstCluster fileSize : Nat) : Bytes :=
  name ++ [attributes] ++ List.replicate 8 0 ++ leBytes 2 (firstCluster / 2 ^ 16)
    ++ List.replicate 4 0 ++ leBytes 2 firstCluster ++ leBytes 4 fileSize

/-- The record of such an entry. -/
def recordFor (name : Bytes) (attributes : UInt8) (firstCluster fileSize : Nat) : FatRecord where
  raw      := entryBytes name attributes firstCluster fileSize
  longName := none
  entry    := ⟨attributes, UInt32.ofNat firstCluster, UInt32.ofNat fileSize⟩

def readmeName : Bytes := ascii "README     "
def textName : Bytes := ascii "A       TXT"
def subName : Bytes := ascii "SUB        "
def dotName : Bytes := ascii ".          "
def dotdotName : Bytes := ascii "..         "

/-- Two files in the root directory. -/
def flatVolume : FatVolume := fat16Volume (fun lba =>
  if lba = 21 then entryBytes readmeName 0x20 3 5 ++ entryBytes textName 0x20 2 7 else [])

/-- A directory of one cluster, with a file, in the root directory. -/
def nestedContents (lba : Nat) : Bytes :=
  if lba = 1 then List.replicate 4 0 ++ leBytes 2 0xffff
  else if lba = 21 then entryBytes subName 0x10 2 0
  else if lba = 22 then
    entryBytes dotName 0x10 2 0 ++ entryBytes dotdotName 0x10 0 0 ++ entryBytes textName 0x20 3 7
  else []

def nestedVolume : FatVolume := fat16Volume nestedContents

set_option maxRecDepth 20000 in
theorem walkFiles_correct_iff_example : WalkCorrect flatVolume 1 := by
  have hitems : ownRecords flatVolume 1 .rootDirectory
      = [recordFor readmeName 0x20 3 5, recordFor textName 0x20 2 7] := by decide +kernel
  have hending : (directoryRecords flatVolume 1 .rootDirectory).ending = .ok () := by
    decide +kernel
  have hflat : ∀ record ∈ ownRecords flatVolume 1 .rootDirectory,
      record.entry.isDirectory = false := by
    rw [hitems]
    decide +kernel
  have hvalid : ∀ record ∈ ownRecords flatVolume 1 .rootDirectory, ValidName record := by
    rw [hitems]
    intro record hrecord
    obtain rfl | hrecord := List.mem_cons.mp hrecord
    · exact ⟨by decide +kernel, by decide +kernel⟩
    · obtain rfl := List.mem_singleton.mp hrecord
      exact ⟨by decide +kernel, by decide +kernel⟩
  have hwell : WellFormed flatVolume 1 := by
    refine ⟨?_, ?_, ?_, ?_, ?_⟩
    · intro directory names h
      obtain ⟨rfl, rfl⟩ := within_of_flat hflat h
      exact hending
    · intro directory names h record hrecord hdir
      obtain ⟨rfl, rfl⟩ := within_of_flat hflat h
      rw [hflat record hrecord] at hdir
      cases hdir
    · intro directory names h
      obtain ⟨rfl, rfl⟩ := within_of_flat hflat h
      exact hvalid
    · intro directory names h
      obtain ⟨rfl, rfl⟩ := within_of_flat hflat h
      rw [hitems]
      decide +kernel
    · intro directory names h
      obtain ⟨rfl, rfl⟩ := within_of_flat hflat h
      rw [hitems]
      decide +kernel
  refine (walkFiles_correct_iff flatVolume 1 hwell).mpr ⟨hflat, ?_⟩
  rw [hitems]
  decide +kernel

set_option maxRecDepth 20000 in
/-- The tree of the other volume. -/
theorem nestedVolume_wellFormed : WellFormed nestedVolume 1 := by
  have hroot : ownRecords nestedVolume 1 .rootDirectory = [recordFor subName 0x10 2 0] := by
    decide +kernel
  have hsub : (directoryRecords nestedVolume 1 (.clusterChain 2)).items
      = [recordFor dotName 0x10 2 0, recordFor dotdotName 0x10 0 0,
          recordFor textName 0x20 3 7] := by decide +kernel
  have hown : ownRecords nestedVolume 1 (.clusterChain 2) = [recordFor textName 0x20 3 7] := by
    unfold ownRecords
    rw [hsub]
    rfl
  have htrue : (recordFor subName 0x10 2 0).trueName = ascii "SUB" := by decide +kernel
  -- there is one subdirectory, and it has none
  have hwithin : ∀ {directory names}, Within nestedVolume 1 directory names →
      (directory = .rootDirectory ∧ names = [])
      ∨ (directory = .clusterChain 2 ∧ names = [ascii "SUB"]) := by
    intro directory names h
    induction h with
    | root => exact .inl ⟨rfl, rfl⟩
    | sub _ hrecord hdir ih =>
        right
        obtain ⟨rfl, rfl⟩ | ⟨rfl, rfl⟩ := ih
        · rw [hroot] at hrecord
          obtain rfl := List.mem_singleton.mp hrecord
          exact ⟨rfl, by rw [htrue]; rfl⟩
        · rw [hown] at hrecord
          obtain rfl := List.mem_singleton.mp hrecord
          exact absurd hdir (by decide)
  refine ⟨?_, ?_, ?_, ?_, ?_⟩
  · intro directory names h
    obtain ⟨rfl, rfl⟩ | ⟨rfl, rfl⟩ := hwithin h
    · decide +kernel
    · decide +kernel
  · intro directory names h record hrecord hdir
    obtain ⟨rfl, rfl⟩ | ⟨rfl, rfl⟩ := hwithin h
    · rw [hroot] at hrecord
      obtain rfl := List.mem_singleton.mp hrecord
      exact ⟨_, _, _, hsub, ⟨rfl, by decide +kernel, by decide +kernel, rfl⟩,
        ⟨rfl, by decide +kernel, by decide +kernel, rfl⟩⟩
    · rw [hown] at hrecord
      obtain rfl := List.mem_singleton.mp hrecord
      exact absurd hdir (by decide)
  · intro directory names h record hrecord
    obtain ⟨rfl, rfl⟩ | ⟨rfl, rfl⟩ := hwithin h
    · rw [hroot] at hrecord
      obtain rfl := List.mem_singleton.mp hrecord
      exact ⟨by decide +kernel, by decide +kernel⟩
    · rw [hown] at hrecord
      obtain rfl := List.mem_singleton.mp hrecord
      exact ⟨by decide +kernel, by decide +kernel⟩
  · intro directory names h
    obtain ⟨rfl, rfl⟩ | ⟨rfl, rfl⟩ := hwithin h
    · rw [hroot]
      exact List.nodup_singleton _
    · rw [hown]
      exact List.nodup_singleton _
  · intro directory names h
    obtain ⟨rfl, rfl⟩ | ⟨rfl, rfl⟩ := hwithin h
    · rw [hroot]
      decide +kernel
    · rw [hown]
      decide +kernel

set_option maxRecDepth 20000 in
/-- **A walk that fails on a well-formed tree**, and no file is reported at all. -/
theorem nestedVolume_walk :
    FatVolume.new (fat16Device nestedContents) 0 = .ok nestedVolume
    ∧ WellFormed nestedVolume 1
    ∧ walkFiles nestedVolume 1 = (.error (.error .nameTooLong), [])
    ∧ ¬ WalkCorrect nestedVolume 1 := by
  have hwalk : walkFiles nestedVolume 1 = (.error (.error .nameTooLong), []) := by
    have hroot : (directoryRecords nestedVolume 1 .rootDirectory).items
        = [recordFor subName 0x10 2 0] := by decide +kernel
    have hsub : (directoryRecords nestedVolume 1 (.clusterChain 2)).items
        = [recordFor dotName 0x10 2 0, recordFor dotdotName 0x10 0 0,
            recordFor textName 0x20 3 7] := by decide +kernel
    have hdot : IsDots (ascii ".") 2 (recordFor dotName 0x10 2 0) :=
      ⟨rfl, by decide +kernel, by decide +kernel, rfl⟩
    have hname : (recordFor subName 0x10 2 0).name = ascii "-" := by decide +kernel
    obtain ⟨hroom, happend⟩ | hlong := Walk.append_cases 0 (ascii "-") emptyWalk
    case inr => exact absurd (congrArg Prod.fst hlong) (by decide +kernel)
    case inl =>
      have hs : (overwrite emptyWalk.path 0 (separator :: ascii "-")).length
          = fatPathUtf8Bytes := by decide +kernel
      obtain ⟨s', hwalk, hreported⟩ := @walkDirectory_nameTooLong nestedVolume 1 2 _ _ hsub hdot
        fatPathUtf8Bytes 2
        { emptyWalk with path := overwrite emptyWalk.path 0 (separator :: ascii "-") }
        (by decide) (by decide) hs
      have hvisit : walkVisitor nestedVolume 1 fatPathUtf8Bytes 0 (recordFor subName 0x10 2 0)
          emptyWalk = (.error (.error .nameTooLong), s') := by
        have hlen : 0 + 1 + (ascii "-").length = 2 := rfl
        have hcluster : (recordFor subName 0x10 2 0).entry.firstCluster = 2 := rfl
        have hdir : (recordFor subName 0x10 2 0).entry.isDirectory = true := by decide
        rw [hlen] at happend
        unfold walkVisitor visitRecord visitWalkEntry
        rw [hname, if_neg (by decide), Keep.bind_ok happend, if_pos hdir, hcluster]
        exact hwalk
      rw [walkFiles_eq, Listing.visitAll_first_error hroot hvisit]
      show ((.error (.error .nameTooLong) : Except Halt Unit), s'.reported) = _
      rw [hreported]
      rfl
  refine ⟨new_fat16Device nestedContents, nestedVolume_wellFormed, hwalk, ?_⟩
  rintro ⟨hok, -⟩
  rw [hwalk] at hok
  cases hok

end RustFirmware.Fat
