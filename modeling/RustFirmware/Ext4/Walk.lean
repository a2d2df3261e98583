/-
  RustFirmware.Ext4.Walk
  ──────────────────────
  **THE WALK REPORTS WHAT RESOLUTION FINDS, AND ALL OF IT.**

  Both are read against the records of a directory as one listing: lookup is a search
  in it (`findDirectoryEntry_eq`), one activation of the walk visits it
  (`walkDirectory_eq`).  `Leads` is the paths of the tree; `walkDirectory_spec` is what
  a walk adds to the reports, `resolveLoop_of_leads` what resolution does with a path.
-/
import RustFirmware.Ext4.Directory
import RustFirmware.Lib.Path
import Mathlib.Data.List.Nodup

namespace RustFirmware.Ext4

open RustFirmware.Lib

/-! ## §1. The records of a directory as a listing. -/

/-- The live records of one block, from `entryOffset` on. -/
def recordsIn (blockSize : Nat) (block : Bytes) :
    (passes : Nat) → (entryOffset : Nat) → Listing Halt DirectoryRecord Unit
  | 0, _ => pure ()
  | passes + 1, entryOffset =>
      if entryOffset + 8 ≤ blockSize then
        match directoryRecord blockSize block entryOffset with
        | .error e   => .fail (.error e)
        | .ok record =>
            if record.inodeNumber ≠ 0 then
              .cons record (recordsIn blockSize block passes (entryOffset + record.recordLength))
            else recordsIn blockSize block passes (entryOffset + record.recordLength)
      else pure ()

/-- The live records of some blocks. -/
def recordsOf (volume : Ext4Volume) : List Nat → Listing Halt DirectoryRecord Unit
  | [] => pure ()
  | blockNumber :: blockNumbers =>
      match volume.readBlock blockNumber with
      | .error e  => .fail (.error e)
      | .ok block => do
          recordsIn volume.blockSize block (volume.blockSize / 8 + 1) 0
          recordsOf volume blockNumbers

/-- **The live records of a directory**, up to where it cannot be read. -/
def directoryRecords (volume : Ext4Volume) (levels : Nat) (directory : Ext4Inode) :
    Listing Halt DirectoryRecord Unit :=
  match collectInodeExtents volume levels directory with
  | .error halt => .fail halt
  | .ok extents => recordsOf volume (extentBlocks extents)

section Lookup

variable {volume : Ext4Volume} {levels : Nat}

/-- The test of the lookup loop. -/
def hasName (component : Bytes) (record : DirectoryRecord) : Bool := record.name == component

theorem findInBlock_eq (blockSize : Nat) (component block : Bytes) (passes entryOffset : Nat) :
    ended (findInBlock blockSize component block passes entryOffset)
      = ((recordsIn blockSize block passes entryOffset).find (hasName component)).map
          (Sum.elim (fun record => some record.inodeNumber) (fun _ => none)) := by
  induction passes generalizing entryOffset with
  | zero => rfl
  | succ passes ih =>
      unfold findInBlock recordsIn
      by_cases hmore : entryOffset + 8 ≤ blockSize
      · rw [if_pos hmore, if_pos hmore]
        cases hrecord : directoryRecord blockSize block entryOffset with
        | error e => rfl
        | ok record =>
            show ended (if record.inodeNumber ≠ 0 ∧ record.name = component then _ else _) = _
            dsimp only
            by_cases hlive : record.inodeNumber ≠ 0
            · rw [if_pos hlive, Listing.find_cons]
              by_cases hname : record.name = component
              · rw [if_pos ⟨hlive, hname⟩, if_pos (by rw [hasName, hname]; exact beq_self_eq_true _)]
                rfl
              · rw [if_neg (fun h => hname h.2), if_neg (by rw [hasName, beq_iff_eq]; exact hname), ih]
            · rw [if_neg (fun h => hlive h.1), if_neg hlive, ih]
      · rw [if_neg hmore, if_neg hmore]
        rfl

theorem findInBlocks_eq (component : Bytes) (blockNumbers : List Nat) :
    ended (findInBlocks volume component blockNumbers)
      = ((recordsOf volume blockNumbers).find (hasName component) >>= fun found =>
          match found with
          | .inl record => .ok record.inodeNumber
          | .inr _      => .error (.error .notFound)) := by
  induction blockNumbers with
  | nil => rfl
  | cons blockNumber blockNumbers ih =>
      unfold findInBlocks recordsOf
      cases hblock : volume.readBlock blockNumber with
      | error e => rfl
      | ok block =>
          dsimp only
          rw [Listing.find_bind]
          have hfind := findInBlock_eq volume.blockSize component block (volume.blockSize / 8 + 1) 0
          cases hfound : (recordsIn volume.blockSize block (volume.blockSize / 8 + 1) 0).find
              (hasName component) with
          | error halt =>
              rw [hfound] at hfind
              cases hloop : findInBlock volume.blockSize component block
                  (volume.blockSize / 8 + 1) 0 with
              | error e =>
                  rw [hloop] at hfind
                  cases hfind
                  show ended (findInBlock volume.blockSize component block
                    (volume.blockSize / 8 + 1) 0 >>= _) = _
                  rw [hloop]
                  rfl
              | ok found =>
                  rw [hloop] at hfind
                  cases hfind
          | ok found =>
              rw [hfound] at hfind
              have hloop := ended_ok.mp hfind
              show ended (findInBlock volume.blockSize component block
                (volume.blockSize / 8 + 1) 0 >>= _) = _
              rw [hloop]
              cases found with
              | inl record => rfl
              | inr u => exact ih

/-- **Lookup is a search among the records.** -/
theorem findDirectoryEntry_eq (directory : Ext4Inode) (component : Bytes) :
    findDirectoryEntry volume levels directory component
      = ((directoryRecords volume levels directory).find (hasName component) >>= fun found =>
          match found with
          | .inl record => .ok record.inodeNumber
          | .inr _      => .error (.error .notFound)) := by
  unfold findDirectoryEntry directoryRecords
  cases collectInodeExtents volume levels directory with
  | error halt => rfl
  | ok extents => exact findInBlocks_eq component (extentBlocks extents)

end Lookup

section Visit

variable {volume : Ext4Volume} {levels : Nat} (visit : DirectoryRecord → Walk Unit)

theorem walkBlock_eq (blockSize : Nat) (block : Bytes) (passes entryOffset : Nat) :
    walkBlock blockSize visit block passes entryOffset
      = (recordsIn blockSize block passes entryOffset).visitAll visit := by
  induction passes generalizing entryOffset with
  | zero => rfl
  | succ passes ih =>
      unfold walkBlock recordsIn
      by_cases hmore : entryOffset + 8 ≤ blockSize
      · rw [if_pos hmore, if_pos hmore]
        cases hrecord : directoryRecord blockSize block entryOffset with
        | error e => rfl
        | ok record =>
            show (do
              visitLive visit record
              walkBlock blockSize visit block passes (entryOffset + record.recordLength)) = _
            dsimp only
            unfold visitLive
            by_cases hlive : record.inodeNumber ≠ 0
            · rw [if_pos hlive, if_pos hlive, Listing.visitAll_cons, ih]
            · rw [if_neg hlive, if_neg hlive, pure_bind, ih]
      · rw [if_neg hmore, if_neg hmore]
        rfl

theorem walkBlocks_eq (blockNumbers : List Nat) :
    walkBlocks volume visit blockNumbers = (recordsOf volume blockNumbers).visitAll visit := by
  induction blockNumbers with
  | nil => rfl
  | cons blockNumber blockNumbers ih =>
      unfold walkBlocks recordsOf
      cases volume.readBlock blockNumber with
      | error e => rfl
      | ok block =>
          show (do
            walkBlock volume.blockSize visit block (volume.blockSize / 8 + 1) 0
            walkBlocks volume visit blockNumbers) = _
          rw [walkBlock_eq, ih]
          exact (Listing.visitAll_bind visit _ _).symm

/-- **An activation of the walk visits the records.** -/
theorem walkDirectory_eq (nested : Nat) (directory : Ext4Inode) (pathLen : Nat) :
    walkDirectory volume levels (nested + 1) directory pathLen
      = (directoryRecords volume levels directory).visitAll
          (visitRecord volume (walkDirectory volume levels nested) pathLen) := by
  unfold walkDirectory directoryRecords
  cases collectInodeExtents volume levels directory with
  | error halt => rfl
  | ok extents => exact walkBlocks_eq _ (extentBlocks extents)

end Visit

/-! ## §2. Paths of the tree. -/

/-- The path with these components. -/
def joined (names : List Bytes) : Bytes := names.flatMap (separator :: ·)

theorem joined_cons (name : Bytes) (names : List Bytes) :
    joined (name :: names) = (separator :: name) ++ joined names := List.flatMap_cons

/-- The first component of a joined path can be read off. -/
theorem joined_head {name name' : Bytes} {names names' : List Bytes} (hname : separator ∉ name)
    (hname' : separator ∉ name') (h : joined (name :: names) = joined (name' :: names')) :
    name = name' := by
  have hhead : ∀ (n : Bytes) (ns : List Bytes), separator ∉ n →
      ((joined (n :: ns)).drop 1).takeWhile (· != separator) = n := by
    intro n ns hn
    have hnone : (joined ns).takeWhile (· != separator) = [] := by
      cases ns <;> rfl
    show (n ++ joined ns).takeWhile _ = n
    rw [List.takeWhile_append_of_pos, hnone, List.append_nil]
    intro b hb
    rw [bne_iff_ne]
    rintro rfl
    exact hn hb
  rw [← hhead name names hname, h, hhead name' names' hname']

section Tree

variable (volume : Ext4Volume) (levels : Nat)

/-- **The names lead from a directory to an inode**: through directories only, and without
    the entries for a directory itself and for the one above it. -/
inductive Leads : (directory : Ext4Inode) → (names : List Bytes) → (number : Nat) → Ext4Inode → Prop
    where
  | here {directory inode : Ext4Inode} {record : DirectoryRecord}
      (hrecord : record ∈ (directoryRecords volume levels directory).items)
      (hname : record.name ≠ ascii "." ∧ record.name ≠ ascii "..")
      (hinode : volume.readInode record.inodeNumber = .ok inode) :
      Leads directory [record.name] record.inodeNumber inode
  | through {directory child inode : Ext4Inode} {record : DirectoryRecord} {names : List Bytes}
      {number : Nat}
      (hrecord : record ∈ (directoryRecords volume levels directory).items)
      (hname : record.name ≠ ascii "." ∧ record.name ≠ ascii "..")
      (hinode : volume.readInode record.inodeNumber = .ok child)
      (hchild : child.isDirectory = true) (hbelow : Leads child names number inode) :
      Leads directory (record.name :: names) number inode

/-- The names in a directory are not empty, have no separator in them and differ.  They need
    not be UTF-8 here: a walk that comes to a file with another name fails. -/
structure ValidNames (directory : Ext4Inode) : Prop where
  nonempty    : ∀ record ∈ (directoryRecords volume levels directory).items, record.name ≠ []
  noSeparator : ∀ record ∈ (directoryRecords volume levels directory).items,
    separator ∉ record.name
  nodup       : ((directoryRecords volume levels directory).items.map (·.name)).Nodup

/-- The names are valid in a directory and in all directories below it. -/
def ValidBelow (directory : Ext4Inode) : Prop :=
  ValidNames volume levels directory
    ∧ ∀ names number inode, Leads volume levels directory names number inode →
        inode.isDirectory = true → ValidNames volume levels inode

variable {volume levels} {directory child inode : Ext4Inode} {record : DirectoryRecord}

theorem ValidBelow.subdirectory (hvalid : ValidBelow volume levels directory)
    (hrecord : record ∈ (directoryRecords volume levels directory).items)
    (hname : record.name ≠ ascii "." ∧ record.name ≠ ascii "..")
    (hinode : volume.readInode record.inodeNumber = .ok child)
    (hchild : child.isDirectory = true) : ValidBelow volume levels child :=
  ⟨hvalid.2 _ _ _ (.here hrecord hname hinode) hchild,
    fun _ number inode hleads hdir =>
      hvalid.2 _ number inode (.through hrecord hname hinode hchild hleads) hdir⟩

/-- Names that are valid in a directory and below each of its subdirectories are valid below it. -/
theorem ValidBelow.of_subdirectories (hnames : ValidNames volume levels directory)
    (hbelow : ∀ record ∈ (directoryRecords volume levels directory).items,
      record.name ≠ ascii "." ∧ record.name ≠ ascii ".." → ∀ child,
      volume.readInode record.inodeNumber = .ok child → child.isDirectory = true →
      ValidBelow volume levels child) : ValidBelow volume levels directory := by
  refine ⟨hnames, ?_⟩
  intro names number inode hleads hdir
  cases hleads with
  | here hrecord hname hinode => exact (hbelow _ hrecord hname _ hinode hdir).1
  | through hrecord hname hinode hchild hleads =>
      exact (hbelow _ hrecord hname _ hinode hchild).2 _ _ _ hleads hdir

/-- The first component of a path of the tree is the name of a record. -/
theorem Leads.first_record {names : List Bytes} {number : Nat}
    (hleads : Leads volume levels directory names number inode) :
    ∃ record names', record ∈ (directoryRecords volume levels directory).items
      ∧ names = record.name :: names' := by
  cases hleads with
  | here hrecord hname hinode => exact ⟨_, [], hrecord, rfl⟩
  | through hrecord hname hinode hchild hbelow => exact ⟨_, _, hrecord, rfl⟩

/-- All components of a path of the tree are names without a separator. -/
theorem Leads.names_valid {names : List Bytes} {number : Nat}
    (hleads : Leads volume levels directory names number inode)
    (hvalid : ValidBelow volume levels directory) :
    ∀ name ∈ names, name ≠ [] ∧ separator ∉ name := by
  induction hleads with
  | here hrecord hname hinode =>
      intro name hmem
      obtain rfl := List.mem_singleton.mp hmem
      exact ⟨hvalid.1.nonempty _ hrecord, hvalid.1.noSeparator _ hrecord⟩
  | through hrecord hname hinode hchild _ ih =>
      intro name hmem
      obtain rfl | hmem := List.mem_cons.mp hmem
      · exact ⟨hvalid.1.nonempty _ hrecord, hvalid.1.noSeparator _ hrecord⟩
      · exact ih (hvalid.subdirectory hrecord hname hinode hchild) name hmem

/-- The record that a name stands for is the only one. -/
theorem ValidNames.record_unique (hvalid : ValidNames volume levels directory)
    {record' : DirectoryRecord}
    (hrecord : record ∈ (directoryRecords volume levels directory).items)
    (hrecord' : record' ∈ (directoryRecords volume levels directory).items)
    (hname : record'.name = record.name) : record' = record :=
  List.inj_on_of_nodup_map hvalid.nodup hrecord' hrecord hname

/-- What leads on from a directory by the name of a record goes through this record. -/
theorem Leads.inv (hvalid : ValidNames volume levels directory)
    (hrecord : record ∈ (directoryRecords volume levels directory).items) {names : List Bytes}
    {number : Nat} (hleads : Leads volume levels directory (record.name :: names) number inode) :
    (record.name ≠ ascii "." ∧ record.name ≠ ascii "..")
    ∧ (names = [] ∧ number = record.inodeNumber ∧ volume.readInode record.inodeNumber = .ok inode
      ∨ ∃ child, volume.readInode record.inodeNumber = .ok child ∧ child.isDirectory = true
          ∧ Leads volume levels child names number inode) := by
  generalize hpath : record.name :: names = path at hleads
  cases hleads with
  | here hrecord' hname hinode =>
      obtain ⟨hsame, rfl⟩ := List.cons.inj hpath
      obtain rfl := hvalid.record_unique hrecord' hrecord hsame
      exact ⟨hname, .inl ⟨rfl, rfl, hinode⟩⟩
  | through hrecord' hname hinode hchild hbelow =>
      obtain ⟨hsame, rfl⟩ := List.cons.inj hpath
      obtain rfl := hvalid.record_unique hrecord' hrecord hsame
      exact ⟨hname, .inr ⟨_, hinode, hchild, hbelow⟩⟩

end Tree

/-! ## §3. Resolution of a path of the tree. -/

theorem trimLeadingSeparators_of_name {name : Bytes} (hname : name ≠ [] ∧ separator ∉ name)
    (rest : Bytes) : trimLeadingSeparators (name ++ rest) = name ++ rest := by
  obtain ⟨hne, hfree⟩ := hname
  cases name with
  | nil => exact absurd rfl hne
  | cons b bs =>
      have hb : (b == separator) = false := by
        rw [beq_eq_false_iff_ne]
        rintro rfl
        exact hfree List.mem_cons_self
      unfold trimLeadingSeparators
      rw [List.cons_append, List.dropWhile_cons, hb]
      rfl

/-- **The first component of a path without its leading separator.** -/
theorem splitPathComponent_joined {name : Bytes} {names : List Bytes}
    (hname : name ≠ [] ∧ separator ∉ name) (hnames : ∀ n ∈ names, n ≠ [] ∧ separator ∉ n) :
    splitPathComponent (name ++ joined names) = .ok (name, (joined names).drop 1) := by
  have hnone : name.findIdx? (· == separator) = none := by
    rw [List.findIdx?_eq_none_iff]
    intro b hb
    rw [beq_eq_false_iff_ne]
    rintro rfl
    exact hname.2 hb
  unfold splitPathComponent
  rw [trimLeadingSeparators_of_name hname]
  dsimp only
  rw [if_neg (fun h => hname.1 (List.append_eq_nil_iff.mp h).1), List.findIdx?_append, hnone]
  cases names with
  | nil =>
      rw [joined, List.flatMap_nil, List.append_nil]
      rfl
  | cons next names =>
      rw [joined_cons]
      have hfirst : ((separator :: next) ++ joined names).findIdx? (· == separator) = some 0 := rfl
      rw [hfirst]
      show Except.ok ((name ++ ((separator :: next) ++ joined names)).take (0 + name.length),
        trimLeadingSeparators
          ((name ++ ((separator :: next) ++ joined names)).drop (0 + name.length + 1))) = _
      rw [Nat.zero_add, List.take_left, ← List.drop_drop, List.drop_left]
      show Except.ok (name, trimLeadingSeparators (next ++ joined names)) = _
      rw [trimLeadingSeparators_of_name (hnames next List.mem_cons_self)]
      rfl

section Resolve

variable {volume : Ext4Volume} {levels : Nat}

theorem findDirectoryEntry_of_record {directory : Ext4Inode} {record : DirectoryRecord}
    (hvalid : ValidNames volume levels directory)
    (hrecord : record ∈ (directoryRecords volume levels directory).items) :
    findDirectoryEntry volume levels directory record.name = .ok record.inodeNumber := by
  have hfind : (directoryRecords volume levels directory).find (hasName record.name)
      = .ok (.inl record) := Listing.find_of_nodup hvalid.nodup hrecord
  rw [findDirectoryEntry_eq, hfind]
  rfl

/-- One pass of resolution, for a name of the current directory. -/
theorem resolveLoop_step {expand : Expand} {passes current : Nat} {directory child : Ext4Inode}
    {record : DirectoryRecord} {names : List Bytes}
    (hcurrent : volume.readInode current = .ok directory) (hdir : directory.isDirectory = true)
    (hvalid : ValidNames volume levels directory)
    (hrecord : record ∈ (directoryRecords volume levels directory).items)
    (hname : record.name ≠ ascii "." ∧ record.name ≠ ascii "..")
    (hnames : ∀ n ∈ names, n ≠ [] ∧ separator ∉ n)
    (hinode : volume.readInode record.inodeNumber = .ok child) (hlink : child.isSymlink = false) :
    resolveLoop volume levels expand (passes + 1) current (record.name ++ joined names)
      = resolveLoop volume levels expand passes record.inodeNumber ((joined names).drop 1) := by
  have hproper : record.name ≠ [] ∧ separator ∉ record.name :=
    ⟨hvalid.nonempty _ hrecord, hvalid.noSeparator _ hrecord⟩
  rw [resolveLoop, if_neg (fun h => hproper.1 (List.append_eq_nil_iff.mp h).1), hcurrent]
  show (if directory.isDirectory = false then _ else _) = _
  rw [if_neg (by rw [hdir]; decide), splitPathComponent_joined hproper hnames]
  show (if record.name = ascii "." then _ else _) = _
  rw [if_neg hname.1, if_neg hname.2, findDirectoryEntry_of_record hvalid hrecord]
  show (ended (volume.readInode record.inodeNumber) >>= _) = _
  rw [hinode]
  show (if child.isSymlink = true then _ else _) = _
  rw [if_neg (by rw [hlink]; decide)]

/-- **Resolution follows every path of the tree** that does not end in a symlink. -/
theorem resolveLoop_of_leads {expand : Expand} {passes current number : Nat}
    {directory inode : Ext4Inode} {names : List Bytes}
    (hleads : Leads volume levels directory names number inode)
    (hvalid : ValidBelow volume levels directory) (hdir : directory.isDirectory = true)
    (hcurrent : volume.readInode current = .ok directory) (hlink : inode.isSymlink = false)
    (hpasses : (joined names).length ≤ passes) :
    resolveLoop volume levels expand passes current ((joined names).drop 1) = .ok (number, inode) := by
  induction hleads generalizing passes current with
  | @here directory inode record hrecord hname hinode =>
      cases passes with
      | zero => exact absurd hpasses (Nat.not_succ_le_zero _)
      | succ passes =>
          rw [joined_cons]
          show resolveLoop volume levels expand (passes + 1) current (record.name ++ joined []) = _
          rw [resolveLoop_step hcurrent hdir hvalid.1 hrecord hname (fun n hn => (by cases hn))
            hinode hlink]
          -- nothing remains, and the inode is read once more
          cases passes with
          | zero =>
              rw [joined_cons, List.length_append, List.length_cons] at hpasses
              exact absurd (hvalid.1.nonempty _ hrecord)
                (not_not.mpr (List.eq_nil_of_length_eq_zero (by omega)))
          | succ passes =>
              show (ended (volume.readInode record.inodeNumber) >>= _) = _
              rw [hinode]
              rfl
  | @through directory child inode record names number hrecord hname hinode hchild hbelow ih =>
      cases passes with
      | zero => exact absurd hpasses (Nat.not_succ_le_zero _)
      | succ passes =>
          have hvalid' := hvalid.subdirectory hrecord hname hinode hchild
          rw [joined_cons] at hpasses ⊢
          rw [List.length_append, List.length_cons] at hpasses
          show resolveLoop volume levels expand (passes + 1) current (record.name ++ joined names) = _
          rw [resolveLoop_step hcurrent hdir hvalid.1 hrecord hname (hbelow.names_valid hvalid')
            hinode (child.isSymlink_of_isDirectory hchild)]
          exact ih hvalid' hchild hinode hlink (by omega)

end Resolve

/-! ## §4. What the walk reports. -/

section Reports

variable (volume : Ext4Volume) (levels : Nat)

/-- The buffer begins with the bytes of `path`. -/
def Holds (path : Bytes) (s : WalkState) : Prop :=
  s.path.length = ext4PathBytes ∧ s.path.take path.length = path

/-- A report about an inode that is led to from `directory`, whose own path is `path`. -/
def Sound (directory : Ext4Inode) (path : Bytes) (report : Bytes × Nat) : Prop :=
  ∃ names number inode, Leads volume levels directory names number inode
    ∧ inode.isDirectory = false ∧ report = (path ++ joined names, inode.sizeBytes)

/-- Among the reports there is exactly one for each inode that is led to. -/
def Complete (directory : Ext4Inode) (path : Bytes) (reports : List (Bytes × Nat)) : Prop :=
  ∀ names number inode, Leads volume levels directory names number inode →
    inode.isDirectory = false →
    reports.filter (fun report => report.1 == path ++ joined names)
      = [(path ++ joined names, inode.sizeBytes)]

/-- `Sound` for the paths that go through one record. -/
def RecordSound (directory : Ext4Inode) (path : Bytes) (record : DirectoryRecord)
    (report : Bytes × Nat) : Prop :=
  ∃ names number inode, Leads volume levels directory (record.name :: names) number inode
    ∧ inode.isDirectory = false ∧ report = (path ++ joined (record.name :: names), inode.sizeBytes)

/-- `Complete` for the paths that go through one record, and nothing else. -/
def RecordComplete (directory : Ext4Inode) (path : Bytes) (record : DirectoryRecord)
    (reports : List (Bytes × Nat)) : Prop :=
  (∀ names number inode, Leads volume levels directory (record.name :: names) number inode →
    inode.isDirectory = false →
    reports.filter (fun report => report.1 == path ++ joined (record.name :: names))
      = [(path ++ joined (record.name :: names), inode.sizeBytes)])
  ∧ ∀ report ∈ reports, RecordSound volume levels directory path record report

variable {volume levels} {directory child : Ext4Inode} {path : Bytes} {record : DirectoryRecord}
  {s s' : WalkState}

/-- A shorter path is at the beginning too. -/
theorem Holds.shorter {more : Bytes} (h : Holds (path ++ more) s) : Holds path s := by
  refine ⟨h.1, ?_⟩
  have htake := congrArg (List.take path.length) h.2
  rw [List.take_take, List.length_append, Nat.min_eq_left (Nat.le_add_right _ _),
    List.take_left] at htake
  exact htake

theorem appendPathComponent_cases (buffer : Bytes) (pathLen : Nat) (component : Bytes) :
    pathLen + 1 + component.length ≤ buffer.length
      ∧ appendPathComponent buffer pathLen component
          = .ok (overwrite buffer pathLen (separator :: component), pathLen + 1 + component.length)
    ∨ appendPathComponent buffer pathLen component = .error .nameTooLong :=
  appendComponent_cases Ext4Error.nameTooLong separator buffer pathLen component

/-- **Appending a component to the shared buffer**: the path in it grows, or nothing
    happens. -/
theorem append_cases (hholds : Holds path s) (component : Bytes) :
    (∃ s', Walk.append path.length component s
        = (.ok (path ++ separator :: component).length, s')
      ∧ Holds (path ++ separator :: component) s' ∧ s'.reported = s.reported)
    ∨ Walk.append path.length component s = (.error (.error .nameTooLong), s) := by
  obtain ⟨hlength, htake⟩ := hholds
  have hlen : (path ++ separator :: component).length = path.length + 1 + component.length := by
    rw [List.length_append, List.length_cons]
    omega
  unfold Walk.append
  obtain ⟨hroom, happend⟩ | hlong := appendPathComponent_cases s.path path.length component
  · left
    have hfits : path.length + (separator :: component).length ≤ s.path.length :=
      appendComponent_fits hroom
    refine ⟨{ s with path := overwrite s.path path.length (separator :: component) }, ?_, ?_, rfl⟩
    · rw [happend, hlen]
    · refine ⟨(overwrite_length hfits).trans hlength, ?_⟩
      show (overwrite s.path path.length (separator :: component)).take _ = _
      rw [List.length_append, take_overwrite hfits, htake]
  · right
    rw [hlong]

theorem report_cases (hholds : Holds path s) (sizeBytes : Nat) :
    Walk.report path.length sizeBytes s
        = (.ok (), { s with reported := s.reported ++ [(path, sizeBytes)] })
    ∨ Walk.report path.length sizeBytes s = (.error (.error .invalidDirectoryEntry), s) := by
  unfold Walk.report
  rw [hholds.2]
  cases hutf8 : fromUtf8 path with
  | none => exact .inr rfl
  | some filePath =>
      obtain ⟨-, rfl⟩ := fromUtf8_eq_some.mp hutf8
      exact .inl rfl

/-- What a call of the walk below `directory` adds to the reports. -/
def WalkSpec (volume : Ext4Volume) (levels : Nat) (directory : Ext4Inode) (path : Bytes)
    (walk : Walk Unit) : Prop :=
  ∀ s, Holds path s → ∃ new, Holds path (walk s).2 ∧ (walk s).2.reported = s.reported ++ new
    ∧ (∀ report ∈ new, Sound volume levels directory path report)
    ∧ ((walk s).1 = .ok () → Complete volume levels directory path new)

theorem path_joined (path name : Bytes) (names : List Bytes) :
    path ++ joined (name :: names) = (path ++ separator :: name) ++ joined names := by
  rw [joined_cons, List.append_assoc]

/-- **What is done for one record.** -/
theorem visitRecord_appends {descend : Ext4Inode → (pathLen : Nat) → Walk Unit}
    (hvalid : ValidBelow volume levels directory)
    (hrecord : record ∈ (directoryRecords volume levels directory).items)
    (hdescend : ∀ child path', ValidBelow volume levels child →
      WalkSpec volume levels child path' (descend child path'.length)) :
    Appends (visitRecord volume descend path.length) WalkState.reported (Holds path)
      (RecordSound volume levels directory path) (RecordComplete volume levels directory path)
      record := by
  intro s hholds
  unfold visitRecord
  by_cases hname : record.name ≠ ascii "." ∧ record.name ≠ ascii ".."
  case neg =>
    -- the entries for the directory and the one above it lead nowhere
    rw [if_neg hname]
    refine ⟨[], hholds, (List.append_nil _).symm, fun b hb => (by cases hb), fun _ => ⟨?_, ?_⟩⟩
    · intro names number inode hleads
      exact absurd (hleads.inv hvalid.1 hrecord).1 hname
    · intro report hreport
      cases hreport
  case pos =>
    rw [if_pos hname]
    obtain ⟨s₁, happend, hholds₁, hreported₁⟩ | hlong := append_cases hholds record.name
    case inr =>
      rw [Keep.bind_error hlong]
      exact ⟨[], hholds, (List.append_nil _).symm, fun b hb => (by cases hb),
        fun h => (by cases h)⟩
    case inl =>
      rw [Keep.bind_ok happend]
      cases hinode : volume.readInode record.inodeNumber with
      | error e =>
          exact ⟨[], hholds₁.shorter, by rw [List.append_nil]; exact hreported₁,
            fun b hb => (by cases hb), fun h => (by cases h)⟩
      | ok child =>
          have hone : path ++ joined [record.name] = path ++ separator :: record.name := by
            rw [path_joined, joined, List.flatMap_nil, List.append_nil]
          have hread : ∀ next : Ext4Inode → Walk Unit,
              (Keep.lift (ended (Except.ok child)) >>= next) s₁ = next child s₁ := fun _ => rfl
          rw [hread]
          by_cases hchild : child.isDirectory = true
          case pos =>
            obtain ⟨new, hholds', hreported', hsound, hcomplete⟩ := hdescend child _
              (hvalid.subdirectory hrecord hname hinode hchild) s₁ hholds₁
            have hsound' : ∀ report ∈ new, RecordSound volume levels directory path record report := by
              intro report hreport
              obtain ⟨names, number, inode, hleads, hfile, rfl⟩ := hsound report hreport
              exact ⟨names, number, inode, .through hrecord hname hinode hchild hleads, hfile,
                by rw [path_joined]⟩
            rw [if_pos hchild]
            refine ⟨new, hholds'.shorter, by rw [← hreported₁]; exact hreported', hsound', ?_⟩
            intro hok
            refine ⟨?_, hsound'⟩
            intro names number inode hleads hfile
            obtain ⟨-, ⟨-, -, hsame⟩ | ⟨child', hsame, -, hbelow⟩⟩ := hleads.inv hvalid.1 hrecord
            · -- the record itself is a directory
              rw [hinode] at hsame
              cases hsame
              rw [hchild] at hfile
              cases hfile
            · rw [hinode] at hsame
              cases hsame
              rw [path_joined]
              exact hcomplete hok names number inode hbelow hfile
          case neg =>
            have hfile : child.isDirectory = false := by simpa using hchild
            rw [if_neg hchild]
            obtain hreport | hinvalid := report_cases hholds₁ child.sizeBytes
            case inr =>
              rw [hinvalid]
              exact ⟨[], hholds₁.shorter, by rw [List.append_nil]; exact hreported₁,
                fun b hb => (by cases hb), fun h => (by cases h)⟩
            case inl =>
              have hsound : ∀ report ∈ [(path ++ separator :: record.name, child.sizeBytes)],
                  RecordSound volume levels directory path record report := by
                intro report hmem
                obtain rfl := List.mem_singleton.mp hmem
                exact ⟨[], record.inodeNumber, child, .here hrecord hname hinode, hfile,
                  by rw [hone]⟩
              rw [hreport]
              refine ⟨_, hholds₁.shorter, by rw [hreported₁], hsound, fun _ => ⟨?_, hsound⟩⟩
              intro names number inode hleads _
              obtain ⟨-, ⟨rfl, -, hsame⟩ | ⟨child', hsame, hdir, -⟩⟩ := hleads.inv hvalid.1 hrecord
              · rw [hinode] at hsame
                cases hsame
                rw [hone, List.filter_singleton, beq_self_eq_true]
                rfl
              · rw [hinode] at hsame
                cases hsame
                exact absurd hdir hchild

/-- The reports of the other records have other paths. -/
theorem RecordComplete.filter_other {names : List Bytes} {name : Bytes}
    {reports : List (Bytes × Nat)} (hvalid : ValidBelow volume levels directory)
    (hname : separator ∉ name)
    (hcomplete : RecordComplete volume levels directory path record reports)
    (hother : record.name ≠ name) :
    reports.filter (fun report => report.1 == path ++ joined (name :: names)) = [] := by
  rw [List.filter_eq_nil_iff]
  intro report hreport hpath
  obtain ⟨names', number, inode, hleads, -, rfl⟩ := hcomplete.2 report hreport
  have hproper := hleads.names_valid hvalid record.name List.mem_cons_self
  have hsame := List.append_cancel_left (beq_iff_eq.mp hpath)
  exact hother (joined_head hproper.2 hname hsame)

/-- **What a call of the walk reports.** -/
theorem walkDirectory_spec (nested : Nat) (directory : Ext4Inode) (path : Bytes)
    (hvalid : ValidBelow volume levels directory) :
    WalkSpec volume levels directory path
      (walkDirectory volume levels nested directory path.length) := by
  induction nested generalizing directory path with
  | zero =>
      intro s hholds
      exact ⟨[], hholds, (List.append_nil _).symm, fun b hb => (by cases hb), fun h => (by cases h)⟩
  | succ nested ih =>
      intro s hholds
      rw [walkDirectory_eq]
      obtain ⟨pieces, hholds', hreported, hsound, hcomplete⟩ := Listing.visitAll_appends
        (fun record hrecord => visitRecord_appends hvalid hrecord
          (fun child path' hvalid' => ih child path' hvalid')) hholds
      refine ⟨pieces.flatten, hholds', hreported, ?_, ?_⟩
      · intro report hreport
        obtain ⟨record, -, names, number, inode, hleads, hfile, hsame⟩ := hsound report hreport
        exact ⟨record.name :: names, number, inode, hleads, hfile, hsame⟩
      · intro hok names number inode hleads hfile
        obtain ⟨record, names, hrecord, rfl⟩ := hleads.first_record
        obtain ⟨piece, hpiece, hfilter⟩ := filter_flatten_of_nodup (hcomplete hok) hvalid.1.nodup
          hrecord (fun record' piece hpiece hother =>
            hpiece.filter_other hvalid (hvalid.1.noSeparator _ hrecord) hother)
        rw [hfilter]
        exact hpiece.1 names number inode hleads hfile

end Reports

/-! ## §5. The walk from the root. -/

section Walk

variable {volume : Ext4Volume} {levels : Nat}

/-- The names lead from the root directory to an inode. -/
def LeadsFromRoot (volume : Ext4Volume) (levels : Nat) (names : List Bytes) (number : Nat)
    (inode : Ext4Inode) : Prop :=
  ∃ root, volume.readInode ext4RootInode = .ok root ∧ root.isDirectory = true
    ∧ Leads volume levels root names number inode

/-- The names are valid in all directories of the tree. -/
def ValidTree (volume : Ext4Volume) (levels : Nat) : Prop :=
  ∀ root, volume.readInode ext4RootInode = .ok root → root.isDirectory = true →
    ValidBelow volume levels root

/-- **A path of the tree resolves to the inode it leads to.** -/
theorem resolvePath_of_leads {names : List Bytes} {number : Nat} {inode : Ext4Inode}
    (hvalid : ValidTree volume levels) (hleads : LeadsFromRoot volume levels names number inode)
    (hlink : inode.isSymlink = false) :
    resolvePath volume levels (joined names) = .ok (number, inode) := by
  obtain ⟨root, hroot, hdir, hleads⟩ := hleads
  have hbelow := hvalid root hroot hdir
  have hnames := hleads.names_valid hbelow
  have hresolve : ∀ expand, resolveUpToSymlink volume levels expand ext4RootInode (joined names)
      = .ok (number, inode) := by
    intro expand
    unfold resolveUpToSymlink
    obtain ⟨record, names, hrecord, rfl⟩ := hleads.first_record
    have htrim : trimLeadingSeparators (joined (record.name :: names))
        = (joined (record.name :: names)).drop 1 :=
      trimLeadingSeparators_of_name (hnames _ List.mem_cons_self) (joined names)
    have hhead : (joined (record.name :: names)).head? = some separator := rfl
    dsimp only
    rw [htrim, if_pos hhead]
    refine resolveLoop_of_leads hleads hbelow hdir hroot hlink ?_
    rw [List.length_drop]
    omega
  exact hresolve _

/-- The state a walk of the root begins with. -/
def emptyWalk : WalkState := { path := List.replicate ext4PathBytes 0, reported := [] }

/-- A walk of the root is a walk of its inode, if that is a directory. -/
theorem walkFilesInDirectory_root (volume : Ext4Volume) (levels : Nat) :
    ((walkFilesInDirectory volume levels (ascii "/")).2 = []
      ∧ (walkFilesInDirectory volume levels (ascii "/")).1 ≠ .ok ())
    ∨ ∃ root, volume.readInode ext4RootInode = .ok root ∧ root.isDirectory = true
        ∧ walkFilesInDirectory volume levels (ascii "/")
          = ((walkDirectory volume levels (ext4PathBytes + 1) root 0 emptyWalk).1,
              (walkDirectory volume levels (ext4PathBytes + 1) root 0 emptyWalk).2.reported) := by
  have hslash : resolvePath volume levels (ascii "/")
      = (ended (volume.readInode ext4RootInode) >>= fun root => .ok (ext4RootInode, root)) := rfl
  cases hroot : volume.readInode ext4RootInode with
  | error e =>
      left
      unfold walkFilesInDirectory
      rw [hslash, hroot]
      exact ⟨rfl, fun hok => (by cases hok)⟩
  | ok root =>
      rw [hroot] at hslash
      by_cases hdir : root.isDirectory = false
      · left
        have hwalk : walkFilesInDirectory volume levels (ascii "/")
            = (.error (.error .notDirectory), []) := by
          unfold walkFilesInDirectory
          rw [hslash]
          exact if_pos hdir
        rw [hwalk]
        exact ⟨rfl, fun hok => (by cases hok)⟩
      · right
        refine ⟨root, rfl, by simpa using hdir, ?_⟩
        unfold walkFilesInDirectory
        rw [hslash]
        exact if_neg hdir

theorem holds_emptyWalk : Holds [] emptyWalk := ⟨List.length_replicate, rfl⟩

/-- **The walk and the resolution agree.**  Whatever the walk of the root reports, also
    before it fails, is the path and the size of an inode that its names lead to, and if that
    is a regular file then the path resolves to it; and a walk that succeeds reports every
    regular file that names lead to exactly once. -/
theorem walkFilesInDirectory_resolves (volume : Ext4Volume) (levels : Nat)
    (hvalid : ValidTree volume levels) :
    (∀ report ∈ (walkFilesInDirectory volume levels (ascii "/")).2,
      ∃ names number inode, LeadsFromRoot volume levels names number inode
        ∧ inode.isDirectory = false ∧ report = (joined names, inode.sizeBytes)
        ∧ (inode.isRegularFile = true → resolvePath volume levels report.1 = .ok (number, inode)))
    ∧ ((walkFilesInDirectory volume levels (ascii "/")).1 = .ok () →
        ∀ names number inode, LeadsFromRoot volume levels names number inode →
          inode.isRegularFile = true →
          (walkFilesInDirectory volume levels (ascii "/")).2.filter
              (fun report => report.1 == joined names)
            = [(joined names, inode.sizeBytes)]) := by
  obtain ⟨hnone, hfails⟩ | ⟨root, hroot, hdir, hwalk⟩ := walkFilesInDirectory_root volume levels
  · rw [hnone]
    exact ⟨fun report hreport => (by cases hreport), fun hok => absurd hok hfails⟩
  · obtain ⟨reports, -, hreported, hsound, hcomplete⟩ :=
      walkDirectory_spec (ext4PathBytes + 1) root [] (hvalid root hroot hdir) emptyWalk
        holds_emptyWalk
    have hreports : (walkFilesInDirectory volume levels (ascii "/")).2 = reports := by
      rw [hwalk]
      exact hreported
    have hresult : (walkFilesInDirectory volume levels (ascii "/")).1
        = (walkDirectory volume levels (ext4PathBytes + 1) root 0 emptyWalk).1 := by
      rw [hwalk]
    rw [hreports, hresult]
    constructor
    · intro report hreport
      obtain ⟨names, number, inode, hleads, hfile, rfl⟩ := hsound report hreport
      refine ⟨names, number, inode, ⟨root, hroot, hdir, hleads⟩, hfile, rfl, fun hregular => ?_⟩
      exact resolvePath_of_leads hvalid ⟨root, hroot, hdir, hleads⟩
        (inode.isSymlink_of_isRegularFile hregular)
    · rintro hok names number inode ⟨root', hroot', -, hleads⟩ hregular
      rw [hroot] at hroot'
      cases hroot'
      exact hcomplete hok names number inode hleads (inode.isDirectory_of_isRegularFile hregular)

end Walk

/-! ## §6. An example. -/

/-- An inode in the inode table. -/
def inodeRecord (mode sizeBytes : Nat) (extent : Ext4Extent) : Bytes :=
  leBytes 2 mode ++ leBytes 2 0 ++ leBytes 4 sizeBytes ++ List.replicate 24 0
    ++ leBytes 4 ext4InodeFlagExtents ++ List.replicate 4 0 ++ leafNode extent
    ++ List.replicate 64 0

/-- A record in a directory block. -/
def recordBytes (inodeNumber recordLength : Nat) (name : Bytes) : Bytes :=
  leBytes 4 inodeNumber ++ leBytes 2 recordLength ++ leBytes 1 name.length ++ [0] ++ name
    ++ List.replicate (4 - name.length) 0

/-- A volume with the file `a` and the directory `d` in its root directory, and the file `b` in
    `d`. -/
def treeVolume : Ext4Volume := volumeOf (fun lba =>
  if lba = 4 then List.replicate 8 0 ++ leBytes 4 3
  else if lba = 6 then
    List.replicate 128 0 ++ inodeRecord ext4ModeDirectory 1024 ⟨0, 1, 4⟩
      ++ inodeRecord ext4ModeRegular 5 ⟨0, 1, 5⟩ ++ inodeRecord ext4ModeDirectory 1024 ⟨0, 1, 6⟩
  else if lba = 7 then inodeRecord ext4ModeRegular 7 ⟨0, 1, 7⟩
  else if lba = 8 then
    recordBytes 2 12 (ascii ".") ++ recordBytes 2 12 (ascii "..") ++ recordBytes 3 12 (ascii "a")
      ++ recordBytes 4 988 (ascii "d")
  else if lba = 12 then
    recordBytes 4 12 (ascii ".") ++ recordBytes 2 12 (ascii "..") ++ recordBytes 5 1000 (ascii "b")
  else [])

theorem leafBlock_length (extent : Ext4Extent) :
    (leafNode extent ++ List.replicate 36 0).length = 60 := by
  rw [List.length_append, List.length_replicate]
  rfl

/-- Its inodes as they are read. -/
def singleFileInode (inodeNumber mode sizeBytes : Nat) (extent : Ext4Extent) : Ext4Inode where
  inodeNumber      := inodeNumber
  mode             := mode
  sizeBytes        := sizeBytes
  flags            := ext4InodeFlagExtents
  blockData        := leafNode extent ++ List.replicate 36 0
  blockData_length := leafBlock_length extent

set_option maxRecDepth 20000 in
/-- The walk of that tree, and what it says of the file below `d`. -/
theorem walkFilesInDirectory_resolves_example :
    walkFilesInDirectory treeVolume 6 (ascii "/") = (.ok (), [(ascii "/a", 5), (ascii "/d/b", 7)])
    ∧ (walkFilesInDirectory treeVolume 6 (ascii "/")).2.filter
        (fun report => report.1 == joined [ascii "d", ascii "b"])
      = [(joined [ascii "d", ascii "b"], 7)] := by
  have hroot : treeVolume.readInode ext4RootInode
      = .ok (singleFileInode 2 ext4ModeDirectory 1024 ⟨0, 1, 4⟩) := by decide +kernel
  have ha : treeVolume.readInode 3 = .ok (singleFileInode 3 ext4ModeRegular 5 ⟨0, 1, 5⟩) := by
    decide +kernel
  have hd : treeVolume.readInode 4 = .ok (singleFileInode 4 ext4ModeDirectory 1024 ⟨0, 1, 6⟩) := by
    decide +kernel
  have hb : treeVolume.readInode 5 = .ok (singleFileInode 5 ext4ModeRegular 7 ⟨0, 1, 7⟩) := by
    decide +kernel
  have hrootItems : (directoryRecords treeVolume 6
      (singleFileInode 2 ext4ModeDirectory 1024 ⟨0, 1, 4⟩)).items
        = [⟨2, 12, ascii "."⟩, ⟨2, 12, ascii ".."⟩, ⟨3, 12, ascii "a"⟩, ⟨4, 988, ascii "d"⟩] := by
    decide +kernel
  have hdItems : (directoryRecords treeVolume 6
      (singleFileInode 4 ext4ModeDirectory 1024 ⟨0, 1, 6⟩)).items
        = [⟨4, 12, ascii "."⟩, ⟨2, 12, ascii ".."⟩, ⟨5, 1000, ascii "b"⟩] := by decide +kernel
  have hwalk : walkFilesInDirectory treeVolume 6 (ascii "/")
      = (.ok (), [(ascii "/a", 5), (ascii "/d/b", 7)]) := by decide +kernel
  -- the names that are not those of the directory itself and of the one above it
  have honlyRoot : ∀ record ∈ ([⟨2, 12, ascii "."⟩, ⟨2, 12, ascii ".."⟩, ⟨3, 12, ascii "a"⟩,
      ⟨4, 988, ascii "d"⟩] : List DirectoryRecord), record.name ≠ ascii "." ∧ record.name ≠ ascii ".." →
      record = ⟨3, 12, ascii "a"⟩ ∨ record = ⟨4, 988, ascii "d"⟩ := by decide
  have honlyD : ∀ record ∈ ([⟨4, 12, ascii "."⟩, ⟨2, 12, ascii ".."⟩, ⟨5, 1000, ascii "b"⟩] :
      List DirectoryRecord), record.name ≠ ascii "." ∧ record.name ≠ ascii ".." →
      record = ⟨5, 1000, ascii "b"⟩ := by decide
  have hvalidD : ValidBelow treeVolume 6 (singleFileInode 4 ext4ModeDirectory 1024 ⟨0, 1, 6⟩) := by
    refine ValidBelow.of_subdirectories ⟨?_, ?_, ?_⟩ ?_ <;> rw [hdItems]
    · decide
    · decide
    · decide
    · intro record hrecord hname child hchild hdir
      obtain rfl := honlyD record hrecord hname
      rw [hb] at hchild
      cases hchild
      cases hdir
  have hvalid : ValidTree treeVolume 6 := by
    intro root hroot' _
    rw [hroot] at hroot'
    cases hroot'
    refine ValidBelow.of_subdirectories ⟨?_, ?_, ?_⟩ ?_ <;> rw [hrootItems]
    · decide
    · decide
    · decide
    · intro record hrecord hname child hchild hdir
      obtain rfl | rfl := honlyRoot record hrecord hname
      · rw [ha] at hchild
        cases hchild
        cases hdir
      · rw [hd] at hchild
        cases hchild
        exact hvalidD
  have hrecordD : ⟨4, 988, ascii "d"⟩ ∈ (directoryRecords treeVolume 6
      (singleFileInode 2 ext4ModeDirectory 1024 ⟨0, 1, 4⟩)).items := by
    rw [hrootItems]
    decide
  have hrecordB : ⟨5, 1000, ascii "b"⟩ ∈ (directoryRecords treeVolume 6
      (singleFileInode 4 ext4ModeDirectory 1024 ⟨0, 1, 6⟩)).items := by
    rw [hdItems]
    decide
  have hleads : LeadsFromRoot treeVolume 6 [ascii "d", ascii "b"] 5
      (singleFileInode 5 ext4ModeRegular 7 ⟨0, 1, 7⟩) :=
    ⟨_, hroot, by decide,
      .through hrecordD (by decide) hd (by decide) (.here hrecordB (by decide) hb)⟩
  refine ⟨hwalk, ?_⟩
  exact (walkFilesInDirectory_resolves treeVolume 6 hvalid).2 (congrArg Prod.fst hwalk) _ 5 _ hleads
    (by decide)

end RustFirmware.Ext4
