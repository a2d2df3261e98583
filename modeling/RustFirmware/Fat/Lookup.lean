/-
  RustFirmware.Fat.Lookup
  ───────────────────────
  **WHEN A LOOKUP FINDS AN ENTRY.**

  An entry is found under its name if the scan gets to it.  A malformed long name in front
  of it only stops the scan if it is attached to a regular entry, is complete and is not
  UTF-16: `push` forgets every other one, but what `to_utf8` fails with ends the lookup
  (`findDirectoryEntry_ok_iff`).

  Without a long name, the name is what `decode_short_name` makes of the two fields.  It is
  the 8.3 name unless there is no extension or a `0x05` behind the first byte.
-/
import RustFirmware.Fat.Stream
import RustFirmware.Fat.Names

namespace RustFirmware.Fat

open RustFirmware.Lib
open RustFirmware.Virtio

/-! ## §1. Entries in front of others. -/

/-- The long name state in which a scan of a directory gets behind some entries. -/
def stateBehind (before : List Bytes) : LongNameState := before.foldl LongNameState.after .new

/-- A regular entry among some others, and those in front of it. -/
def Earlier (entries before : List Bytes) (entry : Bytes) : Prop :=
  IsRegular entry ∧ ∃ behind, entries = before ++ entry :: behind

theorem Earlier.cons {entries before : List Bytes} {entry : Bytes} (h : Earlier entries before entry)
    (first : Bytes) : Earlier (first :: entries) (first :: before) entry := by
  obtain ⟨hregular, behind, rfl⟩ := h
  exact ⟨hregular, behind, rfl⟩

/-- A directory holds a regular entry in front of its end. -/
structure HoldsEntry (volume : FatVolume) (clusters : Nat) (directory : DirectoryLocation)
    (before : List Bytes) (entry : Bytes) : Prop where
  items   : ∃ behind, (directoryEntries volume clusters directory).items = before ++ entry :: behind
  notEnd  : ∀ other ∈ before ++ [entry], byteAt other 0 ≠ 0x00
  regular : IsRegular entry

/-! ## §2. All entries are whole. -/

theorem entriesOf_length {count : Nat} {bytes : Bytes} (h : fatDirEntrySize * count ≤ bytes.length) :
    ∀ entry ∈ entriesOf count bytes, entry.length = fatDirEntrySize := by
  induction count generalizing bytes with
  | zero => exact fun entry hentry => absurd hentry List.not_mem_nil
  | succ count ih =>
      rw [Nat.mul_succ] at h
      unfold entriesOf
      refine List.forall_mem_cons.mpr ⟨?_, ih ?_⟩
      · rw [List.length_take]
        omega
      · rw [List.length_drop]
        omega

variable {volume : FatVolume}

theorem sectorsEntries_all (todo : Nat) (sector : UInt32) :
    (sectorsEntries volume todo sector).All (fun entry => entry.length = fatDirEntrySize) := by
  induction todo generalizing sector with
  | zero => exact Listing.All.pure ()
  | succ todo ih =>
      unfold sectorsEntries
      cases hread : volume.readRelativeBlocks sector with
      | error e => exact Listing.All.fail _
      | ok bytes =>
          have hlength := readRelativeBlocks_length hread
          exact Listing.All.bind (entriesOf_length (by rw [hlength]; decide)) (fun _ => ih (sector + 1))

theorem chainEntries_all (clusters : Nat) (cluster : UInt32) :
    (chainEntries volume clusters cluster).All (fun entry => entry.length = fatDirEntrySize) := by
  induction clusters generalizing cluster with
  | zero => exact Listing.All.fail _
  | succ clusters ih =>
      unfold chainEntries
      split
      · refine Listing.All.bind ?_ (fun next => ?_)
        · unfold clusterEntries
          cases volume.clusterFirstSector cluster with
          | error e => exact Listing.All.fail _
          | ok firstSector =>
              refine Listing.All.bind (sectorsEntries_all _ _) (fun _ => ?_)
              cases volume.nextCluster cluster with
              | error e => exact Listing.All.fail _
              | ok next => exact Listing.All.pure _
        · cases next with
          | none => exact Listing.All.pure ()
          | some next => exact ih next
      · exact Listing.All.pure ()

theorem directoryEntries_all (clusters : Nat) (directory : DirectoryLocation) :
    (directoryEntries volume clusters directory).All (fun entry => entry.length = fatDirEntrySize) := by
  unfold directoryEntries
  cases directory with
  | clusterChain cluster => exact chainEntries_all clusters cluster
  | rootDirectory =>
      cases volume.fatType with
      | fat16 => exact sectorsEntries_all _ _
      | fat32 => exact chainEntries_all clusters volume.rootCluster

/-! ## §3. What a scan gets through. -/

/-- A name that cannot be decoded is reported as such. -/
theorem nameOf_error {state : LongNameState} {entry : Bytes} {e : FatError}
    (h : state.nameOf entry = .error e) : e = .invalidLongName := by
  unfold LongNameState.nameOf at h
  by_cases hlong : state.matchesEntry entry = true
  · rw [if_pos hlong] at h
    cases hvalid : utf16Valid (nameUnits state.codeUnits) with
    | false =>
        rw [state.toUtf8_of_invalid hvalid] at h
        cases h
        rfl
    | true =>
        obtain ⟨name, hname⟩ := state.toUtf8_ok_iff.mpr hvalid
        rw [hname] at h
        cases h
  · rw [if_neg hlong] at h
    cases h

theorem recordOf_ok {state : LongNameState} {entry : Bytes} {record : FatRecord}
    (h : recordOf state entry = .ok record) :
    state.nameOf entry = .ok record.name ∧ parseDirectoryEntry entry = .ok record.entry := by
  cases hparse : parseDirectoryEntry entry with
  | error e =>
      unfold recordOf at h
      rw [hparse] at h
      cases h
  | ok directoryEntry =>
      obtain ⟨e, -, hfailed⟩ | ⟨record', hname, rfl, hrecord⟩ := recordOf_cases state hparse
      · rw [hfailed] at h
        cases h
      · rw [hrecord] at h
        cases h
        exact ⟨hname, rfl⟩

/-- The records of entries are those of the regular ones, under their names. -/
theorem exists_earlier {entries : List Bytes} {state : LongNameState} {record : FatRecord}
    (h : record ∈ (entriesRecords entries state).items) :
    ∃ before entry, Earlier entries before entry
      ∧ (before.foldl LongNameState.after state).nameOf entry = .ok record.name := by
  induction entries generalizing state with
  | nil => cases h
  | cons first entries ih =>
      have hlater : record ∈ (entriesRecords entries (state.after first)).items →
          ∃ before entry, Earlier (first :: entries) before entry
            ∧ (before.foldl LongNameState.after state).nameOf entry = .ok record.name := by
        intro hmem
        obtain ⟨before, entry, hearlier, hname⟩ := ih hmem
        exact ⟨first :: before, entry, hearlier.cons first, hname⟩
      rw [entriesRecords_cons] at h
      split at h
      · cases h
      split at h
      · rename_i hregular
        cases hrecord : recordOf state first with
        | error e =>
            rw [hrecord] at h
            cases h
        | ok record' =>
            rw [hrecord] at h
            obtain rfl | hmem := List.mem_cons.mp h
            · refine ⟨[], first, ⟨hregular, entries, rfl⟩, ?_⟩
              exact (recordOf_ok hrecord).1
            · exact hlater hmem
      · exact hlater h

/-- **A scan gets behind entries whose names can all be decoded.** -/
theorem entriesRecords_behind {entries : List Bytes} {state : LongNameState}
    (hwhole : ∀ entry ∈ entries, entry.length = fatDirEntrySize)
    (hnotEnd : ∀ entry ∈ entries, byteAt entry 0 ≠ 0x00)
    (hnames : ∀ before entry, Earlier entries before entry →
      ∃ name, (before.foldl LongNameState.after state).nameOf entry = .ok name) :
    (entriesRecords entries state).ending = .ok (some (entries.foldl LongNameState.after state)) := by
  induction entries generalizing state with
  | nil => rfl
  | cons first entries ih =>
      obtain ⟨hfirst, hrest⟩ := List.forall_mem_cons.mp hwhole
      have hlater := @ih (state.after first) hrest (List.forall_mem_cons.mp hnotEnd).2
        (fun before entry hearlier => hnames (first :: before) entry (hearlier.cons first))
      rw [entriesRecords_cons, if_neg (List.forall_mem_cons.mp hnotEnd).1]
      by_cases hregular : IsRegular first
      · obtain ⟨name, hname⟩ := hnames [] first ⟨hregular, entries, rfl⟩
        obtain ⟨directoryEntry, hparse⟩ := exists_parseDirectoryEntry hfirst
        rw [if_pos hregular]
        obtain ⟨e, hfailed, -⟩ | ⟨record, -, -, hrecord⟩ := recordOf_cases state hparse
        · rw [List.foldl_nil, hfailed] at hname
          cases hname
        · rw [hrecord]
          exact hlater
      · rw [if_neg hregular]
        exact hlater

/-- **A name that cannot be decoded ends the scan.** -/
theorem entriesRecords_stops {entries before : List Bytes} {state : LongNameState} {entry : Bytes}
    {e : FatError} (hwhole : ∀ entry ∈ entries, entry.length = fatDirEntrySize)
    (hnotEnd : ∀ entry ∈ entries, byteAt entry 0 ≠ 0x00) (hearlier : Earlier entries before entry)
    (hname : (before.foldl LongNameState.after state).nameOf entry = .error e) :
    (entriesRecords entries state).ending = .error (.error .invalidLongName) := by
  obtain ⟨hregular, behind, rfl⟩ := hearlier
  induction before generalizing state with
  | nil =>
      obtain ⟨directoryEntry, hparse⟩ := exists_parseDirectoryEntry (hwhole entry List.mem_cons_self)
      rw [List.nil_append, entriesRecords_cons, if_neg (hnotEnd entry List.mem_cons_self), if_pos hregular]
      obtain ⟨e', hfailed, hrecord⟩ | ⟨record, hok, -, -⟩ := recordOf_cases state hparse
      · obtain rfl := nameOf_error hfailed
        rw [hrecord]
        rfl
      · rw [List.foldl_nil, hok] at hname
        cases hname
  | cons first before ih =>
      obtain ⟨hfirst, hrest⟩ := List.forall_mem_cons.mp hwhole
      have hlater := @ih (state.after first) hname hrest (List.forall_mem_cons.mp hnotEnd).2
      rw [List.cons_append, entriesRecords_cons, if_neg (List.forall_mem_cons.mp hnotEnd).1]
      by_cases hfirstRegular : IsRegular first
      · obtain ⟨directoryEntry, hparse⟩ := exists_parseDirectoryEntry hfirst
        rw [if_pos hfirstRegular]
        obtain ⟨e', hfailed, hrecord⟩ | ⟨record, -, -, hrecord⟩ := recordOf_cases state hparse
        · -- an earlier name cannot be decoded either
          obtain rfl := nameOf_error hfailed
          rw [hrecord]
          rfl
        · rw [hrecord]
          exact hlater
      · rw [if_neg hfirstRegular]
        exact hlater

/-! ## §4. What a lookup finds. -/

variable {clusters : Nat} {directory : DirectoryLocation} {before : List Bytes} {entry : Bytes}

/-- The records of the entries in front, and then those behind them. -/
theorem directoryRecords_append {behind : List Bytes}
    (hitems : (directoryEntries volume clusters directory).items = before ++ behind) :
    directoryRecords volume clusters directory = (do
      match ← entriesRecords before .new with
      | none       => pure ()
      | some state => do
          let _ ← streamRecords
            (⟨behind, (directoryEntries volume clusters directory).ending⟩ : Listing Halt Bytes Unit) state
          pure ()) := by
  rw [directoryRecords_eq]
  unfold streamRecords
  rw [hitems, entriesRecords_append, bind_assoc, bind_assoc]
  congr 1
  funext left
  cases left with
  | none => rfl
  | some state => exact (bind_assoc _ _ _).symm

/-- The lookup fails as the scan of the entries in front of the one that is looked for. -/
theorem findDirectoryEntry_stops {behind : List Bytes} {component : Bytes} {halt : Halt}
    (hitems : (directoryEntries volume clusters directory).items = before ++ behind)
    (hnone : ∀ record ∈ (entriesRecords before .new).items, answersTo component record = false)
    (hstops : (entriesRecords before .new).ending = .error halt) :
    findDirectoryEntry volume clusters directory component = .error halt := by
  rw [findDirectoryEntry_eq, directoryRecords_append hitems, Listing.find_bind,
    Listing.find_of_none hnone, hstops]
  rfl

/-- The lookup finds the first entry that answers. -/
theorem findDirectoryEntry_at {behind : List Bytes} {component : Bytes} {record : FatRecord}
    (hitems : (directoryEntries volume clusters directory).items = before ++ entry :: behind)
    (hnone : ∀ record ∈ (entriesRecords before .new).items, answersTo component record = false)
    (hbehind : (entriesRecords before .new).ending = .ok (some (stateBehind before)))
    (hnotEnd : byteAt entry 0 ≠ 0x00) (hregular : IsRegular entry)
    (hrecord : recordOf (stateBehind before) entry = .ok record)
    (hanswers : answersTo component record = true) :
    findDirectoryEntry volume clusters directory component = .ok record.entry := by
  have hfirst : ∀ ending : Except Halt Unit,
      (streamRecords ⟨entry :: behind, ending⟩ (stateBehind before)).find (answersTo component)
        = .ok (.inl record) := by
    intro ending
    unfold streamRecords
    rw [entriesRecords_cons, if_neg hnotEnd, if_pos hregular, hrecord]
    dsimp only
    rw [Listing.cons_bind, Listing.find_cons, if_pos hanswers]
  rw [findDirectoryEntry_eq, directoryRecords_append hitems, Listing.find_bind,
    Listing.find_of_none hnone, hbehind]
  show (Listing.find _ (_ >>= _) >>= lookedUp) = _
  rw [Listing.find_bind, hfirst]
  rfl

/-- The condition under which no long name in front of an entry stops a lookup: those attached
    to earlier entries are UTF-16. -/
def LongNamesDecode (before : List Bytes) : Prop :=
  ∀ others longs entry, Earlier before (others ++ longs) entry → NamesEntry longs entry →
    utf16Valid (nameUnits (longs.reverse.flatMap copyLfnCodeUnits)) = true

/-- The cleared part of the buffer is not part of the name. -/
theorem nameUnits_append_ones (units : List UInt16) (count : Nat) :
    nameUnits (units ++ List.replicate count 0xffff) = nameUnits units := by
  induction units with
  | nil => cases count <;> rfl
  | cons unit units ih =>
      by_cases hend : unit = 0x0000 ∨ unit = 0xffff
      · rw [List.cons_append, nameUnits_end _ hend, nameUnits_end _ hend]
      · rw [List.cons_append, nameUnits_cons _ hend, nameUnits_cons _ hend, ih]

/-- What has been collected of an attached name. -/
theorem nameUnits_of_names {longs : List Bytes} (h : NamesEntry longs entry) (others : List Bytes) :
    nameUnits (stateBehind (others ++ longs)).codeUnits
      = nameUnits (longs.reverse.flatMap copyLfnCodeUnits) := by
  obtain ⟨hsome, hmax, hpieces⟩ := h
  have hc := LongNameState.collected_of_pieces hpieces (List.length_pos_iff.mp hsome) hmax (stateBehind others)
  unfold stateBehind at hc ⊢
  rw [List.foldl_append, hc.codeUnits]
  exact nameUnits_append_ones _ _

/-- The name of an entry can be decoded unless it is a long one that is not UTF-16. -/
theorem exists_nameOf_iff (before : List Bytes) (entry : Bytes) :
    (∃ name, (stateBehind before).nameOf entry = .ok name)
      ↔ ∀ others longs, before = others ++ longs → NamesEntry longs entry →
          utf16Valid (nameUnits (longs.reverse.flatMap copyLfnCodeUnits)) = true := by
  unfold LongNameState.nameOf
  by_cases hlong : (stateBehind before).matchesEntry entry = true
  · rw [if_pos hlong, LongNameState.toUtf8_ok_iff]
    constructor
    · rintro hvalid others longs rfl hnames
      rw [← nameUnits_of_names hnames others]
      exact hvalid
    · intro hdecode
      obtain ⟨others, longs, rfl, hnames⟩ := (LongNameState.matchesEntry_iff before entry).mp hlong
      rw [nameUnits_of_names hnames others]
      exact hdecode others longs rfl hnames
  · rw [if_neg hlong]
    refine ⟨fun _ others longs hbefore hnames => ?_, fun _ => ⟨_, rfl⟩⟩
    exact absurd ((LongNameState.matchesEntry_iff before entry).mpr ⟨others, longs, hbefore, hnames⟩) hlong

/-- No entry in front has the name. -/
def Unused (before : List Bytes) (name : Bytes) : Prop :=
  ∀ others other used, Earlier before others other → (stateBehind others).nameOf other = .ok used →
    eqIgnoreAsciiCase used name = false

/-- **A lookup returns the entry exactly if the long names of the entries in front of it can be
    decoded**, and otherwise fails although the entry is there. -/
theorem findDirectoryEntry_ok_iff (h : HoldsEntry volume clusters directory before entry)
    {name : Bytes} (hname : (stateBehind before).nameOf entry = .ok name)
    (hunused : Unused before name) :
    ((∃ found, findDirectoryEntry volume clusters directory name = .ok found) ↔ LongNamesDecode before)
    ∧ (LongNamesDecode before → ∃ found, parseDirectoryEntry entry = .ok found
        ∧ findDirectoryEntry volume clusters directory name = .ok found)
    ∧ (¬ LongNamesDecode before →
        findDirectoryEntry volume clusters directory name = .error (.error .invalidLongName)) := by
  obtain ⟨⟨behind, hitems⟩, hnotEnd, hregular⟩ := h
  have hnotEnd' : ∀ other ∈ before, byteAt other 0 ≠ 0x00 :=
    fun other hother => hnotEnd other (List.mem_append_left _ hother)
  have hall := @directoryEntries_all volume clusters directory
  unfold Listing.All at hall
  rw [hitems] at hall
  have hwhole : ∀ other ∈ before, other.length = fatDirEntrySize :=
    fun other hother => hall other (List.mem_append_left _ hother)
  -- the entries in front have other names
  have hnone : ∀ record ∈ (entriesRecords before .new).items, answersTo name record = false := by
    intro record hrecord
    obtain ⟨others, other, hearlier, hused⟩ := exists_earlier hrecord
    exact hunused others other record.name hearlier hused
  have hfound : LongNamesDecode before → ∃ found, parseDirectoryEntry entry = .ok found
      ∧ findDirectoryEntry volume clusters directory name = .ok found := by
    intro hdecode
    have hbehind := entriesRecords_behind hwhole hnotEnd' (fun others other hearlier =>
      (exists_nameOf_iff others other).mpr (fun others' longs hothers hnames => by
        subst hothers
        exact hdecode others' longs other hearlier hnames))
    obtain ⟨found, hparse⟩ := exists_parseDirectoryEntry
      (hall entry (List.mem_append_right _ List.mem_cons_self))
    obtain ⟨e, hfailed, -⟩ | ⟨record, hok, rfl, hrecord⟩ := recordOf_cases (stateBehind before) hparse
    · rw [hfailed] at hname
      cases hname
    · rw [hok] at hname
      cases hname
      exact ⟨record.entry, hparse, findDirectoryEntry_at hitems hnone hbehind
        (hnotEnd entry (List.mem_append_right _ List.mem_cons_self)) hregular hrecord (beq_self_eq_true _)⟩
  have hfails : ¬ LongNamesDecode before →
      findDirectoryEntry volume clusters directory name = .error (.error .invalidLongName) := by
    intro hdecode
    unfold LongNamesDecode at hdecode
    push Not at hdecode
    obtain ⟨others, longs, other, hearlier, hnames, hinvalid⟩ := hdecode
    cases hused : (stateBehind (others ++ longs)).nameOf other with
    | error e =>
        exact findDirectoryEntry_stops hitems hnone (entriesRecords_stops hwhole hnotEnd' hearlier hused)
    | ok used =>
        exact absurd ((exists_nameOf_iff (others ++ longs) other).mp ⟨used, hused⟩ others longs rfl hnames)
          hinvalid
  refine ⟨⟨fun ⟨found, hok⟩ => ?_, fun hdecode => ?_⟩, hfound, hfails⟩
  · by_contra hdecode
    rw [hfails hdecode] at hok
    cases hok
  · obtain ⟨found, -, hok⟩ := hfound hdecode
    exact ⟨found, hok⟩

/-- The only piece of a long name that is half of a surrogate pair. -/
def unpairedPiece : Bytes :=
  pieceBytes 0x41 (shortNameChecksum (ascii "B       TXT")) ([0xd800] ++ vfatPadding 1)

/-- The short entry `B.TXT`. -/
def unpairedEntry : Bytes := namedEntry (ascii "B       TXT")

/-- `B.TXT` with this long name, and then `A.TXT`. -/
def unpairedVolume : FatVolume := fat16Volume (fun lba =>
  if lba = 21 then unpairedPiece ++ unpairedEntry ++ shortEntry else [])

theorem unpairedVolume_holds :
    HoldsEntry unpairedVolume 0 .rootDirectory [unpairedPiece, unpairedEntry] shortEntry where
  items   := ⟨_, rfl⟩
  notEnd  := by decide +kernel
  regular := by decide +kernel

theorem unpairedVolume_unused : Unused [unpairedPiece, unpairedEntry] (ascii "A.TXT") := by
  rintro others other used ⟨hregular, behind, hentries⟩ hused
  match others, hentries with
  | [], hentries =>
      cases hentries
      exact absurd hregular (by decide +kernel)
  | [_], hentries =>
      cases hentries
      have hnone : (stateBehind [unpairedPiece]).nameOf unpairedEntry = .error .invalidLongName := by
        decide +kernel
      rw [hnone] at hused
      cases hused
  | _ :: _ :: _, hentries =>
      have hlength := congrArg List.length hentries
      simp at hlength

/-- `A.TXT` is there and is not found. -/
theorem unpaired_name_stops_lookup :
    HoldsEntry unpairedVolume 0 .rootDirectory [unpairedPiece, unpairedEntry] shortEntry
      ∧ (stateBehind [unpairedPiece, unpairedEntry]).nameOf shortEntry = .ok (ascii "A.TXT")
      ∧ Unused [unpairedPiece, unpairedEntry] (ascii "A.TXT")
      ∧ ¬ ∃ found, findDirectoryEntry unpairedVolume 0 .rootDirectory (ascii "A.TXT") = .ok found := by
  refine ⟨unpairedVolume_holds, by decide +kernel, unpairedVolume_unused, ?_⟩
  have hlookup : findDirectoryEntry unpairedVolume 0 .rootDirectory (ascii "A.TXT")
      = .error (.error .invalidLongName) := by decide +kernel
  rw [hlookup]
  rintro ⟨found, hfound⟩
  cases hfound

theorem findDirectoryEntry_ok_iff_example :
    (∃ found, findDirectoryEntry unpairedVolume 0 .rootDirectory (ascii "A.TXT") = .ok found)
      ↔ LongNamesDecode [unpairedPiece, unpairedEntry] :=
  (findDirectoryEntry_ok_iff unpairedVolume_holds (by decide +kernel) unpairedVolume_unused).1

/-! ## §5. Entries without a long name. -/

/-- The eleven bytes of a short name: a base and an extension, each padded with spaces. -/
structure IsShortField (entry base extension : Bytes) : Prop where
  field            : entry.take 11 = base ++ List.replicate (8 - base.length) space
    ++ (extension ++ List.replicate (3 - extension.length) space)
  base_ne          : base ≠ []
  base_length      : base.length ≤ 8
  base_spaces      : space ∉ base
  extension_length : extension.length ≤ 3
  extension_spaces : space ∉ extension

/-- The name that the two fields stand for. -/
def eightDotThree (base extension : Bytes) : Bytes :=
  if extension = [] then restored base else restored base ++ ascii "." ++ extension

/-- What is in front of the padding. -/
theorem takeWhile_padded {name : Bytes} (h : space ∉ name) (count : Nat) :
    (name ++ List.replicate count space).takeWhile (· != space) = name := by
  rw [List.takeWhile_append_of_pos]
  · cases count with
    | zero => exact List.append_nil name
    | succ count => exact List.append_nil name
  · intro byte hbyte
    rw [bne_iff_ne]
    rintro rfl
    exact h hbyte

/-- There is something else than padding. -/
theorem any_padded {name : Bytes} (h : space ∉ name) (count : Nat) :
    (name ++ List.replicate count space).any (· != space) = true ↔ name ≠ [] := by
  cases name with
  | nil => simp
  | cons byte name =>
      have hbyte : byte ≠ space := by
        rintro rfl
        exact h List.mem_cons_self
      simp [hbyte]

/-- Replacing every `0x05` is replacing the first byte only if no other byte is one. -/
theorem map_eq_restored_iff (name : Bytes) :
    name.map (fun byte => if byte = 0x05 then 0xe5 else byte) = restored name ↔ 0x05 ∉ name.tail := by
  cases name with
  | nil => simp [restored]
  | cons byte rest =>
      rw [List.map_cons, restored, List.cons.injEq, and_iff_right rfl, List.tail_cons]
      constructor
      · intro hmap hmem
        rw [← hmap] at hmem
        obtain ⟨byte', -, hreplaced⟩ := List.mem_map.mp hmem
        split at hreplaced
        · exact absurd hreplaced (by decide)
        · contradiction
      · intro hnone
        calc rest.map (fun byte => if byte = 0x05 then 0xe5 else byte)
            = rest.map id := List.map_congr_left (fun byte' hbyte' =>
              if_neg (fun hfive : byte' = 0x05 => hnone (hfive ▸ hbyte')))
          _ = rest := List.map_id rest

theorem IsShortField.base_padded_length {base extension : Bytes} (h : IsShortField entry base extension) :
    (base ++ List.replicate (8 - base.length) space).length = 8 := by
  have hbase := h.base_length
  rw [List.length_append, List.length_replicate]
  omega

theorem IsShortField.baseField_eq {base extension : Bytes} (h : IsShortField entry base extension) :
    baseField entry = base ++ List.replicate (8 - base.length) space := by
  have htake : baseField entry = (entry.take 11).take 8 := by
    unfold baseField
    rw [List.take_take]
    rfl
  rw [htake, h.field, List.take_left' h.base_padded_length]

theorem IsShortField.extensionField_eq {base extension : Bytes} (h : IsShortField entry base extension) :
    extensionField entry = extension ++ List.replicate (3 - extension.length) space := by
  have hdrop : extensionField entry = (entry.take 11).drop 8 := by
    unfold extensionField
    rw [List.drop_take]
  rw [hdrop, h.field, List.drop_left' h.base_padded_length]

/-- **What `decode_short_name` makes of the two fields.** -/
theorem IsShortField.decodeShortName_eq {base extension : Bytes} (h : IsShortField entry base extension) :
    decodeShortName entry
      = if extension = [] then ascii "-"
        else base.map (fun byte => if byte = 0x05 then 0xe5 else byte) ++ ascii "." ++ extension := by
  unfold decodeShortName
  rw [h.baseField_eq, h.extensionField_eq, takeWhile_padded h.base_spaces, takeWhile_padded h.extension_spaces]
  have hany := any_padded h.extension_spaces (3 - extension.length)
  dsimp only
  by_cases hext : extension = []
  · have hnone : (extension ++ List.replicate (3 - extension.length) space).any (· != space) = false :=
      Bool.eq_false_of_not_eq_true (fun hc => hany.mp hc hext)
    rw [hnone, if_pos hext]
    exact if_pos ⟨rfl, rfl⟩
  · rw [hany.mpr hext, if_pos rfl, if_neg hext, if_neg (fun hc => Bool.noConfusion hc.2)]

/-- **A short name is decoded as it is unless it has no extension or a `0x05` behind its first
    byte.** -/
theorem IsShortField.decodes_iff {base extension : Bytes} (h : IsShortField entry base extension) :
    decodeShortName entry = eightDotThree base extension
      ↔ (extension ≠ [] ∨ base = ascii "-") ∧ 0x05 ∉ base.tail := by
  rw [h.decodeShortName_eq]
  unfold eightDotThree
  by_cases hext : extension = []
  · rw [if_pos hext, if_pos hext]
    constructor
    · intro hdash
      obtain ⟨byte, rest, rfl⟩ := List.exists_cons_of_ne_nil h.base_ne
      obtain ⟨hbyte, rfl⟩ := List.cons.inj hdash
      split at hbyte
      · exact absurd hbyte (by decide)
      · exact ⟨.inr (congrArg (· :: []) hbyte.symm), List.not_mem_nil⟩
    · rintro ⟨hne | rfl, -⟩
      · exact absurd hext hne
      · rfl
  · rw [if_neg hext, if_neg hext, List.append_left_inj, List.append_left_inj, map_eq_restored_iff]
    exact ⟨fun hnone => ⟨.inl hext, hnone⟩, And.right⟩

/-- Wherever the entry stands without a long name, a lookup of the name that gets to it returns
    it. -/
def FoundAs (entry name : Bytes) : Prop :=
  ∀ volume clusters directory before, HoldsEntry volume clusters directory before entry →
    (¬ ∃ others longs, before = others ++ longs ∧ NamesEntry longs entry) →
    LongNamesDecode before → Unused before name →
    ∃ found, parseDirectoryEntry entry = .ok found
      ∧ findDirectoryEntry volume clusters directory name = .ok found

/-- **An entry without a long name is found under its 8.3 name exactly if the code decodes it so.** -/
theorem short_name_found_iff {base extension : Bytes} (h : IsShortField entry base extension) :
    (decodeShortName entry = eightDotThree base extension
      ∧ FoundAs entry (eightDotThree base extension))
    ↔ (extension ≠ [] ∨ base = ascii "-") ∧ 0x05 ∉ base.tail := by
  rw [← h.decodes_iff]
  refine ⟨And.left, fun hdecodes => ⟨hdecodes, ?_⟩⟩
  intro volume clusters directory before hholds hshort hdecode hunused
  have hname : (stateBehind before).nameOf entry = .ok (eightDotThree base extension) := by
    have hlong : ¬ (stateBehind before).matchesEntry entry = true :=
      fun hlong => hshort ((LongNameState.matchesEntry_iff before entry).mp hlong)
    unfold LongNameState.nameOf
    rw [if_neg hlong, hdecodes]
  exact (findDirectoryEntry_ok_iff hholds hname hunused).2.1 hdecode

/-- A root directory with nothing but `KERNEL`. -/
def kernelVolume : FatVolume :=
  fat16Volume (fun lba => if lba = 21 then namedEntry (ascii "KERNEL     ") else [])

/-- `KERNEL` is read as `-` and not found, and every `0x05` is read as `0xe5`. -/
theorem short_names_misread :
    IsShortField (namedEntry (ascii "KERNEL     ")) (ascii "KERNEL") []
      ∧ decodeShortName (namedEntry (ascii "KERNEL     ")) ≠ eightDotThree (ascii "KERNEL") []
      ∧ HoldsEntry kernelVolume 0 .rootDirectory [] (namedEntry (ascii "KERNEL     "))
      ∧ findDirectoryEntry kernelVolume 0 .rootDirectory (ascii "KERNEL") = .error (.error .notFound)
      ∧ IsShortField (namedEntry (0x41 :: 0x05 :: ascii "      TXT")) [0x41, 0x05] (ascii "TXT")
      ∧ decodeShortName (namedEntry (0x41 :: 0x05 :: ascii "      TXT"))
          ≠ eightDotThree [0x41, 0x05] (ascii "TXT") :=
  ⟨⟨by decide, by decide, by decide, by decide, by decide, by decide⟩, by decide,
    ⟨⟨_, rfl⟩, by decide +kernel, by decide +kernel⟩, by decide +kernel,
    ⟨by decide, by decide, by decide, by decide, by decide, by decide⟩, by decide⟩

theorem short_name_found_iff_example :
    (decodeShortName shortEntry = eightDotThree (ascii "A") (ascii "TXT")
      ∧ FoundAs shortEntry (eightDotThree (ascii "A") (ascii "TXT")))
    ↔ (ascii "TXT" ≠ [] ∨ ascii "A" = ascii "-") ∧ (0x05 : UInt8) ∉ (ascii "A").tail :=
  short_name_found_iff ⟨by decide, by decide, by decide, by decide, by decide, by decide⟩

end RustFirmware.Fat
