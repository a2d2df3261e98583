/-
  RustFirmware.Fat.Slices
  ───────────────────────
  **WHAT IS PASSED TO `str::from_utf8_unchecked`.**

  The code makes strings of bytes without a check in two places: of the short name that
  `decode_short_name` has put together, and of the path in `visit_walk_entry`.  A path is
  made of names and of `/`, a long name has been checked: so all of them are UTF-8 exactly
  if the two fields of every short name are (`unchecked_slices_valid_iff`).
-/
import RustFirmware.Fat.Lookup
import RustFirmware.Fat.Termination
import RustFirmware.Lib.Trace

namespace RustFirmware.Fat

open RustFirmware.Lib
open RustFirmware.Virtio

/-! ## §1. What a lookup or a walk goes through. -/

/-- An entry that is reported to the search or the visitor, or bytes that are taken for a
    string. -/
inductive Event where
  | entry (record : FatRecord)
  | slice (bytes : Bytes)
  deriving Repr, DecidableEq

/-- A short name is made a string when its entry is met. -/
def nameEvents (record : FatRecord) : List Event :=
  match record.longName with
  | some _ => [.entry record]
  | none   => [.entry record, .slice (decodeShortName record.raw)]

/-- What a lookup goes through: the entries up to the one that it finds. -/
def lookupEvents (volume : FatVolume) (clusters : Nat) (directory : DirectoryLocation)
    (component : Bytes) : List Event :=
  let records := (directoryRecords volume clusters directory).items
  let met := records.takeWhile (fun record => !answersTo component record)
    ++ (records.find? (answersTo component)).toList
  met.flatMap nameEvents

/-- The walk with a trace of what it goes through. -/
abbrev TracedWalk := Keep Halt (WalkState × List Event)

/-- Several events. -/
def emitAll : List Event → TracedWalk Unit
  | [] => pure ()
  | event :: events => do
      Keep.emit (fun _ => event)
      emitAll events

/-- `visit_walk_entry` for an entry that the scan has met. -/
def tracedVisit (descend : DirectoryLocation → (pathLen : Nat) → TracedWalk Unit) (pathLen : Nat)
    (record : FatRecord) : TracedWalk Unit := do
  emitAll (nameEvents record)
  if record.name = ascii "." ∨ record.name = ascii ".." then pure ()
  else do
    let fullPathLen ← Keep.silent (Walk.append pathLen record.name)
    -- the path is made a string for directories as well
    Keep.emit (fun s => .slice (s.path.take fullPathLen))
    if record.entry.isDirectory then descend (.clusterChain record.entry.firstCluster) fullPathLen
    else Keep.silent (Walk.report fullPathLen record.entry.fileSize)

/-- `walk_directory`. -/
def tracedWalkDirectory (volume : FatVolume) (clusters : Nat) :
    (nested : Nat) → (directory : DirectoryLocation) → (pathLen : Nat) → TracedWalk Unit
  | 0, _, _ => Keep.silent (Keep.throw .runsOn)
  | nested + 1, directory, pathLen =>
      (directoryRecords volume clusters directory).visitAll
        (tracedVisit
          (fun child fullPathLen => tracedWalkDirectory volume clusters nested child fullPathLen)
          pathLen)

/-- What `walk_files` goes through. -/
def walkEvents (volume : FatVolume) (clusters : Nat) : List Event :=
  (tracedWalkDirectory volume clusters (fatPathUtf8Bytes + 1) .rootDirectory 0 (emptyWalk, [])).2.2

theorem emitAll_traces {x : TracedWalk Unit} {y : Walk Unit} (events : List Event) (h : x.Traces y) :
    (emitAll events >>= fun _ => x).Traces y := by
  induction events with
  | nil => exact h
  | cons event events ih =>
      show ((Keep.emit (fun _ => event) >>= fun _ => emitAll events) >>= fun _ => x).Traces y
      rw [bind_assoc]
      exact ih.emit _

/-- **The traced walk is the walk.** -/
theorem tracedWalkDirectory_traces (volume : FatVolume) (clusters nested : Nat)
    (directory : DirectoryLocation) (pathLen : Nat) :
    (tracedWalkDirectory volume clusters nested directory pathLen).Traces
      (walkDirectory volume clusters nested directory pathLen) := by
  induction nested generalizing directory pathLen with
  | zero => exact Keep.Traces.silent _
  | succ nested ih =>
      unfold walkDirectory
      rw [walkLocation_eq]
      refine Keep.Traces.visitAll (fun record => emitAll_traces _ ?_) _
      unfold visitRecord visitWalkEntry
      by_cases hdots : record.name = ascii "." ∨ record.name = ascii ".."
      · rw [if_pos hdots, if_pos hdots]
        exact Keep.Traces.silent (pure ())
      rw [if_neg hdots, if_neg hdots]
      refine (Keep.Traces.silent _).bind (fun fullPathLen => Keep.Traces.emit _ ?_)
      by_cases hdir : record.entry.isDirectory = true
      · rw [if_pos hdir, if_pos hdir]
        exact ih _ _
      · rw [if_neg hdir, if_neg hdir]
        exact Keep.Traces.silent _

/-! ## §2. Text. -/

/-- The fields of a short name as they are read, up to the first space of each, are UTF-8. -/
def IsTextName (raw : Bytes) : Prop :=
  (extensionField raw).all (· == space) = true
    ∨ utf8Valid (((baseField raw).takeWhile (· != space)).map
        (fun byte => if byte = 0x05 then 0xe5 else byte)) = true
      ∧ utf8Valid ((extensionField raw).takeWhile (· != space)) = true

theorem utf8Valid_decodeShortName (raw : Bytes) :
    utf8Valid (decodeShortName raw) = true ↔ IsTextName raw := by
  unfold IsTextName decodeShortName
  dsimp only
  cases hext : (extensionField raw).any (· != space) with
  | false =>
      -- the placeholder
      have hblank : (extensionField raw).all (· == space) = true := by
        rw [List.all_eq_not_any_not]
        exact congrArg not hext
      rw [if_pos ⟨rfl, rfl⟩]
      exact iff_of_true (by decide) (.inl hblank)
  | true =>
      have hnot : ¬ (extensionField raw).all (· == space) = true := by
        rw [List.all_eq_not_any_not]
        intro hall
        exact Bool.noConfusion (hall.symm.trans (congrArg not hext))
      rw [if_pos rfl, if_neg (fun h => Bool.noConfusion h.2), or_iff_right hnot, List.append_assoc]
      exact utf8Valid_append_ascii (show (0x2e : UInt8) < 0x80 by decide) _ _

/-- The short names that were met are text. -/
def TextEntries (events : List Event) : Prop :=
  ∀ record, .entry record ∈ events → record.longName = none → IsTextName record.raw

/-- All strings are. -/
def TextSlices (events : List Event) : Prop := ∀ bytes, .slice bytes ∈ events → utf8Valid bytes = true

/-- Events that began with a path that was text, if `start` says so: each short name became a
    string, and nothing else can be at fault for a string that is not text. -/
structure Coherent (start : Prop) (events : List Event) : Prop where
  decoded : ∀ record, .entry record ∈ events → record.longName = none →
    .slice (decodeShortName record.raw) ∈ events
  text    : start → TextEntries events → TextSlices events

namespace Coherent

variable {start start' : Prop} {events events' : List Event}

theorem iff (h : Coherent start events) (hstart : start) : TextSlices events ↔ TextEntries events := by
  refine ⟨fun hslices record hrecord hshort => ?_, h.text hstart⟩
  exact (utf8Valid_decodeShortName record.raw).mp (hslices _ (h.decoded record hrecord hshort))

theorem nil : Coherent start [] where
  decoded _ hrecord := absurd hrecord List.not_mem_nil
  text _ _ _ hbytes := absurd hbytes List.not_mem_nil

theorem append (h : Coherent start events) (h' : Coherent start' events')
    (hstart : start → TextEntries events → start') : Coherent start (events ++ events') where
  decoded record hrecord hshort := by
    obtain hmem | hmem := List.mem_append.mp hrecord
    · exact List.mem_append_left _ (h.decoded record hmem hshort)
    · exact List.mem_append_right _ (h'.decoded record hmem hshort)
  text hs hentries := by
    have hfirst : TextEntries events :=
      fun record hrecord => hentries record (List.mem_append_left _ hrecord)
    have hrest : TextEntries events' :=
      fun record hrecord => hentries record (List.mem_append_right _ hrecord)
    intro bytes hbytes
    obtain hmem | hmem := List.mem_append.mp hbytes
    · exact h.text hs hfirst bytes hmem
    · exact h'.text (hstart hs hfirst) hrest bytes hmem

/-- Meeting an entry. -/
theorem name (record : FatRecord) : Coherent start (nameEvents record) := by
  unfold nameEvents
  cases hlong : record.longName with
  | some longName =>
      refine ⟨fun record' hrecord hshort => ?_, fun _ _ bytes hbytes => ?_⟩
      · cases List.mem_singleton.mp hrecord
        rw [hlong] at hshort
        cases hshort
      · cases List.mem_singleton.mp hbytes
  | none =>
      refine ⟨fun record' hrecord hshort => ?_, fun _ hentries bytes hbytes => ?_⟩
      · obtain hsame | hmem := List.mem_cons.mp hrecord
        · cases hsame
          exact List.mem_cons_of_mem _ List.mem_cons_self
        · cases List.mem_singleton.mp hmem
      · obtain hsame | hmem := List.mem_cons.mp hbytes
        · cases hsame
        · cases List.mem_singleton.mp hmem
          exact (utf8Valid_decodeShortName record.raw).mpr (hentries record List.mem_cons_self hlong)

theorem flatMap (records : List FatRecord) : Coherent start (records.flatMap nameEvents) := by
  induction records with
  | nil => exact nil
  | cons record records ih => exact (name record).append ih (fun hs _ => hs)

/-- A path is made a string. -/
theorem slice {bytes : Bytes} (h : start → utf8Valid bytes = true) : Coherent start [.slice bytes] where
  decoded _ hrecord := by cases List.mem_singleton.mp hrecord
  text hs _ bytes' hbytes := by
    cases List.mem_singleton.mp hbytes
    exact h hs

end Coherent

/-! ## §3. Every string of a walk. -/

/-- A long name has been checked. -/
theorem recordOf_text {state : LongNameState} {entry : Bytes} {record : FatRecord}
    (h : recordOf state entry = .ok record) :
    ∀ name, record.longName = some name → utf8Valid name = true := by
  unfold recordOf at h
  cases hparse : parseDirectoryEntry entry with
  | error e =>
      rw [hparse] at h
      cases h
  | ok directoryEntry =>
      rw [hparse] at h
      dsimp only at h
      by_cases hmatches : state.matchesEntry entry = true
      case neg =>
        rw [if_neg hmatches] at h
        cases h
        intro name hlong
        cases hlong
      case pos =>
        rw [if_pos hmatches] at h
        cases hname : state.toUtf8 with
        | error e =>
            rw [hname] at h
            cases h
        | ok longName =>
            rw [hname] at h
            cases h
            intro name hlong
            cases hlong
            obtain ⟨output, -, hutf8⟩ := bind_eq_ok.mp hname
            obtain ⟨hvalid, rfl⟩ := fromUtf8_eq_some.mp (okOr_eq_ok.mp hutf8)
            exact hvalid

theorem entriesRecords_text (entries : List Bytes) (state : LongNameState) :
    (entriesRecords entries state).All
      (fun record => ∀ name, record.longName = some name → utf8Valid name = true) := by
  induction entries generalizing state with
  | nil => exact Listing.All.pure _
  | cons entry entries ih =>
      rw [entriesRecords_cons]
      split
      · exact Listing.All.pure _
      split
      · cases hrecord : recordOf state entry with
        | error e => exact Listing.All.fail _
        | ok record => exact Listing.All.cons (recordOf_text hrecord) (ih _)
      · exact ih _

theorem directoryRecords_text {volume : FatVolume} (clusters : Nat) (directory : DirectoryLocation) :
    (directoryRecords volume clusters directory).All
      (fun record => ∀ name, record.longName = some name → utf8Valid name = true) := by
  rw [directoryRecords_eq]
  refine Listing.All.bind (Listing.All.bind (entriesRecords_text _ _) (fun left => ?_))
    (fun _ => Listing.All.pure ())
  cases left with
  | none => exact Listing.All.pure _
  | some state =>
      dsimp only
      split
      · exact Listing.All.fail _
      · exact Listing.All.pure _

/-- A computation of the walk in a directory whose path has `pathLen` bytes: what it goes through
    is coherent if the path is text, and it leaves the path as it is. -/
def WalkSound (x : TracedWalk Unit) (pathLen : Nat) : Prop :=
  ∀ s trace, pathLen ≤ s.path.length →
    ∃ result s' emitted, x (s, trace) = (result, (s', trace ++ emitted))
    ∧ Coherent (utf8Valid (s.path.take pathLen) = true) emitted
    ∧ s'.path.length = s.path.length ∧ s'.path.take pathLen = s.path.take pathLen

variable {pathLen : Nat}

theorem WalkSound.silent {y : Walk Unit} (h : ∀ s, (y s).2.path = s.path) :
    WalkSound (Keep.silent y) pathLen := by
  intro s trace _
  refine ⟨(y s).1, (y s).2, [], ?_, .nil, by rw [h], by rw [h]⟩
  rw [List.append_nil]
  rfl

theorem WalkSound.bind {x : TracedWalk Unit} {f : Unit → TracedWalk Unit} (h : WalkSound x pathLen)
    (hrest : WalkSound (f ()) pathLen) : WalkSound (x >>= f) pathLen := by
  intro s trace hlength
  obtain ⟨result, s', emitted, hx, hc, hsame, htake⟩ := h s trace hlength
  cases result with
  | error e => exact ⟨_, s', emitted, Keep.bind_error hx, hc, hsame, htake⟩
  | ok u =>
      obtain ⟨result', s'', emitted', hf, hc', hsame', htake'⟩ := hrest s' (trace ++ emitted) (by omega)
      refine ⟨result', s'', emitted ++ emitted', ?_, hc.append hc' (fun hs _ => ?_), by omega,
        by rw [htake', htake]⟩
      · rw [Keep.bind_ok hx, hf, List.append_assoc]
      · rw [htake]
        exact hs

theorem emitAll_eq (events : List Event) (s : WalkState) (trace : List Event) :
    emitAll events (s, trace) = (.ok (), (s, trace ++ events)) := by
  induction events generalizing trace with
  | nil =>
      rw [List.append_nil]
      rfl
  | cons event events ih =>
      show emitAll events (s, trace ++ [event]) = _
      rw [ih, List.append_assoc, List.singleton_append]

/-- The name of an entry is text unless it is a short one that is not. -/
theorem FatRecord.name_text {record : FatRecord}
    (hlong : ∀ name, record.longName = some name → utf8Valid name = true)
    (hentries : TextEntries (nameEvents record)) : utf8Valid record.name = true := by
  unfold FatRecord.name
  unfold TextEntries nameEvents at hentries
  cases hname : record.longName with
  | some name => exact hlong name hname
  | none =>
      rw [hname] at hentries
      exact (utf8Valid_decodeShortName record.raw).mpr (hentries record List.mem_cons_self hname)

theorem tracedVisit_sound {record : FatRecord}
    {descend : DirectoryLocation → (pathLen : Nat) → TracedWalk Unit}
    (hlong : ∀ name, record.longName = some name → utf8Valid name = true)
    (hdescend : ∀ child fullPathLen, WalkSound (descend child fullPathLen) fullPathLen) :
    WalkSound (tracedVisit descend pathLen record) pathLen := by
  intro s trace hlength
  unfold tracedVisit
  rw [Keep.bind_ok (emitAll_eq _ _ _)]
  by_cases hdots : record.name = ascii "." ∨ record.name = ascii ".."
  · rw [if_pos hdots]
    exact ⟨.ok (), s, nameEvents record, rfl, .name record, rfl, rfl⟩
  rw [if_neg hdots]
  obtain ⟨hroom, happend⟩ | hfull := Walk.append_cases pathLen record.name s
  case inr =>
    exact ⟨_, s, nameEvents record, Keep.bind_error (Keep.silent_eq hfull _), .name record, rfl, rfl⟩
  case inl =>
    have hfits := @appendComponent_fits separator _ _ _ hroom
    have hlength' : (overwrite s.path pathLen (separator :: record.name)).length = s.path.length :=
      overwrite_length hfits
    have hpath : (overwrite s.path pathLen (separator :: record.name)).take
          (pathLen + 1 + record.name.length)
        = s.path.take pathLen ++ separator :: record.name := by
      rw [← take_overwrite hfits, List.length_cons, Nat.add_assoc, Nat.add_comm 1]
    have hrest : WalkSound (if record.entry.isDirectory then
          descend (.clusterChain record.entry.firstCluster) (pathLen + 1 + record.name.length)
        else Keep.silent (Walk.report (pathLen + 1 + record.name.length) record.entry.fileSize))
        (pathLen + 1 + record.name.length) := by
      by_cases hdir : record.entry.isDirectory = true
      · rw [if_pos hdir]
        exact hdescend _ _
      · rw [if_neg hdir]
        exact WalkSound.silent (fun s => rfl)
    obtain ⟨result, s', emitted, hx, hc, hsame, htake⟩ := hrest
      { s with path := overwrite s.path pathLen (separator :: record.name) }
      (trace ++ nameEvents record ++ [.slice (s.path.take pathLen ++ separator :: record.name)])
      (by show _ ≤ (overwrite _ _ _).length; omega)
    dsimp only at hc hsame htake
    rw [hpath] at hc htake
    refine ⟨result, s', nameEvents record
        ++ ([.slice (s.path.take pathLen ++ separator :: record.name)] ++ emitted), ?_, ?_,
      hsame.trans hlength', ?_⟩
    · rw [Keep.bind_ok (Keep.silent_eq happend _), ← List.append_assoc, ← List.append_assoc, ← hx,
        ← hpath]
      rfl
    · -- the path is text if it was and the name is
      refine (Coherent.name record).append ((Coherent.slice id).append hc (fun hs _ => hs)) ?_
      intro hstart hentries
      exact (utf8Valid_append_ascii (by decide) _ _).mpr ⟨hstart, FatRecord.name_text hlong hentries⟩
    · have hshorter := congrArg (List.take pathLen) htake
      rw [List.take_take, Nat.min_eq_left (by omega)] at hshorter
      rw [hshorter, List.take_append_of_le_length (by rw [List.length_take]; omega), List.take_take,
        Nat.min_self]

theorem visitAll_sound {listing : Listing Halt FatRecord Unit} {visit : FatRecord → TracedWalk Unit}
    (h : ∀ record ∈ listing.items, WalkSound (visit record) pathLen) :
    WalkSound (listing.visitAll visit) pathLen := by
  obtain ⟨items, ending⟩ := listing
  induction items with
  | nil =>
      intro s trace _
      exact ⟨ending, s, [], by rw [List.append_nil]; rfl, .nil, rfl, rfl⟩
  | cons record items ih =>
      obtain ⟨hrecord, hitems⟩ := List.forall_mem_cons.mp h
      have hcons : (⟨record :: items, ending⟩ : Listing Halt FatRecord Unit).visitAll visit
          = (visit record >>= fun _ => (⟨items, ending⟩ : Listing Halt FatRecord Unit).visitAll visit) :=
        Listing.visitAll_cons visit record ⟨items, ending⟩
      rw [hcons]
      exact hrecord.bind (ih hitems)

theorem tracedWalkDirectory_sound (volume : FatVolume) (clusters nested : Nat)
    (directory : DirectoryLocation) (pathLen : Nat) :
    WalkSound (tracedWalkDirectory volume clusters nested directory pathLen) pathLen := by
  induction nested generalizing directory pathLen with
  | zero => exact WalkSound.silent (fun s => rfl)
  | succ nested ih =>
      exact visitAll_sound (fun record hrecord =>
        tracedVisit_sound (directoryRecords_text clusters directory record hrecord) ih)

/-- **All bytes that are taken for strings are UTF-8 exactly if the short names are that the run
    has met.** -/
theorem unchecked_slices_valid_iff (volume : FatVolume) (clusters : Nat) :
    (TextSlices (walkEvents volume clusters) ↔ TextEntries (walkEvents volume clusters))
    ∧ ∀ directory component,
        (TextSlices (lookupEvents volume clusters directory component)
          ↔ TextEntries (lookupEvents volume clusters directory component)) := by
  refine ⟨?_, fun directory component => (Coherent.flatMap _).iff trivial⟩
  obtain ⟨result, s', emitted, hwalk, hc, -⟩ := tracedWalkDirectory_sound volume clusters
    (fatPathUtf8Bytes + 1) .rootDirectory 0 emptyWalk [] (Nat.zero_le _)
  unfold walkEvents
  rw [hwalk]
  exact hc.iff (by rw [List.take_zero]; rfl)

/-- A root directory with an entry whose name begins with `0xff`. -/
def noTextVolume : FatVolume :=
  fat16Volume (fun lba => if lba = 21 then namedEntry (0xff :: ascii "       TXT") else [])

/-- Both the name and the path of this entry are made strings. -/
theorem unchecked_slices_not_text :
    ¬ TextSlices (walkEvents noTextVolume 0)
      ∧ ¬ TextSlices (lookupEvents noTextVolume 0 .rootDirectory (ascii "A.TXT")) := by
  have hwalk : Event.slice (separator :: 0xff :: ascii ".TXT") ∈ walkEvents noTextVolume 0 := by
    decide +kernel
  have hlookup : Event.slice (0xff :: ascii ".TXT")
      ∈ lookupEvents noTextVolume 0 .rootDirectory (ascii "A.TXT") := by decide +kernel
  exact ⟨fun h => absurd (h _ hwalk) (by decide), fun h => absurd (h _ hlookup) (by decide)⟩

end RustFirmware.Fat
