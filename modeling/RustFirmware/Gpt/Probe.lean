/-
  RustFirmware.Gpt.Probe
  ──────────────────────
  **THE ENUMERATION OF `probe_virtio`: A SLOT THAT IS OUT OF ORDER ENDS IT.**

  The loop asks the table for one slot after the other.  An unused slot is passed over,
  a present one is reported, and the table is opened anew behind it.  The table gives no
  entry for a slot whose range is out of order, whether the slot is used or not, and the
  loop takes that for the end of the table.
-/
import RustFirmware.Gpt.Entries

namespace RustFirmware.Gpt

open RustFirmware.Lib
open RustFirmware.Virtio

/-! ## §1. The functions of the source. -/

namespace Reading

variable {α : Type}

/-- `x.or_else(|| y)`. -/
def orElse (x y : Reading α) : Reading α :=
  match x with
  | (.error .none, reads) => (y.1, reads ++ y.2)
  | result => result

/-- The `Option` of a reader, to be matched on. -/
def attempt (x : Reading α) : Reading (Option α) :=
  match x with
  | (.ok a, reads) => (.ok (some a), reads)
  | (.error .none, reads) => (.ok Option.none, reads)
  | (.error (.trap reason), reads) => (.error (.trap reason), reads)

theorem attempt_ok {x : Reading α} {a : α} (h : x.result = .ok a) :
    (attempt x).result = .ok (some a) := by
  obtain ⟨r, reads⟩ := x
  cases h
  rfl

theorem attempt_none {x : Reading α} (h : x.result = .error .none) :
    (attempt x).result = .ok Option.none := by
  obtain ⟨r, reads⟩ := x
  cases h
  rfl

theorem orElse_ok {x y : Reading α} {a : α} (h : (orElse x y).result = .ok a) :
    x.result = .ok a ∨ y.result = .ok a := by
  obtain ⟨r, reads⟩ := x
  cases r with
  | ok b => exact .inl h
  | error e =>
      cases e with
      | none => exact .inr h
      | trap reason => cases h

/-- What a sequence has for a result depends on the first part's result. -/
theorem bind_result {β : Type} {x : Reading α} {a : α} (h : x.result = .ok a) (f : α → Reading β) :
    (x >>= f).result = (f a).result := by
  obtain ⟨r, reads⟩ := x
  cases h
  rfl

end Reading

/-- `read_primary_header`. -/
def readPrimaryHeader (device : BlockDevice) : Reading GptHeader := readHeaderAt device 1

/-- `read_backup_header`. -/
def readBackupHeader (device : BlockDevice) : Reading GptHeader := do
  let lastSector ← Reading.some? (checkedSub device.sectorCount 1)
  readHeaderAt device lastSector

/-- `GptPartitionTable::new`: the header of the table. -/
def newPartitionTable (device : BlockDevice) : Reading GptHeader :=
  (readPrimaryHeader device).orElse (readBackupHeader device)

namespace GptPartitionEntry

/-- `is_unused`. -/
def isUnused (entry : GptPartitionEntry) : Bool :=
  entry.partitionTypeGuid == List.replicate 16 0

/-- `is_present`. -/
def isPresent (entry : GptPartitionEntry) : Bool := !entry.isUnused

/-- `bootable`. -/
def bootable (entry : GptPartitionEntry) : Bool := entry.attributes &&& (1 <<< 2) != 0

end GptPartitionEntry

/-- The loop of `probe_virtio` over the slots of one table: the entries that it goes on to
    detect, print and boot from, each with its `partition_index`.  `boots` is where the
    attempt to boot starts a kernel and does not come back. -/
def probePartitions (device : BlockDevice) (boots : GptPartitionEntry → Bool)
    (partitionCount : Nat) :
    (fuel : Nat) → (partitions : GptHeader) → (partitionIndex : Nat) →
      Reading (List (Nat × GptPartitionEntry))
  | 0, _, _ => Reading.checked (.error .outOfFuel)
  | fuel + 1, partitions, partitionIndex =>
      if partitionIndex < partitionCount then do
        match ← (readPartitionEntry device partitions partitionIndex).attempt with
        | none => pure []
        | some partition =>
            let partitionIndex := partitionIndex + 1
            if !partition.isPresent then
              probePartitions device boots partitionCount fuel partitions partitionIndex
            else if partition.bootable && boots partition then
              pure [(partitionIndex, partition)]
            else do
              -- what was done with the partition has used up the view of the table
              match ← (newPartitionTable device).attempt with
              | none => pure [(partitionIndex, partition)]
              | some partitions => do
                  let rest ← probePartitions device boots partitionCount fuel partitions
                    partitionIndex
                  pure ((partitionIndex, partition) :: rest)
      else pure []

/-- `probe_virtio` for one device; `None` is for a device without a table. -/
def probeDevice (device : BlockDevice) (boots : GptPartitionEntry → Bool) :
    Reading (Option (List (Nat × GptPartitionEntry))) := do
  match ← (newPartitionTable device).attempt with
  | none => pure none
  | some partitions => do
      let found ← probePartitions device boots partitions.partitionEntryCount
        (partitions.partitionEntryCount + 1) partitions 0
      pure (some found)

/-! ## §2. The loop over the decoded slots. -/

/-- What the slots of a table hold. -/
def GptHeader.slot (header : GptHeader) (device : BlockDevice) (entryIndex : Nat) :
    GptPartitionEntry := decodeEntry (header.entryBytes device entryIndex)

/-- What the loop should report: present, and with a range that is in order. -/
def GptPartitionEntry.Sought (sectorCount : Nat) (entry : GptPartitionEntry) : Prop :=
  entry.isPresent = true ∧ entry.InOrder sectorCount

instance (sectorCount : Nat) (entry : GptPartitionEntry) : Decidable (entry.Sought sectorCount) :=
  inferInstanceAs (Decidable (_ ∧ _))

/-- The loop comes past this slot. -/
def GptPartitionEntry.Passed (sectorCount : Nat) (boots : GptPartitionEntry → Bool)
    (entry : GptPartitionEntry) : Prop :=
  entry.InOrder sectorCount ∧ ¬ (entry.isPresent ∧ entry.bootable ∧ boots entry)

/-- The slots that should be reported, in order, from `partitionIndex` on. -/
def sought (sectorCount : Nat) : (partitionIndex : Nat) → List GptPartitionEntry →
    List (Nat × GptPartitionEntry)
  | _, [] => []
  | partitionIndex, slot :: slots =>
      if slot.Sought sectorCount then
        (partitionIndex + 1, slot) :: sought sectorCount (partitionIndex + 1) slots
      else sought sectorCount (partitionIndex + 1) slots

/-- What the loop makes of the slots. -/
def enumerate (sectorCount : Nat) (boots : GptPartitionEntry → Bool) :
    (partitionIndex : Nat) → List GptPartitionEntry → List (Nat × GptPartitionEntry)
  | _, [] => []
  | partitionIndex, slot :: slots =>
      if ¬ slot.InOrder sectorCount then []
      else if !slot.isPresent then enumerate sectorCount boots (partitionIndex + 1) slots
      else if slot.bootable && boots slot then [(partitionIndex + 1, slot)]
      else (partitionIndex + 1, slot) :: enumerate sectorCount boots (partitionIndex + 1) slots

/-- Where nothing is sought, nothing should be reported. -/
theorem sought_eq_nil_iff (sectorCount partitionIndex : Nat) (slots : List GptPartitionEntry) :
    sought sectorCount partitionIndex slots = [] ↔ ∀ slot ∈ slots, ¬ slot.Sought sectorCount := by
  induction slots generalizing partitionIndex with
  | nil => simp [sought]
  | cons slot slots ih =>
      unfold sought
      by_cases hsought : slot.Sought sectorCount
      · simp [hsought]
      · rw [if_neg hsought, ih, List.forall_mem_cons]
        exact ⟨fun h => ⟨hsought, h⟩, fun h => h.2⟩

/-- **The loop reports what it should exactly where every slot before a sought one lets it
    past.** -/
theorem enumerate_eq_sought_iff (sectorCount : Nat) (boots : GptPartitionEntry → Bool)
    (partitionIndex : Nat) (slots : List GptPartitionEntry) :
    enumerate sectorCount boots partitionIndex slots = sought sectorCount partitionIndex slots
      ↔ slots.Pairwise (fun earlier later =>
          later.Sought sectorCount → earlier.Passed sectorCount boots) := by
  induction slots generalizing partitionIndex with
  | nil => simp [enumerate, sought]
  | cons slot slots ih =>
      rw [List.pairwise_cons]
      -- the loop stops at `slot`: then nothing may be sought behind it
      have hstops : ¬ slot.Passed sectorCount boots →
          ([] = sought sectorCount (partitionIndex + 1) slots
            ↔ (∀ later ∈ slots, later.Sought sectorCount → slot.Passed sectorCount boots)
              ∧ slots.Pairwise (fun earlier later =>
                  later.Sought sectorCount → earlier.Passed sectorCount boots)) := by
        intro hnot
        rw [eq_comm, sought_eq_nil_iff]
        constructor
        · intro hnone
          refine ⟨fun later hmem hsought => absurd hsought (hnone later hmem), ?_⟩
          exact List.pairwise_of_forall_mem_list
            (fun earlier _ later hlater hsought => absurd hsought (hnone later hlater))
        · intro hall later hmem hsought
          exact hnot (hall.1 later hmem hsought)
      -- the loop goes on behind it
      have hgoes : slot.Passed sectorCount boots →
          (enumerate sectorCount boots (partitionIndex + 1) slots
              = sought sectorCount (partitionIndex + 1) slots
            ↔ (∀ later ∈ slots, later.Sought sectorCount → slot.Passed sectorCount boots)
              ∧ slots.Pairwise (fun earlier later =>
                  later.Sought sectorCount → earlier.Passed sectorCount boots)) := by
        intro hpassed
        rw [ih]
        exact ⟨fun h => ⟨fun _ _ _ => hpassed, h⟩, fun h => h.2⟩
      unfold enumerate sought
      by_cases horder : slot.InOrder sectorCount
      · rw [if_neg (not_not.mpr horder)]
        by_cases hpresent : slot.isPresent = true
        · have hsought : slot.Sought sectorCount := ⟨hpresent, horder⟩
          rw [if_neg (by rw [hpresent]; decide), if_pos hsought]
          by_cases hboots : (slot.bootable && boots slot) = true
          · have hnot : ¬ slot.Passed sectorCount boots :=
              fun hpassed => hpassed.2 ⟨hpresent, (Bool.and_eq_true _ _).mp hboots⟩
            rw [if_pos hboots, List.cons_inj_right]
            exact hstops hnot
          · have hpassed : slot.Passed sectorCount boots :=
              ⟨horder, fun h => hboots ((Bool.and_eq_true _ _).mpr h.2)⟩
            rw [if_neg hboots, List.cons_inj_right]
            exact hgoes hpassed
        · have hpassed : slot.Passed sectorCount boots := ⟨horder, fun h => hpresent h.1⟩
          rw [if_pos (by rw [Bool.not_eq_true _ |>.mp hpresent]; decide),
            if_neg (fun hsought => hpresent hsought.1)]
          exact hgoes hpassed
      · rw [if_pos horder, if_neg (fun hsought => horder hsought.2)]
        exact hstops (fun hpassed => horder hpassed.1)

/-! ## §3. The loop of the source. -/

/-- A slot of an accepted table, read with no error: its entry, if that is in order. -/
theorem readPartitionEntry_result {device : BlockDevice} {header : GptHeader} {entryIndex : Nat}
    (hreads : ∀ lba count, lba + count ≤ device.sectorCount → device.error lba count = none)
    (hwithin : header.Within device.sectorCount)
    (hindex : entryIndex < header.partitionEntryCount) :
    (readPartitionEntry device header entryIndex).result
      = if (header.slot device entryIndex).InOrder device.sectorCount then
          .ok (header.slot device entryIndex)
        else .error .none := by
  rw [readPartitionEntry_eq hwithin hindex]
  obtain ⟨hfails, -⟩ | hread := Reading.readBlocks_cases device (header.entrySector entryIndex) 1
  · have hsector := hwithin.entrySector_lt hindex
    exact absurd (hreads _ _ (Nat.le_trans hsector hwithin.end_le)) hfails
  · rw [hread]
    show (if (header.slot device entryIndex).InOrder device.sectorCount then
      pure (header.slot device entryIndex) else Reading.none : Reading _).result = _
    split_ifs
    · rfl
    · rfl

/-- Every header of a table has passed `read_header_at`. -/
theorem newPartitionTable_within {device : BlockDevice} {header : GptHeader}
    (h : (newPartitionTable device).result = .ok header) : header.Within device.sectorCount := by
  cases Reading.orElse_ok h with
  | inl hprimary =>
      obtain ⟨headerSize, hread⟩ := readHeaderAt_readFrom hprimary
      exact hread.within
  | inr hbackup =>
      obtain ⟨lastSector, -, hbackup⟩ := Reading.bind_ok.mp hbackup
      obtain ⟨headerSize, hread⟩ := readHeaderAt_readFrom hbackup
      exact hread.within

/-- **The loop of the source is the loop over the slots**, whatever shows that each of them
    can be read. -/
theorem probePartitions_slots {device : BlockDevice} {header : GptHeader}
    {slots : List GptPartitionEntry} (boots : GptPartitionEntry → Bool)
    (htable : (newPartitionTable device).result = .ok header)
    (hlength : slots.length = header.partitionEntryCount)
    (hslots : ∀ i slot, slots[i]? = some slot → (readPartitionEntry device header i).result
      = if slot.InOrder device.sectorCount then .ok slot else .error .none)
    {fuel partitionIndex : Nat} (hfuel : slots.length - partitionIndex < fuel) :
    (probePartitions device boots header.partitionEntryCount fuel header partitionIndex).result
      = .ok (enumerate device.sectorCount boots partitionIndex (slots.drop partitionIndex)) := by
  induction fuel generalizing partitionIndex with
  | zero => omega
  | succ fuel ih =>
      unfold probePartitions
      by_cases hindex : partitionIndex < slots.length
      case neg =>
        rw [if_neg (by omega), List.drop_eq_nil_of_le (by omega)]
        rfl
      have hslot := hslots partitionIndex slots[partitionIndex] (List.getElem?_eq_getElem hindex)
      have hrest := @ih (partitionIndex + 1) (by omega)
      rw [if_pos (by omega), List.drop_eq_getElem_cons hindex]
      unfold enumerate
      generalize slots[partitionIndex] = slot at *
      by_cases horder : slot.InOrder device.sectorCount
      · rw [if_pos horder] at hslot
        rw [if_neg (not_not.mpr horder), Reading.bind_result (Reading.attempt_ok hslot)]
        show (if !slot.isPresent then _ else _ : Reading _).result = _
        by_cases hpresent : (!slot.isPresent) = true
        · rw [if_pos hpresent, if_pos hpresent]
          exact hrest
        · rw [if_neg hpresent, if_neg hpresent]
          by_cases hboots : (slot.bootable && boots slot) = true
          · rw [if_pos hboots, if_pos hboots]
            rfl
          · rw [if_neg hboots, if_neg hboots, Reading.bind_result (Reading.attempt_ok htable)]
            show (probePartitions device boots header.partitionEntryCount fuel header
              (partitionIndex + 1) >>= _).result = _
            rw [Reading.bind_result hrest]
            rfl
      · rw [if_neg horder] at hslot
        rw [if_pos horder, Reading.bind_result (Reading.attempt_none hslot)]
        rfl

/-- The same for a device that can be read throughout: the slots are the decoded ones. -/
theorem probePartitions_result {device : BlockDevice} {header : GptHeader}
    (boots : GptPartitionEntry → Bool)
    (hreads : ∀ lba count, lba + count ≤ device.sectorCount → device.error lba count = none)
    (htable : (newPartitionTable device).result = .ok header)
    (fuel count partitionIndex : Nat)
    (hcount : partitionIndex + count = header.partitionEntryCount) (hfuel : count < fuel) :
    (probePartitions device boots header.partitionEntryCount fuel header partitionIndex).result
      = .ok (enumerate device.sectorCount boots partitionIndex
          ((List.range' partitionIndex count).map (header.slot device))) := by
  have hlength : ((List.range header.partitionEntryCount).map (header.slot device)).length
      = header.partitionEntryCount := by
    rw [List.length_map, List.length_range]
  have hslots : ∀ i slot,
      ((List.range header.partitionEntryCount).map (header.slot device))[i]? = some slot →
      (readPartitionEntry device header i).result
        = if slot.InOrder device.sectorCount then .ok slot else .error .none := by
    intro i slot hslot
    rw [List.getElem?_map] at hslot
    obtain ⟨j, hj, rfl⟩ := Option.map_eq_some_iff.mp hslot
    obtain ⟨hi, rfl⟩ := List.getElem?_eq_some_iff.mp hj
    rw [List.length_range] at hi
    rw [List.getElem_range]
    exact readPartitionEntry_result hreads (newPartitionTable_within htable) hi
  have hbehind : (List.range header.partitionEntryCount).drop partitionIndex
      = List.range' partitionIndex count := by
    rw [List.range_eq_range', List.drop_range', ← hcount]
    simp
  rw [probePartitions_slots boots htable hlength hslots (by rw [hlength]; omega), ← List.map_drop,
    hbehind]

/-! ## §4. What is reported. -/

/-- Every slot that is present and in order, by index, with the number that is printed. -/
def GptHeader.soughtEntries (header : GptHeader) (device : BlockDevice) :
    List (Nat × GptPartitionEntry) :=
  ((List.range header.partitionEntryCount).filter
      (fun entryIndex => (header.slot device entryIndex).Sought device.sectorCount)).map
    (fun entryIndex => (entryIndex + 1, header.slot device entryIndex))

theorem sought_range' (header : GptHeader) (device : BlockDevice) (count partitionIndex : Nat) :
    sought device.sectorCount partitionIndex
        ((List.range' partitionIndex count).map (header.slot device))
      = ((List.range' partitionIndex count).filter
          (fun entryIndex => (header.slot device entryIndex).Sought device.sectorCount)).map
        (fun entryIndex => (entryIndex + 1, header.slot device entryIndex)) := by
  induction count generalizing partitionIndex with
  | zero => rfl
  | succ count ih =>
      rw [List.range'_succ, List.map_cons, List.filter_cons]
      unfold sought
      by_cases hsought : (header.slot device partitionIndex).Sought device.sectorCount
      · rw [if_pos hsought, if_pos (decide_eq_true hsought), List.map_cons, ih]
      · rw [if_neg hsought, if_neg (by simpa using hsought), ih]

/-- **Every present entry in order is reported, by index and once, exactly where no slot
    before one is out of order and no kernel was started before it.** -/
theorem probeDevice_complete_iff (device : BlockDevice) (boots : GptPartitionEntry → Bool)
    (header : GptHeader)
    (hreads : ∀ lba count, lba + count ≤ device.sectorCount → device.error lba count = none)
    (htable : (newPartitionTable device).result = .ok header) :
    (probeDevice device boots).result = .ok (some (header.soughtEntries device))
      ↔ ∀ later < header.partitionEntryCount,
          (header.slot device later).Sought device.sectorCount → ∀ earlier < later,
            (header.slot device earlier).InOrder device.sectorCount
            ∧ ¬ ((header.slot device earlier).isPresent ∧ (header.slot device earlier).bootable
                ∧ boots (header.slot device earlier)) := by
  have hloop := probePartitions_result boots hreads htable (header.partitionEntryCount + 1)
    header.partitionEntryCount 0 (Nat.zero_add _) (Nat.lt_succ_self _)
  have hsought := sought_range' header device header.partitionEntryCount 0
  have hprobe : (probeDevice device boots).result
      = .ok (some (enumerate device.sectorCount boots 0
          ((List.range header.partitionEntryCount).map (header.slot device)))) := by
    unfold probeDevice
    rw [Reading.bind_result (Reading.attempt_ok htable)]
    show (probePartitions device boots header.partitionEntryCount _ header 0 >>= _).result = _
    rw [Reading.bind_result hloop, List.range_eq_range']
    rfl
  rw [← List.range_eq_range'] at hsought
  have hiff := enumerate_eq_sought_iff device.sectorCount boots 0
    ((List.range header.partitionEntryCount).map (header.slot device))
  rw [hsought, List.pairwise_map, List.pairwise_iff_getElem] at hiff
  rw [hprobe, Except.ok.injEq, Option.some.injEq]
  refine hiff.trans ⟨?_, ?_⟩
  · intro hpairs later hlater hfound earlier hearlier
    have hpair := hpairs earlier later (by rw [List.length_range]; omega)
      (by rw [List.length_range]; exact hlater) hearlier
    rw [List.getElem_range, List.getElem_range] at hpair
    exact hpair hfound
  · intro hall earlier later hearlier hlater hlt
    rw [List.length_range] at hlater
    rw [List.getElem_range, List.getElem_range]
    exact fun hfound => hall later hlater hfound earlier hlt

/-! ## §5. A table with an odd slot. -/

/-- An unused slot with no range at all: its last sector is before its first. -/
def oddSlot : Bytes :=
  List.replicate 32 0 ++ leBytes 8 1 ++ leBytes 8 0 ++ List.replicate 80 0

def oddHeader : Bytes :=
  gptSignature ++ leBytes 4 65536 ++ leBytes 4 92 ++ leBytes 4 1303396835 ++ leBytes 4 0
    ++ leBytes 8 1 ++ leBytes 8 7 ++ leBytes 8 3 ++ leBytes 8 6 ++ List.replicate 16 1
    ++ leBytes 8 2 ++ leBytes 4 2 ++ leBytes 4 128 ++ leBytes 4 1905546379

/-- A disk whose table has the odd slot in front of the one partition. -/
def oddDisk : BlockDevice where
  sectorCount    := 8
  sector lba     :=
    if lba = 1 then oddHeader ++ List.replicate 420 0
    else if lba = 2 then oddSlot ++ exampleEntry.take 56 ++ List.replicate 328 0
    else List.replicate virtioSectorSize 0
  error _ _      := none
  sectorCount_lt := exampleDisk.sectorCount_lt
  sector_length  := by
    intro lba
    split_ifs
    · rw [List.length_append, List.length_replicate]
      rfl
    · rw [List.length_append, List.length_replicate]
      rfl
    · exact List.length_replicate

set_option maxRecDepth 20000 in
/-- The partition of that disk is not found, though nothing was booted. -/
theorem probeDevice_odd_slot :
    ¬ ∀ (device : BlockDevice) (boots : GptPartitionEntry → Bool) (header : GptHeader),
        (∀ lba count, device.error lba count = none) →
        (newPartitionTable device).result = .ok header →
        (∀ entry, boots entry = false) →
        (probeDevice device boots).result = .ok (some (header.soughtEntries device)) := by
  intro hclaim
  have htable : (newPartitionTable oddDisk).result = .ok ⟨2, 2, 128⟩ := by decide +kernel
  have hfound := hclaim oddDisk (fun _ => false) ⟨2, 2, 128⟩ (fun _ _ => rfl) htable (fun _ => rfl)
  have hcode : (probeDevice oddDisk (fun _ => false)).result = .ok (some []) := by decide +kernel
  have hsought : (GptHeader.soughtEntries ⟨2, 2, 128⟩ oddDisk).length = 1 := by decide +kernel
  rw [hcode] at hfound
  rw [← Option.some.inj (Except.ok.inj hfound)] at hsought
  exact absurd hsought (by decide)

/-- A second entry behind that of the other examples. -/
def secondEntry : Bytes :=
  List.replicate 16 8 ++ List.replicate 16 10 ++ leBytes 8 4 ++ leBytes 8 5 ++ leBytes 8 0
    ++ leBytes 2 66 ++ List.replicate 70 0

def spacedHeader : Bytes :=
  gptSignature ++ leBytes 4 65536 ++ leBytes 4 92 ++ leBytes 4 4270765857 ++ leBytes 4 0
    ++ leBytes 8 1 ++ leBytes 8 7 ++ leBytes 8 3 ++ leBytes 8 6 ++ List.replicate 16 1
    ++ leBytes 8 2 ++ leBytes 4 3 ++ leBytes 4 128 ++ leBytes 4 1247974141

theorem spacedEntries_length :
    (List.replicate 128 0 ++ exampleEntry ++ secondEntry ++ List.replicate 128 0).length
      = virtioSectorSize := by
  have hfirst : exampleEntry.length = 128 := rfl
  have hsecond : secondEntry.length = 128 := rfl
  rw [List.length_append, List.length_append, List.length_append, List.length_replicate, hfirst,
    hsecond]
  rfl

/-- A disk whose table has an unused slot, with the range 0 to 0, in front of two partitions. -/
def spacedDisk : BlockDevice where
  sectorCount    := 8
  sector lba     :=
    if lba = 1 then spacedHeader ++ List.replicate 420 0
    else if lba = 2 then List.replicate 128 0 ++ exampleEntry ++ secondEntry ++ List.replicate 128 0
    else List.replicate virtioSectorSize 0
  error _ _      := none
  sectorCount_lt := exampleDisk.sectorCount_lt
  sector_length  := by
    intro lba
    split_ifs
    · rw [List.length_append, List.length_replicate]
      rfl
    · exact spacedEntries_length
    · exact List.length_replicate

set_option maxRecDepth 20000 in
/-- Both partitions of it are reported, though the first asks to be booted. -/
theorem probeDevice_complete_iff_example :
    (probeDevice spacedDisk (fun _ => false)).result
        = .ok (some (GptHeader.soughtEntries ⟨2, 3, 128⟩ spacedDisk))
      ∧ GptHeader.soughtEntries ⟨2, 3, 128⟩ spacedDisk
        = [(2, decodeEntry exampleEntry), (3, decodeEntry secondEntry)] := by
  have htable : (newPartitionTable spacedDisk).result = .ok ⟨2, 3, 128⟩ := by decide +kernel
  refine ⟨(probeDevice_complete_iff spacedDisk (fun _ => false) ⟨2, 3, 128⟩ (fun _ _ _ => rfl)
    htable).mpr ?_, by decide +kernel⟩
  have hslots : ∀ entryIndex < 3,
      (GptHeader.slot ⟨2, 3, 128⟩ spacedDisk entryIndex).InOrder spacedDisk.sectorCount := by
    decide +kernel
  intro later hlater _ earlier hearlier
  exact ⟨hslots earlier (Nat.lt_trans hearlier hlater), fun hboots => Bool.noConfusion hboots.2.2⟩

end RustFirmware.Gpt
