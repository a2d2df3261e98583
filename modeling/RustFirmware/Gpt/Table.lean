/-
  RustFirmware.Gpt.Table
  ──────────────────────
  **A PARTITION TABLE IS READ BACK AS IT WAS WRITTEN, AND SURVIVES DAMAGE TO ONE COPY.**

  The source only reads.  What it reads is a format, so the writer is stated here: a
  `GptCopy` is one of the two copies of a table, `headerBytes` and `arrayBytes` are its
  two parts on the disk.

      §2   an entry, there and back
      §3   a copy on a disk: its header is accepted, and each of its entries is read
      §4   with both copies on the disk, the first one may be damaged
      §5   the entries that a walk over the table comes to
-/
import RustFirmware.Gpt.Bursts
import RustFirmware.Gpt.Probe
import RustFirmware.Gpt.Total
import RustFirmware.Lib.LittleEndian

namespace RustFirmware.Gpt

open RustFirmware.Lib
open RustFirmware.Lib.Crc
open RustFirmware.Virtio

/-! ## §1. What is written. -/

/-- The fields of an entry. -/
def entryParts (entry : GptPartitionEntry) : List Bytes :=
  [entry.partitionTypeGuid, entry.uniquePartitionGuid, leBytes 8 entry.firstLba,
   leBytes 8 entry.lastLba, leBytes 8 entry.attributes, entry.partitionName.flatMap (leBytes 2)]

def encodeEntry (entry : GptPartitionEntry) : Bytes := (entryParts entry).flatten

/-- The fields have the widths of the format. -/
structure GptPartitionEntry.Fits (entry : GptPartitionEntry) : Prop where
  typeGuid   : entry.partitionTypeGuid.length = 16
  uniqueGuid : entry.uniquePartitionGuid.length = 16
  firstLba   : entry.firstLba < 2 ^ 64
  lastLba    : entry.lastLba < 2 ^ 64
  attributes : entry.attributes < 2 ^ 64
  name       : entry.partitionName.length = gptPartitionNameLen
  units      : ∀ unit ∈ entry.partitionName, unit < 2 ^ 16

/-- **One copy of a partition table**: where its header is, what the header says, and the
    entries. -/
structure GptCopy where
  headerLba          : Nat
  revision           : Bytes
  reserved           : Bytes
  backupLba          : Nat
  firstUsableLba     : Nat
  lastUsableLba      : Nat
  diskGuid           : Bytes
  partitionEntryLba  : Nat
  partitionEntrySize : Nat
  /-- What the header has behind the fields of the format. -/
  tail               : Bytes
  entries            : List GptPartitionEntry

namespace GptCopy

/-- The array: every entry in a slot of its own. -/
def arrayBytes (copy : GptCopy) : Bytes :=
  copy.entries.flatMap (fun entry =>
    encodeEntry entry ++ List.replicate (copy.partitionEntrySize - gptEntryMinSize) 0)

/-- The fields of the header, with `crc` for its checksum. -/
def headerParts (copy : GptCopy) (crc : Nat) : List Bytes :=
  [gptSignature, copy.revision, leBytes 4 (gptHeaderMinSize + copy.tail.length), leBytes 4 crc,
   copy.reserved, leBytes 8 copy.headerLba, leBytes 8 copy.backupLba, leBytes 8 copy.firstUsableLba,
   leBytes 8 copy.lastUsableLba, copy.diskGuid, leBytes 8 copy.partitionEntryLba,
   leBytes 4 copy.entries.length, leBytes 4 copy.partitionEntrySize,
   leBytes 4 (crc32 copy.arrayBytes).toNat, copy.tail]

/-- The header; its checksum is taken with zeros in its own place. -/
def headerBytes (copy : GptCopy) : Bytes :=
  (copy.headerParts (crc32 (copy.headerParts 0).flatten).toNat).flatten

/-- What a reader gets of the header. -/
def header (copy : GptCopy) : GptHeader where
  partitionEntryLba   := copy.partitionEntryLba
  partitionEntryCount := copy.entries.length
  partitionEntrySize  := copy.partitionEntrySize

/-- **The copy is in order** for a disk with `sectorCount` sectors. -/
structure Valid (copy : GptCopy) (sectorCount : Nat) : Prop where
  revision    : copy.revision.length = 4
  reserved    : copy.reserved.length = 4
  diskGuid    : copy.diskGuid.length = 16
  headerSize  : gptHeaderMinSize + copy.tail.length ≤ virtioSectorSize
  headerLba   : copy.headerLba < sectorCount
  backupLba   : copy.backupLba < sectorCount ∧ copy.backupLba ≠ copy.headerLba
  usable      : copy.firstUsableLba ≤ copy.lastUsableLba ∧ copy.lastUsableLba < sectorCount
  nonempty    : 0 < copy.entries.length
  count       : copy.entries.length < 2 ^ 32
  entrySize   : gptEntryMinSize ≤ copy.partitionEntrySize
  multiple    : copy.partitionEntrySize % gptEntryMinSize = 0
  sizeLt      : copy.partitionEntrySize < 2 ^ 32
  entryLba    : 1 ≤ copy.partitionEntryLba
  arrayInside : copy.partitionEntryLba + copy.header.arraySectors ≤ sectorCount
  beside      : ¬ (copy.partitionEntryLba ≤ copy.headerLba
    ∧ copy.headerLba < copy.partitionEntryLba + copy.header.arraySectors)
  entries     : ∀ entry ∈ copy.entries, entry.Fits

/-- The header of the copy stands on the device and can be read. -/
structure HeaderOn (copy : GptCopy) (device : BlockDevice) : Prop where
  valid      : copy.Valid device.sectorCount
  header     : ReadsAt (device.sectors copy.headerLba 1) 0 copy.headerBytes
  readHeader : device.error copy.headerLba 1 = none

/-- The array of the copy stands on the device and can be read. -/
structure ArrayOn (copy : GptCopy) (device : BlockDevice) : Prop where
  valid     : copy.Valid device.sectorCount
  array     : copy.header.array device = copy.arrayBytes
  readArray : ∀ s, copy.partitionEntryLba ≤ s →
    s < copy.partitionEntryLba + copy.header.arraySectors → device.error s 1 = none

/-- **The copy stands on the device** and can be read. -/
structure WrittenOn (copy : GptCopy) (device : BlockDevice) : Prop extends copy.HeaderOn device where
  array     : copy.header.array device = copy.arrayBytes
  readArray : ∀ s, copy.partitionEntryLba ≤ s →
    s < copy.partitionEntryLba + copy.header.arraySectors → device.error s 1 = none

theorem WrittenOn.arrayOn {copy : GptCopy} {device : BlockDevice} (h : copy.WrittenOn device) :
    copy.ArrayOn device :=
  ⟨h.valid, h.array, h.readArray⟩

end GptCopy

/-! ## §2. Entries. -/

/-- A name, unit by unit. -/
theorem leNat_name {units : List Nat} (hunits : ∀ unit ∈ units, unit < 2 ^ 16) :
    (List.range units.length).map (fun i => leNat (field (units.flatMap (leBytes 2)) (i * 2) 2)) = units := by
  induction units with
  | nil => rfl
  | cons unit units ih =>
      rw [List.length_cons, List.range_succ_eq_map, List.map_cons, List.map_map]
      have hlength : (leBytes 2 unit).length = 2 := leBytes_length 2 unit
      congr 1
      · have hfirst : field ((unit :: units).flatMap (leBytes 2)) (0 * 2) 2 = leBytes 2 unit := by
          show (leBytes 2 unit ++ units.flatMap (leBytes 2)).take 2 = _
          exact List.take_left' hlength
        rw [hfirst]
        exact leNat_leBytes_of_lt (hunits unit List.mem_cons_self)
      · refine Eq.trans (List.map_congr_left fun i _ => ?_)
          (ih (fun unit' h => hunits unit' (List.mem_cons_of_mem _ h)))
        show leNat (((leBytes 2 unit ++ units.flatMap (leBytes 2)).drop ((i + 1) * 2)).take 2) = _
        rw [show (i + 1) * 2 = (leBytes 2 unit).length + i * 2 by rw [hlength]; omega,
          List.drop_length_add_append]
        rfl

/-- A part of a record, behind the parts before it. -/
theorem field_flatten {parts : List Bytes} {i : Nat} {part : Bytes} (h : parts[i]? = some part)
    {offset length : Nat} (hoffset : (parts.take i).flatten.length = offset)
    (hlength : part.length = length) : field parts.flatten offset length = part := by
  subst hoffset hlength
  unfold field
  rw [flatten_split h, List.drop_left, List.take_left]

/-- A word of an entry. -/
theorem word_of_entry {entry : GptPartitionEntry} {i value : Nat}
    (hpart : (entryParts entry)[i]? = some (leBytes 8 value)) (hvalue : value < 2 ^ 64) {offset : Nat}
    (hoffset : ((entryParts entry).take i).flatten.length = offset) :
    leNat (field (encodeEntry entry) offset 8) = value := by
  unfold encodeEntry
  rw [field_flatten hpart hoffset (leBytes_length 8 value)]
  exact leNat_leBytes_of_lt hvalue

/-- The units of the name, behind the 56 bytes of the other fields. -/
theorem name_of_entry {entry : GptPartitionEntry} (h : entry.Fits) :
    (List.range gptPartitionNameLen).map (fun i => leNat (field (encodeEntry entry) (56 + i * 2) 2))
      = entry.partitionName := by
  have hsplit : encodeEntry entry
      = ((entryParts entry).take 5).flatten ++ entry.partitionName.flatMap (leBytes 2) := by
    simp [encodeEntry, entryParts]
  have hfront : ((entryParts entry).take 5).flatten.length = 56 := by
    simp [entryParts, h.typeGuid, h.uniqueGuid]
  rw [← h.name]
  refine Eq.trans (List.map_congr_left fun i _ => ?_) (leNat_name h.units)
  unfold field
  rw [hsplit, ← hfront, List.drop_length_add_append]

/-- **An entry is read back as it was written.** -/
theorem decodeEntry_encodeEntry {entry : GptPartitionEntry} (h : entry.Fits) :
    decodeEntry (encodeEntry entry) = entry := by
  have htype := h.typeGuid
  have hunique := h.uniqueGuid
  have hname := name_of_entry h
  unfold decodeEntry
  rw [hname]
  have htypeGuid : field (encodeEntry entry) 0 16 = entry.partitionTypeGuid :=
    @field_flatten (entryParts entry) 0 _ rfl _ _ rfl htype
  have huniqueGuid : field (encodeEntry entry) 16 16 = entry.uniquePartitionGuid :=
    @field_flatten (entryParts entry) 1 _ rfl _ _ (by simp [entryParts, htype]) hunique
  rw [htypeGuid, huniqueGuid,
    @word_of_entry entry 2 entry.firstLba rfl h.firstLba _ (by simp [entryParts, htype, hunique]),
    @word_of_entry entry 3 entry.lastLba rfl h.lastLba _ (by simp [entryParts, htype, hunique]),
    @word_of_entry entry 4 entry.attributes rfl h.attributes _ (by simp [entryParts, htype, hunique])]

theorem encodeEntry_length {entry : GptPartitionEntry} (h : entry.Fits) :
    (encodeEntry entry).length = gptEntryMinSize := by
  have hunits : ∀ units : List Nat, (units.flatMap (leBytes 2)).length = units.length * 2 := by
    intro units
    induction units with
    | nil => rfl
    | cons unit units ih =>
        rw [List.flatMap_cons, List.length_append, leBytes_length, ih, List.length_cons]
        omega
  have hname : (entry.partitionName.flatMap (leBytes 2)).length = 72 := by
    rw [hunits, h.name]
    rfl
  simp [encodeEntry, entryParts, h.typeGuid, h.uniqueGuid, hname, gptEntryMinSize]

/-! ## §3. A copy on a device. -/

namespace Reading

variable {α β : Type}

theorem readBlocks_of_none {device : BlockDevice} {lba count : Nat}
    (h : device.error lba count = .none) :
    (readBlocks device lba count).result = .ok (device.sectors lba count) := by
  unfold readBlocks BlockDevice.readBlocks
  rw [h]
  rfl

theorem readBlocks_needs {device : BlockDevice} {lba count : Nat} {bytes : Bytes}
    (h : (readBlocks device lba count).result = .ok bytes) : device.error lba count = .none := by
  unfold readBlocks BlockDevice.readBlocks at h
  cases herror : device.error lba count with
  | none => rfl
  | some e =>
      rw [herror] at h
      cases h

/-- Past a step that has a value. -/
theorem bind_eq {x : Reading α} {a : α} {f : α → Reading β} {r : Except Stop β}
    (h : x.result = .ok a) (hrest : (f a).result = r) : (x >>= f).result = r :=
  (bind_result h f).trans hrest

theorem some?_eq {o : Option α} {a : α} {f : α → Reading β} {r : Except Stop β} (h : o = some a)
    (hrest : (f a).result = r) : (some? o >>= f).result = r :=
  bind_eq (some?_ok.mpr h) hrest

theorem orElse_of_ok {x y : Reading α} {a : α} (h : x.result = .ok a) :
    (orElse x y).result = .ok a := by
  obtain ⟨r, reads⟩ := x
  cases h
  rfl

theorem orElse_of_none {x y : Reading α} (h : x.result = .error .none) :
    (orElse x y).result = y.result := by
  obtain ⟨r, reads⟩ := x
  cases h
  rfl

/-- Past a test that does not refuse. -/
theorem guard_eq {refuse : Prop} [Decidable refuse] {x : Reading α} {r : Except Stop α}
    (h : ¬ refuse) (hrest : x.result = r) : (if refuse then none else x).result = r := by
  rw [if_neg h]
  exact hrest

end Reading

/-- The checksum loop comes through if every sector of the array can be read. -/
theorem entryArrayCrcLoop_reads (device : BlockDevice) {fuel currentLba remaining : Nat} {crc : UInt32}
    (hfuel : remaining < fuel)
    (hreads : ∀ s, currentLba ≤ s → s < currentLba + divCeil remaining virtioSectorSize →
      device.error s 1 = none)
    (hlast : currentLba + divCeil remaining virtioSectorSize < 2 ^ 64) :
    ∃ final, (entryArrayCrcLoop device fuel currentLba remaining crc).result = .ok final := by
  induction fuel generalizing currentLba remaining crc with
  | zero => omega
  | succ fuel ih =>
      unfold entryArrayCrcLoop
      by_cases hzero : remaining = 0
      · rw [if_pos hzero]
        exact ⟨crc, rfl⟩
      · have hsectors : divCeil remaining virtioSectorSize
            = 1 + divCeil (remaining - min remaining virtioSectorSize) virtioSectorSize := by
          unfold divCeil virtioSectorSize
          omega
        have hread := Reading.readBlocks_of_none (hreads currentLba (Nat.le_refl _) (by omega))
        have hlength := device.sectors_length currentLba 1
        have hchunk : (Reading.checked (indexRange (device.sectors currentLba 1) 0
            (min remaining virtioSectorSize))).result
            = .ok (((device.sectors currentLba 1).drop 0).take (min remaining virtioSectorSize - 0)) :=
          Reading.checked_ok.mpr (indexRange_ok (Nat.zero_le _) (by rw [hlength]; omega))
        have hrest : (Reading.checked (subWord remaining (min remaining virtioSectorSize))).result
            = .ok (remaining - min remaining virtioSectorSize) :=
          Reading.checked_ok.mpr (subWord_ok (Nat.min_le_left _ _))
        have hnext : (Reading.some? (checkedAdd 64 currentLba 1)).result = .ok (currentLba + 1) :=
          Reading.some?_ok.mpr (checkedAdd_some (by omega))
        rw [if_neg hzero, Reading.bind_result hread]
        dsimp only
        rw [Reading.bind_result hchunk, Reading.bind_result hrest, Reading.bind_result hnext]
        have hpos : 0 < virtioSectorSize := by decide
        exact ih (by omega) (fun s hlow hhigh => hreads s (by omega) (by omega)) (by omega)

namespace GptCopy

variable {copy : GptCopy} {device : BlockDevice}

/-- Every field of the header fits its width. -/
theorem Valid.headerParts_length {sectorCount : Nat} (h : copy.Valid sectorCount) (crc : Nat) :
    (copy.headerParts crc).flatten.length = gptHeaderMinSize + copy.tail.length := by
  simp [headerParts, h.revision, h.reserved, h.diskGuid, gptSignature, gptHeaderMinSize, ascii]
  omega

/-- The checksum field, in the middle of the header. -/
theorem Valid.headerParts_split {sectorCount : Nat} (h : copy.Valid sectorCount) (crc : Nat) :
    ∃ front back, (copy.headerParts crc).flatten = front ++ (leBytes 4 crc ++ back)
      ∧ front.length = gptHeaderCrcOffset
      ∧ (copy.headerParts 0).flatten = front ++ (leBytes 4 0 ++ back) := by
  refine ⟨((copy.headerParts crc).take 3).flatten, ((copy.headerParts crc).drop 4).flatten, ?_, ?_, ?_⟩
  · simp [headerParts]
  · simp [headerParts, h.revision, gptSignature, gptHeaderCrcOffset, ascii]
  · simp [headerParts]

/-- The header without its checksum, as the reader computes it. -/
theorem Valid.covered {sectorCount : Nat} (h : copy.Valid sectorCount) :
    overwrite copy.headerBytes gptHeaderCrcOffset [0, 0, 0, 0] = (copy.headerParts 0).flatten := by
  obtain ⟨front, back, hwith, hfront, hzero⟩ :=
    h.headerParts_split (crc32 (copy.headerParts 0).flatten).toNat
  unfold headerBytes
  rw [hwith, hzero]
  exact overwrite_middle hfront.symm (leBytes_length 4 _).symm

/-- What the reader finds in the sector of the header. -/
theorem HeaderOn.word (h : copy.HeaderOn device) {i length value : Nat} {crc : Nat}
    (hcrc : crc = (crc32 (copy.headerParts 0).flatten).toNat)
    (hpart : (copy.headerParts crc)[i]? = some (leBytes length value)) (hvalue : value < 256 ^ length)
    {offset : Nat} (hoffset : ((copy.headerParts crc).take i).flatten.length = offset) :
    readLe length (device.sectors copy.headerLba 1) offset = some value := by
  subst hcrc
  exact readLe_of_readsAt (h.header.part hpart hoffset) hvalue

/-- The array of a copy has its length from the header. -/
theorem Valid.array_lt {sectorCount : Nat} (h : copy.Valid sectorCount) :
    copy.entries.length * copy.partitionEntrySize < 2 ^ 64 := by
  calc copy.entries.length * copy.partitionEntrySize
      < 2 ^ 32 * 2 ^ 32 := Nat.mul_lt_mul'' h.count h.sizeLt
    _ = 2 ^ 64 := by decide

/-- The header that the reader gets lies on the device. -/
theorem ArrayOn.within (h : copy.ArrayOn device) : copy.header.Within device.sectorCount where
  lba_pos       := h.valid.entryLba
  end_le        := h.valid.arrayInside
  size_multiple := h.valid.multiple
  size_ge       := h.valid.entrySize
  bytes_lt      := h.valid.array_lt

/-- Its array has the checksum that the header states. -/
theorem WrittenOn.verifies (h : copy.WrittenOn device) :
    (verifyEntryArrayCrc device copy.partitionEntryLba
      (copy.entries.length * copy.partitionEntrySize) (crc32 copy.arrayBytes).toNat).result = .ok () := by
  have hinside := h.valid.arrayInside
  have hsectorCount := device.sectorCount_lt
  have hsectors : copy.header.arraySectors
      = divCeil (copy.entries.length * copy.partitionEntrySize) virtioSectorSize := rfl
  obtain ⟨final, hfinal⟩ := @entryArrayCrcLoop_reads device
    (copy.entries.length * copy.partitionEntrySize + 1) copy.partitionEntryLba
    (copy.entries.length * copy.partitionEntrySize) 0xffffffff (Nat.lt_succ_self _)
    (fun s hlow hhigh => h.readArray s hlow (by omega)) (by omega)
  refine Reading.bind_ok.mpr ⟨final, hfinal, Reading.guard_ok.mpr ⟨not_not.mpr ?_, rfl⟩⟩
  rw [entryArrayCrcLoop_ok hfinal]
  exact congrArg (fun bytes => (crc32 bytes).toNat) h.array

/-- **A header that is on the device gets as far as the check of its array.** -/
theorem HeaderOn.readHeaderAt (h : copy.HeaderOn device) :
    (readHeaderAt device copy.headerLba).result = (do
      verifyEntryArrayCrc device copy.partitionEntryLba
        (copy.entries.length * copy.partitionEntrySize) (crc32 copy.arrayBytes).toNat
      pure copy.header : Reading GptHeader).result := by
  have hvalid := h.valid
  have hsectorCount := device.sectorCount_lt
  have hlength := device.sectors_length copy.headerLba 1
  obtain ⟨hrevision, hreserved, hguid, hsize, hlba, ⟨hbackup, hother⟩, ⟨husable, hlast⟩, hnonempty, hcount,
    hentrySize, hmultiple, hsizeLt, hentryLba, hinside, hbeside, -⟩ := hvalid
  have hcrcLt := (crc32 (copy.headerParts 0).flatten).toNat_lt
  have harrayLt := (crc32 copy.arrayBytes).toNat_lt
  have hfield := @h.word
  generalize hcrc : (crc32 (copy.headerParts 0).flatten).toNat = crc at hcrcLt hfield
  have hwords : gptHeaderMinSize + copy.tail.length < 256 ^ 4 := by
    unfold virtioSectorSize at hsize
    omega
  have hread := Reading.readBlocks_of_none h.readHeader
  have hsignature : indexRange (device.sectors copy.headerLba 1) 0 8 = .ok gptSignature :=
    indexRange_of_readsAt (h.header.part (i := 0) rfl rfl)
  have hcopied : indexRange (device.sectors copy.headerLba 1) 0 (gptHeaderMinSize + copy.tail.length)
      = .ok copy.headerBytes := by
    have hall := indexRange_of_readsAt h.header
    have hbytes : copy.headerBytes.length = gptHeaderMinSize + copy.tail.length :=
      h.valid.headerParts_length _
    rwa [hbytes, Nat.zero_add] at hall
  refine Reading.bind_eq hread ?_
  refine Reading.bind_eq (Reading.checked_ok.mpr hsignature) ?_
  refine Reading.guard_eq (not_not.mpr rfl) ?_
  refine Reading.some?_eq (a := gptHeaderMinSize + copy.tail.length) ?_ ?_
  · exact @hfield 2 4 _ _ rfl rfl hwords 12 (by simp [headerParts, hrevision, gptSignature, ascii])
  refine Reading.guard_eq (not_not.mpr ⟨Nat.le_add_right _ _, hsize⟩) ?_
  refine Reading.some?_eq (a := crc) ?_ ?_
  · exact @hfield 3 4 _ _ rfl rfl hcrcLt 16 (by simp [headerParts, hrevision, gptSignature, ascii])
  refine Reading.bind_eq (Reading.checked_ok.mpr hcopied) ?_
  refine Reading.guard_eq (not_not.mpr ?_) ?_
  · rw [h.valid.covered]
    exact hcrc
  refine Reading.some?_eq (a := copy.headerLba) ?_ ?_
  · exact @hfield 5 8 _ _ rfl rfl (by omega) 24
      (by simp [headerParts, hrevision, hreserved, gptSignature, ascii])
  refine Reading.guard_eq (not_not.mpr rfl) ?_
  refine Reading.some?_eq (a := copy.backupLba) ?_ ?_
  · exact @hfield 6 8 _ _ rfl rfl (by omega) 32
      (by simp [headerParts, hrevision, hreserved, gptSignature, ascii])
  refine Reading.guard_eq (by omega) ?_
  refine Reading.some?_eq (a := copy.firstUsableLba) ?_ ?_
  · exact @hfield 7 8 _ _ rfl rfl (by omega) 40
      (by simp [headerParts, hrevision, hreserved, gptSignature, ascii])
  refine Reading.some?_eq (a := copy.lastUsableLba) ?_ ?_
  · exact @hfield 8 8 _ _ rfl rfl (by omega) 48
      (by simp [headerParts, hrevision, hreserved, gptSignature, ascii])
  refine Reading.guard_eq (by omega) ?_
  -- the array
  have hbytesLt := h.valid.array_lt
  have hsectors : copy.header.arraySectors
      = divCeil (copy.entries.length * copy.partitionEntrySize) virtioSectorSize := rfl
  refine Reading.some?_eq (a := copy.partitionEntryLba) ?_ ?_
  · exact @hfield 10 8 _ _ rfl rfl (by omega) 72
      (by simp [headerParts, hrevision, hreserved, hguid, gptSignature, ascii])
  refine Reading.some?_eq (a := copy.entries.length) ?_ ?_
  · exact @hfield 11 4 _ _ rfl rfl hcount 80
      (by simp [headerParts, hrevision, hreserved, hguid, gptSignature, ascii])
  refine Reading.some?_eq (a := copy.partitionEntrySize) ?_ ?_
  · exact @hfield 12 4 _ _ rfl rfl hsizeLt 84
      (by simp [headerParts, hrevision, hreserved, hguid, gptSignature, ascii])
  refine Reading.guard_eq (by omega) ?_
  refine Reading.some?_eq (checkedMul_some hbytesLt) ?_
  refine Reading.some?_eq (checkedAdd_some (by omega)) ?_
  refine Reading.guard_eq (by omega) ?_
  refine Reading.guard_eq (by omega) ?_
  refine Reading.some?_eq (a := (crc32 copy.arrayBytes).toNat) ?_ ?_
  · exact @hfield 13 4 _ _ rfl rfl harrayLt 88
      (by simp [headerParts, hrevision, hreserved, hguid, gptSignature, ascii])
  rfl

/-- The slots before entry `i`. -/
theorem drop_slots {entries : List GptPartitionEntry} {size i : Nat} {entry : GptPartitionEntry}
    (hfits : ∀ entry ∈ entries, entry.Fits) (hsize : gptEntryMinSize ≤ size)
    (h : entries[i]? = some entry) :
    field (entries.flatMap (fun entry => encodeEntry entry
      ++ List.replicate (size - gptEntryMinSize) 0)) (i * size) gptEntryMinSize = encodeEntry entry := by
  induction entries generalizing i with
  | nil => cases h
  | cons first rest ih =>
      have hfirst := encodeEntry_length (hfits first List.mem_cons_self)
      have hslot : (encodeEntry first ++ List.replicate (size - gptEntryMinSize) 0).length = size := by
        rw [List.length_append, List.length_replicate, hfirst]
        omega
      unfold field
      rw [List.flatMap_cons]
      cases i with
      | zero =>
          obtain rfl : first = entry := Option.some.inj h
          rw [Nat.zero_mul, List.drop_zero, List.append_assoc]
          exact List.take_left' hfirst
      | succ i =>
          rw [show (i + 1) * size = (encodeEntry first
              ++ List.replicate (size - gptEntryMinSize) 0).length + i * size by
            rw [hslot, Nat.add_mul]; omega, List.drop_length_add_append]
          exact ih (fun entry hmem => hfits entry (List.mem_cons_of_mem _ hmem)) h

/-- The bytes of an entry, where the reader looks for them. -/
theorem ArrayOn.entryBytes (h : copy.ArrayOn device) {i : Nat} {entry : GptPartitionEntry}
    (hentry : copy.entries[i]? = some entry) :
    copy.header.entryBytes device i = encodeEntry entry := by
  unfold GptHeader.entryBytes
  rw [h.array]
  exact drop_slots h.valid.entries h.valid.entrySize hentry

/-- **Each of its entries is read back**, unless its range is out of order. -/
theorem ArrayOn.readPartitionEntry (h : copy.ArrayOn device) {i : Nat} {entry : GptPartitionEntry}
    (hentry : copy.entries[i]? = some entry) :
    (readPartitionEntry device copy.header i).result
      = if entry.InOrder device.sectorCount then .ok entry else .error .none := by
  have hwithin := h.within
  have hindex : i < copy.header.partitionEntryCount := (List.getElem?_eq_some_iff.mp hentry).1
  have hsector : device.error (copy.header.entrySector i) 1 = none :=
    h.readArray (copy.header.entrySector i) (Nat.le_add_right _ _) (hwithin.entrySector_lt hindex)
  rw [readPartitionEntry_eq hwithin hindex, Reading.bind_result (Reading.readBlocks_of_none hsector),
    h.entryBytes hentry,
    decodeEntry_encodeEntry (h.valid.entries entry (List.mem_of_getElem? hentry))]
  split_ifs with horder
  · rfl
  · rfl

/-- **A copy that is on the device is accepted.** -/
theorem WrittenOn.accepted (h : copy.WrittenOn device) :
    (Gpt.readHeaderAt device copy.headerLba).result = .ok copy.header := by
  rw [h.readHeaderAt, Reading.bind_result h.verifies]
  rfl

/-! ## §4. Damage to one copy. -/

/-- **Damage to a copy.**  Part of it cannot be read, or bytes within four in a row differ from
    what was written: in the header, in the part of it that its checksum is about, or in the
    array. -/
inductive Damaged (copy : GptCopy) (device : BlockDevice) : Prop where
  | unreadHeader (h : device.error copy.headerLba 1 ≠ none)
  | unreadArray (h : copy.HeaderOn device) (s : Nat) (hlow : copy.partitionEntryLba ≤ s)
      (hhigh : s < copy.partitionEntryLba + copy.header.arraySectors) (herror : device.error s 1 ≠ none)
  | header (h : copy.ArrayOn device)
      (hdiffer : DifferWithin 4 copy.headerBytes
        ((device.sectors copy.headerLba 1).take (gptHeaderMinSize + copy.tail.length)))
  | covered (hsize : readLe32 (device.sectors copy.headerLba 1) 12
        = some (gptHeaderMinSize + copy.tail.length))
      (hcrc : readLe32 (device.sectors copy.headerLba 1) gptHeaderCrcOffset
        = some (crc32 (copy.headerParts 0).flatten).toNat)
      (hdiffer : DifferWithin 4 (copy.headerParts 0).flatten
        (coveredHeader (device.sectors copy.headerLba 1) (gptHeaderMinSize + copy.tail.length)))
  | array (h : copy.HeaderOn device)
      (hdiffer : DifferWithin 4 copy.arrayBytes (copy.header.array device))

/-- The checksum loop reads every sector of the array. -/
theorem entryArrayCrcLoop_needs {fuel currentLba remaining : Nat} {crc final : UInt32}
    (h : (entryArrayCrcLoop device fuel currentLba remaining crc).result = .ok final) {s : Nat}
    (hlow : currentLba ≤ s) (hhigh : s < currentLba + divCeil remaining virtioSectorSize) :
    device.error s 1 = none := by
  induction fuel generalizing currentLba remaining crc with
  | zero => cases h
  | succ fuel ih =>
      unfold entryArrayCrcLoop at h
      by_cases hzero : remaining = 0
      · rw [hzero] at hhigh
        unfold divCeil virtioSectorSize at hhigh
        omega
      · rw [if_neg hzero] at h
        obtain ⟨sector, hsector, h⟩ := Reading.bind_ok.mp h
        obtain ⟨chunk, hchunk, h⟩ := Reading.bind_ok.mp h
        obtain ⟨rest, hrest, h⟩ := Reading.bind_ok.mp h
        obtain ⟨nextLba, hnext, h⟩ := Reading.bind_ok.mp h
        obtain ⟨-, rfl⟩ := checkedAdd_eq_some.mp (Reading.some?_ok.mp hnext)
        rw [Reading.checked_ok, subWord_ok (Nat.min_le_left _ _)] at hrest
        obtain rfl := Except.ok.inj hrest
        rcases Nat.eq_or_lt_of_le hlow with rfl | hbehind
        · exact Reading.readBlocks_needs hsector
        · refine ih h hbehind ?_
          unfold divCeil virtioSectorSize at *
          omega

/-- A word of the header as it was written. -/
theorem headerBytes_word {i length value : Nat} {crc : Nat}
    (hcrc : crc = (crc32 (copy.headerParts 0).flatten).toNat)
    (hpart : (copy.headerParts crc)[i]? = some (leBytes length value)) (hvalue : value < 256 ^ length)
    {offset : Nat} (hoffset : ((copy.headerParts crc).take i).flatten.length = offset) :
    readLe length copy.headerBytes offset = some value := by
  subst hcrc
  have hwhole : ReadsAt copy.headerBytes 0 copy.headerBytes := ⟨[], [], (List.append_nil _).symm, rfl⟩
  exact readLe_of_readsAt (hwhole.part hpart hoffset) hvalue

/-- **A burst in the header** leaves the size and the checksum alone, so that the bytes it is in
    are covered by the checksum; or it leaves all alone that a reader gets of the header. -/
theorem Valid.headerBurst {sectorCount : Nat} (h : copy.Valid sectorCount) {sector : Bytes}
    (hlength : sector.length = virtioSectorSize)
    (hdiffer : DifferWithin 4 copy.headerBytes (sector.take (gptHeaderMinSize + copy.tail.length))) :
    (readLe32 sector 12 = some (gptHeaderMinSize + copy.tail.length)
      ∧ readLe32 sector gptHeaderCrcOffset = some (crc32 (copy.headerParts 0).flatten).toNat
      ∧ DifferWithin 4 (copy.headerParts 0).flatten
          (coveredHeader sector (gptHeaderMinSize + copy.tail.length)))
    ∨ (readLe64 sector gptPartitionEntryLbaOffset = readLe64 copy.headerBytes gptPartitionEntryLbaOffset
      ∧ readLe32 sector gptPartitionEntryCountOffset = readLe32 copy.headerBytes gptPartitionEntryCountOffset
      ∧ readLe32 sector gptPartitionEntrySizeOffset
          = readLe32 copy.headerBytes gptPartitionEntrySizeOffset) := by
  have hsize := h.headerSize
  have hbytes : copy.headerBytes.length = gptHeaderMinSize + copy.tail.length := h.headerParts_length _
  obtain ⟨hsame, hne, start, hwindow⟩ := hdiffer
  have hword : ∀ length offset, offset + length ≤ gptHeaderMinSize →
      (offset + length ≤ start ∨ start + 4 ≤ offset) →
      readLe length sector offset = readLe length copy.headerBytes offset := by
    intro length offset hfits hbeside
    rw [← readLe_eq_of_window hsame hwindow hbeside]
    exact (readLe_take (by omega) (by omega)).symm
  by_cases hout : start + 4 ≤ 12 ∨ 20 ≤ start
  · refine .inl ⟨?_, ?_, ?_⟩
    · refine (hword 4 12 (by decide) (by omega)).trans ?_
      refine @headerBytes_word copy 2 4 _ _ rfl rfl ?_ 12 ?_
      · unfold virtioSectorSize at hsize
        omega
      · simp [headerParts, h.revision, gptSignature, ascii]
    · refine (hword 4 16 (by decide) (by omega)).trans ?_
      refine @headerBytes_word copy 3 4 _ _ rfl rfl (UInt32.toNat_lt _) 16 ?_
      simp [headerParts, h.revision, gptSignature, ascii]
    · rw [← h.covered]
      refine differWithin_overwrite hne hsame hwindow ?_ (by show 16 + 4 ≤ start ∨ start + 4 ≤ 16; omega)
      show 16 + 4 ≤ copy.headerBytes.length
      unfold gptHeaderMinSize at hbytes
      omega
  · exact .inr ⟨hword 8 72 (by decide) (by omega), hword 4 80 (by decide) (by omega),
      hword 4 84 (by decide) (by omega)⟩

/-- What a reader gets of a header is in three of its words. -/
theorem Valid.header_unique (h : copy.Valid device.sectorCount) {header : GptHeader} {headerSize : Nat}
    (hread : header.ReadFrom device copy.headerLba headerSize)
    (hlba : readLe64 (device.sectors copy.headerLba 1) gptPartitionEntryLbaOffset
      = readLe64 copy.headerBytes gptPartitionEntryLbaOffset)
    (hcount : readLe32 (device.sectors copy.headerLba 1) gptPartitionEntryCountOffset
      = readLe32 copy.headerBytes gptPartitionEntryCountOffset)
    (hentrySize : readLe32 (device.sectors copy.headerLba 1) gptPartitionEntrySizeOffset
      = readLe32 copy.headerBytes gptPartitionEntrySizeOffset) : header = copy.header := by
  have hsectorCount := device.sectorCount_lt
  have hinside := h.arrayInside
  have hlbaWord : readLe64 copy.headerBytes gptPartitionEntryLbaOffset = some copy.partitionEntryLba :=
    @headerBytes_word copy 10 8 _ _ rfl rfl (by omega) 72
      (by simp [headerParts, h.revision, h.reserved, h.diskGuid, gptSignature, ascii])
  have hcountWord : readLe32 copy.headerBytes gptPartitionEntryCountOffset = some copy.entries.length :=
    @headerBytes_word copy 11 4 _ _ rfl rfl h.count 80
      (by simp [headerParts, h.revision, h.reserved, h.diskGuid, gptSignature, ascii])
  have hsizeWord : readLe32 copy.headerBytes gptPartitionEntrySizeOffset = some copy.partitionEntrySize :=
    @headerBytes_word copy 12 4 _ _ rfl rfl h.sizeLt 84
      (by simp [headerParts, h.revision, h.reserved, h.diskGuid, gptSignature, ascii])
  rw [hread.lba_read, hlbaWord] at hlba
  rw [hread.count_read, hcountWord] at hcount
  rw [hread.entrySize_read, hsizeWord] at hentrySize
  obtain ⟨lba, count, size⟩ := header
  cases hlba
  cases hcount
  cases hentrySize
  rfl

/-- A damaged copy is refused, or what is read of it is what was written. -/
theorem Damaged.refused_or_same (h : copy.Damaged device) :
    (Gpt.readHeaderAt device copy.headerLba).result = .error .none
    ∨ (Gpt.readHeaderAt device copy.headerLba).result = .ok copy.header ∧ copy.ArrayOn device := by
  rcases (readHeaderAt_total device copy.headerLba).cases with ⟨header, hok⟩ | hnone
  · obtain ⟨headerSize, hread⟩ := readHeaderAt_readFrom hok
    have huncovered : readLe32 (device.sectors copy.headerLba 1) 12
          = some (gptHeaderMinSize + copy.tail.length) →
        readLe32 (device.sectors copy.headerLba 1) gptHeaderCrcOffset
          = some (crc32 (copy.headerParts 0).flatten).toNat →
        ¬ DifferWithin 4 (copy.headerParts 0).flatten
          (coveredHeader (device.sectors copy.headerLba 1) (gptHeaderMinSize + copy.tail.length)) := by
      intro hsize hcrc hdiffer
      obtain rfl := Option.some.inj (hread.size_read.symm.trans hsize)
      have hsame := hread.crc_read
      rw [hcrc] at hsame
      exact crc32_ne_of_differWithin hdiffer (UInt32.toNat_inj.mp (Option.some.inj hsame))
    cases h with
    | unreadHeader herror =>
        exfalso
        obtain ⟨sector, hsector, -⟩ := Reading.bind_ok.mp hok
        exact herror (Reading.readBlocks_needs hsector)
    | unreadArray hon s hlow hhigh herror =>
        exfalso
        rw [hon.readHeaderAt] at hok
        obtain ⟨u, hverified, -⟩ := Reading.bind_ok.mp hok
        obtain ⟨crc, hcrc, -⟩ := Reading.bind_ok.mp hverified
        exact herror (entryArrayCrcLoop_needs hcrc hlow hhigh)
    | header hon hdiffer =>
        refine .inr ⟨?_, hon⟩
        rcases hon.valid.headerBurst (device.sectors_length copy.headerLba 1) hdiffer with
          ⟨hsize, hcrc, hcovered⟩ | ⟨hlba, hcount, hentrySize⟩
        · exact absurd hcovered (huncovered hsize hcrc)
        · rw [hok, hon.valid.header_unique hread hlba hcount hentrySize]
    | covered hsize hcrc hdiffer => exact absurd hdiffer (huncovered hsize hcrc)
    | array hon hdiffer =>
        exfalso
        rw [hon.readHeaderAt] at hok
        obtain ⟨u, hverified, -⟩ := Reading.bind_ok.mp hok
        exact crc32_ne_of_differWithin hdiffer (UInt32.toNat_inj.mp (verifyEntryArrayCrc_ok hverified).symm)
  · exact .inl hnone

end GptCopy

/-- One of the copies is found, with its array as it was written. -/
theorem newPartitionTable_of_state {device : BlockDevice} {first last : GptCopy}
    (hfirst : first.headerLba = 1) (hlast : last.headerLba + 1 = device.sectorCount)
    (hstate : first.WrittenOn device ∨ first.Damaged device ∧ last.WrittenOn device) :
    ∃ copy : GptCopy, (copy = first ∨ copy = last) ∧ copy.ArrayOn device
      ∧ (newPartitionTable device).result = .ok copy.header := by
  rcases hstate with hwritten | ⟨hdamaged, hwritten⟩
  · refine ⟨first, .inl rfl, hwritten.arrayOn, ?_⟩
    have haccepted := hwritten.accepted
    rw [hfirst] at haccepted
    exact Reading.orElse_of_ok haccepted
  · rcases hdamaged.refused_or_same with hrefused | ⟨haccepted, harray⟩
    · refine ⟨last, .inr rfl, hwritten.arrayOn, ?_⟩
      rw [hfirst] at hrefused
      unfold newPartitionTable readPrimaryHeader
      rw [Reading.orElse_of_none hrefused]
      have hsub : checkedSub device.sectorCount 1 = some last.headerLba :=
        checkedSub_eq_some.mpr ⟨by omega, by omega⟩
      exact Reading.some?_eq hsub hwritten.accepted
    · refine ⟨first, .inl rfl, harray, ?_⟩
      rw [hfirst] at haccepted
      exact Reading.orElse_of_ok haccepted

/-- **A partition table survives damage to its first copy.**  With the header of one copy in
    sector 1 and that of a copy with the same entries in the last sector, a table is found if
    the first copy is as it was written, or if it is damaged and the second one is as it was
    written; and every entry whose range is in order is read back as it was written. -/
theorem newPartitionTable_survives {device : BlockDevice} {first last : GptCopy}
    (hfirst : first.headerLba = 1) (hlast : last.headerLba + 1 = device.sectorCount)
    (hsame : last.entries = first.entries)
    (hstate : first.WrittenOn device ∨ first.Damaged device ∧ last.WrittenOn device) :
    ∃ header, (newPartitionTable device).result = .ok header
      ∧ header.partitionEntryCount = first.entries.length
      ∧ ∀ i entry, first.entries[i]? = some entry →
        (readPartitionEntry device header i).result
          = if entry.InOrder device.sectorCount then .ok entry else .error .none := by
  obtain ⟨copy, hcopy, hwritten, htable⟩ := newPartitionTable_of_state hfirst hlast hstate
  have hentries : copy.entries = first.entries := by
    rcases hcopy with rfl | rfl
    · rfl
    · exact hsame
  refine ⟨copy.header, htable, congrArg List.length hentries, ?_⟩
  intro i entry hentry
  exact hwritten.readPartitionEntry (hentries ▸ hentry)

/-! ## §5. The walk over a table. -/

/-- A table with `entries` is on the device: the header of its first copy in sector 1 and that
    of its last copy in the last sector, and the first copy is as it was written, or it is
    damaged and the last one is as it was written. -/
def Tabled (device : BlockDevice) (entries : List GptPartitionEntry) : Prop :=
  ∃ first last : GptCopy, first.headerLba = 1 ∧ last.headerLba + 1 = device.sectorCount
    ∧ first.entries = entries ∧ last.entries = entries
    ∧ (first.WrittenOn device ∨ first.Damaged device ∧ last.WrittenOn device)

/-- **The walk over a table reports its entries**, as far as the loop comes. -/
theorem Tabled.probeDevice {device : BlockDevice} {entries : List GptPartitionEntry}
    (h : Tabled device entries) (boots : GptPartitionEntry → Bool) :
    (probeDevice device boots).result
      = .ok (some (enumerate device.sectorCount boots 0 entries)) := by
  obtain ⟨first, last, hfirst, hlast, hfirstEntries, hlastEntries, hstate⟩ := h
  obtain ⟨copy, hcopy, hwritten, htable⟩ := newPartitionTable_of_state hfirst hlast hstate
  obtain rfl : copy.entries = entries := by
    rcases hcopy with rfl | rfl
    · exact hfirstEntries
    · exact hlastEntries
  have hfuel : copy.entries.length - 0 < copy.header.partitionEntryCount + 1 := Nat.lt_succ_self _
  have hloop := probePartitions_slots boots htable rfl
    (fun i entry hentry => hwritten.readPartitionEntry hentry) hfuel
  unfold Gpt.probeDevice
  rw [Reading.bind_result (Reading.attempt_ok htable)]
  show (probePartitions device boots copy.header.partitionEntryCount _ copy.header 0 >>= _).result = _
  rw [Reading.bind_result hloop]
  rfl

/-! ## §6. A disk with a damaged array. -/

/-- The partition in sectors 3 to 5, called `A`. -/
def tableEntry : GptPartitionEntry where
  partitionTypeGuid   := List.replicate 16 7
  uniquePartitionGuid := List.replicate 16 9
  firstLba            := 3
  lastLba             := 5
  attributes          := 4
  partitionName       := 65 :: List.replicate 35 0

def tableCopy (headerLba backupLba partitionEntryLba : Nat) : GptCopy where
  headerLba          := headerLba
  revision           := [0, 0, 1, 0]
  reserved           := [0, 0, 0, 0]
  backupLba          := backupLba
  firstUsableLba     := 3
  lastUsableLba      := 5
  diskGuid           := List.replicate 16 1
  partitionEntryLba  := partitionEntryLba
  partitionEntrySize := 128
  tail               := []
  entries            := [tableEntry]

/-- The first byte of the first array is not what was written. -/
def tableSector (lba : Nat) : Bytes :=
  if lba = 1 then (tableCopy 1 7 2).headerBytes ++ List.replicate 420 0
  else if lba = 2 then 8 :: (encodeEntry tableEntry).drop 1 ++ List.replicate 384 0
  else if lba = 6 then encodeEntry tableEntry ++ List.replicate 384 0
  else if lba = 7 then (tableCopy 7 1 6).headerBytes ++ List.replicate 420 0
  else List.replicate virtioSectorSize 0

theorem tableSector_length (lba : Nat) : (tableSector lba).length = virtioSectorSize := by
  unfold tableSector
  split_ifs
  · decide +kernel
  · decide +kernel
  · decide +kernel
  · decide +kernel
  · exact List.length_replicate

def tableDisk : BlockDevice where
  sectorCount    := 8
  sector         := tableSector
  error _ _      := none
  sectorCount_lt := exampleDisk.sectorCount_lt
  sector_length  := tableSector_length

theorem tableEntry_fits : tableEntry.Fits := by
  constructor <;> decide

theorem tableCopy_valid : (tableCopy 1 7 2).Valid 8 ∧ (tableCopy 7 1 6).Valid 8 := by
  constructor <;> constructor <;> first | decide | exact fun entry h => List.mem_singleton.mp h ▸ tableEntry_fits

theorem tableDisk_state : (tableCopy 1 7 2).Damaged tableDisk ∧ (tableCopy 7 1 6).WrittenOn tableDisk := by
  constructor
  · refine .array ⟨tableCopy_valid.1, ⟨[], List.replicate 420 0, ?_, rfl⟩, rfl⟩ ?_
    · exact List.append_nil _
    · have hwritten : (tableCopy 1 7 2).arrayBytes = [] ++ ([7] ++ (encodeEntry tableEntry).drop 1) := by
        decide +kernel
      have hread : (tableCopy 1 7 2).header.array tableDisk
          = [] ++ ([8] ++ (encodeEntry tableEntry).drop 1) := by
        decide +kernel
      rw [hwritten, hread]
      exact differWithin_append _ _ rfl (by decide) (by decide)
  · refine ⟨⟨tableCopy_valid.2, ⟨[], List.replicate 420 0, ?_, rfl⟩, rfl⟩, ?_, fun s _ _ => rfl⟩
    · exact List.append_nil _
    · decide +kernel

theorem newPartitionTable_survives_example :
    ∃ header, (newPartitionTable tableDisk).result = .ok header
      ∧ (readPartitionEntry tableDisk header 0).result = .ok tableEntry := by
  obtain ⟨header, htable, -, hentries⟩ := @newPartitionTable_survives tableDisk (tableCopy 1 7 2)
    (tableCopy 7 1 6) rfl rfl rfl (.inr tableDisk_state)
  exact ⟨header, htable, hentries 0 tableEntry rfl⟩

end RustFirmware.Gpt
