/-
  RustFirmware.Gpt.Entries
  ────────────────────────
  **AN ACCEPTED HEADER DESCRIBES AN ARRAY THAT CAN BE READ ENTRY BY ENTRY.**

  The checksum loop goes through the array sector by sector, the entry reader goes
  straight to the sector of an entry.  `ArrayOf` is what both are measured by: the
  `count * size` bytes from sector `partitionEntryLba` on.  Entry sizes are multiples
  of 128, so no entry straddles a sector and one sector is always enough.
-/
import RustFirmware.Gpt.Read

namespace RustFirmware.Gpt

open RustFirmware.Lib
open RustFirmware.Virtio

/-! ## §1. Going through a reader step by step. -/

namespace Reading

variable {α β : Type}

/-- A sequence has a value exactly when both parts do. -/
theorem bind_ok {x : Reading α} {f : α → Reading β} {b : β} :
    (x >>= f).result = .ok b ↔ ∃ a, x.result = .ok a ∧ (f a).result = .ok b := by
  obtain ⟨r, reads⟩ := x
  cases r with
  | ok a => exact ⟨fun h => ⟨a, rfl, h⟩, fun ⟨a', ha, h⟩ => Except.ok.inj ha ▸ h⟩
  | error e => exact ⟨fun h => (by cases h), fun ⟨_, ha, _⟩ => (by cases ha)⟩

theorem some?_ok {o : Option α} {a : α} : (some? o).result = .ok a ↔ o = some a := by
  cases o with
  | none => exact ⟨fun h => (by cases h), fun h => (by cases h)⟩
  | some b => exact ⟨fun h => congrArg some (Except.ok.inj h), fun h => congrArg Except.ok (Option.some.inj h)⟩

theorem checked_ok {x : Checked α} {a : α} : (checked x).result = .ok a ↔ x = .ok a := by
  cases x with
  | ok b => exact ⟨fun h => (by cases h; rfl), fun h => (by cases h; rfl)⟩
  | error t => exact ⟨fun h => (by cases h), fun h => (by cases h)⟩

/-- Past `if refuse { return None }`. -/
theorem guard_ok {refuse : Prop} [Decidable refuse] {x : Reading α} {a : α} :
    (if refuse then none else x).result = .ok a ↔ ¬ refuse ∧ x.result = .ok a := by
  by_cases h : refuse
  · rw [if_pos h]
    exact ⟨fun hno => (by cases hno), fun hno => absurd h hno.1⟩
  · rw [if_neg h]
    exact ⟨fun hx => ⟨h, hx⟩, fun hx => hx.2⟩

theorem readBlocks_result_ok {device : BlockDevice} {lba count : Nat} {bytes : Bytes}
    (h : (readBlocks device lba count).result = .ok bytes) : bytes = device.sectors lba count := by
  unfold readBlocks at h
  split at h
  case h_1 hread =>
    cases h
    exact device.readBlocks_ok hread
  case h_2 => cases h

/-- A read is logged, whether it fails or not. -/
theorem readBlocks_cases (device : BlockDevice) (lba count : Nat) :
    device.error lba count ≠ .none ∧ readBlocks device lba count = (.error .none, [(lba, count)])
    ∨ readBlocks device lba count = (.ok (device.sectors lba count), [(lba, count)]) := by
  unfold readBlocks BlockDevice.readBlocks
  cases device.error lba count with
  | none => exact .inr rfl
  | some e => exact .inl ⟨by simp, rfl⟩

/-- What follows a step matters only for the values the step can have. -/
theorem bind_congr {x : Reading α} {f g : α → Reading β}
    (h : ∀ a, x.result = .ok a → f a = g a) : (x >>= f) = (x >>= g) := by
  obtain ⟨r, reads⟩ := x
  cases r with
  | ok a =>
      show ((f a).1, reads ++ (f a).2) = ((g a).1, reads ++ (g a).2)
      rw [h a rfl]
  | error e => rfl

/-- A step that succeeds without a read is a step over. -/
theorem checked_bind {x : Checked α} {a : α} (h : x = .ok a) (f : α → Reading β) :
    (checked x >>= f) = f a := by
  subst h
  rfl

theorem some?_bind {o : Option α} {a : α} (h : o = some a) (f : α → Reading β) :
    (some? o >>= f) = f a := by
  subst h
  rfl

end Reading

/-! ## §2. The array of a header. -/

/-- The length of the array in bytes. -/
def GptHeader.arrayBytes (header : GptHeader) : Nat :=
  header.partitionEntryCount * header.partitionEntrySize

/-- How many sectors it takes. -/
def GptHeader.arraySectors (header : GptHeader) : Nat := divCeil header.arrayBytes virtioSectorSize

/-- Its contents on a device. -/
def GptHeader.array (header : GptHeader) (device : BlockDevice) : Bytes :=
  (device.sectors header.partitionEntryLba header.arraySectors).take header.arrayBytes

theorem le_divCeil (a : Nat) : a ≤ virtioSectorSize * divCeil a virtioSectorSize := by
  unfold divCeil virtioSectorSize
  omega

/-- **The checksum loop runs over the first `remaining` bytes from `currentLba` on.** -/
theorem entryArrayCrcLoop_ok {device : BlockDevice} {fuel currentLba remaining : Nat}
    {crc final : UInt32}
    (h : (entryArrayCrcLoop device fuel currentLba remaining crc).result = .ok final) :
    final = crc32Update crc
      ((device.sectors currentLba (divCeil remaining virtioSectorSize)).take remaining) := by
  induction fuel generalizing currentLba remaining crc with
  | zero => cases h
  | succ fuel ih =>
      unfold entryArrayCrcLoop at h
      by_cases hzero : remaining = 0
      · rw [if_pos hzero] at h
        rw [hzero, List.take_zero]
        exact (Except.ok.inj h).symm
      · rw [if_neg hzero] at h
        obtain ⟨sector, hsector, h⟩ := Reading.bind_ok.mp h
        obtain ⟨chunk, hchunk, h⟩ := Reading.bind_ok.mp h
        obtain ⟨rest, hrest, h⟩ := Reading.bind_ok.mp h
        obtain ⟨nextLba, hnext, h⟩ := Reading.bind_ok.mp h
        obtain rfl := Reading.readBlocks_result_ok hsector
        obtain ⟨-, rfl⟩ := checkedAdd_eq_some.mp (Reading.some?_ok.mp hnext)
        have hlength := device.sectors_length currentLba 1
        rw [Reading.checked_ok, indexRange_ok (Nat.zero_le _) (by rw [hlength]; omega)] at hchunk
        rw [Reading.checked_ok, subWord_ok (Nat.min_le_left _ _)] at hrest
        cases hchunk
        cases hrest
        rw [ih h, ← crc32Update_append]
        congr 1
        -- one sector, and the rest of the array after it
        have hsectors : divCeil remaining virtioSectorSize
            = 1 + divCeil (remaining - min remaining virtioSectorSize) virtioSectorSize := by
          unfold divCeil virtioSectorSize
          omega
        rw [hsectors, device.sectors_add, List.take_append, hlength, List.drop_zero, Nat.sub_zero]
        have hwhole : ∀ n, virtioSectorSize ≤ n →
            (device.sectors currentLba 1).take n = device.sectors currentLba 1 :=
          fun n hn => List.take_of_length_le (by rw [hlength]; omega)
        by_cases hfull : remaining ≤ virtioSectorSize
        · rw [Nat.min_eq_left hfull, Nat.sub_self, List.take_zero,
            Nat.sub_eq_zero_of_le (by omega), List.take_zero]
        · rw [Nat.min_eq_right (by omega), Nat.mul_one, hwhole _ (Nat.le_refl _),
            hwhole remaining (by omega)]

theorem verifyEntryArrayCrc_ok {device : BlockDevice} {startLba byteLen expectedCrc : Nat} {u : Unit}
    (h : (verifyEntryArrayCrc device startLba byteLen expectedCrc).result = .ok u) :
    (crc32 ((device.sectors startLba (divCeil byteLen virtioSectorSize)).take byteLen)).toNat
      = expectedCrc := by
  obtain ⟨crc, hcrc, h⟩ := Reading.bind_ok.mp h
  obtain ⟨hequal, -⟩ := Reading.guard_ok.mp h
  rw [entryArrayCrcLoop_ok hcrc] at hequal
  exact not_not.mp hequal

/-! ## §3. What an accepted header promises. -/

/-- The array of a header lies on a device with `sectorCount` sectors, behind its first
    one, and its entries do not straddle sectors. -/
structure GptHeader.Within (header : GptHeader) (sectorCount : Nat) : Prop where
  lba_pos       : 1 ≤ header.partitionEntryLba
  end_le        : header.partitionEntryLba + header.arraySectors ≤ sectorCount
  size_multiple : header.partitionEntrySize % gptEntryMinSize = 0
  size_ge       : gptEntryMinSize ≤ header.partitionEntrySize
  bytes_lt      : header.arrayBytes < 2 ^ 64

/-- What `read_header_at` has read and checked when it returns `header` from the sector
    `lba`, which says that its header is `headerSize` bytes long. -/
structure GptHeader.ReadFrom (header : GptHeader) (device : BlockDevice) (lba headerSize : Nat) :
    Prop where
  size_read      : readLe32 (device.sectors lba 1) 12 = some headerSize
  crc_read       : readLe32 (device.sectors lba 1) gptHeaderCrcOffset
    = some (crc32 (overwrite ((device.sectors lba 1).take headerSize) gptHeaderCrcOffset
        [0, 0, 0, 0])).toNat
  lba_read       : readLe64 (device.sectors lba 1) gptPartitionEntryLbaOffset
    = some header.partitionEntryLba
  count_read     : readLe32 (device.sectors lba 1) gptPartitionEntryCountOffset
    = some header.partitionEntryCount
  entrySize_read : readLe32 (device.sectors lba 1) gptPartitionEntrySizeOffset
    = some header.partitionEntrySize
  within         : header.Within device.sectorCount
  beside         :
    ¬ (header.partitionEntryLba ≤ lba ∧ lba < header.partitionEntryLba + header.arraySectors)
  arrayCrc_read  : readLe32 (device.sectors lba 1) gptPartitionEntryArrayCrcOffset
    = some (crc32 (header.array device)).toNat

/-- **What `read_header_at` has checked when it returns a header**, test by test. -/
theorem readHeaderAt_readFrom {device : BlockDevice} {lba : Nat} {header : GptHeader}
    (h : (readHeaderAt device lba).result = .ok header) :
    ∃ headerSize, header.ReadFrom device lba headerSize := by
  obtain ⟨sector, hsector, h⟩ := Reading.bind_ok.mp h
  obtain rfl := Reading.readBlocks_result_ok hsector
  -- the header and its checksum
  obtain ⟨signature, -, h⟩ := Reading.bind_ok.mp h
  obtain ⟨-, h⟩ := Reading.guard_ok.mp h
  obtain ⟨headerSize, hheaderSize, h⟩ := Reading.bind_ok.mp h
  obtain ⟨hheader, h⟩ := Reading.guard_ok.mp h
  obtain ⟨headerCrc, hheaderCrc, h⟩ := Reading.bind_ok.mp h
  obtain ⟨copied, hcopied, h⟩ := Reading.bind_ok.mp h
  obtain ⟨hequal, h⟩ := Reading.guard_ok.mp h
  -- the sectors it names
  obtain ⟨currentLba, -, h⟩ := Reading.bind_ok.mp h
  obtain ⟨-, h⟩ := Reading.guard_ok.mp h
  obtain ⟨backupLba, -, h⟩ := Reading.bind_ok.mp h
  obtain ⟨-, h⟩ := Reading.guard_ok.mp h
  obtain ⟨firstUsableLba, -, h⟩ := Reading.bind_ok.mp h
  obtain ⟨lastUsableLba, -, h⟩ := Reading.bind_ok.mp h
  obtain ⟨-, h⟩ := Reading.guard_ok.mp h
  -- from here on it is about the array
  obtain ⟨partitionEntryLba, hlba, h⟩ := Reading.bind_ok.mp h
  obtain ⟨partitionEntryCount, hcount, h⟩ := Reading.bind_ok.mp h
  obtain ⟨entrySize, hentrySize, h⟩ := Reading.bind_ok.mp h
  obtain ⟨hsize, h⟩ := Reading.guard_ok.mp h
  obtain ⟨entryArrayBytes, hbytes, h⟩ := Reading.bind_ok.mp h
  obtain ⟨hfits, rfl⟩ := checkedMul_eq_some.mp (Reading.some?_ok.mp hbytes)
  obtain ⟨entryArrayEndLba, hend, h⟩ := Reading.bind_ok.mp h
  obtain ⟨-, rfl⟩ := checkedAdd_eq_some.mp (Reading.some?_ok.mp hend)
  obtain ⟨hbounds, h⟩ := Reading.guard_ok.mp h
  obtain ⟨hbeside, h⟩ := Reading.guard_ok.mp h
  obtain ⟨entryArrayCrc, hcrc, h⟩ := Reading.bind_ok.mp h
  obtain ⟨u, hverified, h⟩ := Reading.bind_ok.mp h
  cases h
  refine ⟨headerSize, Reading.some?_ok.mp hheaderSize, ?_, Reading.some?_ok.mp hlba,
    Reading.some?_ok.mp hcount, Reading.some?_ok.mp hentrySize, ⟨?_, ?_, ?_, ?_, hfits⟩,
    hbeside, ?_⟩
  · have hlength := device.sectors_length lba 1
    rw [Reading.checked_ok, indexRange_ok (Nat.zero_le _) (by rw [hlength]; omega)] at hcopied
    cases hcopied
    rw [Reading.some?_ok.mp hheaderCrc]
    exact congrArg some (not_not.mp hequal).symm
  · show 1 ≤ partitionEntryLba
    omega
  · show partitionEntryLba + divCeil (partitionEntryCount * entrySize) virtioSectorSize ≤ _
    omega
  · show entrySize % gptEntryMinSize = 0
    omega
  · show gptEntryMinSize ≤ entrySize
    omega
  · rw [Reading.some?_ok.mp hcrc, ← verifyEntryArrayCrc_ok hverified]
    rfl

/-! ## §4. Reading an entry. -/

/-- The `length` bytes of a record from `offset` on. -/
def field (record : Bytes) (offset length : Nat) : Bytes := (record.drop offset).take length

/-- What the 128 bytes of an entry stand for. -/
def decodeEntry (entry : Bytes) : GptPartitionEntry where
  partitionTypeGuid   := field entry 0 16
  uniquePartitionGuid := field entry 16 16
  firstLba            := leNat (field entry 32 8)
  lastLba             := leNat (field entry 40 8)
  attributes          := leNat (field entry 48 8)
  partitionName       :=
    (List.range gptPartitionNameLen).map (fun i => leNat (field entry (56 + i * 2) 2))

/-- The bytes of entry `entryIndex` in the array. -/
def GptHeader.entryBytes (header : GptHeader) (device : BlockDevice) (entryIndex : Nat) : Bytes :=
  field (header.array device) (entryIndex * header.partitionEntrySize) gptEntryMinSize

/-- The sector an entry is in. -/
def GptHeader.entrySector (header : GptHeader) (entryIndex : Nat) : Nat :=
  header.partitionEntryLba + entryIndex * header.partitionEntrySize / virtioSectorSize

/-- The limits that the source puts on the range of an entry. -/
def GptPartitionEntry.InOrder (entry : GptPartitionEntry) (sectorCount : Nat) : Prop :=
  entry.firstLba ≤ entry.lastLba ∧ entry.lastLba < sectorCount

instance (entry : GptPartitionEntry) (sectorCount : Nat) : Decidable (entry.InOrder sectorCount) :=
  inferInstanceAs (Decidable (_ ∧ _))

theorem field_eq {entry : Bytes} {offset length : Nat} (h : offset + length ≤ entry.length) :
    slice? entry offset (offset + length) = some (field entry offset length) := by
  unfold slice? field
  rw [if_pos ⟨Nat.le_add_right _ _, h⟩, Nat.add_sub_cancel_left]

theorem copy16_field {entry : Bytes} {offset : Nat} (h : offset + 16 ≤ entry.length) :
    copy16 entry offset = some (field entry offset 16) := field_eq h

theorem readLe64_field {entry : Bytes} {offset : Nat} (h : offset + 8 ≤ entry.length) :
    readLe64 entry offset = some (leNat (field entry offset 8)) := by
  unfold readLe64 readLe
  rw [field_eq h]
  rfl

/-- Two bytes of a record, one by one. -/
theorem field_two {entry : Bytes} {offset : Nat} (h : offset + 2 ≤ entry.length) :
    field entry offset 2 = [entry[offset], entry[offset + 1]] := by
  unfold field
  rw [List.drop_eq_getElem_cons (by omega), List.drop_eq_getElem_cons (by omega)]
  rfl

/-- The code units of a name from `nameIndex` on. -/
theorem decodeName_ok {entry : Bytes} {count nameIndex : Nat}
    (h : 56 + (nameIndex + count) * 2 ≤ entry.length) :
    decodeName entry count nameIndex
      = .ok ((List.range' nameIndex count).map (fun i => leNat (field entry (56 + i * 2) 2))) := by
  induction count generalizing nameIndex with
  | zero => rfl
  | succ count ih =>
      have htwo : 56 + nameIndex * 2 + 2 ≤ entry.length := by omega
      show (do
        let low ← index entry (56 + nameIndex * 2)
        let high ← index entry (56 + nameIndex * 2 + 1)
        let rest ← decodeName entry count (nameIndex + 1)
        Except.ok (leNat [low, high] :: rest) : Checked (List Nat)) = _
      rw [index_ok (List.getElem?_eq_getElem (by omega)), ok_bind,
        index_ok (List.getElem?_eq_getElem (by omega)), ok_bind, ih (by omega), ok_bind,
        List.range'_succ, List.map_cons, field_two htwo]

/-- The entry lies inside the array. -/
theorem GptHeader.Within.entry_le {header : GptHeader} {sectorCount entryIndex : Nat}
    (hwithin : header.Within sectorCount) (hindex : entryIndex < header.partitionEntryCount) :
    entryIndex * header.partitionEntrySize + gptEntryMinSize ≤ header.arrayBytes := by
  calc entryIndex * header.partitionEntrySize + gptEntryMinSize
      ≤ entryIndex * header.partitionEntrySize + header.partitionEntrySize :=
        Nat.add_le_add_left hwithin.size_ge _
    _ = (entryIndex + 1) * header.partitionEntrySize := (Nat.succ_mul _ _).symm
    _ ≤ header.partitionEntryCount * header.partitionEntrySize := Nat.mul_le_mul_right _ hindex

/-- Its first byte is in a sector of the array. -/
theorem GptHeader.Within.entrySector_lt {header : GptHeader} {sectorCount entryIndex : Nat}
    (hwithin : header.Within sectorCount) (hindex : entryIndex < header.partitionEntryCount) :
    header.entrySector entryIndex < header.partitionEntryLba + header.arraySectors := by
  have hle := hwithin.entry_le hindex
  have hcovers := le_divCeil header.arrayBytes
  unfold GptHeader.entrySector GptHeader.arraySectors
  unfold virtioSectorSize gptEntryMinSize at *
  omega

/-- The entry starts at a multiple of 128 within its sector. -/
theorem GptHeader.Within.offset_le {header : GptHeader} {sectorCount : Nat}
    (hwithin : header.Within sectorCount) (entryIndex : Nat) :
    entryIndex * header.partitionEntrySize % virtioSectorSize + gptEntryMinSize
      ≤ virtioSectorSize := by
  have hmultiple : entryIndex * header.partitionEntrySize % gptEntryMinSize = 0 := by
    rw [Nat.mul_mod, hwithin.size_multiple, Nat.mul_zero, Nat.zero_mod]
  unfold virtioSectorSize gptEntryMinSize at *
  omega

/-- **The sector of an entry holds all of it.** -/
theorem GptHeader.Within.entryBytes_eq {header : GptHeader} {device : BlockDevice}
    {entryIndex : Nat} (hwithin : header.Within device.sectorCount)
    (hindex : entryIndex < header.partitionEntryCount) :
    field (device.sectors (header.entrySector entryIndex) 1)
        (entryIndex * header.partitionEntrySize % virtioSectorSize) gptEntryMinSize
      = header.entryBytes device entryIndex := by
  have hle := hwithin.entry_le hindex
  have hoffset := hwithin.offset_le entryIndex
  have hbytes := le_divCeil header.arrayBytes
  unfold GptHeader.entryBytes GptHeader.array GptHeader.entrySector GptHeader.arraySectors
  generalize entryIndex * header.partitionEntrySize = offset at *
  generalize divCeil header.arrayBytes virtioSectorSize = count at *
  have hsplit := Nat.div_add_mod offset virtioSectorSize
  have hin : offset / virtioSectorSize < count := by
    rw [Nat.div_lt_iff_lt_mul (by decide)]
    unfold virtioSectorSize gptEntryMinSize at *
    omega
  have hdrop := device.sectors_drop header.partitionEntryLba count _ (Nat.le_of_lt hin)
  have htake := device.sectors_take (header.partitionEntryLba + offset / virtioSectorSize)
    (count - offset / virtioSectorSize) 1 (by omega)
  unfold field
  rw [← htake, ← hdrop, List.drop_take, List.take_take, List.drop_drop, hsplit,
    List.drop_take, List.take_take, Nat.min_eq_left (by omega), Nat.min_eq_left (by omega)]

theorem GptHeader.Within.entryBytes_length {header : GptHeader} {device : BlockDevice}
    {entryIndex : Nat} (hwithin : header.Within device.sectorCount)
    (hindex : entryIndex < header.partitionEntryCount) :
    (header.entryBytes device entryIndex).length = gptEntryMinSize := by
  have hoffset := hwithin.offset_le entryIndex
  rw [← hwithin.entryBytes_eq hindex, field, List.length_take, List.length_drop,
    device.sectors_length]
  omega

/-- **What `read_partition_entry` does with an accepted header**: one sector is read, and
    its entry is returned if its range is in order. -/
theorem readPartitionEntry_eq {header : GptHeader} {device : BlockDevice} {entryIndex : Nat}
    (hwithin : header.Within device.sectorCount)
    (hindex : entryIndex < header.partitionEntryCount) :
    readPartitionEntry device header entryIndex = (do
      let _ ← Reading.readBlocks device (header.entrySector entryIndex) 1
      if (decodeEntry (header.entryBytes device entryIndex)).InOrder device.sectorCount then
        pure (decodeEntry (header.entryBytes device entryIndex))
      else Reading.none) := by
  have hle := hwithin.entry_le hindex
  have hoffset := hwithin.offset_le entryIndex
  have hbytes := le_divCeil header.arrayBytes
  have hlt := hwithin.bytes_lt
  have hend := hwithin.end_le
  have hcount := device.sectorCount_lt
  have hsector : header.entrySector entryIndex < 2 ^ 64 :=
    calc header.entrySector entryIndex
        < header.partitionEntryLba + header.arraySectors := hwithin.entrySector_lt hindex
      _ ≤ device.sectorCount := hend
      _ < 2 ^ 64 := hcount
  have hsectors : requiredEntrySectors (entryIndex * header.partitionEntrySize % virtioSectorSize)
      = some 1 := by
    unfold requiredEntrySectors
    rw [checkedAdd_some (Nat.lt_of_le_of_lt hoffset (by decide)), Option.map_some]
    unfold divCeil virtioSectorSize gptEntryMinSize at *
    congr 1
    omega
  unfold readPartitionEntry
  rw [if_neg (Nat.not_le.mpr hindex), Reading.some?_bind (checkedMul_some (by
      unfold gptEntryMinSize at hle
      omega)),
    Reading.some?_bind (checkedAdd_some hsector)]
  show (do
    let sectorsToRead ← Reading.some?
      (requiredEntrySectors (entryIndex * header.partitionEntrySize % virtioSectorSize))
    _) = _
  rw [Reading.some?_bind hsectors, Reading.checked_bind (mulWord_ok (by decide)),
    if_neg (by decide),
    show header.partitionEntryLba + entryIndex * header.partitionEntrySize / virtioSectorSize
      = header.entrySector entryIndex from rfl]
  apply Reading.bind_congr
  intro read hread
  obtain rfl := Reading.readBlocks_result_ok hread
  have hlength := device.sectors_length (header.entrySector entryIndex) 1
  have hentry : indexRange
      (device.sectors (header.entrySector entryIndex) 1
        ++ List.replicate (gptEntryReadBufferSize - 1 * virtioSectorSize) 0)
      (entryIndex * header.partitionEntrySize % virtioSectorSize)
      (entryIndex * header.partitionEntrySize % virtioSectorSize + gptEntryMinSize)
      = .ok (header.entryBytes device entryIndex) := by
    rw [indexRange_ok (Nat.le_add_right _ _) (by rw [List.length_append]; omega),
      ← hwithin.entryBytes_eq hindex, Nat.add_sub_cancel_left,
      List.drop_append_of_le_length (by omega), List.take_append_of_le_length]
    · rfl
    · rw [List.length_drop]
      omega
  have hsize := hwithin.entryBytes_length hindex
  show (do
    let stop ← Reading.checked
      (addWord 64 (entryIndex * header.partitionEntrySize % virtioSectorSize) gptEntryMinSize)
    _) = _
  rw [Reading.checked_bind (addWord_ok (Nat.lt_of_le_of_lt hoffset (by decide))),
    Reading.checked_bind hentry]
  generalize header.entryBytes device entryIndex = entry at *
  rw [Reading.checked_bind (decodeName_ok (by rw [hsize]; decide)),
    Reading.some?_bind (copy16_field (by rw [hsize]; decide)),
    Reading.some?_bind (copy16_field (by rw [hsize]; decide)),
    Reading.some?_bind (readLe64_field (by rw [hsize]; decide)),
    Reading.some?_bind (readLe64_field (by rw [hsize]; decide)),
    Reading.some?_bind (readLe64_field (by rw [hsize]; decide))]
  -- the source tests for the ranges that are out of order
  show (if leNat (field entry 32 8) > leNat (field entry 40 8)
      ∨ leNat (field entry 40 8) ≥ device.sectorCount then Reading.none else pure _) = _
  by_cases horder : (decodeEntry entry).InOrder device.sectorCount
  · have hkeep : ¬ (leNat (field entry 32 8) > leNat (field entry 40 8)
        ∨ leNat (field entry 40 8) ≥ device.sectorCount) := by
      rintro (hlast | hlast)
      · exact Nat.not_le.mpr hlast horder.1
      · exact Nat.not_lt.mpr hlast horder.2
    rw [if_pos horder, if_neg hkeep]
    unfold decodeEntry
    rw [List.range_eq_range']
  · rw [if_neg horder, if_pos]
    by_contra hkeep
    obtain ⟨hfirst, hlast⟩ := not_or.mp hkeep
    exact horder ⟨Nat.not_lt.mp hfirst, Nat.not_le.mp hlast⟩

/-! ## §5. The array as a whole. -/

/-- **Every header that is returned describes an array that is checked and readable**: the
    array lies on the device, behind the first sector and beside the header; it has the
    checksum of the header; and whichever reads of the device fail later, each entry is
    read from sectors of the array, with no operation that overflows or leaves a buffer,
    and is the decoding of its own 128 bytes with a range that is in order. -/
theorem readHeaderAt_array {device : BlockDevice} {lba : Nat} {header : GptHeader}
    (h : (readHeaderAt device lba).result = .ok header) :
    (∀ s, header.partitionEntryLba ≤ s → s < header.partitionEntryLba + header.arraySectors →
      1 ≤ s ∧ s < device.sectorCount ∧ s ≠ lba)
    ∧ readLe32 (device.sectors lba 1) gptPartitionEntryArrayCrcOffset
        = some (crc32 (header.array device)).toNat
    ∧ ∀ device', device.SameDisk device' → ∀ entryIndex < header.partitionEntryCount,
        (∀ read ∈ (readPartitionEntry device' header entryIndex).reads,
          header.partitionEntryLba ≤ read.1
            ∧ read.1 + read.2 ≤ header.partitionEntryLba + header.arraySectors)
        ∧ (∀ reason, (readPartitionEntry device' header entryIndex).result ≠ .error (.trap reason))
        ∧ ((readPartitionEntry device' header entryIndex).result = .error .none →
            device'.error (header.entrySector entryIndex) 1 ≠ none
              ∨ ¬ (decodeEntry (header.entryBytes device entryIndex)).InOrder device.sectorCount)
        ∧ ∀ entry, (readPartitionEntry device' header entryIndex).result = .ok entry →
            entry = decodeEntry (header.entryBytes device entryIndex)
              ∧ entry.firstLba ≤ entry.lastLba ∧ entry.lastLba < device.sectorCount := by
  obtain ⟨headerSize, hheader⟩ := readHeaderAt_readFrom h
  have hwithin := hheader.within
  refine ⟨?_, hheader.arrayCrc_read, ?_⟩
  · intro s hfirst hlast
    have hpos := hwithin.lba_pos
    have hend := hwithin.end_le
    refine ⟨by omega, by omega, ?_⟩
    rintro rfl
    exact hheader.beside ⟨hfirst, hlast⟩
  · intro device' hsame entryIndex hindex
    have hwithin' : header.Within device'.sectorCount := hsame.1 ▸ hwithin
    have hbytes : header.entryBytes device' entryIndex = header.entryBytes device entryIndex := by
      unfold GptHeader.entryBytes GptHeader.array
      rw [hsame.sectors]
    rw [readPartitionEntry_eq hwithin' hindex, hbytes, hsame.1]
    -- the one sector that is read is a sector of the array
    have hsector : header.partitionEntryLba ≤ header.entrySector entryIndex
        ∧ header.entrySector entryIndex + 1 ≤ header.partitionEntryLba + header.arraySectors :=
      ⟨Nat.le_add_right _ _, hwithin.entrySector_lt hindex⟩
    generalize decodeEntry (header.entryBytes device entryIndex) = decoded
    generalize header.entrySector entryIndex = sector at *
    obtain ⟨hfails, hread⟩ | hread := Reading.readBlocks_cases device' sector 1
    · -- the read fails, and the reader returns `None`
      rw [hread]
      refine ⟨?_, fun reason hno => (by cases hno), fun _ => .inl hfails,
        fun entry hno => (by cases hno)⟩
      intro read hmem
      obtain rfl := List.mem_singleton.mp hmem
      exact hsector
    · rw [hread]
      by_cases horder : decoded.InOrder device.sectorCount
      · rw [if_pos horder]
        refine ⟨?_, fun reason hno => (by cases hno), fun hno => (by cases hno), ?_⟩
        · intro read hmem
          obtain rfl := List.mem_singleton.mp hmem
          exact hsector
        · intro entry hentry
          cases hentry
          exact ⟨rfl, horder⟩
      · rw [if_neg horder]
        refine ⟨?_, fun reason hno => (by cases hno), fun _ => .inr horder,
          fun entry hno => (by cases hno)⟩
        intro read hmem
        obtain rfl := List.mem_singleton.mp hmem
        exact hsector

/-! ## §6. An example. -/

/-- One entry, for the partition in sectors 3 to 6. -/
def exampleEntry : Bytes :=
  List.replicate 16 7 ++ List.replicate 16 9 ++ leBytes 8 3 ++ leBytes 8 6 ++ leBytes 8 4
    ++ leBytes 2 65 ++ List.replicate 70 0

def exampleHeader : Bytes :=
  gptSignature ++ leBytes 4 65536 ++ leBytes 4 92 ++ leBytes 4 653573099 ++ leBytes 4 0
    ++ leBytes 8 1 ++ leBytes 8 7 ++ leBytes 8 3 ++ leBytes 8 6 ++ List.replicate 16 1
    ++ leBytes 8 2 ++ leBytes 4 1 ++ leBytes 4 128 ++ leBytes 4 1812443683

/-- A disk with the header in sector 1 and its one entry in sector 2. -/
def exampleDisk : BlockDevice where
  sectorCount    := 8
  sector lba     :=
    if lba = 1 then exampleHeader ++ List.replicate 420 0
    else if lba = 2 then exampleEntry ++ List.replicate 384 0
    else List.replicate virtioSectorSize 0
  error _ _      := none
  sectorCount_lt := by decide
  sector_length  := by
    intro lba
    split_ifs
    · rw [List.length_append, List.length_replicate]
      rfl
    · rw [List.length_append, List.length_replicate]
      rfl
    · exact List.length_replicate

set_option maxRecDepth 20000 in
theorem readHeaderAt_array_example :
    (readHeaderAt exampleDisk 1).result = .ok ⟨2, 1, 128⟩
    ∧ ∀ entry, (readPartitionEntry exampleDisk ⟨2, 1, 128⟩ 0).result = .ok entry →
        entry = decodeEntry (GptHeader.entryBytes ⟨2, 1, 128⟩ exampleDisk 0)
          ∧ entry.firstLba ≤ entry.lastLba ∧ entry.lastLba < 8 := by
  have hheader : (readHeaderAt exampleDisk 1).result = .ok ⟨2, 1, 128⟩ := by decide +kernel
  obtain ⟨-, -, hentries⟩ := readHeaderAt_array hheader
  exact ⟨hheader, (hentries exampleDisk ⟨rfl, rfl⟩ 0 (by decide)).2.2.2⟩

end RustFirmware.Gpt
