/-
  RustFirmware.Fat.Names
  ──────────────────────
  **THE NAMES OF THE FORMAT, AND WHAT THE CODE MAKES OF THEM.**

  `trueName` is what an entry is called on disk: its long name, or its two fields without
  their padding and a period between them if there is an extension.  The code finds the
  same name, except that it calls every entry without extension `-` (`Dashed`).
-/
import RustFirmware.Fat.Records
import Mathlib.Data.List.DropRight

namespace RustFirmware.Fat

open RustFirmware.Lib

/-! ## §1. Names on disk. -/

/-- A field without the spaces that pad it. -/
def unpadded (field : Bytes) : Bytes := field.rdropWhile (· == space)

/-- A first byte of `0xe5`, which would mark a deleted entry, is stored as `0x05`. -/
def restored : Bytes → Bytes
  | [] => []
  | b :: bs => (if b = 0x05 then 0xe5 else b) :: bs

/-- The name in front of the extension. -/
def baseName (raw : Bytes) : Bytes := restored (unpadded (baseField raw))

def extensionName (raw : Bytes) : Bytes := unpadded (extensionField raw)

/-- The name that an entry has without a long one. -/
def shortName (raw : Bytes) : Bytes :=
  if extensionName raw = [] then baseName raw
  else baseName raw ++ ascii "." ++ extensionName raw

/-- **The name of an entry.** -/
def FatRecord.trueName (record : FatRecord) : Bytes := record.longName.getD (shortName record.raw)

/-- No control character and none of `"*/:<>?\|`. -/
def legalInLongName (b : UInt8) : Bool :=
  0x20 ≤ b ∧ b ∉ [0x22, 0x2a, 0x2f, 0x3a, 0x3c, 0x3e, 0x3f, 0x5c, 0x7c]

/-- Neither a space nor one of `+,.;=[]`. -/
def legalInShortName (b : UInt8) : Bool :=
  legalInLongName b ∧ b ∉ [0x20, 0x2b, 0x2c, 0x2e, 0x3b, 0x3d, 0x5b, 0x5d]

/-- The name consists of legal characters and is not empty, `.` or `..`. -/
def ValidName (record : FatRecord) : Prop :=
  match record.longName with
  | some name =>
      name ≠ [] ∧ name ≠ ascii "." ∧ name ≠ ascii ".." ∧ ∀ b ∈ name, legalInLongName b = true
  | none =>
      baseName record.raw ≠ []
        ∧ ∀ b ∈ baseName record.raw ++ extensionName record.raw, legalInShortName b = true

/-- A name that can be a component of a path. -/
def ProperName (name : Bytes) : Prop :=
  name ≠ [] ∧ separator ∉ name ∧ name ≠ ascii "." ∧ name ≠ ascii ".."

/-! ## §2. Short names as the code decodes them. -/

theorem legalInShortName_ne {b : UInt8} (h : legalInShortName b = true) :
    b ≠ space ∧ b ≠ 0x2e ∧ b ≠ 0x05 ∧ b ≠ separator := by
  refine ⟨?_, ?_, ?_, ?_⟩ <;> rintro rfl <;> revert h <;> decide

/-- Up to the first space is up to the padding, if there is no other space. -/
theorem takeWhile_eq_unpadded {field : Bytes} (h : space ∉ unpadded field) :
    field.takeWhile (· != space) = unpadded field := by
  have hsplit : unpadded field ++ field.rtakeWhile (· == space) = field :=
    List.rdropWhile_append_rtakeWhile
  have hpadding : (field.rtakeWhile (· == space)).takeWhile (· != space) = [] := by
    cases hrest : field.rtakeWhile (· == space) with
    | nil => rfl
    | cons b bs =>
        have hmem : b ∈ field.rtakeWhile (· == space) := by
          rw [hrest]
          exact List.mem_cons_self
        have hb := List.mem_rtakeWhile_imp hmem
        rw [List.takeWhile_cons, beq_iff_eq.mp hb]
        rfl
  calc field.takeWhile (· != space)
      = (unpadded field ++ field.rtakeWhile (· == space)).takeWhile (· != space) := by rw [hsplit]
    _ = unpadded field ++ (field.rtakeWhile (· == space)).takeWhile (· != space) := by
        rw [List.takeWhile_append_of_pos]
        intro b hb
        rw [bne_iff_ne]
        rintro rfl
        exact h hb
    _ = unpadded field := by rw [hpadding, List.append_nil]

/-- Only the first byte of a name can be `0x05`. -/
theorem map_eq_restored {name : Bytes} (h : ∀ b ∈ restored name, b ≠ 0x05) :
    name.map (fun byte => if byte = 0x05 then 0xe5 else byte) = restored name := by
  cases name with
  | nil => rfl
  | cons b bs =>
      rw [List.map_cons, restored]
      congr 1
      calc bs.map (fun byte => if byte = 0x05 then 0xe5 else byte)
          = bs.map id := by
            refine List.map_congr_left (fun byte hbyte => ?_)
            rw [if_neg (h byte (List.mem_cons_of_mem _ hbyte))]
            rfl
        _ = bs := List.map_id bs

/-- The code sees an extension where there is one. -/
theorem hasExtension_iff (raw : Bytes) :
    (extensionField raw).any (· != space) = true ↔ extensionName raw ≠ [] := by
  rw [List.any_eq_true, extensionName, unpadded, Ne, List.rdropWhile_eq_nil_iff]
  constructor
  · rintro ⟨b, hb, hne⟩ hall
    rw [bne_iff_ne] at hne
    exact hne (beq_iff_eq.mp (hall b hb))
  · intro hall
    by_contra hnone
    refine hall (fun b hb => ?_)
    by_contra hb'
    exact hnone ⟨b, hb, bne_iff_ne.mpr (fun hspace => hb' (beq_iff_eq.mpr hspace))⟩

/-- **Without an extension every short name is decoded to `-`.** -/
theorem decodeShortName_dash {raw : Bytes} (h : extensionName raw = []) :
    decodeShortName raw = ascii "-" := by
  have hnone : (extensionField raw).any (· != space) = false := by
    rw [← Bool.not_eq_true, hasExtension_iff]
    exact fun hext => hext h
  unfold decodeShortName
  dsimp only
  rw [hnone]
  exact if_pos ⟨rfl, rfl⟩

/-- With one it is decoded as it is. -/
theorem decodeShortName_extension {raw : Bytes} (hext : extensionName raw ≠ [])
    (hlegal : ∀ b ∈ baseName raw ++ extensionName raw, legalInShortName b = true) :
    decodeShortName raw = shortName raw := by
  have hbase : ∀ b ∈ baseName raw, legalInShortName b = true :=
    fun b hb => hlegal b (List.mem_append_left _ hb)
  have hextension : ∀ b ∈ extensionName raw, legalInShortName b = true :=
    fun b hb => hlegal b (List.mem_append_right _ hb)
  have hspace : space ∉ unpadded (baseField raw) := by
    intro hmem
    -- restoring the first byte leaves a space as it is
    have hmem' : space ∈ baseName raw := by
      unfold baseName
      revert hmem
      cases unpadded (baseField raw) with
      | nil => exact id
      | cons b bs =>
          intro hmem
          obtain rfl | hmem := List.mem_cons.mp hmem
          · exact List.mem_cons_self
          · exact List.mem_cons_of_mem _ hmem
    exact (legalInShortName_ne (hbase _ hmem')).1 rfl
  have hspace' : space ∉ unpadded (extensionField raw) :=
    fun hmem => (legalInShortName_ne (hextension _ hmem)).1 rfl
  have hmap : (unpadded (baseField raw)).map (fun byte => if byte = 0x05 then 0xe5 else byte)
      = baseName raw := map_eq_restored (fun b hb => (legalInShortName_ne (hbase b hb)).2.2.1)
  have hany := (hasExtension_iff raw).mpr hext
  unfold decodeShortName shortName
  dsimp only
  rw [takeWhile_eq_unpadded hspace, takeWhile_eq_unpadded hspace', hmap, if_pos hany, if_neg hext,
    if_neg]
  · rfl
  · rintro ⟨-, hnone⟩
    rw [hany] at hnone
    cases hnone

/-! ## §3. Entries that the code calls `-`. -/

/-- Neither a long name nor an extension, or the long name `-`. -/
def Dashed (record : FatRecord) : Prop :=
  record.longName = some (ascii "-")
    ∨ (record.longName = none ∧ extensionName record.raw = [])

instance (record : FatRecord) : Decidable (Dashed record) := by
  unfold Dashed
  infer_instance

variable {record : FatRecord}

theorem Dashed.name (h : Dashed record) : record.name = ascii "-" := by
  unfold FatRecord.name
  obtain hlong | ⟨hshort, hext⟩ := h
  · rw [hlong]
    rfl
  · rw [hshort]
    exact decodeShortName_dash hext

/-- All other entries have their own name. -/
theorem ValidName.name (hvalid : ValidName record) (h : ¬ Dashed record) :
    record.name = record.trueName := by
  unfold ValidName at hvalid
  unfold Dashed at h
  unfold FatRecord.name FatRecord.trueName
  cases hlong : record.longName with
  | some name => rfl
  | none =>
      rw [hlong] at hvalid h
      exact decodeShortName_extension (fun hext => h (.inr ⟨rfl, hext⟩)) hvalid.2

theorem ValidName.trueName_proper (hvalid : ValidName record) : ProperName record.trueName := by
  unfold ValidName at hvalid
  unfold FatRecord.trueName
  cases hlong : record.longName with
  | some name =>
      rw [hlong] at hvalid
      obtain ⟨hne, hdot, hdots, hlegal⟩ := hvalid
      refine ⟨hne, fun hmem => ?_, hdot, hdots⟩
      exact absurd (hlegal _ hmem) (by decide)
  | none =>
      rw [hlong] at hvalid
      obtain ⟨hne, hlegal⟩ := hvalid
      obtain ⟨b, bs, hbase⟩ := List.exists_cons_of_ne_nil hne
      have hfirst := legalInShortName_ne (hlegal b (by rw [hbase]; exact List.mem_cons_self))
      -- the name begins with a character that is not a period
      have hbegins : ∃ rest, shortName record.raw = b :: rest := by
        unfold shortName
        rw [hbase]
        split
        · exact ⟨bs, rfl⟩
        · exact ⟨bs ++ ascii "." ++ extensionName record.raw, rfl⟩
      have hparts : ∀ c ∈ shortName record.raw, c = 0x2e
          ∨ c ∈ baseName record.raw ++ extensionName record.raw := by
        intro c hc
        unfold shortName at hc
        split at hc
        · exact .inr (List.mem_append_left _ hc)
        · obtain hc | hc := List.mem_append.mp hc
          · obtain hc | hc := List.mem_append.mp hc
            · exact .inr (List.mem_append_left _ hc)
            · exact .inl (List.mem_singleton.mp hc)
          · exact .inr (List.mem_append_right _ hc)
      obtain ⟨rest, hrest⟩ := hbegins
      refine ⟨?_, ?_, ?_, ?_⟩
      · show shortName record.raw ≠ []
        rw [hrest]
        exact List.cons_ne_nil _ _
      · intro hmem
        obtain hdot | hpart := hparts _ hmem
        · exact absurd hdot (by decide)
        · exact (legalInShortName_ne (hlegal _ hpart)).2.2.2 rfl
      · show shortName record.raw ≠ ascii "."
        rw [hrest]
        exact fun h => hfirst.2.1 (List.cons.inj h).1
      · show shortName record.raw ≠ ascii ".."
        rw [hrest]
        exact fun h => hfirst.2.1 (List.cons.inj h).1

theorem ValidName.name_proper (hvalid : ValidName record) : ProperName record.name := by
  by_cases hdash : Dashed record
  · rw [hdash.name]
    unfold ProperName
    decide
  · rw [hvalid.name hdash]
    exact hvalid.trueName_proper

/-- **The code calls an entry `-` if and only if it is dashed.** -/
theorem ValidName.name_eq_dash (hvalid : ValidName record) :
    record.name = ascii "-" ↔ Dashed record := by
  refine ⟨fun hname => ?_, Dashed.name⟩
  by_contra hdash
  unfold ValidName at hvalid
  unfold FatRecord.name at hname
  unfold Dashed at hdash
  cases hlong : record.longName with
  | some name =>
      rw [hlong] at hname hdash
      exact hdash (.inl (congrArg some hname))
  | none =>
      rw [hlong] at hname hdash hvalid
      have hext : extensionName record.raw ≠ [] := fun hext => hdash (.inr ⟨rfl, hext⟩)
      have hshort : shortName record.raw = ascii "-" := by
        rw [← decodeShortName_extension hext hvalid.2]
        exact hname
      -- a period and something on both sides of it is more than one character
      have hlength := congrArg List.length hshort
      have hbase := List.length_pos_iff.mpr hvalid.1
      have hlast := List.length_pos_iff.mpr hext
      unfold shortName at hlength
      rw [if_neg hext, List.length_append, List.length_append] at hlength
      have hdot : (ascii ".").length = 1 := rfl
      have hone : (ascii "-").length = 1 := rfl
      omega

/-! ## §4. Names without the difference between upper and lower case. -/

/-- What a name is compared by. -/
def folded (name : Bytes) : Bytes := name.map foldCase

theorem answersTo_iff {component : Bytes} :
    answersTo component record = true ↔ folded record.name = folded component := beq_iff_eq

theorem foldCase_eq_punctuation {b c : UInt8} (hc : c = 0x2d ∨ c = 0x2e)
    (h : foldCase b = foldCase c) : b = c := by
  rcases hc with rfl | rfl
  · revert h
    revert b
    decide +kernel
  · revert h
    revert b
    decide +kernel

theorem folded_eq_punctuation {name mark : Bytes} (hmark : ∀ c ∈ mark, c = 0x2d ∨ c = 0x2e)
    (h : folded name = folded mark) : name = mark := by
  induction mark generalizing name with
  | nil => exact List.map_eq_nil_iff.mp h
  | cons c mark ih =>
      obtain ⟨b, name, rfl, hb, hname⟩ := List.map_eq_cons_iff.mp h
      rw [foldCase_eq_punctuation (hmark c List.mem_cons_self) hb,
        ih (fun c hc => hmark c (List.mem_cons_of_mem _ hc)) hname]

/-- Only `-` is compared as `-`. -/
theorem folded_eq_dash {name : Bytes} (h : folded name = folded (ascii "-")) : name = ascii "-" :=
  folded_eq_punctuation (by decide +kernel) h

theorem folded_eq_dots {name dots : Bytes} (hdots : dots = ascii "." ∨ dots = ascii "..")
    (h : folded name = folded dots) : name = dots := by
  rcases hdots with rfl | rfl
  · exact folded_eq_punctuation (by decide +kernel) h
  · exact folded_eq_punctuation (by decide +kernel) h

end RustFirmware.Fat
