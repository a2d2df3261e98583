/-
  RustFirmware.Gpt.Guid
  ─────────────────────
  **THE TEXT OF A PARTITION TYPE: CANONICAL UNLESS A BYTE IS `0xff`.**

  `guid` puts the dashes between the groups as bytes `0xff` among the bytes that it
  writes, so a byte of the GUID that is `0xff` comes out as a dash too.  The text is
  the canonical one exactly where there is no such byte; it still tells any two GUIDs
  apart, because a dash is no digit.
-/
import RustFirmware.Gpt.Read
import RustFirmware.Lib.Numerals

namespace RustFirmware.Gpt

open RustFirmware.Lib

/-! ## §1. The functions of the source. -/

def dash : UInt8 := 0x2d

/-- `HEX`. -/
def hex : Bytes := ascii "0123456789abcdef"

/-- The places of `bytes` in `guid`; `none` is for a `0xff`. -/
def guidPlaces : List (Option Nat) :=
  [some 3, some 2, some 1, some 0, none, some 5, some 4, none, some 7, some 6, none,
   some 8, some 9, none, some 10, some 11, some 12, some 13, some 14, some 15]

/-- One element of `bytes`. -/
def guidByte (guid : Bytes) : Option Nat → Checked UInt8
  | some i => index guid i
  | none   => .ok 0xff

/-- The loop of `guid` over `bytes[src..]`: the buffer and `out` at its end. -/
def guidLoop : (bytes : Bytes) → (buffer : Bytes) → (out : Nat) → Checked (Bytes × Nat)
  | [], buffer, out => .ok (buffer, out)
  | byte :: bytes, buffer, out =>
      if byte = 0xff then do
        let buffer ← indexSet buffer out dash
        guidLoop bytes buffer (out + 1)
      else do
        let high ← index hex (byte >>> 4).toNat
        let buffer ← indexSet buffer out high
        let low ← index hex (byte &&& 0x0f).toNat
        let buffer ← indexSet buffer (out + 1) low
        guidLoop bytes buffer (out + 2)

namespace GptPartitionEntry

/-- `guid`, with a buffer of 36 bytes. -/
def guid (entry : GptPartitionEntry) (buffer : Bytes) : Checked Bytes := do
  let bytes ← guidPlaces.mapM (guidByte entry.partitionTypeGuid)
  let (buffer, out) ← guidLoop bytes buffer 0
  indexRange buffer 0 out

end GptPartitionEntry

/-! ## §2. The canonical text. -/

/-- The five groups of a GUID: the first three are stored with their lowest byte first. -/
def guidGroups (guid : Bytes) : List Bytes :=
  [(guid.take 4).reverse, ((guid.drop 4).take 2).reverse, ((guid.drop 6).take 2).reverse,
   (guid.drop 8).take 2, guid.drop 10]

/-- 8-4-4-4-12 digits in lower case. -/
def canonicalGuid (guid : Bytes) : Bytes := [dash].intercalate ((guidGroups guid).map hexText)

/-- Reading such a text back. -/
def parseGuid (text : Bytes) : Option Bytes :=
  match text.splitOn dash with
  | [group1, group2, group3, group4, group5] => do
      let a ← parseHex group1
      let b ← parseHex group2
      let c ← parseHex group3
      let d ← parseHex group4
      let e ← parseHex group5
      if a.length = 4 ∧ b.length = 2 ∧ c.length = 2 ∧ d.length = 2 ∧ e.length = 6 then
        some (a.reverse ++ b.reverse ++ c.reverse ++ d ++ e)
      else none
  | _ => none

theorem digit_ne_dash : ∀ n < 16, digitByte n ≠ dash := by decide

theorem canonicalGuid_length {guid : Bytes} (h : guid.length = 16) :
    (canonicalGuid guid).length = 36 := by
  unfold canonicalGuid guidGroups
  simp only [List.map_cons, List.map_nil, List.intercalate, List.intersperse, List.flatten_cons,
    List.flatten_nil, List.length_append, List.length_nil, List.length_cons, hexText_length,
    List.length_reverse, List.length_take, List.length_drop]
  omega

/-- The groups are the whole GUID. -/
theorem guidGroups_whole (guid : Bytes) :
    guid.take 4 ++ (guid.drop 4).take 2 ++ (guid.drop 6).take 2 ++ (guid.drop 8).take 2
      ++ guid.drop 10 = guid := by
  have hstep : ∀ m n, guid.take m ++ (guid.drop m).take n = guid.take (m + n) :=
    fun m n => (List.take_add).symm
  rw [hstep, hstep, hstep, List.take_append_drop]

/-- **The canonical text is read back.** -/
theorem parseGuid_canonicalGuid {guid : Bytes} (h : guid.length = 16) :
    parseGuid (canonicalGuid guid) = some guid := by
  have hsplit : (canonicalGuid guid).splitOn dash = (guidGroups guid).map hexText := by
    unfold canonicalGuid
    apply List.splitOn_intercalate
    -- a group has digits only, so the text is split where it was put together
    · intro text htext
      obtain ⟨group, -, rfl⟩ := List.mem_map.mp htext
      exact notMem_hexText digit_ne_dash group
    · unfold guidGroups
      exact List.cons_ne_nil _ _
  have hlengths : (guid.take 4).reverse.length = 4 ∧ ((guid.drop 4).take 2).reverse.length = 2
      ∧ ((guid.drop 6).take 2).reverse.length = 2 ∧ ((guid.drop 8).take 2).length = 2
      ∧ (guid.drop 10).length = 6 := by
    simp only [List.length_reverse, List.length_take, List.length_drop]
    omega
  unfold parseGuid
  rw [hsplit]
  unfold guidGroups
  simp only [List.map_cons, List.map_nil, parseHex_hexText, Option.bind_eq_bind, Option.bind_some,
    if_pos hlengths, List.reverse_reverse, guidGroups_whole]

/-! ## §3. What the loop writes. -/

/-- What one byte of `bytes` comes out as. -/
def guidPiece (byte : UInt8) : Bytes := if byte = 0xff then [dash] else hexByte byte

/-- The table gives the digits of a byte. -/
theorem hex_digits (byte : UInt8) :
    index hex (byte >>> 4).toNat = .ok (digitByte (byte.toNat / 16))
      ∧ index hex (byte &&& 0x0f).toNat = .ok (digitByte (byte.toNat % 16)) := by
  have htable : ∀ n : Fin 16, index hex n = .ok (digitByte n) := by decide
  obtain ⟨hhigh, hlow⟩ := byte_halves byte
  have hshift : (byte >>> 4).toNat = byte.toNat / 16 := by
    rw [UInt8.toNat_shiftRight]
    exact Nat.shiftRight_eq_div_pow byte.toNat 4
  have hmask : (byte &&& 0x0f).toNat = byte.toNat % 16 := by
    rw [UInt8.toNat_and]
    exact Nat.and_two_pow_sub_one_eq_mod byte.toNat 4
  rw [hshift, hmask]
  exact ⟨htable ⟨_, hhigh⟩, htable ⟨_, hlow⟩⟩

/-- **The loop appends the piece of each byte**, as long as the buffer has room. -/
theorem guidLoop_ok (bytes : Bytes) {buffer : Bytes} {out : Nat}
    (hroom : out + (bytes.flatMap guidPiece).length ≤ buffer.length) :
    ∃ buffer', guidLoop bytes buffer out = .ok (buffer', out + (bytes.flatMap guidPiece).length)
      ∧ buffer'.length = buffer.length
      ∧ buffer'.take (out + (bytes.flatMap guidPiece).length)
          = buffer.take out ++ bytes.flatMap guidPiece := by
  induction bytes generalizing buffer out with
  | nil => exact ⟨buffer, rfl, rfl, (List.append_nil _).symm⟩
  | cons byte bytes ih =>
      rw [List.flatMap_cons, List.length_append] at hroom ⊢
      -- the source tells a separator from a byte of the GUID by its value alone
      by_cases hff : byte = 0xff
      · have hpiece : guidPiece byte = [dash] := if_pos hff
        rw [hpiece, List.length_singleton] at hroom ⊢
        obtain ⟨buffer', hloop, hlength, htake⟩ :=
          @ih (buffer.set out dash) (out + 1) (by rw [List.length_set]; omega)
        refine ⟨buffer', ?_, ?_, ?_⟩
        · unfold guidLoop
          rw [if_pos hff, indexSet_ok (by omega), ok_bind, hloop, Nat.add_assoc]
        · rw [hlength, List.length_set]
        · rw [← Nat.add_assoc, htake, take_set_succ (by omega), List.append_assoc]
      · obtain ⟨hhigh, hlow⟩ := hex_digits byte
        have hpiece : guidPiece byte = hexByte byte := if_neg hff
        rw [hpiece, show (hexByte byte).length = 2 from rfl] at hroom ⊢
        obtain ⟨buffer', hloop, hlength, htake⟩ :=
          @ih ((buffer.set out (digitByte (byte.toNat / 16))).set (out + 1)
            (digitByte (byte.toNat % 16))) (out + 2) (by simp only [List.length_set]; omega)
        refine ⟨buffer', ?_, ?_, ?_⟩
        · unfold guidLoop
          rw [if_neg hff, hhigh, ok_bind, indexSet_ok (by omega), ok_bind, hlow, ok_bind,
            indexSet_ok (by rw [List.length_set]; omega), ok_bind, hloop, Nat.add_assoc]
        · rw [hlength, List.length_set, List.length_set]
        · rw [← Nat.add_assoc, htake, take_set_succ (by rw [List.length_set]; omega),
            take_set_succ (by omega), List.append_assoc, List.append_assoc]
          rfl

/-- The bytes that the loop goes through. -/
def guidSource (guid : Bytes) : Bytes := [0xff].intercalate (guidGroups guid)

theorem guidPlaces_ok {guid : Bytes} (h : guid.length = 16) :
    guidPlaces.mapM (guidByte guid) = .ok (guidSource guid) := by
  match guid, h with
  | [_, _, _, _, _, _, _, _, _, _, _, _, _, _, _, _], _ => rfl

theorem guidSource_length {guid : Bytes} (h : guid.length = 16) :
    (guidSource guid).length = 20 := by
  match guid, h with
  | [_, _, _, _, _, _, _, _, _, _, _, _, _, _, _, _], _ => rfl

theorem guidSource_injective {guid guid' : Bytes} (h : guid.length = 16) (h' : guid'.length = 16)
    (hsame : guidSource guid = guidSource guid') : guid = guid' := by
  match guid, h, guid', h' with
  | [_, _, _, _, _, _, _, _, _, _, _, _, _, _, _, _], _,
    [_, _, _, _, _, _, _, _, _, _, _, _, _, _, _, _], _ =>
      cases hsame
      rfl

/-- Four of the bytes are for the dashes. -/
theorem guidSource_count (guid : Bytes) :
    (guidSource guid).count 0xff = 4 + guid.count 0xff := by
  have hwhole := congrArg (List.count 0xff) (guidGroups_whole guid)
  simp only [List.count_append] at hwhole
  unfold guidSource guidGroups
  simp only [List.intercalate, List.intersperse, List.flatten_cons, List.flatten_nil,
    List.count_append, List.count_reverse, List.count_nil, List.count_singleton_self]
  omega

/-- Each `0xff` costs one character. -/
theorem guidPieces_length (bytes : Bytes) :
    (bytes.flatMap guidPiece).length + bytes.count 0xff = 2 * bytes.length := by
  induction bytes with
  | nil => rfl
  | cons byte bytes ih =>
      rw [List.flatMap_cons, List.length_append, List.count_cons, List.length_cons]
      by_cases hff : byte = 0xff
      · rw [show guidPiece byte = [dash] from if_pos hff, if_pos (beq_iff_eq.mpr hff),
          List.length_singleton]
        omega
      · rw [show guidPiece byte = hexByte byte from if_neg hff,
          if_neg (fun hbeq => hff (beq_iff_eq.mp hbeq)), show (hexByte byte).length = 2 from rfl]
        omega

/-- **What `guid` returns**, for every GUID. -/
theorem guid_eq {entry : GptPartitionEntry} {buffer : Bytes}
    (hguid : entry.partitionTypeGuid.length = 16) (hbuffer : buffer.length = 36) :
    entry.guid buffer = .ok ((guidSource entry.partitionTypeGuid).flatMap guidPiece) := by
  -- at most 36 characters: twenty bytes, of which at least the four separators take one
  have hpieces := guidPieces_length (guidSource entry.partitionTypeGuid)
  rw [guidSource_length hguid, guidSource_count] at hpieces
  obtain ⟨buffer', hloop, hlength, htake⟩ :=
    @guidLoop_ok (guidSource entry.partitionTypeGuid) buffer 0 (by omega)
  rw [Nat.zero_add] at hloop htake
  unfold GptPartitionEntry.guid
  rw [guidPlaces_ok hguid, ok_bind, hloop]
  show indexRange buffer' 0 _ = _
  rw [indexRange_ok (Nat.zero_le _) (by omega), List.drop_zero, Nat.sub_zero, htake,
    List.take_zero, List.nil_append]

/-! ## §4. When the text is canonical, and what it always tells. -/

theorem flatMap_guidPiece_of_notMem {bytes : Bytes} (h : 0xff ∉ bytes) :
    bytes.flatMap guidPiece = hexText bytes := by
  induction bytes with
  | nil => rfl
  | cons byte bytes ih =>
      obtain ⟨hbyte, hbytes⟩ := not_or.mp (fun hmem => h (List.mem_cons.mpr hmem))
      show guidPiece byte ++ bytes.flatMap guidPiece = hexByte byte ++ hexText bytes
      rw [show guidPiece byte = hexByte byte from if_neg (fun hff => hbyte hff.symm), ih hbytes]

/-- Without a `0xff` in the GUID only the four separators come out as dashes. -/
theorem guidPieces_canonical {guid : Bytes} (h : 0xff ∉ guid) :
    (guidSource guid).flatMap guidPiece = canonicalGuid guid := by
  have htake : ∀ m n, ((guid.drop m).take n).flatMap guidPiece = hexText ((guid.drop m).take n) :=
    fun m n => flatMap_guidPiece_of_notMem
      (fun hmem => h (List.mem_of_mem_drop (List.mem_of_mem_take hmem)))
  have hreverse : ∀ bytes : Bytes, 0xff ∉ bytes →
      bytes.reverse.flatMap guidPiece = hexText bytes.reverse :=
    fun bytes hbytes => flatMap_guidPiece_of_notMem (fun hmem => hbytes (List.mem_reverse.mp hmem))
  unfold guidSource canonicalGuid guidGroups
  simp only [List.map_cons, List.map_nil, List.intercalate, List.intersperse, List.flatten_cons,
    List.flatten_nil, List.flatMap_append, List.flatMap_nil]
  rw [hreverse _ (fun hmem => h (List.mem_of_mem_take hmem)),
    hreverse _ (fun hmem => h (List.mem_of_mem_drop (List.mem_of_mem_take hmem))),
    hreverse _ (fun hmem => h (List.mem_of_mem_drop (List.mem_of_mem_take hmem))), htake,
    flatMap_guidPiece_of_notMem (fun hmem => h (List.mem_of_mem_drop hmem))]
  rfl

/-- A dash is no digit, so the pieces can be told apart. -/
theorem guidPieces_injective {a b : Bytes} (hlength : a.length = b.length)
    (h : a.flatMap guidPiece = b.flatMap guidPiece) : a = b := by
  induction a generalizing b with
  | nil => exact (List.eq_nil_of_length_eq_zero hlength.symm).symm
  | cons x xs ih =>
      cases b with
      | nil => cases hlength
      | cons y ys =>
          have hlength := Nat.succ.inj hlength
          have hdigit : ∀ byte : UInt8, digitByte (byte.toNat / 16) ≠ dash :=
            fun byte => digit_ne_dash _ (byte_halves byte).1
          rw [List.flatMap_cons, List.flatMap_cons] at h
          unfold guidPiece at h
          -- a dash is no digit, and two pieces of digits are as long as each other
          by_cases hx : x = 0xff
          · by_cases hy : y = 0xff
            · rw [if_pos hx, if_pos hy] at h
              rw [hx, hy, ih hlength (List.append_cancel_left h)]
            · rw [if_pos hx, if_neg hy] at h
              exact absurd (List.cons.inj h).1.symm (hdigit y)
          · by_cases hy : y = 0xff
            · rw [if_neg hx, if_pos hy] at h
              exact absurd (List.cons.inj h).1 (hdigit x)
            · rw [if_neg hx, if_neg hy] at h
              obtain ⟨hfirst, hrest⟩ := List.append_inj h rfl
              rw [hexByte_injective hfirst, ih hlength hrest]

theorem guidText_injective {guid guid' : Bytes} (h : guid.length = 16) (h' : guid'.length = 16)
    (hsame : (guidSource guid).flatMap guidPiece = (guidSource guid').flatMap guidPiece) :
    guid = guid' := by
  apply guidSource_injective h h'
  apply guidPieces_injective _ hsame
  rw [guidSource_length h, guidSource_length h']

/-- **`guid` writes the canonical 36 characters, and they are read back as the GUID, exactly
    where no byte of the GUID is `0xff`**; and no two GUIDs have one text. -/
theorem guid_canonical_iff (entry : GptPartitionEntry) (buffer : Bytes)
    (hguid : entry.partitionTypeGuid.length = 16) (hbuffer : buffer.length = 36) :
    ((∃ text, entry.guid buffer = .ok text ∧ text.length = 36
        ∧ text = canonicalGuid entry.partitionTypeGuid
        ∧ parseGuid text = some entry.partitionTypeGuid)
      ↔ 0xff ∉ entry.partitionTypeGuid)
    ∧ ∀ (other : GptPartitionEntry) (buffer' : Bytes), other.partitionTypeGuid.length = 16 →
        buffer'.length = 36 → other.guid buffer' = entry.guid buffer →
        other.partitionTypeGuid = entry.partitionTypeGuid := by
  rw [guid_eq hguid hbuffer]
  constructor
  · constructor
    · intro hcanonical
      obtain ⟨text, htext, hlength, -, -⟩ := hcanonical
      cases htext
      -- each `0xff` makes the text shorter than 36
      have hpieces := guidPieces_length (guidSource entry.partitionTypeGuid)
      rw [hlength, guidSource_length hguid, guidSource_count] at hpieces
      exact List.count_eq_zero.mp (by omega)
    · intro hff
      exact ⟨_, congrArg Except.ok (guidPieces_canonical hff), canonicalGuid_length hguid, rfl,
        parseGuid_canonicalGuid hguid⟩
  · intro other buffer' hguid' hbuffer' hsame
    rw [guid_eq hguid' hbuffer'] at hsame
    exact guidText_injective hguid' hguid (Except.ok.inj hsame)

/-- An entry of a type, the rest of it zero. -/
def entryOfType (guid : Bytes) : GptPartitionEntry where
  partitionTypeGuid   := guid
  uniquePartitionGuid := List.replicate 16 0
  firstLba            := 34
  lastLba             := 34
  attributes          := 0
  partitionName       := List.replicate gptPartitionNameLen 0

/-- A type with a `0xff` in it: 35 characters, one dash too many, and no GUID to be read. -/
theorem guid_not_canonical :
    ¬ ∀ (entry : GptPartitionEntry) (buffer : Bytes), entry.partitionTypeGuid.length = 16 →
        buffer.length = 36 →
        ∃ text, entry.guid buffer = .ok text ∧ text.length = 36
          ∧ text = canonicalGuid entry.partitionTypeGuid
          ∧ parseGuid text = some entry.partitionTypeGuid := by
  intro hclaim
  obtain ⟨text, htext, hlength, -, -⟩ :=
    hclaim (entryOfType [0xff, 1, 2, 3, 4, 5, 6, 7, 8, 9, 10, 11, 12, 13, 14, 15])
      (List.replicate 36 0) rfl rfl
  have hcode : (entryOfType [0xff, 1, 2, 3, 4, 5, 6, 7, 8, 9, 10, 11, 12, 13, 14, 15]).guid
      (List.replicate 36 0) = .ok (ascii "030201--0504-0706-0809-0a0b0c0d0e0f") := by decide +kernel
  rw [hcode] at htext
  cases htext
  exact absurd hlength (by decide)

theorem guid_canonical_iff_example :
    ∃ text, (entryOfType [0, 1, 2, 3, 4, 5, 6, 7, 8, 9, 10, 11, 12, 13, 14, 15]).guid
        (List.replicate 36 0) = .ok text ∧ text.length = 36
      ∧ text = canonicalGuid [0, 1, 2, 3, 4, 5, 6, 7, 8, 9, 10, 11, 12, 13, 14, 15]
      ∧ parseGuid text = some [0, 1, 2, 3, 4, 5, 6, 7, 8, 9, 10, 11, 12, 13, 14, 15] :=
  (guid_canonical_iff (entryOfType [0, 1, 2, 3, 4, 5, 6, 7, 8, 9, 10, 11, 12, 13, 14, 15])
    (List.replicate 36 0) rfl rfl).1.mpr (by decide)

end RustFirmware.Gpt
