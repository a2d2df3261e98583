/-
  RustFirmware.Fat.Stored
  ───────────────────────
  **WHAT IS WRITTEN INTO DIRECTORIES IS FOUND AGAIN.**

  A file or subdirectory is written as VFAT says: its long name in pieces of thirteen code
  units, last piece first, and then its short entry.  A directory is a row of these, with
  deleted entries and labels between them, and then its end.  The listing of such a
  directory has every file once, under the name that was written (`directoryRecords_stored`);
  so a path is resolved exactly if its components lead through the directories
  (`findPathEntry_stored`).
-/
import RustFirmware.Fat.Tree
import RustFirmware.Fat.Lookup
import RustFirmware.Lib.LittleEndian
import Mathlib.Data.List.Find

namespace RustFirmware.Fat

open RustFirmware.Lib

/-! ## §1. What is written. -/

/-- The first byte of a piece: its number, and a mark on the last one of the name. -/
def pieceMark (last ordinal : Nat) : UInt8 :=
  UInt8.ofNat ordinal ||| (if ordinal = last then 0x40 else 0)

/-- The pieces `count, …, 1` of the padded code units of a name with `last` pieces. -/
def piecesOf (checksum : UInt8) (last : Nat) (units : List UInt16) : (count : Nat) → List Bytes
  | 0 => []
  | count + 1 =>
      pieceBytes (pieceMark last (count + 1)) checksum ((units.drop (13 * count)).take 13)
        :: piecesOf checksum last units count

/-- The code units with what fills the last piece. -/
def paddedUnits (name : List Char) : List UInt16 :=
  utf16 name ++ vfatPadding (utf16 name).length

/-- How many pieces that makes. -/
def pieceCount (name : List Char) : Nat := (paddedUnits name).length / 13

/-- The pieces of a long name, for the entry with this short name. -/
def encodeLongName (name : List Char) (shortName : Bytes) : List Bytes :=
  piecesOf (shortNameChecksum shortName) (pieceCount name) (paddedUnits name) (pieceCount name)

/-- A name that VFAT has room for, and of which nothing is taken for padding. -/
structure ValidLongName (name : List Char) : Prop where
  ne     : 1 ≤ (utf16 name).length
  le     : (utf16 name).length ≤ 255
  noZero : 0x0000 ∉ utf16 name
  noOnes : 0xffff ∉ utf16 name

/-- A file or subdirectory, with or without a long name. -/
structure StoredEntry where
  longName  : Option (List Char)
  shortName : Bytes
  entry     : FatDirectoryEntry
  deriving DecidableEq

namespace StoredEntry

variable (item : StoredEntry)

/-- Its short entry. -/
def shortBytes : Bytes :=
  entryBytes item.shortName item.entry.attributes item.entry.firstCluster.toNat
    item.entry.fileSize.toNat

/-- The pieces of its long name. -/
def pieces : List Bytes := item.longName.elim [] (fun name => encodeLongName name item.shortName)

/-- Its entries. -/
def encode : List Bytes := item.pieces ++ [item.shortBytes]

/-- What a reader is to report of it. -/
def record : FatRecord := ⟨item.shortBytes, item.longName.map utf8, item.entry⟩

/-- What it is called on the disk. -/
def name : Bytes := item.record.trueName

/-- It is one of the entries `.` and `..` of a subdirectory. -/
def Dots : Prop :=
  ∃ cluster, IsDots (ascii ".") cluster item.record ∨ IsDots (ascii "..") cluster item.record

/-- Its short name is not taken for a mark, and it is not taken for a label or a piece.  If it
    has no long name, it has an extension and a legal short name, unless it is `.` or `..`. -/
structure Valid : Prop where
  long    : ∀ name, item.longName = some name → ValidLongName name
  short   : item.shortName.length = 11
  notEnd  : byteAt item.shortName 0 ≠ 0x00
  live    : byteAt item.shortName 0 ≠ 0xe5
  regular : item.entry.attributes &&& fatAttributeVolumeId = 0
  called  : item.longName = none → item.Dots
    ∨ ValidName item.record ∧ extensionName item.shortBytes ≠ []

end StoredEntry

/-- What stands in a directory: the entries of a file or subdirectory, or one that is passed
    over. -/
inductive DirectorySlot where
  | stored (item : StoredEntry)
  | skipped (entry : Bytes)

namespace DirectorySlot

def encode : DirectorySlot → List Bytes
  | .stored item   => item.encode
  | .skipped entry => [entry]

/-- Deleted entries and labels are passed over. -/
def Valid : DirectorySlot → Prop
  | .stored item   => item.Valid
  | .skipped entry => byteAt entry 0 ≠ 0x00 ∧ (byteAt entry 0 = 0xe5
      ∨ byteAt entry 11 ≠ fatAttributeLongName ∧ byteAt entry 11 &&& fatAttributeVolumeId ≠ 0)

def item? : DirectorySlot → Option StoredEntry
  | .stored item => some item
  | .skipped _   => none

end DirectorySlot

/-- The files and subdirectories among the slots. -/
def itemsOf (slots : List DirectorySlot) : List StoredEntry := slots.filterMap DirectorySlot.item?

/-- Where a directory ends: at an entry that says so, or with its last cluster. -/
def EndsDirectory (behind : List Bytes) (ending : Except Halt Unit) : Prop :=
  (behind = [] ∧ ending = .ok ()) ∨ ∃ entry rest, behind = entry :: rest ∧ byteAt entry 0 = 0x00

/-- **The directory holds the slots**, one after another, and then it ends. -/
structure StoredIn (volume : FatVolume) (clusters : Nat) (directory : DirectoryLocation)
    (slots : List DirectorySlot) : Prop where
  valid   : ∀ slot ∈ slots, slot.Valid
  written : ∃ behind, (directoryEntries volume clusters directory).items
      = slots.flatMap DirectorySlot.encode ++ behind
    ∧ EndsDirectory behind (directoryEntries volume clusters directory).ending

section Trees

variable (slots : DirectoryLocation → List DirectorySlot)

/-- The directories of the tree. -/
inductive Inside : DirectoryLocation → Prop
  | root : Inside .rootDirectory
  | sub {directory : DirectoryLocation} {item : StoredEntry} :
      Inside directory → item ∈ itemsOf (slots directory) → item.entry.isDirectory = true →
      Inside (.clusterChain item.entry.firstCluster)

/-- **The volume holds the tree.** -/
def StoredTree (volume : FatVolume) (clusters : Nat) : Prop :=
  ∀ directory, Inside slots directory → StoredIn volume clusters directory (slots directory)

/-- The first file or subdirectory of the directory with this name, upper or lower case. -/
def firstNamed (directory : DirectoryLocation) (component : Bytes) : Option StoredEntry :=
  (itemsOf (slots directory)).find? (fun item => eqIgnoreAsciiCase item.name component)

/-- The components lead from the directory to the entry: all but the last one are names of
    subdirectories, and none of them is `.` or `..`. -/
inductive Leads : DirectoryLocation → List Bytes → FatDirectoryEntry → Prop
  | last {directory : DirectoryLocation} {component : Bytes} {item : StoredEntry} :
      ¬ (component = ascii "." ∨ component = ascii "..") →
      firstNamed slots directory component = some item → Leads directory [component] item.entry
  | through {directory : DirectoryLocation} {component : Bytes} {components : List Bytes}
      {item : StoredEntry} {entry : FatDirectoryEntry} :
      ¬ (component = ascii "." ∨ component = ascii "..") →
      firstNamed slots directory component = some item → item.entry.isDirectory = true →
      Leads (.clusterChain item.entry.firstCluster) components entry →
      Leads directory (component :: components) entry

end Trees

/-! ## §2. A long name, there and back. -/

theorem pieceMark_spec : ∀ last ≤ 20, ∀ ordinal ≤ last, 1 ≤ ordinal →
    pieceMark last ordinal ≠ 0x00 ∧ pieceMark last ordinal ≠ 0xe5
      ∧ (pieceMark last ordinal &&& 0x1f).toNat = ordinal
      ∧ (pieceMark last ordinal &&& 0x40 != 0) = decide (ordinal = last) := by
  decide +kernel

/-- A code unit in two bytes. -/
theorem unit_of_bytes (unit : UInt16) :
    (UInt8.ofNat unit.toNat).toUInt16 ||| ((UInt8.ofNat (unit.toNat / 2 ^ 8)).toUInt16 <<< 8)
      = unit := by
  have hlt := unit.toNat_lt
  have hshift : (unit.toNat / 2 ^ 8) <<< 8 < 2 ^ 16 := by
    rw [Nat.shiftLeft_eq]
    omega
  apply UInt16.toNat_inj.mp
  rw [UInt16.toNat_or, UInt16.toNat_shiftLeft, UInt8.toNat_toUInt16, UInt8.toNat_toUInt16,
    UInt8.toNat_ofNat', UInt8.toNat_ofNat',
    Nat.mod_eq_of_lt (by omega : unit.toNat / 2 ^ 8 < 2 ^ 8)]
  show unit.toNat % 2 ^ 8 ||| (unit.toNat / 2 ^ 8) <<< 8 % 2 ^ 16 = unit.toNat
  rw [Nat.mod_eq_of_lt hshift, Nat.or_comm, div_shiftLeft_or_mod]

/-- The code units of a piece. -/
theorem copyLfnCodeUnits_pieceBytes (first checksum : UInt8) {units : List UInt16}
    (h : units.length = 13) : copyLfnCodeUnits (pieceBytes first checksum units) = units := by
  have hbytes : ∀ unit : UInt16, leBytes 2 unit.toNat
      = [UInt8.ofNat unit.toNat, UInt8.ofNat (unit.toNat / 2 ^ 8)] := by
    intro unit
    rw [leBytes_succ, leBytes_succ]
    rfl
  match units, h with
  | [a, b, c, d, e, f, g, h, i, j, k, l, m], _ =>
    unfold pieceBytes
    simp only [List.flatMap_cons, List.flatMap_nil, hbytes, List.cons_append, List.nil_append,
      List.take_succ_cons, List.take_zero, List.drop_succ_cons, List.drop_zero]
    -- each position has the two bytes of one code unit
    simp only [copyLfnCodeUnits, lfnPositions, byteAt, List.map_cons, List.map_nil,
      List.getD_cons_succ, List.getD_cons_zero, unit_of_bytes]

theorem pieceBytes_at (first checksum : UInt8) {units : List UInt16} (h : units.length = 13) :
    byteAt (pieceBytes first checksum units) 0 = first
      ∧ byteAt (pieceBytes first checksum units) 11 = fatAttributeLongName
      ∧ byteAt (pieceBytes first checksum units) 13 = checksum := by
  match units, h with
  | [a, b, c, d, e, f, g, h, i, j, k, l, m], _ => exact ⟨rfl, rfl, rfl⟩

theorem vfatPadding_length (length : Nat) : (length + (vfatPadding length).length) % 13 = 0 := by
  unfold vfatPadding
  split_ifs with hfull
  · simpa using hfull
  · rw [List.length_cons, List.length_replicate]
    omega

theorem paddedUnits_length (name : List Char) : (paddedUnits name).length = 13 * pieceCount name := by
  have hmod := vfatPadding_length (utf16 name).length
  unfold pieceCount paddedUnits
  rw [List.length_append]
  omega

/-- A name has 1 to 20 pieces. -/
theorem ValidLongName.pieceCount_le {name : List Char} (h : ValidLongName name) :
    1 ≤ pieceCount name ∧ pieceCount name ≤ 20 := by
  have hne := h.ne
  have hle := h.le
  have hpadding : (vfatPadding (utf16 name).length).length ≤ 12 := by
    unfold vfatPadding
    split_ifs with hfull
    · exact Nat.zero_le _
    · rw [List.length_cons, List.length_replicate]
      omega
  have hlength := paddedUnits_length name
  unfold paddedUnits at hlength
  rw [List.length_append] at hlength
  omega

section Pieces

variable {checksum : UInt8} {last count : Nat} {units : List UInt16}

theorem piecesOf_length : (piecesOf checksum last units count).length = count := by
  induction count with
  | zero => rfl
  | succ count ih =>
      unfold piecesOf
      rw [List.length_cons, ih]

/-- Piece `i` from the front. -/
theorem piecesOf_getElem? {i : Nat} {piece : Bytes}
    (h : (piecesOf checksum last units count)[i]? = some piece) :
    i < count ∧ piece = pieceBytes (pieceMark last (count - i)) checksum
      ((units.drop (13 * (count - i - 1))).take 13) := by
  induction count generalizing i with
  | zero => cases h
  | succ count ih =>
      unfold piecesOf at h
      cases i with
      | zero => exact ⟨Nat.succ_pos _, (Option.some.inj h).symm⟩
      | succ i =>
          obtain ⟨hlt, hpiece⟩ := ih h
          refine ⟨Nat.succ_lt_succ hlt, ?_⟩
          rw [Nat.succ_sub_succ]
          exact hpiece

/-- The code units of a piece are thirteen. -/
theorem chunk_length (hunits : 13 * count ≤ units.length) {i : Nat} (hi : i < count) :
    ((units.drop (13 * i)).take 13).length = 13 := by
  rw [List.length_take, List.length_drop]
  omega

/-- **Put together in their order, the pieces have the code units.** -/
theorem piecesOf_units (hunits : 13 * count ≤ units.length) :
    (piecesOf checksum last units count).reverse.flatMap copyLfnCodeUnits
      = units.take (13 * count) := by
  induction count with
  | zero => rfl
  | succ count ih =>
      have hchunk := chunk_length hunits (Nat.lt_succ_self count)
      unfold piecesOf
      rw [List.reverse_cons, List.flatMap_append, ih (by omega), List.flatMap_singleton,
        copyLfnCodeUnits_pieceBytes _ _ hchunk, Nat.mul_succ, List.take_add]

/-- Each of them is the piece that it is counted as. -/
theorem isPiece_piecesOf (hcount : count ≤ 20) (hunits : 13 * count ≤ units.length) :
    Pieces count 0 checksum (piecesOf checksum count units count) where
  length := by rw [piecesOf_length, Nat.add_zero]
  pieces i piece hi := by
    -- piece `i` from the front has the number `count - i`, so only the front one has the mark
    obtain ⟨hlt, rfl⟩ := piecesOf_getElem? hi
    have hchunk := chunk_length hunits (by omega : count - i - 1 < count)
    obtain ⟨hfirst, hattribute, hchecksum⟩ :=
      pieceBytes_at (pieceMark count (count - i)) checksum hchunk
    obtain ⟨-, hlive, hordinal, hmark⟩ :=
      pieceMark_spec count hcount (count - i) (by omega) (by omega)
    have hlast : decide (count - i = count) = decide (i = 0) := decide_eq_decide.mpr (by omega)
    refine ⟨?_, hattribute, ?_, ?_, hchecksum⟩
    · rw [hfirst]
      exact hlive
    · rw [hfirst]
      exact hordinal
    · rw [hfirst, hmark, hlast]

end Pieces

/-! ## §3. The entries of a file. -/

/-- A cluster number in two words. -/
theorem cluster_of_words (cluster : UInt32) :
    (UInt16.ofNat (cluster.toNat / 2 ^ 16)).toUInt32 <<< 16
      ||| (UInt16.ofNat (cluster.toNat % 2 ^ 16)).toUInt32 = cluster := by
  have hlt := cluster.toNat_lt
  have hshift : (cluster.toNat / 2 ^ 16) <<< 16 < 2 ^ 32 := by
    rw [Nat.shiftLeft_eq]
    omega
  apply UInt32.toNat_inj.mp
  rw [UInt32.toNat_or, UInt32.toNat_shiftLeft, UInt16.toNat_toUInt32, UInt16.toNat_toUInt32,
    UInt16.toNat_ofNat', UInt16.toNat_ofNat',
    Nat.mod_eq_of_lt (by omega : cluster.toNat / 2 ^ 16 < 2 ^ 16),
    Nat.mod_eq_of_lt (by omega : cluster.toNat % 2 ^ 16 < 2 ^ 16)]
  show (cluster.toNat / 2 ^ 16) <<< 16 % 2 ^ 32 ||| cluster.toNat % 2 ^ 16 = cluster.toNat
  rw [Nat.mod_eq_of_lt hshift, div_shiftLeft_or_mod]

section ShortEntry

variable {name : Bytes} (hname : name.length = 11) (attributes : UInt8)
  (firstCluster fileSize : UInt32)

include hname in
theorem entryBytes_at :
    byteAt (entryBytes name attributes firstCluster.toNat fileSize.toNat) 0 = byteAt name 0
      ∧ byteAt (entryBytes name attributes firstCluster.toNat fileSize.toNat) 11 = attributes
      ∧ (entryBytes name attributes firstCluster.toNat fileSize.toNat).take 11 = name := by
  unfold entryBytes byteAt
  simp only [List.append_assoc]
  refine ⟨?_, ?_, List.take_left' hname⟩
  · rw [List.getD_append _ _ _ _ (by omega)]
  · rw [List.getD_append_right _ _ _ _ (by omega), hname]
    rfl

include hname in
/-- **What a short entry says is read back.** -/
theorem parseDirectoryEntry_entryBytes :
    parseDirectoryEntry (entryBytes name attributes firstCluster.toNat fileSize.toNat)
      = .ok ⟨attributes, firstCluster, fileSize⟩ := by
  have hcluster := firstCluster.toNat_lt
  -- only the low half of the cluster number fits at offset 26
  have hbytes : leBytes 2 firstCluster.toNat = leBytes 2 (firstCluster.toNat % 2 ^ 16) := by
    apply leNat_inj (by rw [leBytes_length, leBytes_length])
    rw [leNat_leBytes, leNat_leBytes]
    exact (Nat.mod_mod _ (2 ^ 16)).symm
  have hhigh : readLe 2 (entryBytes name attributes firstCluster.toNat fileSize.toNat) 20
      = some (firstCluster.toNat / 2 ^ 16) :=
    readLe_of_readsAt ⟨name ++ [attributes] ++ List.replicate 8 0,
      List.replicate 4 0 ++ (leBytes 2 firstCluster.toNat ++ leBytes 4 fileSize.toNat),
      by simp only [entryBytes, List.append_assoc], by simp [hname]⟩ (by omega)
  have hlow : readLe 2 (entryBytes name attributes firstCluster.toNat fileSize.toNat) 26
      = some (firstCluster.toNat % 2 ^ 16) :=
    readLe_of_readsAt ⟨name ++ [attributes] ++ List.replicate 8 0
        ++ leBytes 2 (firstCluster.toNat / 2 ^ 16) ++ List.replicate 4 0, leBytes 4 fileSize.toNat,
      by simp only [entryBytes, List.append_assoc, hbytes], by simp [hname]⟩
      (Nat.mod_lt _ (by decide))
  have hsize : readLe 4 (entryBytes name attributes firstCluster.toNat fileSize.toNat) 28
      = some fileSize.toNat :=
    readLe_of_readsAt ⟨name ++ [attributes] ++ List.replicate 8 0
        ++ leBytes 2 (firstCluster.toNat / 2 ^ 16) ++ List.replicate 4 0
        ++ leBytes 2 firstCluster.toNat, [],
      by simp only [entryBytes, List.append_assoc, List.append_nil], by simp [hname]⟩
      fileSize.toNat_lt
  unfold parseDirectoryEntry readU16 readU32 readLe16 readLe32
  rw [hhigh, hlow, hsize, (entryBytes_at hname attributes firstCluster fileSize).2.1]
  show Except.ok (FatDirectoryEntry.mk attributes
    ((UInt16.ofNat _).toUInt32 <<< 16 ||| (UInt16.ofNat _).toUInt32)
    (UInt32.ofNat fileSize.toNat)) = _
  rw [cluster_of_words, UInt32.ofNat_toNat]

end ShortEntry


/-- **The pieces of a long name name the entry, and encode the name.** -/
theorem encodeLongName_names {name : List Char} {shortName entry : Bytes} (h : ValidLongName name)
    (hentry : entry.take 11 = shortName) :
    NamesEntry (encodeLongName name shortName) entry
      ∧ EncodesName (encodeLongName name shortName) (utf16 name) := by
  obtain ⟨hpos, hle⟩ := h.pieceCount_le
  have hunits : 13 * pieceCount name ≤ (paddedUnits name).length := (paddedUnits_length name).ge
  have hlength : (encodeLongName name shortName).length = pieceCount name := piecesOf_length
  refine ⟨⟨by omega, by omega, ?_⟩, ?_⟩
  · rw [hlength, hentry]
    exact isPiece_piecesOf hle hunits
  · unfold EncodesName encodeLongName
    rw [piecesOf_units hunits, ← paddedUnits_length, List.take_length]
    rfl

/-- Pieces are collected and not reported. -/
theorem entriesRecords_pieces {pieces : List Bytes} (rest : List Bytes) (state : LongNameState)
    (h : ∀ piece ∈ pieces, byteAt piece 0 ≠ 0x00 ∧ byteAt piece 11 = fatAttributeLongName) :
    entriesRecords (pieces ++ rest) state
      = entriesRecords rest (pieces.foldl LongNameState.after state) := by
  induction pieces generalizing state with
  | nil => rfl
  | cons piece pieces ih =>
      -- a live piece changes the state and nothing else
      obtain ⟨⟨hnotEnd, hlong⟩, hpieces⟩ := List.forall_mem_cons.mp h
      rw [List.cons_append, entriesRecords_cons, if_neg hnotEnd,
        if_neg (fun hregular => hregular.2.1 hlong), ih _ hpieces]
      rfl

/-- No piece ends the directory. -/
theorem encodeLongName_pieces {name : List Char} {shortName : Bytes} (h : ValidLongName name) :
    ∀ piece ∈ encodeLongName name shortName,
      byteAt piece 0 ≠ 0x00 ∧ byteAt piece 11 = fatAttributeLongName := by
  intro piece hpiece
  obtain ⟨-, hle⟩ := h.pieceCount_le
  obtain ⟨i, hi⟩ := List.mem_iff_getElem?.mp hpiece
  obtain ⟨hlt, rfl⟩ := piecesOf_getElem? hi
  have hchunk := chunk_length (paddedUnits_length name).ge
    (by omega : pieceCount name - i - 1 < pieceCount name)
  obtain ⟨hfirst, hattribute, -⟩ := pieceBytes_at
    (pieceMark (pieceCount name) (pieceCount name - i)) (shortNameChecksum shortName) hchunk
  rw [hfirst]
  exact ⟨(pieceMark_spec _ hle _ (by omega) (by omega)).1, hattribute⟩

namespace StoredEntry

variable {item : StoredEntry}

/-- **Except for `-`, what answers to a component is what is called so.** -/
theorem Valid.answersTo_eq (h : item.Valid) {component : Bytes} (hdash : component ≠ ascii "-")
    (hdots : ¬ (component = ascii "." ∨ component = ascii "..")) :
    answersTo component item.record = eqIgnoreAsciiCase item.name component := by
  have hsame (hname : item.record.name = item.record.trueName) :
      answersTo component item.record = eqIgnoreAsciiCase item.name component := by
    unfold answersTo name
    rw [hname]
  cases hlong : item.longName with
  | some long =>
      apply hsame
      unfold FatRecord.name FatRecord.trueName record
      rw [hlong]
      rfl
  | none =>
      rcases h.called hlong with ⟨cluster, hentry⟩ | ⟨hvalid, hextension⟩
      · -- the code finds `.` and `..` under another name, and the format under their own
        have hcode : item.record.name = ascii "-" := by
          rcases hentry with hdot | hdotdot
          · exact hdot.name_eq (by decide)
          · exact hdotdot.name_eq (by decide)
        have htrue : item.name = ascii "." ∨ item.name = ascii ".." :=
          hentry.imp (fun hdot => hdot.trueName_eq (.inl rfl)) (fun hdotdot => hdotdot.trueName_eq (.inr rfl))
        have hfalse : ¬ answersTo component item.record = true := by
          intro hanswers
          rw [answersTo_iff, hcode] at hanswers
          exact hdash (folded_eq_dash hanswers.symm)
        have hfalse' : ¬ eqIgnoreAsciiCase item.name component = true := by
          intro hanswers
          have hfolded : folded item.name = folded component := beq_iff_eq.mp hanswers
          rw [folded_eq_dots htrue hfolded.symm] at hdots
          exact hdots htrue
        rw [Bool.not_eq_true] at hfalse hfalse'
        rw [hfalse, hfalse']
      · apply hsame
        refine hvalid.name ?_
        rintro (hlong' | ⟨-, hnone⟩)
        · have hsome : item.longName.map utf8 = some (ascii "-") := hlong'
          rw [hlong] at hsome
          cases hsome
        · exact hextension hnone

/-- The short entry is neither an end nor deleted, no piece and no label. -/
theorem Valid.isRegular (h : item.Valid) :
    byteAt item.shortBytes 0 ≠ 0x00 ∧ IsRegular item.shortBytes := by
  obtain ⟨hfirst, hattributes, -⟩ := entryBytes_at h.short item.entry.attributes
    item.entry.firstCluster item.entry.fileSize
  have hlong : item.entry.attributes ≠ fatAttributeLongName := by
    intro hlong
    have hregular := h.regular
    rw [hlong] at hregular
    exact absurd hregular (by decide)
  unfold IsRegular shortBytes
  rw [hfirst, hattributes]
  exact ⟨h.notEnd, h.live, hlong, h.regular⟩

/-- The record behind the pieces. -/
theorem Valid.recordOf_eq (h : item.Valid) :
    recordOf (item.pieces.foldl LongNameState.after .new) item.shortBytes = .ok item.record := by
  have hparse : parseDirectoryEntry item.shortBytes = .ok item.entry :=
    parseDirectoryEntry_entryBytes h.short _ _ _
  have htake : item.shortBytes.take 11 = item.shortName := (entryBytes_at h.short _ _ _).2.2
  unfold recordOf record
  rw [hparse]
  dsimp only
  -- with no piece in front the state is idle; the pieces of a name make it match the entry
  cases hname : item.longName with
  | none =>
      have hpieces : item.pieces = [] := by
        unfold pieces
        rw [hname]
        rfl
      rw [hpieces]
      rfl
  | some name =>
      have hpieces : item.pieces = encodeLongName name item.shortName := by
        unfold pieces
        rw [hname]
        rfl
      have hvalid := h.long name hname
      obtain ⟨hnames, hencodes⟩ := encodeLongName_names hvalid htake
      have hmatches := (LongNameState.matchesEntry_iff item.pieces item.shortBytes).mpr
        ⟨[], item.pieces, rfl, hpieces ▸ hnames⟩
      rw [if_pos hmatches, hpieces,
        LongNameState.toUtf8_of_encodes hnames hencodes hvalid.noZero hvalid.noOnes]
      rfl

/-- **The entries of a file are read as one record.** -/
theorem Valid.entriesRecords_encode (h : item.Valid) (rest : List Bytes) :
    entriesRecords (item.encode ++ rest) .new = .cons item.record (entriesRecords rest .new) := by
  have hpieces : ∀ piece ∈ item.pieces,
      byteAt piece 0 ≠ 0x00 ∧ byteAt piece 11 = fatAttributeLongName := by
    unfold pieces
    cases hname : item.longName with
    | none => exact fun piece hpiece => absurd hpiece List.not_mem_nil
    | some name => exact encodeLongName_pieces (h.long name hname)
  obtain ⟨hnotEnd, hregular⟩ := h.isRegular
  unfold encode
  rw [List.append_assoc, entriesRecords_pieces _ _ hpieces, List.singleton_append,
    entriesRecords_cons, if_neg hnotEnd, if_pos hregular, h.recordOf_eq]
  dsimp only
  rw [LongNameState.after_of_not (fun hpiece => hregular.2.1 hpiece.2)]

end StoredEntry

/-! ## §4. A directory, there and back. -/

/-- A slot that is passed over leaves nothing behind. -/
theorem entriesRecords_skipped {entry : Bytes} (h : (DirectorySlot.skipped entry).Valid)
    (rest : List Bytes) :
    entriesRecords (entry :: rest) .new = entriesRecords rest .new := by
  obtain ⟨hnotEnd, hdeleted | ⟨hlong, hlabel⟩⟩ := h
  · rw [entriesRecords_cons, if_neg hnotEnd, if_neg (fun hregular => hregular.1 hdeleted),
      LongNameState.after_of_not (fun hpiece => hpiece.1 hdeleted)]
  · rw [entriesRecords_cons, if_neg hnotEnd, if_neg (fun hregular => hlabel hregular.2.2),
      LongNameState.after_of_not (fun hpiece => hlong hpiece.2)]

/-- The records of slots in a row, and what comes behind them. -/
theorem entriesRecords_slots {slots : List DirectorySlot} (h : ∀ slot ∈ slots, slot.Valid)
    (behind : List Bytes) :
    entriesRecords (slots.flatMap DirectorySlot.encode ++ behind) .new
      = ⟨(itemsOf slots).map StoredEntry.record ++ (entriesRecords behind .new).items,
          (entriesRecords behind .new).ending⟩ := by
  induction slots with
  | nil => rfl
  | cons slot slots ih =>
      obtain ⟨hslot, hslots⟩ := List.forall_mem_cons.mp h
      rw [List.flatMap_cons, List.append_assoc]
      cases slot with
      | stored item =>
          show entriesRecords (item.encode ++ _) _ = _
          rw [StoredEntry.Valid.entriesRecords_encode hslot, ih hslots]
          rfl
      | skipped entry =>
          show entriesRecords (entry :: (slots.flatMap DirectorySlot.encode ++ behind)) _ = _
          rw [entriesRecords_skipped hslot, ih hslots]
          rfl

section Directory

variable {volume : FatVolume} {clusters : Nat} {directory : DirectoryLocation}

/-- **A directory is read as it was written.** -/
theorem directoryRecords_stored {slots : List DirectorySlot}
    (h : StoredIn volume clusters directory slots) :
    directoryRecords volume clusters directory
      = ⟨(itemsOf slots).map StoredEntry.record, .ok ()⟩ := by
  obtain ⟨behind, hitems, hends⟩ := h.written
  rw [directoryRecords_eq]
  unfold streamRecords
  rw [hitems, entriesRecords_slots h.valid]
  -- behind the last slot there is nothing, or the entry that ends the directory
  obtain ⟨rfl, hending⟩ | ⟨entry, rest, rfl, hend⟩ := hends
  · rw [hending]
    show Listing.mk (((itemsOf slots).map StoredEntry.record ++ []) ++ [] ++ []) (.ok ()) = _
    simp only [List.append_nil]
  · rw [entriesRecords_cons, if_pos hend]
    show Listing.mk (((itemsOf slots).map StoredEntry.record ++ []) ++ [] ++ []) (.ok ()) = _
    simp only [List.append_nil]

/-- The files and subdirectories of a directory are in order. -/
theorem valid_of_mem_itemsOf {slots : List DirectorySlot}
    (h : StoredIn volume clusters directory slots) {item : StoredEntry} (hitem : item ∈ itemsOf slots) :
    item.Valid := by
  obtain ⟨slot, hslot, hsome⟩ := List.mem_filterMap.mp hitem
  cases slot with
  | skipped entry => cases hsome
  | stored item' =>
      obtain rfl := Option.some.inj hsome
      exact h.valid _ hslot

/-- A lookup finds the first file or subdirectory that answers, or nothing. -/
theorem findDirectoryEntry_items {slots : List DirectorySlot}
    (h : StoredIn volume clusters directory slots) (component : Bytes) :
    findDirectoryEntry volume clusters directory component
      = ((itemsOf slots).find? (answersTo component ∘ StoredEntry.record)).elim
          (.error (.error .notFound)) (fun item => .ok item.entry) := by
  rw [findDirectoryEntry_eq, directoryRecords_stored h]
  unfold Listing.find
  rw [List.find?_map]
  cases (itemsOf slots).find? (answersTo component ∘ StoredEntry.record) with
  | none => rfl
  | some item => rfl

/-- **A lookup finds the first one that is called so**, or nothing. -/
theorem findDirectoryEntry_stored {slots : DirectoryLocation → List DirectorySlot}
    (h : StoredIn volume clusters directory (slots directory)) {component : Bytes}
    (hdash : component ≠ ascii "-") (hdots : ¬ (component = ascii "." ∨ component = ascii "..")) :
    findDirectoryEntry volume clusters directory component
      = (firstNamed slots directory component).elim (.error (.error .notFound))
          (fun item => .ok item.entry) := by
  have hanswers : ∀ item ∈ itemsOf (slots directory),
      (answersTo component ∘ StoredEntry.record) item = eqIgnoreAsciiCase item.name component :=
    fun item hitem => (valid_of_mem_itemsOf h hitem).answersTo_eq hdash hdots
  rw [findDirectoryEntry_items h, List.find?_congr hanswers]
  rfl

end Directory

/-! ## §5. Paths. -/

/-- What is wrong with the path and not with the volume. -/
def IsPathError (halt : Halt) : Prop :=
  halt = .error .invalidPath ∨ halt = .error .notFound ∨ halt = .error .notDirectory

section Paths

variable {volume : FatVolume} {clusters : Nat} {slots : DirectoryLocation → List DirectorySlot}

theorem not_leads_nil {directory : DirectoryLocation} {entry : FatDirectoryEntry} :
    ¬ Leads slots directory [] entry := fun hleads => (by cases hleads)

/-- Where the first component leads, and the others from there. -/
theorem leads_cons_iff {directory : DirectoryLocation} {component : Bytes} {components : List Bytes}
    {entry : FatDirectoryEntry} :
    Leads slots directory (component :: components) entry
      ↔ ¬ (component = ascii "." ∨ component = ascii "..")
        ∧ ∃ item, firstNamed slots directory component = some item
          ∧ ((components = [] ∧ item.entry = entry) ∨ (item.entry.isDirectory = true
              ∧ Leads slots (.clusterChain item.entry.firstCluster) components entry)) := by
  constructor
  · intro hleads
    cases hleads with
    | last hproper hfirst => exact ⟨hproper, _, hfirst, .inl ⟨rfl, rfl⟩⟩
    | through hproper hfirst hdir hrest => exact ⟨hproper, _, hfirst, .inr ⟨hdir, hrest⟩⟩
  · rintro ⟨hproper, item, hfirst, ⟨rfl, rfl⟩ | ⟨hdir, hrest⟩⟩
    · exact .last hproper hfirst
    · exact .through hproper hfirst hdir hrest

/-- The components of a path, the first of them looked up. -/
theorem findComponents_cons {directory : DirectoryLocation} {component : Bytes}
    (components : List Bytes) (hproper : ¬ (component = ascii "." ∨ component = ascii ".."))
    {found : Option StoredEntry}
    (hfind : findDirectoryEntry volume clusters directory component
      = found.elim (.error (.error .notFound)) (fun item => .ok item.entry)) :
    findComponents volume clusters directory (component :: components)
      = found.elim (.error (.error .notFound)) (fun item =>
          if components = [] then .ok item.entry
          else if item.entry.isDirectory = false then .error (.error .notDirectory)
          else findComponents volume clusters (.clusterChain item.entry.firstCluster) components) := by
  show (if component = ascii "." ∨ component = ascii ".." then _ else _) = _
  rw [if_neg hproper, hfind]
  cases found with
  | none => rfl
  | some item => rfl

/-- From a directory of the tree the components resolve exactly to where they lead. -/
theorem findComponents_ok_iff (h : StoredTree slots volume clusters) {directory : DirectoryLocation}
    (hinside : Inside slots directory) (components : List Bytes) (hdash : ascii "-" ∉ components)
    (entry : FatDirectoryEntry) :
    findComponents volume clusters directory components = .ok entry
      ↔ Leads slots directory components entry := by
  induction components generalizing directory with
  | nil => exact ⟨fun hfound => (by cases hfound), fun hleads => absurd hleads not_leads_nil⟩
  | cons component components ih =>
      obtain ⟨hne, hrest⟩ := List.ne_and_not_mem_of_not_mem_cons hdash
      rw [leads_cons_iff]
      by_cases hdots : component = ascii "." ∨ component = ascii ".."
      · unfold findComponents
        rw [if_pos hdots]
        exact ⟨fun hfound => (by cases hfound), fun hleads => absurd hdots hleads.1⟩
      rw [findComponents_cons components hdots
        (findDirectoryEntry_stored (h directory hinside) (Ne.symm hne) hdots)]
      cases hfirst : firstNamed slots directory component with
      | none =>
          refine ⟨fun hfound => (by cases hfound), fun hleads => ?_⟩
          obtain ⟨-, item, hnamed, -⟩ := hleads
          cases hnamed
      | some item =>
          rw [Option.elim_some]
          -- the last component may be a file; any other one has to be a subdirectory of the tree
          by_cases hlast : components = []
          · subst hlast
            rw [if_pos rfl]
            constructor
            · intro hfound
              exact ⟨hdots, item, rfl, .inl ⟨rfl, Except.ok.inj hfound⟩⟩
            · rintro ⟨-, item', hnamed, ⟨-, hentry⟩ | ⟨-, hrest⟩⟩
              · cases hnamed
                rw [hentry]
              · exact absurd hrest not_leads_nil
          rw [if_neg hlast]
          by_cases hfile : item.entry.isDirectory = false
          · rw [if_pos hfile]
            refine ⟨fun hfound => (by cases hfound), fun hleads => ?_⟩
            obtain ⟨-, item', hnamed, ⟨hnil, -⟩ | ⟨hdir, -⟩⟩ := hleads
            · exact absurd hnil hlast
            · cases hnamed
              rw [hfile] at hdir
              cases hdir
          · rw [if_neg hfile]
            have hdir : item.entry.isDirectory = true := Bool.eq_true_of_not_eq_false hfile
            rw [ih (.sub hinside (List.mem_of_find?_eq_some hfirst) hdir) hrest]
            constructor
            · intro hleads
              exact ⟨hdots, item, rfl, .inr ⟨hdir, hleads⟩⟩
            · rintro ⟨-, item', hnamed, ⟨hnil, -⟩ | ⟨-, hleads⟩⟩
              · exact absurd hnil hlast
              · cases hnamed
                exact hleads

/-- Where they do not resolve, it is for one of three reasons. -/
theorem findComponents_error (h : StoredTree slots volume clusters) {directory : DirectoryLocation}
    (hinside : Inside slots directory) (components : List Bytes) {halt : Halt}
    (hfailed : findComponents volume clusters directory components = .error halt) :
    IsPathError halt := by
  induction components generalizing directory with
  | nil =>
      cases hfailed
      exact .inl rfl
  | cons component components ih =>
      by_cases hdots : component = ascii "." ∨ component = ascii ".."
      · unfold findComponents at hfailed
        rw [if_pos hdots] at hfailed
        cases hfailed
        exact .inl rfl
      -- the directory itself can be read, so the lookup only fails for want of the name
      rw [findComponents_cons components hdots
        (findDirectoryEntry_items (h directory hinside) component)] at hfailed
      cases hfirst : (itemsOf (slots directory)).find? (answersTo component ∘ StoredEntry.record) with
      | none =>
          rw [hfirst] at hfailed
          cases hfailed
          exact .inr (.inl rfl)
      | some item =>
          rw [hfirst, Option.elim_some] at hfailed
          split_ifs at hfailed with hlast hfile
          · cases hfailed
            exact .inr (.inr rfl)
          · exact ih (.sub hinside (List.mem_of_find?_eq_some hfirst)
              (Bool.eq_true_of_not_eq_false hfile)) hfailed

/-- **On a volume that holds a tree, a path without a component `-` resolves to an entry exactly if
    it leads there in the tree**, and nothing but the path is to blame if a path does not. -/
theorem findPathEntry_stored (h : StoredTree slots volume clusters) (path : Bytes) :
    (ascii "-" ∉ pathComponents path → ∀ entry, findPathEntry volume clusters path = .ok entry
        ↔ Leads slots .rootDirectory (pathComponents path) entry)
      ∧ ∀ halt, findPathEntry volume clusters path = .error halt → IsPathError halt :=
  ⟨findComponents_ok_iff h .root (pathComponents path),
    fun _ hfailed => findComponents_error h .root (pathComponents path) hfailed⟩

end Paths

/-- A name that begins with a character of two code units. -/
def notesName : List Char := [Char.ofNat 0x1d11e, 'n', 'o', 't', 'e', 's']

/-- A name of two pieces. -/
def vmlinuzName : List Char :=
  ['v', 'm', 'l', 'i', 'n', 'u', 'z', '-', '6', '.', '1', '8', '-', 'r', 'v']

def labelBytes : Bytes := entryBytes (ascii "VOLUME     ") 0x08 0 0

def storedNotes : StoredEntry := ⟨some notesName, ascii "NOTES~1    ", ⟨0x10, 2, 0⟩⟩
def storedDot : StoredEntry := ⟨none, dotName, ⟨0x10, 2, 0⟩⟩
def storedDotdot : StoredEntry := ⟨none, dotdotName, ⟨0x10, 0, 0⟩⟩
def storedVmlinuz : StoredEntry := ⟨some vmlinuzName, ascii "VMLINU~1   ", ⟨0x20, 3, 7⟩⟩
def storedReadme : StoredEntry := ⟨none, ascii "README  TXT", ⟨0x20, 4, 5⟩⟩

/-- A label and a subdirectory, and two files in the subdirectory. -/
def storedSlots : DirectoryLocation → List DirectorySlot
  | .rootDirectory        => [.skipped labelBytes, .stored storedNotes]
  | .clusterChain cluster =>
      if cluster = 2 then
        [.stored storedDot, .stored storedDotdot, .stored storedVmlinuz, .stored storedReadme]
      else []

/-- The sectors with these directories. -/
def storedContents (lba : Nat) : Bytes :=
  if lba = 1 then List.replicate 4 0 ++ leBytes 2 0xffff
  else if lba = 21 then ((storedSlots .rootDirectory).flatMap DirectorySlot.encode).flatten
  else if lba = 22 then ((storedSlots (.clusterChain 2)).flatMap DirectorySlot.encode).flatten
  else []

def storedVolume : FatVolume := fat16Volume storedContents

/-- The directories of the tree, and the cluster of `..`. -/
theorem inside_storedSlots {directory : DirectoryLocation} (h : Inside storedSlots directory) :
    directory = .rootDirectory ∨ directory = .clusterChain 2 ∨ directory = .clusterChain 0 := by
  induction h with
  | root => exact .inl rfl
  | @sub directory item _ hitem hdir ih =>
      obtain rfl | rfl | rfl := ih
      · have hitems : item ∈ [storedNotes] := hitem
        obtain rfl := List.mem_singleton.mp hitems
        exact .inr (.inl rfl)
      · have hitems : item ∈ [storedDot, storedDotdot, storedVmlinuz, storedReadme] := hitem
        rw [List.mem_cons, List.mem_cons, List.mem_cons, List.mem_singleton] at hitems
        obtain rfl | rfl | rfl | rfl := hitems
        · exact .inr (.inl rfl)
        · exact .inr (.inr rfl)
        · exact absurd hdir (by decide)
        · exact absurd hdir (by decide)
      · exact absurd hitem List.not_mem_nil

set_option maxRecDepth 20000 in
theorem storedTree_storedSlots : StoredTree storedSlots storedVolume 1 := by
  have hdot : storedDot.Valid :=
    ⟨fun name hname => (by cases hname), by decide, by decide, by decide, by decide,
      fun _ => .inl ⟨2, .inl ⟨rfl, by decide +kernel, rfl, rfl⟩⟩⟩
  have hdotdot : storedDotdot.Valid :=
    ⟨fun name hname => (by cases hname), by decide, by decide, by decide, by decide,
      fun _ => .inl ⟨0, .inr ⟨rfl, by decide +kernel, rfl, rfl⟩⟩⟩
  have hnotes : storedNotes.Valid := by
    refine ⟨fun name hname => ?_, by decide, by decide, by decide, by decide,
      fun hnone => (by cases hnone)⟩
    cases hname
    exact ⟨by decide, by decide, by decide, by decide⟩
  have hvmlinuz : storedVmlinuz.Valid := by
    refine ⟨fun name hname => ?_, by decide, by decide, by decide, by decide,
      fun hnone => (by cases hnone)⟩
    cases hname
    exact ⟨by decide, by decide, by decide, by decide⟩
  have hreadmeName : ValidName storedReadme.record := by
    show baseName storedReadme.shortBytes ≠ [] ∧ ∀ b ∈ baseName storedReadme.shortBytes
      ++ extensionName storedReadme.shortBytes, legalInShortName b = true
    decide +kernel
  have hreadme : storedReadme.Valid :=
    ⟨fun name hname => (by cases hname), by decide, by decide, by decide, by decide,
      fun _ => .inr ⟨hreadmeName, by decide +kernel⟩⟩
  intro directory hinside
  obtain rfl | rfl | rfl := inside_storedSlots hinside
  · refine ⟨?_, List.replicate 13 (List.replicate 32 0), by decide +kernel, .inr ⟨_, _, rfl, rfl⟩⟩
    intro slot hslot
    obtain rfl | hslot := List.mem_cons.mp hslot
    · exact ⟨by decide, .inr ⟨by decide, by decide⟩⟩
    · obtain rfl := List.mem_singleton.mp hslot
      exact hnotes
  · refine ⟨?_, List.replicate 10 (List.replicate 32 0), by decide +kernel, .inr ⟨_, _, rfl, rfl⟩⟩
    intro slot hslot
    obtain rfl | hslot := List.mem_cons.mp hslot
    · exact hdot
    obtain rfl | hslot := List.mem_cons.mp hslot
    · exact hdotdot
    obtain rfl | hslot := List.mem_cons.mp hslot
    · exact hvmlinuz
    · obtain rfl := List.mem_singleton.mp hslot
      exact hreadme
  · exact ⟨fun slot hslot => absurd hslot List.not_mem_nil, [], by decide +kernel,
      .inl ⟨rfl, by decide +kernel⟩⟩

set_option maxRecDepth 20000 in
theorem findPathEntry_stored_example :
    FatVolume.new (fat16Device storedContents) 0 = .ok storedVolume
      ∧ findPathEntry storedVolume 1 (separator :: utf8 notesName ++ ascii "/VMLINUZ-6.18-rv")
        = .ok storedVmlinuz.entry
      ∧ findPathEntry storedVolume 1 (separator :: utf8 notesName ++ ascii "/Readme.txt")
        = .ok storedReadme.entry := by
  have hvmlinuzPath : pathComponents (separator :: utf8 notesName ++ ascii "/VMLINUZ-6.18-rv")
      = [utf8 notesName, ascii "VMLINUZ-6.18-rv"] := by decide +kernel
  have hreadmePath : pathComponents (separator :: utf8 notesName ++ ascii "/Readme.txt")
      = [utf8 notesName, ascii "Readme.txt"] := by decide +kernel
  have hnotes : firstNamed storedSlots .rootDirectory (utf8 notesName) = some storedNotes := by
    decide +kernel
  have hvmlinuz : firstNamed storedSlots (.clusterChain 2) (ascii "VMLINUZ-6.18-rv")
      = some storedVmlinuz := by decide +kernel
  have hreadme : firstNamed storedSlots (.clusterChain 2) (ascii "Readme.txt")
      = some storedReadme := by decide +kernel
  refine ⟨new_fat16Device storedContents, ?_, ?_⟩
  · rw [(findPathEntry_stored storedTree_storedSlots _).1 (hvmlinuzPath ▸ by decide +kernel),
      hvmlinuzPath]
    exact .through (by decide +kernel) hnotes (by decide) (.last (by decide +kernel) hvmlinuz)
  · rw [(findPathEntry_stored storedTree_storedSlots _).1 (hreadmePath ▸ by decide +kernel),
      hreadmePath]
    exact .through (by decide +kernel) hnotes (by decide) (.last (by decide +kernel) hreadme)

end RustFirmware.Fat
