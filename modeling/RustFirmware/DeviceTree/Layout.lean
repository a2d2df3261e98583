/-
  RustFirmware.DeviceTree.Layout
  ──────────────────────────────
  **A BLOB AS HEADER, RESERVE MAP, STRUCTURE BLOCK, STRINGS AND FREE SPACE.**

  `Encodes` says what a well-formed blob is and which tree it decodes to, in
  terms of the header fields and the reader's view.  It determines the tree
  (`Encodes.unique`).

  For the editor a blob is an `Image`: the sections one after another, with the
  offsets and sizes of the header computed from their lengths.  A well-formed
  blob is an image that holds a tree, and the other way round
  (`Decodes.exists_image`, `Holds.decodes`).
-/
import RustFirmware.DeviceTree.Write
import RustFirmware.DeviceTree.Walk

namespace RustFirmware.DeviceTree

open RustFirmware.Lib

/-! ## §1. Well-formed blobs. -/

/-- The header's `off_mem_rsvmap`. -/
def Dtb.offMemRsvmap (d : Dtb) : Nat := d.headerWord 16

/-- The reserve map read entry by entry up to its terminator. -/
def Fdt.ReserveMap (fdt : Fdt) (entries : List FdtReserveEntry) : Prop :=
  (∀ index entry, entries[index]? = some entry → fdt.reserveEntry index = some entry)
    ∧ fdt.reserveEntry entries.length = none

/-- The structure block is the root node, with no-ops around it, and the end token. -/
def Fdt.Parses (fdt : Fdt) (rootName : Bytes) (contents : Contents) : Prop :=
  ∃ (items : Items) (pad : Bytes) (lead trail : Nat), IsText rootName ∧ pad.length = padLength (rootName.length + 1)
    ∧ items.Valid ∧ items.contents fdt.stringAt = contents
    ∧ fdt.structureBlock = nops lead ++ (nodeHead rootName pad ++ (items.flat
        ++ (be32 fdtEndNode ++ (nops trail ++ be32 fdtEnd))))

/-- **The blob is a well-formed encoding of `tree`**: `from_ptr` accepts it, it is
    shorter than `2 ^ 31` bytes, the reserve map ends before the structure block
    and that before the strings, and the structure block parses. -/
structure Dtb.Encodes (d : Dtb) (tree : Tree) : Prop where
  size_eq     : d.size = d.blob.length
  total_eq    : d.totalSizeField = d.blob.length
  small       : d.blob.length < 2 ^ 31
  view        : ∃ fdt, d.fdtView = .ok fdt ∧ fdt.ReserveMap tree.reserveMap
      ∧ fdt.Parses tree.rootName tree.contents
  reserve_end : d.offMemRsvmap + 16 * (tree.reserveMap.length + 1) ≤ d.offDtStruct
  struct_end  : d.offDtStruct + d.sizeDtStruct ≤ d.offDtStrings

/-- The same at any size the header can state: a clone with head room for later
    edits may be longer than `2 ^ 31` bytes. -/
structure Dtb.Decodes (d : Dtb) (tree : Tree) : Prop where
  size_eq     : d.size = d.blob.length
  total_eq    : d.totalSizeField = d.blob.length
  view        : ∃ fdt, d.fdtView = .ok fdt ∧ fdt.ReserveMap tree.reserveMap
      ∧ fdt.Parses tree.rootName tree.contents
  reserve_end : d.offMemRsvmap + 16 * (tree.reserveMap.length + 1) ≤ d.offDtStruct
  struct_end  : d.offDtStruct + d.sizeDtStruct ≤ d.offDtStrings

theorem Dtb.Encodes.decodes {d : Dtb} {tree : Tree} (h : d.Encodes tree) : d.Decodes tree :=
  ⟨h.size_eq, h.total_eq, h.view, h.reserve_end, h.struct_end⟩

theorem Dtb.Decodes.encodes {d : Dtb} {tree : Tree} (h : d.Decodes tree)
    (hsmall : d.blob.length < 2 ^ 31) : d.Encodes tree :=
  ⟨h.size_eq, h.total_eq, hsmall, h.view, h.reserve_end, h.struct_end⟩

/-- A strings block in which every string is NUL-terminated UTF-8. -/
def Terminated (strings : Bytes) : Prop :=
  (strings = [] ∨ strings.getLast? = some 0) ∧ utf8Valid strings = true

/-- **The tree and the strings are in order**: properties before subnodes, every
    name resolves, the strings are NUL-terminated UTF-8. -/
structure Dtb.Regular (d : Dtb) (tree : Tree) : Prop where
  propsFirst : tree.contents.PropsFirst
  named      : tree.contents.Named
  terminated : ∀ fdt, d.fdtView = .ok fdt → Terminated fdt.strings

theorem Fdt.ReserveMap.unique {fdt : Fdt} {xs ys : List FdtReserveEntry} (hx : fdt.ReserveMap xs)
    (hy : fdt.ReserveMap ys) : xs = ys := by
  have hlength : xs.length = ys.length := by
    rcases Nat.lt_trichotomy xs.length ys.length with hlt | heq | hlt
    · have hentry := hy.1 _ _ (List.getElem?_eq_getElem hlt)
      rw [hx.2] at hentry
      cases hentry
    · exact heq
    · have hentry := hx.1 _ _ (List.getElem?_eq_getElem hlt)
      rw [hy.2] at hentry
      cases hentry
  refine List.ext_getElem hlength ?_
  intro i hi hi'
  have hsome := hx.1 _ _ (List.getElem?_eq_getElem hi)
  rw [hy.1 _ _ (List.getElem?_eq_getElem hi')] at hsome
  exact (Option.some.inj hsome).symm

/-- No-ops in front of a begin token are counted by the bytes. -/
theorem nops_append_inj {k l : Nat} {x y : Bytes} (hx : x.take 4 ≠ be32 fdtNop)
    (hy : y.take 4 ≠ be32 fdtNop) (h : nops k ++ x = nops l ++ y) : x = y := by
  induction k generalizing l with
  | zero =>
      cases l with
      | zero => exact h
      | succ l => exact absurd (by rw [nops, List.nil_append] at h; rw [h]; rfl) hx
  | succ k ih =>
      cases l with
      | zero => exact absurd (by rw [nops, nops, List.nil_append] at h; rw [← h]; rfl) hy
      | succ l =>
          rw [nops, nops, List.append_assoc, List.append_assoc] at h
          exact ih (List.append_cancel_left h)

theorem take_nodeHead_ne (name pad rest : Bytes) : (nodeHead name pad ++ rest).take 4 ≠ be32 fdtNop := by
  show be32 fdtBeginNode ≠ be32 fdtNop
  decide

theorem Fdt.Parses.unique {fdt : Fdt} {n n' : Bytes} {c c' : Contents} (h : fdt.Parses n c)
    (h' : fdt.Parses n' c') : n = n' ∧ c = c' := by
  obtain ⟨items, pad, lead, trail, hn, hpad, hvalid, rfl, hblock⟩ := h
  obtain ⟨items', pad', lead', trail', hn', hpad', hvalid', rfl, hblock'⟩ := h'
  have hroot := nops_append_inj (take_nodeHead_ne n pad _) (take_nodeHead_ne n' pad' _)
    (hblock.symm.trans hblock')
  simp only [nodeHead, List.append_assoc, List.cons_append] at hroot
  obtain ⟨rfl, hrest⟩ := text_append_inj hn.1 hn'.1 (List.append_cancel_left hroot)
  obtain ⟨-, hrest⟩ := List.append_inj hrest (hpad.trans hpad'.symm)
  obtain ⟨rfl, -⟩ := Items.flat_unique hvalid hvalid' (.inl rfl) (.inl rfl) hrest
  exact ⟨rfl, rfl⟩

/-- **A blob decodes to one tree.** -/
theorem Dtb.Decodes.unique {d : Dtb} {tree tree' : Tree} (h : d.Decodes tree)
    (h' : d.Decodes tree') : tree = tree' := by
  obtain ⟨fdt, hview, hmap, hparse⟩ := h.view
  obtain ⟨fdt', hview', hmap', hparse'⟩ := h'.view
  rw [hview] at hview'
  cases hview'
  obtain ⟨hname, hcontents⟩ := hparse.unique hparse'
  cases tree
  cases tree'
  simp only [Tree.mk.injEq]
  exact ⟨hmap.unique hmap', hname, hcontents⟩

theorem Dtb.Encodes.unique {d : Dtb} {tree tree' : Tree} (h : d.Encodes tree)
    (h' : d.Encodes tree') : tree = tree' := h.decodes.unique h'.decodes

/-- A reserve entry as the reader sees it. -/
def Dtb.reserveEntry (d : Dtb) (index : Nat) : Option FdtReserveEntry :=
  match d.fdtView with
  | .ok fdt  => fdt.reserveEntry index
  | .error _ => none

theorem Dtb.Encodes.reserveEntry {d : Dtb} {tree : Tree} (h : d.Encodes tree) (index : Nat)
    {entry : FdtReserveEntry} (hentry : tree.reserveMap[index]? = some entry) :
    d.reserveEntry index = some entry := by
  obtain ⟨fdt, hview, hmap, -⟩ := h.view
  rw [Dtb.reserveEntry, hview]
  exact hmap.1 index entry hentry

/-! ## §2. Images. -/

/-- The sections of a blob, and the header fields they do not determine. -/
structure Image where
  offMemRsvmap    : Nat
  version         : Nat
  lastCompVersion : Nat
  bootCpuid       : Nat
  reserved        : Bytes
  structureBlock  : Bytes
  gap             : Bytes
  strings         : Bytes
  free            : Bytes

namespace Image

def offDtStruct (m : Image) : Nat := fdtHeaderSize + m.reserved.length
def offDtStrings (m : Image) : Nat := m.offDtStruct + m.structureBlock.length + m.gap.length
def totalSize (m : Image) : Nat := m.offDtStrings + m.strings.length + m.free.length

/-- The header, word by word. -/
def words (m : Image) : List Nat :=
  [fdtMagic, m.totalSize, m.offDtStruct, m.offDtStrings, m.offMemRsvmap, m.version,
   m.lastCompVersion, m.bootCpuid, m.strings.length, m.structureBlock.length]

/-- The sections behind the header. -/
def body (m : Image) : Bytes :=
  m.reserved ++ (m.structureBlock ++ (m.gap ++ (m.strings ++ m.free)))

def bytes (m : Image) : Bytes := wordBytes m.words ++ m.body

/-- What `from_ptr` accepts. -/
structure Fits (m : Image) : Prop where
  small     : m.totalSize < 2 ^ 32
  supported : 17 ≤ m.version
  version   : m.version < 2 ^ 32
  comp      : m.lastCompVersion < 2 ^ 32
  cpuid     : m.bootCpuid < 2 ^ 32
  reserved  : m.offMemRsvmap ≤ m.totalSize

instance (m : Image) : Decidable m.Fits :=
  decidable_of_iff (m.totalSize < 2 ^ 32 ∧ 17 ≤ m.version ∧ m.version < 2 ^ 32
      ∧ m.lastCompVersion < 2 ^ 32 ∧ m.bootCpuid < 2 ^ 32 ∧ m.offMemRsvmap ≤ m.totalSize)
    ⟨fun ⟨h₁, h₂, h₃, h₄, h₅, h₆⟩ => ⟨h₁, h₂, h₃, h₄, h₅, h₆⟩,
      fun ⟨h₁, h₂, h₃, h₄, h₅, h₆⟩ => ⟨h₁, h₂, h₃, h₄, h₅, h₆⟩⟩

/-- An edit that keeps the size and the other fields keeps an image acceptable. -/
theorem Fits.congr {m m' : Image} (h : m.Fits) (htotal : m'.totalSize = m.totalSize)
    (hversion : m'.version = m.version) (hcomp : m'.lastCompVersion = m.lastCompVersion)
    (hcpuid : m'.bootCpuid = m.bootCpuid) (hrsvmap : m'.offMemRsvmap = m.offMemRsvmap) : m'.Fits := by
  refine ⟨?_, ?_, ?_, ?_, ?_, ?_⟩
  · rw [htotal]
    exact h.small
  · rw [hversion]
    exact h.supported
  · rw [hversion]
    exact h.version
  · rw [hcomp]
    exact h.comp
  · rw [hcpuid]
    exact h.cpuid
  · rw [hrsvmap, htotal]
    exact h.reserved

/-- The reader's view. -/
def fdt (m : Image) (base : Nat) : Fdt where
  base           := base
  totalSize      := m.totalSize
  reserveMap     := m.bytes.drop m.offMemRsvmap
  structureBlock := m.structureBlock
  strings        := m.strings

theorem bytes_length (m : Image) : m.bytes.length = m.totalSize := by
  simp only [bytes, words, body, List.length_append, wordBytes_length, List.length_cons,
    List.length_nil, totalSize, offDtStrings, offDtStruct, fdtHeaderSize]
  omega

/-- What stands in front of a part of the structure block. -/
theorem front_length (m : Image) (xs : Bytes) :
    (wordBytes m.words ++ (m.reserved ++ xs)).length = m.offDtStruct + xs.length := by
  simp only [words, List.length_append, wordBytes_length, List.length_cons, List.length_nil,
    offDtStruct, fdtHeaderSize]
  omega

theorem bytes_drop_struct (m : Image) : m.bytes.drop m.offDtStruct
    = m.structureBlock ++ (m.gap ++ (m.strings ++ m.free)) := by
  have hlength := m.front_length []
  rw [List.append_nil, List.length_nil, Nat.add_zero] at hlength
  rw [bytes, body, ← List.append_assoc, ← hlength, List.drop_left]

theorem bytes_drop_strings (m : Image) : m.bytes.drop m.offDtStrings = m.strings ++ m.free := by
  have hlength : m.offDtStrings = m.offDtStruct + (m.structureBlock ++ m.gap).length := by
    rw [List.length_append, offDtStrings, Nat.add_assoc]
  rw [hlength, ← List.drop_drop, bytes_drop_struct, ← List.append_assoc, List.drop_left]

end Image

/-- The blob is the image `m`. -/
structure Dtb.Shows (d : Dtb) (m : Image) : Prop where
  blob    : d.blob = m.bytes
  size    : d.size = m.totalSize
  fits    : m.Fits
  pointer : validateDtbPointer d.pointer = .ok ()

section Shows

variable {d : Dtb} {m : Image}

/-- A header word of an image. -/
theorem Image.Fits.readWord (h : m.Fits) {index value : Nat} (hword : m.words[index]? = some value) :
    readBe32 m.bytes (4 * index) = some value := by
  refine readBe32_wordBytes hword ?_
  have hsmall := h.small
  have hsupported := h.version
  have hcomp := h.comp
  have hcpuid := h.cpuid
  have hreserved := h.reserved
  have hmem : value ∈ m.words := List.mem_of_getElem? hword
  simp only [Image.totalSize, Image.offDtStrings] at hsmall hreserved
  simp only [Image.words, Image.totalSize, Image.offDtStrings, List.mem_cons, List.not_mem_nil,
    or_false] at hmem
  rcases hmem with h | h | h | h | h | h | h | h | h | h
  · rw [h]
    decide
  all_goals omega

theorem Dtb.Shows.headerWord (h : d.Shows m) {i value : Nat}
    (hword : m.words[i]? = some value) : d.headerWord (4 * i) = value := by
  rw [Dtb.headerWord, h.blob, h.fits.readWord hword]
  rfl

theorem Dtb.Shows.totalSizeField (h : d.Shows m) : d.totalSizeField = m.totalSize :=
  h.headerWord (i := 1) rfl

theorem Dtb.Shows.offDtStruct (h : d.Shows m) : d.offDtStruct = m.offDtStruct :=
  h.headerWord (i := 2) rfl

theorem Dtb.Shows.offDtStrings (h : d.Shows m) : d.offDtStrings = m.offDtStrings :=
  h.headerWord (i := 3) rfl

theorem Dtb.Shows.offMemRsvmap (h : d.Shows m) : d.offMemRsvmap = m.offMemRsvmap :=
  h.headerWord (i := 4) rfl

theorem Dtb.Shows.sizeDtStrings (h : d.Shows m) : d.sizeDtStrings = m.strings.length :=
  h.headerWord (i := 8) rfl

theorem Dtb.Shows.sizeDtStruct (h : d.Shows m) : d.sizeDtStruct = m.structureBlock.length :=
  h.headerWord (i := 9) rfl

/-- What `from_ptr` has read and checked when it accepts. -/
structure Fdt.Accepts (base : Nat) (memory : Bytes) (fdt : Fdt)
    (totalSize offDtStruct offDtStrings offMemRsvmap version sizeDtStrings sizeDtStruct : Nat) :
    Prop where
  pointer      : validateDtbPointer base = .ok ()
  magic        : readBe32 memory 0 = some fdtMagic
  total        : readBe32 memory 4 = some totalSize
  structAt     : readBe32 memory 8 = some offDtStruct
  stringsAt    : readBe32 memory 12 = some offDtStrings
  rsvmapAt     : readBe32 memory 16 = some offMemRsvmap
  versionAt    : readBe32 memory 20 = some version
  stringsSize  : readBe32 memory 32 = some sizeDtStrings
  structSize   : readBe32 memory 36 = some sizeDtStruct
  supported    : 17 ≤ version
  rsvmapInside : offMemRsvmap ≤ totalSize
  structInside : fdtHeaderSize ≤ offDtStruct ∧ offDtStruct + sizeDtStruct ≤ totalSize
  stringsInside : fdtHeaderSize ≤ offDtStrings ∧ offDtStrings + sizeDtStrings ≤ totalSize
  result       : fdt = { base := base, totalSize := totalSize,
                         reserveMap := (memory.take totalSize).drop offMemRsvmap,
                         structureBlock := ((memory.take totalSize).drop offDtStruct).take sizeDtStruct,
                         strings := ((memory.take totalSize).drop offDtStrings).take sizeDtStrings }

/-- **`from_ptr`, inverted.** -/
theorem Fdt.fromPtr_eq_ok {base : Nat} {memory : Bytes} {fdt : Fdt}
    (h : Fdt.fromPtr base memory = .ok fdt) :
    ∃ totalSize offDtStruct offDtStrings offMemRsvmap version sizeDtStrings sizeDtStruct,
      Fdt.Accepts base memory fdt totalSize offDtStruct offDtStrings offMemRsvmap version
        sizeDtStrings sizeDtStruct := by
  unfold Fdt.fromPtr at h
  obtain ⟨_, hpointer, h⟩ := bind_eq_ok.mp h
  obtain ⟨magic, hmagic, h⟩ := bind_eq_ok.mp h
  split at h
  case isTrue => cases h
  case isFalse hok =>
    obtain ⟨total, htotal, h⟩ := bind_eq_ok.mp h
    obtain ⟨structAt, hstruct, h⟩ := bind_eq_ok.mp h
    obtain ⟨stringsAt, hstrings, h⟩ := bind_eq_ok.mp h
    obtain ⟨rsvmapAt, hrsvmap, h⟩ := bind_eq_ok.mp h
    obtain ⟨version, hversion, h⟩ := bind_eq_ok.mp h
    obtain ⟨stringsSize, hstringsSize, h⟩ := bind_eq_ok.mp h
    obtain ⟨structSize, hstructSize, h⟩ := bind_eq_ok.mp h
    split_ifs at h with hold hsmall hrsv hinside
    cases h
    simp only [not_or, Nat.not_lt] at hinside
    simp only [okOr_eq_ok] at hmagic htotal hstruct hstrings hrsvmap hversion hstringsSize hstructSize
    rw [not_not.mp hok] at hmagic
    exact ⟨total, structAt, stringsAt, rsvmapAt, version, stringsSize, structSize, hpointer, hmagic,
      htotal, hstruct, hstrings, hrsvmap, hversion, hstringsSize, hstructSize, by omega, by omega,
      by omega, by omega, rfl⟩

/-- **`from_ptr` accepts an image and finds its sections.** -/
theorem Dtb.Shows.fdtView (h : d.Shows m) : d.fdtView = .ok (m.fdt d.pointer) := by
  have hread : ∀ {i value : Nat}, m.words[i]? = some value → readBe32 d.blob (4 * i) = some value := by
    intro i value hword
    rw [h.blob]
    exact h.fits.readWord hword
  have h0 := hread (i := 0) rfl
  have h1 := hread (i := 1) rfl
  have h2 := hread (i := 2) rfl
  have h3 := hread (i := 3) rfl
  have h4 := hread (i := 4) rfl
  have h5 := hread (i := 5) rfl
  have h8 := hread (i := 8) rfl
  have h9 := hread (i := 9) rfl
  have hsupported := h.fits.supported
  have hreserved := h.fits.reserved
  have hheader : fdtHeaderSize ≤ m.offDtStruct := Nat.le_add_right _ _
  have htotal : m.totalSize = m.offDtStruct + m.structureBlock.length + m.gap.length
      + m.strings.length + m.free.length := rfl
  have hstringsAt : m.offDtStrings = m.offDtStruct + m.structureBlock.length + m.gap.length := rfl
  have hblob : d.blob.take m.totalSize = m.bytes := by
    rw [h.blob, ← m.bytes_length, List.take_length]
  have hview : Fdt.fromPtr d.pointer d.blob = .ok (m.fdt d.pointer) := by
    unfold Fdt.fromPtr
    simp only [h.pointer, h0, h1, h2, h3, h4, h5, h8, h9, okOr, bind, Except.bind]
    rw [if_neg (not_not.mpr rfl), if_neg (by omega), if_neg (by omega), if_neg (by omega),
      if_neg (by omega), hblob, m.bytes_drop_struct, List.take_left, m.bytes_drop_strings,
      List.take_left]
    rfl
  rw [Dtb.fdtView, hview]

end Shows

/-! ## §3. Names and the reserve map. -/

/-- A name resolves where its text and a NUL stand. -/
theorem Fdt.stringAt_eq_some {fdt : Fdt} {offset : Nat} {name : Bytes} :
    fdt.stringAt offset = some name ↔ IsText name ∧ ReadsAt fdt.strings offset (name ++ [0]) := by
  constructor
  · intro h
    obtain ⟨bytes, hbytes, h⟩ := Option.bind_eq_some_iff.mp h
    obtain ⟨stop, hstop, h⟩ := Option.bind_eq_some_iff.mp h
    obtain ⟨hvalid, rfl⟩ := fromUtf8_eq_some.mp h
    obtain ⟨hfree, after, hafter⟩ := nulPosition_eq_some hstop
    refine ⟨⟨hfree, hvalid⟩, ?_⟩
    have hat := (readsAt_of_slice hbytes).1
    rw [hafter, ← List.singleton_append, ← List.append_assoc] at hat
    exact (readsAt_append.mp hat).1
  · rintro ⟨htext, before, after, hstrings, rfl⟩
    have hslice : slice? fdt.strings before.length fdt.strings.length
        = some (name ++ 0 :: after) := by
      rw [slice?, hstrings, if_pos ⟨by simp, Nat.le_refl _⟩, List.drop_left,
        List.take_of_length_le (by simp), List.append_assoc]
      rfl
    have hvalid : fromUtf8 name = some name := fromUtf8_eq_some.mpr ⟨htext.2, rfl⟩
    simp only [Fdt.stringAt, hslice, Option.bind_eq_bind, Option.bind_some,
      nulPosition_append htext.1, List.take_left, hvalid]

/-- More strings behind the block leave every resolved name as it is. -/
theorem Fdt.stringAt_append {fdt fdt' : Fdt} {more : Bytes} (h : fdt'.strings = fdt.strings ++ more)
    {offset : Nat} {name : Bytes} (hname : fdt.stringAt offset = some name) :
    fdt'.stringAt offset = some name := by
  obtain ⟨htext, before, after, hstrings, hlength⟩ := Fdt.stringAt_eq_some.mp hname
  refine Fdt.stringAt_eq_some.mpr ⟨htext, before, after ++ more, ?_, hlength⟩
  rw [h, hstrings, List.append_assoc, List.append_assoc]

theorem Fdt.stringAt_congr {fdt fdt' : Fdt} (h : fdt.strings = fdt'.strings) :
    fdt.stringAt = fdt'.stringAt := by
  funext offset
  simp only [Fdt.stringAt, h]

/-- Items whose names resolve mean the same under more names. -/
theorem Items.contents_mono {names names' : Nat → Option Bytes}
    (hnames : ∀ offset name, names offset = some name → names' offset = some name)
    {items : Items} (h : (items.contents names).Named) :
    items.contents names' = items.contents names := by
  induction items with
  | nil => rfl
  | nop rest ih => exact ih h
  | prop o v pad rest ih =>
      obtain ⟨hsome, hrest⟩ := h
      obtain ⟨name, hname⟩ := Option.isSome_iff_exists.mp hsome
      rw [contents, contents, ih hrest, hname, hnames o name hname]
  | node n pad children rest ihc ihr => rw [contents, contents, ihc h.1, ihr h.2]

theorem Fdt.reserveEntry_append {fdt fdt' : Fdt} {xs ys ys' : Bytes}
    (h : fdt.reserveMap = xs ++ ys) (h' : fdt'.reserveMap = xs ++ ys') {index : Nat}
    (hindex : 16 * (index + 1) ≤ xs.length) : fdt'.reserveEntry index = fdt.reserveEntry index := by
  unfold Fdt.reserveEntry
  cases hmul : checkedMul 64 index 16 with
  | none => rfl
  | some offset =>
      have hoffset := (checkedMul_eq_some.mp hmul).2
      show (do let address ← readBe64 fdt'.reserveMap offset; _) = _
      rw [h, h', readBe64, readBe64, slice_append (by omega), slice_append (by omega)]
      simp only [Option.bind_eq_bind, Option.bind_some, readBe64]
      rw [slice_append (by omega), slice_append (by omega)]

/-- The reserve map only depends on its own bytes. -/
theorem Fdt.ReserveMap.of_append {fdt fdt' : Fdt} {xs ys ys' : Bytes}
    {entries : List FdtReserveEntry} (h : fdt.ReserveMap entries)
    (hmap : fdt.reserveMap = xs ++ ys) (hmap' : fdt'.reserveMap = xs ++ ys')
    (hlength : 16 * (entries.length + 1) ≤ xs.length) : fdt'.ReserveMap entries := by
  constructor
  · intro index entry hentry
    obtain ⟨hlt, -⟩ := List.getElem?_eq_some_iff.mp hentry
    rw [Fdt.reserveEntry_append hmap hmap' (by omega)]
    exact h.1 index entry hentry
  · rw [Fdt.reserveEntry_append hmap hmap' hlength]
    exact h.2

/-! ## §4. A tree in an image. -/

/-- **The image holds the tree**: its structure block is `items` below the root,
    and its reserve map ends before the structure block. -/
structure Image.Holds (m : Image) (base : Nat) (tree : Tree) (items : Items) (pad : Bytes)
    (lead trail : Nat) : Prop where
  reserveEnd : m.offMemRsvmap + 16 * (tree.reserveMap.length + 1) ≤ m.offDtStruct
  reserveMap : (m.fdt base).ReserveMap tree.reserveMap
  text       : IsText tree.rootName
  padded     : pad.length = padLength (tree.rootName.length + 1)
  valid      : items.Valid
  contents   : items.contents (m.fdt base).stringAt = tree.contents
  block      : m.structureBlock = nops lead ++ (nodeHead tree.rootName pad ++ (items.flat
      ++ (be32 fdtEndNode ++ (nops trail ++ be32 fdtEnd))))

theorem Dtb.fdtView_eq_ok {d : Dtb} {fdt : Fdt} :
    d.fdtView = .ok fdt ↔ Fdt.fromPtr d.pointer d.blob = .ok fdt := by
  unfold Dtb.fdtView
  cases Fdt.fromPtr d.pointer d.blob <;> simp

/-- The image that a blob with these header fields is cut into. -/
def Image.cut (blob : Bytes) (om version comp cpuid os ss ot st : Nat) : Image where
  offMemRsvmap    := om
  version         := version
  lastCompVersion := comp
  bootCpuid       := cpuid
  reserved        := (blob.drop 40).take (os - 40)
  structureBlock  := (blob.drop os).take (os + ss - os)
  gap             := (blob.drop (os + ss)).take (ot - (os + ss))
  strings         := (blob.drop ot).take (ot + st - ot)
  free            := blob.drop (ot + st)

section Cut

variable {blob : Bytes} {om version comp cpuid os ss ot st : Nat}

theorem cut_length {lo hi : Nat} (h : lo ≤ hi) (hin : hi ≤ blob.length) :
    ((blob.drop lo).take (hi - lo)).length = hi - lo := by
  rw [List.length_take, List.length_drop]
  omega

/-- The lengths of the cut sections are those of the header. -/
theorem Image.cut_words (h40 : 40 ≤ os) (horder : os + ss ≤ ot) (hin : ot + st ≤ blob.length) :
    (Image.cut blob om version comp cpuid os ss ot st).words
      = [fdtMagic, blob.length, os, ot, om, version, comp, cpuid, st, ss] := by
  have hreserved := cut_length h40 (show os ≤ blob.length by omega)
  have hstruct := cut_length (Nat.le_add_right os ss) (show os + ss ≤ blob.length by omega)
  have hgap := cut_length horder (show ot ≤ blob.length by omega)
  have hstrings := cut_length (Nat.le_add_right ot st) hin
  simp only [Image.words, Image.totalSize, Image.offDtStrings, Image.offDtStruct, Image.cut, hreserved,
    hstruct, hgap, hstrings, List.length_drop, fdtHeaderSize, List.cons.injEq, and_true, true_and]
  refine ⟨?_, ?_, ?_, ?_, ?_⟩ <;> omega

/-- The sections follow each other. -/
theorem Image.cut_body (h40 : 40 ≤ os) (horder : os + ss ≤ ot) :
    (Image.cut blob om version comp cpuid os ss ot st).body = blob.drop 40 := by
  rw [drop_eq_take_append_drop blob h40, drop_eq_take_append_drop blob (Nat.le_add_right os ss),
    drop_eq_take_append_drop blob horder, drop_eq_take_append_drop blob (Nat.le_add_right ot st)]
  rfl

end Cut

/-- A blob with its sections in order is an image. -/
theorem Dtb.exists_shows {d : Dtb} {fdt : Fdt} (hview : d.fdtView = .ok fdt)
    (hsize : d.size = d.blob.length) (htotal : d.totalSizeField = d.blob.length)
    (horder : d.offDtStruct + d.sizeDtStruct ≤ d.offDtStrings) :
    ∃ m, d.Shows m := by
  obtain ⟨total, os, ot, om, version, st, ss, hacc⟩ := Fdt.fromPtr_eq_ok (Dtb.fdtView_eq_ok.mp hview)
  -- the header words by their names
  have hword : ∀ {offset value}, readBe32 d.blob offset = some value → d.headerWord offset = value := by
    intro offset value hread
    rw [Dtb.headerWord, hread]
    rfl
  have hos : d.offDtStruct = os := hword hacc.structAt
  have hot : d.offDtStrings = ot := hword hacc.stringsAt
  have hss : d.sizeDtStruct = ss := hword hacc.structSize
  obtain rfl : total = d.blob.length := (hword hacc.total).symm.trans htotal
  rw [hos, hss, hot] at horder
  obtain ⟨h40, -⟩ := hacc.structInside
  obtain ⟨-, hin⟩ := hacc.stringsInside
  have hrsvmap := hacc.rsvmapInside
  simp only [fdtHeaderSize] at h40
  obtain ⟨comp, hcomp⟩ := exists_readBe32 (show 24 + 4 ≤ d.blob.length by omega)
  obtain ⟨cpuid, hcpuid⟩ := exists_readBe32 (show 28 + 4 ≤ d.blob.length by omega)
  let m : Image := Image.cut d.blob om version comp cpuid os ss ot st
  have hwords : m.words = _ := Image.cut_words h40 horder hin
  have hmtotal : m.totalSize = d.blob.length := (List.cons.inj (List.cons.inj hwords).2).1
  have hblob : d.blob = m.bytes := by
    -- the header is its ten words
    have hheader := drop_of_readBe32 hacc.magic
    rw [List.drop_zero, drop_of_readBe32 hacc.total, drop_of_readBe32 hacc.structAt,
      drop_of_readBe32 hacc.stringsAt, drop_of_readBe32 hacc.rsvmapAt,
      drop_of_readBe32 hacc.versionAt, drop_of_readBe32 hcomp, drop_of_readBe32 hcpuid,
      drop_of_readBe32 hacc.stringsSize, drop_of_readBe32 hacc.structSize] at hheader
    rw [Image.bytes, hwords, Image.cut_body h40 horder]
    exact hheader
  refine ⟨m, hblob, by rw [hsize, hmtotal], ⟨?_, hacc.supported, ?_, ?_, ?_, ?_⟩, hacc.pointer⟩
  · rw [hmtotal]
    exact (readsAt_of_readBe32 hacc.total).2
  · exact (readsAt_of_readBe32 hacc.versionAt).2
  · exact (readsAt_of_readBe32 hcomp).2
  · exact (readsAt_of_readBe32 hcpuid).2
  · show om ≤ m.totalSize
    omega

/-- **A well-formed blob is an image that holds its tree.** -/
theorem Dtb.Decodes.exists_image {d : Dtb} {tree : Tree} (h : d.Decodes tree) :
    ∃ m items pad lead trail, d.Shows m ∧ m.Holds d.pointer tree items pad lead trail := by
  obtain ⟨fdt, hview, hmap, hparse⟩ := h.view
  obtain ⟨m, hm⟩ := Dtb.exists_shows hview h.size_eq h.total_eq h.struct_end
  obtain rfl : fdt = m.fdt d.pointer := Except.ok.inj (hview.symm.trans hm.fdtView)
  obtain ⟨items, pad, lead, trail, htext, hpad, hvalid, hcontents, hblock⟩ := hparse
  have hend := h.reserve_end
  rw [hm.offMemRsvmap, hm.offDtStruct] at hend
  exact ⟨m, items, pad, lead, trail, hm, hend, hmap, htext, hpad, hvalid, hcontents, hblock⟩

/-- **An image that holds a tree is a well-formed blob.** -/
theorem Image.Holds.decodes {d : Dtb} {m : Image} {tree : Tree} {items : Items} {pad : Bytes}
    {lead trail : Nat} (h : m.Holds d.pointer tree items pad lead trail) (hm : d.Shows m) :
    d.Decodes tree := by
  refine ⟨?_, ?_, ?_, ?_, ?_⟩
  · rw [hm.size, hm.blob, m.bytes_length]
  · rw [hm.totalSizeField, hm.blob, m.bytes_length]
  · exact ⟨m.fdt d.pointer, hm.fdtView, h.reserveMap, items, pad, lead, trail, h.text, h.padded,
      h.valid, h.contents, h.block⟩
  · rw [hm.offMemRsvmap, hm.offDtStruct]
    exact h.reserveEnd
  · rw [hm.offDtStruct, hm.sizeDtStruct, hm.offDtStrings, Image.offDtStrings]
    omega

/-- A root node that the reader finds stands at the front of the block. -/
theorem Image.Holds.lead_eq_zero {m : Image} {base : Nat} {tree : Tree} {items : Items} {pad : Bytes}
    {lead trail : Nat} (h : m.Holds base tree items pad lead trail) {root : FdtNode}
    (hroot : (m.fdt base).rootNode = some root) : lead = 0 := by
  cases lead with
  | zero => rfl
  | succ lead =>
      -- the block starts with a no-op, which is no begin token
      have htoken : (m.fdt base).readToken 0 = some fdtNop := by
        have hblock := h.block
        rw [nops, List.append_assoc] at hblock
        exact Fdt.readToken_of_readsAt ⟨[], _, hblock, rfl⟩ (by decide)
      simp [Fdt.rootNode, Fdt.nodeAtOffset, htoken, fdtNop, fdtBeginNode] at hroot

theorem Image.Holds.nodeAt {m : Image} {base : Nat} {tree : Tree} {items : Items} {pad : Bytes}
    {trail : Nat} (h : m.Holds base tree items pad 0 trail) :
    (m.fdt base).NodeAt 0 tree.rootName pad items := by
  refine ⟨rfl, h.text, h.padded, h.valid, [], nops trail ++ be32 fdtEnd, ?_, rfl⟩
  show m.structureBlock = _
  rw [h.block]
  simp only [nops, List.nil_append, List.append_assoc]

/-- **A path that `find_node` resolves leads to a node of the image**; an edit of its
    contents is an edit of the bytes between those before and behind them. -/
theorem Image.Holds.resolve {m : Image} {base : Nat} {tree : Tree} {items : Items} {pad path : Bytes}
    {lead trail : Nat} {node : FdtNode} (h : m.Holds base tree items pad lead trail)
    (hnamed : (items.contents (m.fdt base).stringAt).Named)
    (hnode : (m.fdt base).findNode path = some node) :
    lead = 0 ∧ IsAbsolute path ∧ (∀ component ∈ pathComponents path, component ≠ [])
      ∧ ∃ inner n p before after, items.itemsAt (pathComponents path) = some inner
        ∧ node = spanNode before.length n p inner ∧ (m.fdt base).NodeAt before.length n p inner
        ∧ (inner.contents (m.fdt base).stringAt).Named
        ∧ ∀ edit : Items → Items,
            nodeHead tree.rootName pad ++ ((items.modifyAt edit (pathComponents path)).flat
                ++ (be32 fdtEndNode ++ (nops trail ++ be32 fdtEnd)))
              = (before ++ nodeHead n p) ++ ((edit inner).flat
                ++ (be32 fdtEndNode ++ (after ++ (nops trail ++ be32 fdtEnd)))) := by
  obtain ⟨habsolute, root, hroot, hdescend⟩ := Fdt.findNode_eq_some.mp hnode
  obtain rfl := h.lead_eq_zero hroot
  have hrootAt := h.nodeAt
  rw [Fdt.rootNode, hrootAt.nodeAtOffset] at hroot
  cases hroot
  obtain ⟨hpath, inner, hinner⟩ := hrootAt.itemsAt_of_descend hdescend
  obtain ⟨n, p, before, after, hfound, hinnerAt, hedited⟩ := hrootAt.descend_some hpath hinner
  rw [Nat.zero_add] at hfound hinnerAt
  rw [hfound] at hdescend
  refine ⟨rfl, habsolute, hpath, inner, n, p, before, after, hinner, (Option.some.inj hdescend).symm,
    hinnerAt, Items.named_itemsAt hnamed hinner, ?_⟩
  intro edit
  have hbytes := congrArg (fun bytes => bytes ++ (nops trail ++ be32 fdtEnd)) (hedited edit)
  simpa only [List.append_assoc] using hbytes

/-- The bytes around the addressed node's contents. -/
theorem Image.Holds.block_around {m : Image} {base : Nat} {tree : Tree} {items inner : Items}
    {pad path front back : Bytes} {trail : Nat} (h : m.Holds base tree items pad 0 trail)
    (hblock : ∀ edit : Items → Items,
      nodeHead tree.rootName pad ++ ((items.modifyAt edit (pathComponents path)).flat
          ++ (be32 fdtEndNode ++ (nops trail ++ be32 fdtEnd)))
        = front ++ ((edit inner).flat ++ back)) :
    m.structureBlock = front ++ (inner.flat ++ back) := by
  have hsame := h.block
  rw [nops, List.nil_append] at hsame
  rw [hsame, ← hblock (fun c => c), Items.modifyAt_self]

/-- The reserve map stands in the bytes between the header and the structure block. -/
theorem Image.reserveMap_eq (m : Image) (base : Nat) (hbehind : fdtHeaderSize ≤ m.offMemRsvmap)
    (hend : m.offMemRsvmap ≤ m.offDtStruct) :
    (m.fdt base).reserveMap = m.reserved.drop (m.offMemRsvmap - fdtHeaderSize)
      ++ (m.structureBlock ++ (m.gap ++ (m.strings ++ m.free))) := by
  have hheader : (wordBytes m.words).length = fdtHeaderSize := by simp [Image.words, fdtHeaderSize]
  have hle : m.offMemRsvmap - fdtHeaderSize ≤ m.reserved.length := by
    rw [Image.offDtStruct] at hend
    omega
  show (wordBytes m.words ++ m.body).drop m.offMemRsvmap = _
  rw [List.drop_append, List.drop_eq_nil_of_le (by omega), List.nil_append, hheader, Image.body,
    List.drop_append_of_le_length hle]

/-- Edits keep a reserve map behind the header: they leave the bytes between the
    header and the structure block alone. -/
theorem Image.Holds.edit {m m' : Image} {base : Nat} {tree : Tree} {items items' : Items}
    {pad : Bytes} {lead trail : Nat} {contents : Contents}
    (h : m.Holds base tree items pad lead trail) (hbehind : fdtHeaderSize ≤ m.offMemRsvmap)
    (hrsvmap : m'.offMemRsvmap = m.offMemRsvmap)
    (hreserved : m'.reserved = m.reserved) (hvalid : items'.Valid)
    (hcontents : items'.contents (m'.fdt base).stringAt = contents)
    (hblock : m'.structureBlock = nops lead ++ (nodeHead tree.rootName pad ++ (items'.flat
      ++ (be32 fdtEndNode ++ (nops trail ++ be32 fdtEnd))))) :
    m'.Holds base { tree with contents := contents } items' pad lead trail := by
  have hend := h.reserveEnd
  have hstruct : m'.offDtStruct = m.offDtStruct := by
    rw [Image.offDtStruct, Image.offDtStruct, hreserved]
  refine ⟨by rw [hrsvmap, hstruct]; exact hend, ?_, h.text, h.padded,
    hvalid, hcontents, hblock⟩
  have hmap' := m'.reserveMap_eq base (by omega) (by omega)
  rw [hrsvmap, hreserved] at hmap'
  refine h.reserveMap.of_append (m.reserveMap_eq base hbehind (by omega)) hmap' ?_
  rw [List.length_drop]
  rw [Image.offDtStruct] at hend
  omega

/-- More free space leaves the tree as it is, wherever the blob is. -/
theorem Image.Holds.moreFree {m : Image} {base : Nat} {tree : Tree} {items : Items} {pad : Bytes}
    {lead trail : Nat} (h : m.Holds base tree items pad lead trail) (base' : Nat)
    (hbehind : fdtHeaderSize ≤ m.offMemRsvmap) (zeros : Bytes) :
    Image.Holds { m with free := m.free ++ zeros } base' tree items pad lead trail := by
  have hmore : Image.Holds { m with free := m.free ++ zeros } base tree items pad lead trail :=
    h.edit hbehind rfl rfl h.valid h.contents h.block
  exact ⟨hmore.reserveEnd, hmore.reserveMap, hmore.text, hmore.padded, hmore.valid, hmore.contents,
    hmore.block⟩

/-! ## §5. A small blob. -/

/-- An empty root node, the string `reg`, one all-zero entry in front of the
    structure block, and some free space. -/
def smallImage (offMemRsvmap : Nat) : Image where
  offMemRsvmap    := offMemRsvmap
  version         := 17
  lastCompVersion := 16
  bootCpuid       := 0
  reserved        := List.replicate 16 0
  structureBlock  := nops 0 ++ (nodeHead [] [0, 0, 0] ++ (Items.nil.flat
    ++ (be32 fdtEndNode ++ (nops 0 ++ be32 fdtEnd))))
  gap             := []
  strings         := ascii "reg" ++ [0]
  free            := List.replicate 40 0

def smallDtb (offMemRsvmap : Nat) : Dtb where
  pointer := 0x80008000
  blob    := (smallImage offMemRsvmap).bytes
  size    := (smallImage offMemRsvmap).totalSize

def smallTree (reserveMap : List FdtReserveEntry) : Tree where
  reserveMap := reserveMap
  rootName   := []
  contents   := .nil

theorem smallDtb_shows {offMemRsvmap : Nat} (h : offMemRsvmap ≤ 40) :
    (smallDtb offMemRsvmap).Shows (smallImage offMemRsvmap) := by
  have htotal : (smallImage offMemRsvmap).totalSize = 116 := rfl
  have hpointer : validateDtbPointer 0x80008000 = .ok () := by decide +kernel
  refine ⟨rfl, rfl, ⟨?_, ?_, ?_, ?_, ?_, ?_⟩, hpointer⟩
  · rw [htotal]
    decide
  · show 17 ≤ 17
    decide
  · show 17 < 2 ^ 32
    decide
  · show 16 < 2 ^ 32
    decide
  · show 0 < 2 ^ 32
    decide
  · rw [htotal]
    show offMemRsvmap ≤ 116
    omega

/-- The small blob is well formed if its reserve map ends before the structure block. -/
theorem smallDtb_encodes {offMemRsvmap : Nat} {entries : List FdtReserveEntry}
    (hend : offMemRsvmap + 16 * (entries.length + 1) ≤ 56)
    (hmap : ((smallImage offMemRsvmap).fdt 0x80008000).ReserveMap entries) :
    (smallDtb offMemRsvmap).Encodes (smallTree entries) := by
  have hm := smallDtb_shows (show offMemRsvmap ≤ 40 by omega)
  have hh : (smallImage offMemRsvmap).Holds 0x80008000 (smallTree entries) .nil [0, 0, 0] 0 0 :=
    ⟨hend, hmap, ⟨by simp [smallTree], rfl⟩, by simp [smallTree, padLength, align4], trivial, rfl, rfl⟩
  refine (hh.decodes hm).encodes ?_
  rw [hm.blob, Image.bytes_length]
  show 116 < 2 ^ 31
  decide

theorem smallDtb_regular {offMemRsvmap : Nat} (h : offMemRsvmap ≤ 40)
    (entries : List FdtReserveEntry) : (smallDtb offMemRsvmap).Regular (smallTree entries) := by
  refine ⟨trivial, trivial, ?_⟩
  intro fdt hview
  rw [(smallDtb_shows h).fdtView] at hview
  cases hview
  show Terminated (ascii "reg" ++ [0])
  exact ⟨.inr (by decide), by decide⟩

/-- With the reserve map behind the header it is empty. -/
theorem smallDtb_encodes_empty : (smallDtb 40).Encodes (smallTree []) :=
  smallDtb_encodes (by decide) ⟨fun index entry h => by simp at h, by decide +kernel⟩

/-- A reserve map that starts inside the header reads its first entry from the header
    fields: the sizes of the strings and of the structure block. -/
def headerEntry (sizeDtStruct : Nat) : FdtReserveEntry where
  address := 16 * 2 ^ 32
  size    := 4 * 2 ^ 32 + sizeDtStruct

theorem smallDtb_encodes_header : (smallDtb 24).Encodes (smallTree [headerEntry 16]) := by
  refine smallDtb_encodes (by decide) ⟨?_, by decide +kernel⟩
  intro index entry h
  cases index with
  | zero =>
      cases h
      decide +kernel
  | succ index => simp at h

/-! ## §6. A blob with a tree. -/

/-- A property in the root, `memory` with its range, and `serial` below `soc`. -/
def boardItems : Items :=
  Items.property 4 (ascii "virt" ++ [0])
    (Items.child (ascii "memory") (Items.property 0 (be32 0x80000000 ++ be32 0x10000) .nil)
      (Items.child (ascii "soc") (Items.child (ascii "serial") .nil .nil) .nil))

/-- An entry of the reserve map. -/
def boardReserved : FdtReserveEntry where
  address := 0x80001000
  size    := 0x2000

/-- A blob with a reserve entry, that tree, and free space. -/
def boardImage : Image where
  offMemRsvmap    := 40
  version         := 17
  lastCompVersion := 16
  bootCpuid       := 0
  reserved        := be64 0x80001000 ++ be64 0x2000 ++ List.replicate 16 0
  structureBlock  := nops 0 ++ (nodeHead [] [0, 0, 0] ++ (boardItems.flat
    ++ (be32 fdtEndNode ++ (nops 0 ++ be32 fdtEnd))))
  gap             := []
  strings         := ascii "reg" ++ [0] ++ ascii "model" ++ [0]
  free            := List.replicate 40 0

def boardDtb : Dtb where
  pointer := 0x80008000
  blob    := boardImage.bytes
  size    := boardImage.totalSize

def boardTree : Tree where
  reserveMap := [boardReserved]
  rootName   := []
  contents   := .prop (some (ascii "model")) (ascii "virt" ++ [0])
    (.node (ascii "memory") (.prop (some (ascii "reg")) (be32 0x80000000 ++ be32 0x10000) .nil)
      (.node (ascii "soc") (.node (ascii "serial") .nil .nil) .nil))

theorem boardDtb_shows : boardDtb.Shows boardImage :=
  ⟨rfl, rfl, by decide +kernel, by decide +kernel⟩

theorem boardImage_holds : boardImage.Holds 0x80008000 boardTree boardItems [0, 0, 0] 0 0 := by
  have hmap : (boardImage.fdt 0x80008000).ReserveMap [boardReserved] := by
    refine ⟨?_, by decide +kernel⟩
    intro index entry h
    cases index with
    | zero =>
        cases h
        decide +kernel
    | succ index => simp at h
  exact ⟨by decide +kernel, hmap, by decide, by decide, by decide, by decide +kernel, rfl⟩

theorem boardDtb_encodes : boardDtb.Encodes boardTree := by
  refine (boardImage_holds.decodes boardDtb_shows).encodes ?_
  rw [boardDtb_shows.blob]
  decide +kernel

theorem boardDtb_regular : boardDtb.Regular boardTree := by
  refine ⟨⟨trivial, trivial, ⟨trivial, trivial, trivial⟩, trivial, trivial⟩,
    ⟨rfl, ⟨rfl, trivial⟩, ⟨trivial, trivial⟩, trivial⟩, ?_⟩
  intro fdt hview
  rw [boardDtb_shows.fdtView] at hview
  cases hview
  show Terminated (ascii "reg" ++ [0] ++ ascii "model" ++ [0])
  exact ⟨.inr (by decide), by decide⟩

end RustFirmware.DeviceTree
