/-
  RustFirmware.DeviceTree.Footprints
  ──────────────────────────────────
  **WHICH BYTES AN EDIT WRITES, WHATEVER THE ORDER OF THE BLOCKS.**

  `from_ptr` lets the reserve map, the structure block and the strings stand in
  any order, with gaps and overlaps.  Nothing here assumes an order: a blob is
  its bytes, an edit has a footprint (`Frame`), and what the reader sees of the
  reserve map and the strings are bytes at certain offsets.

  An append writes behind the used bytes; a splice moves all bytes from its end up
  to the used end.  Where the footprint misses the reserve map and the splice
  ends in front of the strings, both read as before (`Keeps`).
-/
import RustFirmware.DeviceTree.Edit
import RustFirmware.DeviceTree.Checked

namespace RustFirmware.DeviceTree

open RustFirmware.Lib

/-! ## §1. Accepted blobs. -/

/-- **`from_ptr` accepts the blob**, and the editor knows its size. -/
structure Dtb.Accepted (d : Dtb) : Prop where
  pointer       : validateDtbPointer d.pointer = .ok ()
  size          : d.size = d.blob.length
  magic         : readBe32 d.blob 0 = some fdtMagic
  total         : readBe32 d.blob 4 = some d.blob.length
  version       : ∃ version, readBe32 d.blob 20 = some version ∧ 17 ≤ version
  header        : fdtHeaderSize ≤ d.blob.length
  rsvmapInside  : d.offMemRsvmap ≤ d.blob.length
  structInside  : fdtHeaderSize ≤ d.offDtStruct ∧ d.structureEndOffset ≤ d.blob.length
  stringsInside : fdtHeaderSize ≤ d.offDtStrings ∧ d.usedBlobEndOffset ≤ d.blob.length

/-- The sections as the header places them. -/
def Dtb.view (d : Dtb) : Fdt where
  base           := d.pointer
  totalSize      := d.blob.length
  reserveMap     := d.blob.drop d.offMemRsvmap
  structureBlock := (d.blob.drop d.offDtStruct).take d.sizeDtStruct
  strings        := (d.blob.drop d.offDtStrings).take d.sizeDtStrings

namespace Dtb

variable {d d' : Dtb}

theorem Accepted.readWord (h : d.Accepted) {offset : Nat} (hoffset : offset + 4 ≤ fdtHeaderSize) :
    readBe32 d.blob offset = some (d.headerWord offset) := by
  obtain ⟨value, hvalue⟩ := exists_readBe32 (Nat.le_trans hoffset h.header)
  rw [headerWord, hvalue, Option.getD_some]

theorem Accepted.small (h : d.Accepted) : d.blob.length < 2 ^ 32 := (readsAt_of_readBe32 h.total).2

theorem Accepted.fdtView (h : d.Accepted) : d.fdtView = .ok d.view := by
  have hstruct := h.structInside
  have hstrings := h.stringsInside
  have hrsvmap := h.rsvmapInside
  have hheader := h.header
  obtain ⟨version, hversion, hsupported⟩ := h.version
  have hview : Fdt.fromPtr d.pointer d.blob = .ok d.view := by
    unfold Fdt.fromPtr
    simp only [h.pointer, h.magic, h.total, hversion, h.readWord (show 8 + 4 ≤ 40 by decide),
      h.readWord (show 12 + 4 ≤ 40 by decide), h.readWord (show 16 + 4 ≤ 40 by decide),
      h.readWord (show 32 + 4 ≤ 40 by decide), h.readWord (show 36 + 4 ≤ 40 by decide), okOr, bind,
      Except.bind]
    unfold structureEndOffset at hstruct
    unfold usedBlobEndOffset at hstrings
    simp only [offDtStruct, sizeDtStruct, offDtStrings, sizeDtStrings, offMemRsvmap] at *
    rw [if_neg (not_not.mpr rfl), if_neg (by omega), if_neg (by omega), if_neg (by omega),
      if_neg (by omega), List.take_length]
    rfl
  rw [Dtb.fdtView, hview]

/-- A blob of the size that its header states. -/
theorem accepted_of_accepts {fdt : Fdt} {os ot om version st ss : Nat}
    (h : Fdt.Accepts d.pointer d.blob fdt d.blob.length os ot om version st ss)
    (hsize : d.size = d.blob.length) : d.Accepted := by
  have hstruct := h.structInside
  have hword : ∀ {offset value : Nat}, readBe32 d.blob offset = some value →
      d.headerWord offset = value := by
    intro offset value hvalue
    rw [headerWord, hvalue, Option.getD_some]
  refine ⟨h.pointer, hsize, h.magic, h.total, ⟨version, h.versionAt, h.supported⟩, by omega, ?_, ?_, ?_⟩
  · rw [offMemRsvmap, hword h.rsvmapAt]
    exact h.rsvmapInside
  · rw [structureEndOffset, offDtStruct, sizeDtStruct, hword h.structAt, hword h.structSize]
    exact hstruct
  · rw [usedBlobEndOffset, offDtStrings, sizeDtStrings, hword h.stringsAt, hword h.stringsSize]
    exact h.stringsInside

theorem accepted_of_fdtView {fdt : Fdt} (hview : d.fdtView = .ok fdt) (hsize : d.size = d.blob.length)
    (htotal : readBe32 d.blob 4 = some d.blob.length) : d.Accepted := by
  obtain ⟨total, os, ot, om, version, st, ss, h⟩ := Fdt.fromPtr_eq_ok (fdtView_eq_ok.mp hview)
  obtain rfl : total = d.blob.length := Option.some.inj (h.total.symm.trans htotal)
  exact accepted_of_accepts h hsize

/-- What `from_ptr` makes of a whole blob. -/
theorem accepted_of_fromPtr {pointer : Nat} {memory : Bytes} (h : Dtb.fromPtr pointer memory = .ok d)
    (hwhole : d.size ≤ memory.length) : d.Accepted := by
  unfold Dtb.fromPtr at h
  cases hfdt : Fdt.fromPtr pointer memory with
  | error e =>
      rw [hfdt] at h
      cases h
  | ok fdt =>
      rw [hfdt] at h
      cases h
      obtain ⟨total, os, ot, om, version, st, ss, ha⟩ := Fdt.fromPtr_eq_ok hfdt
      have hstruct := ha.structInside
      have htotal : fdt.totalSize = total := by rw [ha.result]
      rw [htotal] at hwhole ⊢
      have hlength : (memory.take total).length = total := List.length_take_of_le hwhole
      -- the header is in the part that is kept
      have hread : ∀ {offset value : Nat}, offset + 4 ≤ 40 →
          readBe32 memory offset = some value → readBe32 (memory.take total) offset = some value := by
        intro offset value hoffset hvalue
        have hinside : offset + 4 ≤ (memory.take total).length := by
          have h40 : 40 ≤ os := hstruct.1
          omega
        have hsame := @slice_append (memory.take total) offset (offset + 4) hinside (memory.drop total)
        rw [List.take_append_drop] at hsame
        rw [readBe32, ← hsame]
        exact hvalue
      obtain ⟨fdt', hblob⟩ : ∃ fdt', Fdt.Accepts pointer (memory.take total) fdt'
          (memory.take total).length os ot om version st ss := by
        rw [hlength]
        exact ⟨_, ha.pointer, hread (by decide) ha.magic, hread (by decide) ha.total,
          hread (by decide) ha.structAt, hread (by decide) ha.stringsAt, hread (by decide) ha.rsvmapAt,
          hread (by decide) ha.versionAt, hread (by decide) ha.stringsSize,
          hread (by decide) ha.structSize, ha.supported, ha.rsvmapInside, ha.structInside,
          ha.stringsInside, rfl⟩
      exact accepted_of_accepts hblob hlength.symm

/-! ## §2. What stays readable. -/

/-- **The reserve map and the strings read as before**: the entries up to the one that
    ends the map, and every string of the block, where it was. -/
structure Keeps (d d' : Dtb) : Prop where
  accepted : d'.Accepted
  entries  : ∀ index, (∀ j < index, (d.view.reserveEntry j).isSome) →
      d'.view.reserveEntry index = d.view.reserveEntry index
  strings  : ∀ offset name, d.view.stringAt offset = some name →
      d'.view.stringAt offset = some name

theorem Accepted.keeps_refl (h : d.Accepted) : d.Keeps d := ⟨h, fun _ _ => rfl, fun _ _ hs => hs⟩

theorem Keeps.isSome_of (h : d.Keeps d') {index : Nat}
    (hentries : ∀ j < index, (d'.view.reserveEntry j).isSome) :
    ∀ j < index, (d.view.reserveEntry j).isSome := by
  intro j
  induction j using Nat.strong_induction_on with
  | _ j ih =>
      intro hj
      rw [← h.entries j (fun k hk => ih k hk (Nat.lt_trans hk hj))]
      exact hentries j hj

theorem Keeps.trans {d₁ : Dtb} (h : d.Keeps d₁) (h' : d₁.Keeps d') : d.Keeps d' := by
  refine ⟨h'.accepted, ?_, fun offset name hs => h'.strings offset name (h.strings offset name hs)⟩
  intro index hentries
  rw [h'.entries index ?_, h.entries index hentries]
  intro j hj
  rw [h.entries j (fun k hk => hentries k (Nat.lt_trans hk hj))]
  exact hentries j hj

/-- A whole map is read again. -/
theorem Keeps.reserveMap (h : d.Keeps d') {entries : List FdtReserveEntry}
    (hmap : d.view.ReserveMap entries) : d'.view.ReserveMap entries := by
  obtain ⟨hentries, hend⟩ := hmap
  have hsome : ∀ index ≤ entries.length, ∀ j < index, (d.view.reserveEntry j).isSome := by
    intro index hindex j hj
    rw [hentries j _ (List.getElem?_eq_getElem (by omega))]
    rfl
  constructor
  · intro index entry hentry
    have hlt := (List.getElem?_eq_some_iff.mp hentry).1
    rw [h.entries index (hsome index (Nat.le_of_lt hlt))]
    exact hentries index entry hentry
  · rw [h.entries _ (hsome _ (Nat.le_refl _))]
    exact hend

/-- The byte at `i` belongs to the reserve map: to an entry, or to the one that ends
    it. -/
def InReserveMap (d : Dtb) (i : Nat) : Prop :=
  ∃ index, (∀ j < index, (d.view.reserveEntry j).isSome)
    ∧ d.offMemRsvmap + 16 * index ≤ i ∧ i < d.offMemRsvmap + 16 * index + 16
    ∧ d.offMemRsvmap + 16 * index + 16 ≤ d.blob.length

theorem reserveEntry_outside {index : Nat}
    (h : d.blob.length < d.offMemRsvmap + 16 * index + 16) : d.view.reserveEntry index = none := by
  cases hentry : d.view.reserveEntry index with
  | none => rfl
  | some entry =>
      have hbounds := Fdt.reserveEntry_bounds hentry
      simp only [view, List.length_drop] at hbounds
      omega

/-- An entry is its sixteen bytes. -/
theorem reserveEntry_congr (hlength : d'.blob.length = d.blob.length)
    (hmap : d'.offMemRsvmap = d.offMemRsvmap) {index : Nat}
    (hbytes : d.offMemRsvmap + 16 * index + 16 ≤ d.blob.length →
      ∀ i, d.offMemRsvmap + 16 * index ≤ i → i < d.offMemRsvmap + 16 * index + 16 →
        d'.blob[i]? = d.blob[i]?) :
    d'.view.reserveEntry index = d.view.reserveEntry index := by
  have hlength' : d'.view.reserveMap.length = d.view.reserveMap.length := by
    simp only [view, List.length_drop, hlength, hmap]
  by_cases hin : d.offMemRsvmap + 16 * index + 16 ≤ d.blob.length
  · have hread : ∀ lo, 16 * index ≤ lo → lo + 8 ≤ 16 * index + 16 →
        readBe64 d'.view.reserveMap lo = readBe64 d.view.reserveMap lo := by
      intro lo hlo hhi
      rw [readBe64, readBe64, slice_congr hlength']
      intro i hi hi'
      simp only [view, List.getElem?_drop, hmap]
      exact hbytes hin _ (by omega) (by omega)
    unfold Fdt.reserveEntry
    cases hoffset : checkedMul 64 index 16 with
    | none => rfl
    | some offset =>
        obtain ⟨-, rfl⟩ := checkedMul_eq_some.mp hoffset
        simp only [Option.bind_eq_bind, Option.bind_some]
        rw [hread _ (by omega) (by omega), hread _ (by omega) (by omega)]
  · rw [@reserveEntry_outside d _ (by omega), @reserveEntry_outside d' _ (by omega)]

/-! ## §3. Footprints. -/

/-- From `d` to `d'` at most the bytes of `written` have changed. -/
structure Frame (d d' : Dtb) (written : Nat → Prop) : Prop where
  pointer : d'.pointer = d.pointer
  size    : d'.size = d.size
  length  : d'.blob.length = d.blob.length
  bytes   : ∀ i, ¬ written i → d'.blob[i]? = d.blob[i]?

theorem Frame.trans {d₁ : Dtb} {written written' : Nat → Prop} (h : d.Frame d₁ written)
    (h' : d₁.Frame d' written') : d.Frame d' (fun i => written i ∨ written' i) where
  pointer := h'.pointer.trans h.pointer
  size    := h'.size.trans h.size
  length  := h'.length.trans h.length
  bytes   := by
    intro i hi
    rw [h'.bytes i (fun hw => hi (.inr hw)), h.bytes i (fun hw => hi (.inl hw))]

theorem Frame.mono {written written' : Nat → Prop} (h : d.Frame d' written)
    (hsub : ∀ i, written i → written' i) : d.Frame d' written' :=
  ⟨h.pointer, h.size, h.length, fun i hi => h.bytes i (fun hw => hi (hsub i hw))⟩

/-- A write inside the blob. -/
theorem frame_overwrite {offset : Nat} {bytes : Bytes} (h : offset + bytes.length ≤ d.blob.length) :
    d.Frame { d with blob := overwrite d.blob offset bytes }
      (fun i => offset ≤ i ∧ i < offset + bytes.length) where
  pointer := rfl
  size    := rfl
  length  := overwrite_length h
  bytes   := by
    intro i hi
    rw [overwrite_getElem? h, if_neg hi]

theorem Frame.readBe32 {written : Nat → Prop} (h : d.Frame d' written) {offset : Nat}
    (hfree : ∀ i, offset ≤ i → i < offset + 4 → ¬ written i) :
    Lib.readBe32 d'.blob offset = Lib.readBe32 d.blob offset := by
  rw [Lib.readBe32, Lib.readBe32, slice_congr h.length]
  intro i hlo hhi
  exact h.bytes i (hfree i hlo hhi)

theorem Frame.headerWord {written : Nat → Prop} (h : d.Frame d' written) {offset : Nat}
    (hfree : ∀ i, offset ≤ i → i < offset + 4 → ¬ written i) :
    d'.headerWord offset = d.headerWord offset := by
  rw [Dtb.headerWord, Dtb.headerWord, h.readBe32 hfree]

/-- The header words that an edit may change: the place of the strings, and the two
    sizes. -/
def SparesHeader (written : Nat → Prop) : Prop :=
  ∀ i < fdtHeaderSize, written i → (12 ≤ i ∧ i < 16) ∨ 32 ≤ i

theorem Frame.spared {written : Nat → Prop} (h : d.Frame d' written) (hspares : SparesHeader written)
    {offset : Nat} (hoffset : offset + 4 ≤ 12 ∨ 16 ≤ offset ∧ offset + 4 ≤ 32) :
    Lib.readBe32 d'.blob offset = Lib.readBe32 d.blob offset := by
  apply h.readBe32
  intro i hlo hhi hw
  have hin := hspares i (show i < 40 by omega) hw
  omega

theorem Frame.spared_word {written : Nat → Prop} (h : d.Frame d' written)
    (hspares : SparesHeader written) {offset : Nat}
    (hoffset : offset + 4 ≤ 12 ∨ 16 ≤ offset ∧ offset + 4 ≤ 32) :
    d'.headerWord offset = d.headerWord offset := by
  rw [Dtb.headerWord, Dtb.headerWord, h.spared hspares hoffset]

/-- The blob is accepted again where its blocks are inside it. -/
theorem Accepted.of_frame (h : d.Accepted) {written : Nat → Prop} (hframe : d.Frame d' written)
    (hspares : SparesHeader written) (hstruct : d'.structureEndOffset ≤ d'.blob.length)
    (hstrings : fdtHeaderSize ≤ d'.offDtStrings ∧ d'.usedBlobEndOffset ≤ d'.blob.length) :
    d'.Accepted := by
  have hlength := hframe.length
  obtain ⟨version, hversion, hsupported⟩ := h.version
  refine ⟨hframe.pointer ▸ h.pointer, hframe.size.trans (h.size.trans hlength.symm), ?_, ?_,
    ⟨version, ?_, hsupported⟩, hlength ▸ h.header, ?_, ⟨?_, hstruct⟩, hstrings⟩
  · rw [hframe.spared hspares (.inl (by decide))]
    exact h.magic
  · rw [hframe.spared hspares (.inl (by decide)), hlength]
    exact h.total
  · rw [hframe.spared hspares (.inr (by decide))]
    exact hversion
  · rw [offMemRsvmap, hframe.spared_word hspares (.inr (by decide)), hlength]
    exact h.rsvmapInside
  · rw [offDtStruct, hframe.spared_word hspares (.inl (by decide))]
    exact h.structInside.1

/-- **An edit clear of the reserve map, where the strings stand behind it.** -/
theorem Accepted.keeps (haccepted : d'.Accepted) {written : Nat → Prop} (hframe : d.Frame d' written)
    (hspares : SparesHeader written) (hmap : ∀ i, d.InReserveMap i → ¬ written i)
    (hmore : d.sizeDtStrings ≤ d'.sizeDtStrings)
    (hsame : ∀ i < d.sizeDtStrings, d'.blob[d'.offDtStrings + i]? = d.blob[d.offDtStrings + i]?) :
    d.Keeps d' := by
  have hlength := hframe.length
  have hrsvmap : d'.offMemRsvmap = d.offMemRsvmap := hframe.spared_word hspares (.inr (by decide))
  refine ⟨haccepted, ?_, ?_⟩
  · intro index hentries
    apply reserveEntry_congr hlength hrsvmap
    intro hin i hlo hhi
    exact hframe.bytes i (hmap i ⟨index, hentries, hlo, hhi, hin⟩)
  · intro offset name hname
    have hprefix : d'.view.strings = d.view.strings
        ++ ((d'.blob.drop d'.offDtStrings).drop d.sizeDtStrings).take
          (d'.sizeDtStrings - d.sizeDtStrings) := by
      show (d'.blob.drop d'.offDtStrings).take d'.sizeDtStrings = _
      conv_lhs => rw [← Nat.add_sub_cancel' hmore, List.take_add]
      rw [take_drop_congr hsame]
      rfl
    exact Fdt.stringAt_append hprefix hname

/-! ## §4. A splice. -/

/-- The bytes that a splice of `oldLen` bytes at `offset` into `newLen` changes. -/
def SpliceWrites (d : Dtb) (offset oldLen newLen i : Nat) : Prop :=
  (offset ≤ i ∧ i < offset + newLen)
    ∨ newLen ≠ oldLen ∧ (offset + newLen ≤ i ∧ i < d.usedBlobEndOffset - oldLen + newLen
      ∨ 12 ≤ i ∧ i < 16 ∨ 36 ≤ i ∧ i < 40)

/-- What a splice that ends inside the used bytes does. -/
structure Spliced (d d' : Dtb) (offset oldLen newLen : Nat) : Prop where
  frame     : d.Frame d' (d.SpliceWrites offset oldLen newLen)
  structSize : d'.sizeDtStruct + oldLen = d.sizeDtStruct + newLen
  stringsAt  : d'.offDtStrings + oldLen = d.offDtStrings + newLen
  moved     : ∀ i, offset + oldLen ≤ i → i < d.usedBlobEndOffset →
      d'.blob[i + newLen - oldLen]? = d.blob[i]?

/-- The move and the zeros of a splice. -/
theorem frame_moved {offset oldLen newLen : Nat} {blob : Bytes}
    (hinUse : offset + oldLen ≤ d.usedBlobEndOffset) (hused : d.usedBlobEndOffset ≤ d.blob.length)
    (hroom : d.usedBlobEndOffset - oldLen + newLen ≤ d.blob.length)
    (hblob : blob = overwrite (moveBytes d.blob (offset + oldLen) (offset + newLen)
      (d.usedBlobEndOffset - (offset + oldLen))) offset (List.replicate newLen 0)) :
    d.Frame { d with blob := blob } (fun i => (offset ≤ i ∧ i < offset + newLen)
        ∨ newLen ≠ oldLen ∧ offset + newLen ≤ i ∧ i < d.usedBlobEndOffset - oldLen + newLen)
      ∧ ∀ i, offset + oldLen ≤ i → i < d.usedBlobEndOffset →
          blob[i + newLen - oldLen]? = d.blob[i]? := by
  have hsrc : offset + oldLen + (d.usedBlobEndOffset - (offset + oldLen)) ≤ d.blob.length := by omega
  have hdst : offset + newLen + (d.usedBlobEndOffset - (offset + oldLen)) ≤ d.blob.length := by omega
  have hmoved := moveBytes_length hsrc hdst
  have hzeros : offset + (List.replicate newLen (0 : UInt8)).length
      ≤ (moveBytes d.blob (offset + oldLen) (offset + newLen)
          (d.usedBlobEndOffset - (offset + oldLen))).length := by
    rw [hmoved, List.length_replicate]
    omega
  have hbytes : ∀ i, ¬ (offset ≤ i ∧ i < offset + newLen) →
      blob[i]? = if offset + newLen ≤ i
          ∧ i < offset + newLen + (d.usedBlobEndOffset - (offset + oldLen)) then
        d.blob[offset + oldLen + (i - (offset + newLen))]?
      else d.blob[i]? := by
    intro i hi
    rw [hblob, overwrite_getElem? hzeros, List.length_replicate, if_neg hi,
      moveBytes_getElem? hsrc hdst]
  refine ⟨⟨rfl, rfl, ?_, ?_⟩, ?_⟩
  · show blob.length = d.blob.length
    rw [hblob, overwrite_length hzeros, hmoved]
  · intro i hi
    show blob[i]? = d.blob[i]?
    rw [hbytes i (fun hin => hi (.inl hin))]
    split_ifs with hin
    · -- bytes that were moved by nothing
      have hsame : newLen = oldLen := by
        by_contra hne
        exact hi (.inr ⟨hne, by omega⟩)
      congr 1
      omega
    · rfl
  · intro i hlo hhi
    rw [hbytes _ (by omega), if_pos (by omega)]
    congr 1
    omega

/-- **`splice_struct_placeholder`, byte by byte.** -/
theorem Accepted.spliced (h : d.Accepted) {offset oldLen newLen : Nat} {u : Unit}
    (hinUse : offset + oldLen ≤ d.usedBlobEndOffset)
    (hok : spliceStructPlaceholder offset oldLen newLen d = (.ok u, d')) :
    d.Spliced d' offset oldLen newLen := by
  obtain ⟨⟨hstart, -⟩, hroom, blob, newSize, newOffset, hsizeLt, hoffsetLt, hblob, hnewSize,
    hnewOffset, rfl⟩ := spliceStructPlaceholder_ok hok
  have hheader : 40 ≤ d.blob.length := h.header
  have h40 : 40 ≤ offset := Nat.le_trans h.structInside.1 hstart
  rw [h.size] at hroom
  obtain ⟨hframe, hmoved⟩ := frame_moved hinUse h.stringsInside.2 hroom hblob
  have hlength : blob.length = d.blob.length := hframe.length
  have hframe36 : Frame { d with blob := blob } { d with blob := overwrite blob 36 (be32 newSize) }
      (fun i => 36 ≤ i ∧ i < 36 + (be32 newSize).length) :=
    frame_overwrite (by show 36 + 4 ≤ blob.length; omega)
  have hlength36 : (overwrite blob 36 (be32 newSize)).length = blob.length := hframe36.length
  have hframe12 : Frame { d with blob := overwrite blob 36 (be32 newSize) }
      { d with blob := overwrite (overwrite blob 36 (be32 newSize)) 12 (be32 newOffset) }
      (fun i => 12 ≤ i ∧ i < 12 + (be32 newOffset).length) :=
    frame_overwrite (by show 12 + 4 ≤ (overwrite blob 36 (be32 newSize)).length; omega)
  simp only [be32_length] at hframe36 hframe12
  -- the words that are read in between are still the old ones
  have hread : ∀ {word}, word + 4 ≤ 40 → Lib.readBe32 blob word = some (d.headerWord word) := by
    intro word hword
    rw [← h.readWord hword]
    exact hframe.readBe32 (by omega)
  have hword36 : headerWord { d with blob := blob } 36 = d.sizeDtStruct :=
    hframe.headerWord (by omega)
  have hword12 : headerWord { d with blob := overwrite blob 36 (be32 newSize) } 12 = d.offDtStrings := by
    rw [hframe36.headerWord (by omega)]
    exact hframe.headerWord (by omega)
  rw [hword36] at hnewSize
  rw [hword12] at hnewOffset
  refine ⟨?_, ?_, ?_, ?_⟩
  · by_cases hsame : newLen = oldLen
    · -- the words are written as they were
      obtain rfl : newSize = d.sizeDtStruct := by omega
      obtain rfl : newOffset = d.offDtStrings := by omega
      have hold36 : overwrite blob 36 (be32 d.sizeDtStruct) = blob :=
        overwrite_self (readsAt_of_readBe32 (hread (by decide))).1
      have hold12 : overwrite blob 12 (be32 d.offDtStrings) = blob :=
        overwrite_self (readsAt_of_readBe32 (hread (by decide))).1
      rw [hold36, hold12]
      exact hframe.mono (fun i hi => hi.imp_right (fun hm => absurd hsame hm.1))
    · refine ((hframe.trans hframe36).trans hframe12).mono ?_
      rintro i ((hi | hi) | hi)
      · exact hi.imp_right (fun hm => ⟨hsame, .inl hm.2⟩)
      · exact .inr ⟨hsame, .inr (.inr hi)⟩
      · exact .inr ⟨hsame, .inr (.inl hi)⟩
  · have hsize : headerWord { d with
        blob := overwrite (overwrite blob 36 (be32 newSize)) 12 (be32 newOffset) } 36 = newSize := by
      rw [hframe12.headerWord (by omega), headerWord,
        readBe32_overwrite (show 36 + 4 ≤ blob.length by omega) hsizeLt, Option.getD_some]
    rw [sizeDtStruct, hsize]
    omega
  · have hoffset : headerWord { d with
        blob := overwrite (overwrite blob 36 (be32 newSize)) 12 (be32 newOffset) } 12 = newOffset := by
      rw [headerWord, readBe32_overwrite
        (show 12 + 4 ≤ (overwrite blob 36 (be32 newSize)).length by omega) hoffsetLt, Option.getD_some]
    rw [offDtStrings, hoffset]
    omega
  · intro i hlo hhi
    rw [hframe12.bytes _ (by omega), hframe36.bytes _ (by omega)]
    exact hmoved i hlo hhi

/-- Bytes written over the ones that were made room for. -/
theorem Spliced.write {offset oldLen newLen : Nat} (h : d.Spliced d' offset oldLen newLen)
    (hheader : fdtHeaderSize ≤ offset) {place : Nat} {bytes : Bytes} (hlo : offset ≤ place)
    (hhi : place + bytes.length ≤ offset + newLen) (hin : place + bytes.length ≤ d'.blob.length) :
    d.Spliced { d' with blob := overwrite d'.blob place bytes } offset oldLen newLen := by
  have h40 : 40 ≤ offset := hheader
  have hwrite := frame_overwrite hin
  refine ⟨(h.frame.trans hwrite).mono ?_, ?_, ?_, ?_⟩
  · rintro i (hi | hi)
    · exact hi
    · exact .inl ⟨by omega, by omega⟩
  · rw [sizeDtStruct, hwrite.headerWord (by omega)]
    exact h.structSize
  · rw [offDtStrings, hwrite.headerWord (by omega)]
    exact h.stringsAt
  · intro i hlo' hhi'
    rw [hwrite.bytes _ (by omega)]
    exact h.moved i hlo' hhi'

theorem sparesHeader_splice {offset : Nat} (h : fdtHeaderSize ≤ offset) (oldLen newLen : Nat) :
    SparesHeader (d.SpliceWrites offset oldLen newLen) := by
  intro i (hi : i < 40) hw
  have h40 : 40 ≤ offset := h
  unfold SpliceWrites at hw
  omega

/-- **A splice in front of the strings, clear of the reserve map.** -/
theorem Accepted.keeps_spliced (h : d.Accepted) {offset oldLen newLen : Nat}
    (hspliced : d.Spliced d' offset oldLen newLen)
    (hinside : d.offDtStruct ≤ offset ∧ offset + oldLen ≤ d.structureEndOffset)
    (hroom : d.usedBlobEndOffset - oldLen + newLen ≤ d.size)
    (hbehind : offset + oldLen ≤ d.offDtStrings)
    (hfits : d.structureEndOffset - oldLen + newLen ≤ d.size)
    (hmap : ∀ i, d.InReserveMap i → ¬ d.SpliceWrites offset oldLen newLen i) : d.Keeps d' := by
  have hframe := hspliced.frame
  have hstructSize := hspliced.structSize
  have hstringsAt := hspliced.stringsAt
  have hlength := hframe.length
  have h40 : 40 ≤ offset := Nat.le_trans h.structInside.1 hinside.1
  have hspares := @sparesHeader_splice d offset h40 oldLen newLen
  have hstructAt : d'.offDtStruct = d.offDtStruct := hframe.spared_word hspares (.inl (by decide))
  have hstringsSize : d'.sizeDtStrings = d.sizeDtStrings := by
    apply hframe.headerWord
    unfold SpliceWrites
    omega
  rw [h.size] at hroom hfits
  unfold structureEndOffset at hinside hfits
  unfold usedBlobEndOffset at hroom
  have haccepted : d'.Accepted := by
    apply h.of_frame hframe hspares
    · rw [structureEndOffset, hstructAt, hlength]
      omega
    · rw [usedBlobEndOffset, hstringsSize, hlength]
      exact ⟨by show 40 ≤ _; omega, by omega⟩
  refine haccepted.keeps hframe hspares hmap (Nat.le_of_eq hstringsSize.symm) ?_
  intro i hi
  rw [← hspliced.moved (d.offDtStrings + i) (by omega)
    (show _ < d.offDtStrings + d.sizeDtStrings by omega)]
  congr 1
  omega

/-! ## §5. An appended name. -/

/-- The search of `find_or_add_string` ends without the name. -/
def Lacks (d : Dtb) (name : Bytes) : Prop :=
  findString (d.blob.take d.size) d.offDtStrings d.sizeDtStrings name (d.sizeDtStrings + 1) 0 = .ok none

instance (d : Dtb) (name : Bytes) : Decidable (d.Lacks name) := inferInstanceAs (Decidable (_ = _))

/-- The bytes that an append of `length` bytes to the strings changes. -/
def AppendWrites (d : Dtb) (length i : Nat) : Prop :=
  (d.usedBlobEndOffset ≤ i ∧ i < d.usedBlobEndOffset + length) ∨ 32 ≤ i ∧ i < 36

/-- What `find_or_add_string` does when it succeeds. -/
theorem findOrAddString_ok {name : Bytes} {nameOffset : Nat}
    (hok : findOrAddString name d = (.ok nameOffset, d')) :
    ¬ d.Lacks name ∧ d' = d
      ∨ d.Lacks name ∧ d.usedBlobEndOffset + (name.length + 1) ≤ d.size
        ∧ d.sizeDtStrings + (name.length + 1) < 2 ^ 32
        ∧ d' = { d with blob := overwrite (overwrite (overwrite d.blob d.usedBlobEndOffset name)
            (d.usedBlobEndOffset + name.length) [0]) 32 (be32 (d.sizeDtStrings + (name.length + 1))) } := by
  simp only [findOrAddString, DtbM.bind_ok, DtbM.read_ok, Except.ok.injEq] at hok
  obtain ⟨_, _, ⟨rfl, rfl⟩, _, _, ⟨rfl, rfl⟩, found, _, ⟨hfound, rfl⟩, hok⟩ := hok
  cases found with
  | some offset =>
      obtain ⟨-, rfl⟩ := DtbM.orThrow_ok.mp hok
      left
      refine ⟨?_, rfl⟩
      intro hlacks
      rw [Lacks, hfound] at hlacks
      cases hlacks
  | none =>
      simp only [DtbM.bind_ok, DtbM.read_ok, DtbM.orThrow_ok, setSizeDtStrings, writeBytes_ok,
        Except.ok.injEq] at hok
      obtain ⟨_, _, ⟨rfl, rfl⟩, _, _, hensure, _, _, hinsert, _, _, hnul, newSize, _, ⟨hnewSize, rfl⟩,
        _, _, rfl, -, rfl⟩ := hok
      obtain ⟨hroom, rfl⟩ := ensureRange_ok hensure
      obtain ⟨-, rfl⟩ := insertBytes_ok hinsert
      obtain ⟨-, rfl⟩ := insertBytes_ok hnul
      obtain ⟨hlt, rfl⟩ := u32OrOverflow_eq_some.mp hnewSize
      exact .inr ⟨hfound, hroom, hlt, rfl⟩

/-- What an append does. -/
structure Appended (d d' : Dtb) (length : Nat) : Prop where
  frame       : d.Frame d' (d.AppendWrites length)
  stringsSize : d'.sizeDtStrings = d.sizeDtStrings + length

/-- **The append of `find_or_add_string`, byte by byte.** -/
theorem Accepted.appended (h : d.Accepted) {name : Bytes}
    (hroom : d.usedBlobEndOffset + (name.length + 1) ≤ d.size)
    (hsmall : d.sizeDtStrings + (name.length + 1) < 2 ^ 32)
    (hd' : d' = { d with blob := overwrite (overwrite (overwrite d.blob d.usedBlobEndOffset name)
        (d.usedBlobEndOffset + name.length) [0]) 32 (be32 (d.sizeDtStrings + (name.length + 1))) }) :
    d.Appended d' (name.length + 1) := by
  have hheader : 40 ≤ d.blob.length := h.header
  rw [h.size] at hroom
  let named : Bytes := overwrite d.blob d.usedBlobEndOffset name
  let ended : Bytes := overwrite named (d.usedBlobEndOffset + name.length) [0]
  have hname : d.Frame { d with blob := named } _ :=
    frame_overwrite (show _ + name.length ≤ d.blob.length by omega)
  have hnamed : named.length = d.blob.length := hname.length
  have hnul : Frame { d with blob := named } { d with blob := ended } _ :=
    frame_overwrite (show _ + 1 ≤ named.length by omega)
  have hended : ended.length = named.length := hnul.length
  have hword : Frame { d with blob := ended } d' (fun i => 32 ≤ i ∧ i < 36) := by
    rw [hd']
    exact frame_overwrite (show 32 + 4 ≤ ended.length by omega)
  constructor
  · refine ((hname.trans hnul).trans hword).mono ?_
    unfold AppendWrites
    rintro i ((⟨hlo, hhi⟩ | ⟨hlo, hhi⟩) | hi)
    · exact .inl ⟨hlo, by omega⟩
    · rw [List.length_singleton] at hhi
      exact .inl ⟨by omega, by omega⟩
    · exact .inr hi
  · rw [sizeDtStrings, headerWord, hd']
    show (Lib.readBe32 (overwrite ended 32 _) 32).getD 0 = _
    rw [readBe32_overwrite (by omega) hsmall, Option.getD_some]

section Append

variable {length : Nat}

theorem Accepted.sparesHeader_append (h : d.Accepted) (length : Nat) :
    SparesHeader (d.AppendWrites length) := by
  intro i (hi : i < 40) hw
  have h40 : 40 ≤ d.usedBlobEndOffset := Nat.le_trans h.stringsInside.1 (Nat.le_add_right _ _)
  unfold AppendWrites at hw
  omega

/-- The strings do not move. -/
theorem Appended.offDtStrings (h : d.Accepted) (happended : d.Appended d' length) :
    d'.offDtStrings = d.offDtStrings := by
  have h40 : 40 ≤ d.usedBlobEndOffset := Nat.le_trans h.stringsInside.1 (Nat.le_add_right _ _)
  apply happended.frame.headerWord
  unfold AppendWrites
  omega

/-- Nor does the structure block grow. -/
theorem Accepted.structSize_appended (h : d.Accepted) (happended : d.Appended d' length) :
    d'.sizeDtStruct = d.sizeDtStruct := by
  have h40 : 40 ≤ d.usedBlobEndOffset := Nat.le_trans h.stringsInside.1 (Nat.le_add_right _ _)
  apply happended.frame.headerWord
  unfold AppendWrites
  omega

theorem Accepted.accepted_appended (h : d.Accepted) (happended : d.Appended d' length)
    (hroom : d.usedBlobEndOffset + length ≤ d.size) : d'.Accepted := by
  have hframe := happended.frame
  have hspares := h.sparesHeader_append length
  have hstructAt : d'.offDtStruct = d.offDtStruct := hframe.spared_word hspares (.inl (by decide))
  rw [h.size] at hroom
  unfold usedBlobEndOffset at hroom
  apply h.of_frame hframe hspares
  · rw [structureEndOffset, hstructAt, h.structSize_appended happended, hframe.length]
    exact h.structInside.2
  · rw [usedBlobEndOffset, Appended.offDtStrings h happended, happended.stringsSize, hframe.length]
    exact ⟨h.stringsInside.1, by omega⟩

/-- **An append clear of the reserve map.** -/
theorem Accepted.keeps_appended (h : d.Accepted) (happended : d.Appended d' length)
    (hroom : d.usedBlobEndOffset + length ≤ d.size)
    (hmap : ∀ i, d.InReserveMap i → ¬ d.AppendWrites length i) : d.Keeps d' := by
  have hmore : d.sizeDtStrings ≤ d'.sizeDtStrings := by
    rw [happended.stringsSize]
    exact Nat.le_add_right _ _
  refine (h.accepted_appended happended hroom).keeps happended.frame (h.sparesHeader_append length)
    hmap hmore ?_
  intro i hi
  have hfirst : 40 ≤ d.offDtStrings := h.stringsInside.1
  rw [Appended.offDtStrings h happended]
  apply happended.frame.bytes
  unfold AppendWrites usedBlobEndOffset
  omega

end Append

end Dtb

end RustFirmware.DeviceTree
