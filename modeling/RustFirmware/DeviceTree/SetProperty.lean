/-
  RustFirmware.DeviceTree.SetProperty
  ───────────────────────────────────
  **SETTING A PROPERTY IN PLACE IS SETTING IT IN THE TREE.**

  The writer's own walkers (`find_direct_property`, `property_insertion_offset`)
  agree with the items about where the record goes (`PropSite`); the splice
  and the five writes put it there.  §3 assembles this with the path and the
  strings into the theorem about `set_property_bytes`.
-/
import RustFirmware.DeviceTree.Edit

namespace RustFirmware.DeviceTree

open RustFirmware.Lib

/-! ## §1. Where the record goes. -/

/-- Zero padding for a value. -/
def zeroPad (value : Bytes) : Bytes := List.replicate (padLength value.length) 0

/-- The bytes `old` that a record for `name` replaces, none if the node has no such
    property. -/
structure Items.PropSite (items : Items) (names : Nat → Option Bytes)
    (name before old after : Bytes) : Prop where
  flat   : items.flat = before ++ (old ++ after)
  edited : ∀ nameOffset value, (items.setProperty names name nameOffset value).flat
      = before ++ (propRecord nameOffset value (zeroPad value) ++ after)
  replaced : old = [] ∨ ∃ value, (items.contents names).property name = some value
      ∧ old.length = 12 + align4 value.length

/-- Bytes in front of the items move the site. -/
theorem Items.PropSite.shift {items rest : Items} {names : Nat → Option Bytes}
    {name before old after : Bytes} (h : rest.PropSite names name before old after) (front : Bytes)
    (hflat : items.flat = front ++ rest.flat)
    (hedited : ∀ nameOffset value, (items.setProperty names name nameOffset value).flat
      = front ++ (rest.setProperty names name nameOffset value).flat)
    (hproperty : (items.contents names).property name = (rest.contents names).property name) :
    items.PropSite names name (front ++ before) old after := by
  refine ⟨?_, ?_, ?_⟩
  · rw [hflat, h.flat, List.append_assoc]
  · intro nameOffset value
    rw [hedited, h.edited, List.append_assoc]
  · rw [hproperty]
    exact h.replaced

/-- What the writer's two walkers answer at a site. -/
def Fdt.WritesAt (fdt : Fdt) (structStart nodeEnd fuel offset : Nat) (name before old : Bytes) :
    Prop :=
  Dtb.findPropertyLoop fdt structStart nodeEnd name fuel offset
      = .ok (some { propertyOffset := structStart + (offset + before.length),
                    totalLength := old.length })
    ∨ (Dtb.findPropertyLoop fdt structStart nodeEnd name fuel offset = .ok none ∧ old = []
        ∧ Dtb.insertionLoop fdt nodeEnd fuel offset = .ok (offset + before.length))

/-- **The writer's walkers find the site.** -/
theorem exists_propSite {fdt : Fdt} {items : Items} (h : items.Valid)
    (hnamed : (items.contents fdt.stringAt).Named) {offset fuel : Nat}
    (hat : ReadsAt fdt.structureBlock offset items.flat) (haligned : offset % 4 = 0)
    (hfuel : items.tokens < fuel) (structStart : Nat) (name : Bytes) :
    ∃ before old after, items.PropSite fdt.stringAt name before old after
      ∧ fdt.WritesAt structStart (offset + items.flat.length) fuel offset name before old := by
  obtain ⟨fuel, rfl⟩ : ∃ n, fuel = n + 1 := ⟨fuel - 1, by omega⟩
  induction items generalizing offset fuel with
  | nil =>
      refine ⟨[], [], [], ⟨rfl, fun _ _ => rfl, .inl rfl⟩, .inr ⟨?_, rfl, ?_⟩⟩
      · rw [Dtb.findPropertyLoop, if_neg (by simp [Items.flat])]
      · rw [Dtb.insertionLoop, if_neg (by simp [Items.flat])]
        rfl
  | nop rest ih =>
      obtain ⟨htoken, hrest⟩ := readsAt_append.mp hat
      rw [be32_length] at hrest
      rw [Items.tokens] at hfuel
      obtain ⟨fuel, rfl⟩ : ∃ n, fuel = n + 1 := ⟨fuel - 1, by omega⟩
      obtain ⟨before, old, after, hsite, hwrites⟩ := ih h hnamed hrest (by omega) fuel (by omega)
      have hread := Fdt.readToken_of_readsAt htoken (by decide)
      refine ⟨be32 fdtNop ++ before, old, after, hsite.shift (be32 fdtNop) rfl (fun _ _ => rfl) rfl, ?_⟩
      unfold Fdt.WritesAt at hwrites ⊢
      rw [Items.end_nop, Dtb.findPropertyLoop, Dtb.insertionLoop, if_pos (by omega), if_pos (by omega), hread,
        List.length_append, be32_length, ← Nat.add_assoc offset]
      exact hwrites
  | prop o v pad rest ih =>
      obtain ⟨ho, hv, hpad, hvalid⟩ := h
      obtain ⟨hsome, hnamed⟩ := hnamed
      obtain ⟨hrecord, hrest⟩ := readsAt_append.mp hat
      have hprop := Fdt.propAt_of_readsAt haligned ho hv hpad hrecord
      have hmod := align4_mod v.length
      have htotal := hprop.total
      obtain ⟨found, hfound⟩ := Option.isSome_iff_exists.mp hsome
      have hlength : Dtb.propertyRecordLength v.length = .ok (propRecord o v pad).length := by
        rw [Dtb.propertyRecordLength, okOr_eq_ok, htotal]
        refine checkedAdd_eq_some.mpr ⟨?_, rfl⟩
        unfold align4
        omega
      by_cases hname : found = name
      · -- this record is replaced
        refine ⟨[], propRecord o v pad, rest.flat, ⟨rfl, ?_, .inr ⟨v, ?_, htotal⟩⟩, .inl ?_⟩
        · intro nameOffset value
          rw [Items.setProperty, if_pos (hfound.trans (congrArg some hname))]
          rfl
        · rw [Items.contents, Contents.property, if_pos (hfound.trans (congrArg some hname))]
        · rw [Items.end_prop, Dtb.findPropertyLoop, if_pos (by omega), hprop.tokenAt, hprop.lengthAt,
            hprop.nameAt]
          simp only [if_true, hlength, hfound, hname]
          rfl
      · rw [Items.tokens] at hfuel
        obtain ⟨fuel, rfl⟩ : ∃ n, fuel = n + 1 := ⟨fuel - 1, by omega⟩
        obtain ⟨before, old, after, hsite, hwrites⟩ :=
          ih hvalid hnamed hrest (by omega) fuel (by omega)
        have hother : ¬ fdt.stringAt o = some name := by
          rw [hfound]
          exact fun he => hname (Option.some.inj he)
        refine ⟨propRecord o v pad ++ before, old, after,
          hsite.shift (propRecord o v pad) rfl ?_ ?_, ?_⟩
        · intro nameOffset value
          rw [Items.setProperty, if_neg hother]
          rfl
        · rw [Items.contents, Contents.property, if_neg hother]
        · unfold Fdt.WritesAt at hwrites ⊢
          rw [Items.end_prop, Dtb.findPropertyLoop, Dtb.insertionLoop, if_pos (by omega), if_pos (by omega),
            hprop.tokenAt, hprop.lengthAt, hprop.nameAt, hprop.afterProperty]
          simp only [if_true, hlength, hfound, hname, if_false]
          rw [List.length_append, ← Nat.add_assoc offset]
          exact hwrites
  | node n pad children rest =>
      -- both walkers stop at the first child
      obtain ⟨hn, hpad, -, -⟩ := h
      obtain ⟨hhead, -⟩ := readsAt_append.mp hat
      have hh := Fdt.headAt_of_readsAt haligned hn hpad hhead
      have hlt : offset < offset + (Items.node n pad children rest).flat.length := by
        rw [Items.flat]
        simp only [List.length_append, be32_length]
        omega
      refine ⟨[], [], (Items.node n pad children rest).flat, ⟨rfl, fun _ _ => rfl, .inl rfl⟩,
        .inr ⟨?_, rfl, ?_⟩⟩
      · rw [Dtb.findPropertyLoop, if_pos hlt, hh.tokenAt]
        rfl
      · rw [Dtb.insertionLoop, if_pos hlt, hh.tokenAt]
        rfl

/-! ## §2. Making room and writing the record. -/

namespace Dtb

variable {d d' : Dtb} {m : Image}

/-- `property_insertion_offset` is its loop: the test in front of it only answers
    earlier. -/
theorem propertyInsertionOffset_eq {offset : Nat} {n p : Bytes} {inner : Items} (h : d.Shows m)
    (hnode : (m.fdt d.pointer).NodeAt offset n p inner) :
    d.propertyInsertionOffset (offset, (spanNode offset n p inner).endOffset)
      = (insertionLoop (m.fdt d.pointer) (offset + (nodeHead n p).length + inner.flat.length)
          (m.fdt d.pointer).loopBound (offset + (nodeHead n p).length)).map
            (fun insertion => m.offDtStruct + insertion) := by
  simp only [propertyInsertionOffset, h.fdtView, hnode.headAt.next, okOr, bind, Except.bind,
    structureOffsetInBlob, h.offDtStruct, spanNode]
  split_ifs with hempty
  · rw [Fdt.loopBound, insertionLoop, if_neg (by omega)]
    rfl
  · cases insertionLoop (m.fdt d.pointer) (offset + (nodeHead n p).length + inner.flat.length)
      (m.fdt d.pointer).loopBound (offset + (nodeHead n p).length) <;> rfl

/-- **`prepare_property_record` makes room at the site.** -/
theorem Shows.preparePropertyRecord {offset valueLength recordOffset : Nat} {n p : Bytes}
    {inner : Items} {name front back : Bytes} (h : d.Shows m)
    (hnode : (m.fdt d.pointer).NodeAt offset n p inner)
    (hnamed : (inner.contents (m.fdt d.pointer).stringAt).Named)
    (hblock : m.structureBlock = front ++ (inner.flat ++ back))
    (hfront : front.length = offset + (nodeHead n p).length)
    (hok : Dtb.preparePropertyRecord (offset, (spanNode offset n p inner).endOffset) name valueLength d
      = (.ok recordOffset, d')) :
    d'.pointer = d.pointer ∧ ∃ before old after free,
      inner.PropSite (m.fdt d.pointer).stringAt name before old after
      ∧ recordOffset = m.offDtStruct + (front ++ before).length
      ∧ d'.Shows { m with
          structureBlock := (front ++ before)
            ++ (List.replicate (12 + align4 valueLength) 0 ++ (after ++ back)),
          free := free } := by
  have hfuel := hnode.tokens_lt
  obtain ⟨before, old, after, hsite, hwrites⟩ := exists_propSite hnode.valid hnamed hnode.inside
    hnode.inside_mod (show inner.tokens < (m.fdt d.pointer).loopBound by omega) m.offDtStruct name
  -- the splice is the same whether a record is replaced or a new one goes in
  have hshape : m.structureBlock = (front ++ before) ++ (old ++ (after ++ back)) := by
    rw [hblock, hsite.flat]
    simp only [List.append_assoc]
  have hposition : m.offDtStruct + (offset + (nodeHead n p).length + before.length)
      = m.offDtStruct + (front ++ before).length := by
    rw [List.length_append, hfront]
  have hfind : d.findDirectProperty (offset, (spanNode offset n p inner).endOffset) name
      = findPropertyLoop (m.fdt d.pointer) m.offDtStruct
          (offset + (nodeHead n p).length + inner.flat.length) name (m.fdt d.pointer).loopBound
          (offset + (nodeHead n p).length) := by
    simp only [findDirectProperty, h.fdtView, hnode.headAt.next, okOr, bind, Except.bind, h.offDtStruct,
      spanNode]
  simp only [Dtb.preparePropertyRecord, DtbM.bind_ok, DtbM.read_ok] at hok
  obtain ⟨existing, _, ⟨hexisting, rfl⟩, hok⟩ := hok
  rw [hfind] at hexisting
  rcases hwrites with hfound | ⟨hnone, rfl, hinsert⟩
  · rw [hfound] at hexisting
    cases hexisting
    simp only [DtbM.bind_ok, DtbM.read_ok, DtbM.pure_ok] at hok
    obtain ⟨length, _, ⟨hlength, rfl⟩, _, _, hsplice, rfl, rfl⟩ := hok
    rw [propertyRecordLength_ok hlength] at hsplice
    obtain ⟨hpointer, free, hshows⟩ := h.spliceStructPlaceholder hshape hposition rfl hsplice
    exact ⟨hpointer, before, old, after, free, hsite, hposition, hshows⟩
  · rw [hnone] at hexisting
    cases hexisting
    simp only [DtbM.bind_ok, DtbM.read_ok, DtbM.pure_ok] at hok
    obtain ⟨insertion, _, ⟨hinsertion, rfl⟩, length, _, ⟨hlength, rfl⟩, _, _, hsplice, rfl, rfl⟩ := hok
    have hat : insertion = m.offDtStruct + (front ++ before).length := by
      rw [propertyInsertionOffset_eq h hnode, hinsert] at hinsertion
      rw [← hposition]
      exact (Except.ok.inj hinsertion).symm
    rw [propertyRecordLength_ok hlength] at hsplice
    obtain ⟨hpointer, free, hshows⟩ := h.spliceStructPlaceholder hshape hat rfl hsplice
    exact ⟨hpointer, before, [], after, free, hsite, hat, hshows⟩

/-- One field written over the zeros made for it. -/
theorem Shows.writeField {done rest : Bytes} {k offset : Nat} (h : d.Shows m)
    (hblock : m.structureBlock = done ++ (List.replicate k 0 ++ rest)) (field : Bytes)
    (hoffset : offset = m.offDtStruct + done.length) (hlength : field.length = k) :
    Shows { d with blob := overwrite d.blob offset field }
      { m with structureBlock := (done ++ field) ++ rest } := by
  rw [List.append_assoc]
  exact h.overwrite_struct hblock hoffset (by rw [List.length_replicate, hlength])

/-- Zeroing the padding of a record that is zero there changes nothing. -/
theorem Shows.zeroPropertyPadding {done rest value : Bytes} {recordOffset : Nat} {u : Unit}
    (h : d.Shows m) (hblock : m.structureBlock = done ++ (zeroPad value ++ rest))
    (hoffset : recordOffset + 12 + value.length = m.offDtStruct + done.length)
    (hok : Dtb.zeroPropertyPadding recordOffset value.length d = (.ok u, d')) :
    d'.pointer = d.pointer ∧ d'.Shows m := by
  unfold Dtb.zeroPropertyPadding at hok
  split_ifs at hok with hnone
  · obtain ⟨-, rfl⟩ := DtbM.pure_ok.mp hok
    exact ⟨rfl, h⟩
  · simp only [DtbM.bind_ok, writeBytes_ok] at hok
    obtain ⟨_, _, hensure, rfl⟩ := hok
    obtain ⟨-, rfl⟩ := ensureRange_ok hensure
    have hzero := h.overwrite_struct hblock hoffset
      (show (zeroPad value).length = (zeroPad value).length from rfl)
    rw [← hblock] at hzero
    exact ⟨rfl, hzero⟩

/-- **The five writes fill the record.** -/
theorem Shows.writeRecord {front back value : Bytes} {recordOffset nameOffset : Nat} {u : Unit}
    (h : d.Shows m)
    (hblock : m.structureBlock = front ++ (List.replicate (12 + align4 value.length) 0 ++ back))
    (hoffset : recordOffset = m.offDtStruct + front.length)
    (hok : (do
      let _ ← insertU32 recordOffset fdtProp
      let storedLength ← DtbM.orThrow (u32OrOverflow value.length) .sizeOverflow
      let _ ← insertU32 (recordOffset + 4) storedLength
      let _ ← insertU32 (recordOffset + 8) nameOffset
      let _ ← insertBytes (recordOffset + 12) value
      Dtb.zeroPropertyPadding recordOffset value.length : DtbM Unit) d = (.ok u, d')) :
    d'.pointer = d.pointer ∧ value.length < 2 ^ 32
      ∧ d'.Shows { m with
          structureBlock := front ++ (propRecord nameOffset value (zeroPad value) ++ back) } := by
  simp only [DtbM.bind_ok, DtbM.orThrow_ok, insertU32] at hok
  obtain ⟨_, _, htoken, stored, _, ⟨hstored, rfl⟩, _, _, hlength, _, _, hname, _, _, hvalue, hpad⟩ := hok
  obtain ⟨-, rfl⟩ := insertBytes_ok htoken
  obtain ⟨hlt, rfl⟩ := u32OrOverflow_eq_some.mp hstored
  obtain ⟨-, rfl⟩ := insertBytes_ok hlength
  obtain ⟨-, rfl⟩ := insertBytes_ok hname
  obtain ⟨-, rfl⟩ := insertBytes_ok hvalue
  -- the zeros are the fields of the record to come
  have hzeros : (List.replicate (12 + align4 value.length) 0 : Bytes)
      = List.replicate 4 0 ++ (List.replicate 4 0 ++ (List.replicate 4 0
          ++ (List.replicate value.length 0 ++ zeroPad value))) := by
    simp only [zeroPad, List.replicate_append_replicate, ← add_padLength]
    congr 1
    omega
  rw [hzeros] at hblock
  simp only [List.append_assoc] at hblock
  have h1 := h.writeField hblock (be32 fdtProp) hoffset rfl
  have h2 := h1.writeField rfl (be32 value.length)
    (show recordOffset + 4 = m.offDtStruct + _ by
      simp only [List.length_append, be32_length]
      omega) rfl
  have h3 := h2.writeField rfl (be32 nameOffset)
    (show recordOffset + 8 = m.offDtStruct + _ by
      simp only [List.length_append, be32_length]
      omega) rfl
  have h4 := h3.writeField rfl value
    (show recordOffset + 12 = m.offDtStruct + _ by
      simp only [List.length_append, be32_length]
      omega) rfl
  obtain ⟨hpointer, h5⟩ := h4.zeroPropertyPadding rfl
    (show recordOffset + 12 + value.length = m.offDtStruct + _ by
      simp only [List.length_append, be32_length]
      omega) hpad
  refine ⟨hpointer, hlt, ?_⟩
  have hrecord : front ++ (propRecord nameOffset value (zeroPad value) ++ back)
      = (((front ++ be32 fdtProp) ++ be32 value.length) ++ be32 nameOffset ++ value)
          ++ (zeroPad value ++ back) := by
    simp only [propRecord, List.append_assoc]
  rw [hrecord]
  exact h5

/-! ## §3. The whole call. -/

/-- `find_node_location` returns the offsets of the node `find_node` returns. -/
theorem findNodeLocation_ok {fdt : Fdt} {path : Bytes} {node : FdtNode} {location : Nat × Nat}
    (hview : d.fdtView = .ok fdt) (hnode : fdt.findNode path = some node)
    (h : d.findNodeLocation path = .ok location) : location = (node.beginOffset, node.endOffset) := by
  unfold findNodeLocation at h
  split_ifs at h with hslash
  · have hroot : fdt.rootNode = some node := by
      rw [Fdt.findNode, if_pos hslash] at hnode
      exact hnode
    simp only [hview, hroot, okOr, bind, Except.bind] at h
    exact (Except.ok.inj h).symm
  · split at h
    case h_1 => cases h
    case h_2 =>
      split_ifs at h
      simp only [hview, hnode, okOr, bind, Except.bind] at h
      exact (Except.ok.inj h).symm

/-- **The call on an image.**  The strings may have grown by the name; between the
    bytes in front of the node's contents and those behind them stand the
    contents with the property set. -/
theorem Shows.setPropertyBytes {path name value n p front back : Bytes} {inner : Items}
    {offset : Nat} {u : Unit} (h : d.Shows m) (hname : IsText name) (hterm : Terminated m.strings)
    (hlocation : ∀ location, d.findNodeLocation path = .ok location
      → location = (offset, (spanNode offset n p inner).endOffset))
    (hnode : (m.fdt d.pointer).NodeAt offset n p inner)
    (hnamed : (inner.contents (m.fdt d.pointer).stringAt).Named)
    (hblock : m.structureBlock = front ++ (inner.flat ++ back))
    (hfront : front.length = offset + (nodeHead n p).length)
    (hok : Dtb.setPropertyBytes path name value d = (.ok u, d')) :
    d'.pointer = d.pointer ∧ ∃ (m' : Image) (more : Bytes) (nameOffset : Nat),
      d'.Shows m' ∧ m'.offMemRsvmap = m.offMemRsvmap ∧ m'.reserved = m.reserved
      ∧ m'.strings = m.strings ++ more ∧ Terminated m'.strings
      ∧ nameOffset < 2 ^ 32 ∧ value.length < 2 ^ 32
      ∧ (m'.fdt d.pointer).stringAt nameOffset = some name
      ∧ m'.structureBlock = front
          ++ ((inner.setProperty (m'.fdt d.pointer).stringAt name nameOffset value).flat ++ back)
      ∧ m'.offDtStrings + m'.strings.length ≤ m.offDtStrings + m.strings.length + (name.length + 1)
          + (12 + align4 value.length) := by
  rw [Dtb.setPropertyBytes] at hok
  obtain ⟨location, _, hread, hok⟩ := DtbM.bind_ok.mp hok
  obtain ⟨hfind, rfl⟩ := DtbM.read_ok.mp hread
  obtain rfl := hlocation location hfind
  obtain ⟨nameOffset, d₁, hstring, hok⟩ := DtbM.bind_ok.mp hok
  obtain ⟨recordOffset, d₂, hrecord, hok⟩ := DtbM.bind_ok.mp hok
  -- the name is in the strings now, and the names from before still resolve
  obtain ⟨hpointer₁, more, free₁, hm₁, hterm₁, hlt, hresolves, hmore⟩ :=
    h.findOrAddString hname hterm hstring
  have hnames : (inner.contents (Image.fdt { m with strings := m.strings ++ more, free := free₁ }
      d₁.pointer).stringAt).Named := by
    rw [Items.contents_mono (fun o s hs => Fdt.stringAt_append rfl hs) hnamed]
    exact hnamed
  obtain ⟨hpointer₂, before, old, after, free₂, hsite, hoffset, hm₂⟩ :=
    hm₁.preparePropertyRecord (hnode.congr rfl) hnames hblock hfront hrecord
  obtain ⟨hpointer₃, hvalue, hm₃⟩ := hm₂.writeRecord rfl hoffset hok
  refine ⟨hpointer₃.trans (hpointer₂.trans hpointer₁), _, more, nameOffset, hm₃, rfl, rfl, rfl, hterm₁,
    hlt, hvalue, hresolves d.pointer, ?_, ?_⟩
  case refine_2 =>
    have hgrown := propRecord_length nameOffset (show (zeroPad value).length = _ from List.length_replicate)
    have hbefore : m.structureBlock.length
        = front.length + (before.length + (old.length + after.length) + back.length) := by
      rw [hblock, hsite.flat]
      simp only [List.length_append]
    simp only [Image.offDtStrings, Image.offDtStruct, List.length_append, hgrown] at hbefore ⊢
    omega
  show (front ++ before) ++ (propRecord nameOffset value (zeroPad value) ++ (after ++ back))
    = front ++ ((inner.setProperty (Image.fdt { m with strings := m.strings ++ more, free := free₁ }
        d₁.pointer).stringAt name nameOffset value).flat ++ back)
  rw [hsite.edited]
  simp only [List.append_assoc]

/-- The refinement at any size, and how much of the allocation it takes. -/
theorem setPropertyBytes_decodes {tree : Tree} {path name value : Bytes} {fdt : Fdt}
    {node : FdtNode} {u : Unit} (hdec : d.Decodes tree) (hregular : d.Regular tree)
    (hbehind : fdtHeaderSize ≤ d.offMemRsvmap) (hview : d.fdtView = .ok fdt)
    (hnode : fdt.findNode path = some node) (hname : IsText name)
    (hok : setPropertyBytes path name value d = (.ok u, d')) :
    d'.Decodes (tree.setProperty (pathComponents path) name value)
      ∧ d'.Regular (tree.setProperty (pathComponents path) name value)
      ∧ fdtHeaderSize ≤ d'.offMemRsvmap
      ∧ (∃ fdt' node', d'.fdtView = .ok fdt' ∧ fdt'.findNode path = some node'
          ∧ fdt'.getProperty node' name = some value)
      ∧ d'.usedBlobEndOffset ≤ d.usedBlobEndOffset + (name.length + 1) + (12 + align4 value.length) := by
  obtain ⟨m, items, pad, lead, trail, hm, hh⟩ := hdec.exists_image
  obtain rfl : fdt = m.fdt d.pointer := Except.ok.inj (hview.symm.trans hm.fdtView)
  rw [hm.offMemRsvmap] at hbehind
  have hterm : Terminated m.strings := hregular.terminated _ hm.fdtView
  have hnamed := hregular.named
  rw [← hh.contents] at hnamed
  -- the addressed node, and the bytes around its contents
  obtain ⟨rfl, habsolute, hpath, inner, n, p, before, after, hinner, rfl, hinnerAt, hinnerNamed, hblock⟩ :=
    hh.resolve hnamed hnode
  obtain ⟨hpointer, m', more, nameOffset, hm', hrsvmap, hreserved, hstrings, hterm', hlt, hvalue,
      hresolves, hstruct, hgrown⟩ := hm.setPropertyBytes hname hterm
    (fun location hloc => findNodeLocation_ok hview hnode hloc) hinnerAt hinnerNamed
    (hh.block_around hblock) List.length_append hok
  -- the edited tree
  have hcontents : (items.modifyAt
      (Items.setProperty (m'.fdt d.pointer).stringAt name nameOffset value)
        (pathComponents path)).contents (m'.fdt d.pointer).stringAt
      = tree.contents.modifyAt (Contents.setProperty name value) (pathComponents path) := by
    rw [Items.contents_modifyAt (Items.contents_setProperty hresolves value),
      Items.contents_mono (fun o s hs => Fdt.stringAt_append hstrings hs) hnamed, hh.contents]
  have hh' := hh.edit hbehind hrsvmap hreserved
    (hh.valid.modifyAt (fun c hc => hc.setProperty name hlt hvalue) (pathComponents path))
    hcontents (by rw [hstruct, nops, List.nil_append, hblock])
  have hnamed' := hregular.named.modifyAt (fun c hc => hc.setProperty name value) (pathComponents path)
  rw [← hpointer] at hh'
  refine ⟨hh'.decodes hm', ⟨?_, hnamed', ?_⟩, ?_, ?_, ?_⟩
  · exact hregular.propsFirst.modifyAt (fun c hc => hc.setProperty name value) (pathComponents path)
  · intro fdt' hview'
    rw [hm'.fdtView] at hview'
    cases hview'
    exact hterm'
  · rw [hm'.offMemRsvmap, hrsvmap]
    exact hbehind
  · -- the path leads to the edited contents again
    have hrootAt' := hh'.nodeAt
    obtain ⟨n', p', before', after', hfound', hinnerAt', -⟩ := hrootAt'.descend_some hpath
      (Items.itemsAt_modifyAt hinner _)
    refine ⟨m'.fdt d'.pointer, _, hm'.fdtView,
      Fdt.findNode_eq_some.mpr ⟨habsolute, _, hrootAt'.nodeAtOffset, hfound'⟩, ?_⟩
    have hinnerContents := Items.contents_setProperty hresolves value inner
    rw [← hpointer] at hinnerContents
    have hinnerNamed' : ((inner.contents (m'.fdt d'.pointer).stringAt).setProperty name value).Named := by
      rw [Items.contents_mono (fun o s hs => Fdt.stringAt_append hstrings hs) hinnerNamed]
      exact hinnerNamed.setProperty name value
    rw [← hinnerContents] at hinnerNamed'
    rw [hinnerAt'.getProperty hinnerNamed', hinnerContents, Contents.property_setProperty]
  · rw [usedBlobEndOffset, usedBlobEndOffset, hm'.offDtStrings, hm'.sizeDtStrings, hm.offDtStrings,
      hm.sizeDtStrings]
    exact hgrown

/-- **Setting a property refines setting it in the tree.**  On a well-formed,
    regular blob whose reserve map lies behind the header, with a path that
    `find_node` resolves and a name without NUL: if `set_property_bytes` succeeds,
    the blob is again well formed and regular, decodes to the tree with that one
    property set, and `get_property` on the re-resolved node returns the value. -/
theorem setPropertyBytes_refines {tree : Tree} {path name value : Bytes} {fdt : Fdt}
    {node : FdtNode} {u : Unit} (henc : d.Encodes tree) (hregular : d.Regular tree)
    (hbehind : fdtHeaderSize ≤ d.offMemRsvmap) (hview : d.fdtView = .ok fdt)
    (hnode : fdt.findNode path = some node) (hname : IsText name)
    (hok : setPropertyBytes path name value d = (.ok u, d')) :
    d'.Encodes (tree.setProperty (pathComponents path) name value)
      ∧ d'.Regular (tree.setProperty (pathComponents path) name value)
      ∧ fdtHeaderSize ≤ d'.offMemRsvmap
      ∧ ∃ fdt' node', d'.fdtView = .ok fdt' ∧ fdt'.findNode path = some node'
          ∧ fdt'.getProperty node' name = some value := by
  obtain ⟨hdec', hregular', hbehind', hlookup, -⟩ :=
    setPropertyBytes_decodes henc.decodes hregular hbehind hview hnode hname hok
  refine ⟨hdec'.encodes ?_, hregular', hbehind', hlookup⟩
  rw [← hdec'.size_eq, (keepsPlace_setPropertyBytes path name value).size_of_ok hok, henc.size_eq]
  exact henc.small

/-- A shorter `reg` in the node `memory`. -/
theorem setPropertyBytes_refines_example :
    ∃ d', setPropertyBytes (ascii "/memory") (ascii "reg") [1, 2] boardDtb = (.ok (), d')
      ∧ d'.Encodes (boardTree.setProperty [ascii "memory"] (ascii "reg") [1, 2]) := by
  have hrun : (setPropertyBytes (ascii "/memory") (ascii "reg") [1, 2] boardDtb).1 = .ok () := by
    decide +kernel
  have hmemory : ((boardImage.fdt 0x80008000).findNode (ascii "/memory")).isSome = true := by
    decide +kernel
  obtain ⟨node, hnode⟩ := Option.isSome_iff_exists.mp hmemory
  have hm := boardDtb_shows
  have hok := DtbM.eq_of_fst hrun
  exact ⟨_, hok, (setPropertyBytes_refines boardDtb_encodes boardDtb_regular
    (by rw [hm.offMemRsvmap]; exact Nat.le_refl 40) hm.fdtView hnode (by decide) hok).1⟩

/-- **The reserve map changes where it overlaps the header.**  The small blob with
    the map at offset 24 is well formed and regular, but the splice rewrites
    `size_dt_struct` inside the map's first entry. -/
theorem setPropertyBytes_changes_header_entry :
    (smallDtb 24).Encodes (smallTree [headerEntry 16])
      ∧ (smallDtb 24).Regular (smallTree [headerEntry 16])
      ∧ (∃ fdt node, (smallDtb 24).fdtView = .ok fdt ∧ fdt.findNode (ascii "/") = some node)
      ∧ IsText (ascii "reg")
      ∧ ∃ d', setPropertyBytes (ascii "/") (ascii "reg") [1, 2] (smallDtb 24) = (.ok (), d')
          ∧ ¬ d'.Encodes ((smallTree [headerEntry 16]).setProperty [] (ascii "reg") [1, 2]) := by
  have hrun : (setPropertyBytes (ascii "/") (ascii "reg") [1, 2] (smallDtb 24)).1 = .ok () := by
    decide +kernel
  have hentry : (setPropertyBytes (ascii "/") (ascii "reg") [1, 2] (smallDtb 24)).2.reserveEntry 0
      = some (headerEntry 32) := by
    decide +kernel
  have hroot : (((smallImage 24).fdt 0x80008000).findNode (ascii "/")).isSome = true := by
    decide +kernel
  obtain ⟨node, hnode⟩ := Option.isSome_iff_exists.mp hroot
  refine ⟨smallDtb_encodes_header, smallDtb_regular (by decide) _,
    ⟨_, node, (smallDtb_shows (by decide)).fdtView, hnode⟩, by decide, _, DtbM.eq_of_fst hrun, ?_⟩
  intro henc
  have hkept := henc.reserveEntry 0 (show _ = some (headerEntry 16) from rfl)
  exact absurd (hkept.symm.trans hentry) (by decide)

end Dtb

end RustFirmware.DeviceTree
