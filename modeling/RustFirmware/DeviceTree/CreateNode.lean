/-
  RustFirmware.DeviceTree.CreateNode
  ──────────────────────────────────
  **CREATING A PATH ADDS EXACTLY ITS MISSING COMPONENTS.**

  The loop of `create_node` carries the offsets of the current parent.  Its
  invariant is that these are the offsets of a node of the current block; a step
  into an existing child keeps the blob, a step into a missing one splices an
  empty node in front of the parent's end token and goes on inside it
  (`Shows.createComponents`, by induction on the components).
-/
import RustFirmware.DeviceTree.Edit

namespace RustFirmware.DeviceTree

open RustFirmware.Lib

/-! ## §1. Items. -/

/-- Zero padding for a name. -/
def namePad (name : Bytes) : Bytes := List.replicate (padLength (name.length + 1)) 0

namespace Items

/-- A new last child stands behind everything else. -/
theorem flat_addLast (items : Items) (name : Bytes) (children : Items) :
    (items.addLast name children).flat
      = items.flat ++ (nodeHead name (namePad name) ++ (children.flat ++ be32 fdtEndNode)) := by
  induction items with
  | nil => simp [addLast, child, flat, namePad]
  | nop rest ih => rw [addLast, flat, ih, flat, List.append_assoc]
  | prop o v pad rest ih => rw [addLast, flat, ih, flat, List.append_assoc]
  | node n pad c rest _ ih =>
      rw [addLast, flat, ih, flat]
      simp only [List.append_assoc]

theorem childItems_addLast {items : Items} {name : Bytes} (h : items.childItems name = none)
    (children : Items) : (items.addLast name children).childItems name = some children := by
  induction items with
  | nil => simp [addLast, child, childItems]
  | nop rest ih => exact ih h
  | prop o v pad rest ih => exact ih h
  | node n pad c rest _ ih =>
      rw [childItems] at h
      split_ifs at h with hname
      rw [addLast, childItems, if_neg hname]
      exact ih h

/-- Editing a child changes the length by what the edit does to the child. -/
theorem flat_onChild_length {items inner : Items} {name : Bytes}
    (h : items.childItems name = some inner) (edit : Items → Items) :
    (items.onChild name edit).flat.length + inner.flat.length
      = items.flat.length + (edit inner).flat.length := by
  induction items with
  | nil => cases h
  | nop rest ih =>
      have hrest := ih h
      simp only [onChild, flat, List.length_append]
      omega
  | prop o v pad rest ih =>
      have hrest := ih h
      simp only [onChild, flat, List.length_append]
      omega
  | node n pad c rest _ ih =>
      rw [childItems] at h
      rw [onChild]
      split_ifs at h ⊢ with hname
      · cases h
        simp only [flat, List.length_append]
        omega
      · have hrest := ih h
        simp only [flat, List.length_append]
        omega

/-- The bytes that the nodes of a path take at most. -/
def pathRoom (path : List Bytes) : Nat :=
  (path.map (fun component => 8 + align4 (component.length + 1))).sum

theorem flat_addMissing_length (path : List Bytes) (items : Items) :
    (items.addMissing path).flat.length ≤ items.flat.length + pathRoom path := by
  induction path generalizing items with
  | nil => exact Nat.le_refl _
  | cons component path ih =>
      rw [addMissing]
      have hroom : pathRoom (component :: path) = 8 + align4 (component.length + 1) + pathRoom path := by
        simp [pathRoom]
      cases hchild : items.childItems component with
      | some c =>
          have hlength := flat_onChild_length hchild (addMissing path)
          have hinner := ih c
          show (items.onChild component (addMissing path)).flat.length ≤ _
          omega
      | none =>
          have hinner := ih nil
          have hhead := nodeHead_length
            (show (namePad component).length = padLength (component.length + 1) from List.length_replicate)
          have hnil : (flat nil).length = 0 := rfl
          show (items.addLast component (addMissing path nil)).flat.length ≤ _
          rw [flat_addLast]
          simp only [List.length_append, be32_length]
          omega

/-- The whole path exists afterwards. -/
theorem exists_itemsAt_addMissing (path : List Bytes) (items : Items) :
    ∃ inner, (items.addMissing path).itemsAt path = some inner := by
  induction path generalizing items with
  | nil => exact ⟨items, rfl⟩
  | cons component path ih =>
      rw [addMissing]
      cases hchild : items.childItems component with
      | some c =>
          obtain ⟨inner, hinner⟩ := ih c
          refine ⟨inner, ?_⟩
          show (items.onChild component (addMissing path)).itemsAt (component :: path) = _
          rw [itemsAt, childItems_onChild hchild]
          exact hinner
      | none =>
          obtain ⟨inner, hinner⟩ := ih nil
          refine ⟨inner, ?_⟩
          show (items.addLast component (addMissing path nil)).itemsAt (component :: path) = _
          rw [itemsAt, childItems_addLast hchild]
          exact hinner

end Items

/-! ## §2. One new node. -/

namespace Dtb

variable {d d' : Dtb} {m : Image}

/-- `node_bytes` is an empty node. -/
theorem emptyNodeBytes_eq (name : Bytes) :
    emptyNodeBytes name = nodeHead name (namePad name) ++ be32 fdtEndNode := by
  have hzeros : (List.replicate (align4 (4 + name.length + 1) - (4 + name.length)) 0 : Bytes)
      = 0 :: namePad name := by
    rw [namePad, ← List.replicate_succ]
    congr 1
    unfold padLength align4
    omega
  rw [emptyNodeBytes, hzeros, nodeHead]
  simp only [List.append_assoc, List.cons_append]

/-- `splice_struct` replaces bytes of the structure block. -/
theorem Shows.spliceStruct {before old after newBytes : Bytes} {offset : Nat} {u : Unit}
    (h : d.Shows m) (hblock : m.structureBlock = before ++ (old ++ after))
    (hoffset : offset = m.offDtStruct + before.length)
    (hok : Dtb.spliceStruct offset old.length newBytes d = (.ok u, d')) :
    d'.pointer = d.pointer ∧ ∃ free, d'.Shows
      { m with structureBlock := before ++ (newBytes ++ after), free := free } := by
  simp only [Dtb.spliceStruct, DtbM.bind_ok, writeBytes_ok] at hok
  obtain ⟨_, d₁, hsplice, rfl⟩ := hok
  obtain ⟨hpointer, free, hm₁⟩ := h.spliceStructPlaceholder hblock hoffset rfl hsplice
  exact ⟨hpointer, free, hm₁.overwrite_struct rfl hoffset (by rw [List.length_replicate])⟩

/-- **`insert_child_node` puts an empty node at the offset and returns its
    offsets.** -/
theorem Shows.insertChildNode {front back name : Bytes} {location : Nat × Nat} (h : d.Shows m)
    (hblock : m.structureBlock = front ++ back) (haligned : front.length % 4 = 0)
    (hname : IsText name)
    (hok : Dtb.insertChildNode front.length name d = (.ok location, d')) :
    d'.pointer = d.pointer
      ∧ location = (front.length, (spanNode front.length name (namePad name) .nil).endOffset)
      ∧ ∃ free, d'.Shows { m with
          structureBlock := front ++ (nodeHead name (namePad name) ++ (be32 fdtEndNode ++ back)),
          free := free } := by
  simp only [Dtb.insertChildNode, DtbM.guard_ok, DtbM.bind_ok, DtbM.read_ok, DtbM.pure_ok,
    Except.ok.injEq] at hok
  obtain ⟨-, _, _, ⟨rfl, rfl⟩, _, d₁, hsplice, inserted, _, ⟨hinserted, rfl⟩, rfl, rfl⟩ := hok
  rw [structureOffsetInBlob, h.offDtStruct] at hsplice
  have hempty : m.structureBlock = front ++ ([] ++ back) := hblock
  obtain ⟨hpointer, free, hm₁⟩ := h.spliceStruct hempty rfl hsplice
  rw [emptyNodeBytes_eq, List.append_assoc] at hm₁
  have hnode : (Image.fdt { m with
      structureBlock := front ++ (nodeHead name (namePad name) ++ (be32 fdtEndNode ++ back)),
      free := free } d₁.pointer).NodeAt front.length name (namePad name) .nil :=
    Fdt.nodeAt_of_block rfl haligned hname List.length_replicate trivial
  simp only [hm₁.fdtView, hnode.nodeAtOffset, okOr, bind, Except.bind] at hinserted
  cases hinserted
  exact ⟨hpointer, rfl, free, hm₁⟩

/-! ## §3. The loop. -/

/-- **The loop of `create_node` adds the missing components below the current
    parent.** -/
theorem Shows.createComponents {path : List Bytes} (hpath : ∀ component ∈ path, IsText component)
    {n p before after : Bytes} {items : Items} {u : Unit} (h : d.Shows m)
    (hblock : m.structureBlock = before ++ (nodeHead n p ++ (items.flat ++ (be32 fdtEndNode ++ after))))
    (haligned : before.length % 4 = 0) (hname : IsText n) (hpad : p.length = padLength (n.length + 1))
    (hvalid : items.Valid)
    (hok : Dtb.createComponents before.length (spanNode before.length n p items).endOffset path d
      = (.ok u, d')) :
    d'.pointer = d.pointer ∧ ∃ free, d'.Shows { m with
      structureBlock := before ++ (nodeHead n p
        ++ ((items.addMissing path).flat ++ (be32 fdtEndNode ++ after))),
      free := free } := by
  induction path generalizing d m n p before after items with
  | nil =>
      obtain ⟨-, rfl⟩ := DtbM.pure_ok.mp hok
      refine ⟨rfl, m.free, ?_⟩
      show d.Shows { m with structureBlock := before ++ (nodeHead n p
        ++ (items.flat ++ (be32 fdtEndNode ++ after))) }
      rw [← hblock]
      exact h
  | cons component path ih =>
      have hrest : ∀ c ∈ path, IsText c := fun c hc => hpath c (List.mem_cons_of_mem _ hc)
      have hnode : (m.fdt d.pointer).NodeAt before.length n p items :=
        Fdt.nodeAt_of_block hblock haligned hname hpad hvalid
      rw [Dtb.createComponents, DtbM.guard_ok] at hok
      obtain ⟨hnonempty, hok⟩ := hok
      obtain ⟨child, _, hread, hok⟩ := DtbM.bind_ok.mp hok
      obtain ⟨hchild, rfl⟩ := DtbM.read_ok.mp hread
      simp only [h.fdtView, hnode.nodeAtOffset, okOr, bind, Except.bind, Except.ok.injEq] at hchild
      cases hitems : items.childItems component with
      | some inner =>
          -- into the existing child; the blob stays
          obtain ⟨pad', front, back, hsite⟩ := Items.exists_childSite hvalid hitems
          rw [hnode.findChild_some hsite] at hchild
          subst hchild
          have hlength : (before ++ (nodeHead n p ++ front)).length
              = before.length + (nodeHead n p).length + front.length := by
            simp only [List.length_append, Nat.add_assoc]
          have hmod := hnode.inside_mod
          have hfrontMod := hsite.aligned
          have hstep : Dtb.createComponents (before ++ (nodeHead n p ++ front)).length
              (spanNode (before ++ (nodeHead n p ++ front)).length component pad' inner).endOffset path d
                = (.ok u, d') := by
            rw [hlength]
            exact hok
          have hinside := hblock.trans (hsite.block_self before n p after)
          obtain ⟨hpointer, free, hm'⟩ :=
            ih hrest h hinside (by omega) hsite.text hsite.padded hsite.valid hstep
          refine ⟨hpointer, free, ?_⟩
          rw [Items.addMissing, hitems]
          show d'.Shows { m with
            structureBlock := before ++ (nodeHead n p
              ++ ((items.onChild component (Items.addMissing path)).flat ++ (be32 fdtEndNode ++ after))),
            free := free }
          rw [hsite.block]
          exact hm'
      | none =>
          -- a new child in front of the parent's end token
          rw [hnode.findChild_none hitems] at hchild
          subst hchild
          obtain ⟨location, d₁, hinsert, hok⟩ := DtbM.bind_ok.mp hok
          have hlength : (before ++ (nodeHead n p ++ items.flat)).length
              = (spanNode before.length n p items).endOffset := by
            simp only [spanNode, List.length_append, Nat.add_assoc]
          have hmod := hnode.inside_mod
          have hitemsMod := hvalid.flat_mod
          have hcomponent := hpath component List.mem_cons_self
          have hfrontMod : (before ++ (nodeHead n p ++ items.flat)).length % 4 = 0 := by
            simp only [List.length_append]
            omega
          have hfront : m.structureBlock
              = (before ++ (nodeHead n p ++ items.flat)) ++ (be32 fdtEndNode ++ after) := by
            rw [hblock]
            simp only [List.append_assoc]
          rw [← hlength] at hinsert
          obtain ⟨hpointer₁, rfl, free₁, hm₁⟩ := h.insertChildNode hfront hfrontMod hcomponent hinsert
          obtain ⟨hpointer, free, hm'⟩ := ih hrest hm₁
            (show _ = _ ++ (_ ++ (Items.flat .nil ++ _)) from rfl) hfrontMod hcomponent
            List.length_replicate trivial hok
          refine ⟨hpointer.trans hpointer₁, free, ?_⟩
          have hedited : before ++ (nodeHead n p ++ ((items.addMissing (component :: path)).flat
                ++ (be32 fdtEndNode ++ after)))
              = (before ++ (nodeHead n p ++ items.flat)) ++ (nodeHead component (namePad component)
                  ++ ((Items.nil.addMissing path).flat
                    ++ (be32 fdtEndNode ++ (be32 fdtEndNode ++ after)))) := by
            rw [Items.addMissing, hitems]
            show before ++ (nodeHead n p
              ++ ((items.addLast component (Items.addMissing path .nil)).flat ++ _)) = _
            rw [Items.flat_addLast]
            simp only [List.append_assoc]
          rw [hedited]
          exact hm'

/-- Where every component exists the loop changes nothing. -/
theorem Shows.createComponents_found {path : List Bytes}
    (hpath : ∀ component ∈ path, component ≠ []) {n p : Bytes} {items inner : Items}
    {offset : Nat} (h : d.Shows m) (hnode : (m.fdt d.pointer).NodeAt offset n p items)
    (hinner : items.itemsAt path = some inner) (stop : Nat) :
    Dtb.createComponents offset stop path d = (.ok (), d) := by
  induction path generalizing n p items offset stop with
  | nil => rfl
  | cons component path ih =>
      obtain ⟨c, hc, hrest⟩ := Option.bind_eq_some_iff.mp hinner
      obtain ⟨pad', front, back, hsite⟩ := Items.exists_childSite hnode.valid hc
      rw [Dtb.createComponents, DtbM.guard_ok]
      refine ⟨hpath component List.mem_cons_self, DtbM.bind_ok.mpr
        ⟨some (spanNode (offset + (nodeHead n p).length + front.length) component pad' c), d,
          DtbM.read_ok.mpr ⟨?_, rfl⟩, ?_⟩⟩
      · simp only [h.fdtView, hnode.nodeAtOffset, okOr, bind, Except.bind, hnode.findChild_some hsite]
      · exact ih (fun x hx => hpath x (List.mem_cons_of_mem _ hx)) (hnode.child hsite) hrest _

/-! ## §4. The whole call. -/

/-- The parts of valid UTF-8 between slashes are valid. -/
theorem utf8Valid_of_intercalate {parts : List Bytes} {b : UInt8} (hb : b < 0x80)
    (h : utf8Valid ([b].intercalate parts) = true) : ∀ part ∈ parts, utf8Valid part = true := by
  induction parts with
  | nil =>
      intro part hpart
      cases hpart
  | cons first rest ih =>
      cases rest with
      | nil =>
          intro part hpart
          obtain rfl := List.mem_singleton.mp hpart
          simpa using h
      | cons second rest =>
          rw [List.intercalate_cons_cons, List.append_assoc, List.singleton_append] at h
          obtain ⟨hfirst, hrest⟩ := (utf8Valid_append_ascii hb _ _).mp h
          intro part hpart
          rcases List.mem_cons.mp hpart with rfl | hpart
          · exact hfirst
          · exact ih hrest part hpart

/-- A path with components other than the empty one is not `/`. -/
theorem pathComponents_eq {path : Bytes} {components : List Bytes}
    (hsplit : Fdt.splitPath path = [] :: components) (hnonempty : ∀ c ∈ components, c ≠ []) :
    pathComponents path = components := by
  have hslash : path ≠ ascii "/" := by
    rintro rfl
    have hroot : Fdt.splitPath (ascii "/") = [] :: [[]] := by decide
    obtain rfl := (List.cons.inj (hroot.symm.trans hsplit)).2
    exact hnonempty [] List.mem_cons_self rfl
  rw [pathComponents, if_neg hslash, hsplit, List.tail_cons]

/-- An absolute path is followed from the root. -/
theorem createNode_eq {path : Bytes} {components : List Bytes}
    (hsplit : Fdt.splitPath path = [] :: components) :
    createNode path = (DtbM.read (fun d => do
      let fdt ← d.fdtView
      okOr fdt.rootNode .badStructure) >>= fun root =>
        Dtb.createComponents root.beginOffset root.endOffset components) := by
  rw [createNode, hsplit]
  rfl

/-- The refinement at any size, and how much of the allocation it takes.  The new
    nodes have no properties, so the blob stays regular. -/
theorem createNode_decodes {tree : Tree} {path : Bytes} {components : List Bytes} {u : Unit}
    (hdec : d.Decodes tree) (hbehind : fdtHeaderSize ≤ d.offMemRsvmap)
    (hsplit : Fdt.splitPath path = [] :: components) (hutf8 : utf8Valid path = true)
    (hcomponents : ∀ component ∈ components, component ≠ [] ∧ 0 ∉ component)
    (hok : createNode path d = (.ok u, d')) :
    d'.Decodes (tree.addMissing components) ∧ fdtHeaderSize ≤ d'.offMemRsvmap
      ∧ (∃ fdt' node, d'.fdtView = .ok fdt' ∧ fdt'.findNode path = some node)
      ∧ createNode path d' = (.ok (), d')
      ∧ (d.Regular tree → d'.Regular (tree.addMissing components))
      ∧ d'.usedBlobEndOffset ≤ d.usedBlobEndOffset + Items.pathRoom components := by
  obtain ⟨m, items, pad, lead, trail, hm, hh⟩ := hdec.exists_image
  rw [hm.offMemRsvmap] at hbehind
  have hnonempty : ∀ c ∈ components, c ≠ [] := fun c hc => (hcomponents c hc).1
  have htext : ∀ c ∈ components, IsText c := by
    have hparts : utf8Valid ([0x2f].intercalate (Fdt.splitPath path)) = true := by
      rw [Fdt.splitPath, List.intercalate_splitOn]
      exact hutf8
    intro c hc
    refine ⟨(hcomponents c hc).2, utf8Valid_of_intercalate (by decide) hparts c ?_⟩
    rw [hsplit]
    exact List.mem_cons_of_mem _ hc
  -- from the root
  rw [createNode_eq hsplit] at hok
  obtain ⟨root, _, hread, hok⟩ := DtbM.bind_ok.mp hok
  obtain ⟨hroot, rfl⟩ := DtbM.read_ok.mp hread
  simp only [hm.fdtView, bind, Except.bind, okOr_eq_ok] at hroot
  obtain rfl := hh.lead_eq_zero hroot
  rw [Fdt.rootNode, hh.nodeAt.nodeAtOffset] at hroot
  cases hroot
  have hblock := hh.block
  obtain ⟨hpointer, free, hm'⟩ := hm.createComponents htext hblock rfl hh.text hh.padded hh.valid hok
  let m' : Image := { m with
    structureBlock := nops 0 ++ (nodeHead tree.rootName pad ++ ((items.addMissing components).flat
      ++ (be32 fdtEndNode ++ (nops trail ++ be32 fdtEnd)))),
    free := free }
  have hcontents : (items.addMissing components).contents (m'.fdt d.pointer).stringAt
      = tree.contents.addMissing components := by
    rw [Items.contents_addMissing, ← hh.contents]
    rfl
  have hh' : m'.Holds d.pointer (tree.addMissing components) (items.addMissing components) pad 0 trail :=
    hh.edit hbehind rfl rfl (hh.valid.addMissing htext) hcontents rfl
  rw [← hpointer] at hh'
  obtain ⟨inner, hinner⟩ := Items.exists_itemsAt_addMissing components items
  refine ⟨hh'.decodes hm', ?_, ?_, ?_, ?_, ?_⟩
  · rw [hm'.offMemRsvmap]
    exact hbehind
  · obtain ⟨n, p, before, after, hfound, -, -⟩ := hh'.nodeAt.descend_some hnonempty hinner
    refine ⟨m'.fdt d'.pointer, spanNode (0 + before.length) n p inner, hm'.fdtView,
      Fdt.findNode_eq_some.mpr ⟨.inr ⟨components, hsplit⟩, _, hh'.nodeAt.nodeAtOffset, ?_⟩⟩
    rw [pathComponents_eq hsplit hnonempty]
    exact hfound
  · rw [createNode_eq hsplit]
    refine DtbM.bind_ok.mpr ⟨spanNode 0 tree.rootName pad (items.addMissing components), d',
      DtbM.read_ok.mpr ⟨?_, rfl⟩,
      Shows.createComponents_found hnonempty hm' hh'.nodeAt hinner _⟩
    simp only [hm'.fdtView, bind, Except.bind, okOr_eq_ok]
    exact hh'.nodeAt.nodeAtOffset
  · intro hregular
    refine ⟨hregular.propsFirst.addMissing components, hregular.named.addMissing components, ?_⟩
    intro fdt hview
    rw [hm'.fdtView] at hview
    cases hview
    exact hregular.terminated (m.fdt d.pointer) hm.fdtView
  · have hgrown := Items.flat_addMissing_length components items
    rw [usedBlobEndOffset, usedBlobEndOffset, hm'.offDtStrings, hm'.sizeDtStrings, hm.offDtStrings,
      hm.sizeDtStrings]
    simp only [Image.offDtStrings, Image.offDtStruct, hblock, List.length_append]
    omega

/-- **Creating a node refines adding the missing components.**  On a well-formed
    blob whose reserve map lies behind the header, with an absolute path of
    non-empty components without NUL: if `create_node` succeeds, the blob is again
    well formed and decodes to the tree with the missing components added,
    `find_node` resolves the path, and a second call changes no byte. -/
theorem createNode_refines {tree : Tree} {path : Bytes} {components : List Bytes} {u : Unit}
    (henc : d.Encodes tree) (hbehind : fdtHeaderSize ≤ d.offMemRsvmap)
    (hsplit : Fdt.splitPath path = [] :: components) (hutf8 : utf8Valid path = true)
    (hcomponents : ∀ component ∈ components, component ≠ [] ∧ 0 ∉ component)
    (hok : createNode path d = (.ok u, d')) :
    d'.Encodes (tree.addMissing components) ∧ fdtHeaderSize ≤ d'.offMemRsvmap
      ∧ (∃ fdt' node, d'.fdtView = .ok fdt' ∧ fdt'.findNode path = some node)
      ∧ createNode path d' = (.ok (), d') := by
  obtain ⟨hdec', hbehind', hfound, hagain, -, -⟩ :=
    createNode_decodes henc.decodes hbehind hsplit hutf8 hcomponents hok
  refine ⟨hdec'.encodes ?_, hbehind', hfound, hagain⟩
  rw [← hdec'.size_eq, (keepsPlace_createNode path).size_of_ok hok, henc.size_eq]
  exact henc.small

/-- Two levels below a node that there is. -/
theorem createNode_refines_example :
    ∃ d', createNode (ascii "/soc/a/b") boardDtb = (.ok (), d')
      ∧ d'.Encodes (boardTree.addMissing [ascii "soc", ascii "a", ascii "b"])
      ∧ createNode (ascii "/soc/a/b") d' = (.ok (), d') := by
  have hrun : (createNode (ascii "/soc/a/b") boardDtb).1 = .ok () := by decide +kernel
  have hok := DtbM.eq_of_fst hrun
  obtain ⟨henc, -, -, hagain⟩ := createNode_refines boardDtb_encodes
    (by rw [boardDtb_shows.offMemRsvmap]; exact Nat.le_refl 40)
    (show Fdt.splitPath (ascii "/soc/a/b") = [] :: [ascii "soc", ascii "a", ascii "b"] by decide)
    (by decide) (by decide) hok
  exact ⟨_, hok, henc, hagain⟩

/-- **The reserve map changes where it overlaps the header.**  The small blob with
    the map at offset 24 is well formed, but the splice rewrites `size_dt_struct`
    inside the map's first entry. -/
theorem createNode_changes_header_entry :
    (smallDtb 24).Encodes (smallTree [headerEntry 16])
      ∧ Fdt.splitPath (ascii "/a") = [] :: [ascii "a"] ∧ utf8Valid (ascii "/a") = true
      ∧ (∀ component ∈ [ascii "a"], component ≠ [] ∧ 0 ∉ component)
      ∧ ∃ d', createNode (ascii "/a") (smallDtb 24) = (.ok (), d')
          ∧ ¬ d'.Encodes ((smallTree [headerEntry 16]).addMissing [ascii "a"]) := by
  have hrun : (createNode (ascii "/a") (smallDtb 24)).1 = .ok () := by decide +kernel
  have hentry : (createNode (ascii "/a") (smallDtb 24)).2.reserveEntry 0
      = some (headerEntry 28) := by
    decide +kernel
  refine ⟨smallDtb_encodes_header, by decide, by decide, by decide, _, DtbM.eq_of_fst hrun, ?_⟩
  intro henc
  have hkept := henc.reserveEntry 0 (show _ = some (headerEntry 16) from rfl)
  exact absurd (hkept.symm.trans hentry) (by decide)

end Dtb

end RustFirmware.DeviceTree
