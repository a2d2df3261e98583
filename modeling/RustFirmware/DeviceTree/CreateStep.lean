/-
  RustFirmware.DeviceTree.CreateStep
  ──────────────────────────────────
  **ONE PASS OF `create_node`, AND WHEN ALL OF THEM SUCCEED.**

  A pass refuses before it writes, goes on in an existing child, or splices an
  empty node in and asks the reader for it (`CreateStep`).  This is so on any
  block, also where the component holds a NUL and the reader takes the bytes
  behind it for tokens.

  On the block of a tree the passes up to the first missing component write
  nothing (`Shows.createComponents_walk`).  From there on each component goes
  into the empty node before it, and what decides is the room
  (`Shows.createComponents_missing_iff`).
-/
import RustFirmware.DeviceTree.Failures
import RustFirmware.DeviceTree.Checked
import RustFirmware.DeviceTree.Divergence

namespace RustFirmware.DeviceTree

open RustFirmware.Lib

/-! ## §1. The reader on any block. -/

section Block

variable {fdt fdt' : Fdt}

/-- A node ends behind its begin token. -/
theorem Fdt.nodeAtOffset_end {node : FdtNode} {offset : Nat} (h : fdt.nodeAtOffset offset = some node) :
    offset + 4 ≤ node.endOffset := by
  obtain ⟨token, htoken, h⟩ := Option.bind_eq_some_iff.mp h
  split_ifs at h with hbegin
  obtain ⟨_, -, h⟩ := Option.bind_eq_some_iff.mp h
  obtain ⟨stop, hstop, h⟩ := Option.bind_eq_some_iff.mp h
  cases h
  rw [not_not] at hbegin
  rw [nodeEndOffset, loopBound, nodeEndLoop, htoken] at hstop
  -- the scan for the end starts behind the name of the begin token
  simp only [hbegin, if_true] at hstop
  split at hstop
  · cases hstop
  · rename_i next hnext
    have hnext := afterBeginNode_bounds hnext
    have hrest := nodeEndLoop_bounds hstop
    show offset + 4 ≤ stop
    omega

/-- The loop that looks for a name does not look back. -/
theorem Fdt.findLoop_bounds {stop fuel offset : Nat} {name : Bytes} {child : FdtNode}
    (h : fdt.forEachChildLoop stop
      (fun child result => if child.name = name then (false, some child) else (true, result))
      fuel offset none = some child) :
    fdt.nodeAtOffset child.beginOffset = some child ∧ offset ≤ child.beginOffset := by
  induction fuel generalizing offset with
  | zero => cases h
  | succ fuel ih =>
      rw [forEachChildLoop] at h
      split_ifs at h
      cases htoken : fdt.readToken offset with
      | none =>
          rw [htoken] at h
          cases h
      | some token =>
          rw [htoken] at h
          dsimp only at h
          split_ifs at h
          -- a property, a nop, and a node whose name is compared
          · cases hnext : fdt.afterProperty offset with
            | none =>
                rw [hnext] at h
                cases h
            | some next =>
                rw [hnext] at h
                have hbounds := afterProperty_bounds hnext
                obtain ⟨hnode, hle⟩ := ih h
                exact ⟨hnode, by omega⟩
          · obtain ⟨hnode, hle⟩ := ih h
            exact ⟨hnode, by omega⟩
          · cases hnode : fdt.nodeAtOffset offset with
            | none =>
                rw [hnode] at h
                cases h
            | some node =>
                rw [hnode] at h
                dsimp only at h
                obtain ⟨hbegin, -, hend, -⟩ := nodeAtOffset_bounds hnode
                split_ifs at h with hname
                · cases h
                  rw [hbegin]
                  exact ⟨hnode, Nat.le_refl _⟩
                · obtain ⟨hnode', hle⟩ := ih h
                  exact ⟨hnode', by omega⟩

/-- A child is a node of the block behind its parent's begin token. -/
theorem Fdt.findChild_bounds {parent child : FdtNode} {name : Bytes}
    (h : fdt.findChild parent name = some child) :
    fdt.nodeAtOffset child.beginOffset = some child ∧ parent.beginOffset + 4 ≤ child.beginOffset := by
  rw [findChild, forEachChild] at h
  cases hnext : fdt.afterBeginNode parent.beginOffset with
  | none =>
      rw [hnext] at h
      cases h
  | some next =>
      rw [hnext] at h
      have hbounds := afterBeginNode_bounds hnext
      obtain ⟨hnode, hle⟩ := findLoop_bounds h
      exact ⟨hnode, by omega⟩

end Block

/-! ## §2. One insertion. -/

/-- The bytes that the node of a component takes. -/
def Items.nodeRoom (component : Bytes) : Nat := 8 + align4 (component.length + 1)

/-- `insert_child_node` has room for the component: in its buffer, and in `room` free
    bytes of the blob. -/
def Insertable (room : Nat) (component : Bytes) : Prop :=
  component.length ≤ 255 ∧ Items.nodeRoom component ≤ room

instance (room : Nat) (component : Bytes) : Decidable (Insertable room component) :=
  inferInstanceAs (Decidable (_ ∧ _))

/-- The block with an empty node at `offset`. -/
def Fdt.withNode (fdt : Fdt) (offset : Nat) (name : Bytes) : Fdt :=
  { fdt with structureBlock := fdt.structureBlock.take offset
      ++ (Dtb.emptyNodeBytes name ++ fdt.structureBlock.drop offset) }

namespace Dtb

open DtbM

variable {d d' : Dtb} {m : Image}

theorem emptyNodeBytes_length (name : Bytes) : (emptyNodeBytes name).length = Items.nodeRoom name := by
  have halign : 4 + name.length ≤ align4 (4 + name.length + 1) := by
    unfold align4
    omega
  have hshift : align4 (4 + name.length + 1) = 4 + align4 (name.length + 1) := by
    unfold align4
    omega
  rw [emptyNodeBytes, Items.nodeRoom]
  simp only [List.length_append, be32_length, List.length_replicate]
  omega

/-- A component without room is refused before anything is written. -/
theorem Shows.insertChildNode_refused {name : Bytes} (h : d.Shows m) (parentEnd : Nat)
    (hno : ¬ Insertable m.free.length name) :
    ∃ e, Dtb.insertChildNode parentEnd name d = (.error e, d) := by
  rw [Dtb.insertChildNode]
  by_cases hlong : 4 + name.length + 1 + 3 + 4 > 4 + 256 + 4 + 3
  · rw [if_pos hlong]
    exact ⟨_, rfl⟩
  rw [if_neg hlong]
  -- the buffer takes the name, so the blob has no room for the node
  have hlength := emptyNodeBytes_length name
  have hroom : ¬ Items.nodeRoom name ≤ m.free.length := fun hle => hno ⟨by omega, hle⟩
  have hbound : Items.nodeRoom name < 2 ^ 31 := by
    unfold Items.nodeRoom align4
    omega
  have htotal : m.totalSize = m.offDtStrings + m.strings.length + m.free.length := rfl
  have hused : d.usedBlobEndOffset = m.offDtStrings + m.strings.length := by
    rw [Dtb.usedBlobEndOffset, h.offDtStrings, h.sizeDtStrings]
  have hsize := h.size
  have hclean := h.spliceStructPlaceholder_failsClean (d.structureOffsetInBlob parentEnd) 0
    (emptyNodeBytes name).length (fun _ _ => by omega)
  rcases hrun : Dtb.spliceStructPlaceholder (d.structureOffsetInBlob parentEnd) 0
    (emptyNodeBytes name).length d with ⟨result, d₁⟩
  cases result with
  | ok u =>
      have hfits := (spliceStructPlaceholder_ok hrun).2.1
      omega
  | error e =>
      obtain rfl := hclean e d₁ hrun
      exact ⟨e, bind_error.mpr (.inr ⟨_, _, read_of_ok _ rfl,
        bind_error.mpr (.inl (bind_error.mpr (.inl hrun)))⟩)⟩

/-- **`insert_child_node` where its bytes fit**: they stand in the block, and the
    result is what the reader finds at the offset. -/
theorem Shows.insertChildNode_spliced {parentEnd : Nat} {name : Bytes} (h : d.Shows m)
    (hinside : parentEnd ≤ m.structureBlock.length) (hfits : Insertable m.free.length name) :
    ∃ (d₁ : Dtb) (m₁ : Image), d₁.pointer = d.pointer ∧ d₁.Shows m₁ ∧ m₁.strings = m.strings
      ∧ m₁.structureBlock = ((m.fdt d.pointer).withNode parentEnd name).structureBlock
      ∧ m₁.free.length + Items.nodeRoom name = m.free.length
      ∧ Dtb.insertChildNode parentEnd name d
          = (okOr ((((m.fdt d.pointer).withNode parentEnd name).nodeAtOffset parentEnd).map
              (fun node => (node.beginOffset, node.endOffset))) .badStructure, d₁) := by
  obtain ⟨hshort, hroom⟩ := hfits
  have hlength := emptyNodeBytes_length name
  have hsplit : m.structureBlock
      = m.structureBlock.take parentEnd ++ ([] ++ m.structureBlock.drop parentEnd) :=
    (List.take_append_drop parentEnd m.structureBlock).symm
  have htake : (m.structureBlock.take parentEnd).length = parentEnd := List.length_take_of_le hinside
  have hbound : Items.nodeRoom name < 2 ^ 31 := by
    unfold Items.nodeRoom align4
    omega
  have htotal : m.totalSize = m.offDtStrings + m.strings.length + m.free.length := rfl
  obtain ⟨d₀, hsplice⟩ := h.spliceStructPlaceholder_exists hsplit
    (show m.offDtStrings + m.strings.length + (emptyNodeBytes name).length ≤ m.totalSize + _ by
      rw [hlength, htotal]
      exact Nat.le_trans (Nat.add_le_add_left hroom _) (Nat.le_add_right _ _))
    (Nat.zero_le _) (by omega)
  rw [htake, List.length_nil] at hsplice
  obtain ⟨d₁, hwritten⟩ : ∃ d₁, Dtb.spliceStruct (m.offDtStruct + parentEnd) 0 (emptyNodeBytes name) d
      = (.ok (), d₁) := by
    rw [Dtb.spliceStruct, DtbM.bind_of_ok hsplice]
    exact ⟨_, rfl⟩
  obtain ⟨hpointer, free, hm₁⟩ := h.spliceStruct hsplit (by rw [htake]) hwritten
  have hsize₁ := ((keepsPlace_spliceStructPlaceholder _ _ _).bind
    fun _ => keepsPlace_writeBytes _ _).size_of_ok hwritten
  refine ⟨d₁, _, hpointer, hm₁, rfl, rfl, ?_, ?_⟩
  · -- the block has grown by what the free space has lost
    have hblock := congrArg List.length hsplit
    have htotal₁ := hm₁.size.symm.trans (hsize₁.trans h.size)
    simp only [Image.totalSize, Image.offDtStrings, Image.offDtStruct, List.length_append, hlength,
      List.length_nil] at htotal₁ hblock
    show free.length + Items.nodeRoom name = m.free.length
    omega
  · have hoffset : DtbM.read (fun d => .ok (d.structureOffsetInBlob parentEnd)) d
        = (.ok (m.offDtStruct + parentEnd), d) := by
      show (Except.ok (d.offDtStruct + parentEnd), d) = _
      rw [h.offDtStruct]
    rw [Dtb.insertChildNode, if_neg (by omega), DtbM.bind_of_ok hoffset, DtbM.bind_of_ok hwritten]
    -- the reader looks at the spliced block
    have hview : d₁.fdtView = .ok (Image.fdt _ d₁.pointer) := hm₁.fdtView
    have hsame := Fdt.nodeAtOffset_congr (show (Image.fdt { m with
      structureBlock := m.structureBlock.take parentEnd
        ++ (emptyNodeBytes name ++ m.structureBlock.drop parentEnd), free := free } d₁.pointer).structureBlock
          = ((m.fdt d.pointer).withNode parentEnd name).structureBlock from rfl) parentEnd
    cases hnode : ((m.fdt d.pointer).withNode parentEnd name).nodeAtOffset parentEnd with
    | none =>
        refine bind_error.mpr (.inl ?_)
        simp only [DtbM.read, hview, bind, Except.bind, hsame, hnode, okOr]
    | some node =>
        refine DtbM.bind_ok.mpr ⟨node, d₁, ?_, rfl⟩
        simp only [DtbM.read, hview, bind, Except.bind, hsame, hnode, okOr]

end Dtb

/-! ## §3. One pass. -/

namespace Dtb

open DtbM

variable {d d' : Dtb} {m : Image} {fdt : Fdt} {parent : FdtNode}

/-- What the pass for `component` does: it refuses before anything is written, goes
    on in the existing child, or splices a node in, which the reader may not find. -/
inductive CreateStep (d : Dtb) (m : Image) (fdt : Fdt) (parent : FdtNode) (component : Bytes)
    (path : List Bytes) (run : Except DtbError Unit × Dtb) : Prop where
  | empty (hempty : component = []) (hrun : run = (.error .invalidPath, d))
  | found (child : FdtNode) (hne : component ≠ []) (hchild : fdt.findChild parent component = some child)
      (hrun : run = Dtb.createComponents child.beginOffset child.endOffset path d)
  | refused (e : DtbError) (hne : component ≠ []) (hchild : fdt.findChild parent component = none)
      (hno : ¬ Insertable m.free.length component) (hrun : run = (.error e, d))
  | lost (d₁ : Dtb) (m₁ : Image) (hne : component ≠ [])
      (hchild : fdt.findChild parent component = none) (hfits : Insertable m.free.length component)
      (hpointer : d₁.pointer = d.pointer) (hshows : d₁.Shows m₁) (hstrings : m₁.strings = m.strings)
      (hblock : m₁.structureBlock = (fdt.withNode parent.endOffset component).structureBlock)
      (hnode : (fdt.withNode parent.endOffset component).nodeAtOffset parent.endOffset = none)
      (hrun : run = (.error .badStructure, d₁))
  | inserted (d₁ : Dtb) (m₁ : Image) (node : FdtNode) (hne : component ≠ [])
      (hchild : fdt.findChild parent component = none) (hfits : Insertable m.free.length component)
      (hpointer : d₁.pointer = d.pointer) (hshows : d₁.Shows m₁) (hstrings : m₁.strings = m.strings)
      (hblock : m₁.structureBlock = (fdt.withNode parent.endOffset component).structureBlock)
      (hfree : m₁.free.length + Items.nodeRoom component = m.free.length)
      (hnode : (fdt.withNode parent.endOffset component).nodeAtOffset parent.endOffset = some node)
      (hrun : run = Dtb.createComponents node.beginOffset node.endOffset path d₁)

/-- **One pass of the loop**, on any block. -/
theorem Shows.createStep (h : d.Shows m) (hblock : fdt.structureBlock = m.structureBlock)
    (hparent : fdt.nodeAtOffset parent.beginOffset = some parent) (component : Bytes)
    (path : List Bytes) :
    CreateStep d m fdt parent component path
      (Dtb.createComponents parent.beginOffset parent.endOffset (component :: path) d) := by
  by_cases hempty : component = []
  · refine .empty hempty ?_
    rw [Dtb.createComponents, if_pos hempty]
    rfl
  -- the reader's view of the blob has the block of `fdt`
  have hsame : (m.fdt d.pointer).structureBlock = fdt.structureBlock := hblock.symm
  have hread : DtbM.read (fun d => do
      let fdt ← d.fdtView
      let parentNode ← okOr (fdt.nodeAtOffset parent.beginOffset) .badStructure
      .ok (fdt.findChild parentNode component)) d = (.ok (fdt.findChild parent component), d) := by
    simp only [DtbM.read, h.fdtView, bind, Except.bind, Fdt.nodeAtOffset_congr hsame, hparent, okOr,
      Fdt.findChild_congr hsame]
  have hwith : ((m.fdt d.pointer).withNode parent.endOffset component).structureBlock
      = (fdt.withNode parent.endOffset component).structureBlock := by
    simp only [Fdt.withNode, hsame]
  cases hchild : fdt.findChild parent component with
  | some child =>
      rw [hchild] at hread
      have hrun : Dtb.createComponents parent.beginOffset parent.endOffset (component :: path) d
          = Dtb.createComponents child.beginOffset child.endOffset path d := by
        rw [Dtb.createComponents, if_neg hempty]
        exact DtbM.bind_of_ok hread
      exact .found child hempty hchild hrun
  | none =>
      rw [hchild] at hread
      have hrun : Dtb.createComponents parent.beginOffset parent.endOffset (component :: path) d
          = (Dtb.insertChildNode parent.endOffset component >>= fun inserted =>
              Dtb.createComponents inserted.1 inserted.2 path) d := by
        rw [Dtb.createComponents, if_neg hempty]
        exact DtbM.bind_of_ok hread
      -- no child of that name: the pass inserts one where the parent ends
      by_cases hfits : Insertable m.free.length component
      case neg =>
        obtain ⟨e, hrefused⟩ := h.insertChildNode_refused parent.endOffset hfits
        exact .refused e hempty hchild hfits (hrun.trans (bind_error.mpr (.inl hrefused)))
      have hend := (Fdt.nodeAtOffset_bounds hparent).2.2.2
      rw [hblock] at hend
      obtain ⟨d₁, m₁, hpointer, hshows, hstrings, hblock₁, hfree, hinsert⟩ :=
        h.insertChildNode_spliced (show parent.endOffset ≤ m.structureBlock.length by omega) hfits
      rw [Fdt.nodeAtOffset_congr hwith] at hinsert
      cases hnode : (fdt.withNode parent.endOffset component).nodeAtOffset parent.endOffset with
      | none =>
          rw [hnode] at hinsert
          exact .lost d₁ m₁ hempty hchild hfits hpointer hshows hstrings (hblock₁.trans hwith) hnode
            (hrun.trans (bind_error.mpr (.inl hinsert)))
      | some node =>
          rw [hnode] at hinsert
          exact .inserted d₁ m₁ node hempty hchild hfits hpointer hshows hstrings (hblock₁.trans hwith)
            hfree hnode (hrun.trans (DtbM.bind_of_ok hinsert))

end Dtb

/-! ## §4. From the root to the first missing component. -/

/-- The rest of the path from the first component on that is empty or does not
    exist. -/
def Contents.missing : (path : List Bytes) → Contents → List Bytes
  | [], _ => []
  | component :: path, contents =>
      if component = [] then component :: path
      else
        match contents.child component with
        | some children => missing path children
        | none          => component :: path

namespace Dtb

open DtbM

variable {d d' : Dtb} {m : Image} {names : Nat → Option Bytes}

/-- One pass at a node of the block. -/
theorem Shows.createStep_nodeAt {offset : Nat} {n p : Bytes} {items : Items} (h : d.Shows m)
    (hnode : (m.fdt d.pointer).NodeAt offset n p items) (component : Bytes) (path : List Bytes) :
    CreateStep d m (m.fdt d.pointer) (spanNode offset n p items) component path
      (Dtb.createComponents offset (spanNode offset n p items).endOffset (component :: path) d) :=
  @Shows.createStep d m (m.fdt d.pointer) (spanNode offset n p items) h rfl hnode.nodeAtOffset
    component path

/-- **The loop walks to the first missing component without a write**, and bytes that
    cannot mean the same there cannot mean the same at the root. -/
theorem Shows.createComponents_walk (path : List Bytes) {n p before after : Bytes} {items : Items}
    (names : Nat → Option Bytes) (h : d.Shows m)
    (hblock : m.structureBlock = before ++ (nodeHead n p ++ (items.flat ++ (be32 fdtEndNode ++ after))))
    (haligned : before.length % 4 = 0) (hname : IsText n) (hpad : p.length = padLength (n.length + 1))
    (hvalid : items.Valid) :
    ∃ (n' p' before' after' : Bytes) (inner : Items),
      m.structureBlock
          = before' ++ (nodeHead n' p' ++ (inner.flat ++ (be32 fdtEndNode ++ after')))
      ∧ before'.length % 4 = 0 ∧ IsText n' ∧ p'.length = padLength (n'.length + 1) ∧ inner.Valid
      ∧ (∀ first rest, (items.contents names).missing path = first :: rest →
          first = [] ∨ inner.childItems first = none)
      ∧ Dtb.createComponents before.length (spanNode before.length n p items).endOffset path d
          = Dtb.createComponents before'.length (spanNode before'.length n' p' inner).endOffset
              ((items.contents names).missing path) d
      ∧ ∀ tail, inner.Diverges names tail → ∃ tail', items.Diverges names tail'
          ∧ before' ++ (nodeHead n' p' ++ tail) = before ++ (nodeHead n p ++ tail') := by
  induction path generalizing n p before after items with
  | nil =>
      refine ⟨n, p, before, after, items, hblock, haligned, hname, hpad, hvalid, ?_, rfl, ?_⟩
      · intro first rest hmissing
        cases hmissing
      · intro tail htail
        exact ⟨tail, htail, rfl⟩
  | cons component path ih =>
      have hnode : (m.fdt d.pointer).NodeAt before.length n p items :=
        Fdt.nodeAt_of_block hblock haligned hname hpad hvalid
      by_cases hfound : component ≠ [] ∧ ∃ c, items.childItems component = some c
      case neg =>
        -- this component is the first missing one
        have hfirst : component = [] ∨ items.childItems component = none := by
          by_cases hempty : component = []
          · exact .inl hempty
          · refine .inr (Option.eq_none_iff_forall_ne_some.mpr ?_)
            intro c hc
            exact hfound ⟨hempty, c, hc⟩
        have hmissing : (items.contents names).missing (component :: path) = component :: path := by
          rw [Contents.missing]
          split_ifs with hempty
          · rfl
          · rw [Items.contents_childItems, hfirst.resolve_left hempty]
            rfl
        refine ⟨n, p, before, after, items, hblock, haligned, hname, hpad, hvalid, ?_, by rw [hmissing], ?_⟩
        · intro first rest hsame
          rw [hmissing] at hsame
          cases hsame
          exact hfirst
        · intro tail htail
          exact ⟨tail, htail, rfl⟩
      obtain ⟨hempty, c, hitems⟩ := hfound
      have hmissing : (items.contents names).missing (component :: path)
          = (c.contents names).missing path := by
        rw [Contents.missing, if_neg hempty, Items.contents_childItems, hitems]
        rfl
      -- into the child
      obtain ⟨pad', front, back, hsite, hdiverges⟩ := Items.exists_divergingSite hvalid hitems
      have hlength : (before ++ (nodeHead n p ++ front)).length
          = before.length + (nodeHead n p).length + front.length := by
        simp only [List.length_append, Nat.add_assoc]
      have hmod := hnode.inside_mod
      have hfrontMod := hsite.aligned
      have hinside := hblock.trans (hsite.block_self before n p after)
      obtain ⟨n', p', before', after', inner, hblock', haligned', hname', hpad', hvalid', hfirst, hrun,
        htransport⟩ := ih hinside (by omega) hsite.text hsite.padded hsite.valid
      refine ⟨n', p', before', after', inner, hblock', haligned', hname', hpad', hvalid', ?_, ?_, ?_⟩
      · rw [hmissing]
        exact hfirst
      · rw [hmissing, ← hrun, hlength]
        have hchild : (m.fdt d.pointer).findChild (spanNode before.length n p items) component
            = some (spanNode (before.length + (nodeHead n p).length + front.length) component pad' c) :=
          hnode.findChild_some hsite
        cases h.createStep_nodeAt hnode component path with
        | empty hempty' => exact absurd hempty' hempty
        | found child hne hfound hstep =>
            rw [hchild] at hfound
            cases hfound
            exact hstep
        | refused e hne hnone => exact absurd (hnone.symm.trans hchild) (by simp)
        | lost d₁ m₁ hne hnone => exact absurd (hnone.symm.trans hchild) (by simp)
        | inserted d₁ m₁ node hne hnone => exact absurd (hnone.symm.trans hchild) (by simp)
      · intro tail htail
        obtain ⟨tail', htail', hsame⟩ := htransport tail htail
        refine ⟨_, hdiverges tail' htail', ?_⟩
        rw [hsame]
        simp only [List.append_assoc]

end Dtb

/-! ## §5. From the first missing component on. -/

theorem Items.pathRoom_cons (component : Bytes) (path : List Bytes) :
    Items.pathRoom (component :: path) = Items.nodeRoom component + Items.pathRoom path := by
  simp [Items.pathRoom, Items.nodeRoom]

namespace Dtb

open DtbM

variable {d d' : Dtb} {m : Image}

section Missing

variable {n p before after : Bytes} {items : Items} {first : Bytes} {rest : List Bytes}

/-- The block with an empty node behind the last item of a node. -/
theorem withNode_block {fdt : Fdt} (hblock : fdt.structureBlock
      = before ++ (nodeHead n p ++ (items.flat ++ (be32 fdtEndNode ++ after)))) (component : Bytes) :
    (fdt.withNode (spanNode before.length n p items).endOffset component).structureBlock
      = (before ++ (nodeHead n p ++ items.flat))
        ++ (emptyNodeBytes component ++ (be32 fdtEndNode ++ after)) := by
  have hsplit : fdt.structureBlock
      = (before ++ (nodeHead n p ++ items.flat)) ++ (be32 fdtEndNode ++ after) := by
    rw [hblock]
    simp only [List.append_assoc]
  have hlength : (spanNode before.length n p items).endOffset
      = (before ++ (nodeHead n p ++ items.flat)).length := by
    simp only [spanNode, List.length_append, Nat.add_assoc]
  show fdt.structureBlock.take _ ++ (_ ++ fdt.structureBlock.drop _) = _
  rw [hsplit, hlength, List.take_left, List.drop_left]

/-- **Missing components without a NUL are all inserted exactly if each has a name of
    1 to 255 bytes and their nodes fit together.** -/
theorem Shows.createComponents_missing_iff {path : List Bytes} (hpath : ∀ c ∈ path, IsText c)
    (h : d.Shows m)
    (hblock : m.structureBlock = before ++ (nodeHead n p ++ (items.flat ++ (be32 fdtEndNode ++ after))))
    (haligned : before.length % 4 = 0) (hname : IsText n) (hpad : p.length = padLength (n.length + 1))
    (hvalid : items.Valid)
    (hnone : ∀ first rest, path = first :: rest → first = [] ∨ items.childItems first = none) :
    (∃ d', Dtb.createComponents before.length (spanNode before.length n p items).endOffset path d
        = (.ok (), d'))
      ↔ (∀ c ∈ path, c ≠ [] ∧ c.length ≤ 255) ∧ Items.pathRoom path ≤ m.free.length := by
  induction path generalizing d m n p before after items with
  | nil =>
      constructor
      · intro _
        exact ⟨by simp, Nat.zero_le _⟩
      · intro _
        exact ⟨d, rfl⟩
  | cons component path ih =>
      have htext := hpath component List.mem_cons_self
      have hnode : (m.fdt d.pointer).NodeAt before.length n p items :=
        Fdt.nodeAt_of_block hblock haligned hname hpad hvalid
      -- where its bytes go in, the reader finds an empty node
      have hmod := hnode.inside_mod
      have hitemsMod := hvalid.flat_mod
      let front : Bytes := before ++ (nodeHead n p ++ items.flat)
      have hlength : front.length = (spanNode before.length n p items).endOffset := by
        simp only [front, spanNode, List.length_append, Nat.add_assoc]
      have hfrontMod : front.length % 4 = 0 := by
        simp only [front, List.length_append]
        omega
      have hwith : ((m.fdt d.pointer).withNode (spanNode before.length n p items).endOffset
          component).structureBlock = front ++ (nodeHead component (namePad component)
            ++ (Items.nil.flat ++ (be32 fdtEndNode ++ (be32 fdtEndNode ++ after)))) := by
        rw [withNode_block hblock, emptyNodeBytes_eq]
        simp only [front, List.append_assoc]
        rfl
      have hnew := Fdt.nodeAt_of_block hwith hfrontMod htext List.length_replicate
        (show Items.nil.Valid from trivial)
      have hnewAt := hnew.nodeAtOffset
      rw [hlength] at hnewAt
      rw [List.forall_mem_cons, Items.pathRoom_cons]
      cases h.createStep_nodeAt hnode component path with
      | empty hempty hstep =>
          rw [hstep]
          simp [hempty]
      | found child hne hchild =>
          have hmissing := hnode.findChild_none ((hnone component path rfl).resolve_left hne)
          exact absurd (hmissing.symm.trans hchild) (by simp)
      | refused e hne _ hno hstep =>
          -- the room for this component alone is part of the bound
          rw [hstep]
          constructor
          · rintro ⟨d', herr⟩
            cases (Prod.mk.inj herr).1
          · intro hall
            exact absurd ⟨hall.1.1.2, by omega⟩ hno
      | lost d₁ m₁ hne _ hfits _ hshows _ _ hlost =>
          -- a name without a NUL is read back
          exact absurd (hnewAt.symm.trans hlost) (by simp)
      | inserted d₁ m₁ node hne _ hfits hpointer hshows hstrings hblock₁ hfree hfound hstep =>
          cases hnewAt.symm.trans hfound
          rw [hstep]
          have hrest := ih (fun c hc => hpath c (List.mem_cons_of_mem _ hc)) hshows (hblock₁.trans hwith)
            hfrontMod htext List.length_replicate trivial (fun _ _ _ => .inr rfl)
          rw [hlength] at hrest
          refine hrest.trans ?_
          constructor
          · intro hall
            exact ⟨⟨⟨hne, hfits.1⟩, hall.1⟩, by omega⟩
          · intro hall
            exact ⟨hall.1.2, by omega⟩

end Missing

theorem mem_of_mem_missing {component : Bytes} {path : List Bytes} (contents : Contents)
    (h : component ∈ contents.missing path) : component ∈ path := by
  induction path generalizing contents with
  | nil => exact h
  | cons first path ih =>
      rw [Contents.missing] at h
      split_ifs at h
      · exact h
      · cases hchild : contents.child first with
        | none =>
            rw [hchild] at h
            exact h
        | some children =>
            rw [hchild] at h
            exact List.mem_cons_of_mem _ (ih children h)

/-- The missing components take no more than all of them. -/
theorem pathRoom_missing_le (path : List Bytes) (contents : Contents) :
    Items.pathRoom (contents.missing path) ≤ Items.pathRoom path := by
  induction path generalizing contents with
  | nil => exact Nat.le_refl _
  | cons component path ih =>
      rw [Contents.missing]
      split_ifs
      · exact Nat.le_refl _
      · cases contents.child component with
        | none => exact Nat.le_refl _
        | some children =>
            rw [Items.pathRoom_cons]
            exact Nat.le_trans (ih children) (Nat.le_add_left _ _)

/-- The bytes of the allocation behind the strings. -/
def freeRoom (d : Dtb) : Nat := d.size - d.usedBlobEndOffset

theorem Shows.freeRoom (h : d.Shows m) : d.freeRoom = m.free.length := by
  have htotal : m.totalSize = m.offDtStrings + m.strings.length + m.free.length := rfl
  rw [Dtb.freeRoom, Dtb.usedBlobEndOffset, h.offDtStrings, h.sizeDtStrings, h.size, htotal]
  exact Nat.add_sub_cancel_left _ _

/-- The call at a root node. -/
theorem createNode_run {path : Bytes} {components : List Bytes} {fdt : Fdt} {root : FdtNode}
    (hsplit : Fdt.splitPath path = [] :: components) (hview : d.fdtView = .ok fdt)
    (hroot : fdt.rootNode = some root) :
    createNode path d = Dtb.createComponents root.beginOffset root.endOffset components d := by
  have hread : DtbM.read (fun d => do
      let fdt ← d.fdtView
      okOr fdt.rootNode .badStructure) d = (.ok root, d) := by
    simp only [DtbM.read, hview, bind, Except.bind, hroot, okOr]
  rw [createNode_eq hsplit, DtbM.bind_of_ok hread]

/-- **Creating a path succeeds** if its components fit and the root is at the front. -/
theorem createNode_exists {tree : Tree} {path : Bytes} {components : List Bytes} {fdt : Fdt}
    {root : FdtNode} (hdec : d.Decodes tree) (hview : d.fdtView = .ok fdt)
    (hroot : fdt.rootNode = some root) (hsplit : Fdt.splitPath path = [] :: components)
    (hcomponents : ∀ component ∈ components,
      IsText component ∧ component ≠ [] ∧ component.length ≤ 255)
    (hroom : d.usedBlobEndOffset + Items.pathRoom components ≤ d.size) :
    ∃ d', createNode path d = (.ok (), d') := by
  have hcall := createNode_run hsplit hview hroot
  obtain ⟨m, items, pad, lead, trail, hm, hh⟩ := hdec.exists_image
  obtain rfl : fdt = m.fdt d.pointer := Except.ok.inj (hview.symm.trans hm.fdtView)
  obtain rfl := hh.lead_eq_zero hroot
  rw [Fdt.rootNode, hh.nodeAt.nodeAtOffset] at hroot
  obtain rfl := Option.some.inj hroot
  -- the components that exist cost nothing
  obtain ⟨n, p, before, after, inner, hblock, haligned, hname, hpad, hvalid, hfirst, hwalk, -⟩ :=
    hm.createComponents_walk components (m.fdt d.pointer).stringAt hh.block rfl hh.text hh.padded hh.valid
  have hfree := hm.freeRoom
  have hfewer := pathRoom_missing_le components (items.contents (m.fdt d.pointer).stringAt)
  have hmissing : ∀ c ∈ (items.contents (m.fdt d.pointer).stringAt).missing components,
      IsText c ∧ c ≠ [] ∧ c.length ≤ 255 := fun c hc => hcomponents c (mem_of_mem_missing _ hc)
  rw [Dtb.freeRoom] at hfree
  -- the call is the loop at the first missing component
  rw [hcall.trans hwalk]
  refine (hm.createComponents_missing_iff (fun c hc => (hmissing c hc).1) hblock haligned hname hpad
    hvalid hfirst).mpr ⟨fun c hc => (hmissing c hc).2, ?_⟩
  omega

end Dtb

end RustFirmware.DeviceTree
