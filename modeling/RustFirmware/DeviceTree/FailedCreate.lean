/-
  RustFirmware.DeviceTree.FailedCreate
  ────────────────────────────────────
  **WHEN A FAILED `create_node` LEAVES THE TREE AS IT WAS.**

  `create_node` checks a component when its loop comes to it, with the components
  before it already in the blob.  A call that fails therefore keeps the tree only
  if it fails on the first component it has to insert.

  Behind a first inserted node nothing can restore the tree: every later splice
  writes behind that node's begin token, the reader finds this token where the
  parent's end token was, and items that read differently from there on mean a
  different node.

  When such a call succeeds is a bound on lengths for components without a NUL.
  A `&str` may hold a NUL, and the bytes behind it are then read as tokens; for
  these components the condition is the reader's answer on the block with the
  node's bytes put in (`Fdt.canCreate`).
-/
import RustFirmware.DeviceTree.CreateStep

namespace RustFirmware.DeviceTree

open RustFirmware.Lib

/-! ## §1. When the loop succeeds, on any block. -/

/-- The loop of `create_node` on the block alone, with `room` bytes free: every
    component is found, or has room and is found again after its bytes are in. -/
def Fdt.canCreate : Fdt → (room : Nat) → (parent : FdtNode) → List Bytes → Bool
  | _, _, _, [] => true
  | fdt, room, parent, component :: path =>
      if component = [] then false
      else
        match fdt.findChild parent component with
        | some child => canCreate fdt room child path
        | none =>
            if Insertable room component then
              match (fdt.withNode parent.endOffset component).nodeAtOffset parent.endOffset with
              | none      => false
              | some node =>
                  canCreate (fdt.withNode parent.endOffset component)
                    (room - Items.nodeRoom component) node path
            else false

namespace Dtb

open DtbM

variable {d d' : Dtb} {m : Image} {fdt : Fdt} {parent : FdtNode}

/-- **The loop succeeds exactly where the reader says it can.** -/
theorem Shows.createComponents_ok_iff {path : List Bytes} (h : d.Shows m)
    (hblock : fdt.structureBlock = m.structureBlock)
    (hparent : fdt.nodeAtOffset parent.beginOffset = some parent) :
    (∃ d', Dtb.createComponents parent.beginOffset parent.endOffset path d = (.ok (), d'))
      ↔ fdt.canCreate m.free.length parent path = true := by
  induction path generalizing d m fdt parent with
  | nil => exact ⟨fun _ => rfl, fun _ => ⟨d, rfl⟩⟩
  | cons component path ih =>
      rw [Fdt.canCreate]
      cases h.createStep hblock hparent component path with
      | empty hempty hrun =>
          rw [hrun, if_pos hempty]
          simp
      | found child hne hchild hrun =>
          have hnode := (Fdt.findChild_bounds hchild).1
          rw [hrun, if_neg hne, hchild]
          exact ih h hblock hnode
      | refused e hne hchild hno hrun => simp [hrun, hne, hchild, hno]
      | lost d₁ m₁ hne hchild hfits hpointer hshows hstrings hblock₁ hnode hrun =>
          -- the bytes are in, and the reader takes them for something else
          simp [hrun, hne, hchild, hfits, hnode]
      | inserted d₁ m₁ node hne hchild hfits hpointer hshows hstrings hblock₁ hfree hnode hrun =>
          have hbegin := (Fdt.nodeAtOffset_bounds hnode).1
          have hrest := ih hshows hblock₁.symm (by rw [hbegin]; exact hnode)
          have hroom : m.free.length - Items.nodeRoom component = m₁.free.length := by omega
          rw [hrun, if_neg hne, hchild]
          simp only [hfits, if_true, hnode, hroom]
          exact hrest

/-! ## §2. What a first insertion leaves behind. -/

/-- **A begin token stays where it is** when the loop goes on at its node or behind
    it, whether the loop succeeds or fails. -/
theorem Shows.createComponents_keepsFront {path : List Bytes} {front rest : Bytes} (h : d.Shows m)
    (hblock : fdt.structureBlock = m.structureBlock)
    (hparent : fdt.nodeAtOffset parent.beginOffset = some parent)
    (hfront : m.structureBlock = front ++ rest) (hbehind : front.length ≤ parent.beginOffset + 4)
    {result : Except DtbError Unit}
    (hrun : Dtb.createComponents parent.beginOffset parent.endOffset path d = (result, d')) :
    d'.pointer = d.pointer ∧ ∃ (m' : Image) (rest' : Bytes), d'.Shows m' ∧ m'.strings = m.strings
      ∧ m'.structureBlock = front ++ rest' := by
  induction path generalizing d m fdt parent rest with
  | nil =>
      obtain ⟨-, rfl⟩ := Prod.mk.inj hrun
      exact ⟨rfl, m, rest, h, rfl, hfront⟩
  | cons component path ih =>
      have hend := Fdt.nodeAtOffset_end hparent
      -- the node goes in behind the front
      have hkept : (fdt.withNode parent.endOffset component).structureBlock
          = front ++ (rest.take (parent.endOffset - front.length)
              ++ (emptyNodeBytes component ++ fdt.structureBlock.drop parent.endOffset)) := by
        show fdt.structureBlock.take parent.endOffset ++ _ = _
        rw [hblock, hfront, List.take_append, List.take_of_length_le (by omega), List.append_assoc]
      cases h.createStep hblock hparent component path with
      | empty hempty hrun' =>
          obtain ⟨-, rfl⟩ := Prod.mk.inj (hrun.symm.trans hrun')
          exact ⟨rfl, m, rest, h, rfl, hfront⟩
      | found child hne hchild hrun' =>
          obtain ⟨hnode, hahead⟩ := Fdt.findChild_bounds hchild
          exact ih h hblock hnode hfront (by omega) (hrun'.symm.trans hrun)
      | refused e hne hchild hno hrun' =>
          obtain ⟨-, rfl⟩ := Prod.mk.inj (hrun.symm.trans hrun')
          exact ⟨rfl, m, rest, h, rfl, hfront⟩
      | lost d₁ m₁ hne hchild hfits hpointer hshows hstrings hblock₁ hnode hrun' =>
          obtain ⟨-, rfl⟩ := Prod.mk.inj (hrun.symm.trans hrun')
          exact ⟨hpointer, m₁, _, hshows, hstrings, hblock₁.trans hkept⟩
      | inserted d₁ m₁ node hne hchild hfits hpointer hshows hstrings hblock₁ hfree hnode hrun' =>
          have hbegin := (Fdt.nodeAtOffset_bounds hnode).1
          obtain ⟨hpointer', m', rest', hm', hstrings', hblock'⟩ := ih hshows hblock₁.symm
            (by rw [hbegin]; exact hnode) (hblock₁.trans hkept) (by omega) (hrun'.symm.trans hrun)
          exact ⟨hpointer'.trans hpointer, m', rest', hm', hstrings'.trans hstrings, hblock'⟩

section Missing

variable {n p before after : Bytes} {items : Items} {first : Bytes} {rest : List Bytes}

/-- **A call that fails behind its first insertion** leaves a begin token where the
    parent's end token was. -/
theorem Shows.createComponents_leavesBegin {e : DtbError} (h : d.Shows m)
    (hblock : m.structureBlock = before ++ (nodeHead n p ++ (items.flat ++ (be32 fdtEndNode ++ after))))
    (haligned : before.length % 4 = 0) (hname : IsText n) (hpad : p.length = padLength (n.length + 1))
    (hvalid : items.Valid) (hne : first ≠ []) (hnone : items.childItems first = none)
    (hfits : Insertable m.free.length first)
    (hrun : Dtb.createComponents before.length (spanNode before.length n p items).endOffset
      (first :: rest) d = (.error e, d')) :
    d'.pointer = d.pointer ∧ ∃ (m' : Image) (tail : Bytes), d'.Shows m' ∧ m'.strings = m.strings
      ∧ m'.structureBlock
          = before ++ (nodeHead n p ++ (items.flat ++ (be32 fdtBeginNode ++ tail))) := by
  have hnode : (m.fdt d.pointer).NodeAt before.length n p items :=
    Fdt.nodeAt_of_block hblock haligned hname hpad hvalid
  have hmissing := hnode.findChild_none hnone
  -- the bytes of the new node start with a begin token, which is now part of the front
  have hwith : ((m.fdt d.pointer).withNode (spanNode before.length n p items).endOffset
      first).structureBlock = (before ++ (nodeHead n p ++ (items.flat ++ be32 fdtBeginNode)))
        ++ (first ++ (List.replicate (align4 (4 + first.length + 1) - (4 + first.length)) 0
          ++ (be32 fdtEndNode ++ (be32 fdtEndNode ++ after)))) := by
    rw [withNode_block hblock, emptyNodeBytes]
    simp only [List.append_assoc]
  cases h.createStep_nodeAt hnode first rest with
  | empty hempty => exact absurd hempty hne
  | found child _ hchild => exact absurd (hmissing.symm.trans hchild) (by simp)
  | refused e' _ _ hno => exact absurd hfits hno
  | lost d₁ m₁ _ _ _ hpointer hshows hstrings hblock₁ _ hstep =>
      obtain ⟨-, rfl⟩ := Prod.mk.inj (hrun.symm.trans hstep)
      have hkept := hblock₁.trans hwith
      simp only [List.append_assoc] at hkept
      exact ⟨hpointer, m₁, _, hshows, hstrings, hkept⟩
  | inserted d₁ m₁ node _ _ _ hpointer hshows hstrings hblock₁ hfree hfound hstep =>
      obtain ⟨hbegin, -, -, -⟩ := Fdt.nodeAtOffset_bounds hfound
      have hbehind : (before ++ (nodeHead n p ++ (items.flat ++ be32 fdtBeginNode))).length
          ≤ node.beginOffset + 4 := by
        rw [hbegin]
        simp only [spanNode, List.length_append, be32_length]
        omega
      obtain ⟨hpointer', m', tail, hm', hstrings', hblock'⟩ := hshows.createComponents_keepsFront
        hblock₁.symm (by rw [hbegin]; exact hfound) (hblock₁.trans hwith) hbehind (hstep.symm.trans hrun)
      refine ⟨hpointer'.trans hpointer, m', tail, hm', hstrings'.trans hstrings, ?_⟩
      rw [hblock']
      simp only [List.append_assoc]

end Missing

/-! ## §3. The whole call. -/

/-- The blob decodes to the nodes of `tree`, with whatever reserve map. -/
def DecodesNodes (d : Dtb) (tree : Tree) : Prop :=
  ∃ reserveMap, d.Decodes { tree with reserveMap := reserveMap }

/-- Every missing component can be inserted. -/
def CreatesWholePath (d : Dtb) (fdt : Fdt) (root : FdtNode) (components missing : List Bytes) : Prop :=
  if ∀ component ∈ missing, 0 ∉ component then
    (∀ component ∈ missing, component ≠ [] ∧ component.length ≤ 255)
      ∧ Items.pathRoom missing ≤ d.freeRoom
  else fdt.canCreate d.freeRoom root components = true

/-- **All or nothing**: where the call looks for components below a root node at all,
    none is missing, the first missing one cannot be inserted, or all can. -/
def CreatesAllOrNothing (d : Dtb) (tree : Tree) (path : Bytes) : Prop :=
  ∀ components fdt root, Fdt.splitPath path = [] :: components → d.fdtView = .ok fdt →
    fdt.rootNode = some root → ∀ first rest, tree.contents.missing components = first :: rest →
      first = [] ∨ ¬ Insertable d.freeRoom first
        ∨ d.CreatesWholePath fdt root components (first :: rest)

/-- Bytes that diverge below the root decode to another tree. -/
theorem not_decodesNodes {tree : Tree} {items : Items} {pad tail : Bytes} (hm : d.Shows m)
    (htext : IsText tree.rootName) (hpad : pad.length = padLength (tree.rootName.length + 1))
    (hcontents : items.contents (m.fdt d.pointer).stringAt = tree.contents)
    (hblock : m.structureBlock = nodeHead tree.rootName pad ++ tail)
    (hdiverges : items.Diverges (m.fdt d.pointer).stringAt tail) : ¬ d.DecodesNodes tree := by
  intro ⟨reserveMap, hdec⟩
  obtain ⟨fdt, hview, -, items', pad', lead, trail, -, hpad', hvalid', hcontents', hblock'⟩ := hdec.view
  obtain rfl : fdt = m.fdt d.pointer := Except.ok.inj (hview.symm.trans hm.fdtView)
  -- the two readings of the block agree on the root's head, so they meet at its items
  have hroot := nops_append_inj (l := 0) (take_nodeHead_ne tree.rootName pad' _)
    (take_nodeHead_ne tree.rootName pad tail) (hblock'.symm.trans hblock)
  simp only [nodeHead, List.append_assoc, List.cons_append] at hroot
  obtain ⟨-, hinside⟩ := text_append_inj htext.1 htext.1 (List.append_cancel_left hroot)
  obtain ⟨-, hitems⟩ := List.append_inj hinside (hpad'.trans hpad.symm)
  exact hdiverges items' _ hvalid' hitems (hcontents'.trans hcontents.symm)

/-- Without a leading slash or without a root node the call fails cleanly. -/
theorem createNode_failsClean {path : Bytes}
    (h : ∀ components fdt root, Fdt.splitPath path = [] :: components → d.fdtView = .ok fdt →
      fdt.rootNode = some root → False) : FailsClean (createNode path) d := by
  unfold createNode
  cases hsplit : Fdt.splitPath path with
  | nil => exact failsClean_throw _ d
  | cons first components =>
      apply failsClean_guard
      intro hfirst
      obtain rfl := not_not.mp hfirst
      apply failsClean_read_bind
      intro root hroot
      cases hview : d.fdtView with
      | error e =>
          rw [hview] at hroot
          cases hroot
      | ok fdt =>
          simp only [hview, bind, Except.bind, okOr_eq_ok] at hroot
          exact (h components fdt root hsplit hview hroot).elim

/-- The call at a root node: what it leaves when it fails, for each first missing
    component. -/
theorem createNode_keeps_iff_at {tree : Tree} {path : Bytes} {components : List Bytes} {fdt : Fdt}
    {root : FdtNode} (hdec : d.Decodes tree) (hutf8 : ∀ c ∈ components, utf8Valid c = true)
    (hsplit : Fdt.splitPath path = [] :: components) (hview : d.fdtView = .ok fdt)
    (hroot : fdt.rootNode = some root) :
    (∀ e d', createNode path d = (.error e, d') → d'.DecodesNodes tree)
      ↔ ∀ first rest, tree.contents.missing components = first :: rest →
          first = [] ∨ ¬ Insertable d.freeRoom first
            ∨ d.CreatesWholePath fdt root components (first :: rest) := by
  have hcall := createNode_run hsplit hview hroot
  obtain ⟨m, items, pad, lead, trail, hm, hh⟩ := hdec.exists_image
  obtain rfl : fdt = m.fdt d.pointer := Except.ok.inj (hview.symm.trans hm.fdtView)
  obtain rfl := hh.lead_eq_zero hroot
  have hrootAt := hroot
  rw [Fdt.rootNode, hh.nodeAt.nodeAtOffset] at hrootAt
  obtain rfl := Option.some.inj hrootAt
  have hfree := hm.freeRoom
  -- the walk ends at the parent of the first missing component
  obtain ⟨n, p, before, after, inner, hblock, haligned, hname, hpad, hvalid, hfirst, hwalk, htransport⟩ :=
    hm.createComponents_walk components (m.fdt d.pointer).stringAt hh.block rfl hh.text hh.padded hh.valid
  have hrun := hcall.trans hwalk
  rw [hh.contents] at hfirst hrun
  have hnode : (m.fdt d.pointer).NodeAt before.length n p inner :=
    Fdt.nodeAt_of_block hblock haligned hname hpad hvalid
  cases hmissing : tree.contents.missing components with
  | nil =>
      rw [hmissing] at hrun
      constructor
      · intro _ first rest hsame
        cases hsame
      · intro _ e d' herr
        cases (Prod.mk.inj (hrun.symm.trans herr)).1
  | cons first rest =>
      rw [hmissing] at hrun hfirst
      have hnone := hfirst first rest rfl
      by_cases hrefused : first = [] ∨ ¬ Insertable m.free.length first
      · -- nothing has been written when the call fails
        constructor
        · intro _ first' rest' hsame
          cases hsame
          rw [hfree]
          exact hrefused.imp_right .inl
        · intro _ e d' herr
          have hclean : d' = d := by
            cases hm.createStep_nodeAt hnode first rest with
            | empty _ hstep => exact (Prod.mk.inj (herr.symm.trans (hrun.trans hstep))).2
            | refused e' _ _ _ hstep => exact (Prod.mk.inj (herr.symm.trans (hrun.trans hstep))).2
            | found child hne hchild =>
                have habsent := hnode.findChild_none (hnone.resolve_left hne)
                exact absurd (habsent.symm.trans hchild) (by simp)
            | lost d₁ m₁ hne _ hfits => exact absurd hrefused (by simp [hne, hfits])
            | inserted d₁ m₁ node hne _ hfits => exact absurd hrefused (by simp [hne, hfits])
          rw [hclean]
          exact ⟨tree.reserveMap, hdec⟩
      · obtain ⟨hne, hfits⟩ := not_or.mp hrefused
        have hfits := not_not.mp hfits
        have hall : (∃ d', createNode path d = (.ok (), d'))
            ↔ d.CreatesWholePath (m.fdt d.pointer) (spanNode 0 tree.rootName pad items) components
                (first :: rest) := by
          rw [CreatesWholePath, hfree]
          split_ifs with htext
          · rw [hrun]
            refine hm.createComponents_missing_iff ?_ hblock haligned hname hpad hvalid hfirst
            intro c hc
            refine ⟨htext c hc, hutf8 c (mem_of_mem_missing tree.contents ?_)⟩
            rw [hmissing]
            exact hc
          · rw [hcall]
            exact hm.createComponents_ok_iff rfl hroot
        constructor
        · intro hkeeps first' rest' hsame
          cases hsame
          refine .inr (.inr (hall.mp ?_))
          rcases hresult : createNode path d with ⟨result, d'⟩
          cases result with
          | ok u => exact ⟨d', rfl⟩
          | error e =>
              -- the first new node is in the blob, and the tree is another
              obtain ⟨hpointer, m', tail, hm', hstrings, hblock'⟩ :=
                hm.createComponents_leavesBegin hblock haligned hname hpad hvalid hne
                  (hnone.resolve_left hne) hfits (hrun.symm.trans hresult)
              obtain ⟨tail', hdiverges, hsame⟩ := htransport _ (Items.diverges_begin hvalid tail)
              have hnames : (m'.fdt d'.pointer).stringAt = (m.fdt d.pointer).stringAt :=
                Fdt.stringAt_congr hstrings
              exact absurd (hkeeps e d' hresult) (not_decodesNodes hm' hh.text hh.padded
                (by rw [hnames]; exact hh.contents) (hblock'.trans hsame) (by rw [hnames]; exact hdiverges))
        · intro hwhole e d' herr
          rcases hwhole first rest rfl with hempty | hno | hcreates
          · exact absurd hempty hne
          · rw [hfree] at hno
            exact absurd hfits hno
          · obtain ⟨d'', hok⟩ := hall.mpr hcreates
            cases (Prod.mk.inj (herr.symm.trans hok)).1

/-- **A failed `create_node` keeps the tree exactly if it is all or nothing.** -/
theorem failed_createNode_keeps_tree_iff {tree : Tree} {path : Bytes} (hdec : d.Decodes tree)
    (hutf8 : utf8Valid path = true) :
    (∀ e d', createNode path d = (.error e, d') → d'.DecodesNodes tree)
      ↔ d.CreatesAllOrNothing tree path := by
  -- a slash is no byte of a longer character, so the parts are text of their own
  have hparts : ∀ c ∈ Fdt.splitPath path, utf8Valid c = true := by
    apply utf8Valid_of_intercalate (b := 0x2f) (by decide)
    rw [Fdt.splitPath, List.intercalate_splitOn]
    exact hutf8
  constructor
  · intro hkeeps components fdt root hsplit hview hroot
    refine (createNode_keeps_iff_at hdec ?_ hsplit hview hroot).mp hkeeps
    intro c hc
    exact hparts c (by rw [hsplit]; exact List.mem_cons_of_mem _ hc)
  · intro hall
    by_cases hlooks : ∃ components fdt root, Fdt.splitPath path = [] :: components
        ∧ d.fdtView = .ok fdt ∧ fdt.rootNode = some root
    · obtain ⟨components, fdt, root, hsplit, hview, hroot⟩ := hlooks
      refine (createNode_keeps_iff_at hdec ?_ hsplit hview hroot).mpr
        (hall components fdt root hsplit hview hroot)
      intro c hc
      exact hparts c (by rw [hsplit]; exact List.mem_cons_of_mem _ hc)
    · intro e d' herr
      have hclean : FailsClean (createNode path) d := createNode_failsClean fun components fdt root
        hsplit hview hroot => hlooks ⟨components, fdt, root, hsplit, hview, hroot⟩
      obtain rfl := hclean e d' herr
      exact ⟨tree.reserveMap, hdec⟩

/-- The empty component below `soc` is met before anything is inserted. -/
theorem failed_createNode_keeps_tree_iff_example :
    ∃ d', createNode (ascii "/soc//a") boardDtb = (.error .invalidPath, d')
      ∧ d'.DecodesNodes boardTree := by
  have hrun : (createNode (ascii "/soc//a") boardDtb).1 = .error .invalidPath := by decide +kernel
  have herr := eq_of_fst_error hrun
  refine ⟨_, herr, (failed_createNode_keeps_tree_iff boardDtb_encodes.decodes (by decide)).mpr ?_
    _ _ herr⟩
  intro components fdt root hsplit _ _ first rest hmissing
  have hcomponents : Fdt.splitPath (ascii "/soc//a") = [] :: [ascii "soc", [], ascii "a"] := by
    decide
  obtain rfl := (List.cons.inj (hcomponents.symm.trans hsplit)).2
  have hempty : boardTree.contents.missing [ascii "soc", [], ascii "a"] = [[], ascii "a"] := by decide
  exact .inl (List.cons.inj (hempty.symm.trans hmissing)).1.symm

/-- **A node stays behind.**  With `/a/` the component `a` is inserted before the
    empty one behind it is met. -/
theorem failed_createNode_leaves_node :
    (smallDtb 40).Encodes (smallTree []) ∧ utf8Valid (ascii "/a/") = true
      ∧ ∃ d', createNode (ascii "/a/") (smallDtb 40) = (.error .invalidPath, d')
          ∧ ¬ d'.DecodesNodes (smallTree []) := by
  have hrun : (createNode (ascii "/a/") (smallDtb 40)).1 = .error .invalidPath := by decide +kernel
  have herr := eq_of_fst_error hrun
  refine ⟨smallDtb_encodes_empty, by decide, _, herr, ?_⟩
  intro hkept
  have hm := smallDtb_shows (Nat.le_refl 40)
  have hroot : (((smallImage 40).fdt 0x80008000).rootNode).isSome = true := by decide +kernel
  obtain ⟨root, hroot⟩ := Option.isSome_iff_exists.mp hroot
  have hall := (createNode_keeps_iff_at smallDtb_encodes_empty.decodes (by decide)
    (show Fdt.splitPath (ascii "/a/") = [] :: [ascii "a", []] by decide) hm.fdtView hroot).mp (by
      intro e d' herr'
      obtain ⟨-, rfl⟩ := Prod.mk.inj (herr.symm.trans herr')
      exact hkept) (ascii "a") [[]] rfl
  rw [hm.freeRoom] at hall
  rcases hall with hempty | hno | hwhole
  · exact absurd hempty (by decide)
  · exact absurd (show Insertable 40 (ascii "a") by decide) hno
  · rw [CreatesWholePath, if_pos (by decide)] at hwhole
    exact (hwhole.1 [] (by simp)).1 rfl

end Dtb

end RustFirmware.DeviceTree
