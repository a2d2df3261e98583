/-
  RustFirmware.DeviceTree.Walk
  ────────────────────────────
  **THE READER ON A WELL-FORMED STRUCTURE BLOCK.**

  Where the bytes of a node stand in the structure block (`NodeAt`), each walk of
  the reader does what its name says in terms of the node's items: it finds
  the matching end token, visits the direct children in order, follows a path to
  the first child of each name and returns the first property of a name.

  Every proof is an induction on the items; the fuel only has to exceed the
  number of tokens.
-/
import RustFirmware.Lib.Visit
import RustFirmware.DeviceTree.Contents

namespace RustFirmware.DeviceTree

open RustFirmware.Lib

/-! ## §1. One record. -/

section Records

variable {fdt : Fdt} {offset : Nat}

theorem Fdt.readToken_of_readsAt {token : Nat} (h : ReadsAt fdt.structureBlock offset (be32 token))
    (htoken : token < 2 ^ 32) : fdt.readToken offset = some token := h.be32 htoken

/-- A NUL-terminated text is read to its NUL. -/
theorem readCString_of_readsAt {bytes name pad : Bytes} (hname : IsText name)
    (h : ReadsAt bytes offset (name ++ 0 :: pad)) :
    Fdt.readCString bytes offset = some (name, offset + name.length + 1) := by
  obtain ⟨before, after, rfl, rfl⟩ := h
  have hslice : slice? (before ++ (name ++ 0 :: pad ++ after)) before.length
      (before ++ (name ++ 0 :: pad ++ after)).length = some (name ++ 0 :: (pad ++ after)) := by
    rw [slice?, if_pos ⟨by simp, Nat.le_refl _⟩, List.drop_left, List.take_of_length_le (by simp)]
    simp
  have hvalid : fromUtf8 name = some name := fromUtf8_eq_some.mpr ⟨hname.2, rfl⟩
  simp only [Fdt.readCString, hslice, Option.bind_eq_bind, Option.bind_some,
    nulPosition_append hname.1, List.take_left, hvalid]

/-- What the reader sees of a property record. -/
structure Fdt.PropAt (fdt : Fdt) (offset nameOffset : Nat) (value pad : Bytes) : Prop where
  tokenAt  : fdt.readToken offset = some fdtProp
  lengthAt : fdt.readToken (offset + 4) = some value.length
  nameAt   : fdt.readToken (offset + 8) = some nameOffset
  valueAt  : slice? fdt.structureBlock (offset + 12) (offset + 12 + value.length) = some value
  skip     : align4 (offset + 12 + value.length)
      = offset + (propRecord nameOffset value pad).length
  total    : (propRecord nameOffset value pad).length = 12 + align4 value.length

theorem Fdt.propAt_of_readsAt {nameOffset : Nat} {value pad : Bytes} (haligned : offset % 4 = 0)
    (hname : nameOffset < 2 ^ 32) (hvalue : value.length < 2 ^ 32)
    (hpad : pad.length = padLength value.length)
    (h : ReadsAt fdt.structureBlock offset (propRecord nameOffset value pad)) :
    fdt.PropAt offset nameOffset value pad := by
  obtain ⟨htoken, h⟩ := readsAt_append.mp h
  obtain ⟨hlength, h⟩ := readsAt_append.mp h
  obtain ⟨hnameAt, h⟩ := readsAt_append.mp h
  obtain ⟨hvalueAt, -⟩ := readsAt_append.mp h
  have htotal := propRecord_length nameOffset hpad
  refine ⟨Fdt.readToken_of_readsAt htoken (by decide), Fdt.readToken_of_readsAt hlength hvalue,
    Fdt.readToken_of_readsAt hnameAt hname, hvalueAt.slice, ?_, htotal⟩
  rw [Nat.add_assoc, align4_add haligned, htotal]
  unfold align4
  omega

theorem Fdt.PropAt.afterProperty {nameOffset : Nat} {value pad : Bytes}
    (h : fdt.PropAt offset nameOffset value pad) :
    fdt.afterProperty offset = some (offset + (propRecord nameOffset value pad).length) := by
  simp [Fdt.afterProperty, h.lengthAt, h.valueAt, h.skip]

/-- What the reader sees of a node's begin token and name. -/
structure Fdt.HeadAt (fdt : Fdt) (offset : Nat) (name pad : Bytes) : Prop where
  tokenAt : fdt.readToken offset = some fdtBeginNode
  nameAt  : Fdt.readCString fdt.structureBlock (offset + 4)
      = some (name, offset + 4 + name.length + 1)
  next    : fdt.afterBeginNode offset = some (offset + (nodeHead name pad).length)

theorem Fdt.headAt_of_readsAt {name pad : Bytes} (haligned : offset % 4 = 0)
    (hname : IsText name) (hpad : pad.length = padLength (name.length + 1))
    (h : ReadsAt fdt.structureBlock offset (nodeHead name pad)) :
    fdt.HeadAt offset name pad := by
  obtain ⟨htokenAt, hnameAt⟩ := readsAt_append.mp h
  have htoken := Fdt.readToken_of_readsAt htokenAt (by decide)
  have hread := readCString_of_readsAt hname hnameAt
  rw [be32_length] at hread
  refine ⟨htoken, hread, ?_⟩
  have hskip : align4 (offset + 4 + name.length + 1) = offset + (nodeHead name pad).length := by
    rw [nodeHead_length hpad]
    unfold align4
    omega
  simp [Fdt.afterBeginNode, htoken, hread, hskip]

end Records

/-! ## §2. A node and its end token. -/

/-- The node whose begin token stands at `offset`. -/
def spanNode (offset : Nat) (name pad : Bytes) (items : Items) : FdtNode where
  name        := name
  beginOffset := offset
  endOffset   := offset + (nodeHead name pad).length + items.flat.length

/-- A node with these contents stands at `offset` of the structure block. -/
structure Fdt.NodeAt (fdt : Fdt) (offset : Nat) (name pad : Bytes) (items : Items) : Prop where
  aligned : offset % 4 = 0
  text    : IsText name
  padded  : pad.length = padLength (name.length + 1)
  valid   : items.Valid
  bytes   : ReadsAt fdt.structureBlock offset
      (nodeHead name pad ++ (items.flat ++ be32 fdtEndNode))

theorem Fdt.nodeAt_of_block {fdt : Fdt} {name pad before after : Bytes} {items : Items}
    (hblock : fdt.structureBlock
      = before ++ (nodeHead name pad ++ (items.flat ++ (be32 fdtEndNode ++ after))))
    (haligned : before.length % 4 = 0) (hname : IsText name)
    (hpad : pad.length = padLength (name.length + 1)) (h : items.Valid) :
    fdt.NodeAt before.length name pad items := by
  refine ⟨haligned, hname, hpad, h, before, after, ?_, rfl⟩
  rw [hblock]
  simp only [List.append_assoc]

section Walks

variable {fdt : Fdt}

/-- `node_end_offset`'s loop passes whole items at an unchanged depth. -/
theorem nodeEndLoop_flat {items : Items} (h : items.Valid) {offset depth : Nat}
    (hat : ReadsAt fdt.structureBlock offset items.flat) (haligned : offset % 4 = 0)
    (hdepth : 0 < depth) (fuel : Nat) :
    fdt.nodeEndLoop (fuel + items.tokens) offset depth
      = fdt.nodeEndLoop fuel (offset + items.flat.length) depth := by
  induction items generalizing offset depth fuel with
  | nil => rfl
  | nop rest ih =>
      obtain ⟨htoken, hrest⟩ := readsAt_append.mp hat
      rw [be32_length] at hrest
      rw [Items.tokens, ← Nat.add_assoc, Fdt.nodeEndLoop,
        Fdt.readToken_of_readsAt htoken (by decide)]
      show fdt.nodeEndLoop (fuel + rest.tokens) (offset + 4) depth = _
      rw [ih h hrest (by omega) hdepth, Items.end_nop]
  | prop o v pad rest ih =>
      obtain ⟨ho, hv, hpad, hvalid⟩ := h
      obtain ⟨hrecord, hrest⟩ := readsAt_append.mp hat
      have hprop := Fdt.propAt_of_readsAt haligned ho hv hpad hrecord
      have hmod := align4_mod v.length
      have hnext : (offset + (propRecord o v pad).length) % 4 = 0 := by
        rw [hprop.total]
        omega
      rw [Items.tokens, ← Nat.add_assoc, Fdt.nodeEndLoop, hprop.tokenAt, hprop.afterProperty]
      show fdt.nodeEndLoop (fuel + rest.tokens) _ depth = _
      rw [ih hvalid hrest hnext hdepth, Items.end_prop]
  | node name pad children rest ihc ihr =>
      obtain ⟨hname, hpad, hchildren, hvalid⟩ := h
      obtain ⟨hhead, hat⟩ := readsAt_append.mp hat
      obtain ⟨hinside, hat⟩ := readsAt_append.mp hat
      obtain ⟨hend, hrest⟩ := readsAt_append.mp hat
      have hh := Fdt.headAt_of_readsAt haligned hname hpad hhead
      have hmod := align4_mod (name.length + 1)
      have hcmod := hchildren.flat_mod
      have hfirst : (offset + (nodeHead name pad).length) % 4 = 0 := by
        rw [nodeHead_length hpad]
        omega
      have hsplit : fuel + (children.tokens + rest.tokens + 2)
          = fuel + rest.tokens + 1 + children.tokens + 1 := by omega
      rw [Items.tokens, hsplit, Fdt.nodeEndLoop, hh.tokenAt, hh.next]
      -- down into the children, back up at the end token, on to the rest
      show fdt.nodeEndLoop (fuel + rest.tokens + 1 + children.tokens) _ (depth + 1) = _
      rw [ihc hchildren hinside hfirst (Nat.succ_pos depth), Fdt.nodeEndLoop,
        Fdt.readToken_of_readsAt hend (by decide)]
      show (if depth = 0 then _ else fdt.nodeEndLoop (fuel + rest.tokens) _ depth) = _
      rw [if_neg (Nat.ne_of_gt hdepth)]
      rw [be32_length] at hrest
      rw [ihr hvalid hrest (by omega) hdepth, Items.end_node]

theorem Fdt.NodeAt.headAt {offset : Nat} {name pad : Bytes} {items : Items}
    (h : fdt.NodeAt offset name pad items) : fdt.HeadAt offset name pad :=
  Fdt.headAt_of_readsAt h.aligned h.text h.padded (readsAt_append.mp h.bytes).1

theorem Fdt.NodeAt.inside {offset : Nat} {name pad : Bytes} {items : Items}
    (h : fdt.NodeAt offset name pad items) :
    ReadsAt fdt.structureBlock (offset + (nodeHead name pad).length) items.flat :=
  (readsAt_append.mp (readsAt_append.mp h.bytes).2).1

theorem Fdt.NodeAt.inside_mod {offset : Nat} {name pad : Bytes} {items : Items}
    (h : fdt.NodeAt offset name pad items) : (offset + (nodeHead name pad).length) % 4 = 0 := by
  have haligned := h.aligned
  have hmod := align4_mod (name.length + 1)
  rw [nodeHead_length h.padded]
  omega

/-- A walk inside the node has fuel for every token, and some to spare. -/
theorem Fdt.NodeAt.tokens_lt {offset : Nat} {name pad : Bytes} {items : Items}
    (h : fdt.NodeAt offset name pad items) : items.tokens + 2 < fdt.loopBound := by
  have hle := h.bytes.length_le
  have htokens := items.tokens_le
  simp only [List.length_append, be32_length, nodeHead] at hle
  unfold Fdt.loopBound
  omega

/-- **`node_at_offset` finds the matching end token.** -/
theorem Fdt.NodeAt.nodeAtOffset {offset : Nat} {name pad : Bytes} {items : Items}
    (h : fdt.NodeAt offset name pad items) :
    fdt.nodeAtOffset offset = some (spanNode offset name pad items) := by
  have hh := h.headAt
  have hend := Fdt.readToken_of_readsAt
    (readsAt_append.mp (readsAt_append.mp h.bytes).2).2 (by decide)
  have hfuel := h.tokens_lt
  obtain ⟨fuel, hbound⟩ : ∃ fuel, fdt.loopBound = fuel + 1 + items.tokens + 1 :=
    ⟨fdt.loopBound - items.tokens - 2, by omega⟩
  have hloop : fdt.nodeEndOffset offset
      = some (offset + (nodeHead name pad).length + items.flat.length) := by
    rw [Fdt.nodeEndOffset, hbound, Fdt.nodeEndLoop, hh.tokenAt, hh.next]
    show fdt.nodeEndLoop (fuel + 1 + items.tokens) _ 1 = _
    rw [nodeEndLoop_flat h.valid h.inside h.inside_mod Nat.one_pos, Fdt.nodeEndLoop, hend]
    rfl
  simp [Fdt.nodeAtOffset, hh.tokenAt, hh.nameAt, hloop, spanNode]

/-! ## §3. Children. -/

/-- The direct children of items that stand at `offset`. -/
def Items.childNodes : Items → (offset : Nat) → List FdtNode
  | nil, _ => []
  | nop rest, offset => rest.childNodes (offset + 4)
  | prop o v pad rest, offset => rest.childNodes (offset + (propRecord o v pad).length)
  | node name pad children rest, offset =>
      spanNode offset name pad children
        :: rest.childNodes ((spanNode offset name pad children).endOffset + 4)

/-- `for_each_child`'s loop shows the direct children in order. -/
theorem forEachChildLoop_flat {σ : Type} (visit : FdtNode → σ → Bool × σ) {items : Items}
    (h : items.Valid) {offset fuel : Nat} (hat : ReadsAt fdt.structureBlock offset items.flat)
    (haligned : offset % 4 = 0) (hfuel : items.tokens < fuel) (acc : σ) :
    fdt.forEachChildLoop (offset + items.flat.length) visit fuel offset acc
      = (foldStop visit (items.childNodes offset) acc).2 := by
  obtain ⟨fuel, rfl⟩ : ∃ n, fuel = n + 1 := ⟨fuel - 1, by omega⟩
  induction items generalizing offset fuel acc with
  | nil =>
      rw [Fdt.forEachChildLoop, if_neg (by simp [Items.flat])]
      rfl
  | nop rest ih =>
      obtain ⟨htoken, hrest⟩ := readsAt_append.mp hat
      rw [be32_length] at hrest
      rw [Items.tokens] at hfuel
      obtain ⟨fuel, rfl⟩ : ∃ n, fuel = n + 1 := ⟨fuel - 1, by omega⟩
      rw [Items.end_nop, Fdt.forEachChildLoop, if_pos (by omega),
        Fdt.readToken_of_readsAt htoken (by decide)]
      exact ih h hrest (by omega) acc fuel (by omega)
  | prop o v pad rest ih =>
      obtain ⟨ho, hv, hpad, hvalid⟩ := h
      obtain ⟨hrecord, hrest⟩ := readsAt_append.mp hat
      have hprop := Fdt.propAt_of_readsAt haligned ho hv hpad hrecord
      have hmod := align4_mod v.length
      have htotal := hprop.total
      rw [Items.tokens] at hfuel
      obtain ⟨fuel, rfl⟩ : ∃ n, fuel = n + 1 := ⟨fuel - 1, by omega⟩
      rw [Items.end_prop, Fdt.forEachChildLoop, if_pos (by omega), hprop.tokenAt, hprop.afterProperty]
      exact ih hvalid hrest (by omega) acc fuel (by omega)
  | node name pad children rest _ ih =>
      obtain ⟨hname, hpad, hchildren, hvalid⟩ := h
      obtain ⟨hhead, htail⟩ := readsAt_append.mp hat
      obtain ⟨hinside, htail⟩ := readsAt_append.mp htail
      obtain ⟨hend, hrest⟩ := readsAt_append.mp htail
      have hnode : fdt.NodeAt offset name pad children :=
        ⟨haligned, hname, hpad, hchildren,
          readsAt_append.mpr ⟨hhead, readsAt_append.mpr ⟨hinside, hend⟩⟩⟩
      have hmod := hnode.inside_mod
      have hcmod := hchildren.flat_mod
      rw [be32_length] at hrest
      rw [Items.tokens] at hfuel
      obtain ⟨fuel, rfl⟩ : ∃ n, fuel = n + 1 := ⟨fuel - 1, by omega⟩
      rw [Items.end_node, Fdt.forEachChildLoop, if_pos (by omega), hnode.headAt.tokenAt, Items.childNodes,
        foldStop]
      dsimp only
      rw [hnode.nodeAtOffset]
      dsimp only
      -- the callback may stop here; otherwise the walk goes on behind the end token
      cases hv : visit (spanNode offset name pad children) acc with
      | mk go acc' =>
          cases go with
          | false => rfl
          | true => exact ih hvalid hrest (by omega) acc' fuel (by omega)

/-- **`for_each_child` visits exactly the direct children, in order.** -/
theorem Fdt.NodeAt.forEachChild {σ : Type} {offset : Nat} {name pad : Bytes} {items : Items}
    (h : fdt.NodeAt offset name pad items) (visit : FdtNode → σ → Bool × σ) (acc : σ) :
    fdt.forEachChild (spanNode offset name pad items) visit acc
      = (foldStop visit (items.childNodes (offset + (nodeHead name pad).length)) acc).2 := by
  have hfuel := h.tokens_lt
  have hnext : fdt.afterBeginNode (spanNode offset name pad items).beginOffset = _ := h.headAt.next
  rw [Fdt.forEachChild, hnext]
  exact forEachChildLoop_flat visit h.valid h.inside h.inside_mod (by omega) acc

theorem Fdt.NodeAt.findChild_eq {offset : Nat} {name pad : Bytes} {items : Items}
    (h : fdt.NodeAt offset name pad items) (component : Bytes) :
    fdt.findChild (spanNode offset name pad items) component
      = (items.childNodes (offset + (nodeHead name pad).length)).find?
          (fun child => decide (child.name = component)) := by
  have hfind := foldStop_find (fun child : FdtNode => decide (child.name = component))
    (items.childNodes (offset + (nodeHead name pad).length)) none
  rw [Option.or_none] at hfind
  rw [Fdt.findChild, h.forEachChild, ← hfind]
  simp only [decide_eq_true_eq]

end Walks

/-! ## §4. Paths. -/

/-- Where the first child called `name` stands among the items: the bytes in front
    of it and behind it, which an edit of the child leaves alone. -/
structure Items.ChildSite (items : Items) (name pad : Bytes) (inner : Items)
    (before after : Bytes) : Prop where
  text    : IsText name
  padded  : pad.length = padLength (name.length + 1)
  valid   : inner.Valid
  aligned : before.length % 4 = 0
  edited  : ∀ edit : Items → Items, (items.onChild name edit).flat
      = before ++ (nodeHead name pad ++ ((edit inner).flat ++ (be32 fdtEndNode ++ after)))
  found   : ∀ offset, (items.childNodes offset).find? (fun child => decide (child.name = name))
      = some (spanNode (offset + before.length) name pad inner)

/-- Bytes in front of the items move the site. -/
theorem Items.ChildSite.shift {items rest inner : Items} {name pad before after : Bytes}
    (h : rest.ChildSite name pad inner before after) (front : Bytes)
    (hfront : front.length % 4 = 0)
    (hedited : ∀ edit, (items.onChild name edit).flat = front ++ (rest.onChild name edit).flat)
    (hfound : ∀ offset,
      (items.childNodes offset).find? (fun child => decide (child.name = name))
        = (rest.childNodes (offset + front.length)).find?
            (fun child => decide (child.name = name))) :
    items.ChildSite name pad inner (front ++ before) after := by
  have haligned := h.aligned
  refine ⟨h.text, h.padded, h.valid, ?_, ?_, ?_⟩
  · rw [List.length_append]
    omega
  · intro edit
    rw [hedited, h.edited, List.append_assoc]
  · intro offset
    rw [hfound, h.found, List.length_append, Nat.add_assoc]

/-- The site of a child that stands in front. -/
theorem Items.childSite_head {name pad : Bytes} {children rest : Items} (hname : IsText name)
    (hpad : pad.length = padLength (name.length + 1)) (hchildren : children.Valid) :
    (node name pad children rest).ChildSite name pad children [] rest.flat := by
  refine ⟨hname, hpad, hchildren, rfl, ?_, ?_⟩
  · intro edit
    rw [onChild, if_pos rfl]
    rfl
  · intro offset
    rw [childNodes, List.find?_cons_of_pos (by simp [spanNode])]
    rfl

/-- A site behind a child of another name. -/
theorem Items.ChildSite.behind {n p name pad before after : Bytes} {children rest inner : Items}
    (h : rest.ChildSite name pad inner before after) (hname : n ≠ name)
    (hp : p.length = padLength (n.length + 1)) (hchildren : children.Valid) :
    (node n p children rest).ChildSite name pad inner
      ((nodeHead n p ++ (children.flat ++ be32 fdtEndNode)) ++ before) after := by
  have hmod := align4_mod (n.length + 1)
  have hcmod := hchildren.flat_mod
  refine h.shift (nodeHead n p ++ (children.flat ++ be32 fdtEndNode)) ?_ ?_ ?_
  · simp only [List.length_append, be32_length]
    rw [nodeHead_length hp]
    omega
  · intro edit
    rw [onChild, if_neg hname, flat]
    simp only [List.append_assoc]
  · intro offset
    rw [childNodes, List.find?_cons_of_neg (by simp [spanNode, hname])]
    simp only [spanNode, List.length_append, be32_length, Nat.add_assoc]

theorem Items.ChildSite.nop {name pad before after : Bytes} {rest inner : Items}
    (h : rest.ChildSite name pad inner before after) :
    (nop rest).ChildSite name pad inner (be32 fdtNop ++ before) after :=
  h.shift (be32 fdtNop) rfl (fun _ => rfl) (fun _ => rfl)

theorem Items.ChildSite.prop {name pad before after : Bytes} {rest inner : Items}
    (h : rest.ChildSite name pad inner before after) (o : Nat) {v p : Bytes}
    (hp : p.length = padLength v.length) :
    (prop o v p rest).ChildSite name pad inner (propRecord o v p ++ before) after := by
  have hmod := align4_mod v.length
  refine h.shift (propRecord o v p) ?_ (fun _ => rfl) (fun _ => rfl)
  rw [propRecord_length o hp]
  omega

/-- The first child of a name has a site. -/
theorem Items.exists_childSite {items inner : Items} {name : Bytes} (h : items.Valid)
    (hchild : items.childItems name = some inner) :
    ∃ pad before after, items.ChildSite name pad inner before after := by
  induction items with
  | nil => cases hchild
  | nop rest ih =>
      obtain ⟨pad, before, after, hsite⟩ := ih h hchild
      exact ⟨pad, _, after, hsite.nop⟩
  | prop o v p rest ih =>
      obtain ⟨-, -, hp, hvalid⟩ := h
      obtain ⟨pad, before, after, hsite⟩ := ih hvalid hchild
      exact ⟨pad, _, after, hsite.prop o hp⟩
  | node n p children rest _ ih =>
      obtain ⟨hn, hp, hchildren, hvalid⟩ := h
      rw [childItems] at hchild
      split_ifs at hchild with hname
      · -- this child
        cases hchild
        subst hname
        exact ⟨p, [], rest.flat, childSite_head hn hp hchildren⟩
      · obtain ⟨pad, before, after, hsite⟩ := ih hvalid hchild
        exact ⟨pad, _, after, hsite.behind hname hp hchildren⟩

/-- An edit of the child in a block around its parent. -/
theorem Items.ChildSite.block {items inner : Items} {name pad front back : Bytes}
    (h : items.ChildSite name pad inner front back) (edit : Items → Items) (before n p after : Bytes) :
    before ++ (nodeHead n p ++ ((items.onChild name edit).flat ++ (be32 fdtEndNode ++ after)))
      = (before ++ (nodeHead n p ++ front)) ++ (nodeHead name pad ++ ((edit inner).flat
          ++ (be32 fdtEndNode ++ (back ++ (be32 fdtEndNode ++ after))))) := by
  rw [h.edited]
  simp only [List.append_assoc]

theorem Items.find_childNodes_none {items : Items} {name : Bytes}
    (hchild : items.childItems name = none) (offset : Nat) :
    (items.childNodes offset).find? (fun child => decide (child.name = name)) = none := by
  induction items generalizing offset with
  | nil => rfl
  | nop rest ih => exact ih hchild _
  | prop o v p rest ih => exact ih hchild _
  | node n p children rest _ ih =>
      rw [childItems] at hchild
      split_ifs at hchild with hname
      rw [childNodes, List.find?_cons_of_neg (by simp [spanNode, hname])]
      exact ih hchild _

/-- An edit that changes nothing. -/
theorem Items.onChild_self (name : Bytes) (items : Items) : items.onChild name (fun c => c) = items := by
  induction items with
  | nil => rfl
  | nop rest ih => rw [onChild, ih]
  | prop o v p rest ih => rw [onChild, ih]
  | node n p children rest _ ih =>
      rw [onChild]
      split_ifs
      · rfl
      · rw [ih]

/-- The child in a block around its parent. -/
theorem Items.ChildSite.block_self {items inner : Items} {name pad front back : Bytes}
    (h : items.ChildSite name pad inner front back) (before n p after : Bytes) :
    before ++ (nodeHead n p ++ (items.flat ++ (be32 fdtEndNode ++ after)))
      = (before ++ (nodeHead n p ++ front)) ++ (nodeHead name pad ++ (inner.flat
          ++ (be32 fdtEndNode ++ (back ++ (be32 fdtEndNode ++ after))))) := by
  have hsame := h.block (fun c => c) before n p after
  rw [onChild_self] at hsame
  exact hsame

theorem Items.modifyAt_self (path : List Bytes) (items : Items) :
    items.modifyAt (fun c => c) path = items := by
  induction path generalizing items with
  | nil => rfl
  | cons component path ih =>
      have hsame : Items.modifyAt (fun c => c) path = (fun c => c) := funext ih
      rw [modifyAt, hsame, onChild_self]

/-- The items at the end of a path. -/
def Items.itemsAt : (path : List Bytes) → Items → Option Items
  | [], items => some items
  | component :: path, items => (items.childItems component).bind (itemsAt path)

/-- The edited child is the edit of the child. -/
theorem Items.childItems_onChild {items inner : Items} {name : Bytes}
    (h : items.childItems name = some inner) (edit : Items → Items) :
    (items.onChild name edit).childItems name = some (edit inner) := by
  induction items with
  | nil => cases h
  | nop rest ih => exact ih h
  | prop o v p rest ih => exact ih h
  | node n p children rest _ ih =>
      rw [childItems] at h
      rw [onChild]
      split_ifs at h ⊢ with hname
      · cases h
        rw [childItems, if_pos hname]
      · rw [childItems, if_neg hname]
        exact ih h

theorem Items.itemsAt_modifyAt {items inner : Items} {path : List Bytes}
    (h : items.itemsAt path = some inner) (edit : Items → Items) :
    (items.modifyAt edit path).itemsAt path = some (edit inner) := by
  induction path generalizing items with
  | nil =>
      cases h
      rfl
  | cons component path ih =>
      obtain ⟨c, hc, hrest⟩ := Option.bind_eq_some_iff.mp h
      rw [itemsAt, modifyAt, childItems_onChild hc]
      exact ih hrest

/-- The names inside a tree with names resolve. -/
theorem Items.named_childItems {names : Nat → Option Bytes} {items inner : Items} {name : Bytes}
    (h : (items.contents names).Named) (hchild : items.childItems name = some inner) :
    (inner.contents names).Named := by
  induction items with
  | nil => cases hchild
  | nop rest ih => exact ih h hchild
  | prop o v p rest ih => exact ih h.2 hchild
  | node n p children rest _ ih =>
      rw [childItems] at hchild
      split_ifs at hchild with hname
      · cases hchild
        exact h.1
      · exact ih h.2 hchild

theorem Items.named_itemsAt {names : Nat → Option Bytes} {items inner : Items} {path : List Bytes}
    (h : (items.contents names).Named) (hinner : items.itemsAt path = some inner) :
    (inner.contents names).Named := by
  induction path generalizing items with
  | nil =>
      cases hinner
      exact h
  | cons component path ih =>
      obtain ⟨c, hc, hrest⟩ := Option.bind_eq_some_iff.mp hinner
      exact ih (named_childItems h hc) hrest

section Paths

variable {fdt : Fdt} {offset : Nat} {name pad : Bytes} {items : Items}

/-- The site of a child is a node of the block. -/
theorem Fdt.NodeAt.child (h : fdt.NodeAt offset name pad items) {component pad' before after : Bytes}
    {inner : Items} (hsite : items.ChildSite component pad' inner before after) :
    fdt.NodeAt (offset + (nodeHead name pad).length + before.length) component pad' inner := by
  have hmod := h.inside_mod
  have haligned := hsite.aligned
  refine ⟨by omega, hsite.text, hsite.padded, hsite.valid, ?_⟩
  have hinside := h.inside
  rw [← items.onChild_self component, hsite.edited] at hinside
  obtain ⟨-, hinside⟩ := readsAt_append.mp hinside
  have hshape : nodeHead component pad' ++ (inner.flat ++ (be32 fdtEndNode ++ after))
      = (nodeHead component pad' ++ (inner.flat ++ be32 fdtEndNode)) ++ after := by
    simp only [List.append_assoc]
  rw [hshape] at hinside
  exact (readsAt_append.mp hinside).1

theorem Fdt.NodeAt.findChild_some (h : fdt.NodeAt offset name pad items)
    {component pad' before after : Bytes} {inner : Items}
    (hsite : items.ChildSite component pad' inner before after) :
    fdt.findChild (spanNode offset name pad items) component
      = some (spanNode (offset + (nodeHead name pad).length + before.length) component pad'
          inner) := by
  rw [h.findChild_eq, hsite.found]

theorem Fdt.NodeAt.findChild_none (h : fdt.NodeAt offset name pad items) {component : Bytes}
    (hchild : items.childItems component = none) :
    fdt.findChild (spanNode offset name pad items) component = none := by
  rw [h.findChild_eq, Items.find_childNodes_none hchild]

/-- **`find_node`'s loop follows the path, and an edit at its end is an edit of
    the bytes between what stands before and after the node found.** -/
theorem Fdt.NodeAt.descend_some (h : fdt.NodeAt offset name pad items) {path : List Bytes}
    (hpath : ∀ component ∈ path, component ≠ []) {inner : Items}
    (hinner : items.itemsAt path = some inner) :
    ∃ name' pad' before after,
      fdt.descend (spanNode offset name pad items) path
        = some (spanNode (offset + before.length) name' pad' inner)
      ∧ fdt.NodeAt (offset + before.length) name' pad' inner
      ∧ ∀ edit : Items → Items,
          nodeHead name pad ++ ((items.modifyAt edit path).flat ++ be32 fdtEndNode)
            = before ++ (nodeHead name' pad' ++ ((edit inner).flat ++ (be32 fdtEndNode ++ after))) := by
  induction path generalizing offset name pad items with
  | nil =>
      cases hinner
      refine ⟨name, pad, [], [], rfl, h, ?_⟩
      intro edit
      rw [List.append_nil, List.nil_append]
      rfl
  | cons component path ih =>
      obtain ⟨c, hc, hrest⟩ := Option.bind_eq_some_iff.mp hinner
      obtain ⟨pad', before, after, hsite⟩ := Items.exists_childSite h.valid hc
      obtain ⟨name'', pad'', before', after', hdescend, hnode, hedit⟩ :=
        ih (h.child hsite) (fun x hx => hpath x (List.mem_cons_of_mem _ hx)) hrest
      have hoffset : offset + (nodeHead name pad ++ (before ++ before')).length
          = offset + (nodeHead name pad).length + before.length + before'.length := by
        simp only [List.length_append, Nat.add_assoc]
      refine ⟨name'', pad'', nodeHead name pad ++ (before ++ before'),
        after' ++ (after ++ be32 fdtEndNode), ?_, ?_, ?_⟩
      · rw [Fdt.descend, if_neg (hpath component List.mem_cons_self), h.findChild_some hsite, hoffset]
        exact hdescend
      · rw [hoffset]
        exact hnode
      · intro edit
        have hinside := hedit edit
        rw [Items.modifyAt, hsite.edited]
        calc nodeHead name pad ++ (before ++ (nodeHead component pad'
                ++ ((Items.modifyAt edit path c).flat ++ (be32 fdtEndNode ++ after)))
              ++ be32 fdtEndNode)
            = nodeHead name pad ++ (before ++ ((nodeHead component pad'
                ++ ((Items.modifyAt edit path c).flat ++ be32 fdtEndNode))
                ++ (after ++ be32 fdtEndNode))) := by simp only [List.append_assoc]
          _ = _ := by
                rw [hinside]
                simp only [List.append_assoc]

/-- A path that is followed to its end has no empty component, and all of it
    exists. -/
theorem Fdt.NodeAt.itemsAt_of_descend (h : fdt.NodeAt offset name pad items) {path : List Bytes}
    {node : FdtNode} (hdescend : fdt.descend (spanNode offset name pad items) path = some node) :
    (∀ component ∈ path, component ≠ []) ∧ ∃ inner, items.itemsAt path = some inner := by
  induction path generalizing offset name pad items with
  | nil => exact ⟨by simp, items, rfl⟩
  | cons component path ih =>
      rw [Fdt.descend] at hdescend
      split_ifs at hdescend with hempty
      cases hc : items.childItems component with
      | none =>
          rw [h.findChild_none hc] at hdescend
          cases hdescend
      | some c =>
          obtain ⟨pad', before, after, hsite⟩ := Items.exists_childSite h.valid hc
          rw [h.findChild_some hsite] at hdescend
          obtain ⟨hrest, inner, hinner⟩ := ih (h.child hsite) hdescend
          refine ⟨?_, inner, ?_⟩
          · intro x hx
            rcases List.mem_cons.mp hx with rfl | hx
            · exact hempty
            · exact hrest x hx
          · rw [Items.itemsAt, hc]
            exact hinner

/-- Only the structure block says where a node stands. -/
theorem Fdt.NodeAt.congr {fdt' : Fdt} (h : fdt.NodeAt offset name pad items)
    (hblock : fdt'.structureBlock = fdt.structureBlock) : fdt'.NodeAt offset name pad items :=
  ⟨h.aligned, h.text, h.padded, h.valid, by rw [hblock]; exact h.bytes⟩

end Paths

/-- The components of an absolute path; `/` has none. -/
def pathComponents (path : Bytes) : List Bytes :=
  if path = ascii "/" then [] else (Fdt.splitPath path).tail

/-- A path that starts with a slash, or the empty one. -/
def IsAbsolute (path : Bytes) : Prop :=
  path = ascii "/" ∨ ∃ components, Fdt.splitPath path = [] :: components

/-- **`find_node` follows the components from the root.** -/
theorem Fdt.findNode_eq_some {fdt : Fdt} {path : Bytes} {node : FdtNode} :
    fdt.findNode path = some node
      ↔ IsAbsolute path
        ∧ ∃ root, fdt.rootNode = some root ∧ fdt.descend root (pathComponents path) = some node := by
  unfold Fdt.findNode pathComponents IsAbsolute
  by_cases hslash : path = ascii "/"
  · simp only [hslash, if_true, true_or, true_and, Fdt.descend, Option.some.injEq]
    constructor
    · intro h
      exact ⟨node, h, rfl⟩
    · rintro ⟨root, hroot, rfl⟩
      exact hroot
  · simp only [hslash, if_false, false_or]
    cases hsplit : Fdt.splitPath path with
    | nil => simp
    | cons first components =>
        cases hroot : fdt.rootNode with
        | none => simp
        | some root =>
            by_cases hfirst : first = []
            · simp [hfirst]
            · simp [hfirst]

/-! ## §5. Properties. -/

/-- What a search for the property `name` comes to: the value of the first one of
    that name in front of the subnodes, unless a name before it does not resolve. -/
def Contents.lookup (name : Bytes) : Contents → Option Bytes
  | nil => none
  | prop none _ _ => none
  | prop (some n) v rest => if n = name then some v else rest.lookup name
  | node _ _ _ => none

theorem Contents.Named.lookup {contents : Contents} (h : contents.Named) (name : Bytes) :
    contents.lookup name = contents.property name := by
  induction contents with
  | nil => rfl
  | prop n v rest ih =>
      obtain ⟨hsome, hrest⟩ := h
      obtain ⟨found, rfl⟩ := Option.isSome_iff_exists.mp hsome
      rw [Contents.lookup, Contents.property, ih hrest]
      simp only [Option.some.injEq]
  | node n children rest => rfl

/-- `get_property`'s loop is the search over the items. -/
theorem getPropertyLoop_flat {fdt : Fdt} {items : Items} (h : items.Valid) {offset fuel : Nat}
    (hat : ReadsAt fdt.structureBlock offset items.flat) (haligned : offset % 4 = 0)
    (hfuel : items.tokens < fuel) (name : Bytes) :
    fdt.getPropertyLoop (offset + items.flat.length) name fuel offset
      = (items.contents fdt.stringAt).lookup name := by
  obtain ⟨fuel, rfl⟩ : ∃ n, fuel = n + 1 := ⟨fuel - 1, by omega⟩
  induction items generalizing offset fuel with
  | nil =>
      rw [Fdt.getPropertyLoop, if_neg (by simp [Items.flat])]
      rfl
  | nop rest ih =>
      obtain ⟨htoken, hrest⟩ := readsAt_append.mp hat
      rw [be32_length] at hrest
      rw [Items.tokens] at hfuel
      obtain ⟨fuel, rfl⟩ : ∃ n, fuel = n + 1 := ⟨fuel - 1, by omega⟩
      rw [Items.end_nop, Fdt.getPropertyLoop, if_pos (by omega),
        Fdt.readToken_of_readsAt htoken (by decide)]
      exact ih h hrest (by omega) fuel (by omega)
  | prop o v pad rest ih =>
      obtain ⟨ho, hv, hpad, hvalid⟩ := h
      obtain ⟨hrecord, hrest⟩ := readsAt_append.mp hat
      have hprop := Fdt.propAt_of_readsAt haligned ho hv hpad hrecord
      have hmod := align4_mod v.length
      have htotal := hprop.total
      rw [Items.tokens] at hfuel
      obtain ⟨fuel, rfl⟩ : ∃ n, fuel = n + 1 := ⟨fuel - 1, by omega⟩
      rw [Items.end_prop, Fdt.getPropertyLoop, if_pos (by omega), hprop.tokenAt, hprop.lengthAt,
        hprop.nameAt, Items.contents]
      dsimp only
      cases hfound : fdt.stringAt o with
      | none => rfl
      | some found =>
          rw [Contents.lookup, hprop.skip]
          show (if found = name then _ else _) = _
          split_ifs with hname
          · exact hprop.valueAt
          · exact ih hvalid hrest (by omega) fuel (by omega)
  | node n pad children rest =>
      obtain ⟨hn, hpad, -, -⟩ := h
      obtain ⟨hhead, -⟩ := readsAt_append.mp hat
      have hh := Fdt.headAt_of_readsAt haligned hn hpad hhead
      rw [Fdt.getPropertyLoop, hh.tokenAt]
      show (if _ then none else none) = _
      rw [ite_self]
      rfl

/-- `get_property` on any node of the block. -/
theorem Fdt.NodeAt.getProperty_lookup {fdt : Fdt} {offset : Nat} {name pad : Bytes} {items : Items}
    (h : fdt.NodeAt offset name pad items) (propertyName : Bytes) :
    fdt.getProperty (spanNode offset name pad items) propertyName
      = (items.contents fdt.stringAt).lookup propertyName := by
  have hfuel := h.tokens_lt
  have hnext : fdt.afterBeginNode (spanNode offset name pad items).beginOffset = _ := h.headAt.next
  rw [Fdt.getProperty, hnext]
  exact getPropertyLoop_flat h.valid h.inside h.inside_mod (by omega) propertyName

/-- **`get_property` returns the value of the first property of the name.** -/
theorem Fdt.NodeAt.getProperty {fdt : Fdt} {offset : Nat} {name pad : Bytes} {items : Items}
    (h : fdt.NodeAt offset name pad items) (hnamed : (items.contents fdt.stringAt).Named)
    (propertyName : Bytes) :
    fdt.getProperty (spanNode offset name pad items) propertyName
      = (items.contents fdt.stringAt).property propertyName := by
  rw [h.getProperty_lookup, hnamed.lookup]

end RustFirmware.DeviceTree
