/-
  RustFirmware.DeviceTree.Nops
  ────────────────────────────
  **NO-OPS PUT INTO A STRUCTURE BLOCK.**

  A run of `FDT_NOP`s is written in front of some token of a well-formed structure
  block; what stands behind it moves.  `movedBehind` is where a token goes, and
  `Placement.moved` where a node goes, whose contents may have received the run.
  Following a path commutes with the move, and a node's decoded contents stay as
  they are, so all the walks go on as before.

  The exception is `root_node`, which looks at offset 0 and nowhere else: a run in
  front of the root's begin token hides the tree (`nops_unseen_iff`).
-/
import RustFirmware.DeviceTree.Lookup
import RustFirmware.DeviceTree.Layout

namespace RustFirmware.DeviceTree

open RustFirmware.Lib

/-! ## §1. Token boundaries of items. -/

/-- The offsets in front of each token of items that stand at `offset`, and in front
    of the token that follows them. -/
def Items.boundaries : Items → (offset : Nat) → List Nat
  | nil, offset => [offset]
  | nop rest, offset => offset :: rest.boundaries (offset + 4)
  | prop o v pad rest, offset =>
      offset :: rest.boundaries (offset + (propRecord o v pad).length)
  | node name pad children rest, offset =>
      offset :: (children.boundaries (offset + (nodeHead name pad).length)
        ++ rest.boundaries ((spanNode offset name pad children).endOffset + 4))

/-- `count` no-ops in front of items. -/
def Items.withNops : (count : Nat) → Items → Items
  | 0, items => items
  | count + 1, items => nop (withNops count items)

/-- `count` no-ops at the boundary `position` of items that stand at `offset`. -/
def Items.insertNops (count position : Nat) : Items → (offset : Nat) → Items
  | nil, offset => if offset = position then withNops count nil else nil
  | nop rest, offset =>
      if offset = position then withNops count (nop rest)
      else nop (insertNops count position rest (offset + 4))
  | prop o v pad rest, offset =>
      if offset = position then withNops count (prop o v pad rest)
      else prop o v pad (insertNops count position rest (offset + (propRecord o v pad).length))
  | node name pad children rest, offset =>
      if offset = position then withNops count (node name pad children rest)
      else node name pad
        (insertNops count position children (offset + (nodeHead name pad).length))
        (insertNops count position rest ((spanNode offset name pad children).endOffset + 4))

/-- Where a token goes: one at the boundary stands behind the no-ops. -/
def movedBehind (count position offset : Nat) : Nat :=
  if position ≤ offset then offset + 4 * count else offset

/-- Where items go: those at the boundary receive the no-ops. -/
def movedAround (count position offset : Nat) : Nat :=
  if position < offset then offset + 4 * count else offset

theorem nops_length (count : Nat) : (nops count).length = 4 * count := by
  induction count with
  | zero => rfl
  | succ count ih =>
      rw [nops, List.length_append, be32_length, ih]
      omega

theorem nops_append (k l : Nat) : nops (k + l) = nops k ++ nops l := by
  induction k with
  | zero => rw [Nat.zero_add, nops, List.nil_append]
  | succ k ih => rw [Nat.succ_add, nops, nops, ih, List.append_assoc]

theorem Items.bounds_of_mem {items : Items} {offset position : Nat}
    (h : position ∈ items.boundaries offset) :
    offset ≤ position ∧ position ≤ offset + items.flat.length := by
  induction items generalizing offset with
  | nil =>
      obtain rfl := List.mem_singleton.mp h
      exact ⟨Nat.le_refl _, Nat.le_refl _⟩
  | nop rest ih =>
      rw [end_nop]
      rcases List.mem_cons.mp h with rfl | h
      · omega
      · have hrest := ih h
        omega
  | prop o v pad rest ih =>
      rw [end_prop]
      rcases List.mem_cons.mp h with rfl | h
      · omega
      · have hrest := ih h
        omega
  | node name pad children rest ihc ihr =>
      rw [end_node]
      rcases List.mem_cons.mp h with rfl | h
      · omega
      · rcases List.mem_append.mp h with h | h
        · have hinside := ihc h
          omega
        · have hrest := ihr h
          simp only [spanNode] at hrest
          omega

/-! ## §2. The insertion. -/

section Insertion

variable {count position : Nat}

theorem Items.flat_withNops (count : Nat) (items : Items) :
    (items.withNops count).flat = nops count ++ items.flat := by
  induction count with
  | zero => rfl
  | succ count ih => rw [withNops, flat, ih, nops, List.append_assoc]

theorem Items.valid_withNops {items : Items} (count : Nat) (h : items.Valid) :
    (items.withNops count).Valid := by
  induction count with
  | zero => exact h
  | succ count ih => exact ih

theorem Items.contents_withNops (names : Nat → Option Bytes) (count : Nat) (items : Items) :
    (items.withNops count).contents names = items.contents names := by
  induction count with
  | zero => rfl
  | succ count ih => exact ih

theorem Items.placements_withNops (count : Nat) (items : Items) (offset : Nat) :
    (items.withNops count).placements offset = items.placements (offset + 4 * count) := by
  induction count generalizing offset with
  | zero => rfl
  | succ count ih =>
      rw [withNops, placements, ih]
      congr 1
      omega

/-- Away from the boundary nothing happens. -/
theorem Items.insertNops_of_not_mem {items : Items} {offset : Nat}
    (h : position ∉ items.boundaries offset) : items.insertNops count position offset = items := by
  induction items generalizing offset with
  | nil =>
      rw [insertNops, if_neg]
      rintro rfl
      exact h List.mem_cons_self
  | nop rest ih =>
      obtain ⟨hne, hrest⟩ := List.ne_and_not_mem_of_not_mem_cons h
      rw [insertNops, if_neg (Ne.symm hne), ih hrest]
  | prop o v pad rest ih =>
      obtain ⟨hne, hrest⟩ := List.ne_and_not_mem_of_not_mem_cons h
      rw [insertNops, if_neg (Ne.symm hne), ih hrest]
  | node name pad children rest ihc ihr =>
      obtain ⟨hne, hinner⟩ := List.ne_and_not_mem_of_not_mem_cons h
      rw [insertNops, if_neg (Ne.symm hne), ihc (fun hm => hinner (List.mem_append_left _ hm)),
        ihr (fun hm => hinner (List.mem_append_right _ hm))]

theorem Items.insertNops_of_lt (items : Items) {offset : Nat} (h : position < offset) :
    items.insertNops count position offset = items := by
  apply insertNops_of_not_mem
  intro hmem
  have hbounds := bounds_of_mem hmem
  omega

theorem Items.insertNops_of_gt {items : Items} {offset : Nat}
    (h : offset + items.flat.length < position) :
    items.insertNops count position offset = items := by
  apply insertNops_of_not_mem
  intro hmem
  have hbounds := bounds_of_mem hmem
  omega

theorem Items.valid_insertNops {items : Items} (h : items.Valid) (count position offset : Nat) :
    (items.insertNops count position offset).Valid := by
  induction items generalizing offset with
  | nil =>
      rw [insertNops]
      split_ifs
      · exact valid_withNops count h
      · exact h
  | nop rest ih =>
      rw [insertNops]
      split_ifs
      · exact valid_withNops count h
      · exact ih h _
  | prop o v pad rest ih =>
      rw [insertNops]
      split_ifs
      · exact valid_withNops count h
      · exact ⟨h.1, h.2.1, h.2.2.1, ih h.2.2.2 _⟩
  | node name pad children rest ihc ihr =>
      rw [insertNops]
      split_ifs
      · exact valid_withNops count h
      · exact ⟨h.1, h.2.1, ihc h.2.2.1 _, ihr h.2.2.2 _⟩

/-- What the items mean does not change. -/
theorem Items.contents_insertNops (names : Nat → Option Bytes) (items : Items)
    (count position offset : Nat) :
    (items.insertNops count position offset).contents names = items.contents names := by
  induction items generalizing offset with
  | nil =>
      rw [insertNops]
      split_ifs
      · exact contents_withNops names count nil
      · rfl
  | nop rest ih =>
      rw [insertNops]
      split_ifs
      · exact contents_withNops names count (nop rest)
      · exact ih _
  | prop o v pad rest ih =>
      rw [insertNops]
      split_ifs
      · exact contents_withNops names count (prop o v pad rest)
      · rw [contents, contents, ih]
  | node name pad children rest ihc ihr =>
      rw [insertNops]
      split_ifs
      · exact contents_withNops names count (node name pad children rest)
      · rw [contents, contents, ihc, ihr]

theorem Items.insertNops_front (items : Items) (count offset : Nat) :
    items.insertNops count offset offset = items.withNops count := by
  cases items <;> rw [insertNops, if_pos rfl]

/-- At a boundary the no-ops are put between the bytes. -/
theorem Items.flat_insertNops {items : Items} {offset : Nat}
    (h : position ∈ items.boundaries offset) (count : Nat) :
    (items.insertNops count position offset).flat
      = insertAt (position - offset) (nops count) items.flat := by
  induction items generalizing offset with
  | nil =>
      obtain rfl := List.mem_singleton.mp h
      rw [insertNops_front, flat_withNops, Nat.sub_self, insertAt_zero]
  | nop rest ih =>
      rcases List.mem_cons.mp h with rfl | hrest
      · rw [insertNops_front, flat_withNops, Nat.sub_self, insertAt_zero]
      · have hbounds := bounds_of_mem hrest
        have hcut : position - offset = (be32 fdtNop).length + (position - (offset + 4)) := by
          rw [be32_length]
          omega
        rw [insertNops, if_neg (by omega), flat, flat, ih hrest, hcut, insertAt_append_right]
  | prop o v pad rest ih =>
      rcases List.mem_cons.mp h with rfl | hrest
      · rw [insertNops_front, flat_withNops, Nat.sub_self, insertAt_zero]
      · have hbounds := bounds_of_mem hrest
        have hlength : 0 < (propRecord o v pad).length := by
          simp only [propRecord, List.length_append, be32_length]
          omega
        have hcut : position - offset = (propRecord o v pad).length
            + (position - (offset + (propRecord o v pad).length)) := by omega
        rw [insertNops, if_neg (by omega), flat, flat, ih hrest, hcut, insertAt_append_right]
  | node name pad children rest ihc ihr =>
      have hlength : 0 < (nodeHead name pad).length := by
        simp only [nodeHead, List.length_append, be32_length]
        omega
      rcases List.mem_cons.mp h with rfl | hinner
      · rw [insertNops_front, flat_withNops, Nat.sub_self, insertAt_zero]
      rcases List.mem_append.mp hinner with hchildren | hrest
      · -- among the children: the rest begins behind the boundary
        have hbounds := bounds_of_mem hchildren
        have hcut : position - offset = (nodeHead name pad).length
            + (position - (offset + (nodeHead name pad).length)) := by omega
        have hrest : position < (spanNode offset name pad children).endOffset + 4 := by
          simp only [spanNode]
          omega
        rw [insertNops, if_neg (by omega), insertNops_of_lt rest hrest, flat, flat, ihc hchildren, hcut,
          insertAt_append_right, insertAt_append_left (by omega)]
      · -- behind the end token: the children end before the boundary
        have hbounds := bounds_of_mem hrest
        simp only [spanNode] at hbounds
        have hchildren : offset + (nodeHead name pad).length + children.flat.length < position := by
          omega
        have hcut : position - offset = (nodeHead name pad).length + (children.flat.length
            + ((be32 fdtEndNode).length
              + (position - ((spanNode offset name pad children).endOffset + 4)))) := by
          simp only [spanNode, be32_length]
          omega
        rw [insertNops, if_neg (by omega), insertNops_of_gt hchildren, flat, flat, ihr hrest, hcut,
          insertAt_append_right, insertAt_append_right, insertAt_append_right]

end Insertion

/-! ## §3. Nodes move with their tokens. -/

section Moved

variable {count position : Nat}

theorem movedBehind_of_le {offset : Nat} (h : position ≤ offset) :
    movedBehind count position offset = offset + 4 * count := if_pos h

theorem movedBehind_of_lt {offset : Nat} (h : offset < position) :
    movedBehind count position offset = offset := if_neg (Nat.not_le.mpr h)

theorem movedAround_of_lt {offset : Nat} (h : position < offset) :
    movedAround count position offset = offset + 4 * count := if_pos h

theorem movedAround_of_le {offset : Nat} (h : offset ≤ position) :
    movedAround count position offset = offset := if_neg (Nat.not_lt.mpr h)

/-- The boundary is not inside a token of the items. -/
def Items.Clear (items : Items) (position offset : Nat) : Prop :=
  position < offset ∨ offset + items.flat.length < position ∨ position ∈ items.boundaries offset

theorem Items.Clear.nop {rest : Items} {offset : Nat} (h : (nop rest).Clear position offset)
    (hfront : offset < position) : offset + 4 ≤ position ∧ rest.Clear position (offset + 4) := by
  rcases h with hbefore | hbehind | hmem
  · omega
  · rw [end_nop] at hbehind
    exact ⟨by omega, .inr (.inl hbehind)⟩
  · rcases List.mem_cons.mp hmem with rfl | hrest
    · omega
    · exact ⟨(bounds_of_mem hrest).1, .inr (.inr hrest)⟩

theorem Items.Clear.prop {o : Nat} {v pad : Bytes} {rest : Items} {offset : Nat}
    (h : (prop o v pad rest).Clear position offset) (hfront : offset < position) :
    offset + (propRecord o v pad).length ≤ position
      ∧ rest.Clear position (offset + (propRecord o v pad).length) := by
  rcases h with hbefore | hbehind | hmem
  · omega
  · rw [end_prop] at hbehind
    exact ⟨by omega, .inr (.inl hbehind)⟩
  · rcases List.mem_cons.mp hmem with rfl | hrest
    · omega
    · exact ⟨(bounds_of_mem hrest).1, .inr (.inr hrest)⟩

/-- The boundary may be among the children or behind the end token, not inside
    one of the two tokens. -/
theorem Items.Clear.node {name pad : Bytes} {children rest : Items} {offset : Nat}
    (h : (node name pad children rest).Clear position offset) (hfront : offset < position) :
    offset + (nodeHead name pad).length ≤ position
      ∧ children.Clear position (offset + (nodeHead name pad).length)
      ∧ (position ≤ (spanNode offset name pad children).endOffset
          ∨ (spanNode offset name pad children).endOffset + 4 ≤ position)
      ∧ rest.Clear position ((spanNode offset name pad children).endOffset + 4) := by
  simp only [spanNode]
  rcases h with hbefore | hbehind | hmem
  · omega
  · rw [end_node] at hbehind
    exact ⟨by omega, .inr (.inl (by omega)), .inr (by omega), .inr (.inl hbehind)⟩
  · rcases List.mem_cons.mp hmem with rfl | hinner
    · omega
    rcases List.mem_append.mp hinner with hchildren | hrest
    · have hbounds := bounds_of_mem hchildren
      exact ⟨hbounds.1, .inr (.inr hchildren), .inl hbounds.2, .inl (by omega)⟩
    · have hbounds := bounds_of_mem hrest
      simp only [spanNode] at hbounds
      exact ⟨by omega, .inr (.inl (by omega)), .inr hbounds.1, .inr (.inr hrest)⟩

/-- The token that follows the items moves by what they grow. -/
theorem Items.Clear.movedAround_end {items : Items} {offset : Nat} (h : items.Clear position offset)
    (hgap : position ≤ offset + items.flat.length ∨ offset + items.flat.length + 4 ≤ position)
    (count : Nat) :
    movedAround count position (offset + items.flat.length + 4)
      = movedAround count position offset
        + (items.insertNops count position offset).flat.length + 4 := by
  rcases h with hbefore | hbehind | hmem
  · rw [insertNops_of_lt items hbefore, movedAround_of_lt hbefore, movedAround_of_lt (by omega)]
    omega
  · rw [insertNops_of_gt hbehind, movedAround_of_le (by omega), movedAround_of_le (by omega)]
  · have hbounds := bounds_of_mem hmem
    rw [flat_insertNops hmem, insertAt_length (by omega), nops_length,
      movedAround_of_le hbounds.1, movedAround_of_lt (by omega)]
    omega

/-- A node behind the insertion: its token moves, and the no-ops may stand among
    its contents. -/
def Placement.moved (count position : Nat) (site : Placement) : Placement where
  offset := movedBehind count position site.offset
  name   := site.name
  pad    := site.pad
  items  := site.items.insertNops count position (site.offset + (nodeHead site.name site.pad).length)

theorem nodeHead_pos (name pad : Bytes) : 0 < (nodeHead name pad).length := by
  simp only [nodeHead, List.length_append, be32_length]
  omega

theorem Items.le_of_mem_placements {items : Items} {offset : Nat} {site : Placement}
    (h : site ∈ items.placements offset) : offset ≤ site.offset := by
  induction items generalizing offset with
  | nil => cases h
  | nop rest ih => exact Nat.le_of_add_right_le (ih h)
  | prop o v pad rest ih => exact Nat.le_of_add_right_le (ih h)
  | node name pad children rest _ ih =>
      rcases List.mem_cons.mp h with rfl | hlater
      · exact Nat.le_refl _
      · have hle := ih hlater
        simp only [spanNode] at hle
        omega

/-- Nodes that stand behind the boundary move as they are. -/
theorem Items.placements_behind (items : Items) (count : Nat) {offset : Nat}
    (h : position ≤ offset) :
    items.placements (offset + 4 * count)
      = (items.placements offset).map (Placement.moved count position) := by
  induction items generalizing offset with
  | nil => rfl
  | nop rest ih =>
      rw [placements, placements, ← ih (by omega)]
      congr 1
      omega
  | prop o v pad rest ih =>
      rw [placements, placements, ← ih (by omega)]
      congr 1
      omega
  | node name pad children rest _ ih =>
      have hpos := nodeHead_pos name pad
      have hfirst : position < offset + (nodeHead name pad).length := by omega
      have hend : position ≤ (spanNode offset name pad children).endOffset + 4 := by
        simp only [spanNode]
        omega
      rw [placements, placements, List.map_cons, ← ih hend, Placement.moved, movedBehind_of_le h,
        insertNops_of_lt children hfirst]
      congr 2
      simp only [spanNode]
      omega

theorem Items.placements_insertNops_behind (items : Items) (count : Nat) {offset : Nat}
    (h : position ≤ offset) :
    (items.insertNops count position offset).placements (movedAround count position offset)
      = (items.placements offset).map (Placement.moved count position) := by
  rcases Nat.lt_or_eq_of_le h with hlt | rfl
  · rw [insertNops_of_lt items hlt, movedAround_of_lt hlt, placements_behind items count h]
  · rw [insertNops_front, movedAround_of_le (Nat.le_refl _), placements_withNops,
      placements_behind items count h]

/-- **The children after the insertion are the children, moved.** -/
theorem Items.placements_insertNops {items : Items} {offset : Nat} (h : items.Clear position offset)
    (count : Nat) :
    (items.insertNops count position offset).placements (movedAround count position offset)
      = (items.placements offset).map (Placement.moved count position) := by
  induction items generalizing offset with
  | nil =>
      rw [insertNops]
      split_ifs
      · exact placements_withNops count nil _
      · rfl
  | nop rest ih =>
      rcases Nat.lt_or_ge offset position with hfront | hbehind
      · obtain ⟨hle, hrest⟩ := h.nop hfront
        rw [movedAround_of_le (Nat.le_of_lt hfront), insertNops, if_neg (Nat.ne_of_lt hfront), placements,
          placements, ← ih hrest, movedAround_of_le hle]
      · exact placements_insertNops_behind _ count hbehind
  | prop o v pad rest ih =>
      rcases Nat.lt_or_ge offset position with hfront | hbehind
      · obtain ⟨hle, hrest⟩ := h.prop hfront
        rw [movedAround_of_le (Nat.le_of_lt hfront), insertNops, if_neg (Nat.ne_of_lt hfront), placements,
          placements, ← ih hrest, movedAround_of_le hle]
      · exact placements_insertNops_behind _ count hbehind
  | node name pad children rest _ ih =>
      rcases Nat.lt_or_ge offset position with hfront | hbehind
      · obtain ⟨hle, hchildren, hgap, hrest⟩ := h.node hfront
        have hend := hchildren.movedAround_end hgap count
        rw [movedAround_of_le hle] at hend
        rw [movedAround_of_le (Nat.le_of_lt hfront), insertNops, if_neg (Nat.ne_of_lt hfront), placements,
          placements, List.map_cons, ← ih hrest, Placement.moved, movedBehind_of_lt hfront]
        -- the child's token stays; what follows its end token moves with it
        exact congrArg _ (congrArg _ hend.symm)
      · exact placements_insertNops_behind _ count hbehind

/-- The boundary is not inside a token of the node. -/
def Placement.Clear (site : Placement) (position : Nat) : Prop :=
  position ≤ site.offset
    ∨ site.offset + (nodeHead site.name site.pad).length ≤ position
      ∧ site.items.Clear position (site.offset + (nodeHead site.name site.pad).length)

theorem Items.Clear.of_mem {items : Items} {offset : Nat} (h : items.Clear position offset)
    {site : Placement} (hsite : site ∈ items.placements offset) : site.Clear position := by
  induction items generalizing offset with
  | nil => cases hsite
  | nop rest ih =>
      rcases Nat.lt_or_ge offset position with hfront | hbehind
      · exact ih (h.nop hfront).2 hsite
      · exact .inl (Nat.le_trans hbehind (le_of_mem_placements hsite))
  | prop o v pad rest ih =>
      rcases Nat.lt_or_ge offset position with hfront | hbehind
      · exact ih (h.prop hfront).2 hsite
      · exact .inl (Nat.le_trans hbehind (le_of_mem_placements hsite))
  | node name pad children rest _ ih =>
      rcases Nat.lt_or_ge offset position with hfront | hbehind
      · obtain ⟨hle, hchildren, -, hrest⟩ := h.node hfront
        rcases List.mem_cons.mp hsite with rfl | hlater
        · exact .inr ⟨hle, hchildren⟩
        · exact ih hrest hlater
      · exact .inl (Nat.le_trans hbehind (le_of_mem_placements hsite))

section Sites

variable {site : Placement}

theorem Placement.Clear.items (h : site.Clear position) :
    site.items.Clear position (site.offset + (nodeHead site.name site.pad).length) := by
  have hpos := nodeHead_pos site.name site.pad
  rcases h with hbehind | ⟨-, hitems⟩
  · exact .inl (by omega)
  · exact hitems

theorem Placement.Clear.child (h : site.Clear position) {child : Placement}
    (hchild : child ∈ site.children) : child.Clear position :=
  h.items.of_mem hchild

theorem Placement.Clear.children_moved (h : site.Clear position) (count : Nat) :
    (site.moved count position).children = site.children.map (Placement.moved count position) := by
  have hpos := nodeHead_pos site.name site.pad
  have hfirst : movedBehind count position site.offset + (nodeHead site.name site.pad).length
      = movedAround count position (site.offset + (nodeHead site.name site.pad).length) := by
    rcases h with hbehind | ⟨hle, -⟩
    · rw [movedBehind_of_le hbehind, movedAround_of_lt (by omega)]
      omega
    · rw [movedBehind_of_lt (by omega), movedAround_of_le hle]
  unfold Placement.children
  rw [← Items.placements_insertNops h.items count, ← hfirst]
  rfl

/-- A path leads to the node it led to. -/
theorem Placement.Clear.follow_moved (h : site.Clear position) (count : Nat)
    (components : List Bytes) :
    (site.moved count position).follow components
      = (site.follow components).map (Placement.moved count position) := by
  induction components generalizing site with
  | nil => rfl
  | cons component components ih =>
      have hname : (fun child : Placement => decide (child.name = component))
          ∘ Placement.moved count position = fun child => decide (child.name = component) := rfl
      rw [Placement.follow, Placement.follow, h.children_moved count, List.find?_map, hname]
      cases hfind : site.children.find? (fun child => decide (child.name = component)) with
      | none => rfl
      | some child => exact ih (h.child (List.mem_of_find?_eq_some hfind))

theorem Placement.Clear.reaches {root : Placement} (h : root.Clear position)
    (hreach : root.Reaches site) (count : Nat) :
    site.Clear position ∧ (root.moved count position).Reaches (site.moved count position) := by
  induction hreach with
  | refl => exact ⟨h, .refl⟩
  | @tail parent child _ hchild ih =>
      obtain ⟨hparent, hmoved⟩ := ih
      refine ⟨hparent.child hchild, hmoved.tail ?_⟩
      show child.moved count position ∈ (parent.moved count position).children
      rw [hparent.children_moved count]
      exact List.mem_map_of_mem hchild

end Sites

end Moved

/-! ## §4. A well-formed block. -/

/-- The structure block: the root node with no-ops around it, and the end token. -/
structure StructureBlock where
  lead   : Nat
  name   : Bytes
  pad    : Bytes
  items  : Items
  trail  : Nat
  rest   : Bytes
  text   : IsText name
  padded : pad.length = padLength (name.length + 1)
  valid  : items.Valid

namespace StructureBlock

variable (b : StructureBlock)

def bytes : Bytes :=
  nops b.lead ++ (nodeHead b.name b.pad ++ (b.items.flat
    ++ (be32 fdtEndNode ++ (nops b.trail ++ (be32 fdtEnd ++ b.rest)))))

def root : Placement where
  offset := 4 * b.lead
  name   := b.name
  pad    := b.pad
  items  := b.items

def contentsOffset : Nat := 4 * b.lead + (nodeHead b.name b.pad).length

/-- Where the root's end token stands. -/
def endOffset : Nat := b.contentsOffset + b.items.flat.length

/-- The offsets in front of each token, the final `FDT_END` included. -/
def boundaries : List Nat :=
  (List.range (b.lead + 1)).map (4 * ·)
    ++ (b.items.boundaries b.contentsOffset
      ++ (List.range (b.trail + 1)).map (fun i => b.endOffset + 4 + 4 * i))

/-- The block with `count` no-ops at the boundary `position`. -/
def insertNops (count position : Nat) : StructureBlock where
  lead   := if position ≤ 4 * b.lead then b.lead + count else b.lead
  name   := b.name
  pad    := b.pad
  items  := b.items.insertNops count position b.contentsOffset
  trail  := if b.endOffset < position then b.trail + count else b.trail
  rest   := b.rest
  text   := b.text
  padded := b.padded
  valid  := Items.valid_insertNops b.valid count position b.contentsOffset

variable {b} {count position : Nat}

theorem mem_boundaries : position ∈ b.boundaries
    ↔ (∃ i ≤ b.lead, position = 4 * i) ∨ position ∈ b.items.boundaries b.contentsOffset
      ∨ ∃ i ≤ b.trail, position = b.endOffset + 4 + 4 * i := by
  simp only [boundaries, List.mem_append, List.mem_map, List.mem_range, Nat.lt_succ_iff, eq_comm]

theorem insertAt_nops {i n : Nat} (h : i ≤ n) (count : Nat) (bytes : Bytes) :
    insertAt (4 * i) (nops count) (nops n ++ bytes) = nops (n + count) ++ bytes := by
  have hsplit : nops n = nops i ++ nops (n - i) := by rw [← nops_append, Nat.add_sub_cancel' h]
  have hsum : n + count = i + (count + (n - i)) := by omega
  have hcut : 4 * i = (nops i).length + 0 := (nops_length i).symm
  rw [hcut, hsplit, List.append_assoc, insertAt_append_right, insertAt_zero, hsum, nops_append,
    nops_append]
  simp only [List.append_assoc]

/-- **Bytes put in at a boundary are no-ops of the block.** -/
theorem bytes_insertNops (h : position ∈ b.boundaries) (count : Nat) :
    (b.insertNops count position).bytes = insertAt position (nops count) b.bytes := by
  have hpos := nodeHead_pos b.name b.pad
  have hlead := nops_length b.lead
  show nops (if position ≤ 4 * b.lead then b.lead + count else b.lead) ++ (nodeHead b.name b.pad
      ++ ((b.items.insertNops count position b.contentsOffset).flat ++ (be32 fdtEndNode
        ++ (nops (if b.endOffset < position then b.trail + count else b.trail)
          ++ (be32 fdtEnd ++ b.rest)))))
    = insertAt position (nops count) (nops b.lead ++ (nodeHead b.name b.pad ++ (b.items.flat
        ++ (be32 fdtEndNode ++ (nops b.trail ++ (be32 fdtEnd ++ b.rest))))))
  rcases mem_boundaries.mp h with ⟨i, hi, rfl⟩ | hitems | ⟨i, hi, rfl⟩
  · -- in front of the root
    have hbefore : 4 * i < b.contentsOffset := by
      unfold contentsOffset
      omega
    have hend : ¬ b.endOffset < 4 * i := by
      unfold endOffset
      omega
    rw [insertAt_nops hi, if_pos (by omega), if_neg hend, Items.insertNops_of_lt b.items hbefore]
  · -- among the root's items
    have hbounds := Items.bounds_of_mem hitems
    have hend : ¬ b.endOffset < position := Nat.not_lt.mpr hbounds.2
    unfold contentsOffset at hbounds
    have hcut : position = (nops b.lead).length + ((nodeHead b.name b.pad).length
        + (position - b.contentsOffset)) := by
      unfold contentsOffset
      omega
    have hinside : position - b.contentsOffset ≤ b.items.flat.length := by
      unfold contentsOffset
      omega
    rw [if_neg (by omega), if_neg hend, Items.flat_insertNops hitems]
    conv_rhs => rw [hcut]
    rw [insertAt_append_right, insertAt_append_right, insertAt_append_left hinside]
  · -- behind the root's end token
    have hbehind : b.contentsOffset + b.items.flat.length < b.endOffset + 4 + 4 * i := by
      unfold endOffset
      omega
    have hlast : ¬ b.endOffset + 4 + 4 * i ≤ 4 * b.lead := by
      unfold endOffset contentsOffset
      omega
    have hcut : b.endOffset + 4 + 4 * i = (nops b.lead).length + ((nodeHead b.name b.pad).length
        + (b.items.flat.length + ((be32 fdtEndNode).length + 4 * i))) := by
      unfold endOffset contentsOffset
      rw [be32_length]
      omega
    rw [if_neg hlast, if_pos (by omega), Items.insertNops_of_gt hbehind, hcut, insertAt_append_right,
      insertAt_append_right, insertAt_append_right, insertAt_append_right, insertAt_nops hi]

theorem clear_root (h : position ∈ b.boundaries) : b.root.Clear position := by
  rcases mem_boundaries.mp h with ⟨i, hi, rfl⟩ | hitems | ⟨i, -, rfl⟩
  · exact .inl (Nat.mul_le_mul_left 4 hi)
  · exact .inr ⟨(Items.bounds_of_mem hitems).1, .inr (.inr hitems)⟩
  · have hbehind : b.contentsOffset + b.items.flat.length < b.endOffset + 4 + 4 * i := by
      unfold endOffset
      omega
    exact .inr ⟨Nat.le_trans (Nat.le_add_right _ _) (Nat.le_of_lt hbehind), .inr (.inl hbehind)⟩

theorem root_insertNops (b : StructureBlock) (count position : Nat) :
    (b.insertNops count position).root = b.root.moved count position := by
  have hoffset : 4 * (if position ≤ 4 * b.lead then b.lead + count else b.lead)
      = movedBehind count position (4 * b.lead) := by
    unfold movedBehind
    split_ifs
    · rw [Nat.mul_add]
    · rfl
  unfold root insertNops Placement.moved
  rw [hoffset]
  rfl

end StructureBlock

/-! ## §5. The walks before and after. -/

section Blocks

variable {fdt : Fdt} {b : StructureBlock}

theorem StructureBlock.places (h : fdt.structureBlock = b.bytes) : fdt.Places b.root := by
  have haligned : (nops b.lead).length % 4 = 0 := by
    rw [nops_length]
    omega
  have hnode : fdt.NodeAt (nops b.lead).length b.name b.pad b.items :=
    Fdt.nodeAt_of_block h haligned b.text b.padded b.valid
  rw [nops_length] at hnode
  exact hnode

/-- `root_node` sees the root where no no-op stands in front of it. -/
theorem StructureBlock.rootNode (h : fdt.structureBlock = b.bytes) :
    fdt.rootNode = if b.lead = 0 then some b.root.fdtNode else none := by
  unfold Fdt.rootNode
  cases hlead : b.lead with
  | zero =>
      have hnode := Fdt.NodeAt.nodeAtOffset (StructureBlock.places h)
      have hfront : b.root.offset = 0 := by
        show 4 * b.lead = 0
        rw [hlead]
      rw [hfront] at hnode
      rw [if_pos rfl, hnode, Placement.fdtNode, hfront]
  | succ lead =>
      have hnop : ReadsAt fdt.structureBlock 0 (be32 fdtNop) := by
        rw [h, bytes, hlead, nops, List.append_assoc]
        exact ⟨[], _, rfl, rfl⟩
      have htoken := Fdt.readToken_of_readsAt hnop (by decide)
      rw [if_neg (Nat.succ_ne_zero lead), Fdt.nodeAtOffset, htoken]
      rfl

/-- `find_node` in two blocks, from what the walk below the root comes to. -/
theorem Fdt.findNode_map_eq {α : Type} {fdt fdt' : Fdt} {f g : FdtNode → α}
    {root root' : FdtNode} (hroot : fdt.rootNode = some root) (hroot' : fdt'.rootNode = some root')
    (hwalk : ∀ components, (fdt'.descend root' components).map f
      = (fdt.descend root components).map g) (path : Bytes) :
    (fdt'.findNode path).map f = (fdt.findNode path).map g := by
  unfold Fdt.findNode
  rw [hroot, hroot']
  split_ifs
  · exact hwalk []
  · cases Fdt.splitPath path with
    | nil => rfl
    | cons first components =>
        show (if first ≠ [] then none else fdt'.descend root' components).map f
          = (if first ≠ [] then none else fdt.descend root components).map g
        split_ifs
        · rfl
        · exact hwalk components

theorem Fdt.findNode_of_root_none {fdt : Fdt} (h : fdt.rootNode = none) (path : Bytes) :
    fdt.findNode path = none := by
  unfold Fdt.findNode
  rw [h]
  split_ifs
  · rfl
  · cases Fdt.splitPath path with
    | nil => rfl
    | cons first components => exact ite_self none

/-- **What no-ops must leave alone**: every path is found or not as before, at a
    node of the same name and properties, where that node now stands; and so is
    every node of the block. -/
structure Fdt.ReadsAlike (fdt fdt' : Fdt) (b : StructureBlock) (count position : Nat) : Prop where
  paths : ∀ path,
      (fdt'.findNode path).map (fun node => (node.name, node.beginOffset, fdt'.getProperty node))
        = (fdt.findNode path).map (fun node =>
            (node.name, movedBehind count position node.beginOffset, fdt.getProperty node))
  nodes : ∀ site, b.root.Reaches site → ∃ node node',
      fdt.nodeAtOffset site.offset = some node
      ∧ fdt'.nodeAtOffset (movedBehind count position site.offset) = some node'
      ∧ node'.name = node.name
      ∧ ∀ name, fdt'.getProperty node' name = fdt.getProperty node name

end Blocks

section Unseen

variable {fdt fdt' : Fdt} {b : StructureBlock} {count position : Nat}

theorem places_moved (hblock : fdt.structureBlock = b.bytes) (hposition : position ∈ b.boundaries)
    (hblock' : fdt'.structureBlock = insertAt position (nops count) fdt.structureBlock) :
    fdt'.Places (b.root.moved count position) := by
  rw [hblock, ← StructureBlock.bytes_insertNops hposition] at hblock'
  rw [← StructureBlock.root_insertNops]
  exact StructureBlock.places hblock'

/-- The moved node has the node's properties. -/
theorem getProperty_moved {site : Placement} (hsite : fdt.Places site)
    (hsite' : fdt'.Places (site.moved count position)) (hstrings : fdt'.strings = fdt.strings) :
    fdt'.getProperty (site.moved count position).fdtNode = fdt.getProperty site.fdtNode := by
  funext name
  have hvalue := Fdt.NodeAt.getProperty_lookup hsite name
  have hvalue' := Fdt.NodeAt.getProperty_lookup hsite' name
  unfold Placement.fdtNode
  rw [hvalue, hvalue', Fdt.stringAt_congr hstrings]
  show ((site.items.insertNops count position _).contents fdt.stringAt).lookup name = _
  rw [Items.contents_insertNops]

/-- The walks below the root commute with the move. -/
theorem descend_moved (hblock : fdt.structureBlock = b.bytes) (hposition : position ∈ b.boundaries)
    (hplaces' : fdt'.Places (b.root.moved count position)) (hstrings : fdt'.strings = fdt.strings)
    (components : List Bytes) :
    (fdt'.descend (b.root.moved count position).fdtNode components).map
        (fun node => (node.name, node.beginOffset, fdt'.getProperty node))
      = (fdt.descend b.root.fdtNode components).map (fun node =>
          (node.name, movedBehind count position node.beginOffset, fdt.getProperty node)) := by
  have hplaces := StructureBlock.places hblock
  have hclear := StructureBlock.clear_root hposition
  rw [hplaces'.descend, hplaces.descend, hclear.follow_moved count]
  split_ifs
  · cases hfollow : b.root.follow components with
    | none => rfl
    | some site =>
        have hreach := Placement.reaches_of_follow hfollow
        obtain ⟨-, hmoved⟩ := hclear.reaches hreach count
        have hsame := getProperty_moved (hplaces.reaches hreach) (hplaces'.reaches hmoved) hstrings
        simp only [Option.map_some, hsame]
        rfl
  · rfl

/-- **No-ops are not seen, except in front of the root.**  At any token boundary
    of a well-formed structure block, up to the final end token, any number of
    no-ops leaves every `find_node` and every `get_property` as it was, unless
    they are the first tokens of the block. -/
theorem nops_unseen_iff (hblock : fdt.structureBlock = b.bytes) (hposition : position ∈ b.boundaries)
    (hblock' : fdt'.structureBlock = insertAt position (nops count) fdt.structureBlock)
    (hstrings : fdt'.strings = fdt.strings) :
    fdt.ReadsAlike fdt' b count position ↔ count = 0 ∨ position ≠ 0 ∨ b.lead ≠ 0 := by
  have hplaces := StructureBlock.places hblock
  have hplaces' := places_moved hblock hposition hblock'
  rw [hblock, ← StructureBlock.bytes_insertNops hposition] at hblock'
  have hroot := StructureBlock.rootNode hblock
  have hroot' := StructureBlock.rootNode hblock'
  rw [StructureBlock.root_insertNops] at hroot'
  have hlead : (b.insertNops count position).lead
      = if position ≤ 4 * b.lead then b.lead + count else b.lead := rfl
  constructor
  · intro h
    by_contra hnot
    push Not at hnot
    obtain ⟨hcount, hfront, hnone⟩ := hnot
    -- the root was at offset 0, where a no-op stands now
    rw [if_pos hnone] at hroot
    rw [if_neg (by rw [hlead, hfront, if_pos (Nat.zero_le _)]; omega)] at hroot'
    have hslash := h.paths (ascii "/")
    rw [Fdt.findNode_of_root_none hroot', Fdt.findNode, if_pos rfl, hroot] at hslash
    cases hslash
  · intro hcondition
    constructor
    · intro path
      by_cases hnone : b.lead = 0
      · have hlead' : (b.insertNops count position).lead = 0 := by
          rw [hlead]
          split_ifs <;> omega
        rw [if_pos hnone] at hroot
        rw [if_pos hlead'] at hroot'
        exact Fdt.findNode_map_eq hroot hroot' (descend_moved hblock hposition hplaces' hstrings) path
      · -- no root was found, and none is found
        have hlead' : (b.insertNops count position).lead ≠ 0 := by
          rw [hlead]
          split_ifs <;> omega
        rw [if_neg hnone] at hroot
        rw [if_neg hlead'] at hroot'
        rw [Fdt.findNode_of_root_none hroot, Fdt.findNode_of_root_none hroot']
        rfl
    · intro site hreach
      obtain ⟨-, hmoved⟩ := (StructureBlock.clear_root hposition).reaches hreach count
      have hsite := hplaces.reaches hreach
      have hsite' := hplaces'.reaches hmoved
      exact ⟨_, _, hsite.nodeAtOffset, hsite'.nodeAtOffset, rfl,
        congrFun (getProperty_moved hsite hsite' hstrings)⟩

/-- A root with one property and one child. -/
def plainBlock : StructureBlock where
  lead   := 0
  name   := []
  pad    := [0, 0, 0]
  items  := .property 0 [1] (.child (ascii "a") (.property 0 [2, 3] .nil) .nil)
  trail  := 0
  rest   := []
  text   := by decide
  padded := rfl
  valid  := ⟨by decide, by decide, rfl, by decide, rfl, ⟨by decide, by decide, rfl, trivial⟩, trivial⟩

/-- The block, with `count` no-ops at `position`. -/
def plainFdt (count position : Nat) : Fdt where
  base           := 0x80008000
  totalSize      := 200
  reserveMap     := []
  structureBlock := insertAt position (nops count) plainBlock.bytes
  strings        := ascii "reg" ++ [0]

/-- A no-op in front of the begin token of `a`. -/
theorem nops_unseen_iff_example : (plainFdt 0 0).ReadsAlike (plainFdt 1 24) plainBlock 1 24
    ↔ (1 = 0 ∨ 24 ≠ 0 ∨ plainBlock.lead ≠ 0) :=
  nops_unseen_iff rfl (by decide) rfl rfl

/-- One no-op in front of the root, and `/` is gone. -/
theorem leading_nop_hides_root : (plainFdt 0 0).structureBlock = plainBlock.bytes
    ∧ 0 ∈ plainBlock.boundaries
    ∧ (plainFdt 1 0).structureBlock = insertAt 0 (nops 1) (plainFdt 0 0).structureBlock
    ∧ ((plainFdt 0 0).findNode (ascii "/")).map FdtNode.name = some []
    ∧ (plainFdt 1 0).findNode (ascii "/") = none := by
  decide +kernel

end Unseen

end RustFirmware.DeviceTree
