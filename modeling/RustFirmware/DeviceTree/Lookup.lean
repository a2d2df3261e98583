/-
  RustFirmware.DeviceTree.Lookup
  ──────────────────────────────
  **THE READER AGREES WITH THE TREE ON EVERY ENCODING.**

  An encoding of a device tree is a choice of no-ops, padding and string offsets
  for it (`Items`), written out at the front of the structure block.  Each node
  of the tree then has a place in the block (`Placement`), and the four walkers of
  the reader (end search, children, paths, properties) answer for a place what
  the tree says about its node.
-/
import Mathlib.Logic.Relation
import RustFirmware.DeviceTree.Walk

namespace RustFirmware.DeviceTree

open RustFirmware.Lib

/-! ## §1. The tree's own answers. -/

namespace Contents

/-- All direct properties of a node, wherever they stand among its subnodes. -/
def properties : Contents → List (Option Bytes × Bytes)
  | nil => []
  | prop n v rest => (n, v) :: rest.properties
  | node _ _ rest => rest.properties

/-- The direct children of a node. -/
def children : Contents → List (Bytes × Contents)
  | nil => []
  | prop _ _ rest => rest.children
  | node n c rest => (n, c) :: rest.children

/-- The value of the first direct property called `name`. -/
def firstProperty (contents : Contents) (name : Bytes) : Option Bytes :=
  (contents.properties.find? (fun p => decide (p.1 = some name))).map Prod.snd

theorem properties_of_noProps {contents : Contents} (h : contents.NoProps) :
    contents.properties = [] := by
  induction contents with
  | nil => rfl
  | prop n v rest => exact h.elim
  | node n c rest _ ih => exact ih h

/-- With the properties in front, the search may stop at the first subnode. -/
theorem PropsFirst.property_eq {contents : Contents} (h : contents.PropsFirst) (name : Bytes) :
    contents.property name = contents.firstProperty name := by
  unfold firstProperty
  induction contents with
  | nil => rfl
  | prop n v rest ih =>
      rw [property, properties]
      by_cases hn : n = some name
      · rw [if_pos hn, List.find?_cons_of_pos (by simpa using hn)]
        rfl
      · rw [if_neg hn, List.find?_cons_of_neg (by simpa using hn)]
        exact ih h
  | node n c rest =>
      -- nothing behind the first subnode is a property
      rw [property, properties, properties_of_noProps h.2.1]
      rfl

/-- Whatever holds of a node's contents and is handed down holds of its children's. -/
theorem PropsFirst.of_child {contents : Contents} (h : contents.PropsFirst) {name : Bytes}
    {inner : Contents} (hchild : (name, inner) ∈ contents.children) : inner.PropsFirst := by
  induction contents with
  | nil => cases hchild
  | prop n v rest ih => exact ih h hchild
  | node n c rest _ ih =>
      rcases List.mem_cons.mp hchild with heq | hrest
      · cases heq
        exact h.1
      · exact ih h.2.2 hrest

theorem Named.of_child {contents : Contents} (h : contents.Named) {name : Bytes}
    {inner : Contents} (hchild : (name, inner) ∈ contents.children) : inner.Named := by
  induction contents with
  | nil => cases hchild
  | prop n v rest ih => exact ih h.2 hchild
  | node n c rest _ ih =>
      rcases List.mem_cons.mp hchild with heq | hrest
      · cases heq
        exact h.1
      · exact ih h.2 hrest

end Contents

/-- What a node of a device tree holds: named properties, then subnodes that hold
    the same. -/
structure NodeContents where
  contents   : Contents
  propsFirst : contents.PropsFirst
  named      : contents.Named

/-! ## §2. Places. -/

/-- A node of an encoding: where its begin token stands and what it holds. -/
structure Placement where
  offset : Nat
  name   : Bytes
  pad    : Bytes
  items  : Items

/-- The children of items that stand at `offset`, with their places. -/
def Items.placements : Items → (offset : Nat) → List Placement
  | nil, _ => []
  | nop rest, offset => rest.placements (offset + 4)
  | prop o v pad rest, offset => rest.placements (offset + (propRecord o v pad).length)
  | node name pad children rest, offset =>
      { offset := offset, name := name, pad := pad, items := children }
        :: rest.placements ((spanNode offset name pad children).endOffset + 4)

namespace Placement

/-- The reader's name for the place: the end offset is that of the end token the
    encoding wrote for this node. -/
def fdtNode (site : Placement) : FdtNode := spanNode site.offset site.name site.pad site.items

/-- The node's contents, where `fdt` resolves the names. -/
def contents (site : Placement) (fdt : Fdt) : Contents := site.items.contents fdt.stringAt

def children (site : Placement) : List Placement :=
  site.items.placements (site.offset + (nodeHead site.name site.pad).length)

/-- A node of the subtree below `site`, or `site` itself. -/
def Reaches : Placement → Placement → Prop :=
  Relation.ReflTransGen (fun parent child => child ∈ parent.children)

/-- Take the first child of each name. -/
def follow : Placement → List Bytes → Option Placement
  | site, [] => some site
  | site, component :: components =>
      match site.children.find? (fun child => decide (child.name = component)) with
      | none       => none
      | some child => child.follow components

end Placement

theorem Items.placements_fdtNode (items : Items) (offset : Nat) :
    (items.placements offset).map Placement.fdtNode = items.childNodes offset := by
  induction items generalizing offset with
  | nil => rfl
  | nop rest ih => exact ih (offset + 4)
  | prop o v pad rest ih => exact ih _
  | node name pad children rest _ ih =>
      rw [placements, childNodes, List.map_cons, ih]
      rfl

/-- The places of the children are those of the tree's children, in order. -/
theorem Items.placements_children (fdt : Fdt) (items : Items) (offset : Nat) :
    (items.placements offset).map (fun child => (child.name, child.contents fdt))
      = (items.contents fdt.stringAt).children := by
  induction items generalizing offset with
  | nil => rfl
  | nop rest ih => exact ih (offset + 4)
  | prop o v pad rest ih => exact ih _
  | node name pad children rest _ ih =>
      rw [placements, contents, Contents.children, List.map_cons, ih]
      rfl

/-- The node of the encoding is there in the block. -/
def Fdt.Places (fdt : Fdt) (site : Placement) : Prop :=
  fdt.NodeAt site.offset site.name site.pad site.items

theorem Items.places_of_mem {fdt : Fdt} {items : Items} (h : items.Valid) {offset : Nat}
    (hat : ReadsAt fdt.structureBlock offset items.flat) (haligned : offset % 4 = 0)
    {child : Placement} (hchild : child ∈ items.placements offset) : fdt.Places child := by
  induction items generalizing offset with
  | nil => cases hchild
  | nop rest ih =>
      obtain ⟨-, hrest⟩ := readsAt_append.mp hat
      rw [be32_length] at hrest
      exact ih h hrest (by omega) hchild
  | prop o v pad rest ih =>
      obtain ⟨-, -, hpad, hvalid⟩ := h
      obtain ⟨-, hrest⟩ := readsAt_append.mp hat
      have hmod := align4_mod v.length
      have htotal := propRecord_length o hpad
      exact ih hvalid hrest (by omega) hchild
  | node name pad children rest _ ih =>
      obtain ⟨hname, hpad, hinner, hvalid⟩ := h
      obtain ⟨hhead, htail⟩ := readsAt_append.mp hat
      obtain ⟨hinside, htail⟩ := readsAt_append.mp htail
      obtain ⟨hend, hrest⟩ := readsAt_append.mp htail
      rw [be32_length] at hrest
      have hnode : fdt.NodeAt offset name pad children :=
        ⟨haligned, hname, hpad, hinner,
          readsAt_append.mpr ⟨hhead, readsAt_append.mpr ⟨hinside, hend⟩⟩⟩
      rcases List.mem_cons.mp hchild with rfl | hlater
      · exact hnode
      · have hmod := hnode.inside_mod
        have hcmod := hinner.flat_mod
        exact ih hvalid hrest (by omega) hlater

/-! ## §3. The walkers at a place. -/

section Walkers

variable {fdt : Fdt} {site : Placement}

theorem Fdt.Places.child (h : fdt.Places site) {child : Placement} (hchild : child ∈ site.children) :
    fdt.Places child :=
  Items.places_of_mem h.valid h.inside h.inside_mod hchild

theorem Fdt.Places.reaches {root : Placement} (h : fdt.Places root) (hreach : root.Reaches site) :
    fdt.Places site := by
  induction hreach with
  | refl => exact h
  | tail _ hchild ih => exact ih.child hchild

theorem Fdt.Places.forEachChild {σ : Type} (h : fdt.Places site) (visit : FdtNode → σ → Bool × σ)
    (acc : σ) : fdt.forEachChild site.fdtNode visit acc
      = (foldStop visit (site.children.map Placement.fdtNode) acc).2 := by
  rw [Placement.children, Items.placements_fdtNode]
  exact NodeAt.forEachChild h visit acc

theorem Fdt.Places.findChild (h : fdt.Places site) (component : Bytes) :
    fdt.findChild site.fdtNode component
      = (site.children.find? (fun child => decide (child.name = component))).map
          Placement.fdtNode := by
  have hfind := NodeAt.findChild_eq h component
  rw [← Items.placements_fdtNode, List.find?_map] at hfind
  exact hfind

/-- `find_node`'s loop takes the first child of each name; it gives up at an empty
    component. -/
theorem Fdt.Places.descend (h : fdt.Places site) (components : List Bytes) :
    fdt.descend site.fdtNode components
      = if ∀ component ∈ components, component ≠ [] then
          (site.follow components).map Placement.fdtNode
        else none := by
  induction components generalizing site with
  | nil => simp [Fdt.descend, Placement.follow]
  | cons component components ih =>
      rw [Fdt.descend, Placement.follow]
      by_cases hempty : component = []
      · rw [if_pos hempty, if_neg (by simp [hempty])]
      · rw [if_neg hempty, h.findChild]
        cases hfind : site.children.find? (fun child => decide (child.name = component)) with
        | none => simp
        | some child =>
            have hchild := h.child (List.mem_of_find?_eq_some hfind)
            show fdt.descend child.fdtNode components = _
            rw [ih hchild]
            simp [hempty]

end Walkers

theorem Placement.reaches_of_follow {root site : Placement} {components : List Bytes}
    (h : root.follow components = some site) : root.Reaches site := by
  induction components generalizing root with
  | nil =>
      cases h
      exact .refl
  | cons component components ih =>
      rw [Placement.follow] at h
      cases hfind : root.children.find? (fun child => decide (child.name = component)) with
      | none =>
          rw [hfind] at h
          cases h
      | some child =>
          rw [hfind] at h
          exact .head (List.mem_of_find?_eq_some hfind) (ih h)

/-! ## §4. The whole reader. -/

/-- **The structure block encodes the tree**: the root node stands at its front,
    with any no-ops and padding inside it and any sharing of strings. -/
structure Fdt.EncodesTree (fdt : Fdt) (rootName : Bytes) (contents : Contents) (root : Placement) :
    Prop where
  atFront  : root.offset = 0
  name_eq  : root.name = rootName
  text     : IsText rootName
  padded   : root.pad.length = padLength (rootName.length + 1)
  valid    : root.items.Valid
  contents : root.contents fdt = contents
  block    : ∃ after, fdt.structureBlock
      = nodeHead rootName root.pad ++ (root.items.flat ++ (be32 fdtEndNode ++ after))

theorem Fdt.EncodesTree.places {fdt : Fdt} {rootName : Bytes} {contents : Contents}
    {root : Placement} (h : fdt.EncodesTree rootName contents root) : fdt.Places root := by
  obtain ⟨after, hblock⟩ := h.block
  unfold Fdt.Places
  rw [h.atFront, h.name_eq]
  refine ⟨rfl, h.text, h.padded, h.valid, [], after, ?_, rfl⟩
  rw [hblock]
  simp only [List.nil_append, List.append_assoc]

/-- A node of a tree whose properties stand in front and have names is one too. -/
theorem Placement.Reaches.wellFormed {fdt : Fdt} {root site : Placement} (hreach : root.Reaches site)
    (hfirst : (root.contents fdt).PropsFirst) (hnamed : (root.contents fdt).Named) :
    (site.contents fdt).PropsFirst ∧ (site.contents fdt).Named := by
  induction hreach with
  | refl => exact ⟨hfirst, hnamed⟩
  | @tail parent child _ hchild ih =>
      have hmem : (child.name, child.contents fdt) ∈ (parent.contents fdt).children := by
        unfold Placement.contents
        rw [← Items.placements_children fdt parent.items]
        exact List.mem_map_of_mem hchild
      exact ⟨ih.1.of_child hmem, ih.2.of_child hmem⟩

/-- **The reader follows the tree.**  On every encoding of a device tree: the root
    is found; at every node the end offset is that of the node's own end token,
    the children are visited once each in order, and a property lookup gives
    the first direct property of the name; a path leads to the first child of
    each name. -/
theorem reader_follows_tree {fdt : Fdt} {rootName : Bytes} {tree : NodeContents} {root : Placement}
    (h : fdt.EncodesTree rootName tree.contents root) :
    fdt.rootNode = some root.fdtNode
    ∧ (∀ site, root.Reaches site →
        fdt.nodeAtOffset site.offset = some site.fdtNode
        ∧ ReadsAt fdt.structureBlock site.offset
            (nodeHead site.name site.pad ++ (site.items.flat ++ be32 fdtEndNode))
        ∧ site.fdtNode.endOffset
            = site.offset + (nodeHead site.name site.pad ++ site.items.flat).length
        ∧ site.children.map (fun child => (child.name, child.contents fdt))
            = (site.contents fdt).children
        ∧ (∀ {σ : Type} (visit : FdtNode → σ → Bool × σ) (acc : σ),
            fdt.forEachChild site.fdtNode visit acc
              = (foldStop visit (site.children.map Placement.fdtNode) acc).2)
        ∧ ∀ name, fdt.getProperty site.fdtNode name = (site.contents fdt).firstProperty name)
    ∧ ∀ path node, fdt.findNode path = some node
        ↔ IsAbsolute path ∧ (∀ component ∈ pathComponents path, component ≠ [])
          ∧ ∃ site, root.Reaches site ∧ root.follow (pathComponents path) = some site
              ∧ site.fdtNode = node := by
  have hplaces := h.places
  have hroot : fdt.rootNode = some root.fdtNode := by
    have hnode := Fdt.NodeAt.nodeAtOffset hplaces
    rw [h.atFront] at hnode
    unfold Fdt.rootNode Placement.fdtNode
    rw [hnode, h.atFront]
  refine ⟨hroot, ?_, ?_⟩
  · intro site hreach
    have hsite := hplaces.reaches hreach
    obtain ⟨hfirst', hnamed'⟩ : (site.contents fdt).PropsFirst ∧ (site.contents fdt).Named := by
      apply hreach.wellFormed
      · rw [h.contents]
        exact tree.propsFirst
      · rw [h.contents]
        exact tree.named
    refine ⟨hsite.nodeAtOffset, hsite.bytes, ?_, Items.placements_children fdt _ _,
      hsite.forEachChild, ?_⟩
    · rw [List.length_append, ← Nat.add_assoc]
      rfl
    · intro name
      rw [← hfirst'.property_eq]
      exact Fdt.NodeAt.getProperty hsite hnamed' name
  · intro path node
    rw [Fdt.findNode_eq_some]
    simp only [hroot, Option.some.injEq, exists_eq_left', hplaces.descend]
    constructor
    · rintro ⟨habsolute, hdescend⟩
      split_ifs at hdescend with hcomponents
      obtain ⟨site, hfollow, hnode⟩ := Option.map_eq_some_iff.mp hdescend
      exact ⟨habsolute, hcomponents, site, Placement.reaches_of_follow hfollow, hfollow, hnode⟩
    · rintro ⟨habsolute, hcomponents, site, -, hfollow, hnode⟩
      rw [if_pos hcomponents, hfollow, Option.map_some, hnode]
      exact ⟨habsolute, rfl⟩

/-- No-ops between the tokens, and two properties that share their name's string. -/
def nopRoot : Placement where
  offset := 0
  name   := []
  pad    := [0, 0, 0]
  items  := .nop (.property 0 [1] (.nop (.child (ascii "a") (.nop (.property 0 [2, 3] .nil))
    (.nop .nil))))

def nopFdt : Fdt where
  base           := 0x80008000
  totalSize      := 200
  reserveMap     := []
  structureBlock := nodeHead [] [0, 0, 0] ++ (nopRoot.items.flat
    ++ (be32 fdtEndNode ++ be32 fdtEnd))
  strings        := ascii "reg" ++ [0]

/-- The tree that `nopFdt` encodes. -/
def nopTree : NodeContents where
  contents   := .prop (some (ascii "reg")) [1]
    (.node (ascii "a") (.prop (some (ascii "reg")) [2, 3] .nil) .nil)
  propsFirst := ⟨trivial, trivial, trivial⟩
  named      := ⟨rfl, ⟨rfl, trivial⟩, trivial⟩

theorem nopFdt_encodesTree : nopFdt.EncodesTree [] nopTree.contents nopRoot where
  atFront  := rfl
  name_eq  := rfl
  text     := by decide
  padded   := rfl
  valid    := ⟨by decide, by decide, rfl, by decide, rfl, ⟨by decide, by decide, rfl, trivial⟩, trivial⟩
  contents := by decide +kernel
  block    := ⟨be32 fdtEnd, rfl⟩

/-- The reader finds the subnode and its property behind the no-ops. -/
theorem reader_follows_tree_nops : ∃ site, nopFdt.findNode (ascii "/a") = some site
    ∧ nopFdt.getProperty site (ascii "reg") = some [2, 3] := by
  obtain ⟨-, hsites, hpaths⟩ := reader_follows_tree nopFdt_encodesTree
  obtain ⟨child, hfollow⟩ : ∃ child, nopRoot.follow (pathComponents (ascii "/a")) = some child :=
    ⟨_, rfl⟩
  have hreach := Placement.reaches_of_follow hfollow
  refine ⟨child.fdtNode, (hpaths _ _).mpr ⟨.inr ⟨_, rfl⟩, by decide, child, hreach, hfollow, rfl⟩, ?_⟩
  rw [(hsites child hreach).2.2.2.2.2]
  cases hfollow
  decide +kernel

end RustFirmware.DeviceTree
