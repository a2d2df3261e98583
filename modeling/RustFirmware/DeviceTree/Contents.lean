/-
  RustFirmware.DeviceTree.Contents
  ────────────────────────────────
  **WHAT A BLOB MEANS, AND WHAT THE TWO EDITS ARE FOR.**

  `Contents` is a node's contents with the encoding taken away: no no-ops, no
  padding, names instead of string offsets.  Setting a property and creating a
  path are stated here in these terms (`setProperty`, `addMissing`), with
  nothing of the byte moves that implement them.

  The same edits on `Items` keep no-ops and padding where they are; §3 shows that
  they mean the edits on `Contents`.
-/
import RustFirmware.DeviceTree.Tree

namespace RustFirmware.DeviceTree

open RustFirmware.Lib

/-! ## §1. Decoded trees and their edits. -/

/-- What a node holds, in order.  A property whose name does not resolve in the
    strings block has no name. -/
inductive Contents where
  | nil
  | prop (name : Option Bytes) (value : Bytes) (rest : Contents)
  | node (name : Bytes) (children rest : Contents)
  deriving Repr, DecidableEq

/-- A decoded device tree: the reserve map and the root node. -/
structure Tree where
  reserveMap : List FdtReserveEntry
  rootName   : Bytes
  contents   : Contents
  deriving Repr, DecidableEq

namespace Contents

/-- Give `name` the value `value`: in place where the node has the property, else
    behind its other properties. -/
def setProperty (name value : Bytes) : Contents → Contents
  | nil => prop (some name) value nil
  | prop n v rest =>
      if n = some name then prop n value rest else prop n v (setProperty name value rest)
  | node n children rest => prop (some name) value (node n children rest)

/-- Edit the contents of the first child called `name`. -/
def onChild (name : Bytes) (edit : Contents → Contents) : Contents → Contents
  | nil => nil
  | prop n v rest => prop n v (onChild name edit rest)
  | node n children rest =>
      if n = name then node n (edit children) rest else node n children (onChild name edit rest)

/-- Edit the contents of the node at `path`. -/
def modifyAt (edit : Contents → Contents) : (path : List Bytes) → Contents → Contents
  | [], contents => edit contents
  | component :: path, contents => contents.onChild component (modifyAt edit path)

/-- The contents of the first child called `name`. -/
def child (name : Bytes) : Contents → Option Contents
  | nil => none
  | prop _ _ rest => child name rest
  | node n children rest => if n = name then some children else child name rest

/-- A new last child. -/
def addLast : (contents : Contents) → (name : Bytes) → (children : Contents) → Contents
  | nil, name, children => node name children nil
  | prop n v rest, name, children => prop n v (rest.addLast name children)
  | node n c rest, name, children => node n c (rest.addLast name children)

/-- Follow `path`; from the first missing component on, each component becomes
    an empty last child of the one before it. -/
def addMissing : (path : List Bytes) → Contents → Contents
  | [], contents => contents
  | component :: path, contents =>
      match contents.child component with
      | some _ => contents.onChild component (addMissing path)
      | none   => contents.addLast component (addMissing path nil)

/-- No property stands here. -/
def NoProps : Contents → Prop
  | nil => True
  | prop _ _ _ => False
  | node _ _ rest => rest.NoProps

/-- In every node the properties stand before the subnodes. -/
def PropsFirst : Contents → Prop
  | nil => True
  | prop _ _ rest => rest.PropsFirst
  | node _ children rest => children.PropsFirst ∧ rest.NoProps ∧ rest.PropsFirst

/-- Every property name resolves. -/
def Named : Contents → Prop
  | nil => True
  | prop n _ rest => n.isSome = true ∧ rest.Named
  | node _ children rest => children.Named ∧ rest.Named

/-- The value of the first property called `name` in front of the subnodes. -/
def property (name : Bytes) : Contents → Option Bytes
  | nil => none
  | prop n v rest => if n = some name then some v else property name rest
  | node _ _ _ => none

end Contents

namespace Tree

/-- The tree after `set_property_bytes`. -/
def setProperty (tree : Tree) (path : List Bytes) (name value : Bytes) : Tree :=
  { tree with contents := tree.contents.modifyAt (Contents.setProperty name value) path }

/-- The tree after `create_node`. -/
def addMissing (tree : Tree) (path : List Bytes) : Tree :=
  { tree with contents := tree.contents.addMissing path }

end Tree

/-! ## §2. The edits keep the order of properties and subnodes, and the names. -/

namespace Contents

theorem property_setProperty (name value : Bytes) (contents : Contents) :
    (contents.setProperty name value).property name = some value := by
  induction contents with
  | nil => simp [setProperty, property]
  | prop n v rest ih =>
      by_cases hn : n = some name
      · simp [setProperty, property, hn]
      · simp [setProperty, property, hn, ih]
  | node n children rest => simp [setProperty, property]

/-- Setting a property leaves the others. -/
theorem property_setProperty_of_ne {name other : Bytes} (h : other ≠ name) (value : Bytes)
    (contents : Contents) : (contents.setProperty name value).property other = contents.property other := by
  have hne : some name ≠ some other := fun heq => h (Option.some.inj heq).symm
  induction contents with
  | nil =>
      rw [setProperty, property]
      exact if_neg hne
  | prop n v rest ih =>
      rw [setProperty]
      split_ifs with hn
      · -- the replaced property is not the other one
        rw [property, property, if_neg (hn ▸ hne), if_neg (hn ▸ hne)]
      · rw [property, property, ih]
  | node n children rest =>
      rw [setProperty, property]
      exact if_neg hne

theorem child_onChild (name : Bytes) (edit : Contents → Contents) (contents : Contents) :
    (contents.onChild name edit).child name = (contents.child name).map edit := by
  induction contents with
  | nil => rfl
  | prop n v rest ih => exact ih
  | node n children rest _ ih =>
      rw [onChild, child]
      split_ifs with hn
      · rw [child, if_pos hn]
        rfl
      · rw [child, if_neg hn, ih]

theorem child_addLast {name : Bytes} {contents : Contents} (h : contents.child name = none)
    (children : Contents) : (contents.addLast name children).child name = some children := by
  induction contents with
  | nil => rw [addLast, child, if_pos rfl]
  | prop n v rest ih => exact ih h
  | node n c rest _ ih =>
      rw [child] at h
      split_ifs at h with hn
      rw [addLast, child, if_neg hn]
      exact ih h

/-- A property of the first child called `node`. -/
def childProperty (contents : Contents) (node name : Bytes) : Option Bytes :=
  (contents.child node).bind (property name)

/-- A child that is added for being missing has no properties. -/
theorem childProperty_addMissing (contents : Contents) (node name : Bytes) :
    (contents.addMissing [node]).childProperty node name = contents.childProperty node name := by
  unfold childProperty
  rw [addMissing]
  cases hchild : contents.child node with
  | some c =>
      show ((contents.onChild node (addMissing [])).child node).bind _ = _
      rw [child_onChild, hchild]
      rfl
  | none =>
      show ((contents.addLast node nil).child node).bind _ = _
      rw [child_addLast hchild]
      rfl

theorem childProperty_setProperty {contents : Contents} {node : Bytes}
    (h : (contents.child node).isSome) (name value other : Bytes) :
    (contents.modifyAt (setProperty name value) [node]).childProperty node other
      = if other = name then some value else contents.childProperty node other := by
  obtain ⟨c, hchild⟩ := Option.isSome_iff_exists.mp h
  unfold childProperty
  show ((contents.onChild node (setProperty name value)).child node).bind _ = _
  rw [child_onChild, hchild]
  show (c.setProperty name value).property other = _
  split_ifs with heq
  · rw [heq, property_setProperty]
  · rw [property_setProperty_of_ne heq]
    rfl

theorem PropsFirst.setProperty {contents : Contents} (h : contents.PropsFirst)
    (name value : Bytes) : (contents.setProperty name value).PropsFirst := by
  induction contents with
  | nil => trivial
  | prop n v rest ih =>
      rw [Contents.setProperty]
      split_ifs
      · exact h
      · exact ih h
  | node n children rest => exact h

theorem Named.setProperty {contents : Contents} (h : contents.Named) (name value : Bytes) :
    (contents.setProperty name value).Named := by
  induction contents with
  | nil => exact ⟨rfl, trivial⟩
  | prop n v rest ih =>
      rw [Contents.setProperty]
      split_ifs
      · exact h
      · exact ⟨h.1, ih h.2⟩
  | node n children rest => exact ⟨rfl, h⟩

theorem noProps_onChild {contents : Contents} (name : Bytes) (edit : Contents → Contents)
    (h : contents.NoProps) : (contents.onChild name edit).NoProps := by
  induction contents with
  | nil => trivial
  | prop n v rest => exact h.elim
  | node n children rest _ ih =>
      rw [onChild]
      split_ifs
      · exact h
      · exact ih h

theorem PropsFirst.onChild {contents : Contents} {edit : Contents → Contents} (name : Bytes)
    (hedit : ∀ c : Contents, c.PropsFirst → (edit c).PropsFirst) (h : contents.PropsFirst) :
    (contents.onChild name edit).PropsFirst := by
  induction contents with
  | nil => trivial
  | prop n v rest ih => exact ih h
  | node n children rest _ ih =>
      obtain ⟨hchildren, hno, hrest⟩ := h
      rw [Contents.onChild]
      split_ifs
      · exact ⟨hedit _ hchildren, hno, hrest⟩
      · exact ⟨hchildren, noProps_onChild name edit hno, ih hrest⟩

theorem Named.onChild {contents : Contents} {edit : Contents → Contents} (name : Bytes)
    (hedit : ∀ c : Contents, c.Named → (edit c).Named) (h : contents.Named) :
    (contents.onChild name edit).Named := by
  induction contents with
  | nil => trivial
  | prop n v rest ih => exact ⟨h.1, ih h.2⟩
  | node n children rest _ ih =>
      rw [Contents.onChild]
      split_ifs
      · exact ⟨hedit _ h.1, h.2⟩
      · exact ⟨h.1, ih h.2⟩

theorem PropsFirst.modifyAt {edit : Contents → Contents}
    (hedit : ∀ c : Contents, c.PropsFirst → (edit c).PropsFirst) (path : List Bytes)
    {contents : Contents} (h : contents.PropsFirst) : (contents.modifyAt edit path).PropsFirst := by
  induction path generalizing contents with
  | nil => exact hedit _ h
  | cons component path ih => exact h.onChild component (fun c hc => ih hc)

theorem Named.modifyAt {edit : Contents → Contents}
    (hedit : ∀ c : Contents, c.Named → (edit c).Named) (path : List Bytes)
    {contents : Contents} (h : contents.Named) : (contents.modifyAt edit path).Named := by
  induction path generalizing contents with
  | nil => exact hedit _ h
  | cons component path ih => exact h.onChild component (fun c hc => ih hc)

theorem noProps_addLast {contents : Contents} (name : Bytes) (children : Contents)
    (h : contents.NoProps) : (contents.addLast name children).NoProps := by
  induction contents with
  | nil => trivial
  | prop n v rest => exact h.elim
  | node n c rest _ ih => exact ih h

theorem PropsFirst.addLast {contents children : Contents} (h : contents.PropsFirst) (name : Bytes)
    (hchildren : children.PropsFirst) : (contents.addLast name children).PropsFirst := by
  induction contents with
  | nil => exact ⟨hchildren, trivial, trivial⟩
  | prop n v rest ih => exact ih h
  | node n c rest _ ih => exact ⟨h.1, noProps_addLast name children h.2.1, ih h.2.2⟩

theorem Named.addLast {contents children : Contents} (h : contents.Named) (name : Bytes)
    (hchildren : children.Named) : (contents.addLast name children).Named := by
  induction contents with
  | nil => exact ⟨hchildren, trivial⟩
  | prop n v rest ih => exact ⟨h.1, ih h.2⟩
  | node n c rest _ ih => exact ⟨h.1, ih h.2⟩

theorem PropsFirst.addMissing {contents : Contents} (h : contents.PropsFirst) (path : List Bytes) :
    (contents.addMissing path).PropsFirst := by
  induction path generalizing contents with
  | nil => exact h
  | cons component path ih =>
      rw [Contents.addMissing]
      cases contents.child component with
      | some c => exact h.onChild component (fun c hc => ih hc)
      | none => exact h.addLast component (ih (show PropsFirst nil from trivial))

theorem Named.addMissing {contents : Contents} (h : contents.Named) (path : List Bytes) :
    (contents.addMissing path).Named := by
  induction path generalizing contents with
  | nil => exact h
  | cons component path ih =>
      rw [Contents.addMissing]
      cases contents.child component with
      | some c => exact h.onChild component (fun c hc => ih hc)
      | none => exact h.addLast component (ih (show Named nil from trivial))

end Contents

/-! ## §3. The same edits on items. -/

namespace Items

section Decode

variable (names : Nat → Option Bytes)

/-- The meaning of items, where `names` looks string offsets up. -/
def contents : Items → Contents
  | nil => .nil
  | nop rest => rest.contents
  | prop nameOffset value _ rest => .prop (names nameOffset) value rest.contents
  | node name _ children rest => .node name children.contents rest.contents

/-- Write a record for `name` over the one that is there, or behind the last
    property in front of the subnodes. -/
def setProperty (name : Bytes) (nameOffset : Nat) (value : Bytes) : Items → Items
  | nil => property nameOffset value nil
  | nop rest => nop (setProperty name nameOffset value rest)
  | prop o v pad rest =>
      if names o = some name then property nameOffset value rest
      else prop o v pad (setProperty name nameOffset value rest)
  | node n pad children rest => property nameOffset value (node n pad children rest)

end Decode

def onChild (name : Bytes) (edit : Items → Items) : Items → Items
  | nil => nil
  | nop rest => nop (onChild name edit rest)
  | prop o v pad rest => prop o v pad (onChild name edit rest)
  | node n pad children rest =>
      if n = name then node n pad (edit children) rest
      else node n pad children (onChild name edit rest)

def modifyAt (edit : Items → Items) : (path : List Bytes) → Items → Items
  | [], items => edit items
  | component :: path, items => items.onChild component (modifyAt edit path)

def childItems (name : Bytes) : Items → Option Items
  | nil => none
  | nop rest => childItems name rest
  | prop _ _ _ rest => childItems name rest
  | node n _ children rest => if n = name then some children else childItems name rest

def addLast : (items : Items) → (name : Bytes) → (children : Items) → Items
  | nil, name, children => child name children nil
  | nop rest, name, children => nop (rest.addLast name children)
  | prop o v pad rest, name, children => prop o v pad (rest.addLast name children)
  | node n pad c rest, name, children => node n pad c (rest.addLast name children)

def addMissing : (path : List Bytes) → Items → Items
  | [], items => items
  | component :: path, items =>
      match items.childItems component with
      | some _ => items.onChild component (addMissing path)
      | none   => items.addLast component (addMissing path nil)

variable {names : Nat → Option Bytes}

theorem contents_setProperty {name : Bytes} {nameOffset : Nat}
    (hname : names nameOffset = some name) (value : Bytes) (items : Items) :
    (items.setProperty names name nameOffset value).contents names
      = (items.contents names).setProperty name value := by
  induction items with
  | nil => simp [setProperty, property, contents, Contents.setProperty, hname]
  | nop rest ih => exact ih
  | prop o v pad rest ih =>
      rw [setProperty, contents, Contents.setProperty]
      by_cases ho : names o = some name
      · rw [if_pos ho, if_pos ho, property, contents, hname, ho]
      · rw [if_neg ho, if_neg ho, contents, ih]
  | node n pad children rest => simp [setProperty, property, contents, Contents.setProperty, hname]

theorem contents_onChild {edit : Items → Items} {edit' : Contents → Contents}
    (hedit : ∀ c : Items, (edit c).contents names = edit' (c.contents names)) (name : Bytes)
    (items : Items) :
    (items.onChild name edit).contents names = (items.contents names).onChild name edit' := by
  induction items with
  | nil => rfl
  | nop rest ih => exact ih
  | prop o v pad rest ih => simp only [onChild, contents, Contents.onChild, ih]
  | node n pad children rest _ ih =>
      rw [onChild, contents, Contents.onChild]
      split_ifs
      · rw [contents, hedit]
      · rw [contents, ih]

theorem contents_modifyAt {edit : Items → Items} {edit' : Contents → Contents}
    (hedit : ∀ c : Items, (edit c).contents names = edit' (c.contents names))
    (path : List Bytes) (items : Items) :
    (items.modifyAt edit path).contents names = (items.contents names).modifyAt edit' path := by
  induction path generalizing items with
  | nil => exact hedit items
  | cons component path ih => exact contents_onChild (fun c => ih c) component items

theorem contents_childItems (name : Bytes) (items : Items) :
    (items.contents names).child name = (items.childItems name).map (contents names) := by
  induction items with
  | nil => rfl
  | nop rest ih => exact ih
  | prop o v pad rest ih => exact ih
  | node n pad children rest _ ih =>
      rw [contents, Contents.child, childItems]
      split_ifs
      · rfl
      · exact ih

theorem contents_addLast (name : Bytes) (children items : Items) :
    (items.addLast name children).contents names
      = (items.contents names).addLast name (children.contents names) := by
  induction items with
  | nil => rfl
  | nop rest ih => exact ih
  | prop o v pad rest ih => simp only [addLast, contents, Contents.addLast, ih]
  | node n pad c rest _ ih => simp only [addLast, contents, Contents.addLast, ih]

/-- **Creating a path on items means creating it in the tree.** -/
theorem contents_addMissing (path : List Bytes) (items : Items) :
    (items.addMissing path).contents names = (items.contents names).addMissing path := by
  induction path generalizing items with
  | nil => rfl
  | cons component path ih =>
      rw [addMissing, Contents.addMissing, contents_childItems]
      cases items.childItems component with
      | some c => exact contents_onChild (fun c => ih c) component items
      | none =>
          show (items.addLast component (addMissing path nil)).contents names = _
          rw [contents_addLast, ih nil]
          rfl

/-! ## §4. The edits keep items valid. -/

theorem valid_property {nameOffset : Nat} {value : Bytes} {rest : Items}
    (hname : nameOffset < 2 ^ 32) (hvalue : value.length < 2 ^ 32) (h : rest.Valid) :
    (property nameOffset value rest).Valid :=
  ⟨hname, hvalue, List.length_replicate, h⟩

theorem Valid.setProperty {items : Items} (h : items.Valid) (name : Bytes) {nameOffset : Nat}
    {value : Bytes} (hname : nameOffset < 2 ^ 32) (hvalue : value.length < 2 ^ 32) :
    (items.setProperty names name nameOffset value).Valid := by
  induction items with
  | nil => exact valid_property hname hvalue h
  | nop rest ih => exact ih h
  | prop o v pad rest ih =>
      obtain ⟨ho, hv, hpad, hrest⟩ := h
      rw [Items.setProperty]
      split_ifs
      · exact valid_property hname hvalue hrest
      · exact ⟨ho, hv, hpad, ih hrest⟩
  | node n pad children rest => exact valid_property hname hvalue h

theorem Valid.onChild {items : Items} {edit : Items → Items} (name : Bytes)
    (hedit : ∀ c : Items, c.Valid → (edit c).Valid) (h : items.Valid) :
    (items.onChild name edit).Valid := by
  induction items with
  | nil => trivial
  | nop rest ih => exact ih h
  | prop o v pad rest ih => exact ⟨h.1, h.2.1, h.2.2.1, ih h.2.2.2⟩
  | node n pad children rest _ ih =>
      obtain ⟨hn, hpad, hchildren, hrest⟩ := h
      rw [Items.onChild]
      split_ifs
      · exact ⟨hn, hpad, hedit _ hchildren, hrest⟩
      · exact ⟨hn, hpad, hchildren, ih hrest⟩

theorem Valid.modifyAt {edit : Items → Items} (hedit : ∀ c : Items, c.Valid → (edit c).Valid)
    (path : List Bytes) {items : Items} (h : items.Valid) : (items.modifyAt edit path).Valid := by
  induction path generalizing items with
  | nil => exact hedit _ h
  | cons component path ih => exact h.onChild component (fun c hc => ih hc)

theorem Valid.addLast {items children : Items} {name : Bytes} (h : items.Valid)
    (hname : IsText name) (hchildren : children.Valid) : (items.addLast name children).Valid := by
  induction items with
  | nil => exact ⟨hname, List.length_replicate, hchildren, trivial⟩
  | nop rest ih => exact ih h
  | prop o v pad rest ih => exact ⟨h.1, h.2.1, h.2.2.1, ih h.2.2.2⟩
  | node n pad c rest _ ih => exact ⟨h.1, h.2.1, h.2.2.1, ih h.2.2.2⟩

theorem Valid.addMissing {path : List Bytes} (hpath : ∀ component ∈ path, IsText component)
    {items : Items} (h : items.Valid) : (items.addMissing path).Valid := by
  induction path generalizing items with
  | nil => exact h
  | cons component path ih =>
      have hrest : ∀ c ∈ path, IsText c := fun c hc => hpath c (List.mem_cons_of_mem _ hc)
      rw [Items.addMissing]
      cases items.childItems component with
      | some c => exact h.onChild component (fun c hc => ih hrest hc)
      | none =>
          have hnil : Valid nil := trivial
          exact h.addLast (hpath component List.mem_cons_self) (ih hrest hnil)

end Items

end RustFirmware.DeviceTree
