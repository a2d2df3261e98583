/-
  RustFirmware.Ext4.Extents
  ─────────────────────────
  **EXTENT TREES: `collect_extent_node` AND HOW DEEP IT NESTS.**

  A node states its own depth and names its children by block number.  The source
  checks that the depth is at most 5, but not that a child's depth is below its
  parent's, so the depth fields bound nothing: a block that names itself as its child
  is descended into for ever.  `Descends` is what bounds the recursion, a chain of
  links on the disk; `levels` is how many activations the model allows, and `deeper`
  what it answers when they are used up.
-/
import RustFirmware.Ext4.Volume
import Mathlib.Logic.Function.Basic

namespace RustFirmware.Ext4

open RustFirmware.Lib
open RustFirmware.Virtio

/-! ## §1. Collecting extents. -/

/-- `Ext4Extent`. -/
structure Ext4Extent where
  logicalBlock  : Nat
  blockCount    : Nat
  physicalBlock : Nat
  deriving Repr, DecidableEq

/-- Why a call has no value: an error, or more nested activations than allowed. -/
inductive Halt where
  | error (error : Ext4Error)
  | deeper
  deriving Repr, DecidableEq

/-- A call that has ended. -/
def ended {α : Type} (result : Except Ext4Error α) : Except Halt α := result.mapError Halt.error

/-- The header of a node, checked: how many entries it has, and its depth. -/
def extentHeader (node : Bytes) : Except Ext4Error (Nat × Nat) := do
  let magic ← okOr (readLe16 node 0) .invalidExtentTree
  if magic ≠ ext4ExtentMagic then .error .invalidExtentTree
  else
    let entryCount ← okOr (readLe16 node 2) .invalidExtentTree
    let depth ← okOr (readLe16 node 6) .invalidExtentTree
    if depth > ext4MaxExtentDepth then .error .invalidExtentTree
    else if 12 + entryCount * 12 > node.length then .error .invalidExtentTree
    else .ok (entryCount, depth)

/-- Entry `index` of a leaf. -/
def leafExtent (node : Bytes) (index : Nat) : Except Ext4Error Ext4Extent := do
  let offset := 12 + index * 12
  let logicalBlock ← okOr (readLe32 node offset) .invalidExtentTree
  let rawLength ← okOr (readLe16 node (offset + 4)) .invalidExtentTree
  if rawLength &&& 0x8000 ≠ 0 then .error .invalidExtentTree
  else
    let physicalHigh ← okOr (readLe16 node (offset + 6)) .invalidExtentTree
    let physicalLow ← okOr (readLe32 node (offset + 8)) .invalidExtentTree
    .ok { logicalBlock := logicalBlock, blockCount := rawLength,
          physicalBlock := physicalHigh * 2 ^ 32 + physicalLow }

/-- One pass of the loop over a leaf; the array has room for `EXT4_MAX_EXTENTS`. -/
def collectLeafExtent (node : Bytes) (index : Nat) (extents : List Ext4Extent) :
    Except Ext4Error (List Ext4Extent) := do
  let extent ← leafExtent node index
  if extents.length ≥ ext4MaxExtents then .error .invalidExtentTree
  else .ok (extents ++ [extent])

/-- The child that entry `index` of an interior node names. -/
def readChild (volume : Ext4Volume) (node : Bytes) (index : Nat) : Except Ext4Error Bytes := do
  let offset := 12 + index * 12
  let childLow ← okOr (readLe32 node (offset + 4)) .invalidExtentTree
  let childHigh ← okOr (readLe16 node (offset + 8)) .invalidExtentTree
  volume.readBlock (childHigh * 2 ^ 32 + childLow)

/-- `collect_extent_node`, with `levels` nested activations allowed: `extents` are those
    collected before it. -/
def collectExtentNode (volume : Ext4Volume) :
    (levels : Nat) → (node : Bytes) → (extents : List Ext4Extent) → Except Halt (List Ext4Extent)
  | 0, _, _ => .error .deeper
  | levels + 1, node, extents => do
      let (entryCount, depth) ← ended (extentHeader node)
      if depth = 0 then ended (forCount (collectLeafExtent node) entryCount 0 extents)
      else
        forCount (fun index extents => do
            let child ← ended (readChild volume node index)
            collectExtentNode volume levels child extents)
          entryCount 0 extents

/-- `collect_inode_extents`. -/
def collectInodeExtents (volume : Ext4Volume) (levels : Nat) (inode : Ext4Inode) :
    Except Halt (List Ext4Extent) :=
  if inode.usesExtents = false then .error (.error .unsupportedMapping)
  else collectExtentNode volume levels inode.blockData []

theorem ended_ok {α : Type} {result : Except Ext4Error α} {a : α} :
    ended result = .ok a ↔ result = .ok a := by
  cases result with
  | ok b => exact ⟨fun h => (by cases h; rfl), fun h => (by cases h; rfl)⟩
  | error e => exact ⟨fun h => (by cases h), fun h => (by cases h)⟩

theorem ended_ne_deeper {α : Type} (result : Except Ext4Error α) : ended result ≠ .error .deeper := by
  cases result <;> exact fun h => (by cases h)

/-! ## §2. The leaves of a tree. -/

/-- **The leaves below a node, from left to right**, where all of them can be read. -/
inductive Leaves (volume : Ext4Volume) : (node : Bytes) → List Ext4Extent → Prop where
  | leaf {node : Bytes} {count : Nat} {extent : Nat → Ext4Extent}
      (hheader : extentHeader node = .ok (count, 0))
      (hextent : ∀ i < count, leafExtent node i = .ok (extent i)) :
      Leaves volume node ((List.range count).map extent)
  | interior {node : Bytes} {count depth : Nat} {child : Nat → Bytes}
      {parts : Nat → List Ext4Extent}
      (hheader : extentHeader node = .ok (count, depth)) (hdepth : depth ≠ 0)
      (hchild : ∀ i < count, readChild volume node i = .ok (child i))
      (hparts : ∀ i < count, Leaves volume (child i) (parts i)) :
      Leaves volume node ((List.range count).flatMap parts)

/-- A tree has its leaves in one way. -/
theorem Leaves.unique {volume : Ext4Volume} {node : Bytes} {xs ys : List Ext4Extent}
    (hx : Leaves volume node xs) (hy : Leaves volume node ys) : xs = ys := by
  induction hx generalizing ys with
  | leaf hheader hextent =>
      cases hy with
      | leaf hheader' hextent' =>
          rw [hheader] at hheader'
          cases hheader'
          refine List.map_congr_left (fun i hi => ?_)
          have hlt := List.mem_range.mp hi
          exact Except.ok.inj ((hextent i hlt).symm.trans (hextent' i hlt))
      | interior hheader' hdepth' =>
          rw [hheader] at hheader'
          cases hheader'
          exact absurd rfl hdepth'
  | interior hheader hdepth hchild _ ih =>
      cases hy with
      | leaf hheader' _ =>
          rw [hheader] at hheader'
          cases hheader'
          exact absurd rfl hdepth
      | interior hheader' _ hchild' hparts' =>
          rw [hheader] at hheader'
          cases hheader'
          refine List.flatMap_congr (fun i hi => ?_)
          have hlt := List.mem_range.mp hi
          refine ih i hlt ?_
          rw [Except.ok.inj ((hchild i hlt).symm.trans (hchild' i hlt))]
          exact hparts' i hlt

/-! ## §3. What a collection gives. -/

/-- A family up to `i`, and one more member. -/
theorem exists_family_succ {α : Type} (P : Nat → α → Prop) (family : Nat → α) {i : Nat} {a : α}
    (h : ∀ j < i, P j (family j)) (ha : P i a) :
    ∃ family' : Nat → α, (∀ j < i + 1, P j (family' j))
      ∧ (∀ j < i, family' j = family j) ∧ family' i = a := by
  have hsame : ∀ j < i, Function.update family i a j = family j :=
    fun j hj => Function.update_of_ne (Nat.ne_of_lt hj) a family
  refine ⟨Function.update family i a, ?_, hsame, Function.update_self i a family⟩
  intro j hj
  obtain hlt | rfl := Nat.lt_succ_iff_lt_or_eq.mp hj
  · rw [hsame j hlt]
    exact h j hlt
  · rw [Function.update_self]
    exact ha

theorem collectLeafExtent_ok {node : Bytes} {index : Nat} {extents extents' : List Ext4Extent} :
    collectLeafExtent node index extents = .ok extents'
      ↔ ∃ extent, leafExtent node index = .ok extent ∧ extents.length < ext4MaxExtents
          ∧ extents' = extents ++ [extent] := by
  unfold collectLeafExtent
  rw [bind_eq_ok]
  refine exists_congr (fun extent => and_congr_right (fun _ => ?_))
  by_cases hfull : extents.length ≥ ext4MaxExtents
  · rw [if_pos hfull]
    exact ⟨fun h => (by cases h), fun h => absurd h.1 (Nat.not_lt.mpr hfull)⟩
  · rw [if_neg hfull]
    exact ⟨fun h => ⟨Nat.not_le.mp hfull, (Except.ok.inj h).symm⟩, fun h => congrArg _ h.2.symm⟩

/-- The loop over a leaf appends its extents. -/
theorem collectLeaf_ok {node : Bytes} {count : Nat} {extents extents' : List Ext4Extent}
    (h : forCount (collectLeafExtent node) count 0 extents = .ok extents')
    (hroom : extents.length ≤ ext4MaxExtents) :
    ∃ extent : Nat → Ext4Extent, (∀ i < count, leafExtent node i = .ok (extent i))
      ∧ extents' = extents ++ (List.range count).map extent ∧ extents'.length ≤ ext4MaxExtents := by
  have hinv := forCount_invariant (fun i acc =>
    ∃ extent : Nat → Ext4Extent, (∀ j < i, leafExtent node j = .ok (extent j))
      ∧ acc = extents ++ (List.range i).map extent ∧ acc.length ≤ ext4MaxExtents) ?_ ?_ h
  · rw [Nat.zero_add] at hinv
    exact hinv
  · rintro i - acc acc' ⟨extent, hextent, rfl, -⟩ hpass
    rw [Nat.zero_add] at hpass hextent ⊢
    obtain ⟨last, hlast, hlength, rfl⟩ := collectLeafExtent_ok.mp hpass
    obtain ⟨extent', hextent', hsame, hnew⟩ :=
      exists_family_succ (fun j e => leafExtent node j = .ok e) extent hextent hlast
    refine ⟨extent', hextent', ?_, ?_⟩
    · rw [List.range_succ, List.map_append, List.append_assoc, List.map_singleton, hnew]
      congr 2
      exact (List.map_congr_left (fun j hj => hsame j (List.mem_range.mp hj))).symm
    · rw [List.length_append, List.length_singleton]
      omega
  · exact ⟨fun _ => ⟨0, 0, 0⟩, fun j hj => absurd hj (Nat.not_lt_zero j), by simp, hroom⟩

section Collect

variable {volume : Ext4Volume} {node : Bytes} {levels count depth : Nat}

/-- One pass of the loop over an interior node. -/
def collectChild (volume : Ext4Volume) (levels : Nat) (node : Bytes) (index : Nat)
    (extents : List Ext4Extent) : Except Halt (List Ext4Extent) := do
  let child ← ended (readChild volume node index)
  collectExtentNode volume levels child extents

theorem collectExtentNode_invalid {e : Ext4Error} (h : extentHeader node = .error e)
    (extents : List Ext4Extent) :
    collectExtentNode volume (levels + 1) node extents = .error (.error e) := by
  unfold collectExtentNode
  rw [h]
  rfl

theorem collectExtentNode_leaf (h : extentHeader node = .ok (count, 0)) (extents : List Ext4Extent) :
    collectExtentNode volume (levels + 1) node extents
      = ended (forCount (collectLeafExtent node) count 0 extents) := by
  unfold collectExtentNode
  rw [h]
  rfl

theorem collectExtentNode_interior (h : extentHeader node = .ok (count, depth)) (hdepth : depth ≠ 0)
    (extents : List Ext4Extent) :
    collectExtentNode volume (levels + 1) node extents
      = forCount (collectChild volume levels node) count 0 extents := by
  unfold collectExtentNode
  rw [h]
  show (if depth = 0 then _ else _) = _
  rw [if_neg hdepth]
  rfl

/-- What the loop over an interior node has done after `count` passes, if each of the
    calls it makes gives the leaves of its child. -/
theorem collectChildren_ok {extents extents' : List Ext4Extent}
    (ih : ∀ child acc acc', collectExtentNode volume levels child acc = .ok acc' →
      acc.length ≤ ext4MaxExtents →
      ∃ leaves, Leaves volume child leaves ∧ acc' = acc ++ leaves ∧ acc'.length ≤ ext4MaxExtents)
    (h : forCount (collectChild volume levels node) count 0 extents = .ok extents')
    (hroom : extents.length ≤ ext4MaxExtents) :
    ∃ (child : Nat → Bytes) (parts : Nat → List Ext4Extent),
      (∀ i < count, readChild volume node i = .ok (child i))
      ∧ (∀ i < count, Leaves volume (child i) (parts i))
      ∧ extents' = extents ++ (List.range count).flatMap parts
      ∧ extents'.length ≤ ext4MaxExtents := by
  have hinv := forCount_invariant (fun i acc =>
    ∃ (child : Nat → Bytes) (parts : Nat → List Ext4Extent),
      (∀ j < i, readChild volume node j = .ok (child j))
      ∧ (∀ j < i, Leaves volume (child j) (parts j))
      ∧ acc = extents ++ (List.range i).flatMap parts ∧ acc.length ≤ ext4MaxExtents) ?_ ?_ h
  · rw [Nat.zero_add] at hinv
    exact hinv
  · rintro i - acc acc' ⟨child, parts, hchild, hparts, rfl, hlength⟩ hpass
    rw [Nat.zero_add] at hpass hchild hparts hlength ⊢
    obtain ⟨next, hnext, hcall⟩ := bind_eq_ok.mp hpass
    obtain ⟨leaves, hleaves, rfl, hlength'⟩ := ih next _ acc' hcall hlength
    obtain ⟨both, hboth, hsame, hnew⟩ := exists_family_succ
      (fun j pair => readChild volume node j = .ok pair.1 ∧ Leaves volume pair.1 pair.2)
      (fun j => (child j, parts j)) (a := (next, leaves)) (fun j hj => ⟨hchild j hj, hparts j hj⟩)
      ⟨ended_ok.mp hnext, hleaves⟩
    refine ⟨fun j => (both j).1, fun j => (both j).2, fun j hj => (hboth j hj).1,
      fun j hj => (hboth j hj).2, ?_, hlength'⟩
    rw [List.range_succ, List.flatMap_append, List.append_assoc, List.flatMap_singleton, hnew]
    congr 2
    exact (List.flatMap_congr (fun j hj => by rw [hsame j (List.mem_range.mp hj)])).symm
  · exact ⟨fun _ => [], fun _ => [], fun j hj => absurd hj (Nat.not_lt_zero j),
      fun j hj => absurd hj (Nat.not_lt_zero j), by simp, hroom⟩

/-- **A collection that ends with extents has appended the leaves of the tree.** -/
theorem collectExtentNode_ok {extents extents' : List Ext4Extent}
    (h : collectExtentNode volume levels node extents = .ok extents')
    (hroom : extents.length ≤ ext4MaxExtents) :
    ∃ leaves, Leaves volume node leaves ∧ extents' = extents ++ leaves
      ∧ extents'.length ≤ ext4MaxExtents := by
  induction levels generalizing node extents extents' with
  | zero => cases h
  | succ levels ih =>
      cases hheader : extentHeader node with
      | error e =>
          rw [collectExtentNode_invalid hheader] at h
          cases h
      | ok header =>
          obtain ⟨count, depth⟩ := header
          by_cases hdepth : depth = 0
          · subst hdepth
            rw [collectExtentNode_leaf hheader, ended_ok] at h
            obtain ⟨extent, hextent, rfl, hlength⟩ := collectLeaf_ok h hroom
            exact ⟨_, .leaf hheader hextent, rfl, hlength⟩
          · rw [collectExtentNode_interior hheader hdepth] at h
            obtain ⟨child, parts, hchild, hparts, rfl, hlength⟩ :=
              collectChildren_ok (fun child acc acc' => ih) h hroom
            exact ⟨_, .interior hheader hdepth hchild hparts, rfl, hlength⟩

/-- Extents that can be read and fit are collected. -/
theorem collectLeaf_of_extents {extent : Nat → Ext4Extent} {extents : List Ext4Extent}
    (hextent : ∀ i < count, leafExtent node i = .ok (extent i))
    (hroom : (extents ++ (List.range count).map extent).length ≤ ext4MaxExtents) :
    forCount (collectLeafExtent node) count 0 extents
      = .ok (extents ++ (List.range count).map extent) := by
  induction count with
  | zero =>
      rw [List.range_zero, List.map_nil, List.append_nil]
      rfl
  | succ count ih =>
      rw [List.range_succ, List.map_append, ← List.append_assoc, List.length_append] at hroom
      have hless := Nat.lt_of_lt_of_le (Nat.lt_succ_self _) hroom
      rw [forCount_succ_last, ih (fun i hi => hextent i (Nat.lt_succ_of_lt hi))
        (Nat.le_of_lt hless), Nat.zero_add, List.range_succ, List.map_append, ← List.append_assoc]
      exact collectLeafExtent_ok.mpr ⟨extent count, hextent count (Nat.lt_succ_self _), hless, rfl⟩

/-- `collected` is what a call gives, unless it nests too deep. -/
def GivesOrNests (result : Except Halt (List Ext4Extent)) (collected : List Ext4Extent) : Prop :=
  result = .ok collected ∨ result = .error .deeper

/-- The loop over an interior node, if each of its calls gives the part of its child. -/
theorem collectChildren_gives (levels : Nat) {child : Nat → Bytes} {parts : Nat → List Ext4Extent}
    {extents : List Ext4Extent} (hchild : ∀ i < count, readChild volume node i = .ok (child i))
    (hcalls : ∀ i < count, ∀ acc, (acc ++ parts i).length ≤ ext4MaxExtents →
      GivesOrNests (collectExtentNode volume levels (child i) acc) (acc ++ parts i))
    (hroom : (extents ++ (List.range count).flatMap parts).length ≤ ext4MaxExtents) :
    GivesOrNests (forCount (collectChild volume levels node) count 0 extents)
      (extents ++ (List.range count).flatMap parts) := by
  induction count with
  | zero =>
      rw [List.range_zero, List.flatMap_nil, List.append_nil]
      exact .inl rfl
  | succ count ih =>
      have hlast := Nat.lt_succ_self count
      rw [List.range_succ, List.flatMap_append, ← List.append_assoc, List.flatMap_singleton]
        at hroom ⊢
      have hless : (extents ++ (List.range count).flatMap parts).length ≤ ext4MaxExtents := by
        rw [List.length_append] at hroom
        omega
      rw [forCount_succ_last, Nat.zero_add]
      obtain hmade | hdeeper := ih (fun i hi => hchild i (Nat.lt_succ_of_lt hi))
        (fun i hi => hcalls i (Nat.lt_succ_of_lt hi)) hless
      · rw [hmade]
        show GivesOrNests (collectChild volume levels node count _) _
        unfold collectChild
        rw [hchild count hlast]
        exact hcalls count hlast _ hroom
      · rw [hdeeper]
        exact .inr rfl

/-- **A tree with its leaves in order is collected**, unless it nests too deep. -/
theorem Leaves.gives {leaves : List Ext4Extent} (hleaves : Leaves volume node leaves) (levels : Nat)
    (extents : List Ext4Extent) (hroom : (extents ++ leaves).length ≤ ext4MaxExtents) :
    GivesOrNests (collectExtentNode volume levels node extents) (extents ++ leaves) := by
  induction hleaves generalizing levels extents with
  | leaf hheader hextent =>
      cases levels with
      | zero => exact .inr rfl
      | succ levels =>
          rw [collectExtentNode_leaf hheader, collectLeaf_of_extents hextent hroom]
          exact .inl rfl
  | interior hheader hdepth hchild _ ih =>
      cases levels with
      | zero => exact .inr rfl
      | succ levels =>
          rw [collectExtentNode_interior hheader hdepth]
          exact collectChildren_gives levels hchild (fun i hi acc => ih i hi levels acc) hroom

/-- More levels change nothing for a call that ends. -/
theorem collectExtentNode_mono {levels' : Nat} {extents : List Ext4Extent}
    {result : Except Halt (List Ext4Extent)} (hlevels : levels ≤ levels')
    (h : collectExtentNode volume levels node extents = result) (hends : result ≠ .error .deeper) :
    collectExtentNode volume levels' node extents = result := by
  induction levels generalizing levels' node extents result with
  | zero => exact absurd h.symm hends
  | succ levels ih =>
      cases levels' with
      | zero => exact absurd hlevels (Nat.not_succ_le_zero levels)
      | succ levels' =>
          have hle := Nat.le_of_succ_le_succ hlevels
          cases hheader : extentHeader node with
          | error e =>
              rw [collectExtentNode_invalid hheader] at h ⊢
              exact h
          | ok header =>
              obtain ⟨count, depth⟩ := header
              by_cases hdepth : depth = 0
              · subst hdepth
                rw [collectExtentNode_leaf hheader] at h ⊢
                exact h
              · rw [collectExtentNode_interior hheader hdepth] at h ⊢
                refine forCount_mono ?_ h hends
                intro i acc r hr hends'
                unfold collectChild at hr ⊢
                cases hchild : ended (readChild volume node i) with
                | error e =>
                    rw [hchild] at hr
                    exact hr
                | ok child =>
                    rw [hchild] at hr
                    exact ih hle hr hends'

/-- What an inode's collection ends with are the leaves of its tree. -/
theorem collectInodeExtents_leaves {inode : Ext4Inode} {extents leaves : List Ext4Extent}
    (h : collectInodeExtents volume levels inode = .ok extents)
    (hleaves : Leaves volume inode.blockData leaves) : extents = leaves := by
  unfold collectInodeExtents at h
  split at h
  · cases h
  · obtain ⟨leaves', hleaves', rfl, -⟩ := collectExtentNode_ok h (Nat.zero_le _)
    exact hleaves'.unique hleaves

/-! ## §4. How deep it nests. -/

/-- **The collection arrives at a node `links` links below `node`**, with `before` collected
    when it comes to `node`: each link is an entry of a valid interior node that names a
    block that can be read, and everything to the left of it is a tree with its leaves in
    order and leaves room. -/
inductive Descends (volume : Ext4Volume) :
    (links : Nat) → (node : Bytes) → (before : List Ext4Extent) → Prop where
  | here {node : Bytes} {before : List Ext4Extent} : Descends volume 0 node before
  | link {links : Nat} {node next : Bytes} {before : List Ext4Extent} {count depth i : Nat}
      {child : Nat → Bytes} {parts : Nat → List Ext4Extent}
      (hheader : extentHeader node = .ok (count, depth)) (hdepth : depth ≠ 0) (hi : i < count)
      (hchild : ∀ j < i, readChild volume node j = .ok (child j))
      (hparts : ∀ j < i, Leaves volume (child j) (parts j))
      (hroom : (before ++ (List.range i).flatMap parts).length ≤ ext4MaxExtents)
      (hnext : readChild volume node i = .ok next)
      (hbelow : Descends volume links next (before ++ (List.range i).flatMap parts)) :
      Descends volume (links + 1) node before

/-- **The levels are used up exactly where a chain of that many links is arrived at.** -/
theorem collectExtentNode_deeper {before : List Ext4Extent}
    (hroom : before.length ≤ ext4MaxExtents) :
    collectExtentNode volume levels node before = .error .deeper
      ↔ Descends volume levels node before := by
  induction levels generalizing node before with
  | zero => exact ⟨fun _ => .here, fun _ => rfl⟩
  | succ levels ih =>
      constructor
      · intro h
        cases hheader : extentHeader node with
        | error e =>
            rw [collectExtentNode_invalid hheader] at h
            cases h
        | ok header =>
            obtain ⟨count, depth⟩ := header
            by_cases hdepth : depth = 0
            · subst hdepth
              rw [collectExtentNode_leaf hheader] at h
              exact absurd h (ended_ne_deeper _)
            · rw [collectExtentNode_interior hheader hdepth] at h
              -- the pass that nests too deep, and what those before it have collected
              obtain ⟨i, hi, acc, hmade, hpass⟩ := forCount_error.mp h
              obtain ⟨child, parts, hchild, hparts, rfl, hlength⟩ :=
                collectChildren_ok (fun child acc acc' => collectExtentNode_ok) hmade hroom
              rw [Nat.zero_add] at hpass
              unfold collectChild at hpass
              cases hnext : readChild volume node i with
              | error e =>
                  rw [hnext] at hpass
                  cases hpass
              | ok next =>
                  rw [hnext] at hpass
                  exact .link hheader hdepth hi hchild hparts hlength hnext ((ih hlength).mp hpass)
      · intro h
        cases h with
        | link hheader hdepth hi hchild hparts hlength hnext hbelow =>
            rename_i next count depth i child parts
            rw [collectExtentNode_interior hheader hdepth]
            have hpass : collectChild volume levels node i
                (before ++ (List.range i).flatMap parts) = .error .deeper := by
              unfold collectChild
              rw [hnext]
              exact (ih hlength).mpr hbelow
            -- the passes to the left are made, or nest too deep themselves
            obtain hmade | hdeeper := collectChildren_gives levels hchild
              (fun j hj acc => (hparts j hj).gives levels acc) hlength
            · exact forCount_error.mpr ⟨i, hi, _, hmade, by rw [Nat.zero_add]; exact hpass⟩
            · obtain ⟨j, hj, acc, hmade, hfails⟩ := forCount_error.mp hdeeper
              exact forCount_error.mpr ⟨j, Nat.lt_trans hj hi, acc, hmade, hfails⟩

end Collect

/-- `collect_inode_extents` ends, with at most `nesting` activations below that of the root:
    it has an outcome, and more levels change nothing. -/
def EndsWithin (volume : Ext4Volume) (nesting : Nat) (inode : Ext4Inode) : Prop :=
  ∃ outcome : Except Ext4Error (List Ext4Extent),
    ∀ levels > nesting, collectInodeExtents volume levels inode = ended outcome

/-- **The collection ends within the depth limit exactly if it arrives at no node six links
    below the root.** -/
theorem collectInodeExtents_ends (volume : Ext4Volume) (inode : Ext4Inode) :
    EndsWithin volume ext4MaxExtentDepth inode
      ↔ ¬ (inode.usesExtents = true
            ∧ Descends volume (ext4MaxExtentDepth + 1) inode.blockData []) := by
  have hempty : ([] : List Ext4Extent).length ≤ ext4MaxExtents := Nat.zero_le _
  unfold EndsWithin collectInodeExtents
  cases huses : inode.usesExtents with
  | false =>
      refine ⟨fun _ hboth => (by cases hboth.1), fun _ => ⟨.error .unsupportedMapping, ?_⟩⟩
      intro levels _
      rfl
  | true =>
      constructor
      · rintro ⟨outcome, hends⟩ ⟨-, hdescends⟩
        have hdeeper := (collectExtentNode_deeper hempty).mpr hdescends
        have hend := hends (ext4MaxExtentDepth + 1) (Nat.lt_succ_self _)
        rw [if_neg (by decide), hdeeper] at hend
        exact ended_ne_deeper outcome hend.symm
      · intro hshallow
        have hends : collectExtentNode volume (ext4MaxExtentDepth + 1) inode.blockData []
            ≠ .error .deeper :=
          fun hdeeper => hshallow ⟨rfl, (collectExtentNode_deeper hempty).mp hdeeper⟩
        cases hresult : collectExtentNode volume (ext4MaxExtentDepth + 1) inode.blockData [] with
        | ok extents =>
            refine ⟨.ok extents, fun levels hlevels => ?_⟩
            rw [if_neg (by decide)]
            exact collectExtentNode_mono hlevels hresult (fun h => (by cases h))
        | error halt =>
            cases halt with
            | error e =>
                refine ⟨.error e, fun levels hlevels => ?_⟩
                rw [if_neg (by decide)]
                exact collectExtentNode_mono hlevels hresult (fun h => (by cases h))
            | deeper => exact absurd hresult hends

/-- A node whose entry is the block `child`. -/
def interiorNode (depth child : Nat) : Bytes :=
  leBytes 2 ext4ExtentMagic ++ leBytes 2 1 ++ leBytes 2 1 ++ leBytes 2 depth ++ leBytes 4 0
    ++ leBytes 4 0 ++ leBytes 4 child ++ leBytes 2 0 ++ leBytes 2 0

/-- A volume whose block 1 is an interior node that names block 1. -/
def cyclicVolume : Ext4Volume := volumeOf (fun lba => if lba = 2 then interiorNode 1 1 else [])

/-- A regular file whose extent tree starts with block 1. -/
def cyclicInode : Ext4Inode where
  inodeNumber      := 12
  mode             := ext4ModeRegular
  sizeBytes        := 1024
  flags            := ext4InodeFlagExtents
  blockData        := interiorNode 1 1 ++ List.replicate 36 0
  blockData_length := by decide

/-- The block that names itself is descended into for ever. -/
theorem collectExtentNode_cyclic (levels : Nat) (extents : List Ext4Extent) :
    collectExtentNode cyclicVolume levels (cyclicVolume.block 1) extents = .error .deeper := by
  have hheader : extentHeader (cyclicVolume.block 1) = .ok (1, 1) := by decide +kernel
  have hchild : readChild cyclicVolume (cyclicVolume.block 1) 0 = .ok (cyclicVolume.block 1) := by
    decide +kernel
  induction levels with
  | zero => rfl
  | succ levels ih =>
      rw [collectExtentNode_interior hheader (by decide)]
      refine forCount_error.mpr ⟨0, by decide, extents, rfl, ?_⟩
      unfold collectChild
      rw [Nat.zero_add, hchild]
      exact ih

/-- **On the cyclic tree no number of levels is enough.** -/
theorem collectInodeExtents_cyclic :
    (∀ levels, collectInodeExtents cyclicVolume levels cyclicInode = .error .deeper)
      ∧ ¬ EndsWithin cyclicVolume ext4MaxExtentDepth cyclicInode := by
  have hheader : extentHeader cyclicInode.blockData = .ok (1, 1) := by decide +kernel
  have hchild : readChild cyclicVolume cyclicInode.blockData 0 = .ok (cyclicVolume.block 1) := by
    decide +kernel
  have hdeeper : ∀ levels,
      collectInodeExtents cyclicVolume levels cyclicInode = .error .deeper := by
    intro levels
    unfold collectInodeExtents
    rw [if_neg (by decide)]
    cases levels with
    | zero => rfl
    | succ levels =>
        rw [collectExtentNode_interior hheader (by decide)]
        refine forCount_error.mpr ⟨0, by decide, [], rfl, ?_⟩
        unfold collectChild
        rw [Nat.zero_add, hchild]
        exact collectExtentNode_cyclic levels []
  refine ⟨hdeeper, ?_⟩
  rintro ⟨outcome, hends⟩
  have hend := hends (ext4MaxExtentDepth + 1) (Nat.lt_succ_self _)
  rw [hdeeper] at hend
  exact ended_ne_deeper outcome hend.symm

/-- Nodes whose depth fields go down from link to link. -/
theorem Descends.links_le {volume : Ext4Volume}
    (hdown : ∀ node count depth i child count' depth', extentHeader node = .ok (count, depth) →
      i < count → readChild volume node i = .ok child →
      extentHeader child = .ok (count', depth') → depth' < depth)
    {links : Nat} {node : Bytes} {before : List Ext4Extent} {count depth : Nat}
    (h : Descends volume links node before) (hnode : extentHeader node = .ok (count, depth)) :
    links ≤ depth := by
  induction h generalizing count depth with
  | here => exact Nat.zero_le _
  | @link links node next before count' depth' i child parts hheader hdepth hi _ _ _ hnext hbelow ih =>
      rw [hheader] at hnode
      cases hnode
      cases hbelow with
      | here => exact Nat.one_le_iff_ne_zero.mpr hdepth
      | link hheader' _ _ _ _ _ _ _ =>
          have hless := hdown _ _ _ _ _ _ _ hheader hi hnext hheader'
          exact Nat.lt_of_le_of_lt (ih hheader') hless

/-- **On a volume whose nodes state a smaller depth than the nodes that name them, every
    collection ends within the depth limit.** -/
theorem collectInodeExtents_ends_of_depths (volume : Ext4Volume) (inode : Ext4Inode)
    (hdown : ∀ node count depth i child count' depth', extentHeader node = .ok (count, depth) →
      i < count → readChild volume node i = .ok child →
      extentHeader child = .ok (count', depth') → depth' < depth) :
    EndsWithin volume ext4MaxExtentDepth inode := by
  refine (collectInodeExtents_ends volume inode).mpr ?_
  rintro ⟨-, hdescends⟩
  cases hheader : extentHeader inode.blockData with
  | error e =>
      cases hdescends with
      | link hheader' =>
          rw [hheader] at hheader'
          cases hheader'
  | ok header =>
      have hle := hdescends.links_le hdown hheader
      have hdepth : header.2 ≤ ext4MaxExtentDepth := by
        obtain ⟨magic, -, hfields⟩ := bind_eq_ok.mp hheader
        split_ifs at hfields
        obtain ⟨entryCount, -, hfields⟩ := bind_eq_ok.mp hfields
        obtain ⟨depth, -, hfields⟩ := bind_eq_ok.mp hfields
        split_ifs at hfields with hdepth
        cases hfields
        exact Nat.not_lt.mp hdepth
      omega

end RustFirmware.Ext4
