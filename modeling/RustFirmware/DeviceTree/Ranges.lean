/-
  RustFirmware.DeviceTree.Ranges
  ──────────────────────────────
  **WHAT A TREE SAYS ABOUT MEMORY, AND THAT THE READERS SAY THE SAME.**

  A device tree describes RAM by the `reg` of its memory nodes, and takes parts of it away
  by the reserve map and by the children of `/reserved-memory`.  This is stated on the tree
  (`memoryRanges`, `staticRanges`).  The readers of `dtb_memory.rs` go through the blob with
  callbacks into slices of bounded length; on every encoding of the tree they collect what
  the tree says, as much as the slice has room for.
-/
import RustFirmware.DeviceTree.Lookup
import RustFirmware.DeviceTree.Layout
import RustFirmware.DeviceTree.Memory

namespace RustFirmware.DeviceTree

open RustFirmware.Lib
open RustFirmware.Memory

/-! ## §1. `reg` payloads. -/

/-- The number in a range of cells; a `u64` keeps the last two. -/
def cellNumber (bytes : Bytes) : Nat := beNat bytes % 2 ^ 64

/-- Entry number `index` of a `reg` payload. -/
def regEntry (addressCells sizeCells : Nat) (reg : Bytes) (index : Nat) : MemoryRegion :=
  let entry := reg.drop (index * ((addressCells + sizeCells) * 4))
  { base := cellNumber (entry.take (addressCells * 4))
    size := cellNumber ((entry.drop (addressCells * 4)).take (sizeCells * 4)) }

/-- **The ranges of a `reg` payload**: its whole entries; entries of no cells are none. -/
def regRanges (addressCells sizeCells : Nat) (reg : Bytes) : List MemoryRegion :=
  (List.range (reg.length / ((addressCells + sizeCells) * 4))).map (regEntry addressCells sizeCells reg)

/-- One more cell. -/
theorem shift_cell (value : Nat) {cell : Nat} (h : cell < 2 ^ 32) :
    (value <<< 32) % 2 ^ 64 ||| cell = (value * 2 ^ 32 + cell) % 2 ^ 64 := by
  have hhigh : (value <<< 32) % 2 ^ 64 = (value % 2 ^ 32) <<< 32 := by
    rw [Nat.shiftLeft_eq, Nat.shiftLeft_eq]
    omega
  rw [hhigh, ← Nat.shiftLeft_add_eq_or_of_lt h, Nat.shiftLeft_eq]
  omega

/-- The loop of `read_cells` shifts the cells in from the right. -/
theorem readCellsLoop_eq (bytes : Bytes) {value : Nat} (hvalue : value < 2 ^ 64) {index cells : Nat}
    (h : (index + cells) * 4 ≤ bytes.length) :
    readCellsLoop bytes value index cells
      = (value * 256 ^ (cells * 4) + beNat ((bytes.drop (index * 4)).take (cells * 4))) % 2 ^ 64 := by
  induction cells generalizing value index with
  | zero =>
      rw [readCellsLoop, Nat.zero_mul, List.take_zero, Nat.pow_zero, Nat.mul_one]
      exact (Nat.mod_eq_of_lt hvalue).symm
  | succ cells ih =>
      obtain ⟨cell, hcell⟩ := exists_readBe32 (show index * 4 + 4 ≤ bytes.length by omega)
      have hlt := (readsAt_of_readBe32 hcell).2
      have hsplit : (bytes.drop (index * 4)).take ((cells + 1) * 4)
          = be32 cell ++ (bytes.drop ((index + 1) * 4)).take (cells * 4) := by
        rw [drop_of_readBe32 hcell, show (cells + 1) * 4 = (be32 cell).length + cells * 4 by
          rw [be32_length]; omega, List.take_length_add_append, Nat.add_mul]
      have hrest : ((bytes.drop ((index + 1) * 4)).take (cells * 4)).length = cells * 4 := by
        rw [List.length_take, List.length_drop]
        omega
      have hpow : (256 : Nat) ^ ((cells + 1) * 4) = 2 ^ 32 * 256 ^ (cells * 4) := by
        rw [Nat.add_mul, Nat.pow_add, Nat.mul_comm]
        rfl
      rw [readCellsLoop, hcell, Option.getD_some, shift_cell value hlt,
        ih (Nat.mod_lt _ (by decide)) (by omega), hsplit, beNat_append, beNat_be32 hlt, hrest, hpow,
        Nat.add_mod, Nat.mod_mul_mod, ← Nat.add_mod, Nat.add_mul, Nat.mul_assoc, Nat.add_assoc]

/-- **`read_cells` reads the number in the cells**, as far as a `u64` holds it. -/
theorem readCells_eq {bytes : Bytes} {cells : Nat} (h : bytes.length = cells * 4) :
    readCells bytes cells = cellNumber bytes := by
  unfold readCells cellNumber
  rw [readCellsLoop_eq bytes (by decide) (by omega), Nat.zero_mul, Nat.zero_mul, Nat.zero_add,
    List.drop_zero, ← h, List.take_length]

/-- From entry `index` on the loop shows the entries that are left. -/
theorem visitDecodedLoop_entries {reg : Bytes} {addressCells sizeCells : Nat}
    (hcells : 0 < (addressCells + sizeCells) * 4) {fuel index : Nat}
    (hfuel : reg.length < index * ((addressCells + sizeCells) * 4) + fuel) :
    (visitDecodedLoop reg addressCells sizeCells gather fuel
        (index * ((addressCells + sizeCells) * 4)) []).2
      = (List.range' index (reg.length / ((addressCells + sizeCells) * 4) - index)).map
          (regEntry addressCells sizeCells reg) := by
  induction fuel generalizing index with
  | zero =>
      have hnone : reg.length / ((addressCells + sizeCells) * 4) ≤ index :=
        Nat.le_of_lt ((Nat.div_lt_iff_lt_mul hcells).mpr hfuel)
      rw [Nat.sub_eq_zero_of_le hnone]
      rfl
  | succ fuel ih =>
      unfold visitDecodedLoop
      dsimp only [gather]
      have hnext : index * ((addressCells + sizeCells) * 4) + (addressCells + sizeCells) * 4
          = (index + 1) * ((addressCells + sizeCells) * 4) := (Nat.succ_mul _ _).symm
      rw [hnext]
      by_cases hin : (index + 1) * ((addressCells + sizeCells) * 4) ≤ reg.length
      · have hlt : index < reg.length / ((addressCells + sizeCells) * 4) :=
          (Nat.le_div_iff_mul_le hcells).mpr hin
        rw [if_pos hin, visitDecodedLoop_gather, ih (by omega), List.nil_append,
          show reg.length / ((addressCells + sizeCells) * 4) - index
            = reg.length / ((addressCells + sizeCells) * 4) - (index + 1) + 1 by omega,
          List.range'_succ, List.map_cons, List.singleton_append]
        have hsize : (addressCells + sizeCells) * 4 - addressCells * 4 = sizeCells * 4 := by omega
        have hentry : regEntry addressCells sizeCells reg index
            = { base := readCells ((reg.drop (index * ((addressCells + sizeCells) * 4))).take
                  (addressCells * 4)) addressCells
                size := readCells ((reg.drop (index * ((addressCells + sizeCells) * 4)
                  + addressCells * 4)).take (sizeCells * 4)) sizeCells } := by
          unfold regEntry
          dsimp only
          rw [List.drop_drop, readCells_eq, readCells_eq]
          · rw [List.length_take, List.length_drop]
            omega
          · rw [List.length_take, List.length_drop]
            omega
        rw [hsize, hentry]
      · have hge : reg.length / ((addressCells + sizeCells) * 4) ≤ index := by
          have hlt := (Nat.div_lt_iff_lt_mul hcells).mpr (Nat.lt_of_not_le hin)
          omega
        rw [if_neg hin, Nat.sub_eq_zero_of_le hge]
        rfl

/-- **`visit_decoded_regions` shows the ranges of the payload.** -/
theorem decodedRegions_eq (reg : Bytes) (addressCells sizeCells : Nat) :
    decodedRegions reg addressCells sizeCells = regRanges addressCells sizeCells reg := by
  unfold decodedRegions visitDecodedRegions regRanges
  by_cases hcells : (addressCells + sizeCells) * 4 = 0
  · rw [if_pos hcells, hcells, Nat.div_zero]
    rfl
  · have hentries := @visitDecodedLoop_entries reg addressCells sizeCells (Nat.pos_of_ne_zero hcells)
      (reg.length + 1) 0 (by omega)
    rw [Nat.zero_mul] at hentries
    rw [if_neg hcells, hentries, List.range_eq_range', Nat.sub_zero]

/-! ## §2. Ranges of a tree. -/

namespace Contents

/-- The first word of a property. -/
def word (contents : Contents) (name : Bytes) : Option Nat :=
  (contents.lookup name).bind (fun value => readBe32 value 0)

/-- A property up to its first NUL, if it is text. -/
def text (contents : Contents) (name : Bytes) : Option Bytes :=
  (contents.lookup name).bind (fun value =>
    (nulPosition value).bind (fun stop => fromUtf8 (value.take stop)))

/-- The ranges of a node: those of its `reg`. -/
def ranges (addressCells sizeCells : Nat) (contents : Contents) : List MemoryRegion :=
  match contents.lookup (ascii "reg") with
  | none     => []
  | some reg => regRanges addressCells sizeCells reg

/-- A node of RAM: by its name, unless its `device_type` says otherwise. -/
def isMemory (name : Bytes) (contents : Contents) : Bool :=
  isMemoryName name && !(contents.text (ascii "device_type")).any (· != ascii "memory")

/-- What the static reservation of a node is for. -/
def reservation (contents : Contents) : ReservedMemoryType :=
  if (contents.lookup (ascii "no-map")).isSome then .reserved else .bootServicesData

end Contents

namespace Tree

def addressCells (tree : Tree) : Nat := (tree.contents.word (ascii "#address-cells")).getD 2

def sizeCells (tree : Tree) : Nat := (tree.contents.word (ascii "#size-cells")).getD 1

/-- **The RAM of a tree.** -/
def memoryRanges (tree : Tree) : List MemoryRegion :=
  tree.contents.children.flatMap (fun child =>
    if child.2.isMemory child.1 then child.2.ranges tree.addressCells tree.sizeCells else [])

/-- The node with the static reservations, and its cells. -/
def reservedNode (tree : Tree) : Option Contents := tree.contents.child (ascii "reserved-memory")

/-- **The static reservations of a tree**, with their classification. -/
def staticRanges (tree : Tree) : List (MemoryRegion × ReservedMemoryType) :=
  match tree.reservedNode with
  | none => []
  | some reserved =>
      reserved.children.flatMap (fun child =>
        (child.2.ranges ((reserved.word (ascii "#address-cells")).getD tree.addressCells)
          ((reserved.word (ascii "#size-cells")).getD tree.sizeCells)).map
          (fun region => (region, child.2.reservation)))

/-- The reserve map, as regions. -/
def mappedRanges (tree : Tree) : List MemoryRegion :=
  tree.reserveMap.map (fun entry => { base := entry.address, size := entry.size })

end Tree

/-! ## §3. The readers at a place. -/

/-- `decode_regions` gives what the payload encodes, as much as there is room for. -/
theorem decodeRegions_eq (reg : Bytes) (addressCells sizeCells capacity : Nat) :
    decodeRegions reg addressCells sizeCells capacity
      = (regRanges addressCells sizeCells reg).take capacity := by
  unfold decodeRegions
  rw [visitDecodedRegions_eq, decodedRegions_eq, foldStop_take _ (Nat.zero_le _), List.nil_append]

section Readers

variable {fdt : Fdt} {site : Placement}

theorem Fdt.Places.getProperty (h : fdt.Places site) (name : Bytes) :
    fdt.getProperty site.fdtNode name = (site.contents fdt).lookup name :=
  NodeAt.getProperty_lookup h name

theorem Fdt.Places.getPropertyU32 (h : fdt.Places site) (name : Bytes) :
    fdt.getPropertyU32 site.fdtNode name = (site.contents fdt).word name := by
  unfold Fdt.getPropertyU32 Contents.word
  rw [h.getProperty]
  rfl

theorem Fdt.Places.getPropertyString (h : fdt.Places site) (name : Bytes) :
    fdt.getPropertyString site.fdtNode name = (site.contents fdt).text name := by
  unfold Fdt.getPropertyString Contents.text
  rw [h.getProperty]
  rfl

/-- The children that the reader finds. -/
theorem Fdt.Places.children_eq (h : fdt.Places site) :
    fdt.children site.fdtNode = site.children.map Placement.fdtNode := by
  unfold Fdt.children
  rw [h.forEachChild]
  have hgather : ∀ (nodes seen : List FdtNode), (foldStop gather nodes seen).2 = seen ++ nodes := by
    intro nodes
    induction nodes with
    | nil => exact fun seen => (List.append_nil seen).symm
    | cons node nodes ih =>
        intro seen
        show (foldStop gather nodes (seen ++ [node])).2 = _
        rw [ih, List.append_assoc]
        rfl
  exact hgather _ []

/-- Something collected from the children, on the tree. -/
theorem Fdt.Places.flatMap_children {ρ : Type} (h : fdt.Places site) (items : FdtNode → List ρ)
    (items' : Bytes × Contents → List ρ)
    (hitems : ∀ child, fdt.Places child → items child.fdtNode = items' (child.name, child.contents fdt)) :
    (fdt.children site.fdtNode).flatMap items = (site.contents fdt).children.flatMap items' := by
  have hmap : (site.contents fdt).children
      = site.children.map (fun child => (child.name, child.contents fdt)) :=
    (Items.placements_children fdt site.items _).symm
  rw [h.children_eq, hmap, List.flatMap_map, List.flatMap_map]
  apply List.flatMap_congr
  intro child hchild
  exact hitems child (h.child hchild)

/-- **`visit_memory_node`** fills the slice with the ranges of a node of RAM. -/
theorem Fdt.Places.visitMemoryNode_eq (h : fdt.Places site) (addressCells sizeCells capacity : Nat)
    (output : List MemoryRegion) :
    visitMemoryNode fdt addressCells sizeCells capacity site.fdtNode output
      = if output.length = capacity then (false, output)
        else (true, output ++ ((if (site.contents fdt).isMemory site.name then
          (site.contents fdt).ranges addressCells sizeCells else []).take
            (capacity - output.length))) := by
  unfold visitMemoryNode Contents.isMemory
  rw [h.getPropertyString, h.getProperty]
  have hname : site.fdtNode.name = site.name := rfl
  rw [hname]
  by_cases hfull : output.length = capacity
  · rw [if_pos hfull, if_pos hfull]
  rw [if_neg hfull, if_neg hfull]
  cases isMemoryName site.name with
  | false =>
      rw [if_pos (by decide), Bool.false_and, if_neg (by decide), List.take_nil, List.append_nil]
  | true =>
      rw [if_neg (by decide), Bool.true_and]
      cases ((site.contents fdt).text (ascii "device_type")).any (· != ascii "memory") with
      | true =>
          rw [if_pos rfl, if_neg (by decide), List.take_nil, List.append_nil]
      | false =>
          rw [if_neg (by decide), if_pos (by decide)]
          unfold Contents.ranges
          cases (site.contents fdt).lookup (ascii "reg") with
          | none => rw [List.take_nil, List.append_nil]
          | some reg =>
              dsimp only
              rw [decodeRegions_eq]

/-- The callback of `reserved_memory_regions` does so with the ranges of every node. -/
theorem Fdt.Places.visitReservedNode_eq (h : fdt.Places site) (addressCells sizeCells capacity : Nat)
    (output : List MemoryRegion) :
    visitReservedNode fdt addressCells sizeCells capacity site.fdtNode output
      = if output.length = capacity then (false, output)
        else (true, output ++ ((site.contents fdt).ranges addressCells sizeCells).take
          (capacity - output.length)) := by
  unfold visitReservedNode Contents.ranges
  rw [h.getProperty]
  by_cases hfull : output.length = capacity
  · rw [if_pos hfull, if_pos hfull]
  rw [if_neg hfull, if_neg hfull]
  cases (site.contents fdt).lookup (ascii "reg") with
  | none => rw [List.take_nil, List.append_nil]
  | some reg =>
      dsimp only
      rw [decodeRegions_eq]

/-- The cells of the root, as the reader and as the tree has them. -/
theorem Fdt.Places.rootCells_eq {tree : Tree} (h : fdt.Places site)
    (hcontents : site.contents fdt = tree.contents) :
    rootAddressCells fdt site.fdtNode = tree.addressCells
      ∧ rootSizeCells fdt site.fdtNode = tree.sizeCells := by
  unfold rootAddressCells rootSizeCells Tree.addressCells Tree.sizeCells
  rw [h.getPropertyU32, h.getPropertyU32, hcontents]
  exact ⟨rfl, rfl⟩

/-- The regions of a static reservation. -/
theorem Fdt.Places.staticNodeRegions_eq (h : fdt.Places site) (addressCells sizeCells : Nat) :
    staticNodeRegions fdt addressCells sizeCells site.fdtNode
      = ((site.contents fdt).ranges addressCells sizeCells).map
          (fun region => (region, (site.contents fdt).reservation)) := by
  unfold staticNodeRegions Contents.ranges Contents.reservation
  rw [h.getProperty, h.getProperty]
  cases (site.contents fdt).lookup (ascii "reg") with
  | none => rfl
  | some reg =>
      dsimp only
      rw [decodedRegions_eq]

end Readers

/-! ## §4. The readers on a blob. -/

/-- The tree's child of a name is the first of its children that has it. -/
theorem Contents.child_eq_find (contents : Contents) (name : Bytes) :
    contents.child name
      = (contents.children.find? (fun child => decide (child.1 = name))).map Prod.snd := by
  induction contents with
  | nil => rfl
  | prop n v rest ih => exact ih
  | node n c rest _ ih =>
      rw [child, children, List.find?_cons]
      by_cases hn : n = name
      · rw [if_pos hn, decide_eq_true hn]
        rfl
      · rw [if_neg hn, decide_eq_false hn]
        exact ih

section Blob

variable {fdt : Fdt} {tree : Tree} {root : FdtNode}

/-- The root that the reader finds is the root of the tree. -/
theorem Fdt.Parses.root_places {rootName : Bytes} {contents : Contents}
    (h : fdt.Parses rootName contents) (hroot : fdt.rootNode = some root) :
    ∃ site, fdt.Places site ∧ site.fdtNode = root ∧ site.contents fdt = contents := by
  obtain ⟨items, pad, lead, trail, htext, hpad, hvalid, hcontents, hblock⟩ := h
  cases lead with
  | succ lead =>
      -- the block starts with a no-op, which is no begin token
      have htoken : fdt.readToken 0 = some fdtNop := by
        rw [nops, List.append_assoc] at hblock
        exact Fdt.readToken_of_readsAt ⟨[], _, hblock, rfl⟩ (by decide)
      simp [Fdt.rootNode, Fdt.nodeAtOffset, htoken, fdtNop, fdtBeginNode] at hroot
  | zero =>
      have hat : fdt.NodeAt 0 rootName pad items := by
        refine ⟨rfl, htext, hpad, hvalid, [], nops trail ++ be32 fdtEnd, ?_, rfl⟩
        rw [hblock]
        simp only [nops, List.nil_append, List.append_assoc]
      refine ⟨⟨0, rootName, pad, items⟩, hat, ?_, hcontents⟩
      rw [Fdt.rootNode, hat.nodeAtOffset] at hroot
      exact Option.some.inj hroot

/-- **`memory_regions` is the RAM of the tree**, as much as the slice has room for. -/
theorem memoryRegions_eq (hparse : fdt.Parses tree.rootName tree.contents)
    (hroot : fdt.rootNode = some root) (capacity : Nat) :
    memoryRegions fdt capacity = tree.memoryRanges.take capacity := by
  obtain ⟨site, hplaces, rfl, hcontents⟩ := hparse.root_places hroot
  obtain ⟨haddress, hsize⟩ := hplaces.rootCells_eq hcontents
  have hchildren : tree.contents.children
      = site.children.map (fun child => (child.name, child.contents fdt)) := by
    rw [← hcontents]
    exact (Items.placements_children fdt site.items _).symm
  unfold memoryRegions Tree.memoryRanges
  rw [hroot]
  dsimp only
  rw [haddress, hsize, hplaces.forEachChild, foldStop_map,
    foldStop_congr (fun child hchild output => (hplaces.child hchild).visitMemoryNode_eq
      tree.addressCells tree.sizeCells capacity output),
    foldStop_fill _ _ (Nat.zero_le _), List.nil_append, hchildren, List.flatMap_map]

/-- The node with the static reservations, as the reader and as the tree finds it. -/
theorem findNode_reserved {site : Placement} (hplaces : fdt.Places site)
    (hroot : fdt.rootNode = some site.fdtNode) :
    (fdt.findNode (ascii "/reserved-memory") = none
        ∧ (site.contents fdt).child (ascii "reserved-memory") = none)
      ∨ ∃ reserved, fdt.findNode (ascii "/reserved-memory") = some reserved.fdtNode
        ∧ (site.contents fdt).child (ascii "reserved-memory") = some (reserved.contents fdt)
        ∧ fdt.Places reserved := by
  have hsplit : Fdt.splitPath (ascii "/reserved-memory") = [] :: [ascii "reserved-memory"] := by decide
  have hfind : fdt.findNode (ascii "/reserved-memory")
      = fdt.descend site.fdtNode [ascii "reserved-memory"] := by
    unfold Fdt.findNode
    rw [if_neg (by decide), hsplit, hroot]
    rfl
  have hchild : (site.contents fdt).child (ascii "reserved-memory")
      = (site.children.find? (fun child => decide (child.name = ascii "reserved-memory"))).map
          (fun child => child.contents fdt) := by
    have hchildren : (site.contents fdt).children
        = site.children.map (fun child => (child.name, child.contents fdt)) :=
      (Items.placements_children fdt site.items _).symm
    rw [Contents.child_eq_find, hchildren, List.find?_map, Option.map_map]
    rfl
  rw [hfind, hchild, Fdt.descend, if_neg (by decide), hplaces.findChild]
  cases hfirst : site.children.find? (fun child => decide (child.name = ascii "reserved-memory")) with
  | none => exact .inl ⟨rfl, rfl⟩
  | some reserved =>
      exact .inr ⟨reserved, rfl, rfl, hplaces.child (List.mem_of_find?_eq_some hfirst)⟩

/-- **`for_each_static_reserved_memory_region` shows the static reservations of the tree.** -/
theorem staticRegions_eq (hparse : fdt.Parses tree.rootName tree.contents)
    (hroot : fdt.rootNode = some root) : staticRegions fdt = tree.staticRanges := by
  obtain ⟨site, hplaces, rfl, hcontents⟩ := hparse.root_places hroot
  unfold staticRegions Tree.staticRanges Tree.reservedNode
  rw [hroot, ← hcontents]
  rcases findNode_reserved hplaces hroot with ⟨hfind, hchild⟩ | ⟨reserved, hfind, hchild, hreserved⟩
  · rw [hfind, hchild]
  · rw [hfind, hchild]
    dsimp only
    obtain ⟨haddress, hsize⟩ := hplaces.rootCells_eq hcontents
    rw [hreserved.getPropertyU32, hreserved.getPropertyU32, haddress, hsize]
    exact hreserved.flatMap_children _ _ (fun child hchild => hchild.staticNodeRegions_eq _ _)

/-- **`reserve_map_regions` is the reserve map of the tree.** -/
theorem reserveMapRegions_eq (hmap : fdt.ReserveMap tree.reserveMap) (capacity : Nat) :
    reserveMapRegions fdt capacity = tree.mappedRanges.take capacity := by
  have hloop : ∀ (room count : Nat), count ≤ tree.reserveMap.length →
      reserveMapLoop fdt room count
        = ((tree.reserveMap.drop count).map
            (fun entry => { base := entry.address, size := entry.size : MemoryRegion })).take room := by
    intro room
    induction room with
    | zero => exact fun count _ => rfl
    | succ room ih =>
        intro count hcount
        unfold reserveMapLoop
        rcases Nat.lt_or_ge count tree.reserveMap.length with hlt | hge
        · have hentry := hmap.1 count _ (List.getElem?_eq_getElem hlt)
          rw [hentry, List.drop_eq_getElem_cons hlt, List.map_cons, List.take_succ_cons]
          dsimp only
          rw [ih (count + 1) hlt]
        · obtain rfl : count = tree.reserveMap.length := Nat.le_antisymm hcount hge
          rw [hmap.2, List.drop_length]
          rfl
  have h := hloop capacity 0 (Nat.zero_le _)
  rw [List.drop_zero] at h
  exact h

/-- `reserved_memory_regions` drops the classification. -/
theorem reservedMemoryRegions_eq {site : Placement} (hplaces : fdt.Places site)
    (hroot : fdt.rootNode = some site.fdtNode) (hcontents : site.contents fdt = tree.contents)
    (capacity : Nat) :
    reservedMemoryRegions fdt tree.addressCells tree.sizeCells capacity
      = (tree.staticRanges.map Prod.fst).take capacity := by
  unfold reservedMemoryRegions Tree.staticRanges Tree.reservedNode
  rw [← hcontents]
  rcases findNode_reserved hplaces hroot with ⟨hfind, hchild⟩ | ⟨reserved, hfind, hchild, hreserved⟩
  · rw [hfind, hchild, List.map_nil, List.take_nil]
  · rw [hfind, hchild]
    dsimp only
    have hchildren : (reserved.contents fdt).children
        = reserved.children.map (fun child => (child.name, child.contents fdt)) :=
      (Items.placements_children fdt reserved.items _).symm
    rw [hreserved.getPropertyU32, hreserved.getPropertyU32, hreserved.forEachChild, foldStop_map,
      foldStop_congr (fun child hchild output => (hreserved.child hchild).visitReservedNode_eq
        _ _ capacity output),
      foldStop_fill _ _ (Nat.zero_le _), List.nil_append, hchildren, List.flatMap_map,
      List.map_flatMap]
    -- the classification is put on each region, and taken off again
    congr 1
    apply List.flatMap_congr
    intro child _
    rw [List.map_map]
    exact (List.map_id _).symm

/-- `reserved_regions`: the reserve map, then the static reservations. -/
theorem reservedRegions_eq (hmap : fdt.ReserveMap tree.reserveMap)
    (hparse : fdt.Parses tree.rootName tree.contents) (hroot : fdt.rootNode = some root)
    (capacity : Nat) :
    reservedRegions fdt capacity
      = (tree.mappedRanges ++ tree.staticRanges.map Prod.fst).take capacity := by
  obtain ⟨site, hplaces, rfl, hcontents⟩ := hparse.root_places hroot
  obtain ⟨haddress, hsize⟩ := hplaces.rootCells_eq hcontents
  unfold reservedRegions
  rw [hroot]
  dsimp only
  rw [haddress, hsize, reserveMapRegions_eq hmap]
  rcases Nat.lt_or_ge tree.mappedRanges.length capacity with hroom | hfull
  · rw [List.take_of_length_le (Nat.le_of_lt hroom), if_pos hroom,
      reservedMemoryRegions_eq hplaces hroot hcontents, List.take_append,
      List.take_of_length_le (Nat.le_of_lt hroom)]
  · -- the reserve map alone fills the slice
    rw [if_neg (by rw [List.length_take]; omega), List.take_append_of_le_length hfull]

/-- **The readers give the memory of the tree.**  On every encoding of a tree whose root they
    find, `memory_regions`, `reserve_map_regions` and `reserved_regions` collect its RAM, its
    reserve map and its reservations in tree order, each as much as the slice has room for,
    and the walk over `/reserved-memory` shows its callback every static reservation with its
    classification. -/
theorem readers_give_memory {d : Dtb} (hdec : d.Decodes tree) (hview : d.fdtView = .ok fdt)
    (hroot : fdt.rootNode = some root) (capacity : Nat) :
    memoryRegions fdt capacity = tree.memoryRanges.take capacity
      ∧ reserveMapRegions fdt capacity = tree.mappedRanges.take capacity
      ∧ reservedRegions fdt capacity
        = (tree.mappedRanges ++ tree.staticRanges.map Prod.fst).take capacity
      ∧ ∀ (σ : Type) (visit : MemoryRegion → ReservedMemoryType → σ → Bool × σ) (acc : σ),
        forEachStaticReservedMemoryRegion fdt visit acc
          = (foldStop (fun r acc => visit r.1 r.2 acc) tree.staticRanges acc).2 := by
  obtain ⟨fdt', hview', hmap, hparse⟩ := hdec.view
  obtain rfl : fdt = fdt' := Except.ok.inj (hview.symm.trans hview')
  refine ⟨memoryRegions_eq hparse hroot capacity, reserveMapRegions_eq hmap capacity,
    reservedRegions_eq hmap hparse hroot capacity, ?_⟩
  intro σ visit acc
  rw [forEachStaticReservedMemoryRegion_eq, staticRegions_eq hparse hroot]

end Blob

/-! ## §5. Edits elsewhere. -/

namespace Contents

/-- **The same but for what is below the children called `name`**, and how many there are. -/
structure SameBut (name : Bytes) (before after : Contents) : Prop where
  lookup : ∀ property, after.lookup property = before.lookup property
  others : after.children.filter (fun child => decide (child.1 ≠ name))
    = before.children.filter (fun child => decide (child.1 ≠ name))

theorem SameBut.refl (name : Bytes) (contents : Contents) : contents.SameBut name contents :=
  ⟨fun _ => rfl, rfl⟩

variable {name : Bytes} {contents before after : Contents}

theorem SameBut.trans {last : Contents} (h : before.SameBut name after) (h' : after.SameBut name last) :
    before.SameBut name last :=
  ⟨fun property => (h'.lookup property).trans (h.lookup property), h'.others.trans h.others⟩

/-- A property in front of both. -/
theorem SameBut.prop (h : before.SameBut name after) (n : Option Bytes) (v : Bytes) :
    (prop n v before).SameBut name (prop n v after) := by
  refine ⟨fun property => ?_, h.others⟩
  cases n with
  | none => rfl
  | some n =>
      rw [Contents.lookup, Contents.lookup, h.lookup]

/-- A child in front of both. -/
theorem SameBut.node (h : before.SameBut name after) (n : Bytes) (c : Contents) :
    (node n c before).SameBut name (node n c after) := by
  refine ⟨fun _ => rfl, ?_⟩
  rw [children, children, List.filter_cons, List.filter_cons, h.others]

/-- Edits inside the child. -/
theorem sameBut_onChild (name : Bytes) (edit : Contents → Contents) (contents : Contents) :
    contents.SameBut name (contents.onChild name edit) := by
  induction contents with
  | nil => exact SameBut.refl name nil
  | prop n v rest ih => exact ih.prop n v
  | node n c rest _ ih =>
      rw [onChild]
      split_ifs with hn
      · refine ⟨fun _ => rfl, ?_⟩
        have hskip : decide (n ≠ name) = false := decide_eq_false (fun hne => hne hn)
        rw [children, children, List.filter_cons, List.filter_cons, hskip]
        rfl
      · exact ih.node n c

/-- A new child of that name. -/
theorem sameBut_addLast (name : Bytes) (c contents : Contents) :
    contents.SameBut name (contents.addLast name c) := by
  induction contents with
  | nil =>
      refine ⟨fun _ => rfl, ?_⟩
      have hskip : decide (name ≠ name) = false := decide_eq_false (fun hne => hne rfl)
      show List.filter _ [(name, c)] = _
      rw [List.filter_cons, hskip]
      rfl
  | prop n v rest ih => exact ih.prop n v
  | node n c' rest _ ih => exact ih.node n c'

theorem sameBut_addMissing (name : Bytes) (path : List Bytes) (contents : Contents) :
    contents.SameBut name (contents.addMissing (name :: path)) := by
  rw [addMissing]
  cases contents.child name with
  | none => exact sameBut_addLast name _ contents
  | some c => exact sameBut_onChild name _ contents

/-- What is collected from the other children. -/
theorem SameBut.flatMap {ρ : Type} (h : before.SameBut name after) (items : Bytes × Contents → List ρ)
    (hitems : ∀ c, items (name, c) = []) :
    after.children.flatMap items = before.children.flatMap items := by
  have hothers : ∀ children : List (Bytes × Contents), children.flatMap items
      = (children.filter (fun child => decide (child.1 ≠ name))).flatMap items := by
    intro children
    induction children with
    | nil => rfl
    | cons child children ih =>
        rw [List.flatMap_cons, List.filter_cons, ih]
        by_cases hname : child.1 = name
        · have hnone : items child = [] := by
            rw [show child = (name, child.2) from Prod.ext hname rfl]
            exact hitems child.2
          rw [hnone, decide_eq_false (fun hne => hne hname)]
          rfl
        · rw [decide_eq_true hname]
          rfl
  rw [hothers, h.others, ← hothers]

/-- Another child. -/
theorem SameBut.child (h : before.SameBut name after) {other : Bytes} (hother : other ≠ name) :
    after.child other = before.child other := by
  have hfind : ∀ children : List (Bytes × Contents),
      children.find? (fun child => decide (child.1 = other))
        = (children.filter (fun child => decide (child.1 ≠ name))).find?
            (fun child => decide (child.1 = other)) := by
    intro children
    rw [List.find?_filter]
    congr 1
    funext child
    by_cases hname : child.1 = other
    · simp [hname, hother]
    · simp [hname]
  rw [child_eq_find, child_eq_find, hfind, h.others, ← hfind]

end Contents

/-- **Trees that are the same but for the subtrees called `name`.** -/
structure Tree.SameBut (name : Bytes) (before after : Tree) : Prop where
  reserveMap : after.reserveMap = before.reserveMap
  contents   : before.contents.SameBut name after.contents

namespace Tree

variable {name : Bytes} {before after : Tree}

theorem SameBut.trans {last : Tree} (h : before.SameBut name after) (h' : after.SameBut name last) :
    before.SameBut name last :=
  ⟨h'.reserveMap.trans h.reserveMap, h.contents.trans h'.contents⟩

theorem sameBut_setProperty (tree : Tree) (component : Bytes) (path : List Bytes) (name value : Bytes) :
    tree.SameBut component (tree.setProperty (component :: path) name value) :=
  ⟨rfl, Contents.sameBut_onChild component _ _⟩

theorem sameBut_addMissing (tree : Tree) (component : Bytes) (path : List Bytes) :
    tree.SameBut component (tree.addMissing (component :: path)) :=
  ⟨rfl, Contents.sameBut_addMissing component path _⟩

/-- **Edits below other nodes leave the memory of a tree as it is.** -/
theorem SameBut.memory (h : before.SameBut name after) (hmemory : isMemoryName name = false)
    (hreserved : name ≠ ascii "reserved-memory") :
    after.memoryRanges = before.memoryRanges ∧ after.mappedRanges = before.mappedRanges
      ∧ after.staticRanges = before.staticRanges := by
  have hword : ∀ property, after.contents.word property = before.contents.word property := by
    intro property
    unfold Contents.word
    rw [h.contents.lookup]
  have haddress : after.addressCells = before.addressCells := by
    unfold addressCells
    rw [hword]
  have hsize : after.sizeCells = before.sizeCells := by
    unfold sizeCells
    rw [hword]
  refine ⟨?_, ?_, ?_⟩
  · unfold memoryRanges
    rw [haddress, hsize]
    refine h.contents.flatMap _ (fun c => ?_)
    unfold Contents.isMemory
    rw [hmemory, Bool.false_and]
    rfl
  · unfold mappedRanges
    rw [h.reserveMap]
  · unfold staticRanges reservedNode
    rw [h.contents.child hreserved.symm, haddress, hsize]

end Tree

/-! ## §6. A tree with everything in it. -/

/-- RAM, and in `/reserved-memory` a range that is not to be mapped and one that may be. -/
def carvedItems : Items :=
  Items.child (ascii "memory")
    (Items.property 0 (be32 0 ++ be32 0x80000000 ++ be32 0x10000) .nil)
  (Items.child (ascii "reserved-memory")
    (Items.child (ascii "secure")
      (Items.property 0 (be32 0 ++ be32 0x80004000 ++ be32 0x1000) (Items.property 4 [] .nil))
    (Items.child (ascii "plain")
      (Items.property 0 (be32 0 ++ be32 0x80005000 ++ be32 0x1000) .nil) .nil)) .nil)

/-- One entry in the reserve map. -/
def carvedImage : Image where
  offMemRsvmap    := 40
  version         := 17
  lastCompVersion := 16
  bootCpuid       := 0
  reserved        := be64 0x80006000 ++ be64 0x1000 ++ List.replicate 16 0
  structureBlock  := nops 0 ++ (nodeHead [] [0, 0, 0] ++ (carvedItems.flat
    ++ (be32 fdtEndNode ++ (nops 0 ++ be32 fdtEnd))))
  gap             := []
  strings         := ascii "reg" ++ [0] ++ ascii "no-map" ++ [0]
  free            := []

def carvedDtb : Dtb where
  pointer := 0x80008000
  blob    := carvedImage.bytes
  size    := carvedImage.totalSize

def carvedTree : Tree where
  reserveMap := [{ address := 0x80006000, size := 0x1000 }]
  rootName   := []
  contents   :=
    .node (ascii "memory")
      (.prop (some (ascii "reg")) (be32 0 ++ be32 0x80000000 ++ be32 0x10000) .nil)
    (.node (ascii "reserved-memory")
      (.node (ascii "secure")
        (.prop (some (ascii "reg")) (be32 0 ++ be32 0x80004000 ++ be32 0x1000)
          (.prop (some (ascii "no-map")) [] .nil))
      (.node (ascii "plain")
        (.prop (some (ascii "reg")) (be32 0 ++ be32 0x80005000 ++ be32 0x1000) .nil) .nil)) .nil)

theorem carvedDtb_shows : carvedDtb.Shows carvedImage :=
  ⟨rfl, rfl, by decide +kernel, by decide +kernel⟩

theorem carvedDtb_decodes : carvedDtb.Decodes carvedTree := by
  have hmap : (carvedImage.fdt 0x80008000).ReserveMap [{ address := 0x80006000, size := 0x1000 }] := by
    refine ⟨?_, by decide +kernel⟩
    intro index entry h
    cases index with
    | zero =>
        cases h
        decide +kernel
    | succ index => simp at h
  have hh : carvedImage.Holds 0x80008000 carvedTree carvedItems [0, 0, 0] 0 0 :=
    ⟨by decide, hmap, by decide, by decide, by decide +kernel, by decide +kernel, rfl⟩
  exact hh.decodes carvedDtb_shows

theorem readers_give_memory_example :
    memoryRegions (carvedImage.fdt 0x80008000) 8 = [⟨0x80000000, 0x10000⟩]
      ∧ reservedRegions (carvedImage.fdt 0x80008000) 2 = [⟨0x80006000, 0x1000⟩, ⟨0x80004000, 0x1000⟩]
      ∧ forEachStaticReservedMemoryRegion (carvedImage.fdt 0x80008000)
          (fun region memoryType shown => (true, shown ++ [(region, memoryType)])) []
        = [(⟨0x80004000, 0x1000⟩, .reserved), (⟨0x80005000, 0x1000⟩, .bootServicesData)] := by
  have hroot : ((carvedImage.fdt 0x80008000).rootNode).isSome = true := by decide +kernel
  obtain ⟨root, hroot⟩ := Option.isSome_iff_exists.mp hroot
  obtain ⟨hmemory, -, -, hstatic⟩ := readers_give_memory carvedDtb_decodes carvedDtb_shows.fdtView hroot 8
  obtain ⟨-, -, hreserved, -⟩ := readers_give_memory carvedDtb_decodes carvedDtb_shows.fdtView hroot 2
  refine ⟨?_, ?_, ?_⟩
  · exact hmemory.trans (by decide +kernel)
  · exact hreserved.trans (by decide +kernel)
  · exact (hstatic _ _ _).trans (by decide +kernel)

end RustFirmware.DeviceTree
