/-
  RustFirmware.DeviceTree.Checked
  ───────────────────────────────
  **THE READER TERMINATES AND NEVER PANICS, WHATEVER THE BLOCKS HOLD.**

  The functions of `src/dtb_read.rs` and `src/dtb_memory.rs` once more, with
  every plain `usize` operation and every slice index as an operation that can
  fail, and with every loop given a number of passes.  For a blob that
  `from_ptr` accepts none of them fails, as soon as the loops may make more
  passes than the blob has bytes, and each returns what the pure model returns.

  The bound behind it is always the same: a token that has been read lies
  inside the structure block, which is shorter than `2 ^ 32` bytes, and a loop
  moves on by four bytes or more from a token it has read.
-/
import RustFirmware.Lib.Checked
import RustFirmware.DeviceTree.Layout
import RustFirmware.DeviceTree.Memory

namespace RustFirmware.DeviceTree

open RustFirmware.Lib
open RustFirmware.Memory (MemoryRegion)

namespace Checked

/-! ## §1. Words, strings and records. -/

/-- `read_be_u32_from_slice`. -/
def readBeU32FromSlice (bytes : Bytes) (offset : Nat) : Checked (Option Nat) := do
  let stop ← addWord 64 offset 4
  let some word := slice? bytes offset stop | return none
  let b0 ← index word 0
  let b1 ← index word 1
  let b2 ← index word 2
  let b3 ← index word 3
  return some (beNat [b0, b1, b2, b3])

/-- `read_be_u64_from_slice`. -/
def readBeU64FromSlice (bytes : Bytes) (offset : Nat) : Checked (Option Nat) := do
  let stop ← addWord 64 offset 8
  let some word := slice? bytes offset stop | return none
  let b0 ← index word 0
  let b1 ← index word 1
  let b2 ← index word 2
  let b3 ← index word 3
  let b4 ← index word 4
  let b5 ← index word 5
  let b6 ← index word 6
  let b7 ← index word 7
  return some (beNat [b0, b1, b2, b3, b4, b5, b6, b7])

def align4 (value : Nat) : Checked Nat := do
  let raised ← addWord 64 value 3
  return raised / 4 * 4

def readToken (fdt : Fdt) (offset : Nat) : Checked (Option Nat) :=
  readBeU32FromSlice fdt.structureBlock offset

def stringAt (fdt : Fdt) (offset : Nat) : Checked (Option Bytes) := do
  let some bytes := slice? fdt.strings offset fdt.strings.length | return none
  let some stop := nulPosition bytes | return none
  let text ← indexRange bytes 0 stop
  return fromUtf8 text

def readCString (bytes : Bytes) (offset : Nat) : Checked (Option (Bytes × Nat)) := do
  let some rest := slice? bytes offset bytes.length | return none
  let some stop := nulPosition rest | return none
  let text ← indexRange rest 0 stop
  let some name := fromUtf8 text | return none
  let nulOffset ← addWord 64 offset stop
  let next ← addWord 64 nulOffset 1
  return some (name, next)

def afterBeginNode (fdt : Fdt) (beginOffset : Nat) : Checked (Option Nat) := do
  let some token ← readToken fdt beginOffset | return none
  if token ≠ fdtBeginNode then return none
  else
    let some nameOffset := checkedAdd 64 beginOffset 4 | return none
    let some (_, nextOffset) ← readCString fdt.structureBlock nameOffset | return none
    let aligned ← align4 nextOffset
    return some aligned

def afterProperty (fdt : Fdt) (propertyOffset : Nat) : Checked (Option Nat) := do
  let lengthOffset ← addWord 64 propertyOffset 4
  let some length ← readToken fdt lengthOffset | return none
  let some valueOffset := checkedAdd 64 propertyOffset 12 | return none
  let some valueEnd := checkedAdd 64 valueOffset length | return none
  let some _ := slice? fdt.structureBlock valueOffset valueEnd | return none
  let aligned ← align4 valueEnd
  return some aligned

/-! ## §2. Nodes, children and paths. -/

/-- The loop of `node_end_offset`. -/
def nodeEndLoop (fdt : Fdt) : (fuel : Nat) → (offset depth : Nat) → Checked (Option Nat)
  | 0, _, _ => .error .outOfFuel
  | fuel + 1, offset, depth => do
      let some token ← readToken fdt offset | return none
      if token = fdtBeginNode then
        let some deeper := checkedAdd 64 depth 1 | return none
        let some next ← afterBeginNode fdt offset | return none
        nodeEndLoop fdt fuel next deeper
      else if token = fdtEndNode then
        let some higher := checkedSub depth 1 | return none
        if higher = 0 then return some offset
        else
          let some next := checkedAdd 64 offset 4 | return none
          nodeEndLoop fdt fuel next higher
      else if token = fdtProp then
        let some next ← afterProperty fdt offset | return none
        nodeEndLoop fdt fuel next depth
      else if token = fdtNop then
        let some next := checkedAdd 64 offset 4 | return none
        nodeEndLoop fdt fuel next depth
      else return none

def nodeAtOffset (fdt : Fdt) (fuel offset : Nat) : Checked (Option FdtNode) := do
  let some token ← readToken fdt offset | return none
  if token ≠ fdtBeginNode then return none
  else
    let some nameOffset := checkedAdd 64 offset 4 | return none
    let some (name, _) ← readCString fdt.structureBlock nameOffset | return none
    let some endOffset ← nodeEndLoop fdt fuel offset 0 | return none
    return some { name := name, beginOffset := offset, endOffset := endOffset }

def rootNode (fdt : Fdt) (fuel : Nat) : Checked (Option FdtNode) := nodeAtOffset fdt fuel 0

section Visit

variable {σ : Type}

/-- The loop of `for_each_child`; the callback may panic too. -/
def forEachChildLoop (fdt : Fdt) (bound parentEnd : Nat)
    (visit : FdtNode → σ → Checked (Bool × σ)) :
    (fuel : Nat) → (offset : Nat) → σ → Checked σ
  | 0, _, _ => .error .outOfFuel
  | fuel + 1, offset, acc =>
      if offset < parentEnd then do
        let some token ← readToken fdt offset | return acc
        if token = fdtProp then
          let some next ← afterProperty fdt offset | return acc
          forEachChildLoop fdt bound parentEnd visit fuel next acc
        else if token = fdtNop then
          let next ← addWord 64 offset 4
          forEachChildLoop fdt bound parentEnd visit fuel next acc
        else if token = fdtBeginNode then
          let some child ← nodeAtOffset fdt bound offset | return acc
          match ← visit child acc with
          | (false, acc) => return acc
          | (true, acc)  =>
              let some next := checkedAdd 64 child.endOffset 4 | return acc
              forEachChildLoop fdt bound parentEnd visit fuel next acc
        else return acc
      else return acc

def forEachChild (fdt : Fdt) (fuel : Nat) (parent : FdtNode)
    (visit : FdtNode → σ → Checked (Bool × σ)) (acc : σ) : Checked σ := do
  let some offset ← afterBeginNode fdt parent.beginOffset | return acc
  forEachChildLoop fdt fuel parent.endOffset visit fuel offset acc

end Visit

def findChild (fdt : Fdt) (fuel : Nat) (parent : FdtNode) (name : Bytes) :
    Checked (Option FdtNode) :=
  forEachChild fdt fuel parent
    (fun child result =>
      if child.name = name then return (false, some child) else return (true, result)) none

def descend (fdt : Fdt) (fuel : Nat) : FdtNode → List Bytes → Checked (Option FdtNode)
  | node, [] => return some node
  | node, component :: components =>
      if component = [] then return none
      else do
        let some child ← findChild fdt fuel node component | return none
        descend fdt fuel child components

def findNode (fdt : Fdt) (fuel : Nat) (path : Bytes) : Checked (Option FdtNode) :=
  if path = ascii "/" then rootNode fdt fuel
  else
    match Fdt.splitPath path with
    | [] => return none
    | first :: components =>
        if first ≠ [] then return none
        else do
          let some root ← rootNode fdt fuel | return none
          descend fdt fuel root components

/-! ## §3. Properties and the reserve map. -/

/-- The loop of `get_property`. -/
def getPropertyLoop (fdt : Fdt) (nodeEnd : Nat) (propertyName : Bytes) :
    (fuel : Nat) → (offset : Nat) → Checked (Option Bytes)
  | 0, _ => .error .outOfFuel
  | fuel + 1, offset =>
      if offset < nodeEnd then do
        let some token ← readToken fdt offset | return none
        if token = fdtProp then
          let lengthOffset ← addWord 64 offset 4
          let some valueLength ← readToken fdt lengthOffset | return none
          let nameField ← addWord 64 offset 8
          let some nameOffset ← readToken fdt nameField | return none
          let valueOffset ← addWord 64 offset 12
          let some valueEnd := checkedAdd 64 valueOffset valueLength | return none
          let some name ← stringAt fdt nameOffset | return none
          if name = propertyName then return slice? fdt.structureBlock valueOffset valueEnd
          else
            let next ← align4 valueEnd
            getPropertyLoop fdt nodeEnd propertyName fuel next
        else if token = fdtNop then
          let next ← addWord 64 offset 4
          getPropertyLoop fdt nodeEnd propertyName fuel next
        else return none
      else return none

def getProperty (fdt : Fdt) (fuel : Nat) (node : FdtNode) (propertyName : Bytes) :
    Checked (Option Bytes) := do
  let some offset ← afterBeginNode fdt node.beginOffset | return none
  getPropertyLoop fdt node.endOffset propertyName fuel offset

def getPropertyU32 (fdt : Fdt) (fuel : Nat) (node : FdtNode) (propertyName : Bytes) :
    Checked (Option Nat) := do
  let some property ← getProperty fdt fuel node propertyName | return none
  readBeU32FromSlice property 0

def getPropertyString (fdt : Fdt) (fuel : Nat) (node : FdtNode) (propertyName : Bytes) :
    Checked (Option Bytes) := do
  let some property ← getProperty fdt fuel node propertyName | return none
  let some stop := nulPosition property | return none
  let text ← indexRange property 0 stop
  return fromUtf8 text

def reserveEntry (fdt : Fdt) (index : Nat) : Checked (Option FdtReserveEntry) := do
  let some offset := checkedMul 64 index 16 | return none
  let some address ← readBeU64FromSlice fdt.reserveMap offset | return none
  let sizeOffset ← addWord 64 offset 8
  let some size ← readBeU64FromSlice fdt.reserveMap sizeOffset | return none
  if address = 0 ∧ size = 0 then return none
  else return some { address := address, size := size }

/-! ## §4. `reg` properties. -/

/-- The loop of `read_cells`: the cells from `index` on. -/
def readCellsLoop (bytes : Bytes) (value : Nat) : (index : Nat) → (cells : Nat) → Checked Nat
  | _, 0 => return value
  | index, cells + 1 => do
      let offset ← mulWord 64 index 4
      let cell ← readBeU32FromSlice bytes offset
      let next ← addWord 64 index 1
      readCellsLoop bytes ((value <<< 32) % 2 ^ 64 ||| cell.getD 0) next cells

def readCells (bytes : Bytes) (cells : Nat) : Checked Nat := readCellsLoop bytes 0 0 cells

section Visit

variable {σ : Type}

/-- The loop of `visit_decoded_regions`. -/
def visitDecodedLoop (reg : Bytes) (addressCells sizeCells stride : Nat)
    (visit : MemoryRegion → σ → Checked (Bool × σ)) :
    (fuel : Nat) → (index : Nat) → σ → Checked (Bool × σ)
  | 0, _, _ => .error .outOfFuel
  | fuel + 1, index, acc => do
      let stop ← addWord 64 index stride
      if stop ≤ reg.length then
        let addressBytes ← mulWord 64 addressCells 4
        let addressEnd ← addWord 64 index addressBytes
        let address ← indexRange reg index addressEnd
        let base ← readCells address addressCells
        let sizeCell ← indexRange reg addressEnd stop
        let size ← readCells sizeCell sizeCells
        match ← visit { base := base, size := size } acc with
        | (false, acc) => return (false, acc)
        | (true, acc)  =>
            let next ← addWord 64 index stride
            visitDecodedLoop reg addressCells sizeCells stride visit fuel next acc
      else return (true, acc)

def visitDecodedRegions (fuel : Nat) (reg : Bytes) (addressCells sizeCells : Nat)
    (visit : MemoryRegion → σ → Checked (Bool × σ)) (acc : σ) : Checked (Bool × σ) := do
  let cells ← addWord 64 addressCells sizeCells
  let stride ← mulWord 64 cells 4
  if stride = 0 then return (true, acc)
  else visitDecodedLoop reg addressCells sizeCells stride visit fuel 0 acc

end Visit

/-- The callback of `decode_regions`: `output` stands for the slots filled so far. -/
def storeRegion (capacity : Nat) (region : MemoryRegion) (output : List MemoryRegion) :
    Checked (Bool × List MemoryRegion) :=
  if output.length = capacity then return (false, output)
  else do
    indexSlot capacity output.length
    let _ ← addWord 64 output.length 1
    return (true, output ++ [region])

def decodeRegions (fuel : Nat) (reg : Bytes) (addressCells sizeCells capacity : Nat) :
    Checked (List MemoryRegion) := do
  let (_, output) ← visitDecodedRegions fuel reg addressCells sizeCells (storeRegion capacity) []
  return output

/-! ## §5. The memory queries. -/

/-- The callback of `memory_regions`. -/
def visitMemoryNode (fdt : Fdt) (fuel addressCells sizeCells capacity : Nat) (node : FdtNode)
    (output : List MemoryRegion) : Checked (Bool × List MemoryRegion) :=
  if output.length = capacity then return (false, output)
  else if ¬ isMemoryName node.name then return (true, output)
  else do
    let deviceType ← getPropertyString fdt fuel node (ascii "device_type")
    if deviceType.any (· != ascii "memory") then return (true, output)
    else
      let some reg ← getProperty fdt fuel node (ascii "reg") | return (true, output)
      let room ← indexFrom capacity output.length
      let regions ← decodeRegions fuel reg addressCells sizeCells room
      let _ ← addWord 64 output.length regions.length
      return (true, output ++ regions)

def memoryRegions (fdt : Fdt) (fuel capacity : Nat) : Checked (List MemoryRegion) := do
  let some root ← rootNode fdt fuel | return []
  let addressCells ← getPropertyU32 fdt fuel root (ascii "#address-cells")
  let sizeCells ← getPropertyU32 fdt fuel root (ascii "#size-cells")
  forEachChild fdt fuel root
    (visitMemoryNode fdt fuel (addressCells.getD 2) (sizeCells.getD 1) capacity) []

/-- The loop of `reserve_map_regions`: the entry is read before the slice is
    found to be full. -/
def reserveMapLoop (fdt : Fdt) (capacity : Nat) :
    (fuel : Nat) → List MemoryRegion → Checked (List MemoryRegion)
  | 0, _ => .error .outOfFuel
  | fuel + 1, output => do
      let some entry ← reserveEntry fdt output.length | return output
      if output.length = capacity then return output
      else
        indexSlot capacity output.length
        let _ ← addWord 64 output.length 1
        reserveMapLoop fdt capacity fuel
          (output ++ [{ base := entry.address, size := entry.size }])

def reserveMapRegions (fdt : Fdt) (fuel capacity : Nat) : Checked (List MemoryRegion) :=
  reserveMapLoop fdt capacity fuel []

/-- The callback of `reserved_memory_regions`. -/
def visitReservedNode (fdt : Fdt) (fuel addressCells sizeCells capacity : Nat) (node : FdtNode)
    (output : List MemoryRegion) : Checked (Bool × List MemoryRegion) :=
  if output.length = capacity then return (false, output)
  else do
    let some reg ← getProperty fdt fuel node (ascii "reg") | return (true, output)
    let room ← indexFrom capacity output.length
    let regions ← decodeRegions fuel reg addressCells sizeCells room
    let _ ← addWord 64 output.length regions.length
    return (true, output ++ regions)

def reservedMemoryRegions (fdt : Fdt) (fuel rootAddressCells rootSizeCells capacity : Nat) :
    Checked (List MemoryRegion) := do
  let some reservedNode ← findNode fdt fuel (ascii "/reserved-memory") | return []
  let addressCells ← getPropertyU32 fdt fuel reservedNode (ascii "#address-cells")
  let sizeCells ← getPropertyU32 fdt fuel reservedNode (ascii "#size-cells")
  forEachChild fdt fuel reservedNode
    (visitReservedNode fdt fuel (addressCells.getD rootAddressCells)
      (sizeCells.getD rootSizeCells) capacity) []

def reservedRegions (fdt : Fdt) (fuel capacity : Nat) : Checked (List MemoryRegion) := do
  let some root ← rootNode fdt fuel | return []
  let addressCells ← getPropertyU32 fdt fuel root (ascii "#address-cells")
  let sizeCells ← getPropertyU32 fdt fuel root (ascii "#size-cells")
  let mapped ← reserveMapRegions fdt fuel capacity
  if mapped.length < capacity then
    let room ← indexFrom capacity mapped.length
    let regions ← reservedMemoryRegions fdt fuel (addressCells.getD 2) (sizeCells.getD 1) room
    let _ ← addWord 64 mapped.length regions.length
    return mapped ++ regions
  else return mapped

section Static

variable {σ : Type}

/-- The callback `for_each_static_reserved_memory_region` gives to `for_each_child`. -/
def visitStaticNode (fdt : Fdt) (fuel addressCells sizeCells : Nat)
    (visit : MemoryRegion → ReservedMemoryType → σ → Checked (Bool × σ)) (node : FdtNode)
    (acc : σ) : Checked (Bool × σ) := do
  let some reg ← getProperty fdt fuel node (ascii "reg") | return (true, acc)
  let noMap ← getProperty fdt fuel node (ascii "no-map")
  let memoryType := if noMap.isSome then ReservedMemoryType.reserved else .bootServicesData
  visitDecodedRegions fuel reg addressCells sizeCells (fun region => visit region memoryType) acc

def forEachStaticReservedMemoryRegion (fdt : Fdt) (fuel : Nat)
    (visit : MemoryRegion → ReservedMemoryType → σ → Checked (Bool × σ)) (acc : σ) :
    Checked σ := do
  let some root ← rootNode fdt fuel | return acc
  let rootAddress ← getPropertyU32 fdt fuel root (ascii "#address-cells")
  let rootSize ← getPropertyU32 fdt fuel root (ascii "#size-cells")
  let some reservedNode ← findNode fdt fuel (ascii "/reserved-memory") | return acc
  let addressCells ← getPropertyU32 fdt fuel reservedNode (ascii "#address-cells")
  let sizeCells ← getPropertyU32 fdt fuel reservedNode (ascii "#size-cells")
  forEachChild fdt fuel reservedNode
    (visitStaticNode fdt fuel (addressCells.getD (rootAddress.getD 2))
      (sizeCells.getD (rootSize.getD 1)) visit) acc

end Static

end Checked

/-! ## §6. Bounds. -/

/-- What `from_ptr` guarantees of the sections' sizes. -/
structure Fdt.Bounded (fdt : Fdt) : Prop where
  total          : fdt.totalSize < 2 ^ 32
  structureBlock : fdt.structureBlock.length ≤ fdt.totalSize
  strings        : fdt.strings.length ≤ fdt.totalSize
  reserveMap     : fdt.reserveMap.length ≤ fdt.totalSize

/-- A node that the reader has returned: they all come from `node_at_offset`. -/
def Fdt.IsNode (fdt : Fdt) (node : FdtNode) : Prop := ∃ offset, fdt.nodeAtOffset offset = some node

theorem Fdt.bounded_of_fromPtr {base : Nat} {memory : Bytes} {fdt : Fdt}
    (h : Fdt.fromPtr base memory = .ok fdt) : fdt.Bounded := by
  obtain ⟨total, _, _, _, _, _, _, hacc⟩ := Fdt.fromPtr_eq_ok h
  have hstruct := hacc.structInside.2
  have hstrings := hacc.stringsInside.2
  obtain rfl := hacc.result
  refine ⟨(readBe32_bounds hacc.total).2, ?_, ?_, ?_⟩
  · simp only [List.length_take, List.length_drop]
    omega
  · simp only [List.length_take, List.length_drop]
    omega
  · simp only [List.length_take, List.length_drop]
    omega

section Bounds

variable {fdt : Fdt} {offset next : Nat}

theorem Fdt.readToken_bounds {token : Nat} (h : fdt.readToken offset = some token) :
    offset + 4 ≤ fdt.structureBlock.length ∧ token < 2 ^ 32 := readBe32_bounds h

theorem Fdt.readCString_bounds {bytes name : Bytes} (h : Fdt.readCString bytes offset = some (name, next)) :
    offset < next ∧ next ≤ bytes.length := by
  simp only [Fdt.readCString, Option.bind_eq_bind, Option.bind_eq_some_iff, Option.some.injEq,
    Prod.mk.injEq] at h
  obtain ⟨rest, hrest, stop, hstop, _, _, -, rfl⟩ := h
  have hlt := nulPosition_lt hstop
  obtain ⟨-, -, hlength⟩ := slice_bounds hrest
  omega

theorem Fdt.afterBeginNode_bounds (h : fdt.afterBeginNode offset = some next) :
    offset + 4 ≤ next ∧ next ≤ fdt.structureBlock.length + 3 := by
  obtain ⟨token, htoken, h⟩ := Option.bind_eq_some_iff.mp h
  split at h
  · cases h
  · obtain ⟨⟨name, stop⟩, hread, h⟩ := Option.bind_eq_some_iff.mp h
    cases h
    have hbounds := Fdt.readCString_bounds hread
    unfold align4
    omega

theorem Fdt.afterProperty_bounds (h : fdt.afterProperty offset = some next) :
    offset + 12 ≤ next ∧ next ≤ fdt.structureBlock.length + 3 := by
  obtain ⟨length, -, h⟩ := Option.bind_eq_some_iff.mp h
  obtain ⟨value, hvalue, h⟩ := Option.bind_eq_some_iff.mp h
  cases h
  have hbounds := slice_bounds hvalue
  unfold align4
  omega

/-- The end token that `node_end_offset` finds lies ahead and inside the block. -/
theorem Fdt.nodeEndLoop_bounds {fuel depth stop : Nat}
    (h : fdt.nodeEndLoop fuel offset depth = some stop) :
    offset ≤ stop ∧ stop + 4 ≤ fdt.structureBlock.length := by
  induction fuel generalizing offset depth with
  | zero => cases h
  | succ fuel ih =>
      rw [Fdt.nodeEndLoop] at h
      cases htoken : fdt.readToken offset with
      | none =>
          rw [htoken] at h
          cases h
      | some token =>
          rw [htoken] at h
          have hbounds := Fdt.readToken_bounds htoken
          dsimp only at h
          split_ifs at h
          · split at h
            · cases h
            · rename_i hnext
              have hnext := Fdt.afterBeginNode_bounds hnext
              have hrest := ih h
              omega
          · cases h
            exact ⟨Nat.le_refl _, hbounds.1⟩
          · have hrest := ih h
            omega
          · split at h
            · cases h
            · rename_i hnext
              have hnext := Fdt.afterProperty_bounds hnext
              have hrest := ih h
              omega
          · have hrest := ih h
            omega

theorem Fdt.nodeAtOffset_bounds {node : FdtNode} (h : fdt.nodeAtOffset offset = some node) :
    node.beginOffset = offset ∧ offset + 4 ≤ fdt.structureBlock.length ∧ offset ≤ node.endOffset
      ∧ node.endOffset + 4 ≤ fdt.structureBlock.length := by
  obtain ⟨token, htoken, h⟩ := Option.bind_eq_some_iff.mp h
  split at h
  · cases h
  · obtain ⟨_, -, h⟩ := Option.bind_eq_some_iff.mp h
    obtain ⟨stop, hstop, h⟩ := Option.bind_eq_some_iff.mp h
    cases h
    exact ⟨rfl, (Fdt.readToken_bounds htoken).1, Fdt.nodeEndLoop_bounds hstop⟩

theorem Fdt.IsNode.bounds {node : FdtNode} (h : fdt.IsNode node) :
    node.beginOffset + 4 ≤ fdt.structureBlock.length
      ∧ node.endOffset + 4 ≤ fdt.structureBlock.length := by
  obtain ⟨offset, h⟩ := h
  have hbounds := Fdt.nodeAtOffset_bounds h
  omega

theorem Fdt.getPropertyLoop_bounds {fuel stop : Nat} {name value : Bytes}
    (h : fdt.getPropertyLoop stop name fuel offset = some value) :
    value.length ≤ fdt.structureBlock.length := by
  induction fuel generalizing offset with
  | zero => cases h
  | succ fuel ih =>
      rw [Fdt.getPropertyLoop] at h
      split at h
      · split at h
        · cases h
        · split_ifs at h
          · split at h
            · split at h
              · cases h
              · split_ifs at h
                · have hbounds := slice_bounds h
                  omega
                · exact ih h
            · cases h
          · exact ih h
      · cases h

theorem Fdt.getProperty_bounds {node : FdtNode} {name value : Bytes}
    (h : fdt.getProperty node name = some value) : value.length ≤ fdt.structureBlock.length := by
  rw [Fdt.getProperty] at h
  split at h
  · cases h
  · exact Fdt.getPropertyLoop_bounds h

theorem Fdt.reserveEntry_bounds {index : Nat} {entry : FdtReserveEntry}
    (h : fdt.reserveEntry index = some entry) : 16 * (index + 1) ≤ fdt.reserveMap.length := by
  obtain ⟨offset, hoffset, h⟩ := Option.bind_eq_some_iff.mp h
  obtain ⟨address, -, h⟩ := Option.bind_eq_some_iff.mp h
  obtain ⟨size, hsize, -⟩ := Option.bind_eq_some_iff.mp h
  obtain ⟨-, rfl⟩ := checkedMul_eq_some.mp hoffset
  have hinside := readBe64_bounds hsize
  omega

theorem Fdt.getPropertyU32_bounds {node : FdtNode} {name : Bytes} {value : Nat}
    (h : fdt.getPropertyU32 node name = some value) : value < 2 ^ 32 := by
  obtain ⟨property, -, h⟩ := Option.bind_eq_some_iff.mp h
  exact (readBe32_bounds h).2

end Bounds

/-! ## §7. Words, strings and records do not fail. -/

namespace Checked

section Records

variable {fdt : Fdt} {bytes : Bytes} {offset : Nat}

theorem readBeU32FromSlice_eq (h : offset + 4 < 2 ^ 64) :
    readBeU32FromSlice bytes offset = .ok (readBe32 bytes offset) := by
  unfold readBeU32FromSlice readBe32
  rw [addWord_ok h, ok_bind]
  cases hslice : slice? bytes offset (offset + 4) with
  | none => rfl
  | some word =>
      have hlength : word.length = 4 := by
        have hbounds := slice_bounds hslice
        omega
      match word, hlength with
      | [b0, b1, b2, b3], _ => rfl

theorem readBeU64FromSlice_eq (h : offset + 8 < 2 ^ 64) :
    readBeU64FromSlice bytes offset = .ok (readBe64 bytes offset) := by
  unfold readBeU64FromSlice readBe64
  rw [addWord_ok h, ok_bind]
  cases hslice : slice? bytes offset (offset + 8) with
  | none => rfl
  | some word =>
      have hlength : word.length = 8 := by
        have hbounds := slice_bounds hslice
        omega
      match word, hlength with
      | [b0, b1, b2, b3, b4, b5, b6, b7], _ => rfl

theorem align4_eq (h : offset + 3 < 2 ^ 64) : align4 offset = .ok (DeviceTree.align4 offset) := by
  unfold align4
  rw [addWord_ok h]
  rfl

theorem readToken_eq (h : offset + 4 < 2 ^ 64) : readToken fdt offset = .ok (fdt.readToken offset) :=
  readBeU32FromSlice_eq h

/-- The text in front of a NUL that has been found. -/
theorem indexRange_nul {rest : Bytes} {stop : Nat} (h : nulPosition rest = some stop) :
    indexRange rest 0 stop = .ok (rest.take stop) :=
  indexRange_ok (Nat.zero_le _) (Nat.le_of_lt (nulPosition_lt h))

theorem stringAt_eq : stringAt fdt offset = .ok (fdt.stringAt offset) := by
  unfold stringAt Fdt.stringAt
  cases slice? fdt.strings offset fdt.strings.length with
  | none => rfl
  | some bytes =>
      dsimp only [Option.bind_eq_bind, Option.bind_some]
      cases hstop : nulPosition bytes with
      | none => rfl
      | some stop =>
          dsimp only
          rw [indexRange_nul hstop]
          rfl

theorem readCString_eq (h : bytes.length < 2 ^ 32) :
    readCString bytes offset = .ok (Fdt.readCString bytes offset) := by
  unfold readCString Fdt.readCString
  cases hrest : slice? bytes offset bytes.length with
  | none => rfl
  | some rest =>
      have hbounds := slice_bounds hrest
      dsimp only [Option.bind_eq_bind, Option.bind_some]
      cases hstop : nulPosition rest with
      | none => rfl
      | some stop =>
          have hlt := nulPosition_lt hstop
          dsimp only [Option.bind_some]
          rw [indexRange_nul hstop, ok_bind]
          cases fromUtf8 (rest.take stop) with
          | none => rfl
          | some name =>
              dsimp only [Option.bind_some]
              rw [addWord_ok (by omega), ok_bind, addWord_ok (by omega), ok_bind]
              rfl

theorem afterBeginNode_eq (hb : fdt.Bounded) (h : offset + 4 < 2 ^ 64) :
    afterBeginNode fdt offset = .ok (fdt.afterBeginNode offset) := by
  have htotal := hb.total
  have hstruct := hb.structureBlock
  unfold afterBeginNode Fdt.afterBeginNode
  rw [readToken_eq h, ok_bind]
  cases fdt.readToken offset with
  | none => rfl
  | some token =>
      dsimp only [Option.bind_eq_bind, Option.bind_some]
      split
      · rfl
      · rw [checkedAdd_some h]
        dsimp only
        rw [readCString_eq (by omega), ok_bind]
        cases hread : Fdt.readCString fdt.structureBlock (offset + 4) with
        | none => rfl
        | some pair =>
            obtain ⟨name, next⟩ := pair
            have hbounds := Fdt.readCString_bounds hread
            dsimp only [Option.bind_some]
            rw [align4_eq (by omega)]
            rfl

theorem afterProperty_eq (hb : fdt.Bounded) (h : offset < 2 ^ 33) :
    afterProperty fdt offset = .ok (fdt.afterProperty offset) := by
  have htotal := hb.total
  have hstruct := hb.structureBlock
  unfold afterProperty Fdt.afterProperty
  rw [addWord_ok (by omega), ok_bind, readToken_eq (by omega), ok_bind]
  cases hlength : fdt.readToken (offset + 4) with
  | none => rfl
  | some length =>
      have hbounds := Fdt.readToken_bounds hlength
      dsimp only [Option.bind_eq_bind, Option.bind_some]
      rw [checkedAdd_some (by omega)]
      dsimp only
      rw [checkedAdd_some (by omega)]
      dsimp only
      cases hvalue : slice? fdt.structureBlock (offset + 12) (offset + 12 + length) with
      | none => rfl
      | some value =>
          have hvalue := slice_bounds hvalue
          dsimp only [Option.bind_some]
          rw [align4_eq (by omega)]
          rfl

end Records

/-! ## §8. The walks neither fail nor run on. -/

section Walks

variable {fdt : Fdt}

/-- `node_end_offset`'s loop, given more passes than there are bytes ahead.  The
    depth never exceeds the offset, so counting it cannot overflow. -/
theorem nodeEndLoop_eq (hb : fdt.Bounded) {fuel fuel' offset depth : Nat} (hpos : 0 < fuel)
    (hpos' : 0 < fuel') (hfuel : fdt.structureBlock.length < offset + fuel)
    (hfuel' : fdt.structureBlock.length < offset + fuel') (hoffset : offset < 2 ^ 33)
    (hdepth : depth ≤ offset) :
    nodeEndLoop fdt fuel offset depth = .ok (fdt.nodeEndLoop fuel' offset depth) := by
  have htotal := hb.total
  have hstruct := hb.structureBlock
  induction fuel generalizing fuel' offset depth with
  | zero => omega
  | succ fuel ih =>
      obtain ⟨fuel', rfl⟩ : ∃ n, fuel' = n + 1 := ⟨fuel' - 1, by omega⟩
      rw [nodeEndLoop, Fdt.nodeEndLoop, readToken_eq (by omega), ok_bind]
      cases htoken : fdt.readToken offset with
      | none => rfl
      | some token =>
          have hbounds := Fdt.readToken_bounds htoken
          dsimp only
          split_ifs with hbegin hend hzero hone hprop hnop
          · -- one level down, behind the node's name
            rw [checkedAdd_some (by omega)]
            dsimp only
            rw [afterBeginNode_eq hb (by omega), ok_bind]
            cases hnext : fdt.afterBeginNode offset with
            | none => rfl
            | some next =>
                have hnext := Fdt.afterBeginNode_bounds hnext
                exact ih (by omega) (by omega) (by omega) (by omega) (by omega) (by omega)
          · rw [checkedSub, if_neg (by omega)]
            rfl
          · rw [checkedSub_some (by omega)]
            dsimp only
            rw [if_pos hone]
            rfl
          · rw [checkedSub_some (by omega)]
            dsimp only
            rw [if_neg hone, checkedAdd_some (by omega)]
            exact ih (by omega) (by omega) (by omega) (by omega) (by omega) (by omega)
          · rw [afterProperty_eq hb hoffset, ok_bind]
            cases hnext : fdt.afterProperty offset with
            | none => rfl
            | some next =>
                have hnext := Fdt.afterProperty_bounds hnext
                exact ih (by omega) (by omega) (by omega) (by omega) (by omega) (by omega)
          · rw [checkedAdd_some (by omega)]
            exact ih (by omega) (by omega) (by omega) (by omega) (by omega) (by omega)
          · rfl

variable {fuel : Nat}

theorem nodeAtOffset_eq (hb : fdt.Bounded) (hfuel : fdt.totalSize < fuel) {offset : Nat}
    (hoffset : offset < 2 ^ 33) : nodeAtOffset fdt fuel offset = .ok (fdt.nodeAtOffset offset) := by
  have htotal := hb.total
  have hstruct := hb.structureBlock
  unfold nodeAtOffset Fdt.nodeAtOffset
  rw [readToken_eq (by omega), ok_bind]
  cases fdt.readToken offset with
  | none => rfl
  | some token =>
      dsimp only [Option.bind_eq_bind, Option.bind_some]
      split
      · rfl
      · rw [checkedAdd_some (by omega)]
        dsimp only
        rw [readCString_eq (by omega), ok_bind]
        cases Fdt.readCString fdt.structureBlock (offset + 4) with
        | none => rfl
        | some pair =>
            dsimp only [Option.bind_some]
            have hbound : fdt.loopBound = fdt.structureBlock.length + 1 := rfl
            have hloop : nodeEndLoop fdt fuel offset 0 = .ok (fdt.nodeEndOffset offset) :=
              nodeEndLoop_eq hb (by omega) (by omega) (by omega) (by omega) hoffset (Nat.zero_le _)
            rw [hloop, ok_bind]
            cases fdt.nodeEndOffset offset with
            | none => rfl
            | some stop => rfl

/-- The children that are shown to a callback are nodes of the blob, so the callback
    only has to work on those.  `inv` is what it keeps true of its state. -/
theorem forEachChildLoop_ok (hb : fdt.Bounded) {σ : Type} {inv : σ → Prop}
    {visit : FdtNode → σ → Bool × σ} {visit' : FdtNode → σ → Checked (Bool × σ)}
    (hvisit : ∀ node acc, fdt.IsNode node → inv acc →
      visit' node acc = .ok (visit node acc) ∧ inv (visit node acc).2)
    {bound passes passes' parentEnd offset : Nat} (hbound : fdt.totalSize < bound)
    (hpos : 0 < passes) (hpos' : 0 < passes')
    (hfuel : fdt.structureBlock.length < offset + passes)
    (hfuel' : fdt.structureBlock.length < offset + passes')
    (hend : parentEnd ≤ fdt.structureBlock.length) {acc : σ} (hacc : inv acc) :
    forEachChildLoop fdt bound parentEnd visit' passes offset acc
        = .ok (fdt.forEachChildLoop parentEnd visit passes' offset acc)
      ∧ inv (fdt.forEachChildLoop parentEnd visit passes' offset acc) := by
  have htotal := hb.total
  have hstruct := hb.structureBlock
  induction passes generalizing passes' offset acc with
  | zero => omega
  | succ passes ih =>
      obtain ⟨passes', rfl⟩ : ∃ n, passes' = n + 1 := ⟨passes' - 1, by omega⟩
      rw [forEachChildLoop, Fdt.forEachChildLoop]
      split_ifs with hinside
      · rw [readToken_eq (by omega), ok_bind]
        cases htoken : fdt.readToken offset with
        | none => exact ⟨rfl, hacc⟩
        | some token =>
            have hbounds := Fdt.readToken_bounds htoken
            dsimp only
            split_ifs with hprop hnop hbegin
            · rw [afterProperty_eq hb (by omega), ok_bind]
              cases hnext : fdt.afterProperty offset with
              | none => exact ⟨rfl, hacc⟩
              | some next =>
                  have hnext := Fdt.afterProperty_bounds hnext
                  exact ih (by omega) (by omega) (by omega) (by omega) hacc
            · rw [addWord_ok (by omega), ok_bind]
              exact ih (by omega) (by omega) (by omega) (by omega) hacc
            · rw [nodeAtOffset_eq hb hbound (by omega), ok_bind]
              cases hchild : fdt.nodeAtOffset offset with
              | none => exact ⟨rfl, hacc⟩
              | some child =>
                  obtain ⟨hrun, hkeep⟩ := hvisit child acc ⟨offset, hchild⟩ hacc
                  have hchildEnd := Fdt.nodeAtOffset_bounds hchild
                  dsimp only
                  rw [hrun, ok_bind]
                  cases hanswer : visit child acc with
                  | mk go acc' =>
                      rw [hanswer] at hkeep
                      cases go with
                      | false => exact ⟨rfl, hkeep⟩
                      | true =>
                          -- the walk goes on behind the child's end token
                          dsimp only
                          rw [checkedAdd_some (by omega)]
                          exact ih (by omega) (by omega) (by omega) (by omega) hkeep
            · exact ⟨rfl, hacc⟩
      · exact ⟨rfl, hacc⟩

theorem forEachChild_ok (hb : fdt.Bounded) (hfuel : fdt.totalSize < fuel) {σ : Type}
    (inv : σ → Prop) {visit : FdtNode → σ → Bool × σ} {visit' : FdtNode → σ → Checked (Bool × σ)}
    (hvisit : ∀ node acc, fdt.IsNode node → inv acc →
      visit' node acc = .ok (visit node acc) ∧ inv (visit node acc).2)
    {parent : FdtNode} (hparent : fdt.IsNode parent) {acc : σ} (hacc : inv acc) :
    forEachChild fdt fuel parent visit' acc = .ok (fdt.forEachChild parent visit acc)
      ∧ inv (fdt.forEachChild parent visit acc) := by
  have htotal := hb.total
  have hstruct := hb.structureBlock
  have hnode := hparent.bounds
  unfold forEachChild Fdt.forEachChild
  rw [afterBeginNode_eq hb (by omega), ok_bind]
  cases fdt.afterBeginNode parent.beginOffset with
  | none => exact ⟨rfl, hacc⟩
  | some offset =>
      have hbound : fdt.loopBound = fdt.structureBlock.length + 1 := rfl
      exact forEachChildLoop_ok hb hvisit hfuel (by omega) (by omega) (by omega) (by omega)
        (by omega) hacc

/-- For a callback that cannot fail. -/
theorem forEachChild_eq (hb : fdt.Bounded) (hfuel : fdt.totalSize < fuel) {σ : Type}
    (visit : FdtNode → σ → Bool × σ) {parent : FdtNode} (hparent : fdt.IsNode parent) (acc : σ) :
    forEachChild fdt fuel parent (fun node acc => .ok (visit node acc)) acc
      = .ok (fdt.forEachChild parent visit acc) :=
  (forEachChild_ok hb hfuel (fun _ => True) (fun _ _ _ _ => ⟨rfl, trivial⟩) hparent trivial).1

/-- A child that is found is a node of the blob. -/
theorem findChild_ok (hb : fdt.Bounded) (hfuel : fdt.totalSize < fuel) {parent : FdtNode}
    (hparent : fdt.IsNode parent) (name : Bytes) :
    findChild fdt fuel parent name = .ok (fdt.findChild parent name)
      ∧ ∀ child, fdt.findChild parent name = some child → fdt.IsNode child := by
  refine forEachChild_ok hb hfuel (fun result => ∀ child, result = some child → fdt.IsNode child) ?_
    hparent (fun child h => by cases h)
  intro node result hnode hresult
  by_cases hname : node.name = name
  · simp only [hname, if_true]
    refine ⟨rfl, ?_⟩
    intro child hchild
    cases hchild
    exact hnode
  · simp only [hname, if_false]
    exact ⟨rfl, hresult⟩

theorem descend_ok (hb : fdt.Bounded) (hfuel : fdt.totalSize < fuel) {node : FdtNode}
    (hnode : fdt.IsNode node) (components : List Bytes) :
    descend fdt fuel node components = .ok (fdt.descend node components)
      ∧ ∀ found, fdt.descend node components = some found → fdt.IsNode found := by
  induction components generalizing node with
  | nil =>
      refine ⟨rfl, ?_⟩
      intro found hfound
      cases hfound
      exact hnode
  | cons component components ih =>
      rw [descend, Fdt.descend]
      split_ifs with hempty
      · exact ⟨rfl, fun found h => by cases h⟩
      · obtain ⟨hrun, hchild⟩ := findChild_ok hb hfuel hnode component
        rw [hrun, ok_bind]
        cases hfound : fdt.findChild node component with
        | none => exact ⟨rfl, fun found h => by cases h⟩
        | some child => exact ih (hchild child hfound)

theorem rootNode_eq (hb : fdt.Bounded) (hfuel : fdt.totalSize < fuel) :
    rootNode fdt fuel = .ok fdt.rootNode :=
  nodeAtOffset_eq hb hfuel (by decide)

theorem findNode_ok (hb : fdt.Bounded) (hfuel : fdt.totalSize < fuel) (path : Bytes) :
    findNode fdt fuel path = .ok (fdt.findNode path)
      ∧ ∀ found, fdt.findNode path = some found → fdt.IsNode found := by
  have hroot := rootNode_eq hb hfuel
  unfold findNode Fdt.findNode
  split_ifs with hslash
  · exact ⟨hroot, fun found h => ⟨0, h⟩⟩
  · cases Fdt.splitPath path with
    | nil => exact ⟨rfl, fun found h => by cases h⟩
    | cons first components =>
        dsimp only
        split_ifs with hfirst
        · exact ⟨rfl, fun found h => by cases h⟩
        · rw [hroot, ok_bind]
          cases hnode : fdt.rootNode with
          | none => exact ⟨rfl, fun found h => by cases h⟩
          | some root => exact descend_ok hb hfuel ⟨0, hnode⟩ components

/-- `get_property`'s loop.  A value that leaves the block ends the loop at the next
    pass: the offset behind it is past the node's end. -/
theorem getPropertyLoop_eq (hb : fdt.Bounded) {passes passes' stop offset : Nat} {name : Bytes}
    (hpos : 0 < passes) (hpos' : 0 < passes')
    (hfuel : fdt.structureBlock.length < offset + passes)
    (hfuel' : fdt.structureBlock.length < offset + passes')
    (hend : stop ≤ fdt.structureBlock.length) :
    getPropertyLoop fdt stop name passes offset
      = .ok (fdt.getPropertyLoop stop name passes' offset) := by
  have htotal := hb.total
  have hstruct := hb.structureBlock
  induction passes generalizing passes' offset with
  | zero => omega
  | succ passes ih =>
      obtain ⟨passes', rfl⟩ : ∃ n, passes' = n + 1 := ⟨passes' - 1, by omega⟩
      rw [getPropertyLoop, Fdt.getPropertyLoop]
      split_ifs with hinside
      · rw [readToken_eq (by omega), ok_bind]
        cases htoken : fdt.readToken offset with
        | none => rfl
        | some token =>
            have hbounds := Fdt.readToken_bounds htoken
            dsimp only
            split_ifs with hprop hnop
            · rw [addWord_ok (by omega), ok_bind, readToken_eq (by omega), ok_bind]
              cases hlength : fdt.readToken (offset + 4) with
              | none => rfl
              | some length =>
                  have hlength := Fdt.readToken_bounds hlength
                  dsimp only
                  rw [addWord_ok (by omega), ok_bind, readToken_eq (by omega), ok_bind]
                  cases fdt.readToken (offset + 8) with
                  | none => rfl
                  | some nameOffset =>
                      dsimp only
                      rw [addWord_ok (by omega), ok_bind, checkedAdd_some (by omega)]
                      dsimp only
                      rw [stringAt_eq, ok_bind]
                      cases fdt.stringAt nameOffset with
                      | none => rfl
                      | some found =>
                          dsimp only
                          split_ifs
                          · rfl
                          · rw [align4_eq (by omega), ok_bind]
                            have halign : offset + 12 + length ≤ DeviceTree.align4 (offset + 12 + length) := by
                              unfold DeviceTree.align4
                              omega
                            exact ih (by omega) (by omega) (by omega) (by omega)
            · rw [addWord_ok (by omega), ok_bind]
              exact ih (by omega) (by omega) (by omega) (by omega)
            · rfl
      · rfl

theorem getProperty_eq (hb : fdt.Bounded) (hfuel : fdt.totalSize < fuel) {node : FdtNode}
    (hnode : fdt.IsNode node) (name : Bytes) :
    getProperty fdt fuel node name = .ok (fdt.getProperty node name) := by
  have htotal := hb.total
  have hstruct := hb.structureBlock
  have hbounds := hnode.bounds
  unfold getProperty Fdt.getProperty
  rw [afterBeginNode_eq hb (by omega), ok_bind]
  cases fdt.afterBeginNode node.beginOffset with
  | none => rfl
  | some offset =>
      have hbound : fdt.loopBound = fdt.structureBlock.length + 1 := rfl
      exact getPropertyLoop_eq hb (by omega) (by omega) (by omega) (by omega) (by omega)

theorem getPropertyU32_eq (hb : fdt.Bounded) (hfuel : fdt.totalSize < fuel) {node : FdtNode}
    (hnode : fdt.IsNode node) (name : Bytes) :
    getPropertyU32 fdt fuel node name = .ok (fdt.getPropertyU32 node name) := by
  unfold getPropertyU32 Fdt.getPropertyU32
  rw [getProperty_eq hb hfuel hnode, ok_bind]
  cases fdt.getProperty node name with
  | none => rfl
  | some property => exact readBeU32FromSlice_eq (by decide)

theorem getPropertyString_eq (hb : fdt.Bounded) (hfuel : fdt.totalSize < fuel) {node : FdtNode}
    (hnode : fdt.IsNode node) (name : Bytes) :
    getPropertyString fdt fuel node name = .ok (fdt.getPropertyString node name) := by
  unfold getPropertyString Fdt.getPropertyString
  rw [getProperty_eq hb hfuel hnode, ok_bind]
  cases fdt.getProperty node name with
  | none => rfl
  | some property =>
      dsimp only [Option.bind_eq_bind, Option.bind_some]
      cases hstop : nulPosition property with
      | none => rfl
      | some stop =>
          dsimp only
          rw [indexRange_nul hstop]
          rfl

/-- An index so large that its offset leaves the word has no entry. -/
theorem reserveEntry_eq (hb : fdt.Bounded) (index : Nat) :
    reserveEntry fdt index = .ok (fdt.reserveEntry index) := by
  have htotal := hb.total
  have hmap := hb.reserveMap
  unfold reserveEntry Fdt.reserveEntry
  cases hmul : checkedMul 64 index 16 with
  | none => rfl
  | some offset =>
      -- the largest multiple of 16 below `2 ^ 64` leaves room for the first word
      have hoffset : offset + 16 ≤ 2 ^ 64 := by
        obtain ⟨hlt, rfl⟩ := checkedMul_eq_some.mp hmul
        omega
      dsimp only [Option.bind_eq_bind, Option.bind_some]
      rw [readBeU64FromSlice_eq (by omega), ok_bind]
      cases hread : readBe64 fdt.reserveMap offset with
      | none => rfl
      | some address =>
          have hinside := readBe64_bounds hread
          dsimp only [Option.bind_some]
          rw [addWord_ok (by omega), ok_bind, readBeU64FromSlice_eq (by omega), ok_bind]
          cases readBe64 fdt.reserveMap (offset + 8) with
          | none => rfl
          | some size =>
              dsimp only [Option.bind_some]
              split_ifs
              · rfl
              · rfl

end Walks

/-! ## §9. Nor do the memory queries. -/

section Regions

theorem readCellsLoop_eq (bytes : Bytes) {value i cells : Nat} (h : i + cells < 2 ^ 60) :
    readCellsLoop bytes value i cells = .ok (DeviceTree.readCellsLoop bytes value i cells) := by
  induction cells generalizing i value with
  | zero => rfl
  | succ cells ih =>
      rw [readCellsLoop, DeviceTree.readCellsLoop, mulWord_ok (by omega), ok_bind,
        readBeU32FromSlice_eq (by omega), ok_bind, addWord_ok (by omega), ok_bind]
      exact ih (by omega)

theorem readCells_eq (bytes : Bytes) {cells : Nat} (h : cells < 2 ^ 32) :
    readCells bytes cells = .ok (DeviceTree.readCells bytes cells) :=
  readCellsLoop_eq bytes (by omega)

variable {σ : Type} {reg : Bytes} {addressCells sizeCells : Nat}

/-- The loop over a payload moves on by a stride that is not zero. -/
theorem visitDecodedLoop_ok {inv : σ → Prop} {visit : MemoryRegion → σ → Bool × σ}
    {visit' : MemoryRegion → σ → Checked (Bool × σ)}
    (hvisit : ∀ region acc, inv acc → visit' region acc = .ok (visit region acc)
      ∧ inv (visit region acc).2)
    (hreg : reg.length < 2 ^ 32) (haddress : addressCells < 2 ^ 32) (hsize : sizeCells < 2 ^ 32)
    (hstride : (addressCells + sizeCells) * 4 ≠ 0) {passes passes' index : Nat}
    (hpos : 0 < passes) (hpos' : 0 < passes') (hfuel : reg.length < index + passes)
    (hfuel' : reg.length < index + passes') (hindex : index < 2 ^ 36) {acc : σ} (hacc : inv acc) :
    visitDecodedLoop reg addressCells sizeCells ((addressCells + sizeCells) * 4) visit' passes index acc
        = .ok (DeviceTree.visitDecodedLoop reg addressCells sizeCells visit passes' index acc)
      ∧ inv (DeviceTree.visitDecodedLoop reg addressCells sizeCells visit passes' index acc).2 := by
  induction passes generalizing passes' index acc with
  | zero => omega
  | succ passes ih =>
      obtain ⟨passes', rfl⟩ : ∃ n, passes' = n + 1 := ⟨passes' - 1, by omega⟩
      rw [visitDecodedLoop, DeviceTree.visitDecodedLoop, addWord_ok (by omega), ok_bind]
      dsimp only
      split_ifs with hinside
      · rw [mulWord_ok (by omega), ok_bind, addWord_ok (by omega), ok_bind,
          indexRange_ok (by omega) (by omega), ok_bind, readCells_eq _ haddress, ok_bind,
          indexRange_ok (by omega) hinside, ok_bind, readCells_eq _ hsize, ok_bind]
        rw [show index + addressCells * 4 - index = addressCells * 4 by omega,
          show index + (addressCells + sizeCells) * 4 - (index + addressCells * 4)
            = (addressCells + sizeCells) * 4 - addressCells * 4 by omega]
        -- both sides show the callback the same region
        generalize hregion : ({ base := _, size := _ } : MemoryRegion) = region
        obtain ⟨hrun, hkeep⟩ := hvisit region acc hacc
        rw [hrun, ok_bind]
        cases hanswer : visit region acc with
        | mk go acc' =>
            rw [hanswer] at hkeep
            cases go with
            | false => exact ⟨rfl, hkeep⟩
            | true => exact ih (by omega) (by omega) (by omega) (by omega) (by omega) hkeep
      · exact ⟨rfl, hacc⟩

theorem visitDecodedRegions_ok (inv : σ → Prop) {visit : MemoryRegion → σ → Bool × σ}
    {visit' : MemoryRegion → σ → Checked (Bool × σ)}
    (hvisit : ∀ region acc, inv acc → visit' region acc = .ok (visit region acc)
      ∧ inv (visit region acc).2)
    (hreg : reg.length < 2 ^ 32) (haddress : addressCells < 2 ^ 32) (hsize : sizeCells < 2 ^ 32)
    {fuel : Nat} (hfuel : reg.length < fuel) {acc : σ} (hacc : inv acc) :
    visitDecodedRegions fuel reg addressCells sizeCells visit' acc
        = .ok (DeviceTree.visitDecodedRegions reg addressCells sizeCells visit acc)
      ∧ inv (DeviceTree.visitDecodedRegions reg addressCells sizeCells visit acc).2 := by
  unfold visitDecodedRegions DeviceTree.visitDecodedRegions
  rw [addWord_ok (by omega), ok_bind, mulWord_ok (by omega), ok_bind]
  split_ifs with hstride
  · exact ⟨rfl, hacc⟩
  · exact visitDecodedLoop_ok hvisit hreg haddress hsize hstride (by omega) (by omega) (by omega)
      (by omega) (by decide) hacc

/-- What has been decoded fits the slice, so its slots are there. -/
theorem decodeRegions_ok (hreg : reg.length < 2 ^ 32) (haddress : addressCells < 2 ^ 32)
    (hsize : sizeCells < 2 ^ 32) {fuel capacity : Nat} (hfuel : reg.length < fuel)
    (hcapacity : capacity < 2 ^ 64) :
    decodeRegions fuel reg addressCells sizeCells capacity
        = .ok (DeviceTree.decodeRegions reg addressCells sizeCells capacity)
      ∧ (DeviceTree.decodeRegions reg addressCells sizeCells capacity).length ≤ capacity := by
  have hstore : ∀ (region : MemoryRegion) (output : List MemoryRegion), output.length ≤ capacity →
      storeRegion capacity region output
          = .ok (if output.length = capacity then (false, output) else (true, output ++ [region]))
        ∧ (if output.length = capacity then (false, output) else (true, output ++ [region])).2.length
            ≤ capacity := by
    intro region output houtput
    unfold storeRegion
    split_ifs with hfull
    · exact ⟨rfl, houtput⟩
    · rw [indexSlot_ok (by omega), ok_bind, addWord_ok (by omega), ok_bind]
      refine ⟨rfl, ?_⟩
      rw [List.length_append, List.length_singleton]
      omega
  have hempty : ([] : List MemoryRegion).length ≤ capacity := Nat.zero_le _
  obtain ⟨hrun, hlength⟩ := visitDecodedRegions_ok
    (fun output : List MemoryRegion => output.length ≤ capacity) hstore hreg haddress hsize hfuel hempty
  refine ⟨?_, hlength⟩
  unfold decodeRegions
  rw [hrun]
  rfl

end Regions

section Queries

variable {fdt : Fdt} {fuel : Nat}

/-- The callbacks that collect `reg` ranges keep what they collect inside the slice. -/
theorem decodeProperty_ok (hb : fdt.Bounded) (hfuel : fdt.totalSize < fuel)
    {addressCells sizeCells capacity : Nat} (haddress : addressCells < 2 ^ 32)
    (hsize : sizeCells < 2 ^ 32) (hcapacity : capacity < 2 ^ 64) {node : FdtNode} {reg : Bytes}
    (hreg : fdt.getProperty node (ascii "reg") = some reg) {output : List MemoryRegion}
    (houtput : output.length ≤ capacity) :
    (do let room ← indexFrom capacity output.length
        let regions ← decodeRegions fuel reg addressCells sizeCells room
        let _ ← addWord 64 output.length regions.length
        return (true, output ++ regions))
      = (.ok (true, output ++ DeviceTree.decodeRegions reg addressCells sizeCells
          (capacity - output.length)) : Checked (Bool × List MemoryRegion))
    ∧ (output ++ DeviceTree.decodeRegions reg addressCells sizeCells
        (capacity - output.length)).length ≤ capacity := by
  have htotal := hb.total
  have hstruct := hb.structureBlock
  have hlength := Fdt.getProperty_bounds hreg
  obtain ⟨hrun, hroom⟩ := decodeRegions_ok (show reg.length < 2 ^ 32 by omega) haddress hsize
    (show reg.length < fuel by omega) (show capacity - output.length < 2 ^ 64 by omega)
  rw [indexFrom_ok houtput, ok_bind, hrun, ok_bind, addWord_ok (by omega), ok_bind]
  refine ⟨rfl, ?_⟩
  rw [List.length_append]
  omega

theorem visitMemoryNode_ok (hb : fdt.Bounded) (hfuel : fdt.totalSize < fuel)
    {addressCells sizeCells capacity : Nat} (haddress : addressCells < 2 ^ 32)
    (hsize : sizeCells < 2 ^ 32) (hcapacity : capacity < 2 ^ 64) (node : FdtNode)
    (output : List MemoryRegion) (hnode : fdt.IsNode node) (houtput : output.length ≤ capacity) :
    visitMemoryNode fdt fuel addressCells sizeCells capacity node output
        = .ok (DeviceTree.visitMemoryNode fdt addressCells sizeCells capacity node output)
      ∧ (DeviceTree.visitMemoryNode fdt addressCells sizeCells capacity node output).2.length
          ≤ capacity := by
  unfold visitMemoryNode DeviceTree.visitMemoryNode
  split_ifs with hfull hname htype
  · exact ⟨rfl, houtput⟩
  · rw [getPropertyString_eq hb hfuel hnode, ok_bind, if_pos htype]
    exact ⟨rfl, houtput⟩
  · rw [getPropertyString_eq hb hfuel hnode, ok_bind, if_neg htype, getProperty_eq hb hfuel hnode,
      ok_bind]
    cases hreg : fdt.getProperty node (ascii "reg") with
    | none => exact ⟨rfl, houtput⟩
    | some reg => exact decodeProperty_ok hb hfuel haddress hsize hcapacity hreg houtput
  · exact ⟨rfl, houtput⟩

theorem visitReservedNode_ok (hb : fdt.Bounded) (hfuel : fdt.totalSize < fuel)
    {addressCells sizeCells capacity : Nat} (haddress : addressCells < 2 ^ 32)
    (hsize : sizeCells < 2 ^ 32) (hcapacity : capacity < 2 ^ 64) (node : FdtNode)
    (output : List MemoryRegion) (hnode : fdt.IsNode node) (houtput : output.length ≤ capacity) :
    visitReservedNode fdt fuel addressCells sizeCells capacity node output
        = .ok (DeviceTree.visitReservedNode fdt addressCells sizeCells capacity node output)
      ∧ (DeviceTree.visitReservedNode fdt addressCells sizeCells capacity node output).2.length
          ≤ capacity := by
  unfold visitReservedNode DeviceTree.visitReservedNode
  split_ifs with hfull
  · exact ⟨rfl, houtput⟩
  · rw [getProperty_eq hb hfuel hnode, ok_bind]
    cases hreg : fdt.getProperty node (ascii "reg") with
    | none => exact ⟨rfl, houtput⟩
    | some reg => exact decodeProperty_ok hb hfuel haddress hsize hcapacity hreg houtput

/-- A cell count that is read, or its default. -/
theorem cells_lt {node : FdtNode} {name : Bytes} {default : Nat} (h : default < 2 ^ 32) :
    (fdt.getPropertyU32 node name).getD default < 2 ^ 32 := by
  cases hcells : fdt.getPropertyU32 node name with
  | none => exact h
  | some cells => exact Fdt.getPropertyU32_bounds hcells

theorem memoryRegions_eq (hb : fdt.Bounded) (hfuel : fdt.totalSize < fuel) {capacity : Nat}
    (hcapacity : capacity < 2 ^ 64) :
    memoryRegions fdt fuel capacity = .ok (DeviceTree.memoryRegions fdt capacity) := by
  unfold memoryRegions DeviceTree.memoryRegions
  rw [rootNode_eq hb hfuel, ok_bind]
  cases hroot : fdt.rootNode with
  | none => rfl
  | some root =>
      have hnode : fdt.IsNode root := ⟨0, hroot⟩
      dsimp only
      rw [getPropertyU32_eq hb hfuel hnode, ok_bind, getPropertyU32_eq hb hfuel hnode, ok_bind]
      exact (forEachChild_ok hb hfuel (fun output : List MemoryRegion => output.length ≤ capacity)
        (visitMemoryNode_ok hb hfuel (cells_lt (by decide)) (cells_lt (by decide)) hcapacity)
        hnode (Nat.zero_le _)).1

/-- The reserve map is shorter than the blob, so the loop over it ends whatever the
    capacity is. -/
theorem reserveMapLoop_ok (hb : fdt.Bounded) {passes capacity room : Nat} {output : List MemoryRegion}
    (hpos : 0 < passes) (hfuel : fdt.reserveMap.length < 16 * output.length + passes)
    (hroom : output.length + room = capacity) (hcapacity : capacity < 2 ^ 64) :
    reserveMapLoop fdt capacity passes output
        = .ok (output ++ DeviceTree.reserveMapLoop fdt room output.length)
      ∧ (output ++ DeviceTree.reserveMapLoop fdt room output.length).length ≤ capacity := by
  induction passes generalizing output room with
  | zero => omega
  | succ passes ih =>
      rw [reserveMapLoop, reserveEntry_eq hb, ok_bind]
      cases hentry : fdt.reserveEntry output.length with
      | none =>
          have hstop : DeviceTree.reserveMapLoop fdt room output.length = [] := by
            cases room with
            | zero => rfl
            | succ room => rw [DeviceTree.reserveMapLoop, hentry]
          rw [hstop, List.append_nil]
          exact ⟨rfl, by omega⟩
      | some entry =>
          have hinside := Fdt.reserveEntry_bounds hentry
          dsimp only
          split_ifs with hfull
          · obtain rfl : room = 0 := by omega
            rw [DeviceTree.reserveMapLoop, List.append_nil]
            exact ⟨rfl, by omega⟩
          · obtain ⟨room, rfl⟩ : ∃ n, room = n + 1 := ⟨room - 1, by omega⟩
            rw [indexSlot_ok (by omega), ok_bind, addWord_ok (by omega), ok_bind,
              DeviceTree.reserveMapLoop, hentry]
            dsimp only
            generalize ({ base := entry.address, size := entry.size } : MemoryRegion) = region
            have hlength : (output ++ [region]).length = output.length + 1 := by simp
            have hnext := ih (show 0 < passes by omega)
              (show fdt.reserveMap.length < 16 * (output ++ [region]).length + passes by omega)
              (show (output ++ [region]).length + room = capacity by omega)
            rw [hlength, List.append_assoc, List.singleton_append] at hnext
            exact hnext

theorem reserveMapRegions_ok (hb : fdt.Bounded) (hfuel : fdt.totalSize < fuel) {capacity : Nat}
    (hcapacity : capacity < 2 ^ 64) :
    reserveMapRegions fdt fuel capacity = .ok (DeviceTree.reserveMapRegions fdt capacity)
      ∧ (DeviceTree.reserveMapRegions fdt capacity).length ≤ capacity := by
  have hmap := hb.reserveMap
  have hbound : fdt.reserveMap.length < 16 * ([] : List MemoryRegion).length + fuel := by
    rw [List.length_nil]
    omega
  exact reserveMapLoop_ok hb (by omega) hbound (Nat.zero_add _) hcapacity

theorem reservedMemoryRegions_ok (hb : fdt.Bounded) (hfuel : fdt.totalSize < fuel)
    {rootAddressCells rootSizeCells capacity : Nat} (haddress : rootAddressCells < 2 ^ 32)
    (hsize : rootSizeCells < 2 ^ 32) (hcapacity : capacity < 2 ^ 64) :
    reservedMemoryRegions fdt fuel rootAddressCells rootSizeCells capacity
        = .ok (DeviceTree.reservedMemoryRegions fdt rootAddressCells rootSizeCells capacity)
      ∧ (DeviceTree.reservedMemoryRegions fdt rootAddressCells rootSizeCells capacity).length
          ≤ capacity := by
  obtain ⟨hrun, hfound⟩ := findNode_ok hb hfuel (ascii "/reserved-memory")
  unfold reservedMemoryRegions DeviceTree.reservedMemoryRegions
  rw [hrun, ok_bind]
  cases hreserved : fdt.findNode (ascii "/reserved-memory") with
  | none => exact ⟨rfl, Nat.zero_le _⟩
  | some reservedNode =>
      have hnode := hfound reservedNode hreserved
      dsimp only
      rw [getPropertyU32_eq hb hfuel hnode, ok_bind, getPropertyU32_eq hb hfuel hnode, ok_bind]
      exact forEachChild_ok hb hfuel (fun output : List MemoryRegion => output.length ≤ capacity)
        (visitReservedNode_ok hb hfuel (cells_lt haddress) (cells_lt hsize) hcapacity)
        hnode (Nat.zero_le _)

theorem reservedRegions_eq (hb : fdt.Bounded) (hfuel : fdt.totalSize < fuel) {capacity : Nat}
    (hcapacity : capacity < 2 ^ 64) :
    reservedRegions fdt fuel capacity = .ok (DeviceTree.reservedRegions fdt capacity) := by
  obtain ⟨hmapped, hfits⟩ := reserveMapRegions_ok hb hfuel hcapacity
  unfold reservedRegions DeviceTree.reservedRegions
  rw [rootNode_eq hb hfuel, ok_bind]
  cases hroot : fdt.rootNode with
  | none => rfl
  | some root =>
      have hnode : fdt.IsNode root := ⟨0, hroot⟩
      dsimp only
      rw [getPropertyU32_eq hb hfuel hnode, ok_bind, getPropertyU32_eq hb hfuel hnode, ok_bind,
        hmapped, ok_bind]
      split_ifs with hroom
      · obtain ⟨hrun, hlength⟩ := reservedMemoryRegions_ok hb hfuel
          (cells_lt (show 2 < 2 ^ 32 by decide)) (cells_lt (show 1 < 2 ^ 32 by decide))
          (show capacity - (DeviceTree.reserveMapRegions fdt capacity).length < 2 ^ 64 by omega)
        rw [indexFrom_ok (by omega), ok_bind, hrun, ok_bind, addWord_ok (by omega), ok_bind]
        rfl
      · rfl

theorem visitStaticNode_ok (hb : fdt.Bounded) (hfuel : fdt.totalSize < fuel) {σ : Type}
    {addressCells sizeCells : Nat} (haddress : addressCells < 2 ^ 32) (hsize : sizeCells < 2 ^ 32)
    (visit : MemoryRegion → ReservedMemoryType → σ → Bool × σ) {node : FdtNode}
    (hnode : fdt.IsNode node) (acc : σ) :
    visitStaticNode fdt fuel addressCells sizeCells
        (fun region memoryType acc => .ok (visit region memoryType acc)) node acc
      = .ok (DeviceTree.visitStaticNode fdt addressCells sizeCells visit node acc) := by
  have htotal := hb.total
  have hstruct := hb.structureBlock
  unfold visitStaticNode DeviceTree.visitStaticNode
  rw [getProperty_eq hb hfuel hnode, ok_bind]
  cases hreg : fdt.getProperty node (ascii "reg") with
  | none => rfl
  | some reg =>
      have hlength := Fdt.getProperty_bounds hreg
      dsimp only
      rw [getProperty_eq hb hfuel hnode, ok_bind]
      exact (visitDecodedRegions_ok (fun _ => True) (fun _ _ _ => ⟨rfl, trivial⟩) (by omega) haddress
        hsize (by omega) trivial).1

theorem forEachStaticReservedMemoryRegion_ok (hb : fdt.Bounded) (hfuel : fdt.totalSize < fuel)
    {σ : Type} (visit : MemoryRegion → ReservedMemoryType → σ → Bool × σ) (acc : σ) :
    forEachStaticReservedMemoryRegion fdt fuel
        (fun region memoryType acc => .ok (visit region memoryType acc)) acc
      = .ok (DeviceTree.forEachStaticReservedMemoryRegion fdt visit acc) := by
  obtain ⟨hrun, hfound⟩ := findNode_ok hb hfuel (ascii "/reserved-memory")
  unfold forEachStaticReservedMemoryRegion DeviceTree.forEachStaticReservedMemoryRegion
  rw [rootNode_eq hb hfuel, ok_bind]
  cases hroot : fdt.rootNode with
  | none => rfl
  | some root =>
      have hrootNode : fdt.IsNode root := ⟨0, hroot⟩
      dsimp only
      rw [getPropertyU32_eq hb hfuel hrootNode, ok_bind, getPropertyU32_eq hb hfuel hrootNode, ok_bind,
        hrun, ok_bind]
      cases hreserved : fdt.findNode (ascii "/reserved-memory") with
      | none => rfl
      | some reservedNode =>
          have hnode := hfound reservedNode hreserved
          dsimp only
          rw [getPropertyU32_eq hb hfuel hnode, ok_bind, getPropertyU32_eq hb hfuel hnode, ok_bind]
          refine (forEachChild_ok hb hfuel (fun _ => True) ?_ hnode trivial).1
          intro child acc hchild _
          refine ⟨visitStaticNode_ok hb hfuel ?_ ?_ visit hchild acc, trivial⟩
          · exact cells_lt (cells_lt (by decide))
          · exact cells_lt (cells_lt (by decide))

end Queries

end Checked

/-- **The reader terminates and never panics.**  For every blob that `from_ptr`
    accepts, with every loop allowed more passes than the blob has bytes, each
    query returns, without an overflow or an index out of range, what the pure
    model says.  Nodes are those the reader returned; an output slice has at most
    as many slots as a `usize` counts. -/
theorem reader_total {base : Nat} {memory : Bytes} {fdt : Fdt}
    (h : Fdt.fromPtr base memory = .ok fdt) {fuel : Nat} (hfuel : fdt.totalSize < fuel) :
    Checked.rootNode fdt fuel = .ok fdt.rootNode
    ∧ (∀ path, Checked.findNode fdt fuel path = .ok (fdt.findNode path))
    ∧ (∀ {σ : Type} (visit : FdtNode → σ → Bool × σ) (parent : FdtNode) (acc : σ),
        fdt.IsNode parent →
        Checked.forEachChild fdt fuel parent (fun node acc => .ok (visit node acc)) acc
          = .ok (fdt.forEachChild parent visit acc))
    ∧ (∀ node name, fdt.IsNode node →
        Checked.getProperty fdt fuel node name = .ok (fdt.getProperty node name))
    ∧ (∀ index, Checked.reserveEntry fdt index = .ok (fdt.reserveEntry index))
    ∧ (∀ capacity < 2 ^ 64,
        Checked.memoryRegions fdt fuel capacity = .ok (memoryRegions fdt capacity)
        ∧ Checked.reservedRegions fdt fuel capacity = .ok (reservedRegions fdt capacity))
    ∧ ∀ {σ : Type} (visit : MemoryRegion → ReservedMemoryType → σ → Bool × σ) (acc : σ),
        Checked.forEachStaticReservedMemoryRegion fdt fuel
            (fun region memoryType acc => .ok (visit region memoryType acc)) acc
          = .ok (forEachStaticReservedMemoryRegion fdt visit acc) := by
  have hb := Fdt.bounded_of_fromPtr h
  refine ⟨Checked.rootNode_eq hb hfuel, ?_, ?_, ?_, Checked.reserveEntry_eq hb, ?_, ?_⟩
  · intro path
    exact (Checked.findNode_ok hb hfuel path).1
  · intro σ visit parent acc hparent
    exact Checked.forEachChild_eq hb hfuel visit hparent acc
  · intro node name hnode
    exact Checked.getProperty_eq hb hfuel hnode name
  · intro capacity hcapacity
    exact ⟨Checked.memoryRegions_eq hb hfuel hcapacity,
      Checked.reservedRegions_eq hb hfuel hcapacity⟩
  · intro σ visit acc
    exact Checked.forEachStaticReservedMemoryRegion_ok hb hfuel visit acc

/-- A root node that never ends, with a property of almost `2 ^ 32` bytes. -/
def truncatedFdt : Fdt where
  base           := 0x80008000
  totalSize      := 76
  reserveMap     := List.replicate 16 0 ++ (nodeHead [] [0, 0, 0] ++ (be32 fdtProp
    ++ be32 0xffffffff)) ++ ascii "reg" ++ [0]
  structureBlock := nodeHead [] [0, 0, 0] ++ (be32 fdtProp ++ be32 0xffffffff)
  strings        := ascii "reg" ++ [0]

/-- `from_ptr` accepts the truncated blob; its root node is not found, after finitely
    many passes. -/
theorem reader_total_truncated :
    Fdt.fromPtr 0x80008000 (assemble (List.replicate 16 0) truncatedFdt.structureBlock
      truncatedFdt.strings) = .ok truncatedFdt
    ∧ Checked.rootNode truncatedFdt 77 = .ok none
    ∧ Checked.memoryRegions truncatedFdt 77 4 = .ok [] := by
  have hfdt : Fdt.fromPtr 0x80008000 (assemble (List.replicate 16 0) truncatedFdt.structureBlock
      truncatedFdt.strings) = .ok truncatedFdt := by decide +kernel
  have hsize : truncatedFdt.totalSize < 77 := by decide
  obtain ⟨hroot, -, -, -, -, hregions, -⟩ := reader_total hfdt hsize
  refine ⟨hfdt, ?_, ?_⟩
  · rw [hroot]
    decide +kernel
  · rw [(hregions 4 (by decide)).1]
    decide +kernel

end RustFirmware.DeviceTree
