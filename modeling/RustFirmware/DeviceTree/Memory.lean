/-
  RustFirmware.DeviceTree.Memory
  ──────────────────────────────
  The memory queries of `src/dtb_memory.rs`.

  A scratch slice is its capacity and the regions collected so far: the model
  returns `output[..count]`.  What does not fit is DROPPED by the collecting
  functions, as in the source; the callback-driven walk over the static
  `/reserved-memory` ranges has no capacity.
-/
import RustFirmware.Lib.Visit
import RustFirmware.DeviceTree.Read
import RustFirmware.Memory.Types

namespace RustFirmware.DeviceTree

open RustFirmware.Lib
open RustFirmware.Memory (MemoryRegion EfiMemoryType)

/-- `ReservedMemoryType`. -/
inductive ReservedMemoryType where
  /-- The node has `no-map` and must remain reserved in the UEFI memory map. -/
  | reserved
  | bootServicesData
  deriving Repr, DecidableEq

/-- `reserved_memory_type_to_efi` of `src/memory.rs`. -/
def reservedMemoryTypeToEfi : ReservedMemoryType → EfiMemoryType
  | .reserved         => .reservedMemoryType
  | .bootServicesData => .bootServicesData

/-! ## §1. `reg` properties. -/

section Visit

variable {σ : Type}

/-- The loop of `visit_decoded_regions` over the entries from `index` on.  The
first component says whether the walk ran to the end. -/
def visitDecodedLoop (reg : Bytes) (addressCells sizeCells : Nat)
    (visit : MemoryRegion → σ → Bool × σ) : (fuel : Nat) → (index : Nat) → σ → Bool × σ
  | 0, _, acc => (true, acc)
  | fuel + 1, index, acc =>
      let stride := (addressCells + sizeCells) * 4
      if index + stride ≤ reg.length then
        let base := readCells ((reg.drop index).take (addressCells * 4)) addressCells
        let size := readCells ((reg.drop (index + addressCells * 4)).take
          (stride - addressCells * 4)) sizeCells
        match visit { base := base, size := size } acc with
        | (false, acc) => (false, acc)
        | (true, acc)  =>
            visitDecodedLoop reg addressCells sizeCells visit fuel (index + stride) acc
      else (true, acc)

def visitDecodedRegions (reg : Bytes) (addressCells sizeCells : Nat)
    (visit : MemoryRegion → σ → Bool × σ) (acc : σ) : Bool × σ :=
  -- entries of no cells would never end
  if (addressCells + sizeCells) * 4 = 0 then (true, acc)
  else visitDecodedLoop reg addressCells sizeCells visit (reg.length + 1) 0 acc

end Visit

/-- `decode_regions` into a slice with room for `capacity` regions. -/
def decodeRegions (reg : Bytes) (addressCells sizeCells capacity : Nat) : List MemoryRegion :=
  (visitDecodedRegions reg addressCells sizeCells
    (fun region output =>
      if output.length = capacity then (false, output) else (true, output ++ [region])) []).2

/-! ## §2. RAM and the reserve map. -/

/-- `name == "memory" || name.starts_with("memory@")`. -/
def isMemoryName (name : Bytes) : Bool :=
  name == ascii "memory" || (ascii "memory@").isPrefixOf name

/-- The callback of `memory_regions`; `output` is what has been collected. -/
def visitMemoryNode (fdt : Fdt) (addressCells sizeCells capacity : Nat) (node : FdtNode)
    (output : List MemoryRegion) : Bool × List MemoryRegion :=
  if output.length = capacity then (false, output)
  else if ¬ isMemoryName node.name then (true, output)
  -- a node without `device_type` counts as memory by its name
  else if (fdt.getPropertyString node (ascii "device_type")).any (· != ascii "memory") then
    (true, output)
  else
    match fdt.getProperty node (ascii "reg") with
    | none     => (true, output)
    | some reg =>
        (true, output ++ decodeRegions reg addressCells sizeCells (capacity - output.length))

/-- `get_property_u32(root, "#address-cells").unwrap_or(2)`. -/
def rootAddressCells (fdt : Fdt) (root : FdtNode) : Nat :=
  (fdt.getPropertyU32 root (ascii "#address-cells")).getD 2

/-- `get_property_u32(root, "#size-cells").unwrap_or(1)`. -/
def rootSizeCells (fdt : Fdt) (root : FdtNode) : Nat :=
  (fdt.getPropertyU32 root (ascii "#size-cells")).getD 1

/-- `memory_regions`: the `/memory` ranges, as many as the slice has room for. -/
def memoryRegions (fdt : Fdt) (capacity : Nat) : List MemoryRegion :=
  match fdt.rootNode with
  | none => []
  | some root =>
      fdt.forEachChild root
        (visitMemoryNode fdt (rootAddressCells fdt root) (rootSizeCells fdt root) capacity) []

/-- The loop of `reserve_map_regions`; `room` is what is left of the slice. -/
def reserveMapLoop (fdt : Fdt) : (room : Nat) → (count : Nat) → List MemoryRegion
  | 0, _ => []
  | room + 1, count =>
      match fdt.reserveEntry count with
      | none       => []
      | some entry =>
          { base := entry.address, size := entry.size } :: reserveMapLoop fdt room (count + 1)

/-- `reserve_map_regions`: the reserve map up to its end or the slice's. -/
def reserveMapRegions (fdt : Fdt) (capacity : Nat) : List MemoryRegion :=
  reserveMapLoop fdt capacity 0

/-! ## §3. Static reserved memory. -/

section Static

variable {σ : Type}

/-- The callback `for_each_static_reserved_memory_region` gives to
`for_each_child`. -/
def visitStaticNode (fdt : Fdt) (addressCells sizeCells : Nat)
    (visit : MemoryRegion → ReservedMemoryType → σ → Bool × σ) (node : FdtNode) (acc : σ) :
    Bool × σ :=
  match fdt.getProperty node (ascii "reg") with
  | none     => (true, acc)
  | some reg =>
      -- the presence of `no-map` decides, not its value
      let memoryType :=
        if (fdt.getProperty node (ascii "no-map")).isSome then ReservedMemoryType.reserved
        else .bootServicesData
      visitDecodedRegions reg addressCells sizeCells (fun region => visit region memoryType) acc

def forEachStaticReservedMemoryRegion (fdt : Fdt)
    (visit : MemoryRegion → ReservedMemoryType → σ → Bool × σ) (acc : σ) : σ :=
  match fdt.rootNode, fdt.findNode (ascii "/reserved-memory") with
  | some root, some reservedNode =>
      let addressCells := (fdt.getPropertyU32 reservedNode (ascii "#address-cells")).getD
        (rootAddressCells fdt root)
      let sizeCells := (fdt.getPropertyU32 reservedNode (ascii "#size-cells")).getD
        (rootSizeCells fdt root)
      fdt.forEachChild reservedNode (visitStaticNode fdt addressCells sizeCells visit) acc
  | _, _ => acc

end Static

/-- The callback of `reserved_memory_regions`. -/
def visitReservedNode (fdt : Fdt) (addressCells sizeCells capacity : Nat) (node : FdtNode)
    (output : List MemoryRegion) : Bool × List MemoryRegion :=
  if output.length = capacity then (false, output)
  else
    match fdt.getProperty node (ascii "reg") with
    | none     => (true, output)
    | some reg =>
        (true, output ++ decodeRegions reg addressCells sizeCells (capacity - output.length))

/-- `reserved_memory_regions`: unlike the static walk it keeps no classification. -/
def reservedMemoryRegions (fdt : Fdt) (rootAddressCells rootSizeCells capacity : Nat) :
    List MemoryRegion :=
  match fdt.findNode (ascii "/reserved-memory") with
  | none => []
  | some reservedNode =>
      fdt.forEachChild reservedNode
        (visitReservedNode fdt
          ((fdt.getPropertyU32 reservedNode (ascii "#address-cells")).getD rootAddressCells)
          ((fdt.getPropertyU32 reservedNode (ascii "#size-cells")).getD rootSizeCells) capacity) []

/-- `reserved_regions`: the reserve map, then `/reserved-memory`. -/
def reservedRegions (fdt : Fdt) (capacity : Nat) : List MemoryRegion :=
  match fdt.rootNode with
  | none => []
  | some root =>
      -- what the reserve map leaves of the slice is for `/reserved-memory`
      let mapped := reserveMapRegions fdt capacity
      if mapped.length < capacity then
        mapped ++ reservedMemoryRegions fdt (rootAddressCells fdt root) (rootSizeCells fdt root)
          (capacity - mapped.length)
      else mapped

/-! ## §4. The walks as lists.

A walk with a callback is `foldStop` over what it shows to a callback that
never stops. -/

/-- The direct children of `parent`, as far as the walk gets. -/
def Fdt.children (fdt : Fdt) (parent : FdtNode) : List FdtNode :=
  fdt.forEachChild parent gather []

/-- The regions a `reg` payload encodes. -/
def decodedRegions (reg : Bytes) (addressCells sizeCells : Nat) : List MemoryRegion :=
  (visitDecodedRegions reg addressCells sizeCells gather []).2

/-- The regions of one static child with their classification; a child without
    `reg` has none. -/
def staticNodeRegions (fdt : Fdt) (addressCells sizeCells : Nat) (node : FdtNode) :
    List (MemoryRegion × ReservedMemoryType) :=
  match fdt.getProperty node (ascii "reg") with
  | none     => []
  | some reg =>
      (decodedRegions reg addressCells sizeCells).map (fun region =>
        (region, if (fdt.getProperty node (ascii "no-map")).isSome then .reserved
                 else .bootServicesData))

/-- Every `reg` range of every static `/reserved-memory` child, in tree order. -/
def staticRegions (fdt : Fdt) : List (MemoryRegion × ReservedMemoryType) :=
  match fdt.rootNode, fdt.findNode (ascii "/reserved-memory") with
  | some root, some reservedNode =>
      (fdt.children reservedNode).flatMap (staticNodeRegions fdt
        ((fdt.getPropertyU32 reservedNode (ascii "#address-cells")).getD
          (rootAddressCells fdt root))
        ((fdt.getPropertyU32 reservedNode (ascii "#size-cells")).getD (rootSizeCells fdt root)))
  | _, _ => []

section Lists

variable {σ : Type}

/-- What has been gathered stays in front. -/
theorem forEachChildLoop_gather (fdt : Fdt) (parentEnd fuel offset : Nat) (seen : List FdtNode) :
    fdt.forEachChildLoop parentEnd gather fuel offset seen
      = seen ++ fdt.forEachChildLoop parentEnd gather fuel offset [] := by
  induction fuel generalizing offset seen with
  | zero => simp [Fdt.forEachChildLoop]
  | succ fuel ih =>
      unfold Fdt.forEachChildLoop
      split
      · cases fdt.readToken offset with
        | none => simp
        | some token =>
            dsimp only
            split
            · cases fdt.afterProperty offset with
              | none => simp
              | some next => exact ih next seen
            · split
              · exact ih (offset + 4) seen
              · split
                · cases fdt.nodeAtOffset offset with
                  | none => simp
                  | some child =>
                      dsimp only [gather]
                      rw [ih, ih _ ([] ++ [child])]
                      simp
                · simp
      · simp

/-- The loop of `for_each_child` shows its callback one child after the other. -/
theorem forEachChildLoop_eq (fdt : Fdt) (parentEnd : Nat) (visit : FdtNode → σ → Bool × σ)
    (fuel offset : Nat) (acc : σ) :
    fdt.forEachChildLoop parentEnd visit fuel offset acc
      = (foldStop visit (fdt.forEachChildLoop parentEnd gather fuel offset []) acc).2 := by
  induction fuel generalizing offset acc with
  | zero => rfl
  | succ fuel ih =>
      unfold Fdt.forEachChildLoop
      split
      · cases fdt.readToken offset with
        | none => rfl
        | some token =>
            dsimp only
            split
            · cases fdt.afterProperty offset with
              | none => rfl
              | some next => exact ih next acc
            · split
              · exact ih (offset + 4) acc
              · split
                · cases fdt.nodeAtOffset offset with
                  | none => rfl
                  | some child =>
                      show _ = (foldStop visit (fdt.forEachChildLoop parentEnd gather fuel
                        (child.endOffset + 4) ([] ++ [child])) acc).2
                      rw [forEachChildLoop_gather, List.nil_append, List.singleton_append, foldStop]
                      dsimp only
                      cases visit child acc with
                      | mk go acc' =>
                          cases go with
                          | false => rfl
                          | true => exact ih _ acc'
                · rfl
      · rfl

theorem forEachChild_eq (fdt : Fdt) (parent : FdtNode) (visit : FdtNode → σ → Bool × σ)
    (acc : σ) :
    fdt.forEachChild parent visit acc = (foldStop visit (fdt.children parent) acc).2 := by
  unfold Fdt.children Fdt.forEachChild
  cases fdt.afterBeginNode parent.beginOffset with
  | none => rfl
  | some offset => exact forEachChildLoop_eq fdt parent.endOffset visit _ offset acc

theorem visitDecodedLoop_gather (reg : Bytes) (addressCells sizeCells fuel index : Nat)
    (seen : List MemoryRegion) :
    visitDecodedLoop reg addressCells sizeCells gather fuel index seen
      = (true, seen ++ (visitDecodedLoop reg addressCells sizeCells gather fuel index []).2) := by
  induction fuel generalizing index seen with
  | zero => simp [visitDecodedLoop]
  | succ fuel ih =>
      unfold visitDecodedLoop
      dsimp only [gather]
      split
      · rw [ih, ih _ ([] ++ _)]
        simp
      · simp

/-- The loop over a `reg` payload shows its callback one region after the other. -/
theorem visitDecodedLoop_eq (reg : Bytes) (addressCells sizeCells : Nat)
    (visit : MemoryRegion → σ → Bool × σ) (fuel index : Nat) (acc : σ) :
    visitDecodedLoop reg addressCells sizeCells visit fuel index acc
      = foldStop visit (visitDecodedLoop reg addressCells sizeCells gather fuel index []).2 acc := by
  induction fuel generalizing index acc with
  | zero => rfl
  | succ fuel ih =>
      unfold visitDecodedLoop
      dsimp only [gather]
      split
      · rw [visitDecodedLoop_gather, List.nil_append, List.singleton_append, foldStop]
        cases visit _ acc with
        | mk go acc' =>
            cases go with
            | false => rfl
            | true => exact ih _ acc'
      · rfl

theorem visitDecodedRegions_eq (reg : Bytes) (addressCells sizeCells : Nat)
    (visit : MemoryRegion → σ → Bool × σ) (acc : σ) :
    visitDecodedRegions reg addressCells sizeCells visit acc
      = foldStop visit (decodedRegions reg addressCells sizeCells) acc := by
  unfold decodedRegions visitDecodedRegions
  split
  · rfl
  · exact visitDecodedLoop_eq reg addressCells sizeCells visit _ 0 acc

/-- **The static walk is a loop over `staticRegions`**, whatever the callback
    does. -/
theorem forEachStaticReservedMemoryRegion_eq (fdt : Fdt)
    (visit : MemoryRegion → ReservedMemoryType → σ → Bool × σ) (acc : σ) :
    forEachStaticReservedMemoryRegion fdt visit acc
      = (foldStop (fun r acc => visit r.1 r.2 acc) (staticRegions fdt) acc).2 := by
  unfold forEachStaticReservedMemoryRegion staticRegions
  cases fdt.rootNode with
  | none => rfl
  | some root =>
      cases fdt.findNode (ascii "/reserved-memory") with
      | none => rfl
      | some reservedNode =>
          dsimp only
          rw [forEachChild_eq, ← foldStop_flatMap]
          congr 2
          funext node acc
          unfold visitStaticNode staticNodeRegions
          cases fdt.getProperty node (ascii "reg") with
          | none => rfl
          | some reg =>
              dsimp only
              rw [visitDecodedRegions_eq, foldStop_map]

end Lists

end RustFirmware.DeviceTree
