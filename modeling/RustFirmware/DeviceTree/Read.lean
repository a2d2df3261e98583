/-
  RustFirmware.DeviceTree.Read
  ────────────────────────────
  **THE FLATTENED DEVICE-TREE READER OF `src/dtb_read.rs`, FUNCTION BY FUNCTION.**

  A `&str` is its UTF-8 bytes.  Offsets are natural numbers: a blob is shorter
  than `2 ^ 32` bytes and every offset the reader forms stays below
  `2 ^ 34`, so the `checked_add`s on `usize` never fail.

  A callback that captures state is a function `FdtNode → σ → Bool × σ`: the
  answer ("go on") and the new state.  Each loop reads a token at its offset and
  moves on by at least four bytes, so one more pass than the block has bytes
  is always enough (`loopBound`).
-/
import RustFirmware.Lib.Word
import RustFirmware.Lib.Bytes

namespace RustFirmware.DeviceTree

open RustFirmware.Lib

/-! ## §1. Constants and records. -/

def fdtHeaderSize : Nat := 40
def fdtMagic : Nat := 0xd00dfeed
def fdtBeginNode : Nat := 1
def fdtEndNode : Nat := 2
def fdtProp : Nat := 3
def fdtNop : Nat := 4
def fdtEnd : Nat := 9

/-- `FdtError`. -/
inductive FdtError where
  | nullPointer
  | misalignedPointer
  | badMagic
  | truncated
  | unsupportedVersion
  | invalidHeader
  deriving Repr, DecidableEq

/-- `FdtNode`: the name, and the offsets of its begin and end tokens. -/
structure FdtNode where
  name        : Bytes
  beginOffset : Nat
  endOffset   : Nat
  deriving Repr, DecidableEq

/-- `FdtReserveEntry`. -/
structure FdtReserveEntry where
  address : Nat
  size    : Nat
  deriving Repr, DecidableEq

/-- `Fdt`: the three sections of a validated blob. -/
structure Fdt where
  base           : Nat
  totalSize      : Nat
  reserveMap     : Bytes
  structureBlock : Bytes
  strings        : Bytes
  deriving Repr, DecidableEq

/-- `align4`: `(value + 3) & !3`. -/
def align4 (value : Nat) : Nat := (value + 3) / 4 * 4

def validateDtbPointer (base : Nat) : Except FdtError Unit :=
  if base = 0 then .error .nullPointer
  else if base % 8 ≠ 0 then .error .misalignedPointer
  else .ok ()

namespace Fdt

/-- `Fdt::from_ptr`: `memory` is what can be read from address `base` on.  The
caller promises that this is the whole blob. -/
def fromPtr (base : Nat) (memory : Bytes) : Except FdtError Fdt := do
  validateDtbPointer base
  let magic ← okOr (readBe32 memory 0) .truncated
  if magic ≠ fdtMagic then .error .badMagic
  else
    let totalSize ← okOr (readBe32 memory 4) .truncated
    let offDtStruct ← okOr (readBe32 memory 8) .truncated
    let offDtStrings ← okOr (readBe32 memory 12) .truncated
    let offMemRsvmap ← okOr (readBe32 memory 16) .truncated
    let version ← okOr (readBe32 memory 20) .truncated
    let sizeDtStrings ← okOr (readBe32 memory 32) .truncated
    let sizeDtStruct ← okOr (readBe32 memory 36) .truncated
    if version < 17 then .error .unsupportedVersion
    else if totalSize < fdtHeaderSize then .error .invalidHeader
    else if offMemRsvmap > totalSize then .error .truncated
    -- each block for itself: they may overlap, and stand in any order
    else if offDtStruct < fdtHeaderSize ∨ offDtStruct + sizeDtStruct > totalSize
        ∨ offDtStrings < fdtHeaderSize ∨ offDtStrings + sizeDtStrings > totalSize then
      .error .invalidHeader
    else
      let blob := memory.take totalSize
      .ok { base := base, totalSize := totalSize,
            reserveMap := blob.drop offMemRsvmap,
            structureBlock := (blob.drop offDtStruct).take sizeDtStruct,
            strings := (blob.drop offDtStrings).take sizeDtStrings }

/-! ## §2. Tokens and records. -/

def readToken (fdt : Fdt) (offset : Nat) : Option Nat := readBe32 fdt.structureBlock offset

/-- `string_at`: the NUL-terminated string at `offset` of the strings block. -/
def stringAt (fdt : Fdt) (offset : Nat) : Option Bytes := do
  let bytes ← slice? fdt.strings offset fdt.strings.length
  let stop ← nulPosition bytes
  fromUtf8 (bytes.take stop)

/-- `read_c_string`: the string at `offset` and the offset after its NUL. -/
def readCString (bytes : Bytes) (offset : Nat) : Option (Bytes × Nat) := do
  let rest ← slice? bytes offset bytes.length
  let stop ← nulPosition rest
  let name ← fromUtf8 (rest.take stop)
  some (name, offset + stop + 1)

def afterBeginNode (fdt : Fdt) (beginOffset : Nat) : Option Nat := do
  let token ← fdt.readToken beginOffset
  if token ≠ fdtBeginNode then none
  else
    let (_, nextOffset) ← readCString fdt.structureBlock (beginOffset + 4)
    some (align4 nextOffset)

def afterProperty (fdt : Fdt) (propertyOffset : Nat) : Option Nat := do
  let length ← fdt.readToken (propertyOffset + 4)
  let _ ← slice? fdt.structureBlock (propertyOffset + 12) (propertyOffset + 12 + length)
  some (align4 (propertyOffset + 12 + length))

/-- More passes than a loop over the structure block can make. -/
def loopBound (fdt : Fdt) : Nat := fdt.structureBlock.length + 1

/-- The loop of `node_end_offset`, at one offset and nesting depth. -/
def nodeEndLoop (fdt : Fdt) : (fuel : Nat) → (offset depth : Nat) → Option Nat
  | 0, _, _ => none
  | fuel + 1, offset, depth =>
      match fdt.readToken offset with
      | none => none
      | some token =>
          if token = fdtBeginNode then
            match fdt.afterBeginNode offset with
            | none      => none
            | some next => nodeEndLoop fdt fuel next (depth + 1)
          else if token = fdtEndNode then
            -- an end token without its begin token
            if depth = 0 then none
            -- the token that closes the node the walk started at
            else if depth - 1 = 0 then some offset
            else nodeEndLoop fdt fuel (offset + 4) (depth - 1)
          else if token = fdtProp then
            match fdt.afterProperty offset with
            | none      => none
            | some next => nodeEndLoop fdt fuel next depth
          else if token = fdtNop then nodeEndLoop fdt fuel (offset + 4) depth
          else none

def nodeEndOffset (fdt : Fdt) (beginOffset : Nat) : Option Nat :=
  nodeEndLoop fdt fdt.loopBound beginOffset 0

def nodeAtOffset (fdt : Fdt) (offset : Nat) : Option FdtNode := do
  let token ← fdt.readToken offset
  if token ≠ fdtBeginNode then none
  else
    let (name, _) ← readCString fdt.structureBlock (offset + 4)
    let endOffset ← fdt.nodeEndOffset offset
    some { name := name, beginOffset := offset, endOffset := endOffset }

def rootNode (fdt : Fdt) : Option FdtNode := fdt.nodeAtOffset 0

/-! ## §3. Children and paths. -/

section Visit

variable {σ : Type}

/-- The loop of `for_each_child` up to the parent's end token. -/
def forEachChildLoop (fdt : Fdt) (parentEnd : Nat) (visit : FdtNode → σ → Bool × σ) :
    (fuel : Nat) → (offset : Nat) → σ → σ
  | 0, _, acc => acc
  | fuel + 1, offset, acc =>
      if offset < parentEnd then
        match fdt.readToken offset with
        | none => acc
        | some token =>
            if token = fdtProp then
              match fdt.afterProperty offset with
              | none      => acc
              | some next => forEachChildLoop fdt parentEnd visit fuel next acc
            else if token = fdtNop then
              forEachChildLoop fdt parentEnd visit fuel (offset + 4) acc
            else if token = fdtBeginNode then
              match fdt.nodeAtOffset offset with
              | none => acc
              | some child =>
                  match visit child acc with
                  | (false, acc) => acc
                  | (true, acc)  =>
                      -- behind the child's end token: its own children are not shown
                      forEachChildLoop fdt parentEnd visit fuel (child.endOffset + 4) acc
            else acc
      else acc

def forEachChild (fdt : Fdt) (parent : FdtNode) (visit : FdtNode → σ → Bool × σ) (acc : σ) : σ :=
  match fdt.afterBeginNode parent.beginOffset with
  | none        => acc
  | some offset => forEachChildLoop fdt parent.endOffset visit fdt.loopBound offset acc

end Visit

def findChild (fdt : Fdt) (parent : FdtNode) (name : Bytes) : Option FdtNode :=
  fdt.forEachChild parent
    (fun child result => if child.name = name then (false, some child) else (true, result)) none

/-- The component loop of `find_node`. -/
def descend (fdt : Fdt) : FdtNode → List Bytes → Option FdtNode
  | node, [] => some node
  | node, component :: components =>
      if component = [] then none
      else
        match fdt.findChild node component with
        | none       => none
        | some child => descend fdt child components

/-- `path.split('/')`. -/
def splitPath (path : Bytes) : List Bytes := path.splitOn 0x2f

def findNode (fdt : Fdt) (path : Bytes) : Option FdtNode :=
  -- `/` splits into two empty parts and would not be followed
  if path = ascii "/" then fdt.rootNode
  else
    match splitPath path with
    | [] => none
    | first :: components =>
        if first ≠ [] then none
        else
          match fdt.rootNode with
          | none      => none
          | some root => fdt.descend root components

/-! ## §4. Properties and the reserve map. -/

/-- The loop of `get_property` up to the node's end token. -/
def getPropertyLoop (fdt : Fdt) (nodeEnd : Nat) (propertyName : Bytes) :
    (fuel : Nat) → (offset : Nat) → Option Bytes
  | 0, _ => none
  | fuel + 1, offset =>
      if offset < nodeEnd then
        match fdt.readToken offset with
        | none => none
        | some token =>
            if token = fdtProp then
              match fdt.readToken (offset + 4), fdt.readToken (offset + 8) with
              | some valueLength, some nameOffset =>
                  match fdt.stringAt nameOffset with
                  | none => none
                  | some name =>
                      if name = propertyName then
                        slice? fdt.structureBlock (offset + 12) (offset + 12 + valueLength)
                      else
                        getPropertyLoop fdt nodeEnd propertyName fuel
                          (align4 (offset + 12 + valueLength))
              | _, _ => none
            else if token = fdtNop then
              getPropertyLoop fdt nodeEnd propertyName fuel (offset + 4)
            else none
      else none

def getProperty (fdt : Fdt) (node : FdtNode) (propertyName : Bytes) : Option Bytes :=
  match fdt.afterBeginNode node.beginOffset with
  | none        => none
  | some offset => getPropertyLoop fdt node.endOffset propertyName fdt.loopBound offset

def getPropertyU32 (fdt : Fdt) (node : FdtNode) (propertyName : Bytes) : Option Nat := do
  let property ← fdt.getProperty node propertyName
  readBe32 property 0

def getPropertyString (fdt : Fdt) (node : FdtNode) (propertyName : Bytes) : Option Bytes := do
  let property ← fdt.getProperty node propertyName
  let stop ← nulPosition property
  fromUtf8 (property.take stop)

/-- `reserve_entry`: the entry at `index`, unless the map has ended before it. -/
def reserveEntry (fdt : Fdt) (index : Nat) : Option FdtReserveEntry := do
  let offset ← checkedMul 64 index 16
  let address ← readBe64 fdt.reserveMap offset
  let size ← readBe64 fdt.reserveMap (offset + 8)
  -- the terminator ends the map
  if address = 0 ∧ size = 0 then none else some { address := address, size := size }

end Fdt

/-- The loop of `read_cells`: `cells` words from word `index` on, shifted into a
`u64`. -/
def readCellsLoop (bytes : Bytes) (value : Nat) : (index : Nat) → (cells : Nat) → Nat
  | _, 0 => value
  | index, cells + 1 =>
      readCellsLoop bytes
        ((value <<< 32) % 2 ^ 64 ||| (readBe32 bytes (index * 4)).getD 0) (index + 1) cells

def readCells (bytes : Bytes) (cells : Nat) : Nat := readCellsLoop bytes 0 0 cells

end RustFirmware.DeviceTree
