/-
  RustFirmware.DeviceTree.Write
  ─────────────────────────────
  **THE IN-PLACE DEVICE-TREE EDITOR OF `src/dtb_write.rs`, FUNCTION BY FUNCTION.**

  A `Dtb` is an address, the bytes of the allocation behind it and its size.  A
  method is a function from the `Dtb` to its result and the `Dtb` it leaves
  behind; an error path keeps the writes made before it, as in the source (a
  property name may have been appended although no room was left for the
  record).

  Header fields are read from and written to the blob itself.
-/
import RustFirmware.DeviceTree.Read
import RustFirmware.Memory.Allocator

namespace RustFirmware.DeviceTree

open RustFirmware.Lib
open RustFirmware.Memory (PageAllocator MemoryError EfiAllocateType EfiMemoryType efiPageSize)

/-! ## §1. The editor's state. -/

/-- `DtbError`. -/
inductive DtbError where
  | invalidCloneSize
  | sizeOverflow
  | bufferTooSmall
  | invalidPath
  | nodeNotFound
  | badStructure
  | memory (error : MemoryError)
  | fdt (error : FdtError)
  deriving Repr, DecidableEq

/-- `Dtb`: where the blob is, its bytes, and how many there are. -/
structure Dtb where
  pointer : Nat
  blob    : Bytes
  size    : Nat
  deriving Repr, DecidableEq

/-- `PropertyLocation`. -/
structure PropertyLocation where
  propertyOffset : Nat
  totalLength    : Nat
  deriving Repr, DecidableEq

/-- A method: its result and what it leaves of the `Dtb`, also on an error. -/
def DtbM (α : Type) : Type := Dtb → Except DtbError α × Dtb

instance : Monad DtbM where
  pure a := fun d => (.ok a, d)
  bind x f := fun d =>
    match x d with
    | (.ok a, d)    => f a d
    | (.error e, d) => (.error e, d)

namespace DtbM

variable {α β : Type}

/-- `Err(e)`. -/
def throw (e : DtbError) : DtbM α := fun d => (.error e, d)

/-- A query that does not change the blob. -/
def read (f : Dtb → Except DtbError α) : DtbM α := fun d => (f d, d)

/-- `value.ok_or(e)?`. -/
def orThrow (value : Option α) (e : DtbError) : DtbM α :=
  match value with
  | some a => pure a
  | none   => throw e

/-- A sequence whose first step succeeds. -/
theorem bind_of_ok {x : DtbM α} {f : α → DtbM β} {d d' : Dtb} {a : α} (h : x d = (.ok a, d')) :
    (x >>= f) d = f a d' := by
  show (match x d with
    | (.ok a, d)    => f a d
    | (.error e, d) => (.error e, d)) = _
  rw [h]

/-- A sequence whose first step fails. -/
theorem bind_of_error {x : DtbM α} {f : α → DtbM β} {d d' : Dtb} {e : DtbError}
    (h : x d = (.error e, d')) : (x >>= f) d = (.error e, d') := by
  show (match x d with
    | (.ok a, d)    => f a d
    | (.error e, d) => (.error e, d)) = _
  rw [h]

end DtbM

namespace Dtb

/-- A header field, read where `header()` finds it. -/
def headerWord (d : Dtb) (offset : Nat) : Nat := (readBe32 d.blob offset).getD 0

def totalSizeField (d : Dtb) : Nat := d.headerWord 4
def offDtStruct (d : Dtb) : Nat := d.headerWord 8
def offDtStrings (d : Dtb) : Nat := d.headerWord 12
def sizeDtStrings (d : Dtb) : Nat := d.headerWord 32
def sizeDtStruct (d : Dtb) : Nat := d.headerWord 36

/-- Write raw bytes into the blob. -/
def writeBytes (offset : Nat) (bytes : Bytes) : DtbM Unit := fun d =>
  (.ok (), { d with blob := overwrite d.blob offset bytes })

/-- `ptr::copy` inside the blob. -/
def copyWithin (src dst count : Nat) : DtbM Unit := fun d =>
  (.ok (), { d with blob := moveBytes d.blob src dst count })

def setOffDtStrings (offset : Nat) : DtbM Unit := writeBytes 12 (be32 offset)
def setSizeDtStrings (size : Nat) : DtbM Unit := writeBytes 32 (be32 size)
def setSizeDtStruct (size : Nat) : DtbM Unit := writeBytes 36 (be32 size)

/-- `Dtb::from_ptr`. -/
def fromPtr (pointer : Nat) (memory : Bytes) : Except DtbError Dtb :=
  match Fdt.fromPtr pointer memory with
  | .error e => .error (.fdt e)
  | .ok fdt  => .ok { pointer := pointer, blob := memory.take fdt.totalSize, size := fdt.totalSize }

/-- `Dtb::clone`: copy into fresh pages, zero the rest, raise `totalsize`. -/
def clone (d : Dtb) (newSize : Nat) (allocator : PageAllocator) :
    Except DtbError Dtb × PageAllocator :=
  let headerTotalSize := d.totalSizeField
  if newSize ≤ headerTotalSize then (.error .invalidCloneSize, allocator)
  else
    let pageCount := (newSize + (efiPageSize - 1)) / efiPageSize
    match checkedMul 64 pageCount efiPageSize with
    | none => (.error .sizeOverflow, allocator)
    | some allocatedSize =>
        if ¬ allocatedSize < 2 ^ 32 then (.error .sizeOverflow, allocator)
        else
          match allocator.allocatePages .allocateAnyPages .acpiReclaimMemory pageCount 0 with
          | (.error e, _, allocator) => (.error (.memory e), allocator)
          | (.ok (), physicalStart, allocator) =>
              let copied := d.blob.take headerTotalSize
                ++ List.replicate (allocatedSize - headerTotalSize) 0
              (.ok { pointer := physicalStart, blob := overwrite copied 4 (be32 allocatedSize),
                     size := allocatedSize }, allocator)

/-! ## §2. Raw edits of the blob. -/

def insertBytes (offset : Nat) (bytes : Bytes) : DtbM Nat := do
  let stop ← DtbM.orThrow (checkedAdd 64 offset bytes.length) .sizeOverflow
  let size ← DtbM.read (fun d => .ok d.size)
  if stop > size then DtbM.throw .bufferTooSmall
  else
    writeBytes offset bytes
    pure stop

def insertU32 (offset value : Nat) : DtbM Nat := insertBytes offset (be32 value)

def ensureRange (offset length : Nat) : DtbM Unit := do
  let stop ← DtbM.orThrow (checkedAdd 64 offset length) .sizeOverflow
  let size ← DtbM.read (fun d => .ok d.size)
  if stop > size then DtbM.throw .bufferTooSmall else pure ()

def structureEndOffset (d : Dtb) : Nat := d.offDtStruct + d.sizeDtStruct
def structureOffsetInBlob (d : Dtb) (offset : Nat) : Nat := d.offDtStruct + offset
def usedBlobEndOffset (d : Dtb) : Nat := d.offDtStrings + d.sizeDtStrings

/-- `property_record_length`. -/
def propertyRecordLength (valueLength : Nat) : Except DtbError Nat :=
  okOr (checkedAdd 64 12 (align4 valueLength)) .sizeOverflow

/-- `u32::checked_add_signed`. -/
def checkedAddSigned (value : Nat) (delta : Int) : Option Nat :=
  if 0 ≤ (value : Int) + delta ∧ (value : Int) + delta < 2 ^ 32 then
    some ((value : Int) + delta).toNat
  else none

/-- `splice_struct_placeholder`: make `oldLen` bytes at `offset` into `newLen`
    zero bytes; everything behind them, strings included, moves. -/
def spliceStructPlaceholder (offset oldLen newLen : Nat) : DtbM Unit := do
  let usedEnd ← DtbM.read (fun d => .ok d.usedBlobEndOffset)
  let structStart ← DtbM.read (fun d => .ok d.offDtStruct)
  let structEnd ← DtbM.read (fun d => .ok d.structureEndOffset)
  if offset < structStart ∨ offset > structEnd then DtbM.throw .badStructure
  else
    let oldEnd ← DtbM.orThrow (checkedAdd 64 offset oldLen) .sizeOverflow
    if oldEnd > structEnd then DtbM.throw .badStructure
    else
      let resultingUsedEnd ← DtbM.orThrow
        ((checkedSub usedEnd oldLen).bind (fun value => checkedAdd 64 value newLen)) .sizeOverflow
      let size ← DtbM.read (fun d => .ok d.size)
      if resultingUsedEnd > size then DtbM.throw .bufferTooSmall
      else
        -- from here on the blob has changed, and the header is still the old one
        copyWithin (offset + oldLen) (offset + newLen) (usedEnd - (offset + oldLen))
        writeBytes offset (List.replicate newLen 0)
        -- `i32::try_from(delta)` comes behind the move
        let delta : Int := (newLen : Int) - oldLen
        if ¬ (-(2 ^ 31) ≤ delta ∧ delta < 2 ^ 31) then DtbM.throw .sizeOverflow
        else
          let sizeDtStruct ← DtbM.read (fun d => .ok d.sizeDtStruct)
          let newSize ← DtbM.orThrow (checkedAddSigned sizeDtStruct delta) .sizeOverflow
          setSizeDtStruct newSize
          let offDtStrings ← DtbM.read (fun d => .ok d.offDtStrings)
          let newOffset ← DtbM.orThrow (checkedAddSigned offDtStrings delta) .sizeOverflow
          setOffDtStrings newOffset

def spliceStruct (offset oldLen : Nat) (newBytes : Bytes) : DtbM Unit := do
  spliceStructPlaceholder offset oldLen newBytes.length
  writeBytes offset newBytes

/-! ## §3. The strings block. -/

/-- The inner loop of `find_or_add_string`: the first NUL among `room` bytes from
    `cursor` on. -/
def nulBefore (bytes : Bytes) : (room : Nat) → (cursor : Nat) → Option Nat
  | 0, _ => none
  | room + 1, cursor =>
      if bytes.getD cursor 0 = 0 then some cursor else nulBefore bytes room (cursor + 1)

/-- The outer loop of `find_or_add_string`: the offset of `name` among the strings
    from `offset` on. -/
def findString (bytes : Bytes) (stringsStart stringsSize : Nat) (name : Bytes) :
    (fuel : Nat) → (offset : Nat) → Except DtbError (Option Nat)
  | 0, _ => .ok none
  | fuel + 1, offset =>
      if offset < stringsSize then
        match nulBefore bytes (stringsSize - offset) (stringsStart + offset) with
        -- a last string without a NUL is an error, not the end of the search
        | none => .error .badStructure
        | some cursor =>
            match fromUtf8 ((bytes.drop (stringsStart + offset)).take
                (cursor - (stringsStart + offset))) with
            | none => .error .badStructure
            | some existing =>
                if existing = name then .ok (some offset)
                else findString bytes stringsStart stringsSize name fuel
                  (cursor - stringsStart + 1)
      else .ok none

/-- `u32::try_from(value)`. -/
def u32OrOverflow (value : Nat) : Option Nat := if value < 2 ^ 32 then some value else none

def findOrAddString (name : Bytes) : DtbM Nat := do
  let stringsStart ← DtbM.read (fun d => .ok d.offDtStrings)
  let stringsSize ← DtbM.read (fun d => .ok d.sizeDtStrings)
  let found ← DtbM.read (fun d =>
    findString (d.blob.take d.size) stringsStart stringsSize name (stringsSize + 1) 0)
  match found with
  | some offset => DtbM.orThrow (u32OrOverflow offset) .sizeOverflow
  | none =>
      let absoluteOffset ← DtbM.read (fun d => .ok d.usedBlobEndOffset)
      -- name and NUL are checked together, so that none of them is written alone
      ensureRange absoluteOffset (name.length + 1)
      let _ ← insertBytes absoluteOffset name
      let _ ← insertBytes (absoluteOffset + name.length) [0]
      let newSize ← DtbM.orThrow (u32OrOverflow (stringsSize + (name.length + 1))) .sizeOverflow
      setSizeDtStrings newSize
      DtbM.orThrow (u32OrOverflow stringsSize) .sizeOverflow

/-! ## §4. Properties. -/

/-- `fdt_view`. -/
def fdtView (d : Dtb) : Except DtbError Fdt :=
  match Fdt.fromPtr d.pointer d.blob with
  | .ok fdt  => .ok fdt
  | .error e => .error (.fdt e)

/-- `find_node_location`. -/
def findNodeLocation (d : Dtb) (path : Bytes) : Except DtbError (Nat × Nat) := do
  if path = ascii "/" then
    let fdt ← d.fdtView
    let root ← okOr fdt.rootNode .badStructure
    .ok (root.beginOffset, root.endOffset)
  else
    match Fdt.splitPath path with
    | [] => .error .invalidPath
    | first :: components =>
        if first ≠ [] then .error .invalidPath
        -- unlike in `create_node`, all components are checked before any is looked up
        else if components.any (fun component => component.isEmpty) then .error .invalidPath
        else
          let fdt ← d.fdtView
          let node ← okOr (fdt.findNode path) .nodeNotFound
          .ok (node.beginOffset, node.endOffset)

/-- The loop of `find_direct_property`; `structStart` turns a structure offset
    into one of the blob. -/
def findPropertyLoop (fdt : Fdt) (structStart nodeEnd : Nat) (propertyName : Bytes) :
    (fuel : Nat) → (offset : Nat) → Except DtbError (Option PropertyLocation)
  | 0, _ => .ok none
  | fuel + 1, offset =>
      if offset < nodeEnd then
        match fdt.readToken offset with
        | none => .error .badStructure
        | some token =>
            if token = fdtProp then
              match fdt.readToken (offset + 4), fdt.readToken (offset + 8) with
              | some valueLength, some nameOffset =>
                  match propertyRecordLength valueLength with
                  | .error e => .error e
                  | .ok totalLength =>
                      match fdt.stringAt nameOffset with
                      | none => .error .badStructure
                      | some name =>
                          -- the padding belongs to the record that is replaced
                          if name = propertyName then
                            .ok (some { propertyOffset := structStart + offset,
                                        totalLength := totalLength })
                          else
                            findPropertyLoop fdt structStart nodeEnd propertyName fuel
                              (offset + totalLength)
              | _, _ => .error .badStructure
            else if token = fdtNop then
              findPropertyLoop fdt structStart nodeEnd propertyName fuel (offset + 4)
            else if token = fdtBeginNode ∨ token = fdtEndNode then .ok none
            else .error .badStructure
      else .ok none

def findDirectProperty (d : Dtb) (node : Nat × Nat) (propertyName : Bytes) :
    Except DtbError (Option PropertyLocation) := do
  let fdt ← d.fdtView
  let offset ← okOr (fdt.afterBeginNode node.1) .badStructure
  findPropertyLoop fdt d.offDtStruct node.2 propertyName fdt.loopBound offset

/-- The loop of `property_insertion_offset`. -/
def insertionLoop (fdt : Fdt) (nodeEnd : Nat) :
    (fuel : Nat) → (offset : Nat) → Except DtbError Nat
  | 0, _ => .ok nodeEnd
  | fuel + 1, offset =>
      if offset < nodeEnd then
        match fdt.readToken offset with
        | none => .error .badStructure
        | some token =>
            if token = fdtProp then
              match fdt.afterProperty offset with
              | none      => .error .badStructure
              | some next => insertionLoop fdt nodeEnd fuel next
            else if token = fdtNop then insertionLoop fdt nodeEnd fuel (offset + 4)
            else if token = fdtBeginNode ∨ token = fdtEndNode then .ok offset
            else .error .badStructure
      else .ok nodeEnd

def propertyInsertionOffset (d : Dtb) (node : Nat × Nat) : Except DtbError Nat := do
  let fdt ← d.fdtView
  let offset ← okOr (fdt.afterBeginNode node.1) .badStructure
  -- a node without contents
  if offset = node.2 then .ok (d.structureOffsetInBlob node.2)
  else
    let insertion ← insertionLoop fdt node.2 fdt.loopBound offset
    .ok (d.structureOffsetInBlob insertion)

def preparePropertyRecord (node : Nat × Nat) (propertyName : Bytes) (valueLength : Nat) :
    DtbM Nat := do
  let existing ← DtbM.read (fun d => d.findDirectProperty node propertyName)
  match existing with
  | some existing =>
      let recordLength ← DtbM.read (fun _ => propertyRecordLength valueLength)
      spliceStructPlaceholder existing.propertyOffset existing.totalLength recordLength
      pure existing.propertyOffset
  | none =>
      let insertionOffset ← DtbM.read (fun d => d.propertyInsertionOffset node)
      let recordLength ← DtbM.read (fun _ => propertyRecordLength valueLength)
      spliceStructPlaceholder insertionOffset 0 recordLength
      pure insertionOffset

def zeroPropertyPadding (propertyOffset valueLength : Nat) : DtbM Unit :=
  let padding := align4 valueLength - valueLength
  if padding = 0 then pure ()
  else do
    ensureRange (propertyOffset + 12 + valueLength) padding
    writeBytes (propertyOffset + 12 + valueLength) (List.replicate padding 0)

/-- `set_property_bytes`. -/
def setPropertyBytes (nodePath propertyName value : Bytes) : DtbM Unit := do
  let node ← DtbM.read (fun d => d.findNodeLocation nodePath)
  let nameOffset ← findOrAddString propertyName
  let recordOffset ← preparePropertyRecord node propertyName value.length
  let _ ← insertU32 recordOffset fdtProp
  -- a value too long for the word has found no room before
  let storedLength ← DtbM.orThrow (u32OrOverflow value.length) .sizeOverflow
  let _ ← insertU32 (recordOffset + 4) storedLength
  let _ ← insertU32 (recordOffset + 8) nameOffset
  let _ ← insertBytes (recordOffset + 12) value
  zeroPropertyPadding recordOffset value.length

def setPropertyU32 (nodePath propertyName : Bytes) (value : Nat) : DtbM Unit :=
  setPropertyBytes nodePath propertyName (be32 value)

def setPropertyU64 (nodePath propertyName : Bytes) (value : Nat) : DtbM Unit :=
  setPropertyBytes nodePath propertyName (be64 value)

/-- `MAX_PROPERTY_STRING_LEN`, the trailing zero byte included. -/
def maxPropertyStringLen : Nat := 256

/-- `set_property_string`: the text is assembled with its NUL in a fixed buffer. -/
def setPropertyString (nodePath propertyName value : Bytes) : DtbM Unit := do
  let propertyLen ← DtbM.orThrow (checkedAdd 64 value.length 1) .sizeOverflow
  if propertyLen > maxPropertyStringLen then DtbM.throw .bufferTooSmall
  else setPropertyBytes nodePath propertyName (value ++ [0])

/-! ## §5. Nodes. -/

/-- The bytes of an empty node: `node_bytes[..end_token_offset + 4]`. -/
def emptyNodeBytes (name : Bytes) : Bytes :=
  be32 fdtBeginNode ++ name ++ List.replicate (align4 (4 + name.length + 1) - (4 + name.length)) 0
    ++ be32 fdtEndNode

/-- `insert_child_node`: an empty node in front of the parent's end token. -/
def insertChildNode (parentEndOffset : Nat) (name : Bytes) : DtbM (Nat × Nat) := do
  let required := 4 + name.length + 1 + 3 + 4
  -- three bytes stand for whatever padding there is: the longest name has 255 bytes
  if required > 4 + 256 + 4 + 3 then DtbM.throw .bufferTooSmall
  else
    let offset ← DtbM.read (fun d => .ok (d.structureOffsetInBlob parentEndOffset))
    spliceStruct offset 0 (emptyNodeBytes name)
    let inserted ← DtbM.read (fun d => do
      let fdt ← d.fdtView
      okOr (fdt.nodeAtOffset parentEndOffset) .badStructure)
    pure (inserted.beginOffset, inserted.endOffset)

/-- The component loop of `create_node`; the two offsets are the current
    parent's. -/
def createComponents : (parentBegin parentEnd : Nat) → List Bytes → DtbM Unit
  | _, _, [] => pure ()
  | parentBegin, parentEnd, component :: components =>
      -- the components before this one are in the blob already
      if component = [] then DtbM.throw .invalidPath
      else do
        let child ← DtbM.read (fun d => do
          let fdt ← d.fdtView
          let parent ← okOr (fdt.nodeAtOffset parentBegin) .badStructure
          .ok (fdt.findChild parent component))
        match child with
        | some child => createComponents child.beginOffset child.endOffset components
        | none => do
            let inserted ← insertChildNode parentEnd component
            createComponents inserted.1 inserted.2 components

/-- `create_node`. -/
def createNode (path : Bytes) : DtbM Unit :=
  match Fdt.splitPath path with
  | [] => DtbM.throw .invalidPath
  | first :: components =>
      if first ≠ [] then DtbM.throw .invalidPath
      else do
        let root ← DtbM.read (fun d => do
          let fdt ← d.fdtView
          okOr fdt.rootNode .badStructure)
        createComponents root.beginOffset root.endOffset components

end Dtb

end RustFirmware.DeviceTree
