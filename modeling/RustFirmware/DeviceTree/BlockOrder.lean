/-
  RustFirmware.DeviceTree.BlockOrder
  ──────────────────────────────────
  **THE EDITOR ON BLOCKS IN ANY ORDER.**

  The methods of `src/dtb_write.rs` that write, once more, with the subtraction of
  `splice_struct_placeholder` as one that can underflow and every write through
  the raw pointer as one that can leave the blob (§1).  A call is a list of edits,
  each made in the state that the ones before it have left (§2).

  The checked call is the call where every splice ends inside the used bytes, and
  panics where one does not (§3).  Where every splice ends in front of the strings
  and every edit is clear of the reserve map, both are read as before (§4).
  `from_ptr` promises none of this: it takes the blocks in any order.
-/
import RustFirmware.DeviceTree.Footprints

namespace RustFirmware.DeviceTree

open RustFirmware.Lib

/-! ## §1. The editor with its unchecked steps. -/

namespace Checked

/-- A method of the editor that may panic, or write outside the blob. -/
def EditM (α : Type) : Type := Dtb → Checked (Except DtbError α × Dtb)

instance : Monad EditM where
  pure a := fun d => .ok (.ok a, d)
  bind x f := fun d =>
    match x d with
    | .ok (.ok a, d)    => f a d
    | .ok (.error e, d) => .ok (.error e, d)
    | .error trap       => .error trap

section Steps

variable {α : Type}

/-- A step that writes nothing. -/
def ofDtb (x : DtbM α) : EditM α := fun d => .ok (x d)

def read (f : Dtb → Except DtbError α) : EditM α := ofDtb (DtbM.read f)

def throw (e : DtbError) : EditM α := ofDtb (DtbM.throw e)

def orThrow (value : Option α) (e : DtbError) : EditM α := ofDtb (DtbM.orThrow value e)

/-- Plain arithmetic. -/
def compute (value : Checked α) : EditM α := fun d => value.map (fun a => (.ok a, d))

end Steps

def writeBytes (offset : Nat) (bytes : Bytes) : EditM Unit := fun d =>
  if offset + bytes.length ≤ d.size then .ok (Dtb.writeBytes offset bytes d) else .error .outOfRange

def copyWithin (src dst count : Nat) : EditM Unit := fun d =>
  if src + count ≤ d.size ∧ dst + count ≤ d.size then .ok (Dtb.copyWithin src dst count d)
  else .error .outOfRange

def setOffDtStrings (offset : Nat) : EditM Unit := writeBytes 12 (be32 offset)
def setSizeDtStrings (size : Nat) : EditM Unit := writeBytes 32 (be32 size)
def setSizeDtStruct (size : Nat) : EditM Unit := writeBytes 36 (be32 size)

def insertBytes (offset : Nat) (bytes : Bytes) : EditM Nat := do
  let stop ← orThrow (checkedAdd 64 offset bytes.length) .sizeOverflow
  let size ← read (fun d => .ok d.size)
  if stop > size then throw .bufferTooSmall
  else do
    writeBytes offset bytes
    pure stop

def insertU32 (offset value : Nat) : EditM Nat := insertBytes offset (be32 value)

def ensureRange (offset length : Nat) : EditM Unit := ofDtb (Dtb.ensureRange offset length)

def spliceStructPlaceholder (offset oldLen newLen : Nat) : EditM Unit := do
  let usedEnd ← read (fun d => .ok d.usedBlobEndOffset)
  let structStart ← read (fun d => .ok d.offDtStruct)
  let structEnd ← read (fun d => .ok d.structureEndOffset)
  if offset < structStart ∨ offset > structEnd then throw .badStructure
  else do
    let oldEnd ← orThrow (checkedAdd 64 offset oldLen) .sizeOverflow
    if oldEnd > structEnd then throw .badStructure
    else do
      let resultingUsedEnd ← orThrow
        ((checkedSub usedEnd oldLen).bind (fun value => checkedAdd 64 value newLen)) .sizeOverflow
      let size ← read (fun d => .ok d.size)
      if resultingUsedEnd > size then throw .bufferTooSmall
      else do
        -- what was checked is `used_end - old_len`
        let count ← compute (subWord usedEnd (offset + oldLen))
        copyWithin (offset + oldLen) (offset + newLen) count
        writeBytes offset (List.replicate newLen 0)
        let delta : Int := (newLen : Int) - oldLen
        if ¬ (-(2 ^ 31) ≤ delta ∧ delta < 2 ^ 31) then throw .sizeOverflow
        else do
          let sizeDtStruct ← read (fun d => .ok d.sizeDtStruct)
          let newSize ← orThrow (Dtb.checkedAddSigned sizeDtStruct delta) .sizeOverflow
          setSizeDtStruct newSize
          let offDtStrings ← read (fun d => .ok d.offDtStrings)
          let newOffset ← orThrow (Dtb.checkedAddSigned offDtStrings delta) .sizeOverflow
          setOffDtStrings newOffset

def spliceStruct (offset oldLen : Nat) (newBytes : Bytes) : EditM Unit := do
  spliceStructPlaceholder offset oldLen newBytes.length
  writeBytes offset newBytes

def findOrAddString (name : Bytes) : EditM Nat := do
  let stringsStart ← read (fun d => .ok d.offDtStrings)
  let stringsSize ← read (fun d => .ok d.sizeDtStrings)
  let found ← read (fun d =>
    Dtb.findString (d.blob.take d.size) stringsStart stringsSize name (stringsSize + 1) 0)
  match found with
  | some offset => orThrow (Dtb.u32OrOverflow offset) .sizeOverflow
  | none => do
      let absoluteOffset ← read (fun d => .ok d.usedBlobEndOffset)
      ensureRange absoluteOffset (name.length + 1)
      let _ ← insertBytes absoluteOffset name
      let _ ← insertBytes (absoluteOffset + name.length) [0]
      let newSize ← orThrow (Dtb.u32OrOverflow (stringsSize + (name.length + 1))) .sizeOverflow
      setSizeDtStrings newSize
      orThrow (Dtb.u32OrOverflow stringsSize) .sizeOverflow

def preparePropertyRecord (node : Nat × Nat) (propertyName : Bytes) (valueLength : Nat) :
    EditM Nat := do
  let existing ← read (fun d => d.findDirectProperty node propertyName)
  match existing with
  | some existing => do
      let recordLength ← read (fun _ => Dtb.propertyRecordLength valueLength)
      spliceStructPlaceholder existing.propertyOffset existing.totalLength recordLength
      pure existing.propertyOffset
  | none => do
      let insertionOffset ← read (fun d => d.propertyInsertionOffset node)
      let recordLength ← read (fun _ => Dtb.propertyRecordLength valueLength)
      spliceStructPlaceholder insertionOffset 0 recordLength
      pure insertionOffset

def zeroPropertyPadding (propertyOffset valueLength : Nat) : EditM Unit :=
  let padding := DeviceTree.align4 valueLength - valueLength
  if padding = 0 then pure ()
  else do
    ensureRange (propertyOffset + 12 + valueLength) padding
    writeBytes (propertyOffset + 12 + valueLength) (List.replicate padding 0)

def setPropertyBytes (nodePath propertyName value : Bytes) : EditM Unit := do
  let node ← read (fun d => d.findNodeLocation nodePath)
  let nameOffset ← findOrAddString propertyName
  let recordOffset ← preparePropertyRecord node propertyName value.length
  let _ ← insertU32 recordOffset fdtProp
  let storedLength ← orThrow (Dtb.u32OrOverflow value.length) .sizeOverflow
  let _ ← insertU32 (recordOffset + 4) storedLength
  let _ ← insertU32 (recordOffset + 8) nameOffset
  let _ ← insertBytes (recordOffset + 12) value
  zeroPropertyPadding recordOffset value.length

def setPropertyString (nodePath propertyName value : Bytes) : EditM Unit := do
  let propertyLen ← orThrow (checkedAdd 64 value.length 1) .sizeOverflow
  if propertyLen > Dtb.maxPropertyStringLen then throw .bufferTooSmall
  else setPropertyBytes nodePath propertyName (value ++ [0])

def insertChildNode (parentEndOffset : Nat) (name : Bytes) : EditM (Nat × Nat) := do
  let required := 4 + name.length + 1 + 3 + 4
  if required > 4 + 256 + 4 + 3 then throw .bufferTooSmall
  else do
    let offset ← read (fun d => .ok (d.structureOffsetInBlob parentEndOffset))
    spliceStruct offset 0 (Dtb.emptyNodeBytes name)
    let inserted ← read (fun d => do
      let fdt ← d.fdtView
      okOr (fdt.nodeAtOffset parentEndOffset) .badStructure)
    pure (inserted.beginOffset, inserted.endOffset)

/-- The component loop of `create_node`. -/
def createComponents : (parentBegin parentEnd : Nat) → List Bytes → EditM Unit
  | _, _, [] => pure ()
  | parentBegin, parentEnd, component :: components =>
      if component = [] then throw .invalidPath
      else do
        let child ← read (fun d => do
          let fdt ← d.fdtView
          let parent ← okOr (fdt.nodeAtOffset parentBegin) .badStructure
          .ok (fdt.findChild parent component))
        match child with
        | some child => createComponents child.beginOffset child.endOffset components
        | none => do
            let inserted ← insertChildNode parentEnd component
            createComponents inserted.1 inserted.2 components

def createNode (path : Bytes) : EditM Unit :=
  match Fdt.splitPath path with
  | [] => throw .invalidPath
  | first :: components =>
      if first ≠ [] then throw .invalidPath
      else do
        let root ← read (fun d => do
          let fdt ← d.fdtView
          okOr fdt.rootNode .badStructure)
        createComponents root.beginOffset root.endOffset components

end Checked

/-! ## §2. The edits of a call. -/

/-- What a call does to the blob: a name behind the strings, or `oldLen` bytes of the
    structure block made into `newLen`. -/
inductive Edit where
  | append (length : Nat)
  | splice (offset oldLen newLen : Nat)
  deriving Repr, DecidableEq

namespace Dtb

/-- Where `prepare_property_record` puts the record, and how many bytes are there to
    be replaced. -/
def recordPlace (d : Dtb) (node : Nat × Nat) (propertyName : Bytes) : Except DtbError (Nat × Nat) := do
  match ← d.findDirectProperty node propertyName with
  | some existing => .ok (existing.propertyOffset, existing.totalLength)
  | none =>
      let insertionOffset ← d.propertyInsertionOffset node
      .ok (insertionOffset, 0)

/-- The edits of `set_property_bytes`, each with the blob it is made in. -/
def propertyEdits (nodePath propertyName value : Bytes) (d : Dtb) : List (Dtb × Edit) :=
  match d.findNodeLocation nodePath with
  | .error _ => []
  | .ok node =>
      (if d.Lacks propertyName then [(d, .append (propertyName.length + 1))] else [])
        ++ match findOrAddString propertyName d with
          | (.error _, _) => []
          | (.ok _, d)    =>
              match d.recordPlace node propertyName with
              | .error _ => []
              | .ok (offset, oldLen) => [(d, .splice offset oldLen (12 + align4 value.length))]

/-- What `create_node` looks up for one component. -/
def findComponent (d : Dtb) (parentBegin : Nat) (component : Bytes) :
    Except DtbError (Option FdtNode) := do
  let fdt ← d.fdtView
  let parent ← okOr (fdt.nodeAtOffset parentBegin) .badStructure
  .ok (fdt.findChild parent component)

/-- The edits of the component loop: one splice for each missing component. -/
def componentEdits : (parentBegin parentEnd : Nat) → List Bytes → Dtb → List (Dtb × Edit)
  | _, _, [], _ => []
  | parentBegin, parentEnd, component :: components, d =>
      match d.findComponent parentBegin component with
      | .error _ => []
      | .ok (some child) => componentEdits child.beginOffset child.endOffset components d
      | .ok none =>
          (d, .splice (d.structureOffsetInBlob parentEnd) 0 (emptyNodeBytes component).length)
            :: match insertChildNode parentEnd component d with
              | (.error _, _)     => []
              | (.ok inserted, d) => componentEdits inserted.1 inserted.2 components d

/-- The edits of `create_node`. -/
def nodeEdits (path : Bytes) (d : Dtb) : List (Dtb × Edit) :=
  match d.fdtView with
  | .error _ => []
  | .ok fdt  =>
      match fdt.rootNode with
      | none      => []
      | some root =>
          componentEdits root.beginOffset root.endOffset (Fdt.splitPath path).tail d

end Dtb

/-- A call of the editor. -/
inductive Call where
  | createNode (path : Bytes)
  | setPropertyBytes (nodePath propertyName value : Bytes)
  | setPropertyU32 (nodePath propertyName : Bytes) (value : Nat)
  | setPropertyU64 (nodePath propertyName : Bytes) (value : Nat)
  | setPropertyString (nodePath propertyName value : Bytes)
  deriving Repr, DecidableEq

namespace Call

def run : Call → DtbM Unit
  | createNode path => Dtb.createNode path
  | setPropertyBytes nodePath propertyName value => Dtb.setPropertyBytes nodePath propertyName value
  | setPropertyU32 nodePath propertyName value => Dtb.setPropertyU32 nodePath propertyName value
  | setPropertyU64 nodePath propertyName value => Dtb.setPropertyU64 nodePath propertyName value
  | setPropertyString nodePath propertyName value => Dtb.setPropertyString nodePath propertyName value

/-- The call with its unchecked steps. -/
def checked : Call → Checked.EditM Unit
  | createNode path => Checked.createNode path
  | setPropertyBytes nodePath propertyName value =>
      Checked.setPropertyBytes nodePath propertyName value
  | setPropertyU32 nodePath propertyName value =>
      Checked.setPropertyBytes nodePath propertyName (be32 value)
  | setPropertyU64 nodePath propertyName value =>
      Checked.setPropertyBytes nodePath propertyName (be64 value)
  | setPropertyString nodePath propertyName value =>
      Checked.setPropertyString nodePath propertyName value

def edits : Call → Dtb → List (Dtb × Edit)
  | createNode path => Dtb.nodeEdits path
  | setPropertyBytes nodePath propertyName value => Dtb.propertyEdits nodePath propertyName value
  | setPropertyU32 nodePath propertyName value =>
      Dtb.propertyEdits nodePath propertyName (be32 value)
  | setPropertyU64 nodePath propertyName value =>
      Dtb.propertyEdits nodePath propertyName (be64 value)
  | setPropertyString nodePath propertyName value =>
      Dtb.propertyEdits nodePath propertyName (value ++ [0])

end Call

namespace Edit

/-- The length that `splice_struct_placeholder` moves does not underflow. -/
def EndsInUse (d : Dtb) : Edit → Prop
  | append _               => True
  | splice offset oldLen _ => offset + oldLen ≤ d.usedBlobEndOffset

instance (d : Dtb) (edit : Edit) : Decidable (edit.EndsInUse d) := by
  cases edit <;> unfold EndsInUse <;> infer_instance

/-- **The edit is clear of the reserve map and of the strings**: none of the bytes it
    changes belongs to the map, a splice ends in front of the strings, and the
    structure block stays inside the blob. -/
def Clear (d : Dtb) : Edit → Prop
  | append length => ∀ i, d.InReserveMap i → ¬ d.AppendWrites length i
  | splice offset oldLen newLen =>
      offset + oldLen ≤ d.offDtStrings ∧ d.structureEndOffset - oldLen + newLen ≤ d.size
        ∧ ∀ i, d.InReserveMap i → ¬ d.SpliceWrites offset oldLen newLen i

theorem Clear.endsInUse {d : Dtb} {edit : Edit} (h : edit.Clear d) : edit.EndsInUse d := by
  cases edit with
  | append length => trivial
  | splice offset oldLen newLen => exact Nat.le_trans h.1 (Nat.le_add_right _ _)

end Edit

/-! ## §3. The checked call. -/

namespace Checked

section Agreement

variable {α β : Type} {d d' : Dtb}

/-- The checked method does what the method does. -/
def Agrees (x : EditM α) (y : DtbM α) (d : Dtb) : Prop := x d = .ok (y d)

theorem Agrees.bind {x : EditM α} {y : DtbM α} {f : α → EditM β} {g : α → DtbM β} (h : Agrees x y d)
    (hnext : ∀ a d', y d = (.ok a, d') → Agrees (f a) (g a) d') : Agrees (x >>= f) (y >>= g) d := by
  show (match x d with
    | .ok (.ok a, d)    => f a d
    | .ok (.error e, d) => .ok (.error e, d)
    | .error trap       => .error trap) = .ok ((y >>= g) d)
  rw [h]
  rcases hy : y d with ⟨result, d'⟩
  cases result with
  | error e =>
      rw [DtbM.bind_of_error hy]
  | ok a =>
      rw [DtbM.bind_of_ok hy]
      exact hnext a d' hy

/-- Up to a step that succeeds. -/
theorem Agrees.bind_ok {x : EditM α} {y : DtbM α} {f : α → EditM β} {a : α} (h : Agrees x y d)
    (hy : y d = (.ok a, d')) : (x >>= f) d = f a d' := by
  show (match x d with
    | .ok (.ok a, d)    => f a d
    | .ok (.error e, d) => .ok (.error e, d)
    | .error trap       => .error trap) = _
  rw [h, hy]

theorem bind_trap {x : EditM α} {f : α → EditM β} {trap : Trap} (h : x d = .error trap) :
    (x >>= f) d = .error trap := by
  show (match x d with
    | .ok (.ok a, d)    => f a d
    | .ok (.error e, d) => .ok (.error e, d)
    | .error trap       => .error trap) = _
  rw [h]

theorem agrees_ofDtb (y : DtbM α) (d : Dtb) : Agrees (ofDtb y) y d := rfl

theorem agrees_guard {p : Prop} [Decidable p] {e : DtbError} {x : EditM α} {y : DtbM α}
    (h : ¬ p → Agrees x y d) : Agrees (if p then throw e else x) (if p then DtbM.throw e else y) d := by
  split_ifs with hp
  · rfl
  · exact h hp

theorem agrees_writeBytes {offset : Nat} {bytes : Bytes} (h : offset + bytes.length ≤ d.size) :
    Agrees (writeBytes offset bytes) (Dtb.writeBytes offset bytes) d := if_pos h

theorem agrees_read {f : Dtb → Except DtbError α} {k : α → EditM β} {l : α → DtbM β}
    (hnext : ∀ a, f d = .ok a → Agrees (k a) (l a) d) :
    Agrees (read f >>= k) (DtbM.read f >>= l) d := by
  refine (agrees_ofDtb _ d).bind fun a d' hread => ?_
  obtain ⟨ha, rfl⟩ := DtbM.read_ok.mp hread
  exact hnext a ha

theorem agrees_orThrow {value : Option α} {e : DtbError} {k : α → EditM β} {l : α → DtbM β}
    (hnext : ∀ a, value = some a → Agrees (k a) (l a) d) :
    Agrees (orThrow value e >>= k) (DtbM.orThrow value e >>= l) d := by
  refine (agrees_ofDtb _ d).bind fun a d' hthrow => ?_
  obtain ⟨ha, rfl⟩ := DtbM.orThrow_ok.mp hthrow
  exact hnext a ha

/-- A write inside the blob; the next step finds a blob of the same size. -/
theorem agrees_write {offset : Nat} {bytes : Bytes} {k : EditM β} {l : DtbM β}
    (h : offset + bytes.length ≤ d.size)
    (hnext : ∀ d', d'.size = d.size → Agrees k l d') :
    Agrees (writeBytes offset bytes >>= fun _ => k) (Dtb.writeBytes offset bytes >>= fun _ => l) d := by
  refine (agrees_writeBytes h).bind fun _ d' hwrite => hnext d' ?_
  obtain rfl := Dtb.writeBytes_ok.mp hwrite
  rfl

theorem agrees_compute {value : Checked α} {a : α} {k : α → EditM β} {y : DtbM β}
    (h : value = .ok a) (hnext : Agrees (k a) y d) : Agrees (compute value >>= k) y d := by
  rw [h]
  exact hnext

theorem agrees_insertBytes (offset : Nat) (bytes : Bytes) (d : Dtb) :
    Agrees (insertBytes offset bytes) (Dtb.insertBytes offset bytes) d := by
  refine agrees_orThrow fun stop hstop => agrees_read fun size hsize => agrees_guard fun hfits => ?_
  obtain ⟨-, rfl⟩ := checkedAdd_eq_some.mp hstop
  cases hsize
  exact agrees_write (Nat.not_lt.mp hfits) fun _ _ => rfl

/-- **A splice that ends inside the used bytes stays inside the blob.** -/
theorem agrees_spliceStructPlaceholder {offset oldLen : Nat} (newLen : Nat)
    (hheader : fdtHeaderSize ≤ d.size) (hused : d.usedBlobEndOffset ≤ d.size)
    (hinUse : offset + oldLen ≤ d.usedBlobEndOffset) :
    Agrees (spliceStructPlaceholder offset oldLen newLen)
      (Dtb.spliceStructPlaceholder offset oldLen newLen) d := by
  have h40 : 40 ≤ d.size := hheader
  refine agrees_read fun usedEnd hread => agrees_read fun structStart _ =>
    agrees_read fun structEnd _ => agrees_guard fun _ => agrees_orThrow fun oldEnd _ =>
    agrees_guard fun _ => agrees_orThrow fun resulting hresulting => agrees_read fun size hsize =>
    agrees_guard fun hroom => ?_
  cases hread
  cases hsize
  obtain ⟨value, hvalue, hsum⟩ := Option.bind_eq_some_iff.mp hresulting
  obtain ⟨-, rfl⟩ := checkedSub_eq_some.mp hvalue
  obtain ⟨-, rfl⟩ := checkedAdd_eq_some.mp hsum
  refine agrees_compute (subWord_ok hinUse) ?_
  have hmove : Agrees (copyWithin (offset + oldLen) (offset + newLen)
      (d.usedBlobEndOffset - (offset + oldLen)))
      (Dtb.copyWithin (offset + oldLen) (offset + newLen) (d.usedBlobEndOffset - (offset + oldLen))) d :=
    if_pos ⟨by omega, by omega⟩
  refine hmove.bind fun _ d₁ hmoved => ?_
  have hsize₁ : d₁.size = d.size := by
    obtain rfl := Dtb.copyWithin_ok.mp hmoved
    rfl
  -- the zeros end in front of the moved bytes, and the header is in the blob
  refine agrees_write (by rw [List.length_replicate]; omega) fun d₂ hsize₂ => agrees_guard fun _ =>
    agrees_read fun sizeDtStruct _ => agrees_orThrow fun newSize _ =>
    agrees_write (show 36 + 4 ≤ d₂.size by omega) fun d₃ hsize₃ =>
    agrees_read fun offDtStrings _ => agrees_orThrow fun newOffset _ =>
    agrees_writeBytes (show 12 + 4 ≤ d₃.size by omega)

theorem read_bind {f : Dtb → Except DtbError α} {k : α → EditM β} {a : α} (h : f d = .ok a) :
    (read f >>= k) d = k a d :=
  (agrees_ofDtb _ d).bind_ok (DtbM.read_ok.mpr ⟨h, rfl⟩)

theorem read_field_bind (field : Dtb → α) (k : α → EditM β) :
    (read (fun d => .ok (field d)) >>= k) d = k (field d) d := rfl

theorem orThrow_bind {value : Option α} {e : DtbError} {k : α → EditM β} {a : α}
    (h : value = some a) : (orThrow value e >>= k) d = k a d :=
  (agrees_ofDtb _ d).bind_ok (DtbM.orThrow_ok.mpr ⟨h, rfl⟩)

/-- **A splice that ends behind the used bytes panics**, where it passes the other
    checks. -/
theorem traps_spliceStructPlaceholder {offset oldLen newLen : Nat} {u : Unit}
    (hok : Dtb.spliceStructPlaceholder offset oldLen newLen d = (.ok u, d'))
    (hout : d.usedBlobEndOffset < offset + oldLen) :
    spliceStructPlaceholder offset oldLen newLen d = .error .overflow := by
  simp only [Dtb.spliceStructPlaceholder, DtbM.bind_ok, DtbM.orThrow_ok, DtbM.read_ok, DtbM.guard_ok,
    Except.ok.injEq] at hok
  obtain ⟨usedEnd, _, ⟨rfl, rfl⟩, structStart, _, ⟨rfl, rfl⟩, structEnd, _, ⟨rfl, rfl⟩, hstart, oldEnd,
    _, ⟨hold, rfl⟩, hend, resulting, _, ⟨hresulting, rfl⟩, size, _, ⟨rfl, rfl⟩, hroom, -⟩ := hok
  rw [spliceStructPlaceholder, read_field_bind, read_field_bind, read_field_bind, if_neg hstart,
    orThrow_bind hold, if_neg hend, orThrow_bind hresulting, read_field_bind, if_neg hroom]
  apply bind_trap
  have hunderflow : subWord d.usedBlobEndOffset (offset + oldLen) = .error .overflow :=
    if_neg (Nat.not_le.mpr hout)
  rw [compute, hunderflow]
  rfl

theorem agrees_findOrAddString (name : Bytes) (hheader : fdtHeaderSize ≤ d.size) :
    Agrees (findOrAddString name) (Dtb.findOrAddString name) d := by
  have h40 : 40 ≤ d.size := hheader
  refine agrees_read fun stringsStart _ => agrees_read fun stringsSize _ =>
    agrees_read fun found _ => ?_
  cases found with
  | some offset => rfl
  | none =>
      refine agrees_read fun absoluteOffset _ => (agrees_ofDtb _ d).bind fun _ d₁ hensure =>
        (agrees_insertBytes _ _ d₁).bind fun _ d₂ hname =>
        (agrees_insertBytes _ _ d₂).bind fun _ d₃ hnul => agrees_orThrow fun newSize _ => ?_
      obtain ⟨-, rfl⟩ := Dtb.ensureRange_ok hensure
      obtain ⟨-, rfl⟩ := Dtb.insertBytes_ok hname
      obtain ⟨-, rfl⟩ := Dtb.insertBytes_ok hnul
      exact agrees_write (show 32 + 4 ≤ d.size by omega) fun _ _ => rfl

/-- What stands behind the record's place is written by steps that check for
    themselves. -/
theorem agrees_zeroPropertyPadding (propertyOffset valueLength : Nat) (d : Dtb) :
    Agrees (zeroPropertyPadding propertyOffset valueLength)
      (Dtb.zeroPropertyPadding propertyOffset valueLength) d := by
  unfold zeroPropertyPadding Dtb.zeroPropertyPadding
  dsimp only
  split_ifs
  · rfl
  · refine (agrees_ofDtb _ d).bind fun _ d₁ hensure => ?_
    obtain ⟨hroom, rfl⟩ := Dtb.ensureRange_ok hensure
    apply agrees_writeBytes
    rw [List.length_replicate]
    exact hroom

end Agreement

end Checked

/-! ## §4. Set property. -/

namespace Dtb

variable {d d' : Dtb}

/-- `prepare_property_record` is a splice at the record's place. -/
theorem preparePropertyRecord_eq (node : Nat × Nat) (name : Bytes) (valueLength : Nat) (d : Dtb) :
    preparePropertyRecord node name valueLength d = (do
      let place ← DtbM.read (fun d => d.recordPlace node name)
      let recordLength ← DtbM.read (fun _ => propertyRecordLength valueLength)
      spliceStructPlaceholder place.1 place.2 recordLength
      pure place.1) d := by
  unfold preparePropertyRecord recordPlace
  cases hexisting : d.findDirectProperty node name with
  | error e => simp only [bind, DtbM.read, Except.bind, hexisting]
  | ok existing =>
      cases existing with
      | some existing => simp only [bind, DtbM.read, Except.bind, hexisting]
      | none =>
          cases hinsertion : d.propertyInsertionOffset node <;>
            simp only [bind, DtbM.read, Except.bind, hexisting, hinsertion]

end Dtb

theorem Checked.preparePropertyRecord_eq (node : Nat × Nat) (name : Bytes) (valueLength : Nat)
    (d : Dtb) :
    Checked.preparePropertyRecord node name valueLength d = (do
      let place ← Checked.read (fun d => d.recordPlace node name)
      let recordLength ← Checked.read (fun _ => Dtb.propertyRecordLength valueLength)
      Checked.spliceStructPlaceholder place.1 place.2 recordLength
      pure place.1) d := by
  unfold Checked.preparePropertyRecord Dtb.recordPlace
  cases hexisting : d.findDirectProperty node name with
  | error e => simp only [bind, Checked.read, Checked.ofDtb, DtbM.read, Except.bind, hexisting]
  | ok existing =>
      cases existing with
      | some existing => simp only [bind, Checked.read, Checked.ofDtb, DtbM.read, Except.bind, hexisting]
      | none =>
          cases hinsertion : d.propertyInsertionOffset node <;>
            simp only [bind, Checked.read, Checked.ofDtb, DtbM.read, Except.bind, hexisting, hinsertion]

namespace Dtb

variable {d d' : Dtb} {path name value : Bytes}

/-- The name is there, or it is appended. -/
theorem Accepted.findOrAddString_edit (h : d.Accepted) {nameOffset : Nat}
    (hok : findOrAddString name d = (.ok nameOffset, d')) :
    ¬ d.Lacks name ∧ d' = d
      ∨ d.Lacks name ∧ d.usedBlobEndOffset + (name.length + 1) ≤ d.size
        ∧ d.Appended d' (name.length + 1) := by
  rcases findOrAddString_ok hok with hfound | ⟨hlacks, hroom, hsmall, hd'⟩
  · exact .inl hfound
  · exact .inr ⟨hlacks, hroom, h.appended hroom hsmall hd'⟩

theorem Accepted.accepted_findOrAddString (h : d.Accepted) {nameOffset : Nat}
    (hok : findOrAddString name d = (.ok nameOffset, d')) : d'.Accepted := by
  rcases h.findOrAddString_edit hok with ⟨-, rfl⟩ | ⟨-, hroom, happended⟩
  · exact h
  · exact h.accepted_appended happended hroom

/-- A part of the record written over its zeros. -/
theorem Spliced.insertBytes {d₁ : Dtb} {offset oldLen newLen place stop : Nat} {bytes : Bytes}
    (h : d.Spliced d₁ offset oldLen newLen) (hsize : d.size = d.blob.length)
    (hheader : fdtHeaderSize ≤ offset) (hlo : offset ≤ place)
    (hhi : place + bytes.length ≤ offset + newLen)
    (hok : insertBytes place bytes d₁ = (.ok stop, d')) : d.Spliced d' offset oldLen newLen := by
  obtain ⟨hroom, rfl⟩ := insertBytes_ok hok
  rw [h.frame.size, hsize, ← h.frame.length] at hroom
  exact h.write hheader hlo hhi hroom

/-- **The steps of a `set_property_bytes` that succeeds.** -/
theorem setPropertyBytes_ok {u : Unit} (hok : setPropertyBytes path name value d = (.ok u, d')) :
    ∃ node nameOffset d₁ offset oldLen d₂, d.findNodeLocation path = .ok node
      ∧ findOrAddString name d = (.ok nameOffset, d₁)
      ∧ d₁.recordPlace node name = .ok (offset, oldLen)
      ∧ propertyRecordLength value.length = .ok (12 + align4 value.length)
      ∧ spliceStructPlaceholder offset oldLen (12 + align4 value.length) d₁ = (.ok (), d₂)
      ∧ (∀ {d₀ : Dtb}, d₀.Spliced d₂ offset oldLen (12 + align4 value.length) →
          d₀.size = d₀.blob.length → fdtHeaderSize ≤ offset →
          d₀.Spliced d' offset oldLen (12 + align4 value.length)) := by
  simp only [setPropertyBytes, DtbM.bind_ok, DtbM.read_ok, DtbM.orThrow_ok] at hok
  obtain ⟨node, _, ⟨hnode, rfl⟩, nameOffset, d₁, hname, offset, d₂, hprepare, _, d₃, htoken, _, _,
    ⟨hstored, rfl⟩, _, d₄, hlength, _, d₅, hnameWord, _, d₆, hvalue, hpadding⟩ := hok
  rw [preparePropertyRecord_eq] at hprepare
  simp only [DtbM.bind_ok, DtbM.read_ok, DtbM.pure_ok] at hprepare
  obtain ⟨place, _, ⟨hplace, rfl⟩, recordLength, _, ⟨hrecord, rfl⟩, _, spliced, hsplice, rfl, rfl⟩ :=
    hprepare
  obtain rfl := propertyRecordLength_ok hrecord
  refine ⟨node, nameOffset, d₁, place.1, place.2, spliced, hnode, hname, hplace, hrecord, hsplice, ?_⟩
  intro d₀ h hsize hheader
  have halign : value.length ≤ align4 value.length := by
    unfold align4
    omega
  -- token, length, name and value stand in the record
  have h₃ := h.insertBytes hsize hheader (Nat.le_refl _) (by rw [be32_length]; omega) htoken
  have h₄ := h₃.insertBytes hsize hheader (Nat.le_add_right _ _) (by rw [be32_length]; omega) hlength
  have h₅ := h₄.insertBytes hsize hheader (Nat.le_add_right _ _) (by rw [be32_length]; omega) hnameWord
  have h₆ := h₅.insertBytes hsize hheader (Nat.le_add_right _ _) (by omega) hvalue
  unfold zeroPropertyPadding at hpadding
  split_ifs at hpadding
  · obtain ⟨-, rfl⟩ := DtbM.pure_ok.mp hpadding
    exact h₆
  · obtain ⟨_, _, hensure, hwrite⟩ := DtbM.bind_ok.mp hpadding
    obtain ⟨hroom, rfl⟩ := ensureRange_ok hensure
    obtain rfl := writeBytes_ok.mp hwrite
    rw [h₆.frame.size, hsize, ← h₆.frame.length] at hroom
    refine h₆.write hheader (by omega) ?_ ?_
    · rw [List.length_replicate]
      omega
    · rw [List.length_replicate]
      exact hroom

/-- The edits of a call that succeeds. -/
theorem propertyEdits_eq {node : Nat × Nat} {nameOffset offset oldLen : Nat} {d₁ : Dtb}
    (hnode : d.findNodeLocation path = .ok node)
    (hname : findOrAddString name d = (.ok nameOffset, d₁))
    (hplace : d₁.recordPlace node name = .ok (offset, oldLen)) :
    propertyEdits path name value d
      = (if d.Lacks name then [(d, .append (name.length + 1))] else [])
        ++ [(d₁, .splice offset oldLen (12 + align4 value.length))] := by
  unfold propertyEdits
  simp only [hnode, hname, hplace]

end Dtb

namespace Checked

section SetProperty

variable {d d₁ d₂ : Dtb} {path name value : Bytes} {node : Nat × Nat} {nameOffset offset oldLen : Nat}

theorem agrees_setPropertyBytes (h : d.Accepted) (hnode : d.findNodeLocation path = .ok node)
    (hname : Dtb.findOrAddString name d = (.ok nameOffset, d₁))
    (hplace : d₁.recordPlace node name = .ok (offset, oldLen))
    (hinUse : offset + oldLen ≤ d₁.usedBlobEndOffset) :
    Agrees (setPropertyBytes path name value) (Dtb.setPropertyBytes path name value) d := by
  have h₁ := h.accepted_findOrAddString hname
  have hheader : fdtHeaderSize ≤ d.size := h.size ▸ h.header
  have hheader₁ : fdtHeaderSize ≤ d₁.size := h₁.size ▸ h₁.header
  have hused₁ : d₁.usedBlobEndOffset ≤ d₁.size := h₁.size ▸ h₁.stringsInside.2
  refine agrees_read fun node' hnode' =>
    (agrees_findOrAddString name hheader).bind fun nameOffset' d₁' hname' => ?_
  obtain rfl : node = node' := Except.ok.inj (hnode.symm.trans hnode')
  obtain ⟨rfl, rfl⟩ : nameOffset = nameOffset' ∧ d₁ = d₁' := by
    have hsame := hname.symm.trans hname'
    simpa only [Prod.mk.injEq, Except.ok.injEq] using hsame
  have hprepare : Agrees (preparePropertyRecord node name value.length)
      (Dtb.preparePropertyRecord node name value.length) d₁ := by
    unfold Agrees
    rw [preparePropertyRecord_eq, Dtb.preparePropertyRecord_eq]
    refine agrees_read fun place hplace' => agrees_read fun _ _ =>
      (agrees_spliceStructPlaceholder _ hheader₁ hused₁ ?_).bind fun _ _ _ => rfl
    obtain rfl : (offset, oldLen) = place := Except.ok.inj (hplace.symm.trans hplace')
    exact hinUse
  -- the writes behind it check for themselves
  exact hprepare.bind fun _ _ _ => (agrees_insertBytes _ _ _).bind fun _ _ _ =>
    agrees_orThrow fun _ _ => (agrees_insertBytes _ _ _).bind fun _ _ _ =>
    (agrees_insertBytes _ _ _).bind fun _ _ _ => (agrees_insertBytes _ _ _).bind fun _ _ _ =>
    agrees_zeroPropertyPadding _ _ _

theorem traps_setPropertyBytes (h : d.Accepted) (hnode : d.findNodeLocation path = .ok node)
    (hname : Dtb.findOrAddString name d = (.ok nameOffset, d₁))
    (hplace : d₁.recordPlace node name = .ok (offset, oldLen))
    (hrecord : Dtb.propertyRecordLength value.length = .ok (12 + DeviceTree.align4 value.length))
    (hsplice : Dtb.spliceStructPlaceholder offset oldLen (12 + DeviceTree.align4 value.length) d₁
      = (.ok (), d₂))
    (hout : d₁.usedBlobEndOffset < offset + oldLen) :
    setPropertyBytes path name value d = .error .overflow := by
  have hheader : fdtHeaderSize ≤ d.size := h.size ▸ h.header
  rw [setPropertyBytes, read_bind hnode, (agrees_findOrAddString name hheader).bind_ok hname]
  apply bind_trap
  rw [preparePropertyRecord_eq, read_bind hplace, read_bind hrecord]
  exact bind_trap (traps_spliceStructPlaceholder hsplice hout)

end SetProperty

end Checked

namespace Dtb

variable {d d' : Dtb} {path name value : Bytes}

/-- **`set_property_bytes` stays inside the blob where its splice ends inside the used
    bytes**, and panics elsewhere. -/
theorem Accepted.setPropertyBytes_checked (h : d.Accepted)
    (hok : setPropertyBytes path name value d = (.ok (), d')) :
    Checked.setPropertyBytes path name value d = .ok (.ok (), d')
      ↔ ∀ e ∈ propertyEdits path name value d, e.2.EndsInUse e.1 := by
  obtain ⟨node, nameOffset, d₁, offset, oldLen, d₂, hnode, hname, hplace, hrecord, hsplice, -⟩ :=
    setPropertyBytes_ok hok
  rw [propertyEdits_eq hnode hname hplace]
  constructor
  · intro hchecked e he
    rcases List.mem_append.mp he with happend | hsplice'
    · split_ifs at happend
      · obtain rfl := List.mem_singleton.mp happend
        trivial
      · cases happend
    · obtain rfl := List.mem_singleton.mp hsplice'
      by_contra hout
      rw [Checked.traps_setPropertyBytes h hnode hname hplace hrecord hsplice (Nat.not_le.mp hout)]
        at hchecked
      cases hchecked
  · intro hinUse
    have hsplices : offset + oldLen ≤ d₁.usedBlobEndOffset :=
      hinUse _ (List.mem_append_right _ (List.mem_singleton_self _))
    rw [Checked.agrees_setPropertyBytes h hnode hname hplace hsplices, hok]

/-- **`set_property_bytes` keeps the reserve map and the strings where its edits are
    clear of them.** -/
theorem Accepted.setPropertyBytes_keeps (h : d.Accepted)
    (hok : setPropertyBytes path name value d = (.ok (), d'))
    (hclear : ∀ e ∈ propertyEdits path name value d, e.2.Clear e.1) : d.Keeps d' := by
  obtain ⟨node, nameOffset, d₁, offset, oldLen, d₂, hnode, hname, hplace, -, hsplice, hwrites⟩ :=
    setPropertyBytes_ok hok
  have h₁ := h.accepted_findOrAddString hname
  rw [propertyEdits_eq hnode hname hplace] at hclear
  have hfirst : d.Keeps d₁ := by
    rcases h.findOrAddString_edit hname with ⟨-, rfl⟩ | ⟨hlacks, hroom, happended⟩
    · exact h.keeps_refl
    · apply h.keeps_appended happended hroom
      apply hclear (d, .append (name.length + 1))
      rw [if_pos hlacks]
      exact List.mem_cons_self
  obtain ⟨hbehind, hfits, hmap⟩ : (Edit.splice offset oldLen (12 + align4 value.length)).Clear d₁ :=
    hclear (d₁, _) (List.mem_append_right _ (List.mem_singleton_self _))
  obtain ⟨hinside, hroom, -⟩ := spliceStructPlaceholder_ok hsplice
  have hspliced := h₁.spliced (Nat.le_trans hbehind (Nat.le_add_right _ _)) hsplice
  have hwritten := hwrites hspliced h₁.size (Nat.le_trans h₁.structInside.1 hinside.1)
  exact hfirst.trans (h₁.keeps_spliced hwritten hinside hroom hbehind hfits hmap)

end Dtb

/-! ## §5. Create node. -/

namespace Dtb

variable {d d' : Dtb}

/-- An `insert_child_node` that succeeds has made a splice, and the blob is accepted
    after it. -/
theorem insertChildNode_ok {parentEnd : Nat} {name : Bytes} {inserted : Nat × Nat}
    (hok : insertChildNode parentEnd name d = (.ok inserted, d')) :
    ∃ d₀ fdt, spliceStructPlaceholder (d.structureOffsetInBlob parentEnd) 0
        (emptyNodeBytes name).length d = (.ok (), d₀)
      ∧ d' = { d₀ with blob := overwrite d₀.blob (d.structureOffsetInBlob parentEnd) (emptyNodeBytes name) }
      ∧ d'.fdtView = .ok fdt := by
  simp only [insertChildNode, spliceStruct, DtbM.bind_ok, DtbM.read_ok, DtbM.guard_ok, DtbM.pure_ok,
    writeBytes_ok, Except.ok.injEq] at hok
  obtain ⟨-, offset, _, ⟨rfl, rfl⟩, _, _, ⟨_, d₀, hsplice, hwrite⟩, node, _, ⟨hnode, rfl⟩, -, rfl⟩ := hok
  obtain ⟨fdt, hview, -⟩ := bind_eq_ok.mp hnode
  exact ⟨d₀, fdt, hsplice, hwrite, hview⟩

theorem Accepted.inserted (h : d.Accepted) {parentEnd : Nat} {name : Bytes} {inserted : Nat × Nat}
    (hinUse : d.structureOffsetInBlob parentEnd ≤ d.usedBlobEndOffset)
    (hok : insertChildNode parentEnd name d = (.ok inserted, d')) :
    d.Spliced d' (d.structureOffsetInBlob parentEnd) 0 (emptyNodeBytes name).length ∧ d'.Accepted := by
  obtain ⟨d₀, fdt, hsplice, hd', hview⟩ := insertChildNode_ok hok
  obtain ⟨hinside, hroom, -⟩ := spliceStructPlaceholder_ok hsplice
  have hheader : fdtHeaderSize ≤ d.structureOffsetInBlob parentEnd :=
    Nat.le_trans h.structInside.1 (Nat.le_add_right _ _)
  have hspliced := @Accepted.spliced _ _ h (d.structureOffsetInBlob parentEnd) 0 _ () hinUse hsplice
  rw [h.size, ← hspliced.frame.length] at hroom
  have hwritten : d.Spliced d' (d.structureOffsetInBlob parentEnd) 0 (emptyNodeBytes name).length := by
    rw [hd']
    exact hspliced.write hheader (Nat.le_refl _) (Nat.le_refl _) (by omega)
  refine ⟨hwritten, accepted_of_fdtView hview ?_ ?_⟩
  · rw [hwritten.frame.size, h.size, hwritten.frame.length]
  · rw [hwritten.frame.spared (sparesHeader_splice hheader _ _) (.inl (by decide)),
      hwritten.frame.length]
    exact h.total

end Dtb

namespace Checked

variable {d d' : Dtb}

theorem agrees_insertChildNode (h : d.Accepted) {parentEnd : Nat} (name : Bytes)
    (hinUse : d.structureOffsetInBlob parentEnd ≤ d.usedBlobEndOffset) :
    Agrees (insertChildNode parentEnd name) (Dtb.insertChildNode parentEnd name) d := by
  have hheader : fdtHeaderSize ≤ d.size := h.size ▸ h.header
  have hused : d.usedBlobEndOffset ≤ d.size := h.size ▸ h.stringsInside.2
  refine agrees_guard fun _ => agrees_read fun offset hoffset => ?_
  cases hoffset
  have hnode : Agrees (spliceStruct (d.structureOffsetInBlob parentEnd) 0 (Dtb.emptyNodeBytes name))
      (Dtb.spliceStruct (d.structureOffsetInBlob parentEnd) 0 (Dtb.emptyNodeBytes name)) d := by
    have hsplices := @agrees_spliceStructPlaceholder d (d.structureOffsetInBlob parentEnd) 0
      (Dtb.emptyNodeBytes name).length hheader hused hinUse
    refine hsplices.bind fun _ d₀ hsplice => ?_
    obtain ⟨-, hroom, -⟩ := Dtb.spliceStructPlaceholder_ok hsplice
    have hsize := (Dtb.keepsPlace_spliceStructPlaceholder _ _ _).size_of_ok hsplice
    exact agrees_writeBytes (by omega)
  exact hnode.bind fun _ _ _ => agrees_read fun _ _ => rfl

theorem traps_insertChildNode {parentEnd : Nat} {name : Bytes} {inserted : Nat × Nat}
    (hok : Dtb.insertChildNode parentEnd name d = (.ok inserted, d'))
    (hout : d.usedBlobEndOffset < d.structureOffsetInBlob parentEnd) :
    insertChildNode parentEnd name d = .error .overflow := by
  obtain ⟨d₀, fdt, hsplice, -, -⟩ := Dtb.insertChildNode_ok hok
  rw [Dtb.insertChildNode] at hok
  have hshort := (DtbM.guard_ok.mp hok).1
  rw [insertChildNode, if_neg hshort, read_field_bind]
  exact bind_trap (bind_trap (traps_spliceStructPlaceholder hsplice hout))

end Checked

namespace Dtb

variable {d d' : Dtb}

/-- One pass of the loop that succeeds: on in the child that is there, or in the one
    that is inserted. -/
theorem createComponents_cons_ok {parentBegin parentEnd : Nat} {component : Bytes}
    {components : List Bytes} {u : Unit}
    (hok : createComponents parentBegin parentEnd (component :: components) d = (.ok u, d')) :
    component ≠ [] ∧
      ((∃ child, d.findComponent parentBegin component = .ok (some child)
          ∧ createComponents child.beginOffset child.endOffset components d = (.ok u, d'))
        ∨ d.findComponent parentBegin component = .ok none
          ∧ ∃ inserted d₁, insertChildNode parentEnd component d = (.ok inserted, d₁)
            ∧ createComponents inserted.1 inserted.2 components d₁ = (.ok u, d')) := by
  rw [createComponents] at hok
  obtain ⟨hne, hok⟩ := DtbM.guard_ok.mp hok
  obtain ⟨child, _, hread, hok⟩ := DtbM.bind_ok.mp hok
  obtain ⟨hchild, rfl⟩ := DtbM.read_ok.mp hread
  refine ⟨hne, ?_⟩
  cases child with
  | some child => exact .inl ⟨child, hchild, hok⟩
  | none => exact .inr ⟨hchild, DtbM.bind_ok.mp hok⟩

theorem componentEdits_found {parentBegin : Nat} (parentEnd : Nat) {component : Bytes}
    (components : List Bytes) {child : FdtNode}
    (hchild : d.findComponent parentBegin component = .ok (some child)) :
    componentEdits parentBegin parentEnd (component :: components) d
      = componentEdits child.beginOffset child.endOffset components d := by
  rw [componentEdits, hchild]

theorem componentEdits_inserted {parentBegin parentEnd : Nat} {component : Bytes}
    (components : List Bytes) {inserted : Nat × Nat} {d₁ : Dtb}
    (hchild : d.findComponent parentBegin component = .ok none)
    (hinsert : insertChildNode parentEnd component d = (.ok inserted, d₁)) :
    componentEdits parentBegin parentEnd (component :: components) d
      = (d, .splice (d.structureOffsetInBlob parentEnd) 0 (emptyNodeBytes component).length)
        :: componentEdits inserted.1 inserted.2 components d₁ := by
  rw [componentEdits, hchild]
  simp only [hinsert]

theorem Accepted.createComponents_checked (h : d.Accepted) {parentBegin parentEnd : Nat}
    {components : List Bytes}
    (hok : createComponents parentBegin parentEnd components d = (.ok (), d')) :
    Checked.createComponents parentBegin parentEnd components d = .ok (.ok (), d')
      ↔ ∀ e ∈ componentEdits parentBegin parentEnd components d, e.2.EndsInUse e.1 := by
  induction components generalizing d parentBegin parentEnd with
  | nil =>
      obtain ⟨-, rfl⟩ := DtbM.pure_ok.mp hok
      exact iff_of_true rfl (by simp [componentEdits])
  | cons component components ih =>
      obtain ⟨hne, ⟨child, hchild, hrest⟩ | ⟨hchild, inserted, d₁, hinsert, hrest⟩⟩ :=
        createComponents_cons_ok hok
      · rw [componentEdits_found _ _ hchild, Checked.createComponents, if_neg hne,
          Checked.read_bind hchild]
        exact ih h hrest
      · rw [componentEdits_inserted _ hchild hinsert, Checked.createComponents, if_neg hne,
          Checked.read_bind hchild, List.forall_mem_cons]
        by_cases hinUse : d.structureOffsetInBlob parentEnd ≤ d.usedBlobEndOffset
        · obtain ⟨-, h₁⟩ := h.inserted hinUse hinsert
          have hrun : (Checked.insertChildNode parentEnd component >>= fun inserted =>
              Checked.createComponents inserted.1 inserted.2 components) d
                = Checked.createComponents inserted.1 inserted.2 components d₁ :=
            (Checked.agrees_insertChildNode h component hinUse).bind_ok hinsert
          show (Checked.insertChildNode parentEnd component >>= _) d = _ ↔ _
          rw [hrun, ih h₁ hrest]
          exact (and_iff_right hinUse).symm
        · -- the call panics here
          have htrap := Checked.traps_insertChildNode hinsert (Nat.not_le.mp hinUse)
          show (Checked.insertChildNode parentEnd component >>= _) d = _ ↔ _
          rw [Checked.bind_trap htrap]
          exact iff_of_false (fun hc => by cases hc) (fun hc => hinUse hc.1)

theorem Accepted.createComponents_keeps (h : d.Accepted) {parentBegin parentEnd : Nat}
    {components : List Bytes}
    (hok : createComponents parentBegin parentEnd components d = (.ok (), d'))
    (hclear : ∀ e ∈ componentEdits parentBegin parentEnd components d, e.2.Clear e.1) :
    d.Keeps d' := by
  induction components generalizing d parentBegin parentEnd with
  | nil =>
      obtain ⟨-, rfl⟩ := DtbM.pure_ok.mp hok
      exact h.keeps_refl
  | cons component components ih =>
      obtain ⟨-, ⟨child, hchild, hrest⟩ | ⟨hchild, inserted, d₁, hinsert, hrest⟩⟩ :=
        createComponents_cons_ok hok
      · rw [componentEdits_found _ _ hchild] at hclear
        exact ih h hrest hclear
      · rw [componentEdits_inserted _ hchild hinsert, List.forall_mem_cons] at hclear
        obtain ⟨⟨hbehind, hfits, hmap⟩, hclear⟩ := hclear
        obtain ⟨d₀, -, hsplice, -, -⟩ := insertChildNode_ok hinsert
        obtain ⟨hinside, hroom, -⟩ := spliceStructPlaceholder_ok hsplice
        obtain ⟨hspliced, h₁⟩ := h.inserted (Nat.le_trans hbehind (Nat.le_add_right _ _)) hinsert
        exact (h.keeps_spliced hspliced hinside hroom hbehind hfits hmap).trans (ih h₁ hrest hclear)

/-- A `create_node` that succeeds is the loop over the components, from the root on. -/
theorem createNode_ok {path : Bytes} {u : Unit} (hok : createNode path d = (.ok u, d')) :
    ∃ components root, Fdt.splitPath path = [] :: components
      ∧ (do
          let fdt ← d.fdtView
          okOr fdt.rootNode .badStructure) = .ok root
      ∧ createComponents root.beginOffset root.endOffset components d = (.ok u, d')
      ∧ nodeEdits path d = componentEdits root.beginOffset root.endOffset components d := by
  unfold createNode at hok
  cases hpath : Fdt.splitPath path with
  | nil =>
      rw [hpath] at hok
      cases hok
  | cons first components =>
      rw [hpath] at hok
      obtain ⟨hfirst, hok⟩ := DtbM.guard_ok.mp hok
      obtain ⟨root, _, hread, hrun⟩ := DtbM.bind_ok.mp hok
      obtain ⟨hroot, rfl⟩ := DtbM.read_ok.mp hread
      obtain rfl : first = [] := not_not.mp hfirst
      refine ⟨components, root, rfl, hroot, hrun, ?_⟩
      obtain ⟨fdt, hview, hnode⟩ := bind_eq_ok.mp hroot
      unfold nodeEdits
      simp only [hview, okOr_eq_ok.mp hnode, hpath, List.tail_cons]

/-- **`create_node` stays inside the blob where its splices end inside the used
    bytes**, and panics elsewhere. -/
theorem Accepted.createNode_checked (h : d.Accepted) {path : Bytes}
    (hok : createNode path d = (.ok (), d')) :
    Checked.createNode path d = .ok (.ok (), d') ↔ ∀ e ∈ nodeEdits path d, e.2.EndsInUse e.1 := by
  obtain ⟨components, root, hpath, hroot, hrun, hedits⟩ := createNode_ok hok
  unfold Checked.createNode
  simp only [hpath]
  rw [if_neg (not_not.mpr rfl), Checked.read_bind hroot, hedits]
  exact h.createComponents_checked hrun

theorem Accepted.createNode_keeps (h : d.Accepted) {path : Bytes}
    (hok : createNode path d = (.ok (), d'))
    (hclear : ∀ e ∈ nodeEdits path d, e.2.Clear e.1) : d.Keeps d' := by
  obtain ⟨components, root, -, -, hrun, hedits⟩ := createNode_ok hok
  rw [hedits] at hclear
  exact h.createComponents_keeps hrun hclear

end Dtb

/-! ## §6. Every call. -/

namespace Call

variable {d d' : Dtb}

/-- A `set_property_string` that succeeds writes a short value and its NUL. -/
theorem setPropertyString_ok {path name value : Bytes} {u : Unit}
    (hok : Dtb.setPropertyString path name value d = (.ok u, d')) :
    Dtb.setPropertyBytes path name (value ++ [0]) d = (.ok u, d')
      ∧ Checked.setPropertyString path name value d
        = Checked.setPropertyBytes path name (value ++ [0]) d := by
  obtain ⟨length, _, hthrow, hok⟩ := DtbM.bind_ok.mp hok
  obtain ⟨hlength, rfl⟩ := DtbM.orThrow_ok.mp hthrow
  obtain ⟨hshort, hok⟩ := DtbM.guard_ok.mp hok
  refine ⟨hok, ?_⟩
  rw [Checked.setPropertyString, Checked.orThrow_bind hlength, if_neg hshort]

/-- **A call stays inside the blob where its splices end inside the used bytes**, and
    panics elsewhere. -/
theorem checked_iff (h : d.Accepted) {call : Call} (hok : call.run d = (.ok (), d')) :
    call.checked d = .ok (.ok (), d') ↔ ∀ e ∈ call.edits d, e.2.EndsInUse e.1 := by
  cases call with
  | createNode path => exact h.createNode_checked hok
  | setPropertyBytes path name value => exact h.setPropertyBytes_checked hok
  | setPropertyU32 path name value => exact h.setPropertyBytes_checked hok
  | setPropertyU64 path name value => exact h.setPropertyBytes_checked hok
  | setPropertyString path name value =>
      obtain ⟨hset, hchecked⟩ := setPropertyString_ok hok
      show Checked.setPropertyString path name value d = _ ↔ _
      rw [hchecked]
      exact h.setPropertyBytes_checked hset

/-- **A call keeps the reserve map and the strings where its edits are clear of
    them.** -/
theorem keeps (h : d.Accepted) {call : Call} (hok : call.run d = (.ok (), d'))
    (hclear : ∀ e ∈ call.edits d, e.2.Clear e.1) : d.Keeps d' := by
  cases call with
  | createNode path => exact h.createNode_keeps hok hclear
  | setPropertyBytes path name value => exact h.setPropertyBytes_keeps hok hclear
  | setPropertyU32 path name value => exact h.setPropertyBytes_keeps hok hclear
  | setPropertyU64 path name value => exact h.setPropertyBytes_keeps hok hclear
  | setPropertyString path name value =>
      exact h.setPropertyBytes_keeps (setPropertyString_ok hok).1 hclear

end Call

/-! ## §7. Blocks in the usual order. -/

namespace Dtb

/-- The reserve map stands behind the header and in front of the structure block, and
    that in front of the strings. -/
structure InOrder (d : Dtb) : Prop where
  reserveMap : ∀ i, d.InReserveMap i → fdtHeaderSize ≤ i ∧ i < d.offDtStruct
  structEnd  : d.structureEndOffset ≤ d.offDtStrings

variable {d d' : Dtb} {offset oldLen newLen length : Nat}

/-- A well-formed blob with its reserve map behind the header is in order. -/
theorem Decodes.inOrder {tree : Tree} (h : d.Decodes tree) (ha : d.Accepted)
    (hbehind : fdtHeaderSize ≤ d.offMemRsvmap) : d.InOrder := by
  refine ⟨?_, h.struct_end⟩
  obtain ⟨fdt, hview, ⟨-, hterminator⟩, -⟩ := h.view
  rw [ha.fdtView] at hview
  cases hview
  rintro i ⟨index, hentries, hfirst, hlast, -⟩
  have hindex : index ≤ tree.reserveMap.length := by
    by_contra hlt
    have hsome := hentries tree.reserveMap.length (by omega)
    rw [hterminator] at hsome
    cases hsome
  have hend := h.reserve_end
  omega

theorem InOrder.clear_append (h : d.InOrder) (length : Nat) : (Edit.append length).Clear d := by
  intro i hmap hwritten
  obtain ⟨hheader, hfront⟩ := h.reserveMap i hmap
  have hstrings : d.offDtStruct + d.sizeDtStruct ≤ d.offDtStrings := h.structEnd
  replace hheader : 40 ≤ i := hheader
  unfold AppendWrites usedBlobEndOffset at hwritten
  omega

theorem InOrder.clear_splice (h : d.InOrder)
    (hinside : d.offDtStruct ≤ offset ∧ offset + oldLen ≤ d.structureEndOffset)
    (hroom : d.usedBlobEndOffset - oldLen + newLen ≤ d.size) :
    (Edit.splice offset oldLen newLen).Clear d := by
  have hstrings := h.structEnd
  refine ⟨Nat.le_trans hinside.2 hstrings, ?_, ?_⟩
  · unfold usedBlobEndOffset at hroom
    omega
  · intro i hmap hwritten
    obtain ⟨hheader, hfront⟩ := h.reserveMap i hmap
    replace hheader : 40 ≤ i := hheader
    unfold SpliceWrites at hwritten
    omega

/-- The map is where it was, and the structure block still ends in front of the
    strings. -/
theorem InOrder.of_keeps (h : d.InOrder) (hkeeps : d.Keeps d') {written : Nat → Prop}
    (hframe : d.Frame d' written) (hspares : SparesHeader written)
    (hend : d'.structureEndOffset ≤ d'.offDtStrings) : d'.InOrder := by
  have hrsvmap : d'.offMemRsvmap = d.offMemRsvmap := hframe.spared_word hspares (.inr (by decide))
  have hstructAt : d'.offDtStruct = d.offDtStruct := hframe.spared_word hspares (.inl (by decide))
  refine ⟨?_, hend⟩
  rintro i ⟨index, hentries, hlo, hhi, hin⟩
  rw [hrsvmap] at hlo hhi hin
  rw [hframe.length] at hin
  rw [hstructAt]
  exact h.reserveMap i ⟨index, hkeeps.isSome_of hentries, hlo, hhi, hin⟩

theorem InOrder.appended (h : d.InOrder) (ha : d.Accepted) (happended : d.Appended d' length)
    (hroom : d.usedBlobEndOffset + length ≤ d.size) : d'.InOrder := by
  have hframe := happended.frame
  have hspares := ha.sparesHeader_append length
  have hstructAt : d'.offDtStruct = d.offDtStruct := hframe.spared_word hspares (.inl (by decide))
  apply h.of_keeps (ha.keeps_appended happended hroom (h.clear_append length)) hframe hspares
  rw [structureEndOffset, hstructAt, ha.structSize_appended happended, happended.offDtStrings ha]
  exact h.structEnd

theorem InOrder.spliced (h : d.InOrder) (ha : d.Accepted) (hspliced : d.Spliced d' offset oldLen newLen)
    (hinside : d.offDtStruct ≤ offset ∧ offset + oldLen ≤ d.structureEndOffset)
    (hroom : d.usedBlobEndOffset - oldLen + newLen ≤ d.size) : d'.InOrder := by
  have hheader : fdtHeaderSize ≤ offset := Nat.le_trans ha.structInside.1 hinside.1
  have hframe := hspliced.frame
  have hspares := @sparesHeader_splice d offset hheader oldLen newLen
  have hstructAt : d'.offDtStruct = d.offDtStruct := hframe.spared_word hspares (.inl (by decide))
  obtain ⟨hbehind, hfits, hmap⟩ := h.clear_splice hinside hroom
  apply h.of_keeps (ha.keeps_spliced hspliced hinside hroom hbehind hfits hmap) hframe hspares
  have hstrings : d.offDtStruct + d.sizeDtStruct ≤ d.offDtStrings := h.structEnd
  have hstructSize := hspliced.structSize
  have hstringsAt := hspliced.stringsAt
  rw [structureEndOffset, hstructAt]
  omega

theorem InOrder.findOrAddString (h : d.InOrder) (ha : d.Accepted) {name : Bytes} {nameOffset : Nat}
    (hok : findOrAddString name d = (.ok nameOffset, d')) : d'.InOrder := by
  rcases ha.findOrAddString_edit hok with ⟨-, rfl⟩ | ⟨-, hroom, happended⟩
  · exact h
  · exact h.appended ha happended hroom

theorem InOrder.clear_propertyEdits (h : d.InOrder) (ha : d.Accepted) {path name value : Bytes}
    (hok : setPropertyBytes path name value d = (.ok (), d')) :
    ∀ e ∈ propertyEdits path name value d, e.2.Clear e.1 := by
  obtain ⟨node, nameOffset, d₁, offset, oldLen, d₂, hnode, hname, hplace, -, hsplice, -⟩ :=
    setPropertyBytes_ok hok
  obtain ⟨hinside, hroom, -⟩ := spliceStructPlaceholder_ok hsplice
  rw [propertyEdits_eq hnode hname hplace]
  intro e he
  rcases List.mem_append.mp he with happend | hsplices
  · split_ifs at happend
    · obtain rfl := List.mem_singleton.mp happend
      exact h.clear_append _
    · cases happend
  · obtain rfl := List.mem_singleton.mp hsplices
    exact (h.findOrAddString ha hname).clear_splice hinside hroom

theorem InOrder.clear_componentEdits (h : d.InOrder) (ha : d.Accepted) {parentBegin parentEnd : Nat}
    {components : List Bytes}
    (hok : createComponents parentBegin parentEnd components d = (.ok (), d')) :
    ∀ e ∈ componentEdits parentBegin parentEnd components d, e.2.Clear e.1 := by
  induction components generalizing d parentBegin parentEnd with
  | nil =>
      intro e he
      cases he
  | cons component components ih =>
      obtain ⟨-, ⟨child, hchild, hrest⟩ | ⟨hchild, inserted, d₁, hinsert, hrest⟩⟩ :=
        createComponents_cons_ok hok
      · rw [componentEdits_found _ _ hchild]
        exact ih h ha hrest
      · obtain ⟨d₀, -, hsplice, -, -⟩ := insertChildNode_ok hinsert
        obtain ⟨hinside, hroom, -⟩ := spliceStructPlaceholder_ok hsplice
        have hclear := h.clear_splice hinside hroom
        obtain ⟨hspliced, ha₁⟩ := ha.inserted hclear.endsInUse hinsert
        rw [componentEdits_inserted _ hchild hinsert, List.forall_mem_cons]
        exact ⟨hclear, ih (h.spliced ha hspliced hinside hroom) ha₁ hrest⟩

end Dtb

/-- **In the usual order every edit of every call is clear.** -/
theorem Call.clear_edits {d d' : Dtb} (ha : d.Accepted) (h : d.InOrder) {call : Call}
    (hok : call.run d = (.ok (), d')) : ∀ e ∈ call.edits d, e.2.Clear e.1 := by
  cases call with
  | createNode path =>
      obtain ⟨components, root, -, -, hrun, hedits⟩ := Dtb.createNode_ok hok
      show ∀ e ∈ Dtb.nodeEdits path d, _
      rw [hedits]
      exact h.clear_componentEdits ha hrun
  | setPropertyBytes path name value => exact h.clear_propertyEdits ha hok
  | setPropertyU32 path name value => exact h.clear_propertyEdits ha hok
  | setPropertyU64 path name value => exact h.clear_propertyEdits ha hok
  | setPropertyString path name value =>
      exact h.clear_propertyEdits ha (setPropertyString_ok hok).1

/-! ## §8. Accepted blobs. -/

/-- Every entry of the reserve map, its end, and every string read as before. -/
def Dtb.ReadsBack (d d' : Dtb) : Prop :=
  ∃ fdt fdt', d.fdtView = .ok fdt ∧ d'.fdtView = .ok fdt'
    ∧ (∀ entries, fdt.ReserveMap entries → fdt'.ReserveMap entries)
    ∧ ∀ offset name, fdt.stringAt offset = some name → fdt'.stringAt offset = some name

theorem Dtb.Accepted.readsBack {d d' : Dtb} (h : d.Accepted) (hkeeps : d.Keeps d') : d.ReadsBack d' :=
  ⟨d.view, d'.view, h.fdtView, hkeeps.accepted.fdtView, fun _ hmap => hkeeps.reserveMap hmap,
    hkeeps.strings⟩

/-- **A call on a blob that `from_ptr` accepts**: it stays inside the blob if and only if its
    splices end inside the used bytes; where its edits are clear of the reserve map and
    of the strings both read back, and in the usual order all its edits are. -/
theorem Call.safe_iff {pointer : Nat} {memory : Bytes} {d d' : Dtb}
    (hfrom : Dtb.fromPtr pointer memory = .ok d) (hwhole : d.size ≤ memory.length) (call : Call)
    (hok : call.run d = (.ok (), d')) :
    (call.checked d = .ok (.ok (), d') ↔ ∀ e ∈ call.edits d, e.2.EndsInUse e.1)
      ∧ ((∀ e ∈ call.edits d, e.2.Clear e.1) → call.checked d = .ok (.ok (), d') ∧ d.ReadsBack d')
      ∧ (d.InOrder → ∀ e ∈ call.edits d, e.2.Clear e.1) := by
  have ha := Dtb.accepted_of_fromPtr hfrom hwhole
  refine ⟨Call.checked_iff ha hok, ?_, fun h => Call.clear_edits ha h hok⟩
  intro hclear
  constructor
  · exact (Call.checked_iff ha hok).mpr fun e he => (hclear e he).endsInUse
  · exact ha.readsBack (Call.keeps ha hok hclear)

/-- `set_property_u32("/", "x", 7)`. -/
def setSeven : Call := .setPropertyU32 (ascii "/") (ascii "x") 7

/-- `set_property_u32("/memory", "x", 7)` on a blob in the usual order. -/
theorem Call.safe_iff_example :
    ∃ d', Call.run (.setPropertyU32 (ascii "/memory") (ascii "x") 7) boardDtb = (.ok (), d')
      ∧ Call.checked (.setPropertyU32 (ascii "/memory") (ascii "x") 7) boardDtb = .ok (.ok (), d')
      ∧ boardDtb.ReadsBack d' := by
  have hfrom : Dtb.fromPtr 0x80008000 boardImage.bytes = .ok boardDtb := by decide +kernel
  have hwhole : boardDtb.size ≤ boardImage.bytes.length := by decide +kernel
  have hrun : (Call.run (.setPropertyU32 (ascii "/memory") (ascii "x") 7) boardDtb).1 = .ok () := by
    decide +kernel
  have horder : boardDtb.InOrder := by
    refine boardDtb_encodes.decodes.inOrder (Dtb.accepted_of_fromPtr hfrom hwhole) ?_
    rw [boardDtb_shows.offMemRsvmap]
    exact Nat.le_refl 40
  have hok := DtbM.eq_of_fst hrun
  obtain ⟨-, hkeeps, hclear⟩ := Call.safe_iff hfrom hwhole
    (.setPropertyU32 (ascii "/memory") (ascii "x") 7) hok
  exact ⟨_, hok, hkeeps (hclear horder)⟩

/-- An empty root node, a reserve map with one entry, the string `x`, and free space;
    the map stands where `off_mem_rsvmap` says, behind the structure block. -/
def mapBehindStruct : Bytes :=
  wordBytes [fdtMagic, 140, 40, 88, 56, 17, 16, 0, 2, 16]
    ++ (nodeHead [] [0, 0, 0] ++ be32 fdtEndNode ++ be32 fdtEnd)
    ++ (be64 0x1000 ++ be64 0x2000 ++ List.replicate 16 0)
    ++ (ascii "x" ++ [0]) ++ List.replicate 50 0

/-- The string in front of the structure block. -/
def stringsFirst : Bytes :=
  wordBytes [fdtMagic, 140, 44, 40, 60, 17, 16, 0, 2, 16]
    ++ (ascii "x" ++ [0, 0, 0])
    ++ (nodeHead [] [0, 0, 0] ++ be32 fdtEndNode ++ be32 fdtEnd)
    ++ List.replicate 80 0

def loaded (blob : Bytes) : Dtb := { pointer := 0x80008000, blob := blob, size := 140 }

/-- The record moves the reserve map; and where the strings come first, the length
    that is moved underflows. -/
theorem accepted_blob_loses_reserve_map :
    Dtb.fromPtr 0x80008000 mapBehindStruct = .ok (loaded mapBehindStruct)
      ∧ setSeven.checked (loaded mapBehindStruct) = .ok (setSeven.run (loaded mapBehindStruct))
      ∧ (setSeven.run (loaded mapBehindStruct)).1 = .ok ()
      ∧ (loaded mapBehindStruct).view.reserveEntry 0 = some ⟨0x1000, 0x2000⟩
      ∧ (setSeven.run (loaded mapBehindStruct)).2.view.reserveEntry 0 ≠ some ⟨0x1000, 0x2000⟩
      ∧ Dtb.fromPtr 0x80008000 stringsFirst = .ok (loaded stringsFirst)
      ∧ (setSeven.run (loaded stringsFirst)).1 = .ok ()
      ∧ setSeven.checked (loaded stringsFirst) = .error .overflow := by
  decide +kernel

end RustFirmware.DeviceTree
