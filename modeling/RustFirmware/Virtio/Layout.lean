/-
  RustFirmware.Virtio.Layout
  ──────────────────────────
  **THE BYTES OF A VIRTQUEUE: `VirtQueueLayout` AND THE ACCESSORS OF `VirtQueue`.**

  The descriptor table, the available ring and the used ring stand in one block of
  memory, at offsets that `VirtQueueLayout::new` computes from the queue size and from
  whether the event index fields are there.  Every accessor goes through a pointer
  into the block; here a pointer is named by the field it is for (`QueueField`).

  The fields of a queue are pairwise apart (`field_apart`), so that the block is a
  store of independent cells: `read_foldl_write` over any sequence of accessor
  writes, whatever the size of the queue.
-/
import RustFirmware.Lib.Memory
import RustFirmware.Lib.Word
import Mathlib.Logic.Function.Basic

namespace RustFirmware.Virtio.Raw

open RustFirmware.Lib

/-! ## §1. The structures in memory. -/

/-- `VirtqDescriptor`, in the fixed widths of the source. -/
structure VirtqDescriptor where
  addr  : UInt64
  len   : UInt32
  flags : UInt16
  next  : UInt16
  deriving Repr, DecidableEq

/-- `VirtqUsedElem`. -/
structure VirtqUsedElem where
  id  : UInt32
  len : UInt32
  deriving Repr, DecidableEq

/-- `repr(C)`: the four fields one after another. -/
def descriptorCodec : Codec VirtqDescriptor :=
  (codec64.pair (codec32.pair (codec16.pair codec16))).map
    (fun p => ⟨p.1, p.2.1, p.2.2.1, p.2.2.2⟩) (fun d => (d.addr, d.len, d.flags, d.next))
    (fun _ => rfl)

def usedElemCodec : Codec VirtqUsedElem :=
  (codec32.pair codec32).map (fun p => ⟨p.1, p.2⟩) (fun e => (e.id, e.len)) (fun _ => rfl)

/-- `align_up`. -/
def alignUp (value align : Nat) : Nat := (value + (align - 1)) &&& complement 64 (align - 1)

/-- `VirtQueueLayout`. -/
structure VirtQueueLayout where
  queueSize   : UInt16
  eventIdx    : Bool
  descOffset  : Nat
  availOffset : Nat
  usedOffset  : Nat
  totalSize   : Nat
  deriving Repr, DecidableEq

/-- `VirtQueueLayout::new`. -/
def VirtQueueLayout.new (queueSize : UInt16) (eventIdx : Bool) : VirtQueueLayout :=
  let descOffset := 0
  let descSize := descriptorCodec.size * queueSize.toNat
  let availOffset := descOffset + descSize
  let availSize := 4 + queueSize.toNat * 2 + if eventIdx then 2 else 0
  let usedOffset := alignUp (availOffset + availSize) 4
  let usedSize := 4 + queueSize.toNat * usedElemCodec.size + if eventIdx then 2 else 0
  { queueSize, eventIdx, descOffset, availOffset, usedOffset, totalSize := usedOffset + usedSize }

/-! ## §2. The fields of a queue. -/

/-- What a pointer of `VirtQueue` is for. -/
inductive QueueField where
  | descriptor (index : Nat)
  | availFlags
  | availIdx
  | availRing (slot : Nat)
  | usedEvent
  | usedFlags
  | usedIdx
  | usedElem (slot : Nat)
  | availEvent
  deriving Repr, DecidableEq

namespace QueueField

/-- What stands in the field. -/
abbrev Value : QueueField → Type
  | .descriptor _ => VirtqDescriptor
  | .usedElem _   => VirtqUsedElem
  | _             => UInt16

def codec : (field : QueueField) → Codec field.Value
  | .descriptor _ => descriptorCodec
  | .usedElem _   => usedElemCodec
  | .availFlags   => codec16
  | .availIdx     => codec16
  | .availRing _  => codec16
  | .usedEvent    => codec16
  | .usedFlags    => codec16
  | .usedIdx      => codec16
  | .availEvent   => codec16

end QueueField

namespace VirtQueueLayout

/-- The offset of `descriptor_ptr`, `avail_flags_ptr` and the rest. -/
def offset (layout : VirtQueueLayout) : QueueField → Nat
  | .descriptor index => layout.descOffset + index * descriptorCodec.size
  | .availFlags       => layout.availOffset
  | .availIdx         => layout.availOffset + 2
  | .availRing slot   => layout.availOffset + 4 + slot * 2
  | .usedEvent        => layout.availOffset + 4 + layout.queueSize.toNat * 2
  | .usedFlags        => layout.usedOffset
  | .usedIdx          => layout.usedOffset + 2
  | .usedElem slot    => layout.usedOffset + 4 + slot * usedElemCodec.size
  | .availEvent       => layout.usedOffset + 4 + layout.queueSize.toNat * usedElemCodec.size

/-- The field is there: the `debug_assert`s of the accessors. -/
def Has (layout : VirtQueueLayout) : QueueField → Prop
  | .descriptor index => index < layout.queueSize.toNat
  | .availRing slot   => slot < layout.queueSize.toNat
  | .usedElem slot    => slot < layout.queueSize.toNat
  | .usedEvent        => layout.eventIdx = true
  | .availEvent       => layout.eventIdx = true
  | _                 => True

instance (layout : VirtQueueLayout) (field : QueueField) : Decidable (layout.Has field) := by
  unfold Has
  split <;> infer_instance

variable {queueSize : UInt16} {eventIdx : Bool}

theorem alignUp_four {v : Nat} (h : v + 3 < 2 ^ 64) : alignUp v 4 = (v + 3) / 4 * 4 :=
  land_complement_two_pow 64 2 (v + 3) (by decide) h

/-- The event index field at the end of each ring. -/
def eventSize (eventIdx : Bool) : Nat := if eventIdx then 2 else 0

theorem eventSize_le (eventIdx : Bool) : eventSize eventIdx ≤ 2 := by
  cases eventIdx <;> decide

/-- Where the rings are. -/
theorem new_eq (queueSize : UInt16) (eventIdx : Bool) :
    (new queueSize eventIdx).availOffset = 16 * queueSize.toNat
    ∧ (new queueSize eventIdx).usedOffset
        = (16 * queueSize.toNat + (4 + queueSize.toNat * 2 + eventSize eventIdx) + 3) / 4 * 4
    ∧ (new queueSize eventIdx).totalSize = (new queueSize eventIdx).usedOffset
        + (4 + queueSize.toNat * 8 + eventSize eventIdx) := by
  have hq := queueSize.toNat_lt
  have hevent := eventSize_le eventIdx
  have hdesc : 0 + descriptorCodec.size * queueSize.toNat = 16 * queueSize.toNat := Nat.zero_add _
  refine ⟨hdesc, ?_, rfl⟩
  show alignUp (0 + descriptorCodec.size * queueSize.toNat
    + (4 + queueSize.toNat * 2 + eventSize eventIdx)) 4 = _
  rw [hdesc, alignUp_four (by omega)]

/-- The three parts of the block: descriptor table, available ring and used ring. -/
inductive Part where
  | descriptors
  | available
  | used
  deriving Repr, DecidableEq

def partOf : QueueField → Part
  | .descriptor _ => .descriptors
  | .availFlags   => .available
  | .availIdx     => .available
  | .availRing _  => .available
  | .usedEvent    => .available
  | .usedFlags    => .used
  | .usedIdx      => .used
  | .usedElem _   => .used
  | .availEvent   => .used

def partStart (layout : VirtQueueLayout) : Part → Nat
  | .descriptors => 0
  | .available   => layout.availOffset
  | .used        => layout.usedOffset

def partSize (layout : VirtQueueLayout) : Part → Nat
  | .descriptors => 16 * layout.queueSize.toNat
  | .available   => 4 + layout.queueSize.toNat * 2 + eventSize layout.eventIdx
  | .used        => 4 + layout.queueSize.toNat * 8 + eventSize layout.eventIdx

theorem part_apart {part part' : Part} (h : part ≠ part') :
    Apart ((new queueSize eventIdx).partStart part) ((new queueSize eventIdx).partSize part)
      ((new queueSize eventIdx).partStart part') ((new queueSize eventIdx).partSize part') := by
  obtain ⟨havail, hused, -⟩ := new_eq queueSize eventIdx
  have hsize : (new queueSize eventIdx).queueSize = queueSize := rfl
  have hevent : (new queueSize eventIdx).eventIdx = eventIdx := rfl
  unfold Apart
  cases part <;> cases part' <;> simp only [partStart, partSize, hsize, hevent] <;>
    first
      | exact absurd rfl h
      | omega

theorem part_le_total (queueSize : UInt16) (eventIdx : Bool) (part : Part) :
    (new queueSize eventIdx).partStart part + (new queueSize eventIdx).partSize part
      ≤ (new queueSize eventIdx).totalSize := by
  obtain ⟨havail, hused, htotal⟩ := new_eq queueSize eventIdx
  have hsize : (new queueSize eventIdx).queueSize = queueSize := rfl
  have hevent : (new queueSize eventIdx).eventIdx = eventIdx := rfl
  cases part <;> simp only [partStart, partSize, hsize, hevent] <;> omega

/-- Every field stands in its part. -/
theorem field_within {field : QueueField} (h : (new queueSize eventIdx).Has field) :
    (new queueSize eventIdx).partStart (partOf field) ≤ (new queueSize eventIdx).offset field
      ∧ (new queueSize eventIdx).offset field + field.codec.size
        ≤ (new queueSize eventIdx).partStart (partOf field)
          + (new queueSize eventIdx).partSize (partOf field) := by
  have hsize : (new queueSize eventIdx).queueSize = queueSize := rfl
  have hevent : (new queueSize eventIdx).eventIdx = eventIdx := rfl
  have hoffset : (new queueSize eventIdx).descOffset = 0 := rfl
  have hdesc : descriptorCodec.size = 16 := rfl
  have helem : usedElemCodec.size = 8 := rfl
  have hword : codec16.size = 2 := rfl
  cases field with
  | descriptor index =>
      simp only [Has, hsize] at h
      simp only [partOf, partStart, partSize, offset, QueueField.codec, hsize, hoffset, hdesc]
      omega
  | availFlags | availIdx | usedFlags | usedIdx =>
      simp only [partOf, partStart, partSize, offset, QueueField.codec, hsize, hevent, hword]
      omega
  | availRing slot =>
      simp only [Has, hsize] at h
      simp only [partOf, partStart, partSize, offset, QueueField.codec, hsize, hevent, hword]
      omega
  | usedElem slot =>
      simp only [Has, hsize] at h
      simp only [partOf, partStart, partSize, offset, QueueField.codec, hsize, hevent, helem]
      omega
  | usedEvent | availEvent =>
      simp only [Has, hevent] at h
      subst h
      simp only [partOf, partStart, partSize, offset, QueueField.codec, hsize, hevent, hword, helem,
        eventSize, if_true]
      omega

/-- A field ends within the block. -/
theorem field_le_total {field : QueueField} (h : (new queueSize eventIdx).Has field) :
    (new queueSize eventIdx).offset field + field.codec.size ≤ (new queueSize eventIdx).totalSize := by
  have hwithin := (field_within h).2
  have hpart := part_le_total queueSize eventIdx (partOf field)
  omega

/-- Two fields of one part. -/
theorem field_apart_of_part {field field' : QueueField} (h : (new queueSize eventIdx).Has field)
    (h' : (new queueSize eventIdx).Has field') (hne : field ≠ field')
    (hpart : partOf field = partOf field') :
    Apart ((new queueSize eventIdx).offset field) field.codec.size
      ((new queueSize eventIdx).offset field') field'.codec.size := by
  have hsize : (new queueSize eventIdx).queueSize = queueSize := rfl
  have hdesc : descriptorCodec.size = 16 := rfl
  have helem : usedElemCodec.size = 8 := rfl
  have hword : codec16.size = 2 := rfl
  unfold Apart
  cases field <;> cases field' <;> simp only [partOf, reduceCtorEq] at hpart <;>
    simp only [Has, hsize] at h h' <;>
    simp only [ne_eq, QueueField.descriptor.injEq, QueueField.availRing.injEq,
      QueueField.usedElem.injEq, not_true_eq_false, reduceCtorEq, not_false_eq_true] at hne <;>
    simp only [offset, QueueField.codec, hdesc, helem, hword, hsize] <;> omega

/-- **The fields of a queue are pairwise apart.** -/
theorem field_apart {field field' : QueueField} (h : (new queueSize eventIdx).Has field)
    (h' : (new queueSize eventIdx).Has field') (hne : field ≠ field') :
    Apart ((new queueSize eventIdx).offset field) field.codec.size
      ((new queueSize eventIdx).offset field') field'.codec.size := by
  by_cases hpart : partOf field = partOf field'
  · exact field_apart_of_part h h' hne hpart
  · have hin := field_within h
    have hin' := field_within h'
    exact (part_apart hpart).mono hin.1 hin.2 hin'.1 hin'.2

end VirtQueueLayout

/-! ## §3. The accessors. -/

/-- `VirtQueue`: a non-null base and the layout. -/
structure VirtQueue where
  base    : Nat
  nonNull : base ≠ 0
  layout  : VirtQueueLayout

namespace VirtQueue

/-- `VirtQueue::from_ptr`. -/
def fromPtr (base : Nat) (queueSize : UInt16) (eventIdx : Bool) : Option VirtQueue :=
  if h : base ≠ 0 then some ⟨base, h, .new queueSize eventIdx⟩ else none

variable (queue : VirtQueue)

/-- The pointer of a field. -/
def pointer (field : QueueField) : Nat := queue.base + queue.layout.offset field

/-- `ptr::read_volatile` of a field. -/
def read (memory : Memory) (field : QueueField) : field.Value :=
  field.codec.get memory (queue.pointer field)

/-- `ptr::write_volatile` of a field. -/
def write (memory : Memory) (field : QueueField) (value : field.Value) : Memory :=
  field.codec.set memory (queue.pointer field) value

def readDescriptor (memory : Memory) (index : UInt16) : VirtqDescriptor :=
  queue.read memory (.descriptor index.toNat)

def writeDescriptor (memory : Memory) (index : UInt16) (descriptor : VirtqDescriptor) : Memory :=
  queue.write memory (.descriptor index.toNat) descriptor

def availFlags (memory : Memory) : UInt16 := queue.read memory .availFlags

def setAvailFlags (memory : Memory) (flags : UInt16) : Memory := queue.write memory .availFlags flags

def availIdx (memory : Memory) : UInt16 := queue.read memory .availIdx

def setAvailIdx (memory : Memory) (index : UInt16) : Memory := queue.write memory .availIdx index

def availRing (memory : Memory) (slot : UInt16) : UInt16 := queue.read memory (.availRing slot.toNat)

def setAvailRing (memory : Memory) (slot descriptorIndex : UInt16) : Memory :=
  queue.write memory (.availRing slot.toNat) descriptorIndex

def usedFlags (memory : Memory) : UInt16 := queue.read memory .usedFlags

def setUsedFlags (memory : Memory) (flags : UInt16) : Memory := queue.write memory .usedFlags flags

def usedIdx (memory : Memory) : UInt16 := queue.read memory .usedIdx

def setUsedIdx (memory : Memory) (index : UInt16) : Memory := queue.write memory .usedIdx index

def usedElem (memory : Memory) (slot : UInt16) : VirtqUsedElem :=
  queue.read memory (.usedElem slot.toNat)

def setUsedElem (memory : Memory) (slot : UInt16) (elem : VirtqUsedElem) : Memory :=
  queue.write memory (.usedElem slot.toNat) elem

def usedEvent (memory : Memory) : Option UInt16 :=
  if queue.layout.eventIdx = false then none else some (queue.read memory .usedEvent)

def setUsedEvent (memory : Memory) (event : UInt16) : Memory := queue.write memory .usedEvent event

def availEvent (memory : Memory) : Option UInt16 :=
  if queue.layout.eventIdx = false then none else some (queue.read memory .availEvent)

def setAvailEvent (memory : Memory) (event : UInt16) : Memory := queue.write memory .availEvent event

/-- The layout is the computed one, as `from_ptr` leaves it. -/
def Proper : Prop := ∃ queueSize eventIdx, queue.layout = .new queueSize eventIdx

variable {queue}

theorem fromPtr_eq_some {base : Nat} {queueSize : UInt16} {eventIdx : Bool}
    (h : fromPtr base queueSize eventIdx = some queue) :
    queue.base = base ∧ queue.layout = .new queueSize eventIdx := by
  unfold fromPtr at h
  split at h
  · cases h
    exact ⟨rfl, rfl⟩
  · cases h

theorem fromPtr_proper {base : Nat} {queueSize : UInt16} {eventIdx : Bool}
    (h : fromPtr base queueSize eventIdx = some queue) : queue.Proper :=
  ⟨queueSize, eventIdx, (fromPtr_eq_some h).2⟩

/-! ## §4. A store of independent cells. -/

variable {memory memory' : Memory} {field field' : QueueField}

@[simp] theorem read_write_same (memory : Memory) (field : QueueField) (value : field.Value) :
    queue.read (queue.write memory field value) field = value :=
  field.codec.get_set _ _ _

theorem Proper.apart (h : queue.Proper) (hfield : queue.layout.Has field)
    (hfield' : queue.layout.Has field') (hne : field' ≠ field) :
    Apart (queue.pointer field') field'.codec.size (queue.pointer field) field.codec.size := by
  obtain ⟨queueSize, eventIdx, hlayout⟩ := h
  unfold pointer
  rw [hlayout] at hfield hfield' ⊢
  have hoffset := VirtQueueLayout.field_apart hfield' hfield hne
  unfold Apart at hoffset ⊢
  omega

/-- A write through one accessor is not seen through another. -/
theorem Proper.read_write_other (h : queue.Proper) (hfield : queue.layout.Has field)
    (hfield' : queue.layout.Has field') (hne : field' ≠ field) (value : field.Value) :
    queue.read (queue.write memory field value) field' = queue.read memory field' :=
  field.codec.get_set_apart field'.codec memory (h.apart hfield hfield' hne) value

/-- A write stays inside the block. -/
theorem Proper.write_outside (h : queue.Proper) (hfield : queue.layout.Has field)
    (value : field.Value) {a : Nat} (ha : ¬ Within queue.base queue.layout.totalSize a) :
    queue.write memory field value a = memory a := by
  obtain ⟨queueSize, eventIdx, hlayout⟩ := h
  rw [hlayout] at hfield ha
  have hle := VirtQueueLayout.field_le_total hfield
  refine field.codec.set_outside memory value ?_
  unfold pointer Within at *
  rw [hlayout]
  omega

/-- An access: a field and the value written to it. -/
abbrev Write := (field : QueueField) × field.Value

/-- One accessor write after another. -/
def writes (queue : VirtQueue) (memory : Memory) (list : List Write) : Memory :=
  list.foldl (fun memory w => queue.write memory w.1 w.2) memory

/-- What a queue is for: a value in every field, each written by itself. -/
abbrev Cells := (field : QueueField) → field.Value

def Cells.writes (cells : Cells) (list : List Write) : Cells :=
  list.foldl (fun cells w => Function.update cells w.1 w.2) cells

/-- Every field of the queue reads as its cell. -/
def Shows (queue : VirtQueue) (memory : Memory) (cells : Cells) : Prop :=
  ∀ field, queue.layout.Has field → queue.read memory field = cells field

theorem Proper.shows_write (h : queue.Proper) {cells : Cells} (hshows : queue.Shows memory cells)
    (hfield : queue.layout.Has field) (value : field.Value) :
    queue.Shows (queue.write memory field value) (Function.update cells field value) := by
  intro field' hfield'
  by_cases hsame : field' = field
  · subst hsame
    rw [read_write_same, Function.update_self]
  · rw [h.read_write_other hfield hfield' hsame, Function.update_of_ne hsame, hshows field' hfield']

theorem Proper.shows_writes (h : queue.Proper) {list : List Write}
    (hlist : ∀ w ∈ list, queue.layout.Has w.1) {cells : Cells} (hshows : queue.Shows memory cells) :
    queue.Shows (queue.writes memory list) (cells.writes list) := by
  induction list generalizing memory cells with
  | nil => exact hshows
  | cons w list ih =>
      exact ih (fun w' hw' => hlist w' (List.mem_cons_of_mem _ hw'))
        (h.shows_write hshows (hlist w List.mem_cons_self) w.2)

theorem Proper.writes_outside (h : queue.Proper) {list : List Write}
    (hlist : ∀ w ∈ list, queue.layout.Has w.1) {a : Nat}
    (ha : ¬ Within queue.base queue.layout.totalSize a) : queue.writes memory list a = memory a := by
  induction list generalizing memory with
  | nil => rfl
  | cons w list ih =>
      show queue.writes (queue.write memory w.1 w.2) list a = _
      rw [ih (fun w' hw' => hlist w' (List.mem_cons_of_mem _ hw')),
        h.write_outside (hlist w List.mem_cons_self) _ ha]

end VirtQueue

/-- **The block of a virtqueue is a store of independent cells.**  For every queue size
    and with or without event indices: after any sequence of writes through the
    accessors every field reads as if it were a cell of its own, and no byte outside
    the `total_size` bytes of the block has changed. -/
theorem queue_writes_refine_cells {base : Nat} {queueSize : UInt16} {eventIdx : Bool}
    {queue : VirtQueue} (hqueue : VirtQueue.fromPtr base queueSize eventIdx = some queue)
    (memory : Memory) {list : List VirtQueue.Write} (hlist : ∀ w ∈ list, queue.layout.Has w.1) :
    (∀ field, queue.layout.Has field →
        queue.read (queue.writes memory list) field
          = VirtQueue.Cells.writes (queue.read memory) list field)
      ∧ ∀ a, ¬ Within queue.base queue.layout.totalSize a →
        queue.writes memory list a = memory a := by
  have hproper := VirtQueue.fromPtr_proper hqueue
  refine ⟨?_, ?_⟩
  · exact hproper.shows_writes hlist (fun _ _ => rfl)
  · intro a ha
    exact hproper.writes_outside hlist ha

/-- A queue of four entries. -/
def fourQueue : VirtQueue := ⟨0x1000, by decide, .new 4 false⟩

/-- An index, and then an entry of the available ring. -/
def indexThenEntry : List VirtQueue.Write := [⟨.availIdx, (1 : UInt16)⟩, ⟨.availRing 3, (7 : UInt16)⟩]

/-- The entry does not reach into the index before it. -/
theorem queue_writes_refine_cells_example :
    fourQueue.read (fourQueue.writes (fun _ => 0) indexThenEntry) .availIdx = (1 : UInt16) := by
  have hqueue : VirtQueue.fromPtr 0x1000 4 false = some fourQueue := rfl
  have hfields : ∀ w ∈ indexThenEntry, fourQueue.layout.Has w.1 := by decide
  have hread := (queue_writes_refine_cells hqueue (fun _ => 0) hfields).1 .availIdx trivial
  rw [hread]
  rfl

end RustFirmware.Virtio.Raw
