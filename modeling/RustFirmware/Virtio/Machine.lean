/-
  RustFirmware.Virtio.Machine
  ───────────────────────────
  **THE REQUEST QUEUE IN MEMORY: ADDRESSES AND BYTES INSTEAD OF RECORDS.**

  The same two parties as in `Queue`, on one flat memory.  The driver writes the
  request header, the status byte and the fields of the queue at their addresses; the
  device follows what it finds there: it takes the head from the available ring, the
  header, the buffer and the status byte from the descriptors.

  `Pictures` says which records the memory shows.  Every step of this machine is a step
  of the one of records (`Sim.step`), so what was proved there holds of the bytes.
-/
import RustFirmware.Virtio.Layout
import RustFirmware.Virtio.Requests

namespace RustFirmware.Virtio.Raw

open RustFirmware.Lib

/-! ## §1. The two parties. -/

/-- `VirtioBlkReqHeader`. -/
structure VirtioBlkReqHeader where
  requestType : UInt32
  reserved    : UInt32
  sector      : UInt64
  deriving Repr, DecidableEq

def headerCodec : Codec VirtioBlkReqHeader :=
  (codec32.pair (codec32.pair codec64)).map (fun p => ⟨p.1, p.2.1, p.2.2⟩)
    (fun h => (h.requestType, h.reserved, h.sector)) (fun _ => rfl)

/-- The statics of the driver: the queue page, the request header and the status byte. -/
structure Statics where
  queue        : VirtQueue
  header       : Nat
  status       : Nat
  layout       : queue.layout = .new virtioBlockQueueSize.toUInt16 false
  queueFits    : queue.base + 4096 ≤ 2 ^ 64
  headerFits   : header + 16 ≤ 2 ^ 64
  statusFits   : status + 1 ≤ 2 ^ 64
  queueHeader  : Apart queue.base 4096 header 16
  queueStatus  : Apart queue.base 4096 status 1
  headerStatus : Apart header 16 status 1

/-- The address is one of the statics'. -/
def Statics.Owns (statics : Statics) (a : Nat) : Prop :=
  Within statics.queue.base 4096 a ∨ Within statics.header 16 a ∨ Within statics.status 1 a

instance (statics : Statics) (a : Nat) : Decidable (statics.Owns a) := by
  unfold Statics.Owns
  infer_instance

/-- `VirtioBlockDriver`, with the call in progress or last returned. -/
structure Driver where
  availIdx : UInt16
  usedIdx  : UInt16
  phase    : DriverPhase
  call     : ReadCall

/-- A fetched request: what the device found at the addresses it followed. -/
structure Fetched where
  head          : UInt16
  sector        : Nat
  address       : Nat
  length        : Nat
  statusAddress : Nat
  stage         : RequestStage
  deriving Repr, DecidableEq

structure Device where
  lastAvail : UInt16
  pending   : List Fetched

structure State where
  driver : Driver
  memory : Memory
  device : Device

/-- The queue page zeroed, the status byte as in the source. -/
def Statics.cleared (statics : Statics) (memory : Memory) : Memory :=
  store (headerCodec.set (store memory statics.queue.base (List.replicate 4096 0)) statics.header
    ⟨0, 0, 0⟩) statics.status [0xff]

/-- The state that `VirtioBlockDriver::new` leaves. -/
def initial (statics : Statics) (memory : Memory) : State where
  driver := { availIdx := 0, usedIdx := 0, phase := .idle, call := ⟨0, 0, 0⟩ }
  memory := statics.cleared memory
  device := { lastAvail := 0, pending := [] }

namespace State

variable (statics : Statics)

/-- Go on to `phase`. -/
def goto (s : State) (phase : DriverPhase) : State :=
  { s with driver := { s.driver with phase := phase } }

/-- Entering `read_blocks`: the two checks of the buffer length. -/
def enter (s : State) (call : ReadCall) : State :=
  { s with driver := { s.driver with
      call  := call,
      phase :=
        if call.length = 0 ∨ call.length % virtioSectorSize ≠ 0 then
          .returned (.error .invalidBufferLength)
        else if ¬ call.length < 2 ^ 32 then .returned (.error .invalidBufferLength)
        else .writeHeader } }

/-- The next micro-step of `read_blocks`. -/
def advance (s : State) : Option State :=
  let queue := statics.queue
  match s.driver.phase with
  | .idle => none
  | .writeHeader =>
      some { s.goto .writeStatus with
        memory := headerCodec.set s.memory statics.header
          ⟨UInt32.ofNat virtioBlkRequestTypeIn, 0, UInt64.ofNat s.driver.call.sector⟩ }
  | .writeStatus => some { s.goto .writeDescriptor0 with memory := store s.memory statics.status [0xff] }
  | .writeDescriptor0 =>
      some { s.goto .writeDescriptor1 with
        memory := queue.writeDescriptor s.memory 0
          { addr := UInt64.ofNat statics.header, len := UInt32.ofNat headerCodec.size,
            flags := UInt16.ofNat virtqDescFNext, next := 1 } }
  | .writeDescriptor1 =>
      some { s.goto .writeDescriptor2 with
        memory := queue.writeDescriptor s.memory 1
          { addr := UInt64.ofNat s.driver.call.address, len := UInt32.ofNat s.driver.call.length,
            flags := UInt16.ofNat (virtqDescFWrite ||| virtqDescFNext), next := 2 } }
  | .writeDescriptor2 =>
      some { s.goto .setAvailRing with
        memory := queue.writeDescriptor s.memory 2
          { addr := UInt64.ofNat statics.status, len := 1, flags := UInt16.ofNat virtqDescFWrite,
            next := 0 } }
  | .setAvailRing =>
      some { s.goto .setAvailIdx with
        memory := queue.setAvailRing s.memory (s.driver.availIdx % virtioBlockQueueSize.toUInt16) 0 }
  | .setAvailIdx =>
      some { s with
        driver := { s.driver with availIdx := s.driver.availIdx + 1, phase := .poll 0 },
        memory := queue.setAvailIdx s.memory (s.driver.availIdx + 1) }
  | .poll spins =>
      if queue.usedIdx s.memory = s.driver.usedIdx then
        if spins = virtioBlockRequestPollLimit then
          some (s.goto (.returned (.error .requestTimeout)))
        else some (s.goto (.poll (spins + 1)))
      else some (s.goto .readUsed)
  | .readUsed =>
      let usedElem := queue.usedElem s.memory (s.driver.usedIdx % virtioBlockQueueSize.toUInt16)
      if usedElem.id ≠ 0 then
        some (s.goto (.returned (.error (.unexpectedUsedId usedElem.id.toNat))))
      else
        some { s with driver := { s.driver with usedIdx := s.driver.usedIdx + 1, phase := .readStatus } }
  | .readStatus =>
      some (s.goto (.returned
        (if s.memory statics.status = virtioBlkStatusOk then .ok ()
         else .error (.blockRequestFailed (s.memory statics.status)))))
  | .returned _ => none

/-- The driver is outside `read_blocks`. -/
def outside (s : State) : Bool :=
  match s.driver.phase with
  | .idle       => true
  | .returned _ => true
  | _           => false

/-- Fetch the next published entry: the head, and the chain of three descriptors. -/
def fetch (s : State) : Option State :=
  let queue := statics.queue
  if s.device.lastAvail = queue.availIdx s.memory then none
  else
    let head := queue.availRing s.memory (s.device.lastAvail % virtioBlockQueueSize.toUInt16)
    let first := queue.readDescriptor s.memory head
    let second := queue.readDescriptor s.memory first.next
    let third := queue.readDescriptor s.memory second.next
    some { s with device :=
      { lastAvail := s.device.lastAvail + 1,
        pending   := s.device.pending ++
          [{ head := head, sector := (headerCodec.get s.memory first.addr.toNat).sector.toNat,
             address := second.addr.toNat, length := second.len.toNat,
             statusAddress := third.addr.toNat, stage := .fetched }] } }

/-- Replace the request at `index`. -/
def setRequest (s : State) (index : Nat) (request : Fetched) : State :=
  { s with device := { s.device with pending := s.device.pending.set index request } }

/-- Perform a fetched request: transfer between `disk` and its buffer. -/
def perform (disk : Nat → UInt8) (s : State) (index : Nat) (outcome : Virtio.State.Outcome) :
    Option State := do
  let request ← s.device.pending[index]?
  if request.stage ≠ .fetched then none
  else
    match outcome with
    | .ok =>
        some { s.setRequest index { request with stage := .performed virtioBlkStatusOk } with
          memory := Virtio.State.writeBuffer s.memory request.address request.length
            (fun i => disk (virtioSectorSize * request.sector + i)) }
    | .failed status content =>
        if status = virtioBlkStatusOk then none
        else
          some { s.setRequest index { request with stage := .performed status } with
            memory := Virtio.State.writeBuffer s.memory request.address request.length content }

/-- Write the status byte of a performed request. -/
def report (s : State) (index : Nat) : Option State := do
  let request ← s.device.pending[index]?
  match request.stage with
  | .performed status =>
      some { s.setRequest index { request with stage := .reported status } with
        memory := store s.memory request.statusAddress [status] }
  | _ => none

/-- Push the used element of a reported request: the element, then the index. -/
def push (s : State) (index : Nat) : Option State := do
  let queue := statics.queue
  let request ← s.device.pending[index]?
  match request.stage with
  | .reported _ =>
      let usedIdx := queue.usedIdx s.memory
      let memory := queue.setUsedElem s.memory (usedIdx % virtioBlockQueueSize.toUInt16)
        { id := request.head.toUInt32, len := UInt32.ofNat (request.length + 1) }
      some { s with
        memory := queue.setUsedIdx memory (usedIdx + 1),
        device := { s.device with pending := s.device.pending.eraseIdx index } }
  | _ => none

/-- The caller owns no byte of the statics, and cannot write them. -/
def callerWrites (s : State) (memory : Memory) : State :=
  { s.goto .idle with memory := fun a => if statics.Owns a then s.memory a else memory a }

def step (disk : Nat → UInt8) (s : State) : Virtio.State.Action → Option State
  | .call call             => if s.outside then some (s.enter call) else none
  | .advance               => s.advance statics
  | .callerWrites memory   => if s.outside then some (s.callerWrites statics memory) else none
  | .fetch                 => s.fetch statics
  | .perform index outcome => s.perform disk index outcome
  | .report index          => s.report index
  | .push index            => s.push statics index

end State

/-! ## §2. The records that the memory shows. -/

/-- The header in memory is the record. -/
structure HeaderIs (raw : VirtioBlkReqHeader) (header : Virtio.VirtioBlkReqHeader) : Prop where
  requestType : raw.requestType.toNat = header.requestType
  reserved    : raw.reserved.toNat = header.reserved
  sector      : raw.sector.toNat = header.sector

namespace Statics

variable (statics : Statics)

/-- The address of what a descriptor points at. -/
def address : Place → Nat
  | .header         => statics.header
  | .status         => statics.status
  | .buffer address => address

/-- The descriptor in memory is the record. -/
structure Describes (raw : VirtqDescriptor) (descriptor : Virtio.VirtqDescriptor) : Prop where
  addr  : raw.addr.toNat = statics.address descriptor.addr
  len   : raw.len.toNat = descriptor.len
  flags : raw.flags.toNat = descriptor.flags
  next  : raw.next.toNat = descriptor.next

/-- The field of the queue page shows the record. -/
def FieldIs (queue : Virtio.VirtQueue) : (field : QueueField) → field.Value → Prop
  | .descriptor index, raw => statics.Describes raw (queue.descriptors index)
  | .availRing slot, raw   => raw.toNat = queue.availRing slot
  | .availIdx, raw         => raw = queue.availIdx
  | .usedElem slot, raw    => raw.id.toNat = (queue.usedRing slot).id ∧ raw.len.toNat = (queue.usedRing slot).len
  | .usedIdx, raw          => raw = queue.usedIdx
  | .availFlags, _         => True
  | .usedEvent, _          => True
  | .usedFlags, _          => True
  | .availEvent, _         => True

/-- **What a memory shows**: the records in the statics, and outside them the memory of
    the callers. -/
structure Pictures (memory : Memory) (queue : Virtio.VirtQueue) (header : Virtio.VirtioBlkReqHeader)
    (status : UInt8) (outside : Memory) : Prop where
  queue   : ∀ field, statics.queue.layout.Has field →
    statics.FieldIs queue field (statics.queue.read memory field)
  header  : HeaderIs (headerCodec.get memory statics.header) header
  status  : memory statics.status = status
  outside : ∀ a, ¬ statics.Owns a → memory a = outside a

end Statics

section Pictures

variable {statics : Statics} {memory outside : Memory} {queue queue' : Virtio.VirtQueue}
  {header header' : Virtio.VirtioBlkReqHeader} {status : UInt8}

open Statics

theorem Statics.proper (statics : Statics) : statics.queue.Proper := ⟨_, _, statics.layout⟩

/-- A field of the queue is in its page. -/
theorem Statics.field_in_page (statics : Statics) {field : QueueField}
    (hfield : statics.queue.layout.Has field) :
    statics.queue.base ≤ statics.queue.pointer field
      ∧ statics.queue.pointer field + field.codec.size ≤ statics.queue.base + 4096 := by
  unfold VirtQueue.pointer
  rw [statics.layout] at hfield ⊢
  have hle := VirtQueueLayout.field_le_total hfield
  have htotal : (VirtQueueLayout.new virtioBlockQueueSize.toUInt16 false).totalSize = 112 := by decide
  omega

/-- Bytes outside the queue page do not matter to the queue. -/
theorem read_congr_page (memory : Memory) {memory' : Memory} {field : QueueField}
    (hfield : statics.queue.layout.Has field)
    (h : ∀ a, Within statics.queue.base 4096 a → memory' a = memory a) :
    statics.queue.read memory' field = statics.queue.read memory field := by
  obtain ⟨hlo, hhi⟩ := statics.field_in_page hfield
  refine Codec.get_congr _ memory ?_
  intro a ha
  unfold Within at ha
  exact h a ⟨by omega, by omega⟩

/-- **A write of a queue field.** -/
theorem Statics.Pictures.write (h : statics.Pictures memory queue header status outside)
    {field : QueueField} (hfield : statics.queue.layout.Has field) {value : field.Value}
    (hvalue : statics.FieldIs queue' field value)
    (hothers : ∀ field' ≠ field, ∀ value', statics.FieldIs queue field' value' →
      statics.FieldIs queue' field' value') :
    statics.Pictures (statics.queue.write memory field value) queue' header status outside := by
  obtain ⟨hlo, hhi⟩ := statics.field_in_page hfield
  have hpage : ∀ a, ¬ Within statics.queue.base 4096 a →
      statics.queue.write memory field value a = memory a := by
    intro a ha
    refine Codec.set_outside _ _ _ ?_
    unfold Within at ha ⊢
    omega
  refine ⟨?_, ?_, ?_, ?_⟩
  · intro field' hfield'
    by_cases hsame : field' = field
    · subst hsame
      rw [VirtQueue.read_write_same]
      exact hvalue
    · rw [statics.proper.read_write_other hfield hfield' hsame]
      exact hothers field' hsame _ (h.queue field' hfield')
  · rw [Codec.get_congr _ memory]
    · exact h.header
    · intro a ha
      exact hpage a (statics.queueHeader.symm.not_within ha)
  · rw [hpage _ (statics.queueStatus.symm.not_within ⟨Nat.le_refl _, Nat.lt_succ_self _⟩)]
    exact h.status
  · intro a ha
    rw [hpage a (fun hin => ha (Or.inl hin))]
    exact h.outside a ha

/-- A write of the request header. -/
theorem Statics.Pictures.writeHeader (h : statics.Pictures memory queue header status outside)
    {raw : VirtioBlkReqHeader} (hraw : HeaderIs raw header') :
    statics.Pictures (headerCodec.set memory statics.header raw) queue header' status outside := by
  have hother : ∀ a, ¬ Within statics.header 16 a →
      headerCodec.set memory statics.header raw a = memory a := fun a ha =>
    headerCodec.set_outside _ _ ha
  refine ⟨?_, ?_, ?_, ?_⟩
  · intro field hfield
    rw [read_congr_page memory hfield]
    · exact h.queue field hfield
    · intro a ha
      exact hother a (statics.queueHeader.not_within ha)
  · rw [Codec.get_set]
    exact hraw
  · rw [hother _ (statics.headerStatus.symm.not_within ⟨Nat.le_refl _, Nat.lt_succ_self _⟩)]
    exact h.status
  · intro a ha
    rw [hother a (fun hin => ha (Or.inr (Or.inl hin)))]
    exact h.outside a ha

/-- A write of the status byte. -/
theorem Statics.Pictures.writeStatus (h : statics.Pictures memory queue header status outside)
    (status' : UInt8) :
    statics.Pictures (store memory statics.status [status']) queue header status' outside := by
  have hother : ∀ a, ¬ Within statics.status 1 a → store memory statics.status [status'] a = memory a :=
    fun a ha => store_outside ha
  refine ⟨?_, ?_, ?_, ?_⟩
  · intro field hfield
    rw [read_congr_page memory hfield]
    · exact h.queue field hfield
    · intro a ha
      exact hother a (statics.queueStatus.not_within ha)
  · rw [Codec.get_congr _ memory]
    · exact h.header
    · intro a ha
      exact hother a (statics.headerStatus.not_within ha)
  · have hstored : some (store memory statics.status [status'] statics.status)
        = [status'][statics.status - statics.status]? :=
      store_within ⟨Nat.le_refl _, Nat.lt_succ_self _⟩
    rw [Nat.sub_self] at hstored
    exact Option.some.inj hstored
  · intro a ha
    rw [hother a (fun hin => ha (Or.inr (Or.inr hin)))]
    exact h.outside a ha

/-- A write outside the statics. -/
theorem Statics.Pictures.writeOutside (h : statics.Pictures memory queue header status outside)
    {memory' outside' : Memory} (howned : ∀ a, statics.Owns a → memory' a = memory a)
    (houtside : ∀ a, ¬ statics.Owns a → memory' a = outside' a) :
    statics.Pictures memory' queue header status outside' := by
  refine ⟨?_, ?_, ?_, houtside⟩
  · intro field hfield
    rw [read_congr_page memory hfield]
    · exact h.queue field hfield
    · intro a ha
      exact howned a (Or.inl ha)
  · rw [Codec.get_congr _ memory]
    · exact h.header
    · intro a ha
      exact howned a (Or.inr (Or.inl ha))
  · rw [howned _ (Or.inr (Or.inr ⟨Nat.le_refl _, Nat.lt_succ_self _⟩))]
    exact h.status

/-- Zeroed bytes are loaded as zeros. -/
theorem load_zeroed {start n address length : Nat} (hlo : start ≤ address)
    (hhi : address + length ≤ start + n) :
    load (store memory start (List.replicate n 0)) address length = List.replicate length 0 := by
  apply List.ext_getElem?
  intro i
  by_cases hi : i < length
  · have hin : Within start (List.replicate n (0 : UInt8)).length (address + i) := by
      rw [List.length_replicate]
      exact ⟨by omega, by omega⟩
    rw [load_getElem? hi, store_within hin, List.getElem?_replicate, List.getElem?_replicate,
      if_pos hi, if_pos (by omega)]
  · rw [List.getElem?_eq_none (by rw [load_length]; omega),
      List.getElem?_eq_none (by rw [List.length_replicate]; omega)]

/-- The cleared statics show the records of the start. -/
theorem pictures_cleared (statics : Statics) (memory : Memory) :
    statics.Pictures (statics.cleared memory) (Virtio.initial memory).queue
      (Virtio.initial memory).header (Virtio.initial memory).status memory := by
  have hzeroed : statics.Pictures (store memory statics.queue.base (List.replicate 4096 0))
      (Virtio.initial memory).queue
      ⟨(headerCodec.get (store memory statics.queue.base (List.replicate 4096 0))
          statics.header).requestType.toNat,
        (headerCodec.get (store memory statics.queue.base (List.replicate 4096 0))
          statics.header).reserved.toNat,
        (headerCodec.get (store memory statics.queue.base (List.replicate 4096 0))
          statics.header).sector.toNat⟩
      (store memory statics.queue.base (List.replicate 4096 0) statics.status) memory := by
    refine ⟨?_, ⟨rfl, rfl, rfl⟩, rfl, ?_⟩
    · intro field hfield
      obtain ⟨hlo, hhi⟩ := statics.field_in_page hfield
      unfold VirtQueue.read Codec.get
      rw [load_zeroed hlo hhi]
      cases field with
      | descriptor index => exact ⟨rfl, rfl, rfl, rfl⟩
      | usedElem slot => exact ⟨rfl, rfl⟩
      | _ => first | exact rfl | exact trivial
    · intro a ha
      refine store_outside (fun hin => ha (Or.inl ?_))
      rw [List.length_replicate] at hin
      exact hin
  have hheader : HeaderIs ⟨0, 0, 0⟩ ⟨0, 0, 0⟩ := ⟨rfl, rfl, rfl⟩
  exact (hzeroed.writeHeader hheader).writeStatus 0xff

end Pictures

end RustFirmware.Virtio.Raw
