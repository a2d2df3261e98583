/-
  RustFirmware.Virtio.Queue
  ─────────────────────────
  **THE BLOCK REQUEST QUEUE OF `src/virtio.rs`: THE DRIVER, ITS SHARED MEMORY AND
  THE DEVICE.**

  `read_blocks` is cut into its accesses of shared memory, one micro-step each
  (`DriverPhase`), so that a device step can fall between any two of them.  The
  device fetches published entries in order, keeps what their descriptors named,
  and later writes data, status byte and used element, in that order, of any
  fetched request.

  The statics of the source are fields: what a descriptor points at is the header,
  the status byte or a buffer of the caller.  `History` numbers the published
  entries; the code does not see it.
-/
import RustFirmware.Lib.Transition
import Mathlib.Data.Nat.Bitwise
import Mathlib.Logic.Function.Basic

namespace RustFirmware.Virtio

open RustFirmware.Lib

/-! ## §1. Shared memory. -/

def virtioSectorSize : Nat := 512
def virtioBlkRequestTypeIn : Nat := 0
def virtioBlkStatusOk : UInt8 := 0
def virtioBlockQueueSize : Nat := 4
def virtioBlockRequestPollLimit : Nat := 10000000

/-- `VIRTQ_DESC_F_NEXT` and `VIRTQ_DESC_F_WRITE`. -/
def virtqDescFNext : Nat := 1
def virtqDescFWrite : Nat := 2

/-- The errors of `read_blocks`. -/
inductive VirtioError where
  | invalidBufferLength
  | requestTimeout
  | unexpectedUsedId (id : Nat)
  | blockRequestFailed (status : UInt8)
  deriving Repr, DecidableEq

/-- `VirtioBlkReqHeader`. -/
structure VirtioBlkReqHeader where
  requestType : Nat
  reserved    : Nat
  sector      : Nat
  deriving Repr, DecidableEq

/-- What the address in a descriptor points at. -/
inductive Place where
  | header
  | status
  | buffer (address : Nat)
  deriving Repr, DecidableEq

/-- `VirtqDescriptor`. -/
structure VirtqDescriptor where
  addr  : Place
  len   : Nat
  flags : Nat
  next  : Nat
  deriving Repr, DecidableEq

/-- `VirtqUsedElem`. -/
structure VirtqUsedElem where
  id  : Nat
  len : Nat
  deriving Repr, DecidableEq

/-- The queue page: the descriptor table and the two rings. -/
structure VirtQueue where
  descriptors : Nat → VirtqDescriptor
  availRing   : Nat → Nat
  availIdx    : UInt16
  usedRing    : Nat → VirtqUsedElem
  usedIdx     : UInt16

/-! ## §2. The two parties. -/

/-- The arguments of a `read_blocks` call: the buffer is `length` bytes at
    `address`. -/
structure ReadCall where
  sector  : Nat
  address : Nat
  length  : Nat
  deriving Repr, DecidableEq

/-- Where the driver is in `read_blocks`. -/
inductive DriverPhase where
  | idle
  | writeHeader
  | writeStatus
  | writeDescriptor0
  | writeDescriptor1
  | writeDescriptor2
  | setAvailRing
  | setAvailIdx
  | poll (spins : Nat)
  | readUsed
  | readStatus
  | returned (result : Except VirtioError Unit)

/-- `VirtioBlockDriver`, with the call in progress or last returned, and the number
    of the entry that call published. -/
structure Driver where
  availIdx : UInt16
  usedIdx  : UInt16
  phase    : DriverPhase
  call     : ReadCall
  ticket   : Nat

/-- How far the device is with a fetched request. -/
inductive RequestStage where
  | fetched
  | performed (status : UInt8)
  | reported (status : UInt8)
  deriving Repr, DecidableEq

/-- A fetched request: what its descriptors and the header said at fetch time. -/
structure Fetched where
  ticket  : Nat
  head    : Nat
  sector  : Nat
  address : Nat
  length  : Nat
  stage   : RequestStage
  deriving Repr, DecidableEq

/-- The device: the next available entry it looks at and its fetched requests. -/
structure Device where
  lastAvail : UInt16
  pending   : List Fetched

/-- The entries in the order of publication: how many were published and fetched,
    and which were performed. -/
structure History where
  published : Nat
  fetched   : Nat
  performed : List Nat

structure State where
  driver  : Driver
  queue   : VirtQueue
  header  : VirtioBlkReqHeader
  status  : UInt8
  memory  : Nat → UInt8
  device  : Device
  history : History

/-- The state that `VirtioBlockDriver::new` leaves. -/
def initial (memory : Nat → UInt8) : State where
  driver  := { availIdx := 0, usedIdx := 0, phase := .idle, call := ⟨0, 0, 0⟩, ticket := 0 }
  queue   := { descriptors := fun _ => ⟨.buffer 0, 0, 0, 0⟩, availRing := fun _ => 0, availIdx := 0,
               usedRing := fun _ => ⟨0, 0⟩, usedIdx := 0 }
  header  := ⟨0, 0, 0⟩
  status  := 0xff
  memory  := memory
  device  := { lastAvail := 0, pending := [] }
  history := { published := 0, fetched := 0, performed := [] }

/-! ## §3. The driver's steps. -/

namespace State

/-- Go on to `phase`. -/
def goto (s : State) (phase : DriverPhase) : State :=
  { s with driver := { s.driver with phase := phase } }

/-- Write a descriptor. -/
def writeDescriptor (s : State) (index : Nat) (descriptor : VirtqDescriptor) : State :=
  { s with queue := { s.queue with
      descriptors := Function.update s.queue.descriptors index descriptor } }

@[simp] theorem writeDescriptor_same (s : State) (index : Nat) (descriptor : VirtqDescriptor) :
    (s.writeDescriptor index descriptor).queue.descriptors index = descriptor := by
  simp [writeDescriptor]

theorem writeDescriptor_other (s : State) {index other : Nat} (h : other ≠ index)
    (descriptor : VirtqDescriptor) :
    (s.writeDescriptor index descriptor).queue.descriptors other = s.queue.descriptors other := by
  simp [writeDescriptor, Function.update_of_ne h]

/-- Entering `read_blocks`: the two checks of the buffer length. -/
def enter (s : State) (call : ReadCall) : State :=
  { s with driver := { s.driver with
      call  := call,
      phase :=
        if call.length = 0 ∨ call.length % virtioSectorSize ≠ 0 then
          .returned (.error .invalidBufferLength)
        else if ¬ call.length < 2 ^ 32 then .returned (.error .invalidBufferLength)
        else .writeHeader } }

/-- The next micro-step of `read_blocks`. -/
def advance (s : State) : Option State :=
  match s.driver.phase with
  | .idle => none
  | .writeHeader =>
      some { s.goto .writeStatus with
        header := { requestType := virtioBlkRequestTypeIn, reserved := 0, sector := s.driver.call.sector } }
  | .writeStatus => some { s.goto .writeDescriptor0 with status := 0xff }
  | .writeDescriptor0 =>
      some ((s.goto .writeDescriptor1).writeDescriptor 0
        { addr := .header, len := 16, flags := virtqDescFNext, next := 1 })
  | .writeDescriptor1 =>
      some ((s.goto .writeDescriptor2).writeDescriptor 1
        { addr := .buffer s.driver.call.address, len := s.driver.call.length,
          flags := virtqDescFWrite ||| virtqDescFNext, next := 2 })
  | .writeDescriptor2 =>
      some ((s.goto .setAvailRing).writeDescriptor 2
        { addr := .status, len := 1, flags := virtqDescFWrite, next := 0 })
  | .setAvailRing =>
      some { s.goto .setAvailIdx with queue := { s.queue with
        availRing := Function.update s.queue.availRing
          (s.driver.availIdx.toNat % virtioBlockQueueSize) 0 } }
  | .setAvailIdx =>
      -- the entry becomes visible to the device here
      some { s with
        driver  := { s.driver with availIdx := s.driver.availIdx + 1, phase := .poll 0,
                                   ticket := s.history.published },
        queue   := { s.queue with availIdx := s.driver.availIdx + 1 },
        history := { s.history with published := s.history.published + 1 } }
  | .poll spins =>
      if s.queue.usedIdx = s.driver.usedIdx then
        if spins = virtioBlockRequestPollLimit then
          some (s.goto (.returned (.error .requestTimeout)))
        else some (s.goto (.poll (spins + 1)))
      else some (s.goto .readUsed)
  | .readUsed =>
      let usedElem := s.queue.usedRing (s.driver.usedIdx.toNat % virtioBlockQueueSize)
      if usedElem.id ≠ 0 then some (s.goto (.returned (.error (.unexpectedUsedId usedElem.id))))
      else
        some { s with driver := { s.driver with usedIdx := s.driver.usedIdx + 1, phase := .readStatus } }
  | .readStatus =>
      some (s.goto (.returned
        (if s.status = virtioBlkStatusOk then .ok () else .error (.blockRequestFailed s.status))))
  | .returned _ => none

/-- The driver is outside `read_blocks`. -/
def outside (s : State) : Bool :=
  match s.driver.phase with
  | .idle       => true
  | .returned _ => true
  | _           => false

/-! ## §4. The device's steps. -/

/-- Fetch the next published entry and read its descriptor chain. -/
def fetch (s : State) : Option State :=
  if s.device.lastAvail = s.queue.availIdx then none
  else
    let head := s.queue.availRing (s.device.lastAvail.toNat % virtioBlockQueueSize)
    let data := s.queue.descriptors (s.queue.descriptors head).next
    match data.addr with
    | .buffer address =>
        some { s with
          device  := { lastAvail := s.device.lastAvail + 1,
                       pending   := s.device.pending ++
                         [{ ticket := s.history.fetched, head := head, sector := s.header.sector,
                            address := address, length := data.len, stage := .fetched }] },
          history := { s.history with fetched := s.history.fetched + 1 } }
    | _ => none

/-- Write `length` bytes at `address`. -/
def writeBuffer (memory : Nat → UInt8) (address length : Nat) (content : Nat → UInt8) :
    Nat → UInt8 :=
  fun a => if address ≤ a ∧ a < address + length then content (a - address) else memory a

/-- How the transfer ends: with the data, or with an error status and anything in
    the buffer. -/
inductive Outcome where
  | ok
  | failed (status : UInt8) (content : Nat → UInt8)

/-- Replace the request at `index`. -/
def setRequest (s : State) (index : Nat) (request : Fetched) : State :=
  { s with device := { s.device with pending := s.device.pending.set index request } }

/-- Perform a fetched request: transfer between `disk` and its buffer. -/
def perform (disk : Nat → UInt8) (s : State) (index : Nat) (outcome : Outcome) : Option State := do
  let request ← s.device.pending[index]?
  if request.stage ≠ .fetched then none
  else
    let performed := request.ticket :: s.history.performed
    match outcome with
    | .ok =>
        some { s.setRequest index { request with stage := .performed virtioBlkStatusOk } with
          memory  := writeBuffer s.memory request.address request.length
            (fun i => disk (virtioSectorSize * request.sector + i)),
          history := { s.history with performed := performed } }
    | .failed status content =>
        if status = virtioBlkStatusOk then none
        else
          some { s.setRequest index { request with stage := .performed status } with
            memory  := writeBuffer s.memory request.address request.length content,
            history := { s.history with performed := performed } }

/-- Write the shared status byte of a performed request. -/
def report (s : State) (index : Nat) : Option State := do
  let request ← s.device.pending[index]?
  match request.stage with
  | .performed status =>
      some { s.setRequest index { request with stage := .reported status } with status := status }
  | _ => none

/-- Push the used element of a reported request. -/
def push (s : State) (index : Nat) : Option State := do
  let request ← s.device.pending[index]?
  match request.stage with
  | .reported _ =>
      some { s with
        queue  := { s.queue with
          usedRing := Function.update s.queue.usedRing (s.queue.usedIdx.toNat % virtioBlockQueueSize)
            { id := request.head, len := request.length + 1 },
          usedIdx  := s.queue.usedIdx + 1 },
        device := { s.device with pending := s.device.pending.eraseIdx index } }
  | _ => none

/-! ## §5. Runs. -/

/-- A step of one of the parties; between calls the caller may change its memory. -/
inductive Action where
  | call (call : ReadCall)
  | advance
  | callerWrites (memory : Nat → UInt8)
  | fetch
  | perform (index : Nat) (outcome : Outcome)
  | report (index : Nat)
  | push (index : Nat)

def step (disk : Nat → UInt8) (s : State) : Action → Option State
  | .call call            => if s.outside then some (s.enter call) else none
  | .advance              => s.advance
  | .callerWrites memory  => if s.outside then some { s.goto .idle with memory := memory } else none
  | .fetch                => s.fetch
  | .perform index outcome => s.perform disk index outcome
  | .report index         => s.report index
  | .push index           => s.push index

end State

end RustFirmware.Virtio
