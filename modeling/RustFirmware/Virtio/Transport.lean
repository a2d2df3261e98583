/-
  RustFirmware.Virtio.Transport
  ─────────────────────────────
  **THE MMIO TRANSPORT OF `src/virtio.rs`: REGISTERS, THE START OF THE DRIVER.**

  Every function is a program over device registers: a read asks the device, whatever
  it is.  `VirtioBlockDriver::new` is one of them; the page that it zeroes for the
  queue is a cell of its own, so that the order of that write among the register
  accesses is part of the program.

  The one loop that waits for the device, in `read_config_u64_le`, takes the number of
  passes it may make; `none` is a loop that has not ended.
-/
import RustFirmware.Lib.Registers
import RustFirmware.Virtio.Layout
import RustFirmware.Virtio.Queue

namespace RustFirmware.Virtio

open RustFirmware.Lib

/-! ## §1. Registers. -/

def virtioMmioMagic : Nat := 0x74726976
def virtioMmioVersion1 : Nat := 2
def virtioDeviceIdBlock : Nat := 2

def mmioMagicValue : Nat := 0x000
def mmioVersion : Nat := 0x004
def mmioDeviceId : Nat := 0x008
def mmioDeviceFeatures : Nat := 0x010
def mmioDeviceFeaturesSel : Nat := 0x014
def mmioDriverFeatures : Nat := 0x020
def mmioDriverFeaturesSel : Nat := 0x024
def mmioQueueSel : Nat := 0x030
def mmioQueueNumMax : Nat := 0x034
def mmioQueueNum : Nat := 0x038
def mmioQueueReady : Nat := 0x044
def mmioStatus : Nat := 0x070
def mmioQueueDescLow : Nat := 0x080
def mmioQueueDriverLow : Nat := 0x090
def mmioQueueDeviceLow : Nat := 0x0a0
def mmioConfigGeneration : Nat := 0x0fc

def virtioStatusAcknowledge : Nat := 1
def virtioStatusDriver : Nat := 2
def virtioStatusDriverOk : Nat := 4
def virtioStatusFeaturesOk : Nat := 8

def virtioFVersion1Selector : Nat := 1
def virtioFVersion1Bit : Nat := 1
def virtioBlockQueue : Nat := 0

/-- What an access of the driver goes to: a register or a configuration byte by its
    address, or `length` bytes of memory that are filled at once. -/
inductive Cell where
  | register (address : Nat)
  | byte (address : Nat)
  | fill (address length : Nat)
  deriving Repr, DecidableEq

/-- A program over the cells of a transport. -/
abbrev Mmio := Program Cell Nat

/-- `VirtioMmioDevice`. -/
structure VirtioMmioDevice where
  base    : Nat
  nonNull : base ≠ 0
  deriving DecidableEq

namespace VirtioMmioDevice

variable (self : VirtioMmioDevice)

def readReg (offset : Nat) : Mmio Nat := Program.get (.register (self.base + offset))

def writeReg (offset value : Nat) : Mmio Unit := Program.set (.register (self.base + offset)) value

/-- `write_reg64`: the low half, then the high half. -/
def writeReg64 (offsetLow value : Nat) : Mmio Unit := do
  self.writeReg offsetLow (value % 2 ^ 32)
  self.writeReg (offsetLow + 4) (value / 2 ^ 32 % 2 ^ 32)

def magicValue : Mmio Nat := self.readReg mmioMagicValue
def version : Mmio Nat := self.readReg mmioVersion
def deviceId : Mmio Nat := self.readReg mmioDeviceId

/-- `is_present`: each register is read only if the ones before it fit. -/
def isPresent : Mmio Bool := do
  let magic ← self.magicValue
  if magic = virtioMmioMagic then
    let version ← self.version
    if version = virtioMmioVersion1 then
      let deviceId ← self.deviceId
      pure (decide (deviceId ≠ 0))
    else pure false
  else pure false

/-- `is_block_device`. -/
def isBlockDevice : Mmio Bool := do
  let present ← self.isPresent
  if present then
    let deviceId ← self.deviceId
    pure (decide (deviceId = virtioDeviceIdBlock))
  else pure false

/-- `device_features`. -/
def deviceFeatures (selector : Nat) : Mmio Nat := do
  self.writeReg mmioDeviceFeaturesSel selector
  self.readReg mmioDeviceFeatures

/-- `set_driver_features`. -/
def setDriverFeatures (selector features : Nat) : Mmio Unit := do
  self.writeReg mmioDriverFeaturesSel selector
  self.writeReg mmioDriverFeatures features

def selectQueue (queueIndex : Nat) : Mmio Unit := self.writeReg mmioQueueSel queueIndex
def queueNumMax : Mmio Nat := self.readReg mmioQueueNumMax
def setQueueNum (queueSize : Nat) : Mmio Unit := self.writeReg mmioQueueNum queueSize
def setQueueReady (ready : Bool) : Mmio Unit := self.writeReg mmioQueueReady ready.toNat

/-- `set_queue_addresses`. -/
def setQueueAddresses (desc driver device : Nat) : Mmio Unit := do
  self.writeReg64 mmioQueueDescLow desc
  self.writeReg64 mmioQueueDriverLow driver
  self.writeReg64 mmioQueueDeviceLow device

def status : Mmio Nat := self.readReg mmioStatus
def reset : Mmio Unit := self.writeReg mmioStatus 0

/-- `add_status`: the bits are added to what the device says its status is. -/
def addStatus (bits : Nat) : Mmio Unit := do
  let status ← self.status
  self.writeReg mmioStatus (status ||| bits)

def configGeneration : Mmio Nat := self.readReg mmioConfigGeneration

/-- The byte loop of `read_config_u64_le`, with `count` bytes left. -/
def readConfigBytes (offset : Nat) : (count : Nat) → Mmio Bytes
  | 0 => pure []
  | count + 1 => do
      let value ← Program.get (.byte (self.base + 0x100 + offset))
      let rest ← readConfigBytes (offset + 1) count
      pure (UInt8.ofNat value :: rest)

/-- `read_config_u64_le`, for at most `passes` passes of its loop. -/
def readConfigU64Le (offset : Nat) : (passes : Nat) → Mmio (Option Nat)
  | 0 => pure none
  | passes + 1 => do
      let before ← self.configGeneration
      let bytes ← self.readConfigBytes offset 8
      let after ← self.configGeneration
      if before = after then pure (some (leNat bytes)) else readConfigU64Le offset passes

end VirtioMmioDevice

/-! ## §2. The start of the driver. -/

/-- The errors of `VirtioBlockDriver::new`. -/
inductive VirtioInitError where
  | notBlockDevice
  | queueTooSmall
  | missingVersion1
  | featureNegotiationFailed
  | queueCreationFailed
  deriving Repr, DecidableEq

/-- `VirtioBlockDriver`, as `new` leaves it. -/
structure VirtioBlockDriver where
  device          : VirtioMmioDevice
  capacitySectors : Nat
  queue           : Raw.VirtQueue
  availIdx        : UInt16
  usedIdx         : UInt16

namespace VirtioBlockDriver

/-- `new` from the queue on: the page is zeroed, its parts are programmed, and the
    driver is ready. -/
def setUpQueue (device : VirtioMmioDevice) (queueBase capacitySectors : Nat) :
    Mmio (Except VirtioInitError VirtioBlockDriver) := do
  device.selectQueue virtioBlockQueue
  let queueNumMax ← device.queueNumMax
  if queueNumMax < virtioBlockQueueSize then pure (.error .queueTooSmall)
  else
    let layout := Raw.VirtQueueLayout.new virtioBlockQueueSize.toUInt16 false
    if layout.totalSize > 4096 then pure (.error .queueTooSmall)
    else
      Program.set (.fill queueBase 4096) 0
      match Raw.VirtQueue.fromPtr queueBase virtioBlockQueueSize.toUInt16 false with
      | none       => pure (.error .queueCreationFailed)
      | some queue =>
          device.setQueueNum virtioBlockQueueSize
          device.setQueueAddresses (queueBase + layout.descOffset) (queueBase + layout.availOffset)
            (queueBase + layout.usedOffset)
          device.setQueueReady true
          device.addStatus virtioStatusDriverOk
          pure (.ok { device, capacitySectors, queue, availIdx := 0, usedIdx := 0 })

/-- `new` from the reset on: the features are negotiated. -/
def negotiate (device : VirtioMmioDevice) (queueBase capacitySectors : Nat) :
    Mmio (Except VirtioInitError VirtioBlockDriver) := do
  device.reset
  device.addStatus virtioStatusAcknowledge
  device.addStatus virtioStatusDriver
  let deviceFeaturesHi ← device.deviceFeatures virtioFVersion1Selector
  if deviceFeaturesHi &&& virtioFVersion1Bit = 0 then pure (.error .missingVersion1)
  else
    device.setDriverFeatures 0 0
    device.setDriverFeatures virtioFVersion1Selector virtioFVersion1Bit
    device.addStatus virtioStatusFeaturesOk
    let status ← device.status
    if status &&& virtioStatusFeaturesOk = 0 then pure (.error .featureNegotiationFailed)
    else setUpQueue device queueBase capacitySectors

/-- `VirtioBlockDriver::new`, with the queue page at `queueBase` and `passes` passes of
    the loop that reads the capacity; `none` while that loop has not ended. -/
def new (device : VirtioMmioDevice) (queueBase passes : Nat) :
    Mmio (Option (Except VirtioInitError VirtioBlockDriver)) := do
  let isBlockDevice ← device.isBlockDevice
  if ¬ isBlockDevice then pure (some (.error .notBlockDevice))
  else
    let capacity ← device.readConfigU64Le 0 passes
    match capacity with
    | none                 => pure none
    | some capacitySectors => do
        let result ← negotiate device queueBase capacitySectors
        pure (some result)

end VirtioBlockDriver

end RustFirmware.Virtio
