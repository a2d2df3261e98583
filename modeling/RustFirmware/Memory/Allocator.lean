/-
  RustFirmware.Memory.Allocator
  ─────────────────────────────
  **THE PAGE ALLOCATOR OF `src/memory.rs`, FUNCTION BY FUNCTION.**

  A `PageAllocator` is a descriptor buffer of fixed length with a count of
  active descriptors.  Every `&mut self` method returns the new allocator next
  to its result, ALSO on an error path: a carve that fails half-way has already
  changed the map, and the model keeps that.

  Loops run over an explicit bound.  The carve loops raise their index in every
  pass and stop at `descriptor_count`, so the buffer length bounds them; a pass
  of `coalesce` either raises the index or lowers the count.
-/
import RustFirmware.Lib.Buffer
import RustFirmware.Memory.Types

namespace RustFirmware.Memory

open RustFirmware.Lib

/-- `PageAllocator`: the buffer, and how many of its descriptors are valid. -/
structure PageAllocator where
  descriptors     : List EfiMemoryDescriptor
  descriptorCount : Nat
  deriving Repr, DecidableEq

/-- What a `&mut self` method leaves behind: its result and the allocator. -/
abbrev Outcome (α : Type) := Except MemoryError α × PageAllocator

namespace PageAllocator

/-- `descriptors()`: the active part of the buffer. -/
def activeDescriptors (self : PageAllocator) : List EfiMemoryDescriptor :=
  self.descriptors.take self.descriptorCount

/-- `self.descriptors[index]`. -/
def descriptorAt (self : PageAllocator) (index : Nat) : EfiMemoryDescriptor :=
  self.descriptors.getD index emptyDescriptor

/-! ## §1. In-place edits of the descriptor array. -/

def insertDescriptor (self : PageAllocator) (index : Nat) (descriptor : EfiMemoryDescriptor) :
    Outcome Unit :=
  -- a full buffer and an index behind the active part are reported alike
  if self.descriptorCount = self.descriptors.length ∨ index > self.descriptorCount then
    (.error .bufferTooSmall, self)
  else
    (.ok (),
      { descriptors := writeSlice (shiftUp self.descriptors 1 index self.descriptorCount)
          index [descriptor]
        descriptorCount := self.descriptorCount + 1 })

/-- `while index < count && descriptors[index].PhysicalStart <= start { index += 1 }`
over the descriptors from `index` on. -/
def sortedIndex (start : Nat) : List EfiMemoryDescriptor → Nat → Nat
  | [], index => index
  | d :: ds, index => if d.physicalStart ≤ start then sortedIndex start ds (index + 1) else index

def insertSorted (self : PageAllocator) (descriptor : EfiMemoryDescriptor) : Outcome Unit :=
  self.insertDescriptor (sortedIndex descriptor.physicalStart self.activeDescriptors 0) descriptor

def replaceDescriptor (self : PageAllocator) (index : Nat)
    (replacements : List EfiMemoryDescriptor) : Outcome Unit :=
  if index ≥ self.descriptorCount ∨ replacements = [] then (.error .invalidParameter, self)
  else
    let newCount := self.descriptorCount - 1 + replacements.length
    if newCount > self.descriptors.length then (.error .bufferTooSmall, self)
    else
      -- with one replacement nothing behind it moves
      let shifted :=
        if replacements.length > 1 then
          shiftUp self.descriptors (replacements.length - 1) (index + 1) self.descriptorCount
        else self.descriptors
      (.ok (), { descriptors := writeSlice shifted index replacements,
                 descriptorCount := newCount })

/-- The up to three descriptors that take the place of `descriptor` when its
pages `[memory, rangeEnd)` change their type. -/
def replacementParts (descriptor : EfiMemoryDescriptor)
    (memory rangeEnd descriptorEnd pages : Nat) (memoryType : EfiMemoryType) :
    List EfiMemoryDescriptor :=
  (if bytesToPages (memory - descriptor.physicalStart) ≠ 0 then
      [{ descriptor with numberOfPages := bytesToPages (memory - descriptor.physicalStart) }]
    else [])
    ++ { type := memoryType, physicalStart := memory, virtualStart := 0,
         numberOfPages := pages, attributeMask := descriptor.attributeMask }
    :: (if bytesToPages (descriptorEnd - rangeEnd) ≠ 0 then
          [{ descriptor with physicalStart := rangeEnd, virtualStart := 0,
                             numberOfPages := bytesToPages (descriptorEnd - rangeEnd) }]
        else [])

/-- Retypes part of one descriptor; returns the index after the retyped part. -/
def replaceRange (self : PageAllocator) (index memory pages : Nat)
    (memoryType : EfiMemoryType) : Outcome Nat :=
  let descriptor := self.descriptorAt index
  match descriptorEnd descriptor, checkedEnd memory pages with
  | .error e, _ => (.error e, self)
  | .ok _, .error e => (.error e, self)
  | .ok descriptorEnd, .ok rangeEnd =>
      if memory < descriptor.physicalStart ∨ rangeEnd > descriptorEnd then
        (.error .invalidParameter, self)
      else
        -- a part left in front of the retyped one shifts it by one place
        let nextIndex :=
          if bytesToPages (memory - descriptor.physicalStart) ≠ 0 then index + 1 + 1
          else index + 1
        match self.replaceDescriptor index
            (replacementParts descriptor memory rangeEnd descriptorEnd pages memoryType) with
        | (.error e, self) => (.error e, self)
        | (.ok (), self)   => (.ok nextIndex, self)

/-- What `coalesce` writes over `current` when it absorbs `next`: the pages from
`current`'s start to `next`'s end. -/
def mergedDescriptor (current next : EfiMemoryDescriptor) : EfiMemoryDescriptor :=
  let nextEnd := match descriptorEnd next with
    | .ok nextEnd => nextEnd
    -- an end past the address space counts as no pages of `next`
    | .error _    => next.physicalStart
  { current with numberOfPages := bytesToPages (nextEnd - current.physicalStart) }

/-- The loop of `coalesce` from `index` on; `fuel` bounds its passes. -/
def coalesceLoop : (fuel : Nat) → (self : PageAllocator) → (index : Nat) → PageAllocator
  | 0, self, _ => self
  | fuel + 1, self, index =>
      if index + 1 < self.descriptorCount then
        let current := self.descriptorAt index
        let next := self.descriptorAt (index + 1)
        if descriptorsAreCompatible current next then
          coalesceLoop fuel
            { descriptors :=
                shiftDown (self.descriptors.set index (mergedDescriptor current next))
                (self.descriptorCount - (index + 2)) (index + 2)
              descriptorCount := self.descriptorCount - 1 }
            index
        else coalesceLoop fuel self (index + 1)
      else self

def coalesce (self : PageAllocator) : PageAllocator :=
  coalesceLoop self.descriptorCount self 0

/-! ## §2. Carving. -/

/-- The loop shared by `carve_range` and `carve_range_for_reserved_region`: the
two differ only in which descriptor types they may replace. -/
def carveLoop (replaceable : EfiMemoryType → Bool) (start stop : Nat)
    (memoryType : EfiMemoryType) :
    (fuel : Nat) → (self : PageAllocator) → (index : Nat) → Outcome Unit
  | 0, self, _ => (.ok (), self)
  | fuel + 1, self, index =>
      if index < self.descriptorCount then
        let descriptor := self.descriptorAt index
        match descriptorEnd descriptor with
        | .error e => (.error e, self)
        | .ok descriptorEnd =>
            if descriptorEnd ≤ start then
              carveLoop replaceable start stop memoryType fuel self (index + 1)
            -- the map is sorted, so nothing behind this one overlaps
            else if descriptor.physicalStart ≥ stop then (.ok (), self)
            else if ¬ replaceable descriptor.type then
              carveLoop replaceable start stop memoryType fuel self (index + 1)
            else
              -- the error path of `replaceRange` keeps what earlier passes have carved
              let overlapStart := max descriptor.physicalStart start
              let overlapEnd := min descriptorEnd stop
              match self.replaceRange index overlapStart
                  (bytesToPages (overlapEnd - overlapStart)) memoryType with
              | (.error e, self) => (.error e, self)
              | (.ok index, self) => carveLoop replaceable start stop memoryType fuel self index
      else (.ok (), self)

def isConventional (type : EfiMemoryType) : Bool := type == .conventionalMemory

def isConventionalOrReserved (type : EfiMemoryType) : Bool :=
  type == .conventionalMemory || type == .reservedMemoryType

def carveRange (self : PageAllocator) (start stop : Nat) (memoryType : EfiMemoryType) :
    Outcome Unit :=
  carveLoop isConventional start stop memoryType self.descriptors.length self 0

def carveRangeForReservedRegion (self : PageAllocator) (start stop : Nat)
    (memoryType : EfiMemoryType) : Outcome Unit :=
  carveLoop isConventionalOrReserved start stop memoryType self.descriptors.length self 0

/-! ## §3. Building the map. -/

def addMemoryRegion (self : PageAllocator) (region : MemoryRegion) : Outcome Unit :=
  match alignRegionToPages region false with
  | .error e => (.error e, self)
  -- a region smaller than a page leaves no page of its own
  | .ok none => (.ok (), self)
  | .ok (some (start, stop)) =>
      self.insertSorted
        { type := .conventionalMemory, physicalStart := start, virtualStart := 0,
          numberOfPages := bytesToPages (stop - start), attributeMask := 0 }

def addReservedRegionWithType (self : PageAllocator) (region : MemoryRegion)
    (memoryType : EfiMemoryType) : Outcome Unit :=
  match alignRegionToPages region true with
  | .error e => (.error e, self)
  | .ok none => (.ok (), self)
  | .ok (some (start, stop)) => self.carveRangeForReservedRegion start stop memoryType

def addReservedRegion (self : PageAllocator) (region : MemoryRegion) : Outcome Unit :=
  self.addReservedRegionWithType region .reservedMemoryType

/-- `add_firmware_region(linker_region(start, stop)?, memory_type)`. -/
def addFirmwareRegion (self : PageAllocator) (start stop : Nat) (memoryType : EfiMemoryType) :
    Outcome Unit :=
  match linkerRegion start stop with
  | .error e => (.error e, self)
  | .ok none => (.ok (), self)
  | .ok (some (start, stop)) => self.carveRange start stop memoryType

/-- Applies a fallible step to each region in turn, stopping at the first error. -/
def forEachRegion {ρ : Type} (step : PageAllocator → ρ → Outcome Unit) :
    PageAllocator → List ρ → Outcome Unit
  | self, [] => (.ok (), self)
  | self, r :: rs =>
      match step self r with
      | (.error e, self) => (.error e, self)
      | (.ok (), self)   => forEachRegion step self rs

/-- The four linker ranges with the types `from_fdt` and `from_regions` give them. -/
def firmwareRegions (firmware : FirmwareLayout) : List (Nat × Nat × EfiMemoryType) :=
  [(firmware.codeStart, firmware.codeEnd, .bootServicesCode),
   (firmware.dataStart, firmware.dataEnd, .bootServicesData),
   (firmware.heapStart, firmware.heapEnd, .bootServicesData),
   (firmware.stackBottom, firmware.stackTop, .bootServicesData)]

def addFirmwareRegions (self : PageAllocator) (firmware : FirmwareLayout) : Outcome Unit :=
  forEachRegion (fun self r => self.addFirmwareRegion r.1 r.2.1 r.2.2) self
    (firmwareRegions firmware)

def fromRegions (firmware : FirmwareLayout) (memoryRegions reservedRegions : List MemoryRegion)
    (descriptors : List EfiMemoryDescriptor) : Except MemoryError PageAllocator :=
  match forEachRegion addMemoryRegion ⟨descriptors, 0⟩ memoryRegions with
  | (.error e, _) => .error e
  | (.ok (), self) =>
      -- coalesced here and once more at the end, behind all the carving
      match forEachRegion addReservedRegion self.coalesce reservedRegions with
      | (.error e, _) => .error e
      | (.ok (), self) =>
          match self.addFirmwareRegions firmware with
          | (.error e, _)  => .error e
          | (.ok (), self) => .ok self.coalesce

def reserveRegionWithType (self : PageAllocator) (region : MemoryRegion)
    (memoryType : EfiMemoryType) : Outcome Unit :=
  match self.addReservedRegionWithType region memoryType with
  | (.error e, self) => (.error e, self)
  | (.ok (), self)   => (.ok (), self.coalesce)

/-! ## §4. Searching for pages. -/

/-- The candidate loop of the three `find_*` functions: skip what is not
conventional, ask `start?` for a start in this descriptor, keep the better of
two candidates. -/
def searchDescriptors (start? : EfiMemoryDescriptor → Except MemoryError (Option Nat))
    (better : Nat → Nat → Nat) :
    Option Nat → List EfiMemoryDescriptor → Except MemoryError (Option Nat)
  | candidate, [] => .ok candidate
  | candidate, d :: ds =>
      if d.type ≠ .conventionalMemory then searchDescriptors start? better candidate ds
      else
        match start? d with
        | .error e => .error e
        | .ok none => searchDescriptors start? better candidate ds
        | .ok (some start) =>
            searchDescriptors start? better
              (some (match candidate with
                | none         => start
                | some current => better current start)) ds

def anyPagesStart (byteCount : Nat) (descriptor : EfiMemoryDescriptor) :
    Except MemoryError (Option Nat) := do
  let descriptorEnd ← descriptorEnd descriptor
  -- the sum saturates: a request that leaves the address space fits nowhere
  if descriptorEnd < saturatingAdd 64 descriptor.physicalStart byteCount then .ok none
  else
    let start := alignDown (descriptorEnd - byteCount) efiPageSize
    if start < descriptor.physicalStart then .ok none else .ok (some start)

def findAllocationAnyPages (self : PageAllocator) (pages : Nat) : Except MemoryError Nat := do
  let byteCount ← pagesToBytes pages
  let candidate ← searchDescriptors (anyPagesStart byteCount) max none self.activeDescriptors
  okOr candidate .outOfResources

def maxAddressStart (bytes memory : Nat) (descriptor : EfiMemoryDescriptor) :
    Except MemoryError (Option Nat) := do
  let descriptorEnd ← descriptorEnd descriptor
  -- `memory` is the highest address the pages may touch
  let upperBound := min descriptorEnd (saturatingAdd 64 memory 1)
  if upperBound < saturatingAdd 64 descriptor.physicalStart bytes then .ok none
  else
    let start := alignDown (upperBound - bytes) efiPageSize
    if start < descriptor.physicalStart then .ok none else .ok (some start)

/-- `Pages` is a size in bytes here, as in the source. -/
def findAllocationMaxAddress (self : PageAllocator) (bytes memory : Nat) :
    Except MemoryError Nat := do
  let candidate ← searchDescriptors (maxAddressStart bytes memory) max none self.activeDescriptors
  okOr candidate .outOfResources

def alignedStart (byteCount alignment : Nat) (direction : AllocationDirection)
    (descriptor : EfiMemoryDescriptor) : Except MemoryError (Option Nat) := do
  let descriptorEnd ← descriptorEnd descriptor
  match checkedSub descriptorEnd byteCount with
  | none => .ok none
  | some latestStart =>
      if latestStart < descriptor.physicalStart then .ok none
      else
        let start ←
          (match direction with
            | .low  => alignUp descriptor.physicalStart alignment
            | .high => .ok (alignDown latestStart alignment))
        -- rounding a start up may push the pages out of the descriptor
        match checkedAdd 64 start byteCount with
        | none => .ok none
        | some stop =>
            if start < descriptor.physicalStart ∨ stop > descriptorEnd then .ok none
            else .ok (some start)

def findAlignedAllocation (self : PageAllocator) (pages alignment : Nat)
    (direction : AllocationDirection) : Except MemoryError Nat := do
  let byteCount ← pagesToBytes pages
  let candidate ← searchDescriptors (alignedStart byteCount alignment direction)
    (match direction with
      | .low  => min
      | .high => max) none self.activeDescriptors
  okOr candidate .outOfResources

/-- The loop of `find_descriptor_covering`, at position `index`. -/
def coveringIndex (start stop : Nat) : List EfiMemoryDescriptor → Nat → Except MemoryError Nat
  | [], _ => .error .notFound
  | d :: ds, index =>
      match descriptorEnd d with
      | .error e => .error e
      | .ok descriptorEnd =>
          -- one descriptor has to cover the whole range
          if d.physicalStart ≤ start ∧ descriptorEnd ≥ stop then .ok index
          else coveringIndex start stop ds (index + 1)

def findDescriptorCovering (self : PageAllocator) (start stop : Nat) : Except MemoryError Nat :=
  coveringIndex start stop self.activeDescriptors 0

/-! ## §5. Allocating and freeing. -/

/-- The common body of `allocate_exact_range` and `free_exact_range`: find the
one descriptor that covers the range, check its type, retype, coalesce. -/
def retypeExactRange (self : PageAllocator) (memory pages : Nat)
    (refuse : EfiMemoryType → Option MemoryError) (memoryType : EfiMemoryType) : Outcome Unit :=
  match (do let rangeEnd ← checkedEnd memory pages
            self.findDescriptorCovering memory rangeEnd) with
  | .error e => (.error e, self)
  | .ok index =>
      match refuse (self.descriptorAt index).type with
      | some e => (.error e, self)
      | none =>
          match self.replaceRange index memory pages memoryType with
          | (.error e, self) => (.error e, self)
          | (.ok _, self)    => (.ok (), self.coalesce)

/-- `allocate_exact_range` refuses whatever is not conventional memory. -/
def allocateRefuses (type : EfiMemoryType) : Option MemoryError :=
  if type ≠ .conventionalMemory then some .outOfResources else none

/-- `free_exact_range` refuses conventional and reserved memory. -/
def freeRefuses (type : EfiMemoryType) : Option MemoryError :=
  if type = .conventionalMemory ∨ type = .reservedMemoryType then some .invalidParameter else none

def allocateExactRange (self : PageAllocator) (memory pages : Nat) (memoryType : EfiMemoryType) :
    Outcome Unit :=
  self.retypeExactRange memory pages allocateRefuses memoryType

def freeExactRange (self : PageAllocator) (memory pages : Nat) : Outcome Unit :=
  self.retypeExactRange memory pages freeRefuses .conventionalMemory

/-- The start address `AllocatePages` picks for each policy. -/
def allocationStart (self : PageAllocator) (type : EfiAllocateType)
    (pageCount byteCount memory : Nat) : Except MemoryError Nat :=
  match type with
  | .allocateAnyPages   => self.findAllocationAnyPages pageCount
  | .allocateMaxAddress => self.findAllocationMaxAddress byteCount memory
  | .allocateAddress    => if isPageAligned memory then .ok memory else .error .invalidParameter
  | .maxAllocateType    => .error .invalidParameter

/-- `AllocatePages`.  `memory` is the in/out parameter: the second component is
its value after the call. -/
def allocatePages (self : PageAllocator) (type : EfiAllocateType) (memoryType : EfiMemoryType)
    (pages memory : Nat) : Except MemoryError Unit × Nat × PageAllocator :=
  if pages = 0 ∨ memoryType = .maxMemoryType ∨ type = .maxAllocateType then
    (.error .invalidParameter, memory, self)
  else
    match (do let pageCount ← pagesToU64 pages
              let byteCount ← pagesToBytes pages
              self.allocationStart type pageCount byteCount memory) with
    | .error e => (.error e, memory, self)
    | .ok start =>
        match self.allocateExactRange start pages memoryType with
        | (.error e, self) => (.error e, memory, self)
        | (.ok (), self)   => (.ok (), start, self)

def allocatePagesForSize (self : PageAllocator) (memoryType : EfiMemoryType) (sizeBytes : Nat) :
    Outcome Nat :=
  if memoryType = .maxMemoryType then (.error .invalidParameter, self)
  else
    match pagesForSize sizeBytes with
    | .error e => (.error e, self)
    | .ok pageCount =>
        match self.allocatePages .allocateAnyPages memoryType pageCount 0 with
        | (.error e, _, self)     => (.error e, self)
        | (.ok (), start, self) => (.ok start, self)

def allocateAlignedPages (self : PageAllocator) (memoryType : EfiMemoryType)
    (pages alignment : Nat) (direction : AllocationDirection) : Outcome Nat :=
  if pages = 0 ∨ memoryType = .maxMemoryType ∨ alignment = 0 ∨ ¬ isPageAligned alignment then
    (.error .invalidParameter, self)
  else
    match (do let pageCount ← pagesToU64 pages
              self.findAlignedAllocation pageCount alignment direction) with
    | .error e => (.error e, self)
    | .ok start =>
        match self.allocateExactRange start pages memoryType with
        | (.error e, self) => (.error e, self)
        | (.ok (), self)   => (.ok start, self)

def allocateAlignedPagesForSize (self : PageAllocator) (memoryType : EfiMemoryType)
    (sizeBytes alignment : Nat) (direction : AllocationDirection) : Outcome Nat :=
  if memoryType = .maxMemoryType then (.error .invalidParameter, self)
  else
    match pagesForSize sizeBytes with
    | .error e => (.error e, self)
    | .ok pageCount => self.allocateAlignedPages memoryType pageCount alignment direction

def freePages (self : PageAllocator) (memory pages : Nat) : Outcome Unit :=
  if pages = 0 ∨ ¬ isPageAligned memory then (.error .invalidParameter, self)
  else
    match pagesToU64 pages with
    | .error e => (.error e, self)
    | .ok pageCount => self.freeExactRange memory pageCount

end PageAllocator

end RustFirmware.Memory
