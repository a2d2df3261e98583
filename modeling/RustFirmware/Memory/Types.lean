/-
  RustFirmware.Memory.Types
  ─────────────────────────
  The data of `src/memory.rs` and the address arithmetic at its end.

  Addresses, sizes and page counts are `u64` (`usize` is 64 bits wide on this
  target); they are natural numbers here, and every operation the source writes
  with `checked_*`, `saturating_*` or `try_from` keeps its bound.  A descriptor's
  `Type` field is the discriminant of an `EFI_MEMORY_TYPE`; the model keeps the
  enumeration itself, since nothing but such a discriminant is ever stored.
-/
import RustFirmware.Lib.Word

namespace RustFirmware.Memory

open RustFirmware.Lib

/-! ## §1. Enumerations and records. -/

/-- `EFI_MEMORY_TYPE`. -/
inductive EfiMemoryType where
  | reservedMemoryType
  | loaderCode
  | loaderData
  | bootServicesCode
  | bootServicesData
  | runtimeServicesCode
  | runtimeServicesData
  | conventionalMemory
  | unusableMemory
  | acpiReclaimMemory
  | acpiMemoryNVS
  | memoryMappedIo
  | memoryMappedIoPortSpace
  | palCode
  | persistentMemory
  | unacceptedMemoryType
  /-- Sentinel value that is not a usable descriptor type. -/
  | maxMemoryType
  deriving Repr, DecidableEq

/-- `EFI_ALLOCATE_TYPE`. -/
inductive EfiAllocateType where
  | allocateAnyPages
  | allocateMaxAddress
  | allocateAddress
  /-- Sentinel value that is not a usable policy. -/
  | maxAllocateType
  deriving Repr, DecidableEq

/-- `AllocationDirection`. -/
inductive AllocationDirection where
  | low
  | high
  deriving Repr, DecidableEq

/-- `MemoryError`. -/
inductive MemoryError where
  | invalidParameter
  | bufferTooSmall
  | outOfResources
  | notFound
  | addressOverflow
  deriving Repr, DecidableEq

/-- `EFI_MEMORY_DESCRIPTOR`. -/
structure EfiMemoryDescriptor where
  type          : EfiMemoryType
  physicalStart : Nat
  virtualStart  : Nat
  numberOfPages : Nat
  attributeMask : Nat
  deriving Repr, DecidableEq

/-- `EMPTY_DESCRIPTOR` (the same value as `EMPTY_MEMORY_DESCRIPTOR`). -/
def emptyDescriptor : EfiMemoryDescriptor :=
  { type := .reservedMemoryType, physicalStart := 0, virtualStart := 0,
    numberOfPages := 0, attributeMask := 0 }

/-- `MemoryRegion` of `src/dtb_memory.rs`. -/
structure MemoryRegion where
  base : Nat
  size : Nat
  deriving Repr, DecidableEq

/-- The addresses the linker script defines, as `firmware_code_start()` and its
seven siblings read them at run time. -/
structure FirmwareLayout where
  codeStart   : Nat
  codeEnd     : Nat
  dataStart   : Nat
  dataEnd     : Nat
  heapStart   : Nat
  heapEnd     : Nat
  stackBottom : Nat
  stackTop    : Nat
  deriving Repr, DecidableEq

/-- A host build has no linker ranges: every address reads as zero. -/
def FirmwareLayout.none : FirmwareLayout := ⟨0, 0, 0, 0, 0, 0, 0, 0⟩

/-! ## §2. Address arithmetic. -/

/-- `EFI_PAGE_SIZE`. -/
def efiPageSize : Nat := 4096

def pagesToU64 (pages : Nat) : Except MemoryError Nat :=
  if pages < 2 ^ 64 then .ok pages else .error .invalidParameter

def pagesToBytes (pages : Nat) : Except MemoryError Nat := do
  let count ← pagesToU64 pages
  okOr (checkedMul 64 count efiPageSize) .addressOverflow

def bytesToPages (bytes : Nat) : Nat := bytes / efiPageSize

def isPageAligned (address : Nat) : Bool := (address &&& (efiPageSize - 1)) == 0

/-- `value & !(alignment - 1)`. -/
def alignDown (value alignment : Nat) : Nat := value &&& complement 64 (alignment - 1)

/-- `(value + mask) & !mask` with `mask = alignment - 1`, refusing to overflow. -/
def alignUp (value alignment : Nat) : Except MemoryError Nat :=
  okOr ((checkedAdd 64 value (alignment - 1)).map
    (fun aligned => aligned &&& complement 64 (alignment - 1))) .addressOverflow

def pagesForSize (sizeBytes : Nat) : Except MemoryError Nat := do
  let size ← pagesToU64 sizeBytes
  let rounded ← alignUp (max size 1) efiPageSize
  if bytesToPages rounded < 2 ^ 64 then .ok (bytesToPages rounded) else .error .invalidParameter

def checkedEnd (start pages : Nat) : Except MemoryError Nat := do
  let bytes ← okOr (checkedMul 64 pages efiPageSize) .addressOverflow
  okOr (checkedAdd 64 start bytes) .addressOverflow

def descriptorEnd (descriptor : EfiMemoryDescriptor) : Except MemoryError Nat :=
  checkedEnd descriptor.physicalStart descriptor.numberOfPages

def descriptorsAreCompatible (left right : EfiMemoryDescriptor) : Bool :=
  if left.type ≠ right.type ∨ left.attributeMask ≠ right.attributeMask
      ∨ left.virtualStart ≠ right.virtualStart then false
  else
    match descriptorEnd left with
    | .ok leftEnd => decide (right.physicalStart ≤ leftEnd)
    | .error _    => false

/-- Rounds a region to pages: inwards for RAM, outwards for a reservation. -/
def alignRegionToPages (region : MemoryRegion) (reservePartialPages : Bool) :
    Except MemoryError (Option (Nat × Nat)) := do
  let rawEnd ← okOr (checkedAdd 64 region.base region.size) .addressOverflow
  let start ←
    (if reservePartialPages then .ok (alignDown region.base efiPageSize)
      else alignUp region.base efiPageSize)
  let stop ←
    (if reservePartialPages then alignUp rawEnd efiPageSize
      else .ok (alignDown rawEnd efiPageSize))
  if stop ≤ start then .ok none else .ok (some (start, stop))

def linkerRegion (start stop : Nat) : Except MemoryError (Option (Nat × Nat)) :=
  if stop ≤ start then .ok none
  else alignRegionToPages { base := start, size := stop - start } true

/-! ## §3. The arithmetic in closed form. -/

theorem isPageAligned_iff (address : Nat) : isPageAligned address = true ↔ address % 4096 = 0 := by
  unfold isPageAligned efiPageSize
  rw [show 4096 - 1 = 2 ^ 12 - 1 by rfl, Nat.and_two_pow_sub_one_eq_mod]
  simp

theorem checkedEnd_eq (start pages : Nat) :
    checkedEnd start pages
      = if start + pages * 4096 < 2 ^ 64 then .ok (start + pages * 4096)
        else .error .addressOverflow := by
  unfold checkedEnd checkedMul checkedAdd efiPageSize
  by_cases h1 : pages * 4096 < 2 ^ 64
  · rw [if_pos h1]
    show okOr (if start + pages * 4096 < 2 ^ 64 then some _ else none) _ = _
    split <;> rfl
  · rw [if_neg h1, if_neg (by omega)]
    rfl

theorem checkedEnd_ok {start pages stop : Nat} :
    checkedEnd start pages = .ok stop ↔ start + pages * 4096 < 2 ^ 64 ∧ stop = start + pages * 4096 := by
  rw [checkedEnd_eq]
  split <;> simp_all [eq_comm]

/-- From a page address on, the end is a page address below page `2 ^ 52`. -/
theorem checkedEnd_page {x n stop : Nat} :
    checkedEnd (x * 4096) n = .ok stop ↔ x + n < 2 ^ 52 ∧ stop = (x + n) * 4096 := by
  rw [checkedEnd_ok, ← Nat.add_mul, show (2 : Nat) ^ 64 = 2 ^ 52 * 4096 by rfl,
      Nat.mul_lt_mul_right (by omega)]

theorem pagesToU64_ok {pages count : Nat} :
    pagesToU64 pages = .ok count ↔ pages < 2 ^ 64 ∧ count = pages := by
  unfold pagesToU64
  split <;> simp_all [eq_comm]

theorem pagesToBytes_ok {pages bytes : Nat} :
    pagesToBytes pages = .ok bytes ↔ pages * 4096 < 2 ^ 64 ∧ bytes = pages * 4096 := by
  unfold pagesToBytes
  rw [bind_eq_ok]
  constructor
  · rintro ⟨count, hcount, h⟩
    obtain ⟨_, rfl⟩ := pagesToU64_ok.mp hcount
    exact checkedMul_eq_some.mp (okOr_eq_ok.mp h)
  · rintro ⟨hfit, rfl⟩
    exact ⟨pages, pagesToU64_ok.mpr ⟨by omega, rfl⟩,
      okOr_eq_ok.mpr (checkedMul_eq_some.mpr ⟨hfit, rfl⟩)⟩

/-- On an address, rounding down to pages is integer division. -/
theorem alignDown_page {value : Nat} (h : value < 2 ^ 64) :
    alignDown value efiPageSize = value / 4096 * 4096 :=
  land_complement_two_pow 64 12 value (by omega) h

/-- Rounding down by any positive multiple of the page size gives a page
address, also where the alignment is no power of two. -/
theorem alignDown_mod_page (value : Nat) {alignment : Nat} (h0 : 0 < alignment)
    (h1 : alignment % 4096 = 0) : alignDown value alignment % 4096 = 0 :=
  Nat.mod_eq_zero_of_dvd
    (land_complement_pred_dvd 64 12 value alignment h0 (Nat.dvd_of_mod_eq_zero h1))

theorem alignUp_ok {value alignment result : Nat} :
    alignUp value alignment = .ok result ↔
      value + (alignment - 1) < 2 ^ 64
        ∧ result = alignDown (value + (alignment - 1)) alignment := by
  unfold alignUp alignDown
  rw [okOr_eq_ok, Option.map_eq_some_iff]
  constructor
  · rintro ⟨a, ha, rfl⟩
    obtain ⟨h1, rfl⟩ := checkedAdd_eq_some.mp ha
    exact ⟨h1, rfl⟩
  · rintro ⟨h1, rfl⟩
    exact ⟨_, checkedAdd_eq_some.mpr ⟨h1, rfl⟩, rfl⟩

theorem alignUp_page {value result : Nat} :
    alignUp value efiPageSize = .ok result ↔
      value + 4095 < 2 ^ 64 ∧ result = (value + 4095) / 4096 * 4096 := by
  rw [alignUp_ok]
  constructor
  · rintro ⟨h1, rfl⟩
    exact ⟨h1, alignDown_page h1⟩
  · rintro ⟨h1, rfl⟩
    exact ⟨h1, (alignDown_page h1).symm⟩

theorem pagesForSize_ok {size pages : Nat} :
    pagesForSize size = .ok pages ↔
      max size 1 + 4095 < 2 ^ 64 ∧ pages = (max size 1 + 4095) / 4096 := by
  unfold pagesForSize
  rw [bind_eq_ok]
  constructor
  · rintro ⟨s, hs, h⟩
    obtain ⟨_, rfl⟩ := pagesToU64_ok.mp hs
    obtain ⟨r, hr, h⟩ := bind_eq_ok.mp h
    obtain ⟨hfit, rfl⟩ := alignUp_page.mp hr
    unfold bytesToPages efiPageSize at h
    rw [Nat.mul_div_cancel _ (by omega), if_pos (by omega)] at h
    exact ⟨hfit, (Except.ok.inj h).symm⟩
  · rintro ⟨hfit, rfl⟩
    refine ⟨size, pagesToU64_ok.mpr ⟨by omega, rfl⟩, ?_⟩
    refine bind_eq_ok.mpr ⟨_, alignUp_page.mpr ⟨hfit, rfl⟩, ?_⟩
    unfold bytesToPages efiPageSize
    rw [Nat.mul_div_cancel _ (by omega), if_pos (by omega)]

/-- The page range `[lo, hi)` that a region covers when rounded outwards. -/
def MemoryRegion.outerPages (region : MemoryRegion) : Nat × Nat :=
  (region.base / 4096, (region.base + region.size + 4095) / 4096)

/-- The page range `[lo, hi)` that a region contains when rounded inwards. -/
def MemoryRegion.innerPages (region : MemoryRegion) : Nat × Nat :=
  ((region.base + 4095) / 4096, (region.base + region.size) / 4096)

/-- The distance between two page addresses, in pages. -/
theorem bytesToPages_sub (a b : Nat) : bytesToPages (a * 4096 - b * 4096) = a - b := by
  unfold bytesToPages efiPageSize
  rw [← Nat.sub_mul, Nat.mul_div_cancel _ (by omega)]

/-- Comparing two page addresses is comparing the pages. -/
theorem pageAddr_le {a b : Nat} : a * 4096 ≤ b * 4096 ↔ a ≤ b := by omega

/-- A reservation, rounded outwards, as a page range. -/
theorem alignRegionToPages_outer {region : MemoryRegion} {r : Option (Nat × Nat)}
    (h : alignRegionToPages region true = .ok r) :
    region.base + region.size + 4095 < 2 ^ 64
      ∧ r = if region.outerPages.2 ≤ region.outerPages.1 then none
            else some (region.outerPages.1 * 4096, region.outerPages.2 * 4096) := by
  unfold alignRegionToPages at h
  unfold MemoryRegion.outerPages
  obtain ⟨rawEnd, hraw, h⟩ := bind_eq_ok.mp h
  obtain ⟨hfit, rfl⟩ := checkedAdd_eq_some.mp (okOr_eq_ok.mp hraw)
  obtain ⟨start, hstart, h⟩ := bind_eq_ok.mp h
  obtain ⟨stop, hstop, h⟩ := bind_eq_ok.mp h
  rw [if_pos rfl, alignDown_page (by omega)] at hstart
  obtain rfl := Except.ok.inj hstart
  obtain ⟨hbound, rfl⟩ := alignUp_page.mp hstop
  refine ⟨hbound, ?_⟩
  simp only [pageAddr_le] at h
  split at h
  next hle =>
    rw [if_pos hle]
    exact (Except.ok.inj h).symm
  next hle =>
    rw [if_neg hle]
    exact (Except.ok.inj h).symm

/-- A reservation that ends below page `2 ^ 52` can be rounded. -/
theorem alignRegionToPages_total {region : MemoryRegion}
    (h : region.outerPages.2 < 2 ^ 52) : ∃ r, alignRegionToPages region true = .ok r := by
  unfold MemoryRegion.outerPages at h
  have hadd : checkedAdd 64 region.base region.size = some (region.base + region.size) :=
    checkedAdd_eq_some.mpr ⟨by dsimp only at h; omega, rfl⟩
  have hup : alignUp (region.base + region.size) efiPageSize
      = .ok ((region.base + region.size + 4095) / 4096 * 4096) :=
    alignUp_page.mpr ⟨by dsimp only at h; omega, rfl⟩
  unfold alignRegionToPages
  rw [hadd]
  dsimp only [okOr, bind, Except.bind]
  rw [if_pos rfl, if_pos rfl, hup]
  dsimp only
  split
  · exact ⟨_, rfl⟩
  · exact ⟨_, rfl⟩

/-- A RAM range, rounded inwards, as a page range. -/
theorem alignRegionToPages_inner {region : MemoryRegion} {r : Option (Nat × Nat)}
    (h : alignRegionToPages region false = .ok r) :
    region.base + region.size < 2 ^ 64
      ∧ r = if region.innerPages.2 ≤ region.innerPages.1 then none
            else some (region.innerPages.1 * 4096, region.innerPages.2 * 4096) := by
  unfold alignRegionToPages at h
  unfold MemoryRegion.innerPages
  obtain ⟨rawEnd, hraw, h⟩ := bind_eq_ok.mp h
  obtain ⟨hfit, rfl⟩ := checkedAdd_eq_some.mp (okOr_eq_ok.mp hraw)
  obtain ⟨start, hstart, h⟩ := bind_eq_ok.mp h
  obtain ⟨stop, hstop, h⟩ := bind_eq_ok.mp h
  rw [if_neg (by simp)] at hstart hstop
  obtain ⟨_, rfl⟩ := alignUp_page.mp hstart
  rw [alignDown_page hfit] at hstop
  obtain rfl := Except.ok.inj hstop
  refine ⟨hfit, ?_⟩
  simp only [pageAddr_le] at h
  split at h
  next hle =>
    rw [if_pos hle]
    exact (Except.ok.inj h).symm
  next hle =>
    rw [if_neg hle]
    exact (Except.ok.inj h).symm

end RustFirmware.Memory
