/-
  RustFirmware.Memory.FromFdt
  ───────────────────────────
  **`PageAllocator::from_fdt`, AND THE LISTS IT WALKS.**

  `from_fdt` seeds the RAM ranges, then carves the reservations in a fixed
  order: the FDT blob, the reserve map, the static `/reserved-memory` ranges,
  the linker ranges.  The static ranges reach it through a callback; §2 gathers
  them into the list `staticRegions` and shows that the callback walk is a loop
  over that list.
-/
import RustFirmware.Lib.Visit
import RustFirmware.DeviceTree.Memory
import RustFirmware.Memory.Seed

namespace RustFirmware.Memory

open RustFirmware.Lib
open RustFirmware.DeviceTree

/-! ## §1. The constructor. -/

/-- The memory the FDT blob itself occupies. -/
def fdtRegion (fdt : Fdt) : MemoryRegion := { base := fdt.base, size := fdt.totalSize }

/-- `reserve_original_fdt`. -/
def reserveOriginalFdt (fdt : Fdt) (allocator : PageAllocator) : Outcome Unit :=
  allocator.reserveRegionWithType (fdtRegion fdt) .acpiReclaimMemory

/-- The callback `from_fdt` hands to `for_each_static_reserved_memory_region`: it
    captures the allocator and the first error. -/
def carveStaticRegion (region : MemoryRegion) (memoryType : ReservedMemoryType)
    (acc : Outcome Unit) : Bool × Outcome Unit :=
  match acc.2.addReservedRegionWithType region (reservedMemoryTypeToEfi memoryType) with
  | (.ok (), allocator)   => (true, (acc.1, allocator))
  | (.error e, allocator) => (false, (.error e, allocator))

/-- `PageAllocator::from_fdt`.  The two capacities are the lengths of the scratch
    slices `memory_regions` and `reserved_regions`. -/
def PageAllocator.fromFdt (firmware : FirmwareLayout) (fdt : Fdt)
    (memoryCapacity reservedCapacity : Nat) (descriptors : List EfiMemoryDescriptor) :
    Except MemoryError PageAllocator :=
  match forEachRegion addMemoryRegion ⟨descriptors, 0⟩ (memoryRegions fdt memoryCapacity) with
  | (.error e, _)  => .error e
  | (.ok (), self) =>
      match reserveOriginalFdt fdt self.coalesce with
      | (.error e, _)  => .error e
      | (.ok (), self) =>
          match forEachRegion addReservedRegion self (reserveMapRegions fdt reservedCapacity) with
          | (.error e, _)  => .error e
          | (.ok (), self) =>
              match forEachStaticReservedMemoryRegion fdt carveStaticRegion (.ok (), self) with
              | (.error e, _)  => .error e
              | (.ok (), self) =>
                  match self.addFirmwareRegions firmware with
                  | (.error e, _)  => .error e
                  | (.ok (), self) => .ok self.coalesce

/-- `page_allocator_from_live_fdt`: validate the blob at `base`, then build. -/
def pageAllocatorFromLiveFdt (firmware : FirmwareLayout) (base : Nat) (memory : Bytes)
    (memoryCapacity reservedCapacity : Nat) (descriptors : List EfiMemoryDescriptor) :
    Option PageAllocator :=
  match Fdt.fromPtr base memory with
  | .error _ => none
  | .ok fdt =>
      match PageAllocator.fromFdt firmware fdt memoryCapacity reservedCapacity descriptors with
      | .error _ => none
      | .ok self => some self

theorem pageAllocatorFromLiveFdt_eq_some {firmware : FirmwareLayout} {base : Nat} {memory : Bytes}
    {memoryCapacity reservedCapacity : Nat} {descriptors : List EfiMemoryDescriptor}
    {a : PageAllocator}
    (h : pageAllocatorFromLiveFdt firmware base memory memoryCapacity reservedCapacity descriptors
      = some a) :
    ∃ fdt, Fdt.fromPtr base memory = .ok fdt
      ∧ PageAllocator.fromFdt firmware fdt memoryCapacity reservedCapacity descriptors = .ok a := by
  unfold pageAllocatorFromLiveFdt at h
  cases hfdt : Fdt.fromPtr base memory with
  | error e =>
      rw [hfdt] at h
      cases h
  | ok fdt =>
      rw [hfdt] at h
      dsimp only at h
      refine ⟨fdt, rfl, ?_⟩
      split at h
      next => cases h
      next ha =>
        obtain rfl := Option.some.inj h
        exact ha

/-! ## §2. The map it builds. -/

/-- The reservations of one FDT in the order they are carved. -/
def fdtReservations (fdt : Fdt) (reservedCapacity : Nat) : List (MemoryRegion × EfiMemoryType) :=
  (fdtRegion fdt, .acpiReclaimMemory)
    :: (reserveMapRegions fdt reservedCapacity).map (fun r => (r, .reservedMemoryType))
    ++ (staticRegions fdt).map (fun r => (r.1, reservedMemoryTypeToEfi r.2))

/-- The callback walk over the static ranges is a loop of carves that stops at
    the first error. -/
theorem forEachStatic_carve (fdt : Fdt) (a : PageAllocator) :
    forEachStaticReservedMemoryRegion fdt carveStaticRegion (.ok (), a)
      = PageAllocator.forEachRegion
          (fun self r => self.addReservedRegionWithType r.1 (reservedMemoryTypeToEfi r.2)) a
          (staticRegions fdt) := by
  rw [forEachStaticReservedMemoryRegion_eq]
  induction staticRegions fdt generalizing a with
  | nil => rfl
  | cons r rs ih =>
      rw [foldStop, PageAllocator.forEachRegion]
      unfold carveStaticRegion
      dsimp only
      cases a.addReservedRegionWithType r.1 (reservedMemoryTypeToEfi r.2) with
      | mk result a' =>
          cases result with
          | error e => rfl
          | ok u => exact ih a'

theorem Sound.reserveOriginalFdt {a : PageAllocator} (h : Sound a) (fdt : Fdt) :
    Yields (reserveOriginalFdt fdt a)
        (recolor PageAllocator.isConventionalOrReserved (fdtRegion fdt).outerPages.1
          (fdtRegion fdt).outerPages.2 .acpiReclaimMemory a.pageMap)
      ∧ ((reserveOriginalFdt fdt a).1 = .ok () → Settled (Memory.reserveOriginalFdt fdt a).2) :=
  h.reserveRegionWithType (fdtRegion fdt) .acpiReclaimMemory

/-- **`from_fdt`**: a sound, settled map, in closed form. -/
theorem fromFdt_spec {firmware : FirmwareLayout} {fdt : Fdt} {memoryCapacity reservedCapacity : Nat}
    {buffer : List EfiMemoryDescriptor} {a : PageAllocator}
    (h : PageAllocator.fromFdt firmware fdt memoryCapacity reservedCapacity buffer = .ok a) :
    Sound a ∧ Settled a
      ∧ a.pageMap = firmwareMap firmware
          (reserveAll (fdtReservations fdt reservedCapacity)
            (seedMap (memoryRegions fdt memoryCapacity))) := by
  unfold PageAllocator.fromFdt at h
  obtain ⟨hok₁, h⟩ := ok_of_step h
  obtain ⟨hs₁, hm₁, _⟩ := seed_coalesce (Prod.ext hok₁ rfl)
  obtain ⟨hok₂, h⟩ := ok_of_step h
  obtain ⟨hfdt, _⟩ := hs₁.reserveOriginalFdt fdt
  obtain ⟨hok₃, h⟩ := ok_of_step h
  have hrsv := hfdt.sound.addReservedRegions (reserveMapRegions fdt reservedCapacity)
  obtain ⟨hok₄, h⟩ := ok_of_step h
  rw [forEachStatic_carve] at hok₄ h
  have hstatic := Sound.forEachRegion
    (fun _ ha (r : MemoryRegion × ReservedMemoryType) =>
      ha.addReservedRegionWithType r.1 (reservedMemoryTypeToEfi r.2)) hrsv.sound
    (staticRegions fdt)
  obtain ⟨hok₅, h⟩ := ok_of_step h
  have hfw := hstatic.sound.addFirmwareRegions firmware
  obtain rfl := Except.ok.inj h
  obtain ⟨hs, hm, hset⟩ := hfw.sound.coalesce
  refine ⟨hs, hset, ?_⟩
  have hcarves : reserveAll (fdtReservations fdt reservedCapacity)
        (seedMap (memoryRegions fdt memoryCapacity))
      = (staticRegions fdt).foldl (fun m r =>
          recolor PageAllocator.isConventionalOrReserved r.1.outerPages.1 r.1.outerPages.2
            (reservedMemoryTypeToEfi r.2) m)
        (reserveAll ((reserveMapRegions fdt reservedCapacity).map
            (fun r => (r, .reservedMemoryType)))
          (recolor PageAllocator.isConventionalOrReserved (fdtRegion fdt).outerPages.1
            (fdtRegion fdt).outerPages.2 .acpiReclaimMemory
            (seedMap (memoryRegions fdt memoryCapacity)))) := by
    unfold reserveAll fdtReservations
    rw [List.cons_append, List.foldl_cons, List.foldl_append, List.foldl_map, List.foldl_map]
  rw [hm, hfw.map hok₅, hstatic.map hok₄, hrsv.map hok₃, hfdt.map hok₂, hm₁, hcarves]

end RustFirmware.Memory
