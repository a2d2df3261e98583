/-
  RustFirmware.Memory.PageMap
  ───────────────────────────
  **THE ALLOCATOR AS A MAP FROM PAGES TO MEMORY TYPES.**

  `pageMap` reads the descriptors as a partial map.  `Sound` is the invariant
  behind it: the active descriptors are a tidy segment list.  Each edit of the
  allocator keeps `Sound`, ALSO when it fails, and on success acts on the map:

      coalesce                      unchanged
      carve for a reservation       `recolor` of conventional and reserved pages
      carve for a linker range      `recolor` of conventional pages
      allocate / free exact range   `paint`
-/
import Mathlib.Data.List.Chain
import RustFirmware.Memory.Refinement

namespace RustFirmware.Memory

open RustFirmware.Lib

/-! ## §1. The map and the invariant. -/

/-- Page `page` lies in the descriptor's range. -/
def EfiMemoryDescriptor.hasPage (d : EfiMemoryDescriptor) (page : Nat) : Bool :=
  decide (d.physicalStart ≤ page * 4096)
    && decide (page * 4096 < d.physicalStart + d.numberOfPages * 4096)

/-- The type of a page, if some active descriptor contains it. -/
def PageAllocator.pageMap (self : PageAllocator) (page : Nat) : Option EfiMemoryType :=
  (self.activeDescriptors.find? (fun d => d.hasPage page)).map (fun d => d.type)

theorem hasPage_toDescriptor {s : PageSeg} (h : Fits s) (p : Nat) :
    (toDescriptor s).hasPage p = decide (s.Has p) := by
  have h1 := h.1
  have hend : (toDescriptor s).physicalStart + (toDescriptor s).numberOfPages * 4096
      = s.hi * 4096 := by
    show s.lo * 4096 + (s.hi - s.lo) * 4096 = s.hi * 4096
    omega
  unfold EfiMemoryDescriptor.hasPage
  rw [hend, toDescriptor_physicalStart, ← Bool.decide_and]
  exact decide_eq_decide.mpr ⟨fun ⟨h1, h2⟩ => ⟨by omega, by omega⟩,
    fun ⟨h1, h2⟩ => ⟨by omega, by omega⟩⟩

/-- The page map of an allocator is the denotation of its segments. -/
theorem Holds.pageMap_eq {a : PageAllocator} {l : List PageSeg} (h : Holds a l) :
    a.pageMap = denote l := by
  funext p
  unfold PageAllocator.pageMap
  rw [h.active]
  have hfits := h.fits
  clear h
  induction l with
  | nil => rfl
  | cons s l ih =>
      rw [List.map_cons, List.find?_cons, hasPage_toDescriptor (hfits s List.mem_cons_self), denote]
      by_cases hs : s.Has p
      · rw [if_pos hs, decide_eq_true hs]
        rfl
      · rw [if_neg hs, decide_eq_false hs]
        exact ih (fun u hu => hfits u (List.mem_cons_of_mem _ hu))

/-- **The invariant**: the active descriptors are a tidy list of page segments. -/
def Sound (a : PageAllocator) : Prop := ∃ l, Holds a l ∧ Tidy l

/-- No two neighbouring descriptors can be merged. -/
def Settled (a : PageAllocator) : Prop :=
  a.activeDescriptors.IsChain (fun d e => descriptorsAreCompatible d e = false)

theorem Holds.settled {a : PageAllocator} {l : List PageSeg} (h : Holds a (fuse l)) :
    Settled a := by
  unfold Settled
  rw [h.active, List.isChain_map]
  refine (fuse_isChain l).imp_of_mem_imp ?_
  intro s t hs _ hst
  rw [← Bool.not_eq_true, compatible_toDescriptor (h.fits s hs)]
  exact hst

/-! ## §2. Coalescing and carving on the map. -/

theorem Sound.coalesce {a : PageAllocator} (h : Sound a) :
    Sound a.coalesce ∧ a.coalesce.pageMap = a.pageMap ∧ Settled a.coalesce := by
  obtain ⟨l, hl, htidy⟩ := h
  obtain ⟨hco, _⟩ := coalesce_holds hl htidy.layered
  refine ⟨⟨_, hco, htidy.layered.tidy_fuse⟩, ?_, hco.settled⟩
  rw [hco.pageMap_eq, hl.pageMap_eq, htidy.denote_fuse]

/-- What a fallible edit does: the map stays sound in any case, and on success
    it becomes `m`. -/
structure Yields (o : Outcome Unit) (m : Nat → Option EfiMemoryType) : Prop where
  sound : Sound o.2
  map   : o.1 = .ok () → o.2.pageMap = m

/-- **Both carve loops recolor.** -/
theorem Sound.carveLoop {a : PageAllocator} (h : Sound a) (elig : EfiMemoryType → Bool)
    {x y : Nat} (hxy : x < y) (t : EfiMemoryType) :
    Yields (PageAllocator.carveLoop elig (x * 4096) (y * 4096) t a.descriptors.length a 0)
      (recolor elig x y t a.pageMap) := by
  obtain ⟨l, hl, htidy⟩ := h
  have hstart : Holds a ([] ++ l) := hl
  obtain ⟨_, hres⟩ := carveLoop_result elig t hxy a.descriptors.length hstart htidy
    (by rw [List.length_nil]; omega)
  rw [List.nil_append, List.length_nil] at hres
  rcases hres with ⟨_, hholds, htidy'⟩ | ⟨herr, l', hholds, htidy'⟩
  · refine ⟨⟨_, hholds, htidy'⟩, ?_⟩
    intro _
    rw [hholds.pageMap_eq, hl.pageMap_eq, htidy.denote_carve elig t hxy]
  · refine ⟨⟨l', hholds, htidy'⟩, ?_⟩
    intro hok
    have hcontra := herr.symm.trans hok
    cases hcontra

/-- A failed edit that leaves the allocator alone. -/
theorem Sound.yields_error {a : PageAllocator} (h : Sound a) (e : MemoryError)
    (m : Nat → Option EfiMemoryType) : Yields (.error e, a) m :=
  ⟨h, fun hok => by cases hok⟩

/-- **A reservation recolors the pages it overlaps**, rounded outwards, that were
    conventional or reserved. -/
theorem Sound.addReservedRegionWithType {a : PageAllocator} (h : Sound a)
    (region : MemoryRegion) (t : EfiMemoryType) :
    Yields (a.addReservedRegionWithType region t)
      (recolor PageAllocator.isConventionalOrReserved region.outerPages.1 region.outerPages.2 t
        a.pageMap) := by
  unfold PageAllocator.addReservedRegionWithType
  cases hr : alignRegionToPages region true with
  | error e => exact h.yields_error e _
  | ok r =>
      obtain ⟨_, rfl⟩ := alignRegionToPages_outer hr
      by_cases hempty : region.outerPages.2 ≤ region.outerPages.1
      · rw [if_pos hempty]
        exact ⟨h, fun _ => (recolor_empty _ hempty t _).symm⟩
      · rw [if_neg hempty]
        exact h.carveLoop _ (by omega) t

/-- The pages a linker range covers; none when its bounds are out of order. -/
def linkerPages (start stop : Nat) : Nat × Nat :=
  if stop ≤ start then (0, 0)
  else ({ base := start, size := stop - start } : MemoryRegion).outerPages

/-- **A linker range recolors the conventional pages it overlaps.** -/
theorem Sound.addFirmwareRegion {a : PageAllocator} (h : Sound a) (start stop : Nat)
    (t : EfiMemoryType) :
    Yields (a.addFirmwareRegion start stop t)
      (recolor PageAllocator.isConventional (linkerPages start stop).1 (linkerPages start stop).2 t
        a.pageMap) := by
  unfold PageAllocator.addFirmwareRegion linkerRegion linkerPages
  by_cases hstop : stop ≤ start
  · rw [if_pos hstop, if_pos hstop]
    exact ⟨h, fun _ => (recolor_empty _ (by omega) t _).symm⟩
  · rw [if_neg hstop, if_neg hstop]
    cases hr : alignRegionToPages { base := start, size := stop - start } true with
    | error e => exact h.yields_error e _
    | ok r =>
        obtain ⟨_, rfl⟩ := alignRegionToPages_outer hr
        by_cases hempty : ({ base := start, size := stop - start } : MemoryRegion).outerPages.2
            ≤ ({ base := start, size := stop - start } : MemoryRegion).outerPages.1
        · rw [if_pos hempty]
          exact ⟨h, fun _ => (recolor_empty _ hempty t _).symm⟩
        · rw [if_neg hempty]
          exact h.carveLoop _ (by omega) t

/-- A loop of edits acts as the composition of what its steps do. -/
theorem Sound.forEachRegion {ρ : Type} {step : PageAllocator → ρ → Outcome Unit}
    {act : ρ → (Nat → Option EfiMemoryType) → (Nat → Option EfiMemoryType)}
    (hstep : ∀ a, Sound a → ∀ r, Yields (step a r) (act r a.pageMap)) {a : PageAllocator}
    (h : Sound a) (rs : List ρ) :
    Yields (PageAllocator.forEachRegion step a rs)
      (rs.foldl (fun m r => act r m) a.pageMap) := by
  induction rs generalizing a with
  | nil => exact ⟨h, fun _ => rfl⟩
  | cons r rs ih =>
      have hr := hstep a h r
      rw [PageAllocator.forEachRegion, List.foldl_cons]
      cases hres : step a r with
      | mk result a' =>
          rw [hres] at hr
          cases result with
          | error e => exact hr.sound.yields_error e _
          | ok u =>
              have hmap : a'.pageMap = act r a.pageMap := hr.map rfl
              rw [← hmap]
              exact ih hr.sound

/-- **`reserve_region_with_type`**: a reservation, then a coalescing pass. -/
theorem Sound.reserveRegionWithType {a : PageAllocator} (h : Sound a) (region : MemoryRegion)
    (t : EfiMemoryType) :
    Yields (a.reserveRegionWithType region t)
        (recolor PageAllocator.isConventionalOrReserved region.outerPages.1 region.outerPages.2 t
          a.pageMap)
      ∧ ((a.reserveRegionWithType region t).1 = .ok () →
          Settled (a.reserveRegionWithType region t).2) := by
  have hadd := h.addReservedRegionWithType region t
  unfold PageAllocator.reserveRegionWithType
  cases hres : a.addReservedRegionWithType region t with
  | mk result a' =>
      rw [hres] at hadd
      cases result with
      | error e =>
          refine ⟨hadd.sound.yields_error e _, ?_⟩
          intro hok
          cases hok
      | ok u =>
          obtain ⟨hs, hm, hset⟩ := hadd.sound.coalesce
          exact ⟨⟨hs, fun _ => hm.trans (hadd.map rfl)⟩, fun _ => hset⟩

end RustFirmware.Memory
