/-
  RustFirmware.Memory.Failures
  ────────────────────────────
  **WHAT A FAILED CALL LEAVES BEHIND.**

  Allocating and freeing check everything before they write: an error leaves the
  allocator and the caller's address as they were (§1).  A reservation carves
  descriptor by descriptor, and an error in the middle leaves what was carved
  before it.  That happens exactly when the reservation TEARS the map (§2, §3):
  the last cut finds no free slot and an earlier descriptor has changed.
-/
import RustFirmware.Memory.Runs

namespace RustFirmware.Memory

open RustFirmware.Lib

/-! ## §1. Allocating and freeing. -/

/-- A call that either succeeds or answers with the allocator it was given. -/
theorem unchanged_of_error {α : Type} {a a' : PageAllocator} {e : MemoryError}
    {result : Except MemoryError α × PageAllocator} {P : α → PageAllocator → Prop}
    (h : (∃ value a₁, result = (.ok value, a₁) ∧ P value a₁) ∨ ∃ e₁, result = (.error e₁, a))
    (hcall : result = (.error e, a')) : a' = a := by
  rcases h with ⟨value, a₁, heq, _⟩ | ⟨e₁, heq⟩
  · rw [heq] at hcall
    cases (Prod.mk.inj hcall).1
  · rw [heq] at hcall
    exact (Prod.mk.inj hcall).2.symm

/-- **A failed allocation or free changes nothing**, neither the allocator nor the
    caller's `Memory`. -/
theorem failed_calls_change_nothing {a : PageAllocator} (h : Reachable a) :
    (∀ type t pages memory e memory' a',
        a.allocatePages type t pages memory = (.error e, memory', a') →
        memory' = memory ∧ a' = a)
    ∧ (∀ t sizeBytes e a', a.allocatePagesForSize t sizeBytes = (.error e, a') → a' = a)
    ∧ (∀ t pages alignment direction e a',
        a.allocateAlignedPages t pages alignment direction = (.error e, a') → a' = a)
    ∧ (∀ t sizeBytes alignment direction e a',
        a.allocateAlignedPagesForSize t sizeBytes alignment direction = (.error e, a') → a' = a)
    ∧ (∀ memory pages e a', a.freePages memory pages = (.error e, a') → a' = a) := by
  have hsound := h.sound
  refine ⟨?_, ?_, ?_, ?_, ?_⟩
  · intro type t pages memory e memory' a' hcall
    rcases hsound.allocatePages type t pages memory with ⟨_, _, heq, _⟩ | ⟨_, heq⟩
    · rw [heq] at hcall
      cases (Prod.mk.inj hcall).1
    · rw [heq] at hcall
      obtain ⟨hmem, hsame⟩ := Prod.mk.inj (Prod.mk.inj hcall).2
      exact ⟨hmem.symm, hsame.symm⟩
  · intro t sizeBytes e a' hcall
    exact unchanged_of_error (hsound.allocatePagesForSize t sizeBytes) hcall
  · intro t pages alignment direction e a' hcall
    exact unchanged_of_error (hsound.allocateAlignedPages t pages alignment direction) hcall
  · intro t sizeBytes alignment direction e a' hcall
    exact unchanged_of_error (hsound.allocateAlignedPagesForSize t sizeBytes alignment direction) hcall
  · intro memory pages e a' hcall
    rcases hsound.freePages memory pages with ⟨_, heq, _⟩ | ⟨_, heq⟩
    · rw [heq] at hcall
      cases (Prod.mk.inj hcall).1
    · rw [heq] at hcall
      exact (Prod.mk.inj hcall).2.symm

/-- An allocator with one range, in a buffer that has no room for a split. -/
theorem failed_calls_change_nothing_example :
    ∃ a, PageAllocator.fromRegions .none [⟨0x1000, 0x8000⟩] [] [emptyDescriptor] = .ok a
      ∧ ∀ e memory' a',
          a.allocatePages .allocateAnyPages .loaderData 2 7 = (.error e, memory', a') →
          memory' = 7 ∧ a' = a := by
  obtain ⟨a, ha⟩ : ∃ a, PageAllocator.fromRegions .none [⟨0x1000, 0x8000⟩] [] [emptyDescriptor]
      = .ok a := ⟨_, rfl⟩
  have hreach : Reachable a := ⟨a, [], Or.inl ⟨_, _, _, _, ha⟩, rfl⟩
  exact ⟨a, ha, (failed_calls_change_nothing hreach).1 _ _ _ _⟩

/-! ## §2. A torn reservation. -/

/-- The first address behind a descriptor. -/
def EfiMemoryDescriptor.stop (d : EfiMemoryDescriptor) : Nat :=
  d.physicalStart + d.numberOfPages * 4096

/-- A reservation may replace the descriptor, and starts inside of it. -/
def EfiMemoryDescriptor.startsReservation (first : Nat) (d : EfiMemoryDescriptor) : Bool :=
  PageAllocator.isConventionalOrReserved d.type && decide (d.physicalStart < first)
    && decide (first < d.stop)

/-- Reserving the region, rounded to pages, as `t` tears the map: it ends inside of
    a conventional or reserved descriptor that it enters from the left, it changes
    such a descriptor before that one, and the cut at its start, if there is
    one, takes the last free slot. -/
structure PageAllocator.TornBy (self : PageAllocator) (region : MemoryRegion)
    (t : EfiMemoryType) : Prop where
  last    : ∃ d ∈ self.activeDescriptors, isConventionalOrReserved d.type = true
    ∧ region.outerPages.1 * 4096 ≤ d.physicalStart
    ∧ d.physicalStart < region.outerPages.2 * 4096 ∧ region.outerPages.2 * 4096 < d.stop
  changed : ∃ d ∈ self.activeDescriptors, isConventionalOrReserved d.type = true
    ∧ region.outerPages.1 * 4096 < d.stop ∧ d.stop ≤ region.outerPages.2 * 4096
    ∧ (d.physicalStart < region.outerPages.1 * 4096 ∨ d.type ≠ t)
  full    : self.descriptorCount
      + self.activeDescriptors.countP
          (EfiMemoryDescriptor.startsReservation (region.outerPages.1 * 4096))
    = self.descriptors.length

theorem toDescriptor_stop {s : PageSeg} (h : s.lo < s.hi) :
    (toDescriptor s).stop = s.hi * 4096 := by
  show s.lo * 4096 + (s.hi - s.lo) * 4096 = s.hi * 4096
  omega

/-- Different segments are written as different descriptors. -/
theorem toDescriptor_inj {s u : PageSeg} (hs : s.lo < s.hi) (hu : u.lo < u.hi)
    (h : toDescriptor s = toDescriptor u) : s = u := by
  have hlo : s.lo * 4096 = u.lo * 4096 := congrArg EfiMemoryDescriptor.physicalStart h
  have hpages : s.hi - s.lo = u.hi - u.lo := congrArg EfiMemoryDescriptor.numberOfPages h
  have htag : s.tag = u.tag := congrArg EfiMemoryDescriptor.type h
  cases s
  cases u
  dsimp only at *
  simp only [Seg.mk.injEq]
  exact ⟨by omega, by omega, htag⟩

/-- Two allocators with different segments have different descriptors. -/
theorem Holds.active_eq_iff {a b : PageAllocator} {l m : List PageSeg} (ha : Holds a l)
    (hb : Holds b m) : a.activeDescriptors = b.activeDescriptors ↔ l = m := by
  rw [ha.active, hb.active]
  constructor
  · intro h
    have hla := ha.fits
    have hmb := hb.fits
    clear ha hb
    induction l generalizing m with
    | nil =>
        cases m with
        | nil => rfl
        | cons u m => cases h
    | cons s l ih =>
        cases m with
        | nil => cases h
        | cons u m =>
            rw [List.map_cons, List.map_cons, List.cons.injEq] at h
            rw [toDescriptor_inj (hla s (by simp)).1 (hmb u (by simp)).1 h.1,
                ih h.2 (fun v hv => hla v (List.mem_cons_of_mem _ hv))
                  (fun v hv => hmb v (List.mem_cons_of_mem _ hv))]
  · intro h
    rw [h]

/-- On segments, tearing the map is the carve being torn with as much room as the
    buffer has free slots. -/
theorem Holds.tornBy_iff {a : PageAllocator} {l : List PageSeg} (h : Holds a l) {room : Nat}
    (hroom : l.length + room = a.descriptors.length) (region : MemoryRegion)
    (t : EfiMemoryType) :
    a.TornBy region t ↔ Torn PageAllocator.isConventionalOrReserved region.outerPages.1
      region.outerPages.2 t room l := by
  have hstop : ∀ s ∈ l, (toDescriptor s).stop = s.hi * 4096 := fun s hs =>
    toDescriptor_stop (h.fits s hs).1
  have hcount : a.activeDescriptors.countP
        (EfiMemoryDescriptor.startsReservation (region.outerPages.1 * 4096))
      = l.countP (Seg.startsRange PageAllocator.isConventionalOrReserved
          region.outerPages.1) := by
    rw [h.active, List.countP_map]
    apply List.countP_congr
    intro s hs
    show (PageAllocator.isConventionalOrReserved s.tag
        && decide (s.lo * 4096 < region.outerPages.1 * 4096)
        && decide (region.outerPages.1 * 4096 < (toDescriptor s).stop)) = true
      ↔ (PageAllocator.isConventionalOrReserved s.tag && decide (s.lo < region.outerPages.1)
        && decide (region.outerPages.1 < s.hi)) = true
    have h1 : s.lo * 4096 < region.outerPages.1 * 4096 ↔ s.lo < region.outerPages.1 :=
      Nat.mul_lt_mul_right (by decide)
    have h2 : region.outerPages.1 * 4096 < s.hi * 4096 ↔ region.outerPages.1 < s.hi :=
      Nat.mul_lt_mul_right (by decide)
    rw [hstop s hs, decide_eq_decide.mpr h1, decide_eq_decide.mpr h2]
  have hlen := h.length_eq
  constructor
  · rintro ⟨⟨d, hd, hde, hd1, hd2, hd3⟩, ⟨e, he, hee, he1, he2, he3⟩, hfull⟩
    rw [h.active] at hd he
    obtain ⟨s, hs, rfl⟩ := List.mem_map.mp hd
    obtain ⟨u, hu, rfl⟩ := List.mem_map.mp he
    rw [hstop s hs] at hd3
    rw [hstop u hu] at he1 he2
    rw [toDescriptor_physicalStart] at hd1 hd2 he3
    refine ⟨⟨s, hs, hde, by omega, by omega, by omega⟩,
      ⟨u, hu, hee, by omega, by omega, he3.imp (fun hlt => by omega) id⟩, ?_⟩
    rw [← hcount]
    omega
  · rintro ⟨⟨s, hs, hse, hs1, hs2, hs3⟩, ⟨u, hu, hue, hu1, hu2, hu3⟩, hfull⟩
    refine ⟨⟨toDescriptor s, ?_, hse, ?_, ?_, ?_⟩, ⟨toDescriptor u, ?_, hue, ?_, ?_, ?_⟩, ?_⟩
    · rw [h.active]
      exact List.mem_map_of_mem hs
    · rw [toDescriptor_physicalStart]
      omega
    · rw [toDescriptor_physicalStart]
      omega
    · rw [hstop s hs]
      omega
    · rw [h.active]
      exact List.mem_map_of_mem hu
    · rw [hstop u hu]
      omega
    · rw [hstop u hu]
      omega
    · rw [toDescriptor_physicalStart]
      exact hu3.imp (fun hlt => by omega) id
    · rw [hcount]
      omega

/-! ## §3. When a failed reservation leaves the map alone. -/

/-- **A failed reservation leaves the descriptors alone exactly when it does not
    tear the map.** -/
theorem failed_reserve_unchanged_iff {a : PageAllocator} (h : Reachable a)
    (region : MemoryRegion) (t : EfiMemoryType) :
    (∀ e a', a.reserveRegionWithType region t = (.error e, a') →
        a'.activeDescriptors = a.activeDescriptors)
      ↔ ¬ a.TornBy region t := by
  obtain ⟨l, hl, htidy⟩ := h.sound
  have hcl := hl.count_le
  rw [hl.length_eq] at hcl
  obtain ⟨room, hroom⟩ := Nat.exists_eq_add_of_le hcl
  rw [hl.tornBy_iff hroom.symm]
  unfold PageAllocator.reserveRegionWithType PageAllocator.addReservedRegionWithType
  cases hregion : alignRegionToPages region true with
  | error e =>
      -- the region leaves the address space, so it ends behind every descriptor
      constructor
      · rintro _ ⟨⟨s, hs, _, _, hs2, hs3⟩, _, _⟩
        have hfits := (hl.fits s hs).2
        have hsmall : region.outerPages.2 < 2 ^ 52 := by omega
        obtain ⟨r, hr⟩ := alignRegionToPages_total hsmall
        rw [hr] at hregion
        cases hregion
      · intro _ e' a' hcall
        obtain rfl := (Prod.mk.inj hcall).2
        rfl
  | ok r =>
      obtain ⟨_, rfl⟩ := alignRegionToPages_outer hregion
      by_cases hempty : region.outerPages.2 ≤ region.outerPages.1
      · rw [if_pos hempty]
        constructor
        · rintro _ ⟨⟨s, _, _, hs1, hs2, _⟩, _, _⟩
          omega
        · intro _ e a' hcall
          cases (Prod.mk.inj hcall).1
      · rw [if_neg hempty]
        dsimp only
        have hlt : region.outerPages.1 < region.outerPages.2 := by omega
        have hstart : Holds a ([] ++ l) := hl
        obtain ⟨b, hloop, hb, _, _⟩ := carveLoop_within
          PageAllocator.isConventionalOrReserved t hlt a.descriptors.length hstart htidy
          (Nat.le_add_right _ _) hroom.symm
        rw [List.nil_append] at hb
        unfold PageAllocator.carveRangeForReservedRegion
        rw [show (0 : Nat) = ([] : List PageSeg).length from rfl, hloop, ← torn_iff hlt htidy]
        cases hflag : (carveWithin PageAllocator.isConventionalOrReserved region.outerPages.1
            region.outerPages.2 t room l).1 with
        | true =>
            constructor
            · rintro _ ⟨hfail, _⟩
              cases hfail
            · intro _ e a' hcall
              cases (Prod.mk.inj hcall).1
        | false =>
            constructor
            · rintro hsame ⟨_, hne⟩
              exact hne ((hb.active_eq_iff hl).mp (hsame _ b rfl))
            · intro hsame e a' hcall
              obtain rfl := (Prod.mk.inj hcall).2
              refine (hb.active_eq_iff hl).mpr ?_
              by_contra hne
              exact hsame ⟨rfl, hne⟩

/-- One reserved page in front of three conventional ones, in a full buffer. -/
def fullBuffer : PageAllocator :=
  { descriptors := [⟨.reservedMemoryType, 0, 0, 1, 0⟩, ⟨.conventionalMemory, 0x1000, 0, 3, 0⟩]
    descriptorCount := 2 }

theorem reachable_fullBuffer : Reachable fullBuffer :=
  ⟨fullBuffer, [], Or.inl ⟨.none, [⟨0, 0x4000⟩], [⟨0, 0x1000⟩], List.replicate 2 emptyDescriptor,
    by decide +kernel⟩, rfl⟩

/-- One page in the middle of the second descriptor: its first cut is refused. -/
theorem failed_reserve_unchanged_iff_example :
    ∃ a', fullBuffer.reserveRegionWithType ⟨0x2000, 0x1000⟩ .loaderData
        = (.error .bufferTooSmall, a')
      ∧ a'.activeDescriptors = fullBuffer.activeDescriptors := by
  have hfail : fullBuffer.reserveRegionWithType ⟨0x2000, 0x1000⟩ .loaderData
      = (.error .bufferTooSmall, fullBuffer) := by
    decide +kernel
  refine ⟨_, hfail, (failed_reserve_unchanged_iff reachable_fullBuffer _ _).mpr ?_ _ _ hfail⟩
  intro htorn
  obtain ⟨⟨d, hd, _, hstart, _, _⟩, _, _⟩ := htorn
  have hall : ∀ d ∈ fullBuffer.activeDescriptors, d.physicalStart ≤ 0x1000 := by decide +kernel
  have hbound := hall d hd
  have houter : MemoryRegion.outerPages ⟨0x2000, 0x1000⟩ = (2, 3) := rfl
  rw [houter] at hstart
  omega

/-- Two pages across the boundary: the reserved page changes its type before the
    split of the other descriptor is refused. -/
theorem failed_reserve_changes_map :
    ¬ ∀ a, Reachable a → ∀ region t e a',
        a.reserveRegionWithType region t = (.error e, a') →
        a'.activeDescriptors = a.activeDescriptors := by
  intro hall
  have hfail : fullBuffer.reserveRegionWithType ⟨0, 0x2000⟩ .loaderData
      = (.error .bufferTooSmall,
        { descriptors := [⟨.loaderData, 0, 0, 1, 0⟩, ⟨.conventionalMemory, 0x1000, 0, 3, 0⟩]
          descriptorCount := 2 }) := by
    decide +kernel
  have hsame := hall fullBuffer reachable_fullBuffer _ _ _ _ hfail
  exact absurd hsame (by decide +kernel)

end RustFirmware.Memory
