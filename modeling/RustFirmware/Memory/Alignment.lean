/-
  RustFirmware.Memory.Alignment
  ─────────────────────────────
  **ALIGNED ALLOCATIONS.**

  `find_aligned_allocation` rounds with a mask, downwards from the latest start
  or upwards from the first.  For a power of two the mask rounds, and the search
  finds the extreme aligned start (§1, §2).  Two things go wrong outside of that:

      §3   a multiple of 4 KiB that is no power of two is accepted, and the mask
           does not round to its multiples
      §4   rounding UP one descriptor's start may leave the address space, and
           that ends the search over all the others
-/
import Mathlib.Data.Nat.Factorization.Basic
import RustFirmware.Memory.Search

namespace RustFirmware.Memory

open RustFirmware.Lib

/-! ## §1. Rounding to a power of two. -/

/-- **`align_down` finds the last multiple** at or below an address. -/
theorem alignDown_two_pow {k v : Nat} (hk : k ≤ 64) (hv : v < 2 ^ 64) :
    2 ^ k ∣ alignDown v (2 ^ k) ∧ alignDown v (2 ^ k) ≤ v
      ∧ ∀ w, 2 ^ k ∣ w → w ≤ v → w ≤ alignDown v (2 ^ k) := by
  have heq : alignDown v (2 ^ k) = v / 2 ^ k * 2 ^ k := land_complement_two_pow 64 k v hk hv
  rw [heq]
  refine ⟨Nat.dvd_mul_left _ _, Nat.div_mul_le_self _ _, ?_⟩
  rintro w ⟨c, rfl⟩ hle
  rw [Nat.mul_comm]
  apply Nat.mul_le_mul_right
  rw [Nat.le_div_iff_mul_le (Nat.two_pow_pos k), Nat.mul_comm]
  exact hle

/-- **`align_up` finds the first multiple** at or above an address, if it does not
    refuse. -/
theorem alignUp_two_pow {k v r : Nat} (hk : k ≤ 64) (h : alignUp v (2 ^ k) = .ok r) :
    2 ^ k ∣ r ∧ v ≤ r ∧ ∀ w, 2 ^ k ∣ w → v ≤ w → r ≤ w := by
  obtain ⟨hfit, rfl⟩ := alignUp_ok.mp h
  have hpos : 0 < 2 ^ k := Nat.two_pow_pos k
  have heq : alignDown (v + (2 ^ k - 1)) (2 ^ k) = (v + (2 ^ k - 1)) / 2 ^ k * 2 ^ k :=
    land_complement_two_pow 64 k _ hk hfit
  rw [heq]
  have hdiv := Nat.div_add_mod (v + (2 ^ k - 1)) (2 ^ k)
  have hmod := Nat.mod_lt (v + (2 ^ k - 1)) hpos
  refine ⟨Nat.dvd_mul_left _ _, ?_, ?_⟩
  · rw [Nat.mul_comm]
    omega
  · rintro w ⟨c, rfl⟩ hle
    rw [Nat.mul_comm]
    apply Nat.mul_le_mul_left
    -- the rounded quotient is below `c + 1`
    apply Nat.le_of_lt_succ
    rw [Nat.div_lt_iff_lt_mul hpos, Nat.succ_mul, Nat.mul_comm c]
    omega

/-- `find_aligned_allocation` asks a descriptor for its lowest or highest aligned
    start. -/
theorem alignedStart_best {s : PageSeg} (hs : Fits s) {n k : Nat} (hk : k ≤ 64)
    (hpage : 4096 ∣ 2 ^ k) (direction : AllocationDirection) {o : Option Nat}
    (h : PageAllocator.alignedStart (n * 4096) (2 ^ k) direction (toDescriptor s) = .ok o) :
    Best (match direction with
        | .low  => fun v w => v ≤ w
        | .high => fun v w => w ≤ v)
      (fun v => v ∈ startsIn s n ∧ 2 ^ k ∣ v) o := by
  obtain ⟨hne, hfit⟩ := hs
  have hmult : ∀ v, 2 ^ k ∣ v → v % 4096 = 0 := fun v hv =>
    Nat.mod_eq_zero_of_dvd (hpage.trans hv)
  unfold PageAllocator.alignedStart checkedSub at h
  rw [descriptorEnd_toDescriptor ⟨hne, hfit⟩, toDescriptor_physicalStart] at h
  dsimp only [bind, Except.bind] at h
  -- a descriptor of fewer than `n` pages is passed over
  by_cases hpages : s.lo + n ≤ s.hi
  · rw [if_pos (by omega)] at h
    dsimp only at h
    rw [if_neg (by omega)] at h
    cases direction with
    | low =>
        dsimp only at h ⊢
        cases hup : alignUp (s.lo * 4096) (2 ^ k) with
        | error e =>
            rw [hup] at h
            cases h
        | ok start =>
            rw [hup] at h
            dsimp only at h
            obtain ⟨hdvd, hge, hleast⟩ := alignUp_two_pow hk hup
            cases hadd : checkedAdd 64 start (n * 4096) with
            | none =>
                rw [hadd] at h
                obtain rfl := Except.ok.inj h
                rintro v ⟨⟨_, hlo, hhi⟩, hv⟩
                have hsv := hleast v hv hlo
                unfold checkedAdd at hadd
                split at hadd
                · cases hadd
                · omega
            | some stop =>
                rw [hadd] at h
                obtain ⟨_, rfl⟩ := checkedAdd_eq_some.mp hadd
                dsimp only at h
                split at h
                next hout =>
                  obtain rfl := Except.ok.inj h
                  rintro v ⟨⟨_, hlo, hhi⟩, hv⟩
                  have hsv := hleast v hv hlo
                  omega
                next hin =>
                  obtain rfl := Except.ok.inj h
                  refine ⟨⟨⟨hmult start hdvd, by omega, by omega⟩, hdvd⟩, ?_⟩
                  rintro w ⟨⟨_, hlo, _⟩, hw⟩
                  exact hleast w hw hlo
    | high =>
        dsimp only at h ⊢
        obtain ⟨hdvd, hle, hlast⟩ :=
          alignDown_two_pow hk (show s.hi * 4096 - n * 4096 < 2 ^ 64 by omega)
        generalize alignDown (s.hi * 4096 - n * 4096) (2 ^ k) = start at h hdvd hle hlast
        cases hadd : checkedAdd 64 start (n * 4096) with
        | none =>
            unfold checkedAdd at hadd
            rw [if_pos (by omega)] at hadd
            cases hadd
        | some stop =>
            rw [hadd] at h
            obtain ⟨_, rfl⟩ := checkedAdd_eq_some.mp hadd
            dsimp only at h
            split at h
            next hout =>
              obtain rfl := Except.ok.inj h
              rintro v ⟨⟨_, hlo, hhi⟩, hv⟩
              have hsv := hlast v hv (by omega)
              omega
            next hin =>
              obtain rfl := Except.ok.inj h
              refine ⟨⟨⟨hmult start hdvd, by omega, by omega⟩, hdvd⟩, ?_⟩
              rintro w ⟨⟨_, _, hhi⟩, hw⟩
              exact hlast w hw (by omega)
  · have hnone : o = none := by
      by_cases hsub : n * 4096 ≤ s.hi * 4096
      · rw [if_pos hsub] at h
        dsimp only at h
        rw [if_pos (by omega)] at h
        exact (Except.ok.inj h).symm
      · rw [if_neg hsub] at h
        exact (Except.ok.inj h).symm
    rw [hnone]
    rintro v ⟨⟨_, hlo, hhi⟩, _⟩
    omega

/-! ## §2. The extreme aligned start. -/

/-- Which of two starts a direction prefers. -/
def AllocationDirection.Prefers : AllocationDirection → Nat → Nat → Prop
  | .low  => fun v w => v ≤ w
  | .high => fun v w => w ≤ v

/-- An aligned search errs only in its arithmetic. -/
theorem alignedStart_error {s : PageSeg} (hs : Fits s) {bytes alignment : Nat}
    {direction : AllocationDirection} {e : MemoryError}
    (h : PageAllocator.alignedStart bytes alignment direction (toDescriptor s) = .error e) :
    e = .addressOverflow := by
  unfold PageAllocator.alignedStart at h
  rw [descriptorEnd_toDescriptor hs] at h
  dsimp only [bind, Except.bind] at h
  split at h
  · cases h
  · split at h
    · cases h
    · cases direction with
      | low =>
          dsimp only at h
          cases hup : alignUp (toDescriptor s).physicalStart alignment with
          | error e' =>
              rw [hup] at h
              obtain rfl := Except.error.inj h
              unfold alignUp okOr at hup
              split at hup
              · cases hup
              · exact (Except.error.inj hup).symm
          | ok start =>
              rw [hup] at h
              dsimp only at h
              split at h
              · cases h
              · split at h
                · cases h
                · cases h
      | high =>
          dsimp only at h
          split at h
          · cases h
          · split at h
            · cases h
            · cases h

/-- **`find_aligned_allocation` finds the extreme aligned start**, or there is
    none, or an address left the address space. -/
theorem findAlignedAllocation_cases {a : PageAllocator} {l : List PageSeg} (hl : Holds a l)
    (hcan : Canonical l) {n k : Nat} (hn : 0 < n) (hk : k ≤ 64) (hpage : 4096 ∣ 2 ^ k)
    (direction : AllocationDirection) :
    Found direction.Prefers (fun v => HostsRun a.pageMap n v ∧ 2 ^ k ∣ v)
        (a.findAlignedAllocation n (2 ^ k) direction)
    ∨ ∃ e, a.findAlignedAllocation n (2 ^ k) direction = .error e ∧ e ≠ .outOfResources := by
  unfold PageAllocator.findAlignedAllocation
  cases hbytes : pagesToBytes n with
  | error e =>
      right
      refine ⟨e, rfl, ?_⟩
      rintro rfl
      unfold pagesToBytes pagesToU64 checkedMul at hbytes
      by_cases hcount : n < 2 ^ 64
      · rw [if_pos hcount] at hbytes
        dsimp only [bind, Except.bind] at hbytes
        split at hbytes
        · cases hbytes
        · cases hbytes
      · rw [if_neg hcount] at hbytes
        cases hbytes
  | ok bytes =>
      obtain ⟨_, rfl⟩ := pagesToBytes_ok.mp hbytes
      show Found _ _ (PageAllocator.searchDescriptors _ _ none a.activeDescriptors >>= _)
        ∨ ∃ e, (PageAllocator.searchDescriptors _ _ none a.activeDescriptors >>= _) = _ ∧ _
      cases hsearch : PageAllocator.searchDescriptors
          (PageAllocator.alignedStart (n * 4096) (2 ^ k) direction)
          (match direction with
            | .low  => min
            | .high => max) none a.activeDescriptors with
      | error e =>
          right
          refine ⟨e, rfl, ?_⟩
          obtain ⟨d, hd, herr⟩ := searchDescriptors_error hsearch
          rw [hl.active] at hd
          obtain ⟨s, hs, rfl⟩ := List.mem_map.mp hd
          rw [alignedStart_error (hl.fits s hs) herr]
          decide
      | ok r =>
          left
          cases direction with
          | low =>
              exact found_of_best (searchDescriptors_hosts chooses_min hn hl hcan
                (fun s hs o ho => alignedStart_best hs hk hpage .low ho) hsearch)
          | high =>
              exact found_of_best (searchDescriptors_hosts chooses_max hn hl hcan
                (fun s hs o ho => alignedStart_best hs hk hpage .high ho) hsearch)

/-- The body of `allocate_aligned_pages` behind its parameter checks. -/
theorem allocateAlignedPages_cases (a : PageAllocator) (t : EfiMemoryType) (n alignment : Nat)
    (direction : AllocationDirection) :
    (a.allocateAlignedPages t n alignment direction = (.error .invalidParameter, a))
    ∨ a.allocateAlignedPages t n alignment direction
      = match a.findAlignedAllocation n alignment direction with
        | .error e => (.error e, a)
        | .ok start =>
            match a.allocateExactRange start n t with
            | (.error e, self) => (.error e, self)
            | (.ok (), self)   => (.ok start, self) := by
  unfold PageAllocator.allocateAlignedPages
  split
  · exact Or.inl rfl
  · unfold pagesToU64
    by_cases hfit : n < 2 ^ 64
    · rw [if_pos hfit]
      exact Or.inr rfl
    · rw [if_neg hfit]
      exact Or.inl rfl

/-- **`allocate_aligned_pages` finds the extreme**: after a successful call, with
    a power of two as the alignment, what it returns is the lowest or highest
    aligned start of `n` conventional pages; when it reports `OutOfResources`
    there is no such start. -/
theorem allocateAlignedPages_takes_extreme {a₀ : PageAllocator} (h : Built a₀)
    {calls : List Call} (hlast : lastSucceeded a₀ calls = true) {n : Nat} (hn : 1 ≤ n)
    {k : Nat} (hpage : 4096 ≤ 2 ^ k) (hword : 2 ^ k < 2 ^ 64) (t : EfiMemoryType) :
    (∀ start a', (final a₀ calls).allocateAlignedPages t n (2 ^ k) .low = (.ok start, a') →
        IsLeast (fun v => HostsRun (final a₀ calls).pageMap n v ∧ 2 ^ k ∣ v) start)
    ∧ (∀ start a', (final a₀ calls).allocateAlignedPages t n (2 ^ k) .high = (.ok start, a') →
        IsGreatest (fun v => HostsRun (final a₀ calls).pageMap n v ∧ 2 ^ k ∣ v) start)
    ∧ ∀ direction a', (final a₀ calls).allocateAlignedPages t n (2 ^ k) direction
          = (.error .outOfResources, a') →
        ∀ v, ¬ (HostsRun (final a₀ calls).pageMap n v ∧ 2 ^ k ∣ v) := by
  obtain ⟨hsound, hset⟩ := runs_keep_settled h hlast
  generalize final a₀ calls = a at hsound hset ⊢
  obtain ⟨l, hl, htidy⟩ := hsound
  have hcan := hl.canonical htidy hset
  have hk : k ≤ 64 := (Nat.pow_le_pow_iff_right (by omega : 1 < 2)).mp hword.le
  have hdvd : 4096 ∣ 2 ^ k := by
    have h12 : 12 ≤ k := (Nat.pow_le_pow_iff_right (by omega : 1 < 2)).mp hpage
    exact Nat.pow_dvd_pow 2 h12
  have hok : ∀ direction start a',
      a.allocateAlignedPages t n (2 ^ k) direction = (.ok start, a') →
      Best direction.Prefers (fun v => HostsRun a.pageMap n v ∧ 2 ^ k ∣ v) (some start) := by
    intro direction start a' hcall
    rcases allocateAlignedPages_cases a t n (2 ^ k) direction with heq | heq
    · rw [heq] at hcall
      cases (Prod.mk.inj hcall).1
    · rw [heq] at hcall
      rcases findAlignedAllocation_cases hl hcan hn hk hdvd direction with
        (⟨found, hfind, hbest⟩ | ⟨hfind, _⟩) | ⟨e, hfind, _⟩
      · rw [hfind] at hcall
        dsimp only at hcall
        split at hcall
        · cases (Prod.mk.inj hcall).1
        · obtain rfl := Except.ok.inj (Prod.mk.inj hcall).1
          exact hbest
      · rw [hfind] at hcall
        cases (Prod.mk.inj hcall).1
      · rw [hfind] at hcall
        cases (Prod.mk.inj hcall).1
  refine ⟨hok .low, hok .high, ?_⟩
  intro direction a' hcall
  rcases allocateAlignedPages_cases a t n (2 ^ k) direction with heq | heq
  · rw [heq] at hcall
    cases (Prod.mk.inj hcall).1
  · rw [heq] at hcall
    rcases findAlignedAllocation_cases hl hcan hn hk hdvd direction with
      (⟨found, hfind, hmem, _⟩ | ⟨_, hnone⟩) | ⟨e, hfind, hne⟩
    · -- a start that was found is refused for its split alone
      rw [hfind] at hcall
      dsimp only at hcall
      rcases allocateExactRange_of_hosts hl hcan hn hmem.1 t with
        ⟨_, a'', halloc⟩ | ⟨_, halloc⟩
      · rw [halloc] at hcall
        cases (Prod.mk.inj hcall).1
      · rw [halloc] at hcall
        cases (Prod.mk.inj hcall).1
    · exact hnone
    · rw [hfind] at hcall
      exact absurd (Except.error.inj (Prod.mk.inj hcall).1) hne

/-- One page at a multiple of 16 KiB, right after the constructor. -/
theorem allocateAlignedPages_takes_extreme_example :
    ∃ a, PageAllocator.fromRegions .none [⟨0x1000, 0x8000⟩] [] (List.replicate 8 emptyDescriptor)
        = .ok a
      ∧ ∀ start a', a.allocateAlignedPages .loaderData 1 (2 ^ 14) .low = (.ok start, a') →
          IsLeast (fun v => HostsRun a.pageMap 1 v ∧ 2 ^ 14 ∣ v) start := by
  obtain ⟨a, ha⟩ : ∃ a, PageAllocator.fromRegions .none [⟨0x1000, 0x8000⟩] []
      (List.replicate 8 emptyDescriptor) = .ok a := ⟨_, rfl⟩
  have hlast : lastSucceeded a [] = true := rfl
  exact ⟨a, ha, (allocateAlignedPages_takes_extreme (Or.inl ⟨_, _, _, _, ha⟩) hlast (n := 1)
    (by decide) (k := 14) (by decide) (by decide) .loaderData).1⟩

/-! ## §3. Alignments that are no power of two. -/

/-- An allocator whose map is `pages` conventional pages from the address `base`
    on, in a buffer of one descriptor. -/
def singleRange (base pages : Nat) : PageAllocator :=
  { descriptors := [{ type := .conventionalMemory, physicalStart := base, virtualStart := 0,
                      numberOfPages := pages, attributeMask := 0 }]
    descriptorCount := 1 }

/-- `from_regions` builds it from one page-aligned RAM range. -/
theorem built_singleRange {base : Nat} (hbase : base % 4096 = 0) (hfit : base + 4096 < 2 ^ 64) :
    Built (singleRange base 1) := by
  refine Or.inl ⟨.none, [⟨base, 4096⟩], [], [emptyDescriptor], ?_⟩
  have hregion : alignRegionToPages ⟨base, 4096⟩ false = .ok (some (base, base + 4096)) := by
    have hup : alignUp base efiPageSize = .ok base := alignUp_page.mpr ⟨by omega, by omega⟩
    have hadd : checkedAdd 64 base 4096 = some (base + 4096) :=
      checkedAdd_eq_some.mpr ⟨hfit, rfl⟩
    have hdown : alignDown (base + 4096) efiPageSize = base + 4096 := by
      rw [alignDown_page hfit]
      omega
    unfold alignRegionToPages
    rw [hadd]
    dsimp only [okOr, bind, Except.bind]
    rw [if_neg Bool.false_ne_true, if_neg Bool.false_ne_true, hup, hdown]
    dsimp only
    rw [if_neg (by omega)]
  have hadd : PageAllocator.addMemoryRegion ⟨[emptyDescriptor], 0⟩ ⟨base, 4096⟩
      = (.ok (), singleRange base 1) := by
    unfold PageAllocator.addMemoryRegion
    rw [hregion]
    dsimp only
    rw [show base + 4096 - base = 4096 by omega]
    rfl
  unfold PageAllocator.fromRegions PageAllocator.forEachRegion
  rw [hadd]
  rfl

theorem singleRange_holds {x : Nat} (hfit : x + 1 < 2 ^ 52) :
    Holds (singleRange (x * 4096) 1) [⟨x, x + 1, .conventionalMemory⟩] := by
  refine ⟨?_, Nat.le_refl _, ?_⟩
  · rw [List.map_singleton]
    unfold toDescriptor
    rw [show x + 1 - x = 1 by omega]
    rfl
  · intro s hs
    rw [List.mem_singleton] at hs
    subst hs
    exact ⟨Nat.lt_succ_self x, hfit⟩

/-- The one page is found for any alignment whose mask leaves its address alone. -/
theorem singleRange_finds {x : Nat} (hfit : x + 1 < 2 ^ 52) {alignment : Nat}
    (hdown : alignDown (x * 4096) alignment = x * 4096)
    (hup : alignUp (x * 4096) alignment = .ok (x * 4096)) (direction : AllocationDirection) :
    (singleRange (x * 4096) 1).findAlignedAllocation 1 alignment direction
      = .ok (x * 4096) := by
  have hbytes : pagesToBytes 1 = .ok (1 * 4096) := pagesToBytes_ok.mpr ⟨by omega, rfl⟩
  have hsub : checkedSub ((x + 1) * 4096) (1 * 4096) = some (x * 4096) :=
    checkedSub_eq_some.mpr ⟨by omega, by omega⟩
  have hadd : checkedAdd 64 (x * 4096) (1 * 4096) = some (x * 4096 + 1 * 4096) :=
    checkedAdd_eq_some.mpr ⟨by omega, rfl⟩
  have hstart : PageAllocator.alignedStart (1 * 4096) alignment direction
      (toDescriptor ⟨x, x + 1, .conventionalMemory⟩) = .ok (some (x * 4096)) := by
    unfold PageAllocator.alignedStart
    rw [descriptorEnd_toDescriptor ⟨Nat.lt_succ_self x, hfit⟩, toDescriptor_physicalStart]
    dsimp only [bind, Except.bind]
    rw [hsub]
    dsimp only
    rw [if_neg (Nat.lt_irrefl _)]
    cases direction with
    | low =>
        dsimp only
        rw [hup]
        dsimp only
        rw [hadd]
        dsimp only
        rw [if_neg (by omega)]
    | high =>
        dsimp only
        rw [hdown, hadd]
        dsimp only
        rw [if_neg (by omega)]
  unfold PageAllocator.findAlignedAllocation
  rw [hbytes, (singleRange_holds hfit).active, List.map_singleton]
  dsimp only [bind, Except.bind]
  rw [PageAllocator.searchDescriptors, toDescriptor_type, if_neg (not_not.mpr rfl), hstart]
  rfl

/-- And it is allocated: the whole descriptor changes its type. -/
theorem singleRange_allocates {x : Nat} (hfit : x + 1 < 2 ^ 52) {alignment : Nat}
    (h0 : 0 < alignment) (hpage : alignment % 4096 = 0)
    (hdown : alignDown (x * 4096) alignment = x * 4096)
    (hup : alignUp (x * 4096) alignment = .ok (x * 4096)) (direction : AllocationDirection) :
    ∃ a', (singleRange (x * 4096) 1).allocateAlignedPages .loaderData 1 alignment direction
      = (.ok (x * 4096), a') := by
  have hholds := singleRange_holds hfit
  have hcan : Canonical [(⟨x, x + 1, .conventionalMemory⟩ : PageSeg)] :=
    ⟨⟨List.pairwise_singleton _ _, by simp⟩, List.isChain_singleton _⟩
  have hhosts : HostsRun (singleRange (x * 4096) 1).pageMap 1 (x * 4096) := by
    rw [hholds.pageMap_eq, hostsRun_iff hcan Nat.one_pos]
    refine ⟨_, List.mem_singleton_self _, rfl, Nat.mul_mod_left x 4096, Nat.le_refl _, ?_⟩
    dsimp only
    omega
  have hroom : (singleRange (x * 4096) 1).SplitFits (x * 4096) 1 := by
    have hparts : Holds (singleRange (x * 4096) 1)
        ([] ++ ⟨x, x + 1, .conventionalMemory⟩ :: []) := hholds
    have hsize := split_length_eq hparts hcan rfl (x := x) (n := 1)
      (Nat.le_refl x) (Nat.le_refl (x + 1)) Nat.one_pos .loaderData
    unfold PageAllocator.SplitFits
    rw [← hsize]
    simp [splitSeg, singleRange]
  have hcount : pagesToU64 1 = .ok 1 := pagesToU64_ok.mpr ⟨by omega, rfl⟩
  have haccepted : ¬ (1 = 0 ∨ EfiMemoryType.loaderData = .maxMemoryType ∨ alignment = 0
      ∨ ¬ isPageAligned alignment = true) := by
    rintro (h | h | h | h)
    · cases h
    · cases h
    · omega
    · exact h ((isPageAligned_iff alignment).mpr hpage)
  unfold PageAllocator.allocateAlignedPages
  rw [if_neg haccepted, hcount]
  dsimp only [bind, Except.bind]
  rw [singleRange_finds hfit hdown hup direction]
  dsimp only
  rcases allocateExactRange_of_hosts hholds hcan Nat.one_pos hhosts .loaderData with
    ⟨_, a', halloc⟩ | ⟨hfull, _⟩
  · rw [halloc]
    exact ⟨a', rfl⟩
  · exact absurd hroom hfull

/-- **The alignments that are honoured**: of the accepted ones, exactly the powers
    of two.  For any other one there is a map, and in either direction, where
    the call returns an address that is not a multiple of it. -/
theorem alignment_honoured_iff {alignment : Nat} (h0 : 0 < alignment)
    (hpage : alignment % 4096 = 0) (hword : alignment < 2 ^ 64)
    (direction : AllocationDirection) :
    (∀ a, Reachable a → ∀ t pages start a',
        a.allocateAlignedPages t pages alignment direction = (.ok start, a') →
        alignment ∣ start)
      ↔ ∃ k, alignment = 2 ^ k := by
  constructor
  · intro hall
    obtain ⟨j, c, hodd, rfl⟩ := Nat.exists_eq_two_pow_mul_odd (Nat.ne_of_gt h0)
    obtain ⟨q, rfl⟩ := hodd
    by_cases hq : q = 0
    · subst hq
      exact ⟨j, by omega⟩
    · -- a page at `2 ^ j`, which the mask leaves alone
      exfalso
      have hpos : 0 < 2 ^ j := Nat.two_pow_pos j
      have hthree : 2 ^ j * 3 ≤ 2 ^ j * (2 * q + 1) := Nat.mul_le_mul_left _ (by omega)
      have hj64 : j < 64 := by
        apply (Nat.pow_lt_pow_iff_right (by omega : 1 < 2)).mp
        omega
      have hbase : 2 ^ j % 4096 = 0 := by
        have hdvd : 2 ^ 12 ∣ 2 ^ j * (2 * q + 1) := Nat.dvd_of_mod_eq_zero hpage
        have hcop : Nat.Coprime (2 ^ 12) (2 * q + 1) :=
          Nat.Coprime.pow_left 12 (Nat.coprime_two_left.mpr ⟨q, rfl⟩)
        exact Nat.mod_eq_zero_of_dvd (hcop.dvd_of_dvd_mul_right hdvd)
      have hfit : 2 ^ j + 4096 < 2 ^ 64 := by omega
      obtain ⟨hdown, hup⟩ := land_complement_odd_multiple (w := 64) (q := q) hj64 hword.le
      have hupok : alignUp (2 ^ j) (2 ^ j * (2 * q + 1)) = .ok (2 ^ j) := by
        refine alignUp_ok.mpr ⟨?_, hup.symm⟩
        -- the next multiple of `2 ^ j` behind the alignment is still a word
        obtain ⟨r, hr⟩ : 2 ^ j ∣ 2 ^ 64 := Nat.pow_dvd_pow 2 hj64.le
        have hlt : 2 * q + 1 < r := by
          apply Nat.lt_of_mul_lt_mul_left (a := 2 ^ j)
          omega
        have hle := Nat.mul_le_mul_left (2 ^ j) (show 2 * q + 1 + 1 ≤ r from hlt)
        rw [Nat.mul_succ] at hle
        omega
      have hreach : Reachable (singleRange (2 ^ j) 1) :=
        ⟨_, [], built_singleRange hbase hfit, rfl⟩
      obtain ⟨x, hx⟩ : ∃ x, 2 ^ j = x * 4096 := ⟨2 ^ j / 4096, by omega⟩
      have hsmall : x + 1 < 2 ^ 52 := by omega
      obtain ⟨a', hcall⟩ := singleRange_allocates (x := x) hsmall h0 hpage
        (by rw [← hx]; exact hdown) (by rw [← hx]; exact hupok) direction
      rw [← hx] at hcall
      have hdvd := hall _ hreach _ _ _ _ hcall
      have hle := Nat.le_of_dvd hpos hdvd
      omega
  · rintro ⟨k, rfl⟩ a hreach t pages start a' hcall
    rcases hreach.sound.allocateAlignedPages t pages (2 ^ k) direction with
      ⟨_, _, heq, _, _, v, hv⟩ | ⟨_, heq⟩
    · rw [heq] at hcall
      obtain rfl := Except.ok.inj (Prod.mk.inj hcall).1
      rw [hv]
      exact land_complement_pred_dvd 64 k v (2 ^ k) h0 (Nat.dvd_refl _)
    · rw [heq] at hcall
      cases (Prod.mk.inj hcall).1

/-- 16 KiB is honoured: the page at 32 KiB is returned for it. -/
theorem alignment_honoured_iff_example :
    ∃ start a', (singleRange 0x8000 1).allocateAlignedPages .loaderData 1 0x4000 .high
        = (.ok start, a')
      ∧ 0x4000 ∣ start := by
  have hreach : Reachable (singleRange 0x8000 1) :=
    ⟨_, [], built_singleRange (by decide) (by decide), rfl⟩
  have hhonoured := (alignment_honoured_iff (by decide) (by decide) (by decide) .high).mpr ⟨14, rfl⟩
  have hrun : ((singleRange 0x8000 1).allocateAlignedPages .loaderData 1 0x4000 .high).1
      = .ok 0x8000 := by
    decide +kernel
  rcases hcall : (singleRange 0x8000 1).allocateAlignedPages .loaderData 1 0x4000 .high
    with ⟨result, a'⟩
  rw [hcall] at hrun
  cases hrun
  exact ⟨_, a', rfl, hhonoured _ hreach _ _ _ a' hcall⟩

/-- 12 KiB is not: a page at 4 KiB is returned for it. -/
theorem twelve_kib_not_honoured :
    ¬ ∀ a, Reachable a → ∀ t pages alignment direction start a', 0 < alignment →
      alignment % 4096 = 0 →
      a.allocateAlignedPages t pages alignment direction = (.ok start, a') →
      alignment ∣ start := by
  intro hall
  have hreach : Reachable (singleRange 0x1000 1) :=
    ⟨_, [], built_singleRange (by decide) (by decide), rfl⟩
  have hbad := hall _ hreach .loaderData 1 0x3000 .high 0x1000 _ (by decide) (by decide)
    (Prod.ext (by decide +kernel) rfl)
  exact absurd hbad (by decide)

/-! ## §4. A descriptor that ends the search. -/

/-- A descriptor can be asked for a start unless it is long enough and its start
    rounds up past the end of the address space. -/
theorem alignedStart_ok_iff {d : EfiMemoryDescriptor}
    (hfits : d.physicalStart + d.numberOfPages * 4096 < 2 ^ 64) (n alignment : Nat)
    (direction : AllocationDirection) :
    (∃ o, PageAllocator.alignedStart (n * 4096) alignment direction d = .ok o)
      ↔ (direction = .low → n ≤ d.numberOfPages →
          d.physicalStart + (alignment - 1) < 2 ^ 64) := by
  have hend : descriptorEnd d = .ok (d.physicalStart + d.numberOfPages * 4096) :=
    checkedEnd_ok.mpr ⟨hfits, rfl⟩
  unfold PageAllocator.alignedStart checkedSub
  rw [hend]
  dsimp only [bind, Except.bind]
  by_cases hpages : n ≤ d.numberOfPages
  · rw [if_pos (by omega)]
    dsimp only
    rw [if_neg (by omega)]
    cases direction with
    | high =>
        refine ⟨fun _ hlow => (by cases hlow), fun _ => ?_⟩
        dsimp only
        -- behind the rounding there is nothing that could fail
        split
        · exact ⟨_, rfl⟩
        · split
          · exact ⟨_, rfl⟩
          · exact ⟨_, rfl⟩
    | low =>
        dsimp only
        by_cases hround : d.physicalStart + (alignment - 1) < 2 ^ 64
        · rw [alignUp_ok.mpr ⟨hround, rfl⟩]
          refine ⟨fun _ _ _ => hround, fun _ => ?_⟩
          dsimp only
          split
          · exact ⟨_, rfl⟩
          · split
            · exact ⟨_, rfl⟩
            · exact ⟨_, rfl⟩
        · constructor
          · rintro ⟨o, ho⟩
            cases hup : alignUp d.physicalStart alignment with
            | error e =>
                rw [hup] at ho
                cases ho
            | ok start => exact absurd (alignUp_ok.mp hup).1 hround
          · intro h
            exact absurd (h rfl hpages) hround
  · refine ⟨fun _ _ h => absurd h hpages, fun _ => ?_⟩
    by_cases hsub : n * 4096 ≤ d.physicalStart + d.numberOfPages * 4096
    · rw [if_pos hsub]
      dsimp only
      rw [if_pos (by omega)]
      exact ⟨_, rfl⟩
    · rw [if_neg hsub]
      exact ⟨_, rfl⟩

/-- When an aligned search succeeds: the size is representable, no conventional
    descriptor fails and one of them has a start. -/
theorem findAlignedAllocation_ok_iff {a : PageAllocator} {n alignment : Nat}
    {direction : AllocationDirection} :
    (∃ s, a.findAlignedAllocation n alignment direction = .ok s)
      ↔ n * 4096 < 2 ^ 64
        ∧ (∀ d ∈ a.activeDescriptors, d.type = .conventionalMemory →
            ∃ o, PageAllocator.alignedStart (n * 4096) alignment direction d = .ok o)
        ∧ ∃ d ∈ a.activeDescriptors, d.type = .conventionalMemory
            ∧ ∃ v, PageAllocator.alignedStart (n * 4096) alignment direction d = .ok (some v) := by
  unfold PageAllocator.findAlignedAllocation
  constructor
  · rintro ⟨s, hs⟩
    obtain ⟨bytes, hbytes, hs⟩ := bind_eq_ok.mp hs
    obtain ⟨hfit, rfl⟩ := pagesToBytes_ok.mp hbytes
    obtain ⟨r, hr, hs⟩ := bind_eq_ok.mp hs
    obtain rfl := okOr_eq_ok.mp hs
    refine ⟨hfit, (searchDescriptors_ok_iff none).mp ⟨_, hr⟩, ?_⟩
    rcases (searchDescriptors_isSome hr).mp rfl with hnone | hsome
    · cases hnone
    · exact hsome
  · rintro ⟨hfit, hall, hsome⟩
    rw [pagesToBytes_ok.mpr ⟨hfit, rfl⟩]
    obtain ⟨r, hr⟩ := (searchDescriptors_ok_iff none).mpr hall
    obtain ⟨s, rfl⟩ := Option.isSome_iff_exists.mp
      ((searchDescriptors_isSome hr).mpr (Or.inr hsome))
    exact ⟨s, bind_eq_ok.mpr ⟨_, rfl, bind_eq_ok.mpr ⟨_, hr, rfl⟩⟩⟩

/-- **Adding a conventional descriptor keeps the search successful** exactly when,
    for an upward rounding that takes place, the start of the new descriptor does
    not round past the end of the address space. -/
theorem findAlignedAllocation_extended_iff {a b : PageAllocator}
    {l₁ l₂ : List EfiMemoryDescriptor} {d : EfiMemoryDescriptor}
    (ha : a.activeDescriptors = l₁ ++ l₂) (hb : b.activeDescriptors = l₁ ++ d :: l₂)
    (hinv : MapInvariant b) (hconv : d.type = .conventionalMemory) {n alignment : Nat}
    {direction : AllocationDirection}
    (hfound : ∃ s, a.findAlignedAllocation n alignment direction = .ok s) :
    (∃ s, b.findAlignedAllocation n alignment direction = .ok s)
      ↔ (direction = .low → n ≤ d.numberOfPages →
          d.physicalStart + (alignment - 1) < 2 ^ 64) := by
  have hfits : d.physicalStart + d.numberOfPages * 4096 < 2 ^ 64 :=
    hinv.fits d (by rw [hb]; simp)
  obtain ⟨hbytes, hall, e, he, hconv', v, hv⟩ := findAlignedAllocation_ok_iff.mp hfound
  rw [ha] at hall he
  rw [← alignedStart_ok_iff hfits, findAlignedAllocation_ok_iff, hb]
  constructor
  · rintro ⟨_, hallb, _⟩
    exact hallb d (by simp) hconv
  · intro hd
    refine ⟨hbytes, ?_, e, ?_, hconv', v, hv⟩
    · intro d' hd' htype
      rcases List.mem_append.mp hd' with hmem | hmem
      · exact hall d' (List.mem_append_left _ hmem) htype
      · rcases List.mem_cons.mp hmem with rfl | hmem
        · exact hd
        · exact hall d' (List.mem_append_right _ hmem) htype
    · rcases List.mem_append.mp he with hmem | hmem
      · exact List.mem_append_left _ hmem
      · exact List.mem_append_right _ (List.mem_cons_of_mem _ hmem)

/-- Two conventional pages at zero, as `from_regions` builds them. -/
def lowRange : PageAllocator :=
  { descriptors := [⟨.conventionalMemory, 0, 0, 2, 0⟩, emptyDescriptor], descriptorCount := 1 }

/-- The page behind the first one of the upper half of the address space. -/
def highPage : EfiMemoryDescriptor := ⟨.conventionalMemory, 2 ^ 63 + 4096, 0, 1, 0⟩

/-- The two ranges together. -/
def lowRangeAndHighPage : PageAllocator :=
  { descriptors := [⟨.conventionalMemory, 0, 0, 2, 0⟩, highPage], descriptorCount := 2 }

theorem mapInvariant_lowRangeAndHighPage : MapInvariant lowRangeAndHighPage := by
  have hbuilt : Built lowRangeAndHighPage :=
    Or.inl ⟨.none, [⟨0, 0x2000⟩, ⟨2 ^ 63 + 4096, 0x1000⟩], [], List.replicate 2 emptyDescriptor,
      by decide +kernel⟩
  exact (runs_keep_mapInvariant hbuilt []).1

/-- For a downward search the high page does no harm. -/
theorem findAlignedAllocation_extended_iff_example :
    (∃ s, lowRangeAndHighPage.findAlignedAllocation 1 (2 ^ 63) .high = .ok s)
      ↔ (AllocationDirection.high = .low → 1 ≤ highPage.numberOfPages →
          highPage.physicalStart + (2 ^ 63 - 1) < 2 ^ 64) :=
  findAlignedAllocation_extended_iff
    (show lowRange.activeDescriptors = [⟨.conventionalMemory, 0, 0, 2, 0⟩] ++ [] from rfl) rfl
    mapInvariant_lowRangeAndHighPage rfl ⟨0, by decide +kernel⟩

/-- For an upward search it makes the request fail that the low range satisfies. -/
theorem high_page_ends_upward_search :
    ¬ ∀ (a b : PageAllocator) (l₁ l₂ : List EfiMemoryDescriptor) (d : EfiMemoryDescriptor)
        (n k : Nat) (direction : AllocationDirection),
      a.activeDescriptors = l₁ ++ l₂ → b.activeDescriptors = l₁ ++ d :: l₂ →
      MapInvariant a → MapInvariant b → d.type = .conventionalMemory → 4096 ≤ 2 ^ k →
      2 ^ k < 2 ^ 64 → (∃ s, a.findAlignedAllocation n (2 ^ k) direction = .ok s) →
      ∃ s, b.findAlignedAllocation n (2 ^ k) direction = .ok s := by
  intro hall
  have hlow : MapInvariant lowRange := by
    have hbuilt : Built lowRange :=
      Or.inl ⟨.none, [⟨0, 0x2000⟩], [], List.replicate 2 emptyDescriptor, by decide +kernel⟩
    exact (runs_keep_mapInvariant hbuilt []).1
  obtain ⟨s, hs⟩ := hall lowRange lowRangeAndHighPage [⟨.conventionalMemory, 0, 0, 2, 0⟩] []
    highPage 1 63 .low rfl rfl hlow mapInvariant_lowRangeAndHighPage rfl (by decide) (by decide)
    ⟨0, by decide +kernel⟩
  have herr : lowRangeAndHighPage.findAlignedAllocation 1 (2 ^ 63) .low
      = .error .addressOverflow := by
    decide +kernel
  rw [herr] at hs
  cases hs

end RustFirmware.Memory
