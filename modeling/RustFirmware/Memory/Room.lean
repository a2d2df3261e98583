/-
  RustFirmware.Memory.Room
  ────────────────────────
  **WHEN AN ALLOCATION GOES THROUGH, IN ANY REACHABLE MAP.**

  After a failed reservation two conventional descriptors may touch, and a run of
  pages across both is in neither of them.  So what decides here is a single
  DESCRIPTOR that offers the pages, and whether the buffer has room for the pieces
  that are cut off it:

      §1   an exact range
      §2   `AllocateAddress` and `AllocateAnyPages`
-/
import RustFirmware.Memory.Failures
import RustFirmware.Memory.Search

namespace RustFirmware.Memory

open RustFirmware.Lib

/-! ## §1. An exact range. -/

/-- The descriptor is conventional and contains the `n` pages from the page
    address `start` on. -/
def EfiMemoryDescriptor.Offers (d : EfiMemoryDescriptor) (n start : Nat) : Prop :=
  d.type = .conventionalMemory ∧ start % 4096 = 0
    ∧ d.physicalStart ≤ start ∧ start + n * 4096 ≤ d.stop

/-- How many pieces remain of it when they are taken out, one on each side. -/
def EfiMemoryDescriptor.remains (d : EfiMemoryDescriptor) (n start : Nat) : Nat :=
  (if d.physicalStart < start then 1 else 0) + (if start + n * 4096 < d.stop then 1 else 0)

/-- **The `n` pages from `start` on can be taken**: a descriptor offers them, and
    there are free slots for what remains of it. -/
def PageAllocator.CanTake (self : PageAllocator) (n start : Nat) : Prop :=
  ∃ d ∈ self.activeDescriptors, d.Offers n start
    ∧ self.descriptorCount + d.remains n start ≤ self.descriptors.length

theorem offers_toDescriptor {s : PageSeg} (hs : Fits s) {n x : Nat} :
    (toDescriptor s).Offers n (x * 4096)
      ↔ s.tag = .conventionalMemory ∧ s.lo ≤ x ∧ x + n ≤ s.hi := by
  unfold EfiMemoryDescriptor.Offers
  rw [toDescriptor_stop hs.1, toDescriptor_physicalStart, toDescriptor_type]
  apply and_congr_right
  intro _
  omega

/-- The split list is as long as the buffer has to be. -/
theorem Holds.split_length {a : PageAllocator} {l₁ l₂ : List PageSeg} {s : PageSeg}
    (h : Holds a (l₁ ++ s :: l₂)) (x n : Nat) (t : EfiMemoryType) :
    (l₁ ++ (splitSeg s x (x + n) t ++ l₂)).length
      = a.descriptorCount + (toDescriptor s).remains n (x * 4096) := by
  have hcount := h.length_eq
  rw [List.length_append, List.length_cons] at hcount
  have hleft : s.lo * 4096 < x * 4096 ↔ s.lo < x := Nat.mul_lt_mul_right (by decide)
  have hright : x * 4096 + n * 4096 < s.hi * 4096 ↔ x + n < s.hi := by
    rw [← Nat.add_mul]
    exact Nat.mul_lt_mul_right (by decide)
  unfold EfiMemoryDescriptor.remains
  rw [toDescriptor_stop h.fits_mid.1, toDescriptor_physicalStart, List.length_append,
      List.length_append, splitSeg_length]
  simp only [hleft, hright]
  omega

/-- **`allocate_exact_range` succeeds exactly on pages that can be taken.** -/
theorem Holds.allocateExactRange_iff {a : PageAllocator} {l : List PageSeg} (h : Holds a l)
    (htidy : Tidy l) {n start : Nat} (hn : 0 < n) (hmod : start % 4096 = 0)
    (t : EfiMemoryType) :
    (∃ a', a.allocateExactRange start n t = (.ok (), a')) ↔ a.CanTake n start := by
  obtain ⟨x, rfl⟩ : ∃ x, start = x * 4096 := ⟨start / 4096, by omega⟩
  unfold PageAllocator.allocateExactRange
  constructor
  · rintro ⟨a', hcall⟩
    rcases retypeExactRange_cases h htidy hn PageAllocator.allocateRefuses t (x := x) with
      ⟨_, l₁, s, l₂, _, rfl, h1, h2, href, hroom, _⟩ | ⟨e, heq⟩
    · have hconv : s.tag = .conventionalMemory := by
        unfold PageAllocator.allocateRefuses at href
        by_contra hne
        rw [if_pos hne] at href
        cases href
      refine ⟨toDescriptor s, ?_, (offers_toDescriptor h.fits_mid).mpr ⟨hconv, h1, h2⟩, ?_⟩
      · rw [h.active]
        exact List.mem_map_of_mem (by simp)
      · rw [← h.split_length x n t]
        exact hroom
    · rw [heq] at hcall
      cases (Prod.mk.inj hcall).1
  · rintro ⟨d, hd, hoffers, hroom⟩
    rw [h.active] at hd
    obtain ⟨s, hs, rfl⟩ := List.mem_map.mp hd
    obtain ⟨hconv, h1, h2⟩ := (offers_toDescriptor (h.fits s hs)).mp hoffers
    obtain ⟨l₁, l₂, rfl⟩ := List.append_of_mem hs
    rw [← h.split_length x n t] at hroom
    rcases retypeExactRange_at h htidy hn h1 h2 PageAllocator.allocateRefuses t with
      ⟨e, href, _⟩ | ⟨_, _, a', heq, _⟩ | ⟨_, hfull, _⟩
    · rw [hconv] at href
      cases href
    · exact ⟨a', heq⟩
    · omega

/-! ## §2. The calls. -/

/-- Pages that can be taken end below `2 ^ 64`. -/
theorem Holds.canTake_lt {a : PageAllocator} {l : List PageSeg} (h : Holds a l) {n start : Nat}
    (htake : a.CanTake n start) : n < 2 ^ 52 := by
  obtain ⟨d, hd, ⟨_, _, hlo, hhi⟩, _⟩ := htake
  rw [h.active] at hd
  obtain ⟨s, hs, rfl⟩ := List.mem_map.mp hd
  obtain ⟨hlt, hfit⟩ := h.fits s hs
  rw [toDescriptor_stop hlt] at hhi
  omega

/-- **`AllocateAddress` succeeds exactly on an aligned address whose pages can be
    taken.** -/
theorem allocateAddress_ok_iff {a : PageAllocator} (h : Sound a) {n : Nat} (hn : 0 < n)
    {t : EfiMemoryType} (ht : t ≠ .maxMemoryType) (memory : Nat) :
    (∃ start a', a.allocatePages .allocateAddress t n memory = (.ok (), start, a'))
      ↔ memory % 4096 = 0 ∧ a.CanTake n memory := by
  obtain ⟨l, hl, htidy⟩ := h
  by_cases hbytes : n * 4096 < 2 ^ 64
  · rw [allocatePages_eq a hn hbytes ht (by decide)]
    unfold PageAllocator.allocationStart
    dsimp only
    by_cases hmod : memory % 4096 = 0
    · rw [if_pos ((isPageAligned_iff memory).mpr hmod), ← hl.allocateExactRange_iff htidy hn hmod t]
      dsimp only
      -- the call ends as `allocate_exact_range` does
      constructor
      · rintro ⟨start, a', hcall⟩
        split at hcall
        · cases (Prod.mk.inj hcall).1
        next b hexact => exact ⟨hmod, b, hexact⟩
      · rintro ⟨_, a', hexact⟩
        rw [hexact]
        exact ⟨memory, a', rfl⟩
    · rw [if_neg (fun haligned => hmod ((isPageAligned_iff memory).mp haligned))]
      constructor
      · rintro ⟨_, _, hcall⟩
        cases (Prod.mk.inj hcall).1
      · rintro ⟨hmod', _⟩
        exact absurd hmod' hmod
  · -- no descriptor is that large, and the call reports the overflow
    constructor
    · rintro ⟨start, a', hcall⟩
      unfold PageAllocator.allocatePages at hcall
      split at hcall
      · cases (Prod.mk.inj hcall).1
      · split at hcall
        · cases (Prod.mk.inj hcall).1
        next hstart =>
          obtain ⟨_, _, hstart⟩ := bind_eq_ok.mp hstart
          obtain ⟨_, hsize, _⟩ := bind_eq_ok.mp hstart
          exact absurd (pagesToBytes_ok.mp hsize).1 hbytes
    · rintro ⟨_, htake⟩
      have hlt := hl.canTake_lt htake
      omega

/-- **`n` pages can be taken somewhere**: at the highest start that any descriptor
    offers, which is where the search goes. -/
def PageAllocator.CanTakeHighest (self : PageAllocator) (n : Nat) : Prop :=
  ∃ start, self.CanTake n start ∧ ∀ d ∈ self.activeDescriptors, ∀ v, d.Offers n v → v ≤ start

/-- The starts that the segments have are those that their descriptors offer. -/
theorem Holds.mem_startsOf_iff {a : PageAllocator} {l : List PageSeg} (h : Holds a l) {n v : Nat} :
    v ∈ startsOf l n (fun _ => True) ↔ ∃ d ∈ a.activeDescriptors, d.Offers n v := by
  rw [h.active]
  constructor
  · rintro ⟨s, hs, htag, ⟨hmod, hlo, hhi⟩, _⟩
    refine ⟨toDescriptor s, List.mem_map_of_mem hs, htag, hmod, hlo, ?_⟩
    rw [toDescriptor_stop (h.fits s hs).1]
    exact hhi
  · rintro ⟨d, hd, htag, hmod, hlo, hhi⟩
    obtain ⟨s, hs, rfl⟩ := List.mem_map.mp hd
    rw [toDescriptor_stop (h.fits s hs).1] at hhi
    exact ⟨s, hs, htag, ⟨hmod, hlo, hhi⟩, trivial⟩

/-- **`find_allocation_any_pages` finds the highest start on offer**, in a map that
    need not be coalesced. -/
theorem Holds.findAllocationAnyPages_offers {a : PageAllocator} {l : List PageSeg} (h : Holds a l)
    {n : Nat} (hbytes : n * 4096 < 2 ^ 64) :
    Found (fun v w => w ≤ v) (fun v => ∃ d ∈ a.activeDescriptors, d.Offers n v)
      (a.findAllocationAnyPages n) := by
  have hcount : pagesToBytes n = .ok (n * 4096) := pagesToBytes_ok.mpr ⟨hbytes, rfl⟩
  obtain ⟨r, hr⟩ : ∃ r, PageAllocator.searchDescriptors _ max none a.activeDescriptors = .ok r :=
    (searchDescriptors_ok_iff none).mpr
      (fun d hd _ => (addressStart_total h (n * 4096) 0).1 d hd)
  have hlist := hr
  rw [h.active] at hlist
  have hnone : Best (fun v w : Nat => w ≤ v) (∅ : Set Nat) none := fun _ hv => hv
  have hbest := searchDescriptors_best chooses_max
    (fun s hs _ o ho => anyPagesStart_best (h.fits s hs) ho) hnone hlist
  unfold PageAllocator.findAllocationAnyPages
  rw [hcount]
  show Found _ _ (PageAllocator.searchDescriptors _ max none a.activeDescriptors >>= _)
  rw [hr]
  refine found_of_best (hbest.congr ?_)
  intro v
  rw [Set.empty_union]
  exact h.mem_startsOf_iff

/-- **`AllocateAnyPages` succeeds exactly if the pages can be taken at the highest
    start.** -/
theorem allocateAnyPages_ok_iff {a : PageAllocator} (h : Sound a) {n : Nat} (hn : 0 < n)
    (hbytes : n * 4096 < 2 ^ 64) {t : EfiMemoryType} (ht : t ≠ .maxMemoryType) (memory : Nat) :
    (∃ start a', a.allocatePages .allocateAnyPages t n memory = (.ok (), start, a'))
      ↔ a.CanTakeHighest n := by
  obtain ⟨l, hl, htidy⟩ := h
  rw [allocatePages_eq a hn hbytes ht (by decide)]
  unfold PageAllocator.allocationStart
  dsimp only
  rcases hl.findAllocationAnyPages_offers hbytes with ⟨start, heq, ⟨d, hd, hoffers⟩, hbest⟩ | ⟨heq, hnone⟩
  · rw [heq]
    dsimp only
    have hexact := hl.allocateExactRange_iff htidy hn hoffers.2.1 t
    constructor
    · rintro ⟨start', a', hcall⟩
      split at hcall
      · cases (Prod.mk.inj hcall).1
      next b hb =>
        exact ⟨start, hexact.mp ⟨b, hb⟩, fun e he v hv => hbest v ⟨e, he, hv⟩⟩
    · rintro ⟨v, htake, hhighest⟩
      -- both are the highest, so they are one
      obtain ⟨e, he, hev, _⟩ := id htake
      have hle := hhighest d hd start hoffers
      have hge := hbest v ⟨e, he, hev⟩
      obtain rfl : v = start := by omega
      obtain ⟨b, hb⟩ := hexact.mpr htake
      rw [hb]
      exact ⟨v, b, rfl⟩
  · rw [heq]
    constructor
    · rintro ⟨_, _, hcall⟩
      cases (Prod.mk.inj hcall).1
    · rintro ⟨v, ⟨d, hd, hoffers, _⟩, _⟩
      exact absurd ⟨d, hd, hoffers⟩ (hnone v)

/-- **`allocate_pages_for_size`**, which asks for at least one page. -/
theorem allocatePagesForSize_ok_iff {a : PageAllocator} (h : Sound a) {t : EfiMemoryType}
    (ht : t ≠ .maxMemoryType) (sizeBytes : Nat) :
    (∃ start a', a.allocatePagesForSize t sizeBytes = (.ok start, a'))
      ↔ a.CanTakeHighest ((max sizeBytes 1 + 4095) / 4096) := by
  unfold PageAllocator.allocatePagesForSize
  rw [if_neg ht]
  cases hpages : pagesForSize sizeBytes with
  | error e =>
      constructor
      · rintro ⟨_, _, hcall⟩
        cases (Prod.mk.inj hcall).1
      · rintro ⟨start, htake, _⟩
        obtain ⟨l, hl, _⟩ := h
        have hlt := hl.canTake_lt htake
        have hok := pagesForSize_ok.mpr
          ⟨(by omega : max sizeBytes 1 + 4095 < 2 ^ 64), (rfl : (max sizeBytes 1 + 4095) / 4096 = _)⟩
        rw [hok] at hpages
        cases hpages
  | ok pageCount =>
      obtain ⟨hfit, rfl⟩ := pagesForSize_ok.mp hpages
      rw [← allocateAnyPages_ok_iff h (by omega) (by omega) ht 0]
      dsimp only
      constructor
      · rintro ⟨start, a', hcall⟩
        split at hcall
        · cases (Prod.mk.inj hcall).1
        next s b heq => exact ⟨s, b, heq⟩
      · rintro ⟨start, a', heq⟩
        rw [heq]
        exact ⟨start, a', rfl⟩

end RustFirmware.Memory
