/-
  RustFirmware.Memory.Calls
  ─────────────────────────
  **WHAT EACH PUBLIC CALL DOES TO THE PAGE MAP.**

  One lemma per call, each saying EVERYTHING the call can do.  An allocation
  that succeeds took pages that were all conventional and painted them
  (`Granted`); a free that succeeds found pages of one type, neither
  conventional nor reserved, and painted them conventional (`Released`).  A
  call of either kind that fails leaves the allocator as it was.

  §1 is about the searches: whatever the policy, the start they return is a
  page address, which is all that the exact-range step needs.
-/
import RustFirmware.Memory.PageMap

namespace RustFirmware.Memory

open RustFirmware.Lib

/-! ## §1. The searches return page addresses. -/

/-- A property of every candidate is a property of the result: the search only
    ever keeps one of two candidates. -/
theorem searchDescriptors_ok {P : Nat → Prop}
    {start? : EfiMemoryDescriptor → Except MemoryError (Option Nat)} {better : Nat → Nat → Nat}
    (hstart : ∀ d s, start? d = .ok (some s) → P s)
    (hbetter : ∀ x y, P x → P y → P (better x y)) {ds : List EfiMemoryDescriptor}
    {candidate : Option Nat} (hcand : ∀ s, candidate = some s → P s) {r : Option Nat}
    (h : PageAllocator.searchDescriptors start? better candidate ds = .ok r) :
    ∀ s, r = some s → P s := by
  induction ds generalizing candidate with
  | nil =>
      obtain rfl := Except.ok.inj h
      exact hcand
  | cons d ds ih =>
      rw [PageAllocator.searchDescriptors] at h
      split at h
      · exact ih hcand h
      · cases hd : start? d with
        | error e =>
            rw [hd] at h
            cases h
        | ok o =>
            rw [hd] at h
            cases o with
            | none => exact ih hcand h
            | some s =>
                refine ih ?_ h
                intro u hu
                obtain rfl := Option.some.inj hu
                cases candidate with
                | none => exact hstart d s hd
                | some c => exact hbetter c s (hcand c rfl) (hstart d s hd)

theorem max_cases {P : Nat → Prop} (x y : Nat) (hx : P x) (hy : P y) : P (max x y) := by
  rcases Nat.le_total x y with h | h
  · rw [Nat.max_eq_right h]
    exact hy
  · rw [Nat.max_eq_left h]
    exact hx

theorem min_cases {P : Nat → Prop} (x y : Nat) (hx : P x) (hy : P y) : P (min x y) := by
  rcases Nat.le_total x y with h | h
  · rw [Nat.min_eq_left h]
    exact hx
  · rw [Nat.min_eq_right h]
    exact hy

/-- The page size divides anything rounded down to pages. -/
theorem alignDown_efiPageSize_mod (v : Nat) : alignDown v efiPageSize % 4096 = 0 :=
  alignDown_mod_page v (by decide) (by decide)

theorem findAllocationAnyPages_mod {a : PageAllocator} {pages start : Nat}
    (h : a.findAllocationAnyPages pages = .ok start) : start % 4096 = 0 := by
  obtain ⟨bytes, _, h⟩ := bind_eq_ok.mp h
  obtain ⟨candidate, hsearch, h⟩ := bind_eq_ok.mp h
  refine searchDescriptors_ok (P := fun s => s % 4096 = 0) ?_ max_cases ?_ hsearch start
    (okOr_eq_ok.mp h)
  · intro d s hs
    obtain ⟨_, _, hs⟩ := bind_eq_ok.mp hs
    split at hs
    · cases hs
    · dsimp only at hs
      split at hs
      · cases hs
      · obtain rfl := Option.some.inj (Except.ok.inj hs)
        exact alignDown_efiPageSize_mod _
  · intro s hs
    cases hs

theorem findAllocationMaxAddress_mod {a : PageAllocator} {bytes memory start : Nat}
    (h : a.findAllocationMaxAddress bytes memory = .ok start) : start % 4096 = 0 := by
  obtain ⟨candidate, hsearch, h⟩ := bind_eq_ok.mp h
  refine searchDescriptors_ok (P := fun s => s % 4096 = 0) ?_ max_cases ?_ hsearch start
    (okOr_eq_ok.mp h)
  · intro d s hs
    obtain ⟨_, _, hs⟩ := bind_eq_ok.mp hs
    dsimp only at hs
    split at hs
    · cases hs
    · split at hs
      · cases hs
      · obtain rfl := Option.some.inj (Except.ok.inj hs)
        exact alignDown_efiPageSize_mod _
  · intro s hs
    cases hs

/-- The aligned search returns something rounded down by the alignment, in
    either direction: rounding up is rounding down after an addition. -/
theorem findAlignedAllocation_ok {a : PageAllocator} {pages alignment start : Nat}
    {direction : AllocationDirection}
    (h : a.findAlignedAllocation pages alignment direction = .ok start) :
    ∃ v, start = alignDown v alignment := by
  obtain ⟨bytes, _, h⟩ := bind_eq_ok.mp h
  obtain ⟨candidate, hsearch, h⟩ := bind_eq_ok.mp h
  refine searchDescriptors_ok (P := fun s => ∃ v, s = alignDown v alignment) ?_ ?_ ?_ hsearch
    start (okOr_eq_ok.mp h)
  · intro d s hs
    obtain ⟨descriptorEnd, _, hs⟩ := bind_eq_ok.mp hs
    split at hs
    · cases hs
    · split at hs
      · cases hs
      · obtain ⟨first, hfirst, hs⟩ := bind_eq_ok.mp hs
        -- rounding up is rounding a larger number down
        have hrounded : ∃ v, first = alignDown v alignment := by
          cases direction with
          | low => exact ⟨_, (alignUp_ok.mp hfirst).2⟩
          | high => exact ⟨_, (Except.ok.inj hfirst).symm⟩
        split at hs
        · cases hs
        · split at hs
          · cases hs
          · obtain rfl := Option.some.inj (Except.ok.inj hs)
            exact hrounded
  · cases direction with
    | low => exact min_cases
    | high => exact max_cases
  · intro s hs
    cases hs

/-! ## §2. Exact ranges. -/

/-- What a successful allocation of `pages` pages at `start` did. -/
structure Granted (a a' : PageAllocator) (start pages : Nat) (t : EfiMemoryType) : Prop where
  aligned  : start % 4096 = 0
  nonempty : 0 < pages
  free     : ∀ p, start / 4096 ≤ p → p < start / 4096 + pages →
    a.pageMap p = some .conventionalMemory
  map      : a'.pageMap = paint a.pageMap (start / 4096) (start / 4096 + pages) t
  sound    : Sound a'
  settled  : Settled a'

/-- What a successful free of `pages` pages at `memory` did. -/
structure Released (a a' : PageAllocator) (memory pages : Nat) : Prop where
  aligned  : memory % 4096 = 0
  nonempty : 0 < pages
  typed    : ∃ t, t ≠ .conventionalMemory ∧ t ≠ .reservedMemoryType
    ∧ ∀ p, memory / 4096 ≤ p → p < memory / 4096 + pages → a.pageMap p = some t
  map      : a'.pageMap
    = paint a.pageMap (memory / 4096) (memory / 4096 + pages) .conventionalMemory
  sound    : Sound a'
  settled  : Settled a'

/-- The exact-range step on the map. -/
theorem Sound.retypeExactRange {a : PageAllocator} (h : Sound a) {memory n : Nat}
    (hmem : memory % 4096 = 0) (hn : 0 < n) (refuse : EfiMemoryType → Option MemoryError)
    (t : EfiMemoryType) :
    (∃ a' s, a.retypeExactRange memory n refuse t = (.ok (), a') ∧ refuse s = none
        ∧ (∀ p, memory / 4096 ≤ p → p < memory / 4096 + n → a.pageMap p = some s)
        ∧ a'.pageMap = paint a.pageMap (memory / 4096) (memory / 4096 + n) t
        ∧ Sound a' ∧ Settled a')
    ∨ ∃ e, a.retypeExactRange memory n refuse t = (.error e, a) := by
  obtain ⟨l, hl, htidy⟩ := h
  obtain ⟨x, rfl⟩ : ∃ x, memory = x * 4096 := ⟨memory / 4096, by omega⟩
  rw [Nat.mul_div_cancel x (by omega)]
  rcases retypeExactRange_cases hl htidy hn refuse t (x := x) with
    ⟨a', l₁, s, l₂, heq, rfl, h1, h2, href, _, hholds, _⟩ | herr
  · left
    have htidy' := htidy.split t h1 (b := x + n) (by omega) h2
    refine ⟨a', s.tag, heq, href, ?_, ?_, ⟨_, hholds, htidy'.layered.tidy_fuse⟩, hholds.settled⟩
    · intro p hp1 hp2
      rw [hl.pageMap_eq]
      exact htidy.denote_mem (by simp) ⟨by omega, by omega⟩
    · rw [hholds.pageMap_eq, htidy'.denote_fuse, hl.pageMap_eq,
          htidy.denote_split t h1 (by omega) h2]
  · exact Or.inr herr

theorem Sound.allocateExactRange {a : PageAllocator} (h : Sound a) {start n : Nat}
    (hstart : start % 4096 = 0) (hn : 0 < n) (t : EfiMemoryType) :
    (∃ a', a.allocateExactRange start n t = (.ok (), a') ∧ Granted a a' start n t)
    ∨ ∃ e, a.allocateExactRange start n t = (.error e, a) := by
  rcases h.retypeExactRange hstart hn PageAllocator.allocateRefuses t with
    ⟨a', s, heq, href, hpages, hmap, hsound, hset⟩ | herr
  · left
    have hconv : s = .conventionalMemory := by
      unfold PageAllocator.allocateRefuses at href
      by_contra hne
      rw [if_pos hne] at href
      cases href
    rw [hconv] at hpages
    exact ⟨a', heq, ⟨hstart, hn, hpages, hmap, hsound, hset⟩⟩
  · exact Or.inr herr

theorem Sound.freeExactRange {a : PageAllocator} (h : Sound a) {memory n : Nat}
    (hmem : memory % 4096 = 0) (hn : 0 < n) :
    (∃ a', a.freeExactRange memory n = (.ok (), a') ∧ Released a a' memory n)
    ∨ ∃ e, a.freeExactRange memory n = (.error e, a) := by
  rcases h.retypeExactRange hmem hn PageAllocator.freeRefuses .conventionalMemory with
    ⟨a', s, heq, href, hpages, hmap, hsound, hset⟩ | herr
  · left
    have hne : s ≠ .conventionalMemory ∧ s ≠ .reservedMemoryType := by
      unfold PageAllocator.freeRefuses at href
      rw [← not_or]
      intro hor
      rw [if_pos hor] at href
      cases href
    exact ⟨a', heq, ⟨hmem, hn, ⟨s, hne.1, hne.2, hpages⟩, hmap, hsound, hset⟩⟩
  · exact Or.inr herr

/-! ## §3. The public allocation calls. -/

/-- **`AllocatePages`.** -/
theorem Sound.allocatePages {a : PageAllocator} (h : Sound a) (type : EfiAllocateType)
    (t : EfiMemoryType) (pages memory : Nat) :
    (∃ start a', a.allocatePages type t pages memory = (.ok (), start, a')
        ∧ Granted a a' start pages t)
    ∨ ∃ e, a.allocatePages type t pages memory = (.error e, memory, a) := by
  unfold PageAllocator.allocatePages
  by_cases hbad : pages = 0 ∨ t = .maxMemoryType ∨ type = .maxAllocateType
  · rw [if_pos hbad]
    exact Or.inr ⟨_, rfl⟩
  · rw [if_neg hbad]
    cases hstart : (do let pageCount ← pagesToU64 pages
                       let byteCount ← pagesToBytes pages
                       a.allocationStart type pageCount byteCount memory) with
    | error e => exact Or.inr ⟨e, rfl⟩
    | ok start =>
        obtain ⟨pageCount, _, hfind⟩ := bind_eq_ok.mp hstart
        obtain ⟨byteCount, _, hfind⟩ := bind_eq_ok.mp hfind
        -- each way to choose a start gives a page
        have hmod : start % 4096 = 0 := by
          cases type with
          | allocateAnyPages => exact findAllocationAnyPages_mod hfind
          | allocateMaxAddress => exact findAllocationMaxAddress_mod hfind
          | allocateAddress =>
              unfold PageAllocator.allocationStart at hfind
              dsimp only at hfind
              split at hfind
              next haligned =>
                obtain rfl := Except.ok.inj hfind
                exact (isPageAligned_iff _).mp haligned
              next => cases hfind
          | maxAllocateType => cases hfind
        dsimp only
        rcases h.allocateExactRange hmod (Nat.pos_of_ne_zero (fun h0 => hbad (Or.inl h0))) t with
          ⟨a', heq, hgrant⟩ | ⟨e, heq⟩
        · rw [heq]
          exact Or.inl ⟨start, a', rfl, hgrant⟩
        · rw [heq]
          exact Or.inr ⟨e, rfl⟩

/-- The page count `allocate_*_for_size` asks for. -/
def pageCountForSize (sizeBytes : Nat) : Nat :=
  match pagesForSize sizeBytes with
  | .ok pageCount => pageCount
  | .error _      => 0

/-- The two page counts of the sources agree: `max(1, ceil)` of the loaders and
    `pages_for_size` of the allocator. -/
theorem pageCountForSize_eq {sizeBytes : Nat} (h : 0 < pageCountForSize sizeBytes) :
    pageCountForSize sizeBytes = max 1 ((sizeBytes + 4095) / 4096) := by
  unfold pageCountForSize at h ⊢
  cases hp : pagesForSize sizeBytes with
  | error e =>
      rw [hp] at h
      exact absurd h (Nat.lt_irrefl 0)
  | ok pages =>
      show pages = _
      rw [(pagesForSize_ok.mp hp).2]
      omega

/-- **`allocate_pages_for_size`.** -/
theorem Sound.allocatePagesForSize {a : PageAllocator} (h : Sound a) (t : EfiMemoryType)
    (sizeBytes : Nat) :
    (∃ start a', a.allocatePagesForSize t sizeBytes = (.ok start, a')
        ∧ Granted a a' start (pageCountForSize sizeBytes) t)
    ∨ ∃ e, a.allocatePagesForSize t sizeBytes = (.error e, a) := by
  unfold PageAllocator.allocatePagesForSize pageCountForSize
  split
  · exact Or.inr ⟨_, rfl⟩
  · cases pagesForSize sizeBytes with
    | error e => exact Or.inr ⟨e, rfl⟩
    | ok pageCount =>
        dsimp only
        rcases h.allocatePages .allocateAnyPages t pageCount 0 with
          ⟨start, a', heq, hgrant⟩ | ⟨e, heq⟩
        · rw [heq]
          exact Or.inl ⟨start, a', rfl, hgrant⟩
        · rw [heq]
          exact Or.inr ⟨e, rfl⟩

/-- **`allocate_aligned_pages`.**  The start is rounded by the alignment, which
    is a multiple of the page size. -/
theorem Sound.allocateAlignedPages {a : PageAllocator} (h : Sound a) (t : EfiMemoryType)
    (pages alignment : Nat) (direction : AllocationDirection) :
    (∃ start a', a.allocateAlignedPages t pages alignment direction = (.ok start, a')
        ∧ Granted a a' start pages t ∧ 0 < alignment ∧ ∃ v, start = alignDown v alignment)
    ∨ ∃ e, a.allocateAlignedPages t pages alignment direction = (.error e, a) := by
  unfold PageAllocator.allocateAlignedPages
  by_cases hbad : pages = 0 ∨ t = .maxMemoryType ∨ alignment = 0 ∨ ¬ isPageAligned alignment
  · rw [if_pos hbad]
    exact Or.inr ⟨_, rfl⟩
  · rw [if_neg hbad]
    obtain ⟨hpages, hbad⟩ := not_or.mp hbad
    obtain ⟨_, hbad⟩ := not_or.mp hbad
    obtain ⟨halign, hpagealign⟩ := not_or.mp hbad
    cases hstart : (do let pageCount ← pagesToU64 pages
                       a.findAlignedAllocation pageCount alignment direction) with
    | error e => exact Or.inr ⟨e, rfl⟩
    | ok start =>
        obtain ⟨pageCount, _, hfind⟩ := bind_eq_ok.mp hstart
        obtain ⟨v, hv⟩ := findAlignedAllocation_ok hfind
        have hmod : start % 4096 = 0 := by
          rw [hv]
          exact alignDown_mod_page v (Nat.pos_of_ne_zero halign)
            ((isPageAligned_iff _).mp (not_not.mp hpagealign))
        dsimp only
        rcases h.allocateExactRange hmod (Nat.pos_of_ne_zero hpages) t with
          ⟨a', heq, hgrant⟩ | ⟨e, heq⟩
        · rw [heq]
          exact Or.inl ⟨start, a', rfl, hgrant, Nat.pos_of_ne_zero halign, v, hv⟩
        · rw [heq]
          exact Or.inr ⟨e, rfl⟩

/-- **`allocate_aligned_pages_for_size`.** -/
theorem Sound.allocateAlignedPagesForSize {a : PageAllocator} (h : Sound a) (t : EfiMemoryType)
    (sizeBytes alignment : Nat) (direction : AllocationDirection) :
    (∃ start a', a.allocateAlignedPagesForSize t sizeBytes alignment direction = (.ok start, a')
        ∧ Granted a a' start (pageCountForSize sizeBytes) t ∧ 0 < alignment
        ∧ ∃ v, start = alignDown v alignment)
    ∨ ∃ e, a.allocateAlignedPagesForSize t sizeBytes alignment direction = (.error e, a) := by
  unfold PageAllocator.allocateAlignedPagesForSize pageCountForSize
  split
  · exact Or.inr ⟨_, rfl⟩
  · cases pagesForSize sizeBytes with
    | error e => exact Or.inr ⟨e, rfl⟩
    | ok pageCount => exact h.allocateAlignedPages t pageCount alignment direction

/-- **`FreePages`.** -/
theorem Sound.freePages {a : PageAllocator} (h : Sound a) (memory pages : Nat) :
    (∃ a', a.freePages memory pages = (.ok (), a') ∧ Released a a' memory pages)
    ∨ ∃ e, a.freePages memory pages = (.error e, a) := by
  unfold PageAllocator.freePages
  by_cases hbad : pages = 0 ∨ ¬ isPageAligned memory
  · rw [if_pos hbad]
    exact Or.inr ⟨_, rfl⟩
  · rw [if_neg hbad]
    obtain ⟨hpages, haligned⟩ := not_or.mp hbad
    cases hcount : pagesToU64 pages with
    | error e => exact Or.inr ⟨e, rfl⟩
    | ok pageCount =>
        obtain ⟨_, rfl⟩ := pagesToU64_ok.mp hcount
        exact h.freeExactRange ((isPageAligned_iff _).mp (not_not.mp haligned))
          (Nat.pos_of_ne_zero hpages)

end RustFirmware.Memory
