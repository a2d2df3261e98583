/-
  RustFirmware.Memory.Restore
  ───────────────────────────
  **AN ALLOCATION CAN BE TAKEN BACK.**

  Freeing what was just allocated restores the descriptors exactly.  The map is
  restored because both calls paint the same pages; the DESCRIPTORS are, because
  a settled map has only one way to be written down.  The free needs room for a
  split of its own when the allocation was merged with its neighbours, and it
  needs no more than the allocation did.
-/
import RustFirmware.Memory.Search

namespace RustFirmware.Memory

open RustFirmware.Lib

/-! ## §1. Allocating an exact range and freeing it. -/

/-- Painting conventional pages and painting them back changes nothing. -/
theorem paint_paint_back {m : Nat → Option EfiMemoryType} {x y : Nat} {t u : EfiMemoryType}
    (hfree : ∀ p, x ≤ p → p < y → m p = some u) : paint (paint m x y t) x y u = m := by
  funext p
  unfold paint
  by_cases hp : x ≤ p ∧ p < y
  · rw [if_pos hp, hfree p hp.1 hp.2]
  · rw [if_neg hp, if_neg hp]

/-- **Freeing an exact range restores the descriptors.** -/
theorem freeExactRange_restores {a a' : PageAllocator} {l : List PageSeg} (hl : Holds a l)
    (hcan : Canonical l) {start n : Nat} (hmod : start % 4096 = 0) (hn : 0 < n)
    {t : EfiMemoryType} (hconv : t ≠ .conventionalMemory) (hres : t ≠ .reservedMemoryType)
    (halloc : a.allocateExactRange start n t = (.ok (), a')) :
    n < 2 ^ 64 ∧ ∃ a'', a'.freeExactRange start n = (.ok (), a'')
      ∧ a''.activeDescriptors = a.activeDescriptors := by
  obtain ⟨x, rfl⟩ : ∃ x, start = x * 4096 := ⟨start / 4096, by omega⟩
  unfold PageAllocator.allocateExactRange at halloc
  rcases retypeExactRange_cases hl hcan.toTidy hn PageAllocator.allocateRefuses t with
    ⟨_, l₁, s, l₂, heq, rfl, h1, h2, href, hroom, hholds, hlen⟩ | ⟨_, heq⟩
  · rw [heq] at halloc
    obtain rfl := (Prod.mk.inj halloc).2
    have htag : s.tag = .conventionalMemory := by
      unfold PageAllocator.allocateRefuses at href
      by_contra hne
      rw [if_pos hne] at href
      cases href
    have hfits := (hl.fits s (by simp)).2
    refine ⟨by omega, ?_⟩
    -- the map after the allocation, and the segment that now holds the range
    have hsplit := hcan.toTidy.split t h1 (show x < x + n by omega) h2
    have hafter : denote (fuse (l₁ ++ (splitSeg s x (x + n) t ++ l₂)))
        = paint (denote (l₁ ++ s :: l₂)) x (x + n) t := by
      rw [hsplit.denote_fuse, hcan.toTidy.denote_split t h1 (by omega) h2]
    have hrun : ∀ p, x ≤ p → p < x + n →
        denote (fuse (l₁ ++ (splitSeg s x (x + n) t ++ l₂))) p = some t := by
      intro p hp1 hp2
      rw [hafter]
      exact if_pos ⟨hp1, hp2⟩
    have hcan' := hsplit.canonical_fuse
    obtain ⟨m₁, u, m₂, hm, h3, h4, hutag⟩ := hcan'.run_in_segment hn hrun
    rw [hm] at hholds hcan' hafter
    unfold PageAllocator.freeExactRange
    rcases retypeExactRange_at hholds hcan'.toTidy hn h3 h4 PageAllocator.freeRefuses
        .conventionalMemory with ⟨e, hrefuse, _⟩ | ⟨_, _, a'', hfree, hback, _⟩ | ⟨_, hfull, _⟩
    · -- the type is neither conventional nor reserved
      unfold PageAllocator.freeRefuses at hrefuse
      rw [hutag, if_neg (not_or.mpr ⟨hconv, hres⟩)] at hrefuse
      cases hrefuse
    · refine ⟨a'', hfree, ?_⟩
      have hsplit' := hcan'.toTidy.split .conventionalMemory h3 (show x < x + n by omega) h4
      have hsame : fuse (m₁ ++ (splitSeg u x (x + n) .conventionalMemory ++ m₂))
          = l₁ ++ s :: l₂ := by
        apply hsplit'.canonical_fuse.ext hcan
        rw [hsplit'.denote_fuse, hcan'.toTidy.denote_split _ h3 (by omega) h4, hafter]
        apply paint_paint_back
        intro p hp1 hp2
        rw [← htag]
        exact hcan.toTidy.denote_mem (by simp) ⟨by omega, by omega⟩
      rw [hback.active, hl.active, hsame]
    · -- both splits cut the same range out of maps that agree around it
      exfalso
      have hsize := hcan.split_length_eq hcan' t h1 (show x < x + n by omega) h2 h3 h4 (by
        intro p hp
        rw [hafter]
        exact (if_neg hp).symm)
      have htags : (m₁ ++ (splitSeg u x (x + n) t ++ m₂)).length
          = (m₁ ++ (splitSeg u x (x + n) .conventionalMemory ++ m₂)).length := by
        simp only [List.length_append, splitSeg_length]
      omega
  · rw [heq] at halloc
    cases (Prod.mk.inj halloc).1

/-! ## §2. The public calls. -/

/-- A successful `AllocatePages` allocated the exact range it returned. -/
theorem allocatePages_exact {a a' : PageAllocator} {type : EfiAllocateType} {t : EfiMemoryType}
    {n memory start : Nat} (h : a.allocatePages type t n memory = (.ok (), start, a')) :
    a.allocateExactRange start n t = (.ok (), a') := by
  unfold PageAllocator.allocatePages at h
  split at h
  · cases (Prod.mk.inj h).1
  · split at h
    · cases (Prod.mk.inj h).1
    · split at h
      · cases (Prod.mk.inj h).1
      next hrange =>
        obtain ⟨_, hrest⟩ := Prod.mk.inj h
        obtain ⟨rfl, rfl⟩ := Prod.mk.inj hrest
        exact hrange

/-- So did a successful `allocate_aligned_pages`. -/
theorem allocateAlignedPages_exact {a a' : PageAllocator} {t : EfiMemoryType}
    {n alignment start : Nat} {direction : AllocationDirection}
    (h : a.allocateAlignedPages t n alignment direction = (.ok start, a')) :
    a.allocateExactRange start n t = (.ok (), a') := by
  unfold PageAllocator.allocateAlignedPages at h
  split at h
  · cases (Prod.mk.inj h).1
  · split at h
    · cases (Prod.mk.inj h).1
    · split at h
      · cases (Prod.mk.inj h).1
      next hrange =>
        obtain ⟨hstart, rfl⟩ := Prod.mk.inj h
        obtain rfl := Except.ok.inj hstart
        exact hrange

/-- `FreePages` on a page-aligned range of at least one page. -/
theorem freePages_eq (a : PageAllocator) {memory n : Nat} (hmod : memory % 4096 = 0)
    (hn : 0 < n) (hword : n < 2 ^ 64) : a.freePages memory n = a.freeExactRange memory n := by
  have hcount : pagesToU64 n = .ok n := pagesToU64_ok.mpr ⟨hword, rfl⟩
  unfold PageAllocator.freePages
  rw [if_neg, hcount]
  rw [not_or, not_not]
  exact ⟨by omega, (isPageAligned_iff memory).mpr hmod⟩

/-- What the two calls return is a page address of at least one page. -/
theorem Sound.starts_aligned {a : PageAllocator} (h : Sound a) :
    (∀ type t n memory start a', a.allocatePages type t n memory = (.ok (), start, a') →
        start % 4096 = 0 ∧ 0 < n)
    ∧ (∀ t n alignment direction start a',
        a.allocateAlignedPages t n alignment direction = (.ok start, a') →
        start % 4096 = 0 ∧ 0 < n) := by
  constructor
  · intro type t n memory start a' hcall
    rcases h.allocatePages type t n memory with ⟨_, _, heq, hgrant⟩ | ⟨_, heq⟩
    · rw [heq] at hcall
      obtain ⟨rfl, _⟩ := Prod.mk.inj (Prod.mk.inj hcall).2
      exact ⟨hgrant.aligned, hgrant.nonempty⟩
    · rw [heq] at hcall
      cases (Prod.mk.inj hcall).1
  · intro t n alignment direction start a' hcall
    rcases h.allocateAlignedPages t n alignment direction with ⟨_, _, heq, hgrant, _⟩ | ⟨_, heq⟩
    · rw [heq] at hcall
      obtain rfl := Except.ok.inj (Prod.mk.inj hcall).1
      exact ⟨hgrant.aligned, hgrant.nonempty⟩
    · rw [heq] at hcall
      cases (Prod.mk.inj hcall).1

/-- **Freeing what was just allocated restores the descriptors**, whatever the
    policy, and never fails: after a successful call, for every type that
    `FreePages` takes back. -/
theorem freePages_restores {a₀ : PageAllocator} (h : Built a₀) {calls : List Call}
    (hlast : lastSucceeded a₀ calls = true) {t : EfiMemoryType}
    (hconv : t ≠ .conventionalMemory) (hres : t ≠ .reservedMemoryType) :
    (∀ type n memory start a',
        (final a₀ calls).allocatePages type t n memory = (.ok (), start, a') →
        ∃ a'', a'.freePages start n = (.ok (), a'')
          ∧ a''.activeDescriptors = (final a₀ calls).activeDescriptors)
    ∧ (∀ n alignment direction start a',
        (final a₀ calls).allocateAlignedPages t n alignment direction = (.ok start, a') →
        ∃ a'', a'.freePages start n = (.ok (), a'')
          ∧ a''.activeDescriptors = (final a₀ calls).activeDescriptors) := by
  obtain ⟨hsound, hset⟩ := runs_keep_settled h hlast
  generalize final a₀ calls = a at hsound hset ⊢
  obtain ⟨l, hl, htidy⟩ := hsound
  have hcan := hl.canonical htidy hset
  have hcalls := Sound.starts_aligned ⟨l, hl, htidy⟩
  constructor
  · intro type n memory start a' hcall
    obtain ⟨hmod, hn⟩ := hcalls.1 type t n memory start a' hcall
    obtain ⟨hword, a'', hfree, hsame⟩ :=
      freeExactRange_restores hl hcan hmod hn hconv hres (allocatePages_exact hcall)
    rw [freePages_eq a' hmod hn hword]
    exact ⟨a'', hfree, hsame⟩
  · intro n alignment direction start a' hcall
    obtain ⟨hmod, hn⟩ := hcalls.2 t n alignment direction start a' hcall
    obtain ⟨hword, a'', hfree, hsame⟩ :=
      freeExactRange_restores hl hcan hmod hn hconv hres (allocateAlignedPages_exact hcall)
    rw [freePages_eq a' hmod hn hword]
    exact ⟨a'', hfree, hsame⟩

/-- One page out of the middle of a range, in a buffer that the split fills. -/
theorem freePages_restores_example :
    ∃ a, PageAllocator.fromRegions .none [⟨0x1000, 0x8000⟩] [] (List.replicate 3 emptyDescriptor)
        = .ok a
      ∧ ∀ start a', a.allocatePages .allocateAddress .loaderData 1 0x3000 = (.ok (), start, a') →
          ∃ a'', a'.freePages start 1 = (.ok (), a'')
            ∧ a''.activeDescriptors = a.activeDescriptors := by
  obtain ⟨a, ha⟩ : ∃ a, PageAllocator.fromRegions .none [⟨0x1000, 0x8000⟩] []
      (List.replicate 3 emptyDescriptor) = .ok a := ⟨_, rfl⟩
  have hlast : lastSucceeded a [] = true := rfl
  exact ⟨a, ha, (freePages_restores (Or.inl ⟨_, _, _, _, ha⟩) hlast (t := .loaderData)
    (by decide) (by decide)).1 .allocateAddress 1 0x3000⟩

end RustFirmware.Memory
