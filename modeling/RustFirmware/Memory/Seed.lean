/-
  RustFirmware.Memory.Seed
  ────────────────────────
  **SEEDING THE MAP FROM RAM RANGES.**

  `add_memory_region` rounds a RAM range inwards and inserts it by start
  address; the ranges may overlap.  The coalescing pass that follows joins
  neighbours by taking the LATER one's end, so a long range that is followed by
  a short one inside it loses its tail.

  §2 says exactly which pages the seeded map has, §3 what `from_regions` then
  makes of it.
-/
import RustFirmware.Memory.PageMap

namespace RustFirmware.Memory

open RustFirmware.Lib

/-! ## §1. Sorted insertion. -/

/-- `insert_sorted` picks the position of `insertByStart`. -/
theorem sortedIndex_eq (s : PageSeg) (l : List PageSeg) (i : Nat) :
    ∃ l₁ l₂, l = l₁ ++ l₂ ∧ insertByStart s l = l₁ ++ s :: l₂
      ∧ PageAllocator.sortedIndex (s.lo * 4096) (l.map toDescriptor) i = i + l₁.length := by
  induction l generalizing i with
  | nil => exact ⟨[], [], rfl, rfl, rfl⟩
  | cons u l ih =>
      rw [List.map_cons, PageAllocator.sortedIndex, toDescriptor_physicalStart, insertByStart]
      by_cases hle : u.lo ≤ s.lo
      · obtain ⟨l₁, l₂, rfl, hins, hidx⟩ := ih (i + 1)
        refine ⟨u :: l₁, l₂, rfl, ?_, ?_⟩
        · rw [if_pos hle, hins]
          rfl
        · rw [if_pos (pageAddr_le.mpr hle), hidx, List.length_cons]
          omega
      · refine ⟨[], u :: l, rfl, ?_, ?_⟩
        · rw [if_neg hle]
          rfl
        · rw [if_neg (fun h => hle (pageAddr_le.mp h))]
          rfl

/-- **`insert_sorted` on segments**: an insertion by start, or no room. -/
theorem insertSorted_cases {a : PageAllocator} {l : List PageSeg} (h : Holds a l) {s : PageSeg}
    (hs : Fits s) :
    (∃ a', a.insertSorted (toDescriptor s) = (.ok (), a') ∧ Holds a' (insertByStart s l))
    ∨ a.insertSorted (toDescriptor s) = (.error .bufferTooSmall, a) := by
  obtain ⟨l₁, l₂, rfl, hins, hidx⟩ := sortedIndex_eq s l 0
  have hcount := h.length_eq
  have hcl := h.count_le
  have hact := h.active
  rw [List.length_append] at hcount
  rw [Nat.zero_add] at hidx
  unfold PageAllocator.insertSorted PageAllocator.insertDescriptor
  rw [hact, toDescriptor_physicalStart, hidx]
  -- a full buffer refuses the descriptor before anything is moved
  by_cases hfull : a.descriptorCount = a.descriptors.length
  · right
    rw [if_pos (Or.inl hfull)]
  · left
    rw [if_neg (by omega)]
    refine ⟨_, rfl, ⟨?_, ?_, ?_⟩⟩
    · have hsplice := take_splice a.descriptors [toDescriptor s] l₁.length 0 a.descriptorCount
        (by simp) (by omega) (by rw [List.length_singleton]; omega)
      rw [PageAllocator.activeDescriptors] at hact
      show (writeSlice _ _ _).take (a.descriptorCount + 1) = _
      rw [show a.descriptorCount + 1 = a.descriptorCount + [toDescriptor s].length - 0 from rfl]
      show (writeSlice (shiftUp a.descriptors ([toDescriptor s].length - 0) (l₁.length + 0)
        a.descriptorCount) l₁.length [toDescriptor s]).take _ = _
      rw [hsplice, hact,
          show a.descriptors.take l₁.length
            = (a.descriptors.take a.descriptorCount).take l₁.length by
              rw [List.take_take, Nat.min_eq_left (by omega)],
          hact, hins, List.map_append, List.map_append, List.map_cons]
      simp
    · show a.descriptorCount + 1 ≤ (writeSlice _ _ _).length
      rw [writeSlice_length, shiftUp_length]
      omega
    · intro u hu
      rcases mem_insertByStart.mp hu with rfl | hu
      · exact hs
      · exact h.fits u hu

/-! ## §2. The seeded map. -/

/-- The segment a RAM range contributes; a range without a whole page gives
    none. -/
def seedSeg (region : MemoryRegion) : Option PageSeg :=
  if region.innerPages.2 ≤ region.innerPages.1 then none
  else some ⟨region.innerPages.1, region.innerPages.2, .conventionalMemory⟩

/-- The seeds in the order of their starts; of two equal starts the later range
    comes later. -/
def seedOrder (regions : List MemoryRegion) : List PageSeg :=
  (regions.filterMap seedSeg).foldl (fun l s => insertByStart s l) []

theorem seedSeg_eq_some {region : MemoryRegion} {s : PageSeg} :
    seedSeg region = some s ↔
      region.innerPages.1 < region.innerPages.2
        ∧ s = ⟨region.innerPages.1, region.innerPages.2, .conventionalMemory⟩ := by
  unfold seedSeg
  split
  next hle => simp [Nat.not_lt.mpr hle]
  next hlt => simp [Nat.lt_of_not_le hlt, eq_comm]

theorem addMemoryRegion_cases {a : PageAllocator} {l : List PageSeg} (h : Holds a l)
    (region : MemoryRegion) :
    (∃ a', a.addMemoryRegion region = (.ok (), a')
        ∧ Holds a' ((seedSeg region).toList.foldl (fun l s => insertByStart s l) l))
    ∨ ∃ e, a.addMemoryRegion region = (.error e, a) := by
  unfold PageAllocator.addMemoryRegion
  cases hr : alignRegionToPages region false with
  | error e => exact Or.inr ⟨e, rfl⟩
  | ok r =>
      obtain ⟨hfit, rfl⟩ := alignRegionToPages_inner hr
      unfold seedSeg
      -- a region without a whole page in it adds nothing
      by_cases hempty : region.innerPages.2 ≤ region.innerPages.1
      · rw [if_pos hempty, if_pos hempty]
        exact Or.inl ⟨a, rfl, h⟩
      · rw [if_neg hempty, if_neg hempty]
        have hs : Fits ⟨region.innerPages.1, region.innerPages.2, .conventionalMemory⟩ := by
          refine ⟨Nat.lt_of_not_le hempty, ?_⟩
          show (region.base + region.size) / 4096 < 2 ^ 52
          omega
        dsimp only
        rw [bytesToPages_sub]
        rcases insertSorted_cases h hs with ⟨a', heq, hholds⟩ | heq
        · exact Or.inl ⟨a', heq, hholds⟩
        · exact Or.inr ⟨_, heq⟩

theorem forEachMemoryRegion_holds {a a' : PageAllocator} {l : List PageSeg} (h : Holds a l)
    {regions : List MemoryRegion}
    (hok : PageAllocator.forEachRegion PageAllocator.addMemoryRegion a regions = (.ok (), a')) :
    Holds a' ((regions.filterMap seedSeg).foldl (fun l s => insertByStart s l) l) := by
  induction regions generalizing a l with
  | nil =>
      obtain ⟨_, rfl⟩ := Prod.mk.inj hok
      exact h
  | cons r rs ih =>
      rw [PageAllocator.forEachRegion] at hok
      rcases addMemoryRegion_cases h r with ⟨b, heq, hholds⟩ | ⟨e, heq⟩
      · rw [heq] at hok
        have hrest := ih hholds hok
        rw [List.filterMap_cons]
        cases hseed : seedSeg r with
        | none =>
            rw [hseed] at hrest
            exact hrest
        | some s =>
            rw [hseed] at hrest
            exact hrest
      · rw [heq] at hok
        cases (Prod.mk.inj hok).1

/-- An empty map over any buffer. -/
theorem Holds.empty (buffer : List EfiMemoryDescriptor) : Holds ⟨buffer, 0⟩ [] :=
  ⟨rfl, Nat.zero_le _, by simp⟩

/-- Everything in `seedOrder` comes from a region and is conventional. -/
theorem mem_seedOrder {regions : List MemoryRegion} {s : PageSeg} :
    s ∈ seedOrder regions ↔ ∃ r ∈ regions, seedSeg r = some s := by
  have hfold : ∀ (seeds l : List PageSeg),
      s ∈ seeds.foldl (fun l s => insertByStart s l) l ↔ s ∈ seeds ∨ s ∈ l := by
    intro seeds
    induction seeds with
    | nil => simp
    | cons u seeds ih =>
        intro l
        rw [List.foldl_cons, ih, mem_insertByStart, List.mem_cons]
        tauto
  rw [seedOrder, hfold, List.mem_filterMap]
  simp

theorem seedOrder_sorted (regions : List MemoryRegion) :
    (seedOrder regions).Pairwise (fun u v => u.lo ≤ v.lo) := by
  have hfold : ∀ (seeds l : List PageSeg), l.Pairwise (fun u v => u.lo ≤ v.lo) →
      (seeds.foldl (fun l s => insertByStart s l) l).Pairwise (fun u v => u.lo ≤ v.lo) := by
    intro seeds
    induction seeds with
    | nil => exact fun l hl => hl
    | cons u seeds ih => exact fun l hl => ih _ (insertByStart_sorted hl)
  exact hfold _ [] List.Pairwise.nil

theorem seedOrder_tag (regions : List MemoryRegion) :
    ∀ s ∈ seedOrder regions, s.tag = .conventionalMemory := by
  intro s hs
  obtain ⟨r, _, hr⟩ := mem_seedOrder.mp hs
  rw [(seedSeg_eq_some.mp hr).2]

theorem seedOrder_nonempty (regions : List MemoryRegion) :
    ∀ s ∈ seedOrder regions, s.lo < s.hi := by
  intro s hs
  obtain ⟨r, _, hr⟩ := mem_seedOrder.mp hs
  obtain ⟨hlt, rfl⟩ := seedSeg_eq_some.mp hr
  exact hlt

theorem seedOrder_layered (regions : List MemoryRegion) : Layered (seedOrder regions) :=
  layered_of_tag (seedOrder_sorted regions) (seedOrder_tag regions) (seedOrder_nonempty regions)

/-- **RAM as the allocator sees it**: the page is in the last-starting range
    among those that start at or below it. -/
def RamPage (regions : List MemoryRegion) (page : Nat) : Prop := KeptAt (seedOrder regions) page

instance (regions : List MemoryRegion) (page : Nat) : Decidable (RamPage regions page) :=
  match h : lastStart (seedOrder regions) page with
  | none   => isFalse (fun ⟨s, hs, _⟩ => by rw [h] at hs; cases hs)
  | some s =>
      if hp : page < s.hi then isTrue ⟨s, h, hp⟩
      else isFalse (fun ⟨u, hu, hlt⟩ => by
        rw [h] at hu
        exact hp (Option.some.inj hu ▸ hlt))

/-- The map that seeding and the first coalescing pass leave: RAM pages are
    conventional, nothing else is there. -/
def seedMap (regions : List MemoryRegion) (page : Nat) : Option EfiMemoryType :=
  if RamPage regions page then some .conventionalMemory else none

/-- **Seeding**: whatever the ranges, the coalesced map is sound and is
    `seedMap`. -/
theorem seed_coalesce {buffer : List EfiMemoryDescriptor} {regions : List MemoryRegion}
    {a : PageAllocator}
    (hok : PageAllocator.forEachRegion PageAllocator.addMemoryRegion ⟨buffer, 0⟩ regions
      = (.ok (), a)) :
    Sound a.coalesce ∧ a.coalesce.pageMap = seedMap regions ∧ Settled a.coalesce := by
  have hholds : Holds a (seedOrder regions) := forEachMemoryRegion_holds (Holds.empty buffer) hok
  have hlay := seedOrder_layered regions
  obtain ⟨hco, _⟩ := coalesce_holds hholds hlay
  have htidy := hlay.tidy_fuse
  refine ⟨⟨_, hco, htidy⟩, ?_, hco.settled⟩
  rw [hco.pageMap_eq]
  funext p
  have hkept := has_fuse_iff hlay (seedOrder_tag regions) p
  unfold seedMap
  by_cases hram : RamPage regions p
  · obtain ⟨s, hs, hp⟩ := hkept.1.mpr hram
    rw [if_pos hram, htidy.denote_mem hs hp, hkept.2 s hs]
  · rw [if_neg hram]
    apply denote_eq_none
    intro s hs hp
    exact hram (hkept.1.mp ⟨s, hs, hp⟩)

/-! ## §3. `from_regions`. -/

/-- The map after a list of linker ranges (start, end, type). -/
def linkerAll (rs : List (Nat × Nat × EfiMemoryType)) (m : Nat → Option EfiMemoryType) :
    Nat → Option EfiMemoryType :=
  rs.foldl (fun m r =>
    recolor PageAllocator.isConventional (linkerPages r.1 r.2.1).1 (linkerPages r.1 r.2.1).2
      r.2.2 m) m

/-- The map after the four linker ranges. -/
def firmwareMap (firmware : FirmwareLayout) (m : Nat → Option EfiMemoryType) :
    Nat → Option EfiMemoryType :=
  linkerAll (PageAllocator.firmwareRegions firmware) m

theorem Sound.addFirmwareRegions {a : PageAllocator} (h : Sound a) (firmware : FirmwareLayout) :
    Yields (a.addFirmwareRegions firmware) (firmwareMap firmware a.pageMap) := by
  unfold firmwareMap linkerAll
  exact Sound.forEachRegion (fun _ ha r => ha.addFirmwareRegion r.1 r.2.1 r.2.2) h _

/-- The map after a list of typed reservations, each rounded outwards. -/
def reserveAll (rs : List (MemoryRegion × EfiMemoryType)) (m : Nat → Option EfiMemoryType) :
    Nat → Option EfiMemoryType :=
  rs.foldl (fun m r =>
    recolor PageAllocator.isConventionalOrReserved r.1.outerPages.1 r.1.outerPages.2 r.2 m) m

theorem Sound.addReservedRegions {a : PageAllocator} (h : Sound a) (rs : List MemoryRegion) :
    Yields (PageAllocator.forEachRegion PageAllocator.addReservedRegion a rs)
      (reserveAll (rs.map (fun r => (r, .reservedMemoryType))) a.pageMap) := by
  rw [reserveAll, List.foldl_map]
  exact Sound.forEachRegion
    (fun _ ha r => ha.addReservedRegionWithType r .reservedMemoryType) h rs

/-- A constructor step that must succeed for the constructor to succeed. -/
theorem ok_of_step {β : Type} {o : Outcome Unit} {k : PageAllocator → Except MemoryError β}
    {b : β}
    (h : (match o with
          | (.error e, _)  => Except.error e
          | (.ok (), self) => k self) = .ok b) : o.1 = .ok () ∧ k o.2 = .ok b := by
  obtain ⟨result, a⟩ := o
  cases result with
  | error e => cases h
  | ok u => exact ⟨rfl, h⟩

/-- **`from_regions`**: a sound, settled map, in closed form. -/
theorem fromRegions_spec {firmware : FirmwareLayout} {memory reserved : List MemoryRegion}
    {buffer : List EfiMemoryDescriptor} {a : PageAllocator}
    (h : PageAllocator.fromRegions firmware memory reserved buffer = .ok a) :
    Sound a ∧ Settled a
      ∧ a.pageMap = firmwareMap firmware
          (reserveAll (reserved.map (fun r => (r, .reservedMemoryType))) (seedMap memory)) := by
  unfold PageAllocator.fromRegions at h
  obtain ⟨hok₁, h⟩ := ok_of_step h
  obtain ⟨hs₁, hm₁, _⟩ := seed_coalesce (Prod.ext hok₁ rfl)
  obtain ⟨hok₂, h⟩ := ok_of_step h
  have hres := hs₁.addReservedRegions reserved
  have hfw := hres.sound.addFirmwareRegions firmware
  obtain ⟨hok₃, h⟩ := ok_of_step h
  obtain rfl := Except.ok.inj h
  obtain ⟨hs, hm, hset⟩ := hfw.sound.coalesce
  refine ⟨hs, hset, ?_⟩
  rw [hm, hfw.map hok₃, hres.map hok₂, hm₁]

/-! ## §4. RAM ranges alone: when the map is their union. -/

/-- Some active conventional descriptor covers the page. -/
def PageAllocator.ConventionalPage (a : PageAllocator) (page : Nat) : Prop :=
  ∃ d ∈ a.activeDescriptors, d.type = .conventionalMemory ∧ d.hasPage page = true

instance (a : PageAllocator) (page : Nat) : Decidable (a.ConventionalPage page) :=
  inferInstanceAs (Decidable (∃ d ∈ a.activeDescriptors,
    d.type = .conventionalMemory ∧ d.hasPage page = true))

/-- The page lies fully inside the region. -/
def MemoryRegion.Contains (r : MemoryRegion) (page : Nat) : Prop :=
  r.base ≤ page * 4096 ∧ (page + 1) * 4096 ≤ r.base + r.size

instance (r : MemoryRegion) (page : Nat) : Decidable (r.Contains page) :=
  inferInstanceAs (Decidable (_ ∧ _))

/-- The linker defines no range: each end is at or before its start. -/
def FirmwareLayout.Absent (firmware : FirmwareLayout) : Prop :=
  firmware.codeEnd ≤ firmware.codeStart ∧ firmware.dataEnd ≤ firmware.dataStart
    ∧ firmware.heapEnd ≤ firmware.heapStart ∧ firmware.stackTop ≤ firmware.stackBottom

theorem FirmwareLayout.none_absent : FirmwareLayout.none.Absent :=
  ⟨Nat.le_refl 0, Nat.le_refl 0, Nat.le_refl 0, Nat.le_refl 0⟩

/-- Among the ranges, rounded inwards and taken in the order of their starts, no
    range outlasts a later one unless a range still later starts at or before
    that one's end. -/
def NoRangeShadowed (memory : List MemoryRegion) : Prop :=
  ∀ l₁ y l₂, seedOrder memory = l₁ ++ y :: l₂ →
    ∀ x ∈ l₁, y.hi < x.hi → ∃ z ∈ l₂, z.lo ≤ y.hi

theorem Sound.conventionalPage_iff {a : PageAllocator} (h : Sound a) (p : Nat) :
    a.ConventionalPage p ↔ a.pageMap p = some .conventionalMemory := by
  obtain ⟨l, hl, htidy⟩ := h
  unfold PageAllocator.ConventionalPage
  rw [hl.pageMap_eq, hl.active]
  constructor
  · intro ⟨d, hd, htype, hp⟩
    obtain ⟨s, hs, rfl⟩ := List.mem_map.mp hd
    rw [hasPage_toDescriptor (hl.fits s hs)] at hp
    rw [htidy.denote_mem hs (of_decide_eq_true hp)]
    exact congrArg some htype
  · intro hp
    obtain ⟨s, hs, hhas, htag⟩ := mem_of_denote hp
    refine ⟨toDescriptor s, List.mem_map_of_mem hs, htag, ?_⟩
    rw [hasPage_toDescriptor (hl.fits s hs)]
    exact decide_eq_true hhas

/-- Rounding inwards keeps the pages that lie fully inside. -/
theorem innerPages_iff_contains (r : MemoryRegion) (p : Nat) :
    r.innerPages.1 ≤ p ∧ p < r.innerPages.2 ↔ r.Contains p := by
  show (r.base + 4095) / 4096 ≤ p ∧ p < (r.base + r.size) / 4096
    ↔ r.base ≤ p * 4096 ∧ (p + 1) * 4096 ≤ r.base + r.size
  omega

/-- The seeds cover exactly the pages inside some range. -/
theorem seedOrder_has_iff (memory : List MemoryRegion) (p : Nat) :
    (∃ s ∈ seedOrder memory, s.Has p) ↔ ∃ r ∈ memory, r.Contains p := by
  constructor
  · intro ⟨s, hs, hp⟩
    obtain ⟨r, hr, hseed⟩ := mem_seedOrder.mp hs
    obtain ⟨_, rfl⟩ := seedSeg_eq_some.mp hseed
    exact ⟨r, hr, (innerPages_iff_contains r p).mp hp⟩
  · intro ⟨r, hr, hp⟩
    have hin := (innerPages_iff_contains r p).mpr hp
    exact ⟨_, mem_seedOrder.mpr ⟨r, hr, seedSeg_eq_some.mpr ⟨by omega, rfl⟩⟩, hin⟩

theorem firmwareMap_absent {firmware : FirmwareLayout} (h : firmware.Absent)
    (m : Nat → Option EfiMemoryType) : firmwareMap firmware m = m := by
  obtain ⟨h1, h2, h3, h4⟩ := h
  have hskip : ∀ {start stop : Nat} (t : EfiMemoryType) (m : Nat → Option EfiMemoryType),
      stop ≤ start → recolor PageAllocator.isConventional (linkerPages start stop).1
        (linkerPages start stop).2 t m = m := by
    intro start stop t m hle
    rw [linkerPages, if_pos hle, recolor_empty _ (Nat.le_refl 0)]
  unfold firmwareMap linkerAll PageAllocator.firmwareRegions
  simp only [List.foldl_cons, List.foldl_nil]
  rw [hskip _ _ h1, hskip _ _ h2, hskip _ _ h3, hskip _ _ h4]

/-- **Exactly when the seeded map is the union of the RAM ranges.** -/
theorem fromRegions_union_iff {firmware : FirmwareLayout} (hfw : firmware.Absent)
    {memory : List MemoryRegion} {buffer : List EfiMemoryDescriptor} {a : PageAllocator}
    (h : PageAllocator.fromRegions firmware memory [] buffer = .ok a) :
    (∀ p, a.ConventionalPage p ↔ ∃ r ∈ memory, r.Contains p) ↔ NoRangeShadowed memory := by
  obtain ⟨hsound, _, hmap⟩ := fromRegions_spec h
  rw [firmwareMap_absent hfw] at hmap
  have hconv : ∀ p, a.ConventionalPage p ↔ KeptAt (seedOrder memory) p := by
    intro p
    rw [hsound.conventionalPage_iff, hmap]
    show seedMap memory p = _ ↔ RamPage memory p
    unfold seedMap
    split <;> simp_all
  unfold NoRangeShadowed
  rw [← keptAt_eq_union_iff (seedOrder_sorted memory) (seedOrder_nonempty memory)]
  constructor
  · intro hall p
    rw [← hconv, hall, seedOrder_has_iff]
  · intro hall p
    rw [hconv, hall, seedOrder_has_iff]

/-- Two overlapping ranges that stay in order: the map is their union. -/
theorem fromRegions_union_overlapping :
    ∃ a, PageAllocator.fromRegions .none [⟨0x1000, 0x3000⟩, ⟨0x2000, 0x4000⟩] []
        (List.replicate 4 emptyDescriptor) = .ok a
      ∧ ((∀ p, a.ConventionalPage p
            ↔ ∃ r ∈ [⟨0x1000, 0x3000⟩, ⟨0x2000, 0x4000⟩], MemoryRegion.Contains r p)
          ↔ NoRangeShadowed [⟨0x1000, 0x3000⟩, ⟨0x2000, 0x4000⟩]) := by
  obtain ⟨a, ha⟩ : ∃ a, PageAllocator.fromRegions .none [⟨0x1000, 0x3000⟩, ⟨0x2000, 0x4000⟩] []
      (List.replicate 4 emptyDescriptor) = .ok a := ⟨_, rfl⟩
  exact ⟨a, ha, fromRegions_union_iff FirmwareLayout.none_absent ha⟩

/-- A range inside another one cuts off the pages behind it: page 5 is RAM, but
    not in the map. -/
theorem fromRegions_loses_nested_tail :
    ∃ a, PageAllocator.fromRegions .none [⟨0, 0x10000⟩, ⟨0x1000, 0x1000⟩] []
        (List.replicate 4 emptyDescriptor) = .ok a
      ∧ ¬ ∀ p, a.ConventionalPage p
            ↔ ∃ r ∈ [⟨0, 0x10000⟩, ⟨0x1000, 0x1000⟩], MemoryRegion.Contains r p := by
  refine ⟨_, rfl, ?_⟩
  intro h
  exact absurd ((h 5).mpr (by decide)) (by decide)

end RustFirmware.Memory
