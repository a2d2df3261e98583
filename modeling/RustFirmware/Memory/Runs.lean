/-
  RustFirmware.Memory.Runs
  ────────────────────────
  **THE ALLOCATOR OVER WHOLE RUNS.**

  A run is a list of calls made on an allocator that one of the two
  constructors built.  Calls may fail; a run goes on with whatever allocator
  the failed call left.  `Call.effect` says once what one call can do, and
  every result about runs is an induction over it:

      §3   the descriptor invariant, after every run
      §4   the page map of any reachable allocator, call by call
      §5   ranges handed out and not given back
      §6   pages that construction classified
-/
import RustFirmware.Memory.Calls
import RustFirmware.Memory.FromFdt
import RustFirmware.DeviceTree.Tree

namespace RustFirmware.Memory

open RustFirmware.Lib
open RustFirmware.DeviceTree

/-! ## §1. Calls and runs. -/

/-- One call of the public interface, with its arguments. -/
inductive Call where
  | allocatePages (type : EfiAllocateType) (memoryType : EfiMemoryType) (pages memory : Nat)
  | allocatePagesForSize (memoryType : EfiMemoryType) (sizeBytes : Nat)
  | allocateAlignedPages (memoryType : EfiMemoryType) (pages alignment : Nat)
      (direction : AllocationDirection)
  | allocateAlignedPagesForSize (memoryType : EfiMemoryType) (sizeBytes alignment : Nat)
      (direction : AllocationDirection)
  | freePages (memory pages : Nat)
  | reserveRegionWithType (region : MemoryRegion) (memoryType : EfiMemoryType)
  deriving Repr, DecidableEq

namespace Call

/-- Make the call.  An allocation returns the start address it was given. -/
def perform (a : PageAllocator) : Call → Outcome (Option Nat)
  | allocatePages type memoryType pages memory =>
      match a.allocatePages type memoryType pages memory with
      | (.ok (), start, a) => (.ok (some start), a)
      | (.error e, _, a)   => (.error e, a)
  | allocatePagesForSize memoryType sizeBytes =>
      match a.allocatePagesForSize memoryType sizeBytes with
      | (.ok start, a) => (.ok (some start), a)
      | (.error e, a)  => (.error e, a)
  | allocateAlignedPages memoryType pages alignment direction =>
      match a.allocateAlignedPages memoryType pages alignment direction with
      | (.ok start, a) => (.ok (some start), a)
      | (.error e, a)  => (.error e, a)
  | allocateAlignedPagesForSize memoryType sizeBytes alignment direction =>
      match a.allocateAlignedPagesForSize memoryType sizeBytes alignment direction with
      | (.ok start, a) => (.ok (some start), a)
      | (.error e, a)  => (.error e, a)
  | freePages memory pages =>
      match a.freePages memory pages with
      | (.ok (), a)   => (.ok none, a)
      | (.error e, a) => (.error e, a)
  | reserveRegionWithType region memoryType =>
      match a.reserveRegionWithType region memoryType with
      | (.ok (), a)   => (.ok none, a)
      | (.error e, a) => (.error e, a)

/-- The memory type and page count an allocation asks for. -/
def request : Call → Option (EfiMemoryType × Nat)
  | allocatePages _ memoryType pages _                     => some (memoryType, pages)
  | allocatePagesForSize memoryType sizeBytes              =>
      some (memoryType, pageCountForSize sizeBytes)
  | allocateAlignedPages memoryType pages _ _              => some (memoryType, pages)
  | allocateAlignedPagesForSize memoryType sizeBytes _ _   =>
      some (memoryType, pageCountForSize sizeBytes)
  | freePages _ _                                          => none
  | reserveRegionWithType _ _                              => none

/-- The call is `reserve_region_with_type`. -/
def isReserve : Call → Bool
  | reserveRegionWithType _ _ => true
  | _                         => false

end Call

/-- One call of a run with what it returned. -/
structure Event where
  call   : Call
  result : Except MemoryError (Option Nat)

/-- The calls of a run with their results, in order. -/
def trace (a : PageAllocator) : List Call → List Event
  | []      => []
  | c :: cs => ⟨c, (c.perform a).1⟩ :: trace (c.perform a).2 cs

/-- The allocator a run ends with. -/
def final (a : PageAllocator) : List Call → PageAllocator
  | []      => a
  | c :: cs => final (c.perform a).2 cs

/-- The call returned `Ok`. -/
def Event.succeeded (e : Event) : Bool :=
  match e.result with
  | .ok _    => true
  | .error _ => false

/-- The last call of the run succeeded; a run without calls ends with the
    constructor, which did. -/
def lastSucceeded (a : PageAllocator) (calls : List Call) : Bool :=
  match (trace a calls).getLast? with
  | some e => e.succeeded
  | none   => true

/-- `a` was built by one of the two constructors, from whatever input. -/
def Built (a : PageAllocator) : Prop :=
  (∃ firmware memory reserved buffer,
      PageAllocator.fromRegions firmware memory reserved buffer = .ok a)
  ∨ ∃ firmware fdt memoryCapacity reservedCapacity buffer,
      PageAllocator.fromFdt firmware fdt memoryCapacity reservedCapacity buffer = .ok a

/-- `a` is what some run on a built allocator ends with. -/
def Reachable (a : PageAllocator) : Prop := ∃ a₀ calls, Built a₀ ∧ final a₀ calls = a

theorem Built.sound {a : PageAllocator} (h : Built a) : Sound a ∧ Settled a := by
  rcases h with ⟨_, _, _, _, h⟩ | ⟨_, _, _, _, _, h⟩
  · obtain ⟨hsound, hset, _⟩ := fromRegions_spec h
    exact ⟨hsound, hset⟩
  · obtain ⟨hsound, hset, _⟩ := fromFdt_spec h
    exact ⟨hsound, hset⟩

/-! ## §2. What one call can do. -/

/-- Everything a successful call can have done. -/
inductive Effect (a a' : PageAllocator) : Call → Option Nat → Prop where
  | granted {c : Call} {start pages : Nat} {t : EfiMemoryType} :
      c.request = some (t, pages) → Granted a a' start pages t → Effect a a' c (some start)
  | released {memory pages : Nat} :
      Released a a' memory pages → Effect a a' (.freePages memory pages) none
  | reserved {region : MemoryRegion} {t : EfiMemoryType} :
      a'.pageMap = recolor PageAllocator.isConventionalOrReserved region.outerPages.1
        region.outerPages.2 t a.pageMap →
      Sound a' → Settled a' → Effect a a' (.reserveRegionWithType region t) none

theorem Effect.sound {a a' : PageAllocator} {c : Call} {r : Option Nat} (h : Effect a a' c r) :
    Sound a' ∧ Settled a' := by
  cases h with
  | granted _ h => exact ⟨h.sound, h.settled⟩
  | released h => exact ⟨h.sound, h.settled⟩
  | reserved _ hsound hset => exact ⟨hsound, hset⟩

/-- **One call**: it succeeds with its effect, or it fails; only a failed
    reservation may have changed anything, and it leaves the map sound. -/
theorem Call.effect {a : PageAllocator} (h : Sound a) (c : Call) :
    (∃ r a', c.perform a = (.ok r, a') ∧ Effect a a' c r)
    ∨ ∃ e a', c.perform a = (.error e, a') ∧ Sound a' ∧ (c.isReserve = false → a' = a) := by
  cases c with
  | allocatePages type t pages memory =>
      rw [perform]
      rcases h.allocatePages type t pages memory with ⟨start, a', heq, hg⟩ | ⟨e, heq⟩
      · rw [heq]
        exact Or.inl ⟨_, a', rfl, .granted rfl hg⟩
      · rw [heq]
        exact Or.inr ⟨e, a, rfl, h, fun _ => rfl⟩
  | allocatePagesForSize t sizeBytes =>
      rw [perform]
      rcases h.allocatePagesForSize t sizeBytes with ⟨start, a', heq, hg⟩ | ⟨e, heq⟩
      · rw [heq]
        exact Or.inl ⟨_, a', rfl, .granted rfl hg⟩
      · rw [heq]
        exact Or.inr ⟨e, a, rfl, h, fun _ => rfl⟩
  | allocateAlignedPages t pages alignment direction =>
      rw [perform]
      rcases h.allocateAlignedPages t pages alignment direction with
        ⟨start, a', heq, hg, _⟩ | ⟨e, heq⟩
      · rw [heq]
        exact Or.inl ⟨_, a', rfl, .granted rfl hg⟩
      · rw [heq]
        exact Or.inr ⟨e, a, rfl, h, fun _ => rfl⟩
  | allocateAlignedPagesForSize t sizeBytes alignment direction =>
      rw [perform]
      rcases h.allocateAlignedPagesForSize t sizeBytes alignment direction with
        ⟨start, a', heq, hg, _⟩ | ⟨e, heq⟩
      · rw [heq]
        exact Or.inl ⟨_, a', rfl, .granted rfl hg⟩
      · rw [heq]
        exact Or.inr ⟨e, a, rfl, h, fun _ => rfl⟩
  | freePages memory pages =>
      rw [perform]
      rcases h.freePages memory pages with ⟨a', heq, hr⟩ | ⟨e, heq⟩
      · rw [heq]
        exact Or.inl ⟨_, a', rfl, .released hr⟩
      · rw [heq]
        exact Or.inr ⟨e, a, rfl, h, fun _ => rfl⟩
  | reserveRegionWithType region t =>
      obtain ⟨hy, hset⟩ := h.reserveRegionWithType region t
      rw [perform]
      cases hres : a.reserveRegionWithType region t with
      | mk result a' =>
          rw [hres] at hy hset
          cases result with
          | ok u => exact Or.inl ⟨_, a', rfl, .reserved (hy.map rfl) hy.sound (hset rfl)⟩
          | error e => exact Or.inr ⟨e, a', rfl, hy.sound, fun hno => by cases hno⟩

theorem Call.perform_sound {a : PageAllocator} (h : Sound a) (c : Call) :
    Sound (c.perform a).2 := by
  rcases Call.effect h c with ⟨r, a', heq, heff⟩ | ⟨e, a', heq, hsound, _⟩
  · rw [heq]
    exact heff.sound.1
  · rw [heq]
    exact hsound

/-- **Every run keeps the map sound.** -/
theorem final_sound {a : PageAllocator} (h : Sound a) (calls : List Call) :
    Sound (final a calls) := by
  induction calls generalizing a with
  | nil => exact h
  | cons c cs ih => exact ih (Call.perform_sound h c)

theorem Reachable.sound {a : PageAllocator} (h : Reachable a) : Sound a := by
  obtain ⟨a₀, calls, hbuilt, rfl⟩ := h
  exact final_sound hbuilt.sound.1 calls

/-! ## §3. The descriptor invariant. -/

/-- The invariant in terms of the descriptors themselves. -/
structure MapInvariant (a : PageAllocator) : Prop where
  sorted   : a.activeDescriptors.Pairwise (fun d e => d.physicalStart < e.physicalStart)
  disjoint : a.activeDescriptors.Pairwise
    (fun d e => d.physicalStart + d.numberOfPages * 4096 ≤ e.physicalStart)
  aligned  : ∀ d ∈ a.activeDescriptors, d.physicalStart % 4096 = 0
  nonempty : ∀ d ∈ a.activeDescriptors, 1 ≤ d.numberOfPages
  fits     : ∀ d ∈ a.activeDescriptors, d.physicalStart + d.numberOfPages * 4096 < 2 ^ 64
  count_le : a.descriptorCount ≤ a.descriptors.length

theorem Sound.mapInvariant {a : PageAllocator} (h : Sound a) : MapInvariant a := by
  obtain ⟨l, hl, htidy⟩ := h
  have hend : ∀ s ∈ l, (toDescriptor s).physicalStart + (toDescriptor s).numberOfPages * 4096
      = s.hi * 4096 := by
    intro s hs
    have hlt := htidy.nonempty s hs
    show s.lo * 4096 + (s.hi - s.lo) * 4096 = s.hi * 4096
    omega
  have hdisj : (l.map toDescriptor).Pairwise
      (fun d e => d.physicalStart + d.numberOfPages * 4096 ≤ e.physicalStart) := by
    rw [List.pairwise_map]
    refine htidy.sorted.imp_of_mem ?_
    intro s t hs _ hst
    rw [hend s hs, toDescriptor_physicalStart]
    exact pageAddr_le.mpr hst
  have hpos : ∀ d ∈ l.map toDescriptor, 1 ≤ d.numberOfPages := by
    intro d hd
    obtain ⟨s, hs, rfl⟩ := List.mem_map.mp hd
    have hlt := htidy.nonempty s hs
    show 1 ≤ s.hi - s.lo
    omega
  rw [← hl.active] at hdisj hpos
  refine ⟨?_, hdisj, ?_, hpos, ?_, hl.count_le⟩
  · refine hdisj.imp_of_mem ?_
    intro d e hd _ hde
    have := hpos d hd
    omega
  · intro d hd
    rw [hl.active] at hd
    obtain ⟨s, _, rfl⟩ := List.mem_map.mp hd
    exact Nat.mul_mod_left s.lo 4096
  · intro d hd
    rw [hl.active] at hd
    obtain ⟨s, hs, rfl⟩ := List.mem_map.mp hd
    have hfit := (hl.fits s hs).2
    rw [hend s hs]
    omega

/-- A call that succeeds leaves no mergeable neighbours. -/
theorem Call.perform_settled {a : PageAllocator} (h : Sound a) (c : Call) {r : Option Nat}
    (hok : (c.perform a).1 = .ok r) : Settled (c.perform a).2 := by
  rcases Call.effect h c with ⟨r', a', heq, heff⟩ | ⟨e, a', heq, _⟩
  · rw [heq]
    exact heff.sound.2
  · rw [heq] at hok
    cases hok

/-- After at least one call only the last one counts: the map in between may be
    unsettled. -/
theorem lastSucceeded_settled {a : PageAllocator} (h : Sound a) (c : Call) (cs : List Call)
    (hlast : lastSucceeded a (c :: cs) = true) : Settled (final a (c :: cs)) := by
  induction cs generalizing a c with
  | nil =>
      cases hres : (c.perform a).1 with
      | ok r => exact Call.perform_settled h c hres
      | error e =>
          have hev : Event.succeeded ⟨c, (c.perform a).1⟩ = true := hlast
          rw [Event.succeeded, hres] at hev
          cases hev
  | cons c' cs ih =>
      have hstep : lastSucceeded a (c :: c' :: cs)
          = lastSucceeded (c.perform a).2 (c' :: cs) := by
        unfold lastSucceeded trace
        rw [trace, List.getLast?_cons_cons]
      rw [hstep] at hlast
      exact ih (Call.perform_sound h c) c' hlast

/-- **After a run whose last call succeeded** the map is sound and settled. -/
theorem runs_keep_settled {a : PageAllocator} (h : Built a) {calls : List Call}
    (hlast : lastSucceeded a calls = true) :
    Sound (final a calls) ∧ Settled (final a calls) := by
  obtain ⟨hsound, hset⟩ := h.sound
  refine ⟨final_sound hsound calls, ?_⟩
  cases calls with
  | nil => exact hset
  | cons c cs => exact lastSucceeded_settled hsound c cs hlast

/-- **The invariant over every run**: from either constructor, through calls
    that succeed or fail in any order, the descriptors stay sorted, disjoint,
    page-aligned, non-empty and inside the address space; and whenever the last
    call succeeded no two neighbours can be merged. -/
theorem runs_keep_mapInvariant {a : PageAllocator} (h : Built a) (calls : List Call) :
    MapInvariant (final a calls)
      ∧ (lastSucceeded a calls = true → Settled (final a calls)) := by
  refine ⟨(final_sound h.sound.1 calls).mapInvariant, ?_⟩
  intro hlast
  exact (runs_keep_settled h hlast).2

/-- One range, an allocation from its top, a reservation across its end, and a
    free that fails. -/
theorem runs_keep_mapInvariant_example :
    ∃ a, PageAllocator.fromRegions .none [⟨0x1000, 0x8000⟩] [] (List.replicate 8 emptyDescriptor)
        = .ok a
      ∧ MapInvariant (final a [.allocatePages .allocateAnyPages .loaderData 2 0,
          .reserveRegionWithType ⟨0x1800, 0x1000⟩ .bootServicesData, .freePages 0x1000 1]) := by
  obtain ⟨a, ha⟩ : ∃ a, PageAllocator.fromRegions .none [⟨0x1000, 0x8000⟩] []
      (List.replicate 8 emptyDescriptor) = .ok a := ⟨_, rfl⟩
  exact ⟨a, ha, (runs_keep_mapInvariant (Or.inl ⟨_, _, _, _, ha⟩) _).1⟩

/-! ## §4. The page map of a reachable allocator. -/

/-- **Call by call, the allocator is a map from pages to types.**  Each
    successful call changes exactly the pages it is about and nothing else. -/
theorem reachable_calls_act_on_pageMap {a : PageAllocator} (h : Reachable a) :
    (∀ type t pages memory start a', a.allocatePages type t pages memory = (.ok (), start, a') →
        start % 4096 = 0
        ∧ (∀ p, start / 4096 ≤ p → p < start / 4096 + pages →
            a.pageMap p = some .conventionalMemory)
        ∧ a'.pageMap = paint a.pageMap (start / 4096) (start / 4096 + pages) t)
    ∧ (∀ t pages alignment direction start a',
        a.allocateAlignedPages t pages alignment direction = (.ok start, a') →
        start % 4096 = 0
        ∧ (∀ p, start / 4096 ≤ p → p < start / 4096 + pages →
            a.pageMap p = some .conventionalMemory)
        ∧ a'.pageMap = paint a.pageMap (start / 4096) (start / 4096 + pages) t)
    ∧ (∀ memory pages a', a.freePages memory pages = (.ok (), a') →
        memory % 4096 = 0
        ∧ (∃ t, t ≠ .conventionalMemory ∧ t ≠ .reservedMemoryType
            ∧ ∀ p, memory / 4096 ≤ p → p < memory / 4096 + pages → a.pageMap p = some t)
        ∧ a'.pageMap
            = paint a.pageMap (memory / 4096) (memory / 4096 + pages) .conventionalMemory)
    ∧ (∀ region t a', a.reserveRegionWithType region t = (.ok (), a') →
        a'.pageMap = recolor PageAllocator.isConventionalOrReserved region.outerPages.1
          region.outerPages.2 t a.pageMap) := by
  have hsound := h.sound
  refine ⟨?_, ?_, ?_, ?_⟩
  · intro type t pages memory start a' hcall
    rcases hsound.allocatePages type t pages memory with ⟨_, _, heq, hg⟩ | ⟨_, heq⟩
    · rw [heq] at hcall
      obtain ⟨_, hrest⟩ := Prod.mk.inj hcall
      obtain ⟨rfl, rfl⟩ := Prod.mk.inj hrest
      exact ⟨hg.aligned, hg.free, hg.map⟩
    · rw [heq] at hcall
      cases (Prod.mk.inj hcall).1
  · intro t pages alignment direction start a' hcall
    rcases hsound.allocateAlignedPages t pages alignment direction with
      ⟨_, _, heq, hg, _⟩ | ⟨_, heq⟩
    · rw [heq] at hcall
      obtain ⟨hstart, rfl⟩ := Prod.mk.inj hcall
      obtain rfl := Except.ok.inj hstart
      exact ⟨hg.aligned, hg.free, hg.map⟩
    · rw [heq] at hcall
      cases (Prod.mk.inj hcall).1
  · intro memory pages a' hcall
    rcases hsound.freePages memory pages with ⟨_, heq, hr⟩ | ⟨_, heq⟩
    · rw [heq] at hcall
      obtain ⟨_, rfl⟩ := Prod.mk.inj hcall
      exact ⟨hr.aligned, hr.typed, hr.map⟩
    · rw [heq] at hcall
      cases (Prod.mk.inj hcall).1
  · intro region t a' hcall
    obtain ⟨hy, _⟩ := hsound.reserveRegionWithType region t
    rw [hcall] at hy
    exact hy.map rfl

/-- An allocator with one range, before any call. -/
theorem reachable_calls_act_on_pageMap_example :
    ∃ a, PageAllocator.fromRegions .none [⟨0x1000, 0x8000⟩] [] (List.replicate 8 emptyDescriptor)
        = .ok a
      ∧ ∀ t start a', a.allocatePages .allocateAnyPages t 2 0 = (.ok (), start, a') →
          a'.pageMap = paint a.pageMap (start / 4096) (start / 4096 + 2) t := by
  obtain ⟨a, ha⟩ : ∃ a, PageAllocator.fromRegions .none [⟨0x1000, 0x8000⟩] []
      (List.replicate 8 emptyDescriptor) = .ok a := ⟨_, rfl⟩
  have hreach : Reachable a := ⟨a, [], Or.inl ⟨_, _, _, _, ha⟩, rfl⟩
  exact ⟨a, ha, fun t start a' hcall =>
    ((reachable_calls_act_on_pageMap hreach).1 _ _ _ _ _ _ hcall).2.2⟩

/-! ## §5. Ranges handed out and not given back. -/

/-- The ranges (first page, first page behind) held after one more event: a
    successful allocation adds its range, a successful free drops every range it
    touches, even in part. -/
def Event.updateLive (live : List (Nat × Nat)) (e : Event) : List (Nat × Nat) :=
  match e.result with
  | .error _ => live
  | .ok (some start) =>
      match e.call.request with
      | some (_, pages) => live ++ [(start / 4096, start / 4096 + pages)]
      | none            => live
  | .ok none =>
      match e.call with
      | .freePages memory pages =>
          live.filter (fun r =>
            decide (r.2 ≤ memory / 4096) || decide (memory / 4096 + pages ≤ r.1))
      | _ => live

/-- The ranges handed out by a run and not freed since. -/
def liveRanges (events : List Event) : List (Nat × Nat) := events.foldl Event.updateLive []

/-- Two page ranges share no page. -/
def Apart (r s : Nat × Nat) : Prop := r.2 ≤ s.1 ∨ s.2 ≤ r.1

instance (r s : Nat × Nat) : Decidable (Apart r s) := inferInstanceAs (Decidable (_ ∨ _))

/-- Every call of the run meets `P` on the allocator that it is made on. -/
def EachCall (P : PageAllocator → Call → Prop) : PageAllocator → List Call → Prop
  | _, []      => True
  | a, c :: cs => P a c ∧ EachCall P (c.perform a).2 cs

/-- In front of a call and at it. -/
theorem EachCall.split {P : PageAllocator → Call → Prop} {a : PageAllocator} {pre post : List Call}
    {c : Call} (h : EachCall P a (pre ++ c :: post)) : EachCall P a pre ∧ P (final a pre) c := by
  induction pre generalizing a with
  | nil => exact ⟨trivial, h.1⟩
  | cons first pre ih =>
      obtain ⟨hfirst, hrest⟩ := h
      exact ⟨⟨hfirst, (ih hrest).1⟩, (ih hrest).2⟩

/-- The request is for at least one page, and there are as many free pages in a row.
    Otherwise it fails. -/
def CanMeet (a : PageAllocator) (pages : Nat) : Prop :=
  0 < pages ∧ ∃ first, ∀ p, first ≤ p → p < first + pages → a.pageMap p = some .conventionalMemory

/-- The call does not ask for pages of the type conventional memory, or not for as many as
    there are. -/
def Call.KeepsOwner (a : PageAllocator) (c : Call) : Prop :=
  c.isReserve = false
    ∧ ∀ t pages, c.request = some (t, pages) → CanMeet a pages → t ≠ .conventionalMemory

/-- Ranges that are apart and whose pages are all taken. -/
structure Held (a : PageAllocator) (live : List (Nat × Nat)) : Prop where
  apart    : live.Pairwise Apart
  nonempty : ∀ r ∈ live, r.1 < r.2
  taken    : ∀ r ∈ live, ∀ p, r.1 ≤ p → p < r.2 → a.pageMap p ≠ some .conventionalMemory

/-- A step keeps the ranges held.  A new range consists of conventional pages,
    so it is apart from the old ones; a free touches no range that stays. -/
theorem Held.step {a : PageAllocator} {live : List (Nat × Nat)} (hsound : Sound a)
    (h : Held a live) {c : Call} (hc : c.KeepsOwner a) :
    Held (c.perform a).2 (Event.updateLive live ⟨c, (c.perform a).1⟩) := by
  obtain ⟨hres, htype⟩ := hc
  rcases Call.effect hsound c with ⟨r, a', heq, heff⟩ | ⟨e, a', heq, _, hsame⟩
  · rw [heq]
    cases heff with
    | @granted _ start pages t hreq hg =>
        have hne := htype _ _ hreq ⟨hg.nonempty, _, hg.free⟩
        rw [Event.updateLive]
        dsimp only
        rw [hreq]
        have hpos := hg.nonempty
        refine ⟨?_, ?_, ?_⟩
        · refine List.pairwise_append.mpr ⟨h.apart, List.pairwise_singleton _ _, ?_⟩
          intro r hr s hs
          rw [List.mem_singleton] at hs
          subst hs
          -- a shared page would be conventional and taken at once
          by_contra hshare
          obtain ⟨h1, h2⟩ := not_or.mp hshare
          dsimp only at h1 h2
          have hr12 := h.nonempty r hr
          by_cases hlo : r.1 ≤ start / 4096
          · exact h.taken r hr _ hlo (by omega)
              (hg.free _ (Nat.le_refl _) (by omega))
          · exact h.taken r hr r.1 (Nat.le_refl _) (by omega) (hg.free _ (by omega) (by omega))
        · intro r hr
          rcases List.mem_append.mp hr with hr | hr
          · exact h.nonempty r hr
          · rw [List.mem_singleton] at hr
            subst hr
            show start / 4096 < start / 4096 + pages
            omega
        · intro r hr p hp1 hp2
          rw [hg.map, paint]
          split
          · exact fun hcontra => hne (Option.some.inj hcontra)
          next hout =>
            rcases List.mem_append.mp hr with hr | hr
            · exact h.taken r hr p hp1 hp2
            · rw [List.mem_singleton] at hr
              subst hr
              exact absurd ⟨hp1, hp2⟩ hout
    | released hr =>
        rw [Event.updateLive]
        dsimp only
        refine ⟨h.apart.filter _, fun r hmem => h.nonempty r (List.mem_filter.mp hmem).1, ?_⟩
        · intro r hmem p hp1 hp2
          obtain ⟨hmem, hkeep⟩ := List.mem_filter.mp hmem
          simp only [Bool.or_eq_true, decide_eq_true_eq] at hkeep
          rw [hr.map, paint, if_neg (by omega)]
          exact h.taken r hmem p hp1 hp2
    | reserved => cases hres
  · rw [heq, hsame hres]
    exact h

theorem Held.run {a : PageAllocator} {live : List (Nat × Nat)} (hsound : Sound a)
    (h : Held a live) {calls : List Call} (hcalls : EachCall Call.KeepsOwner a calls) :
    Held (final a calls) ((trace a calls).foldl Event.updateLive live) := by
  induction calls generalizing a live with
  | nil => exact h
  | cons c cs ih => exact ih (Call.perform_sound hsound c) (h.step hsound hcalls.1) hcalls.2

/-- **No page is handed out twice** along any run in which no allocation that can be met asks
    for the type conventional memory: what has been allocated and not freed is
    pairwise disjoint, in every state of the run. -/
theorem liveRanges_apart {a : PageAllocator} (h : Reachable a) {calls : List Call}
    (hcalls : EachCall Call.KeepsOwner a calls) :
    (liveRanges (trace a calls)).Pairwise Apart :=
  (Held.run h.sound ⟨List.Pairwise.nil, by simp, by simp⟩ hcalls).apart

/-- Two allocations from one range. -/
theorem liveRanges_apart_example :
    ∃ a, PageAllocator.fromRegions .none [⟨0, 0x4000⟩] [] (List.replicate 8 emptyDescriptor) = .ok a
      ∧ (liveRanges (trace a [.allocatePages .allocateAnyPages .loaderData 1 0,
          .allocatePages .allocateAnyPages .loaderData 1 0])).Pairwise Apart := by
  obtain ⟨a, ha⟩ : ∃ a, PageAllocator.fromRegions .none [⟨0, 0x4000⟩] []
      (List.replicate 8 emptyDescriptor) = .ok a := ⟨_, rfl⟩
  have hkeeps : ∀ b, (Call.allocatePages .allocateAnyPages .loaderData 1 0).KeepsOwner b := by
    refine fun b => ⟨rfl, ?_⟩
    intro t pages hreq _
    obtain ⟨rfl, _⟩ := Prod.mk.inj (Option.some.inj hreq)
    decide
  exact ⟨a, ha, liveRanges_apart ⟨a, [], Or.inl ⟨_, _, _, _, ha⟩, rfl⟩ ⟨hkeeps _, hkeeps _, trivial⟩⟩

/-- `AllocatePages` accepts `EfiConventionalMemory`: the pages stay allocatable,
    and the second allocation gets the first one's page. -/
theorem conventional_allocation_handed_out_twice :
    ∃ a, PageAllocator.fromRegions .none [⟨0, 0x4000⟩] [] (List.replicate 8 emptyDescriptor) = .ok a
      ∧ ¬ (liveRanges (trace a [.allocatePages .allocateAnyPages .conventionalMemory 1 0,
          .allocatePages .allocateAnyPages .loaderData 1 0])).Pairwise Apart := by
  refine ⟨_, rfl, ?_⟩
  decide +kernel

/-! ## §6. Pages that construction classified. -/

/-- The event is a successful allocation of a range that contains the page. -/
def Event.Took (e : Event) (page : Nat) : Prop :=
  ∃ start t pages, e.result = .ok (some start) ∧ e.call.request = some (t, pages)
    ∧ start / 4096 ≤ page ∧ page < start / 4096 + pages

/-- The range consists of pages of one type that can be freed.  Otherwise a free of it fails. -/
def CanFree (a : PageAllocator) (memory pages : Nat) : Prop :=
  memory % 4096 = 0 ∧ 0 < pages ∧ ∃ t, t ≠ .conventionalMemory ∧ t ≠ .reservedMemoryType
    ∧ ∀ p, memory / 4096 ≤ p → p < memory / 4096 + pages → a.pageMap p = some t

/-- If the call is `FreePages`, on a range that can be freed, the range has no page that the map
    `m` gives a type other than conventional and reserved. -/
def Call.SparesClassified (m : Nat → Option EfiMemoryType) (a : PageAllocator) (c : Call) : Prop :=
  ∀ memory pages, c = .freePages memory pages → CanFree a memory pages →
    ∀ p, memory / 4096 ≤ p → p < memory / 4096 + pages →
      ∀ t, m p = some t → t = .conventionalMemory ∨ t = .reservedMemoryType

/-- What a run has changed of the map it started from: nothing that was
    classified there, and only pages that some event took. -/
structure Tracked (m₀ : Nat → Option EfiMemoryType) (a : PageAllocator) (past : List Event) :
    Prop where
  kept    : ∀ p t, m₀ p = some t → t ≠ .conventionalMemory → a.pageMap p = some t
  changed : ∀ p, a.pageMap p ≠ m₀ p → ∃ e ∈ past, e.Took p

/-- Pages that a free succeeds on were taken by an earlier event: the type the
    free found there is not the one of `m₀`. -/
theorem Tracked.took_of_released {m₀ : Nat → Option EfiMemoryType} {a a' : PageAllocator}
    {past : List Event} (h : Tracked m₀ a past) {memory pages : Nat}
    (hc : Call.SparesClassified m₀ a (.freePages memory pages)) (hr : Released a a' memory pages)
    {p : Nat} (h1 : memory / 4096 ≤ p) (h2 : p < memory / 4096 + pages) :
    ∃ e ∈ past, e.Took p := by
  obtain ⟨t, hconv, hrsv, htype⟩ := hr.typed
  have hp := htype p h1 h2
  apply h.changed
  intro hsame
  rcases hc memory pages rfl ⟨hr.aligned, hr.nonempty, hr.typed⟩ p h1 h2 t (hsame.symm.trans hp) with
    h | h
  · exact hconv h
  · exact hrsv h

theorem Tracked.step {m₀ : Nat → Option EfiMemoryType} {a : PageAllocator} {past : List Event}
    (hsound : Sound a) (h : Tracked m₀ a past) {c : Call} (hres : c.isReserve = false)
    (hc : c.SparesClassified m₀ a) :
    Tracked m₀ (c.perform a).2 (past ++ [⟨c, (c.perform a).1⟩]) := by
  rcases Call.effect hsound c with ⟨r, a', heq, heff⟩ | ⟨e, a', heq, _, hsame⟩
  · rw [heq]
    cases heff with
    | granted hreq hg =>
        constructor
        · intro p t hp hne
          rw [hg.map, paint, if_neg]
          · exact h.kept p t hp hne
          · intro hin
            have hfree := hg.free p hin.1 hin.2
            rw [h.kept p t hp hne] at hfree
            exact hne (Option.some.inj hfree)
        · intro p hp
          rw [hg.map, paint] at hp
          split at hp
          next hin =>
            exact ⟨_, List.mem_append_right _ List.mem_cons_self,
              _, _, _, rfl, hreq, hin.1, hin.2⟩
          next =>
            obtain ⟨e, he, htook⟩ := h.changed p hp
            exact ⟨e, List.mem_append_left _ he, htook⟩
    | @released memory pages hr =>
        have htook := fun {p} (h1 : memory / 4096 ≤ p) h2 => h.took_of_released hc hr (p := p) h1 h2
        constructor
        · intro p t hp hne
          rw [hr.map, paint, if_neg]
          · exact h.kept p t hp hne
          · intro hin
            -- a classified page of the range would have the free's own type
            obtain ⟨s, hconv, hrsv, htype⟩ := hr.typed
            have hs := htype p hin.1 hin.2
            rw [h.kept p t hp hne] at hs
            obtain rfl := Option.some.inj hs
            rcases hc memory pages rfl ⟨hr.aligned, hr.nonempty, hr.typed⟩ p hin.1 hin.2 t hp with
              h | h
            · exact hconv h
            · exact hrsv h
        · intro p hp
          rw [hr.map, paint] at hp
          split at hp
          next hin =>
            obtain ⟨e, he, ht⟩ := htook hin.1 hin.2
            exact ⟨e, List.mem_append_left _ he, ht⟩
          next =>
            obtain ⟨e, he, ht⟩ := h.changed p hp
            exact ⟨e, List.mem_append_left _ he, ht⟩
    | reserved => cases hres
  · rw [heq, hsame hres]
    refine ⟨h.kept, ?_⟩
    intro p hp
    obtain ⟨e, he, ht⟩ := h.changed p hp
    exact ⟨e, List.mem_append_left _ he, ht⟩

theorem Tracked.run {m₀ : Nat → Option EfiMemoryType} {a : PageAllocator} {past : List Event}
    (hsound : Sound a) (h : Tracked m₀ a past) {calls : List Call}
    (hres : ∀ c ∈ calls, c.isReserve = false)
    (hcalls : EachCall (Call.SparesClassified m₀) a calls) :
    Tracked m₀ (final a calls) (past ++ trace a calls) := by
  induction calls generalizing a past with
  | nil =>
      rw [trace, List.append_nil]
      exact h
  | cons c cs ih =>
      have hstep := h.step hsound (hres c List.mem_cons_self) hcalls.1
      have hrest := ih (Call.perform_sound hsound c) hstep
        (fun c' hc' => hres c' (List.mem_cons_of_mem _ hc')) hcalls.2
      rw [List.append_assoc] at hrest
      exact hrest

/-- **Classified pages never return to the pool** in a run whose frees, where they can succeed,
    spare them, and then every page a free returns was taken by an earlier
    allocation. -/
theorem classified_pages_stay {firmware : FirmwareLayout} {fdt : Fdt}
    {memoryCapacity reservedCapacity : Nat} {buffer : List EfiMemoryDescriptor}
    {a : PageAllocator}
    (h : PageAllocator.fromFdt firmware fdt memoryCapacity reservedCapacity buffer = .ok a)
    {calls : List Call} (hres : ∀ c ∈ calls, c.isReserve = false)
    (hcalls : EachCall (Call.SparesClassified a.pageMap) a calls) :
    (∀ p t, a.pageMap p = some t → t ≠ .conventionalMemory →
        (final a calls).pageMap p ≠ some .conventionalMemory)
    ∧ (∀ pre memory pages post, calls = pre ++ .freePages memory pages :: post →
        ((Call.freePages memory pages).perform (final a pre)).1 = .ok none →
        ∀ p, memory / 4096 ≤ p → p < memory / 4096 + pages → ∃ e ∈ trace a pre, e.Took p) := by
  obtain ⟨hsound, _, _⟩ := fromFdt_spec h
  have hstart : Tracked a.pageMap a [] := ⟨fun _ _ hp _ => hp, fun _ hp => absurd rfl hp⟩
  constructor
  · intro p t hp hne hconv
    have hkept := (hstart.run hsound hres hcalls).kept p t hp hne
    rw [hkept] at hconv
    exact hne (Option.some.inj hconv)
  · intro pre memory pages post hsplit hok p h1 h2
    subst hsplit
    obtain ⟨hbefore, hfree⟩ := hcalls.split
    have hpre : Tracked a.pageMap (final a pre) ([] ++ trace a pre) := hstart.run hsound
      (fun c hc => hres c (List.mem_append_left _ hc)) hbefore
    rcases Call.effect (final_sound hsound pre) (.freePages memory pages) with
      ⟨r, a', heq, heff⟩ | ⟨e, a', heq, _⟩
    · cases heff with
      | granted hreq _ => cases hreq
      | released hr => exact hpre.took_of_released hfree hr h1 h2
    · rw [heq] at hok
      cases hok

/-- A tree with 64 KiB of RAM at `0x80000000` and no reservations. -/
def ramBlob : Bytes :=
  assemble (List.replicate 16 0)
    ((Items.child [] (Items.child (ascii "memory")
        (Items.property 0 (be32 0 ++ be32 0x80000000 ++ be32 0x10000) .nil) .nil) .nil).flat
      ++ be32 fdtEnd)
    (ascii "reg" ++ [0])

/-- Firmware code in the second page of that RAM. -/
def ramFirmware : FirmwareLayout :=
  { FirmwareLayout.none with codeStart := 0x80001000, codeEnd := 0x80002000 }

/-- The map `from_fdt` builds from the two, with the blob in the ninth page. -/
theorem ramBlob_map :
    ∃ fdt a, Fdt.fromPtr 0x80008000 ramBlob = .ok fdt
      ∧ PageAllocator.fromFdt ramFirmware fdt 4 4 (List.replicate 8 emptyDescriptor) = .ok a
      ∧ a.pageMap 0x80001 = some .bootServicesCode
      ∧ a.pageMap 0x80003 = some .conventionalMemory
      ∧ (final a [.freePages 0x80001000 1]).pageMap 0x80001 = some .conventionalMemory := by
  have hrun : (pageAllocatorFromLiveFdt ramFirmware 0x80008000 ramBlob 4 4
        (List.replicate 8 emptyDescriptor)).map (fun a =>
          (a.pageMap 0x80001, a.pageMap 0x80003,
            (final a [.freePages 0x80001000 1]).pageMap 0x80001))
      = some (some .bootServicesCode, some .conventionalMemory, some .conventionalMemory) := by
    decide +kernel
  obtain ⟨a, ha, hmaps⟩ := Option.map_eq_some_iff.mp hrun
  obtain ⟨fdt, hfdt, hbuild⟩ := pageAllocatorFromLiveFdt_eq_some ha
  obtain ⟨h1, hmaps⟩ := Prod.mk.inj hmaps
  obtain ⟨h2, h3⟩ := Prod.mk.inj hmaps
  exact ⟨fdt, a, hfdt, hbuild, h1, h2, h3⟩

/-- Allocate the fourth page and give it back. -/
theorem classified_pages_stay_example :
    ∃ fdt a, PageAllocator.fromFdt ramFirmware fdt 4 4 (List.replicate 8 emptyDescriptor) = .ok a
      ∧ ∀ p t, a.pageMap p = some t → t ≠ .conventionalMemory →
          (final a [.allocatePages .allocateAddress .loaderData 1 0x80003000,
            .freePages 0x80003000 1]).pageMap p ≠ some .conventionalMemory := by
  obtain ⟨fdt, a, _, ha, _, hconv, _⟩ := ramBlob_map
  refine ⟨fdt, a, ha, (classified_pages_stay ha (by decide) ?_).1⟩
  refine ⟨?_, ?_, trivial⟩
  · intro memory pages hfree
    cases hfree
  · intro memory pages hfree _ p h1 h2 t ht
    injection hfree with hmemory hpages
    rw [show p = 0x80003 by omega, hconv] at ht
    exact Or.inl (Option.some.inj ht).symm

/-- `FreePages` on the firmware's own code succeeds and hands the page to the
    pool. -/
theorem free_returns_firmware_code :
    ∃ fdt a, Fdt.fromPtr 0x80008000 ramBlob = .ok fdt
      ∧ PageAllocator.fromFdt ramFirmware fdt 4 4 (List.replicate 8 emptyDescriptor) = .ok a
      ∧ ¬ ∀ calls : List Call, (∀ c ∈ calls, c.isReserve = false) →
          ∀ p t, a.pageMap p = some t → t ≠ .conventionalMemory →
            (final a calls).pageMap p ≠ some .conventionalMemory := by
  obtain ⟨fdt, a, hfdt, ha, hcode, _, hfreed⟩ := ramBlob_map
  refine ⟨fdt, a, hfdt, ha, ?_⟩
  intro hall
  exact hall [.freePages 0x80001000 1] (by decide) 0x80001 .bootServicesCode hcode (by decide)
    hfreed

end RustFirmware.Memory
