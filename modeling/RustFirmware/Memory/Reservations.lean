/-
  RustFirmware.Memory.Reservations
  ────────────────────────────────
  **WHAT BECOMES OF THE RESERVATIONS OF A DEVICE TREE.**

  `from_fdt` carves four kinds of reservation out of the RAM map.  §1 follows
  ONE page through the carves: a page that is conventional or reserved takes the
  type of the next range that touches it, any other type sticks.  From that:

      §2   which pages are conventional at the end, and when every
           reservation of the tree is respected
      §3   which pages are reserved at the end, and when every `no-map`
           range is

  In both cases the answer is an exact condition on the tree, the linker ranges
  and the size of the scratch slice.
-/
import RustFirmware.Memory.FromFdt
import RustFirmware.DeviceTree.Tree

namespace RustFirmware.Memory

open RustFirmware.Lib
open RustFirmware.DeviceTree

/-! ## §1. One page through the carves. -/

/-- Some byte of the region lies in the page. -/
def MemoryRegion.Overlaps (r : MemoryRegion) (page : Nat) : Prop :=
  0 < r.size ∧ r.base < (page + 1) * 4096 ∧ page * 4096 < r.base + r.size

instance (r : MemoryRegion) (page : Nat) : Decidable (r.Overlaps page) :=
  inferInstanceAs (Decidable (_ ∧ _))

/-- The page is among those the region covers when rounded outwards. -/
def MemoryRegion.Touches (r : MemoryRegion) (page : Nat) : Prop :=
  r.outerPages.1 ≤ page ∧ page < r.outerPages.2

instance (r : MemoryRegion) (page : Nat) : Decidable (r.Touches page) :=
  inferInstanceAs (Decidable (_ ∧ _))

theorem MemoryRegion.Overlaps.touches {r : MemoryRegion} {p : Nat} (h : r.Overlaps p) :
    r.Touches p := by
  obtain ⟨h1, h2, h3⟩ := h
  show r.base / 4096 ≤ p ∧ p < (r.base + r.size + 4095) / 4096
  omega

/-- A type that a carve for a reservation leaves alone. -/
def Sticky (t : EfiMemoryType) : Prop := t ≠ .conventionalMemory ∧ t ≠ .reservedMemoryType

theorem isConventionalOrReserved_eq_false {t : EfiMemoryType} (h : Sticky t) :
    PageAllocator.isConventionalOrReserved t = false := by
  unfold PageAllocator.isConventionalOrReserved
  simp [h.1, h.2]

variable {m : Nat → Option EfiMemoryType} {p : Nat}

theorem reserveAll_cons (c : MemoryRegion × EfiMemoryType)
    (cs : List (MemoryRegion × EfiMemoryType)) (m : Nat → Option EfiMemoryType) :
    reserveAll (c :: cs) m
      = reserveAll cs (recolor PageAllocator.isConventionalOrReserved c.1.outerPages.1
          c.1.outerPages.2 c.2 m) := rfl

/-- One carve at one page that has a type. -/
theorem recolor_at {elig : EfiMemoryType → Bool} {lo hi : Nat} {t s : EfiMemoryType}
    (hp : m p = some s) :
    recolor elig lo hi t m p
      = some (if (lo ≤ p ∧ p < hi) ∧ elig s = true then t else s) := by
  unfold recolor
  rw [hp, Option.map_some]

theorem recolor_none {elig : EfiMemoryType → Bool} {lo hi : Nat} {t : EfiMemoryType}
    (hp : m p = none) : recolor elig lo hi t m p = none := by
  unfold recolor
  rw [hp, Option.map_none]

theorem reserveAll_none (cs : List (MemoryRegion × EfiMemoryType)) (hp : m p = none) :
    reserveAll cs m p = none := by
  induction cs generalizing m with
  | nil => exact hp
  | cons c cs ih => exact ih (recolor_none hp)

/-- **A sticky type survives every reservation.** -/
theorem reserveAll_sticky (cs : List (MemoryRegion × EfiMemoryType)) {t : EfiMemoryType}
    (ht : Sticky t) (hp : m p = some t) : reserveAll cs m p = some t := by
  induction cs generalizing m with
  | nil => exact hp
  | cons c cs ih =>
      rw [reserveAll_cons]
      refine ih ?_
      rw [recolor_at hp, if_neg]
      rw [isConventionalOrReserved_eq_false ht]
      simp

/-- **A range with a sticky type wins the page**: once it has touched it, the
    page's type is sticky, whatever else touches the page. -/
theorem reserveAll_hit {cs : List (MemoryRegion × EfiMemoryType)}
    (hhit : ∃ c ∈ cs, c.1.Touches p ∧ Sticky c.2) (hp : ∃ s, m p = some s) :
    ∃ t, reserveAll cs m p = some t ∧ Sticky t := by
  induction cs generalizing m with
  | nil => simp at hhit
  | cons c cs ih =>
      obtain ⟨s, hs⟩ := hp
      by_cases hsticky : Sticky s
      · exact ⟨s, reserveAll_sticky (c :: cs) hsticky hs, hsticky⟩
      · rw [reserveAll_cons]
        have helig : PageAllocator.isConventionalOrReserved s = true := by
          unfold Sticky at hsticky
          unfold PageAllocator.isConventionalOrReserved
          simp only [Bool.or_eq_true, beq_iff_eq]
          tauto
        by_cases hc : c.1.Touches p ∧ Sticky c.2
        · refine ⟨c.2, reserveAll_sticky cs hc.2 ?_, hc.2⟩
          rw [recolor_at hs, if_pos ⟨hc.1, helig⟩]
        · obtain ⟨d, hd, hdp⟩ := hhit
          rcases List.mem_cons.mp hd with rfl | hd
          · exact absurd hdp hc
          · exact ih ⟨d, hd, hdp⟩ ⟨_, recolor_at hs⟩

/-- **Where no sticky range touches the page**, it ends reserved if it was or if
    any range touches it. -/
theorem reserveAll_miss {cs : List (MemoryRegion × EfiMemoryType)}
    (hmiss : ∀ c ∈ cs, c.1.Touches p → c.2 = .reservedMemoryType) :
    (m p = some .reservedMemoryType → reserveAll cs m p = some .reservedMemoryType)
    ∧ (m p = some .conventionalMemory →
        reserveAll cs m p = if ∃ c ∈ cs, c.1.Touches p then some .reservedMemoryType
          else some .conventionalMemory) := by
  induction cs generalizing m with
  | nil => simp [reserveAll]
  | cons c cs ih =>
      have hcs := fun d hd => hmiss d (List.mem_cons_of_mem _ hd)
      rw [reserveAll_cons]
      by_cases hc : c.1.Touches p
      · -- touched: reserved from here on
        have htype := hmiss c List.mem_cons_self hc
        have hres : ∀ s, PageAllocator.isConventionalOrReserved s = true → m p = some s →
            reserveAll cs (recolor PageAllocator.isConventionalOrReserved c.1.outerPages.1
              c.1.outerPages.2 c.2 m) p = some .reservedMemoryType := by
          intro s helig hs
          refine (ih hcs).1 ?_
          rw [recolor_at hs, if_pos ⟨hc, helig⟩, htype]
        refine ⟨hres _ rfl, ?_⟩
        intro hs
        rw [hres _ rfl hs, if_pos ⟨c, List.mem_cons_self, hc⟩]
      · have hsame : recolor PageAllocator.isConventionalOrReserved c.1.outerPages.1
            c.1.outerPages.2 c.2 m p = m p := by
          cases hs : m p with
          | none => exact recolor_none hs
          | some s => rw [recolor_at hs, if_neg (fun h => hc h.1)]
        rw [← hsame]
        refine ⟨(ih hcs).1, ?_⟩
        intro hs
        rw [(ih hcs).2 hs]
        refine if_congr ?_ rfl rfl
        simp [hc]

/-- The page is in one of the linker ranges, rounded outwards. -/
def FirmwareTouches (firmware : FirmwareLayout) (page : Nat) : Prop :=
  ∃ r ∈ PageAllocator.firmwareRegions firmware,
    (linkerPages r.1 r.2.1).1 ≤ page ∧ page < (linkerPages r.1 r.2.1).2

theorem linkerAll_cons (r : Nat × Nat × EfiMemoryType) (rs : List (Nat × Nat × EfiMemoryType))
    (m : Nat → Option EfiMemoryType) :
    linkerAll (r :: rs) m
      = linkerAll rs (recolor PageAllocator.isConventional (linkerPages r.1 r.2.1).1
          (linkerPages r.1 r.2.1).2 r.2.2 m) := rfl

/-- The linker ranges take conventional pages only. -/
theorem linkerAll_other (rs : List (Nat × Nat × EfiMemoryType))
    (hp : m p ≠ some .conventionalMemory) : linkerAll rs m p = m p := by
  induction rs generalizing m with
  | nil => rfl
  | cons r rs ih =>
      have hsame : recolor PageAllocator.isConventional (linkerPages r.1 r.2.1).1
          (linkerPages r.1 r.2.1).2 r.2.2 m p = m p := by
        cases hs : m p with
        | none => exact recolor_none hs
        | some s =>
            rw [recolor_at hs, if_neg]
            intro h
            have hconv : s = .conventionalMemory := by simpa [PageAllocator.isConventional] using h.2
            exact hp (hconv ▸ hs)
      rw [linkerAll_cons, ih (by rw [hsame]; exact hp), hsame]

/-- A conventional page stays so exactly when no linker range covers it. -/
theorem linkerAll_conventional {rs : List (Nat × Nat × EfiMemoryType)}
    (htype : ∀ r ∈ rs, r.2.2 ≠ .conventionalMemory) (hp : m p = some .conventionalMemory) :
    linkerAll rs m p = some .conventionalMemory
      ↔ ¬ ∃ r ∈ rs, (linkerPages r.1 r.2.1).1 ≤ p ∧ p < (linkerPages r.1 r.2.1).2 := by
  induction rs generalizing m with
  | nil => simp [linkerAll, hp]
  | cons r rs ih =>
      have hrs := fun d hd => htype d (List.mem_cons_of_mem _ hd)
      rw [linkerAll_cons]
      by_cases hr : (linkerPages r.1 r.2.1).1 ≤ p ∧ p < (linkerPages r.1 r.2.1).2
      · have htaken : recolor PageAllocator.isConventional (linkerPages r.1 r.2.1).1
            (linkerPages r.1 r.2.1).2 r.2.2 m p = some r.2.2 := by
          rw [recolor_at hp, if_pos ⟨hr, rfl⟩]
        have hne : some r.2.2 ≠ some EfiMemoryType.conventionalMemory := fun h =>
          htype r List.mem_cons_self (Option.some.inj h)
        rw [linkerAll_other rs (by rw [htaken]; exact hne), htaken]
        exact ⟨fun h => absurd h hne, fun h => absurd ⟨r, List.mem_cons_self, hr⟩ h⟩
      · have hsame : recolor PageAllocator.isConventional (linkerPages r.1 r.2.1).1
            (linkerPages r.1 r.2.1).2 r.2.2 m p = some .conventionalMemory := by
          rw [recolor_at hp, if_neg (fun h => hr h.1)]
        rw [ih hrs hsame]
        simp [hr]

theorem firmwareRegions_type (firmware : FirmwareLayout) :
    ∀ r ∈ PageAllocator.firmwareRegions firmware, r.2.2 ≠ .conventionalMemory := by
  intro r hr
  simp only [PageAllocator.firmwareRegions, List.mem_cons, List.not_mem_nil, or_false] at hr
  rcases hr with rfl | rfl | rfl | rfl <;> simp

/-! ## §2. Which pages end up conventional. -/

/-- Entry `index` of the memory-reservation block: no entry up to it ends the
    block. -/
def HasReserveEntry (fdt : Fdt) (index : Nat) (r : MemoryRegion) : Prop :=
  (∀ j < index, (fdt.reserveEntry j).isSome) ∧ fdt.reserveEntry index = some ⟨r.base, r.size⟩

/-- **The scratch slice keeps a prefix of the block**: entry `i` is collected
    exactly when the slice is longer than `i`. -/
theorem reserveMapRegions_getElem? (fdt : Fdt) (capacity i : Nat) (r : MemoryRegion) :
    (reserveMapRegions fdt capacity)[i]? = some r ↔ i < capacity ∧ HasReserveEntry fdt i r := by
  have hloop : ∀ (room count i : Nat), (reserveMapLoop fdt room count)[i]? = some r ↔
      i < room ∧ (∀ j < i, (fdt.reserveEntry (count + j)).isSome)
        ∧ fdt.reserveEntry (count + i) = some ⟨r.base, r.size⟩ := by
    intro room
    induction room with
    | zero => simp [reserveMapLoop]
    | succ room ih =>
        intro count i
        rw [reserveMapLoop]
        cases hentry : fdt.reserveEntry count with
        | none =>
            cases i with
            | zero => simp [hentry]
            | succ i =>
                simp only [List.getElem?_nil, reduceCtorEq, false_iff]
                intro ⟨_, hall, _⟩
                have := hall 0 (by omega)
                rw [Nat.add_zero, hentry] at this
                cases this
        | some entry =>
            cases i with
            | zero =>
                simp only [List.getElem?_cons_zero, Nat.add_zero, hentry, Option.some.injEq]
                constructor
                · intro h
                  subst h
                  exact ⟨by omega, by simp, rfl⟩
                · intro ⟨_, _, h⟩
                  subst h
                  rfl
            | succ i =>
                rw [List.getElem?_cons_succ, ih (count + 1) i]
                have hshift : ∀ j, count + 1 + j = count + (j + 1) := by
                  intro j
                  omega
                simp only [hshift]
                constructor
                · intro ⟨h1, h2, h3⟩
                  refine ⟨by omega, ?_, h3⟩
                  intro j hj
                  cases j with
                  | zero => simp [hentry]
                  | succ j => exact h2 j (by omega)
                · intro ⟨h1, h2, h3⟩
                  exact ⟨by omega, fun j hj => h2 (j + 1) (by omega), h3⟩
  have h := hloop capacity 0 i
  simp only [Nat.zero_add] at h
  exact h

theorem fdtReservations_type (fdt : Fdt) (reservedCapacity : Nat) :
    ∀ c ∈ fdtReservations fdt reservedCapacity, c.2 ≠ .conventionalMemory := by
  intro c hc
  rcases List.mem_append.mp hc with hc | hc
  · rcases List.mem_cons.mp hc with rfl | hc
    · simp
    · obtain ⟨r, _, rfl⟩ := List.mem_map.mp hc
      simp
  · obtain ⟨r, _, rfl⟩ := List.mem_map.mp hc
    cases hr : r.2 <;> simp [reservedMemoryTypeToEfi]

/-- **The four ways of a page**: it is no RAM, a reservation has given it a type of its own
    for good, it is reserved, or it is left to the linker ranges. -/
theorem fromFdt_page_cases {firmware : FirmwareLayout} {fdt : Fdt}
    {memoryCapacity reservedCapacity : Nat} {buffer : List EfiMemoryDescriptor}
    {a : PageAllocator}
    (h : PageAllocator.fromFdt firmware fdt memoryCapacity reservedCapacity buffer = .ok a)
    (p : Nat) :
    (¬ RamPage (memoryRegions fdt memoryCapacity) p ∧ a.pageMap p = none)
    ∨ RamPage (memoryRegions fdt memoryCapacity) p
      ∧ ((∃ c ∈ fdtReservations fdt reservedCapacity, c.1.Touches p ∧ Sticky c.2)
          ∧ (∃ t, a.pageMap p = some t ∧ Sticky t)
        ∨ (¬ ∃ c ∈ fdtReservations fdt reservedCapacity, c.1.Touches p ∧ Sticky c.2)
          ∧ ((∃ c ∈ fdtReservations fdt reservedCapacity, c.1.Touches p)
              ∧ a.pageMap p = some .reservedMemoryType
            ∨ (¬ ∃ c ∈ fdtReservations fdt reservedCapacity, c.1.Touches p)
              ∧ (a.pageMap p = some .conventionalMemory ↔ ¬ FirmwareTouches firmware p))) := by
  obtain ⟨_, _, hmap⟩ := fromFdt_spec h
  rw [hmap, firmwareMap]
  by_cases hram : RamPage (memoryRegions fdt memoryCapacity) p
  · have hseed : seedMap (memoryRegions fdt memoryCapacity) p = some .conventionalMemory :=
      if_pos hram
    refine Or.inr ⟨hram, ?_⟩
    by_cases hhit : ∃ c ∈ fdtReservations fdt reservedCapacity, c.1.Touches p ∧ Sticky c.2
    · obtain ⟨t, ht, hsticky⟩ := reserveAll_hit hhit ⟨_, hseed⟩
      rw [linkerAll_other _ (by rw [ht]; exact fun he => hsticky.1 (Option.some.inj he)), ht]
      exact Or.inl ⟨hhit, t, rfl, hsticky⟩
    · -- no reservation of a sticky type: those that touch the page are plain reservations
      have hmiss : ∀ c ∈ fdtReservations fdt reservedCapacity, c.1.Touches p →
          c.2 = .reservedMemoryType := by
        intro c hc htouch
        by_contra hne
        exact hhit ⟨c, hc, htouch, fdtReservations_type fdt reservedCapacity c hc, hne⟩
      have hres := (reserveAll_miss hmiss).2 hseed
      refine Or.inr ⟨hhit, ?_⟩
      by_cases htouch : ∃ c ∈ fdtReservations fdt reservedCapacity, c.1.Touches p
      · rw [if_pos htouch] at hres
        rw [linkerAll_other _ (by rw [hres]; simp), hres]
        exact Or.inl ⟨htouch, rfl⟩
      · rw [if_neg htouch] at hres
        exact Or.inr ⟨htouch, linkerAll_conventional (firmwareRegions_type firmware) hres⟩
  · have hseed : seedMap (memoryRegions fdt memoryCapacity) p = none := if_neg hram
    have hnone := reserveAll_none (fdtReservations fdt reservedCapacity) hseed
    rw [linkerAll_other _ (by rw [hnone]; simp), hnone]
    exact Or.inl ⟨hram, rfl⟩

/-- **Which pages of the built map are conventional**: the RAM pages that no
    collected reservation and no linker range touches. -/
theorem fromFdt_conventional_iff {firmware : FirmwareLayout} {fdt : Fdt}
    {memoryCapacity reservedCapacity : Nat} {buffer : List EfiMemoryDescriptor}
    {a : PageAllocator}
    (h : PageAllocator.fromFdt firmware fdt memoryCapacity reservedCapacity buffer = .ok a)
    (p : Nat) :
    a.pageMap p = some .conventionalMemory ↔
      RamPage (memoryRegions fdt memoryCapacity) p
        ∧ (∀ c ∈ fdtReservations fdt reservedCapacity, ¬ c.1.Touches p)
        ∧ ¬ FirmwareTouches firmware p := by
  obtain ⟨hram, hnone⟩ | ⟨hram, ⟨⟨c, hc, htouch, -⟩, t, ht, hsticky⟩ |
    ⟨-, ⟨⟨c, hc, htouch⟩, hres⟩ | ⟨hfree, hiff⟩⟩⟩ := fromFdt_page_cases h p
  · rw [hnone]
    exact ⟨fun he => (by cases he), fun hr => absurd hr.1 hram⟩
  · rw [ht]
    exact ⟨fun he => absurd (Option.some.inj he) hsticky.1, fun hr => absurd htouch (hr.2.1 c hc)⟩
  · rw [hres]
    exact ⟨fun he => (by cases he), fun hr => absurd htouch (hr.2.1 c hc)⟩
  · rw [hiff]
    exact ⟨fun hfw => ⟨hram, fun c hc ht => hfree ⟨c, hc, ht⟩, hfw⟩, fun hr => hr.2.2⟩

/-- The page overlaps a reservation of the tree or of the linker script. -/
def OverlapsReservation (firmware : FirmwareLayout) (fdt : Fdt) (page : Nat) : Prop :=
  (∃ i r, HasReserveEntry fdt i r ∧ r.Overlaps page)
  ∨ (∃ r ∈ staticRegions fdt, r.1.Overlaps page)
  ∨ (fdtRegion fdt).Overlaps page
  ∨ ∃ r ∈ PageAllocator.firmwareRegions firmware,
      ({ base := r.1, size := r.2.1 - r.1 } : MemoryRegion).Overlaps page

/-- Every RAM page of an entry that the scratch slice had no room for is touched
    by some reservation that was carved. -/
def DroppedEntriesCovered (firmware : FirmwareLayout) (fdt : Fdt)
    (memoryCapacity reservedCapacity : Nat) : Prop :=
  ∀ i r, reservedCapacity ≤ i → HasReserveEntry fdt i r → ∀ p, r.Overlaps p →
    RamPage (memoryRegions fdt memoryCapacity) p →
      (∃ c ∈ fdtReservations fdt reservedCapacity, c.1.Touches p) ∨ FirmwareTouches firmware p

/-- A linker range that overlaps a page covers it. -/
theorem firmwareTouches_of_overlaps {firmware : FirmwareLayout} {p : Nat}
    (h : ∃ r ∈ PageAllocator.firmwareRegions firmware,
      ({ base := r.1, size := r.2.1 - r.1 } : MemoryRegion).Overlaps p) :
    FirmwareTouches firmware p := by
  obtain ⟨r, hr, hover⟩ := h
  refine ⟨r, hr, ?_⟩
  have hlt : ¬ r.2.1 ≤ r.1 := by
    have hsize : 0 < r.2.1 - r.1 := hover.1
    omega
  rw [linkerPages, if_neg hlt]
  exact hover.touches

/-- **Exactly when no reservation ends up in the pool**: every entry that did not
    fit in the scratch slice must be covered by something that did. -/
theorem fromFdt_respects_reservations_iff {firmware : FirmwareLayout} {fdt : Fdt}
    {memoryCapacity reservedCapacity : Nat} {buffer : List EfiMemoryDescriptor}
    {a : PageAllocator}
    (h : PageAllocator.fromFdt firmware fdt memoryCapacity reservedCapacity buffer = .ok a) :
    (∀ p, OverlapsReservation firmware fdt p → a.pageMap p ≠ some .conventionalMemory)
      ↔ DroppedEntriesCovered firmware fdt memoryCapacity reservedCapacity := by
  constructor
  · intro hall i r _ hentry p hover hram
    have hne := hall p (Or.inl ⟨i, r, hentry, hover⟩)
    rw [Ne, fromFdt_conventional_iff h p] at hne
    by_contra hcov
    obtain ⟨hcarve, hfw⟩ := not_or.mp hcov
    exact hne ⟨hram, fun c hc ht => hcarve ⟨c, hc, ht⟩, hfw⟩
  · intro hdrop p hover hconv
    obtain ⟨hram, hcarve, hfw⟩ := (fromFdt_conventional_iff h p).mp hconv
    rcases hover with ⟨i, r, hentry, hover⟩ | ⟨r, hr, hover⟩ | hover | hover
    · by_cases hi : i < reservedCapacity
      · -- a collected entry is carved
        have hmem := List.mem_of_getElem?
          ((reserveMapRegions_getElem? fdt reservedCapacity i r).mpr ⟨hi, hentry⟩)
        refine hcarve (r, .reservedMemoryType) ?_ hover.touches
        exact List.mem_append_left _ (List.mem_cons_of_mem _ (List.mem_map_of_mem hmem))
      · rcases hdrop i r (by omega) hentry p hover hram with ⟨c, hc, ht⟩ | hf
        · exact hcarve c hc ht
        · exact hfw hf
    · exact hcarve _ (List.mem_append_right _ (List.mem_map_of_mem hr)) hover.touches
    · exact hcarve _ (List.mem_append_left _ List.mem_cons_self) hover.touches
    · exact hfw (firmwareTouches_of_overlaps hover)

/-- 64 KiB of RAM at `0x80000000`, with its fifth page in the reserve map. -/
def reserveMapBlob : Bytes :=
  assemble (be32 0 ++ be32 0x80004000 ++ be32 0 ++ be32 0x1000 ++ List.replicate 16 0)
    ((Items.child [] (Items.child (ascii "memory")
        (Items.property 0 (be32 0 ++ be32 0x80000000 ++ be32 0x10000) .nil) .nil) .nil).flat
      ++ be32 fdtEnd)
    (ascii "reg" ++ [0])

/-- With room for one entry the reserve map is respected. -/
theorem fromFdt_respects_reservations_example :
    ∃ fdt a, PageAllocator.fromFdt .none fdt 4 1 (List.replicate 8 emptyDescriptor) = .ok a
      ∧ ((∀ p, OverlapsReservation .none fdt p → a.pageMap p ≠ some .conventionalMemory)
          ↔ DroppedEntriesCovered .none fdt 4 1) := by
  have hrun : (pageAllocatorFromLiveFdt .none 0x80008000 reserveMapBlob 4 1
      (List.replicate 8 emptyDescriptor)).isSome := by decide +kernel
  obtain ⟨a, ha⟩ := Option.isSome_iff_exists.mp hrun
  obtain ⟨fdt, _, hbuild⟩ := pageAllocatorFromLiveFdt_eq_some ha
  exact ⟨fdt, a, hbuild, fromFdt_respects_reservations_iff hbuild⟩

/-- Without room the entry is dropped, `from_fdt` still returns `Ok`, and the
    reserved page is conventional memory. -/
theorem fromFdt_drops_reserve_entry :
    ∃ fdt a, Fdt.fromPtr 0x80008000 reserveMapBlob = .ok fdt
      ∧ PageAllocator.fromFdt .none fdt 4 0 (List.replicate 8 emptyDescriptor) = .ok a
      ∧ ¬ ∀ p, OverlapsReservation .none fdt p → a.pageMap p ≠ some .conventionalMemory := by
  have hrun : (pageAllocatorFromLiveFdt .none 0x80008000 reserveMapBlob 4 0
        (List.replicate 8 emptyDescriptor)).map (fun a => a.pageMap 0x80004)
      = some (some .conventionalMemory) := by
    decide +kernel
  have hentry : (Fdt.fromPtr 0x80008000 reserveMapBlob).toOption.bind (fun fdt => fdt.reserveEntry 0)
      = some ⟨0x80004000, 0x1000⟩ := by
    decide +kernel
  obtain ⟨a, ha, hconv⟩ := Option.map_eq_some_iff.mp hrun
  obtain ⟨fdt, hfdt, hbuild⟩ := pageAllocatorFromLiveFdt_eq_some ha
  rw [hfdt] at hentry
  refine ⟨fdt, a, hfdt, hbuild, ?_⟩
  intro hall
  refine hall 0x80004 (Or.inl ⟨0, ⟨0x80004000, 0x1000⟩, ⟨?_, hentry⟩, ?_⟩) hconv
  · intro j hj
    omega
  · decide

/-! ## §3. Which `no-map` pages stay reserved. -/

/-- The page lies fully inside a `/memory` range of the tree, however long the
    scratch slice. -/
def InRam (fdt : Fdt) (page : Nat) : Prop :=
  ∃ capacity, ∃ r ∈ memoryRegions fdt capacity, r.Contains page

/-- The page overlaps a `reg` range of a static child that carries `no-map`. -/
def InNoMap (fdt : Fdt) (page : Nat) : Prop :=
  ∃ r, (r, ReservedMemoryType.reserved) ∈ staticRegions fdt ∧ r.Overlaps page

/-- What a `no-map` page needs to stay reserved: to be seeded at all, and not to
    be touched by the FDT blob or by a static range without `no-map`. -/
def StaysReserved (fdt : Fdt) (memoryCapacity page : Nat) : Prop :=
  RamPage (memoryRegions fdt memoryCapacity) page
  ∧ ¬ (fdtRegion fdt).Touches page
  ∧ ∀ r, (r, ReservedMemoryType.bootServicesData) ∈ staticRegions fdt → ¬ r.Touches page

/-- A carved reservation with a sticky type is the blob or a static range
    without `no-map`. -/
theorem sticky_fdtReservations {fdt : Fdt} {reservedCapacity : Nat} :
    (∃ c ∈ fdtReservations fdt reservedCapacity, c.1.Touches p ∧ Sticky c.2) ↔
      (fdtRegion fdt).Touches p
      ∨ ∃ r, (r, ReservedMemoryType.bootServicesData) ∈ staticRegions fdt ∧ r.Touches p := by
  constructor
  · intro ⟨c, hc, htouch, hsticky⟩
    rcases List.mem_append.mp hc with hc | hc
    · rcases List.mem_cons.mp hc with rfl | hc
      · exact Or.inl htouch
      · obtain ⟨r, _, rfl⟩ := List.mem_map.mp hc
        exact absurd rfl hsticky.2
    · obtain ⟨⟨r, ty⟩, hr, rfl⟩ := List.mem_map.mp hc
      cases ty with
      | reserved => exact absurd rfl hsticky.2
      | bootServicesData => exact Or.inr ⟨r, hr, htouch⟩
  · intro h
    rcases h with htouch | ⟨r, hr, htouch⟩
    · exact ⟨_, List.mem_append_left _ List.mem_cons_self, htouch, by simp [Sticky]⟩
    · exact ⟨_, List.mem_append_right _ (List.mem_map_of_mem hr), htouch,
        by simp [Sticky, reservedMemoryTypeToEfi]⟩

/-- **What becomes of a `no-map` page.** -/
theorem fromFdt_noMap_iff {firmware : FirmwareLayout} {fdt : Fdt}
    {memoryCapacity reservedCapacity : Nat} {buffer : List EfiMemoryDescriptor}
    {a : PageAllocator}
    (h : PageAllocator.fromFdt firmware fdt memoryCapacity reservedCapacity buffer = .ok a)
    (hp : InNoMap fdt p) :
    a.pageMap p = some .reservedMemoryType ↔ StaysReserved fdt memoryCapacity p := by
  obtain ⟨r, hr, hover⟩ := hp
  have htouch : ∃ c ∈ fdtReservations fdt reservedCapacity, c.1.Touches p :=
    ⟨_, List.mem_append_right _ (List.mem_map_of_mem hr), hover.touches⟩
  obtain ⟨hram, hnone⟩ | ⟨hram, ⟨hhit, t, ht, hsticky⟩ | ⟨hhit, ⟨-, hres⟩ | ⟨hfree, -⟩⟩⟩ :=
    fromFdt_page_cases h p
  · rw [hnone]
    exact ⟨fun he => (by cases he), fun hs => absurd hs.1 hram⟩
  · rw [ht]
    refine ⟨fun he => absurd (Option.some.inj he) hsticky.2, ?_⟩
    intro ⟨_, hblob, hstatic⟩
    rcases sticky_fdtReservations.mp hhit with hb | ⟨r', hr', ht'⟩
    · exact absurd hb hblob
    · exact absurd ht' (hstatic r' hr')
  · rw [sticky_fdtReservations, not_or] at hhit
    exact ⟨fun _ => ⟨hram, hhit.1, fun r' hr' ht => hhit.2 ⟨r', hr', ht⟩⟩, fun _ => hres⟩
  · exact absurd htouch hfree

/-- **Exactly when every `no-map` RAM page stays reserved.** -/
theorem fromFdt_keeps_noMap_iff {firmware : FirmwareLayout} {fdt : Fdt}
    {memoryCapacity reservedCapacity : Nat} {buffer : List EfiMemoryDescriptor}
    {a : PageAllocator}
    (h : PageAllocator.fromFdt firmware fdt memoryCapacity reservedCapacity buffer = .ok a) :
    (∀ p, InRam fdt p → InNoMap fdt p → a.pageMap p = some .reservedMemoryType)
      ↔ ∀ p, InRam fdt p → InNoMap fdt p → StaysReserved fdt memoryCapacity p := by
  constructor
  · intro hall p hram hp
    exact (fromFdt_noMap_iff h hp).mp (hall p hram hp)
  · intro hall p hram hp
    exact (fromFdt_noMap_iff h hp).mpr (hall p hram hp)

/-- RAM at `0x80000000`; half a page of it is `no-map`, the other half is a static
    reservation without it. -/
def sharedPageBlob : Bytes :=
  assemble (List.replicate 16 0)
    ((Items.child []
        (Items.child (ascii "memory")
          (Items.property 0 (be32 0 ++ be32 0x80000000 ++ be32 0x10000) .nil)
        (Items.child (ascii "reserved-memory")
          (Items.child (ascii "secure")
            (Items.property 0 (be32 0 ++ be32 0x80004000 ++ be32 0x800)
              (Items.property 4 [] .nil))
          (Items.child (ascii "plain")
            (Items.property 0 (be32 0 ++ be32 0x80004800 ++ be32 0x800) .nil) .nil)) .nil))
        .nil).flat
      ++ be32 fdtEnd)
    (ascii "reg" ++ [0] ++ ascii "no-map" ++ [0])

/-- The lists `from_fdt` reads off that blob, and the type of the shared page. -/
theorem sharedPageBlob_map :
    ∃ fdt a, Fdt.fromPtr 0x80008000 sharedPageBlob = .ok fdt
      ∧ PageAllocator.fromFdt .none fdt 4 4 (List.replicate 8 emptyDescriptor) = .ok a
      ∧ a.pageMap 0x80004 = some .bootServicesData
      ∧ memoryRegions fdt 4 = [⟨0x80000000, 0x10000⟩]
      ∧ staticRegions fdt = [(⟨0x80004000, 0x800⟩, .reserved),
          (⟨0x80004800, 0x800⟩, .bootServicesData)] := by
  have hrun : (pageAllocatorFromLiveFdt .none 0x80008000 sharedPageBlob 4 4
        (List.replicate 8 emptyDescriptor)).map (fun a => a.pageMap 0x80004)
      = some (some .bootServicesData) := by
    decide +kernel
  have hlists : (Fdt.fromPtr 0x80008000 sharedPageBlob).toOption.map
      (fun fdt => (memoryRegions fdt 4, staticRegions fdt)) = some ([⟨0x80000000, 0x10000⟩],
        [(⟨0x80004000, 0x800⟩, .reserved), (⟨0x80004800, 0x800⟩, .bootServicesData)]) := by
    decide +kernel
  obtain ⟨a, ha, htype⟩ := Option.map_eq_some_iff.mp hrun
  obtain ⟨fdt, hfdt, hbuild⟩ := pageAllocatorFromLiveFdt_eq_some ha
  rw [hfdt] at hlists
  obtain ⟨hmem, hstatic⟩ := Prod.mk.inj (Option.some.inj hlists)
  exact ⟨fdt, a, hfdt, hbuild, htype, hmem, hstatic⟩

theorem fromFdt_keeps_noMap_example :
    ∃ fdt a, PageAllocator.fromFdt .none fdt 4 4 (List.replicate 8 emptyDescriptor) = .ok a
      ∧ ((∀ p, InRam fdt p → InNoMap fdt p → a.pageMap p = some .reservedMemoryType)
          ↔ ∀ p, InRam fdt p → InNoMap fdt p → StaysReserved fdt 4 p) := by
  obtain ⟨fdt, a, _, hbuild, _⟩ := sharedPageBlob_map
  exact ⟨fdt, a, hbuild, fromFdt_keeps_noMap_iff hbuild⟩

/-- The page shared with a plain reservation becomes boot-services data, though
    half of it is `no-map`. -/
theorem fromFdt_loses_noMap_page :
    ∃ fdt a, Fdt.fromPtr 0x80008000 sharedPageBlob = .ok fdt
      ∧ PageAllocator.fromFdt .none fdt 4 4 (List.replicate 8 emptyDescriptor) = .ok a
      ∧ ¬ ∀ p, InRam fdt p → InNoMap fdt p → a.pageMap p = some .reservedMemoryType := by
  obtain ⟨fdt, a, hfdt, hbuild, htype, hmem, hstatic⟩ := sharedPageBlob_map
  refine ⟨fdt, a, hfdt, hbuild, ?_⟩
  intro hall
  have hres := hall 0x80004
    ⟨4, ⟨0x80000000, 0x10000⟩, by rw [hmem]; exact List.mem_cons_self, by decide⟩
    ⟨⟨0x80004000, 0x800⟩, by rw [hstatic]; exact List.mem_cons_self, by decide⟩
  rw [htype] at hres
  cases hres

end RustFirmware.Memory
