/-
  RustFirmware.Memory.Search
  ──────────────────────────
  **WHERE AN ALLOCATION LANDS.**

  A start HOSTS a run of `n` pages when it is a page address and the `n` pages
  from it on are conventional.  In a settled map such a run lies in ONE
  descriptor, so a search that asks every conventional descriptor for its best
  start has seen every start there is:

      §1   hosts, per page map and per segment
      §2   the candidate loop finds the best of all starts
      §3   the two address searches of `AllocatePages`
      §4   the exact-range step: it needs room for its split, and nothing else
      §5   `AllocatePages`, policy by policy
-/
import RustFirmware.Lib.Best
import RustFirmware.Lib.Canonical
import RustFirmware.Memory.Runs

namespace RustFirmware.Memory

open RustFirmware.Lib

/-! ## §1. Starts that host a run. -/

/-- `start` is a page address and the `n` pages from it on are conventional. -/
def HostsRun (m : Nat → Option EfiMemoryType) (n start : Nat) : Prop :=
  start % 4096 = 0
    ∧ ∀ p, start / 4096 ≤ p → p < start / 4096 + n → m p = some .conventionalMemory

/-- The page addresses from which `n` pages fit into the segment. -/
def startsIn (s : PageSeg) (n : Nat) : Set Nat :=
  fun v => v % 4096 = 0 ∧ s.lo * 4096 ≤ v ∧ v + n * 4096 ≤ s.hi * 4096

/-- The starts in the conventional segments of `l` that satisfy `Q`. -/
def startsOf (l : List PageSeg) (n : Nat) (Q : Nat → Prop) : Set Nat :=
  fun v => ∃ s ∈ l, s.tag = .conventionalMemory ∧ v ∈ startsIn s n ∧ Q v

/-- The segments of a settled allocator are canonical. -/
theorem Holds.canonical {a : PageAllocator} {l : List PageSeg} (h : Holds a l) (htidy : Tidy l)
    (hset : Settled a) : Canonical l := by
  refine ⟨htidy, ?_⟩
  unfold Settled at hset
  rw [h.active, List.isChain_map] at hset
  refine hset.imp_of_mem_imp ?_
  intro s t hs _ hst hjoin
  rw [(compatible_toDescriptor (h.fits s hs)).mpr hjoin] at hst
  cases hst

/-- **Contiguous conventional pages are in one descriptor**: the starts that
    host a run are the starts in the conventional segments. -/
theorem hostsRun_iff {l : List PageSeg} (h : Canonical l) {n : Nat} (hn : 0 < n) (v : Nat) :
    HostsRun (denote l) n v
      ↔ ∃ s ∈ l, s.tag = .conventionalMemory ∧ v ∈ startsIn s n := by
  constructor
  · rintro ⟨hmod, hpages⟩
    obtain ⟨l₁, s, l₂, rfl, hlo, hhi, htag⟩ := h.run_in_segment hn hpages
    refine ⟨s, by simp, htag, hmod, ?_, ?_⟩
    · omega
    · omega
  · rintro ⟨s, hs, htag, hmod, hlo, hhi⟩
    refine ⟨hmod, ?_⟩
    intro p hp1 hp2
    rw [← htag]
    exact h.toTidy.denote_mem hs ⟨by omega, by omega⟩

/-- The same for starts with a further property. -/
theorem mem_startsOf {l : List PageSeg} (h : Canonical l) {n : Nat} (hn : 0 < n)
    (Q : Nat → Prop) (v : Nat) :
    v ∈ startsOf l n Q ↔ HostsRun (denote l) n v ∧ Q v := by
  rw [hostsRun_iff h hn]
  constructor
  · rintro ⟨s, hs, htag, hv, hq⟩
    exact ⟨⟨s, hs, htag, hv⟩, hq⟩
  · rintro ⟨⟨s, hs, htag, hv⟩, hq⟩
    exact ⟨s, hs, htag, hv, hq⟩

/-! ## §2. The candidate loop. -/

/-- **The loop keeps the best start**: when each conventional descriptor hands
    in the best of its own starts, the result is the best of all of them. -/
theorem searchDescriptors_best {R : Nat → Nat → Prop} {better : Nat → Nat → Nat}
    (hb : Chooses R better)
    {start? : EfiMemoryDescriptor → Except MemoryError (Option Nat)} {n : Nat} {Q : Nat → Prop}
    {l : List PageSeg}
    (hstart : ∀ s ∈ l, s.tag = .conventionalMemory → ∀ o, start? (toDescriptor s) = .ok o →
      Best R (fun v => v ∈ startsIn s n ∧ Q v) o)
    {T : Set Nat} {candidate r : Option Nat} (hcand : Best R T candidate)
    (h : PageAllocator.searchDescriptors start? better candidate (l.map toDescriptor) = .ok r) :
    Best R (T ∪ startsOf l n Q) r := by
  induction l generalizing candidate T with
  | nil =>
      obtain rfl := Except.ok.inj h
      refine hcand.congr ?_
      intro v
      refine ⟨fun hv => Or.inl hv, ?_⟩
      rintro (hv | ⟨s, hs, _⟩)
      · exact hv
      · cases hs
  | cons s l ih =>
      have htail := fun u hu => hstart u (List.mem_cons_of_mem s hu)
      rw [List.map_cons, PageAllocator.searchDescriptors] at h
      by_cases hconv : s.tag = .conventionalMemory
      · rw [if_neg (by rw [toDescriptor_type]; exact not_not.mpr hconv)] at h
        cases hd : start? (toDescriptor s) with
        | error e =>
            rw [hd] at h
            cases h
        | ok o =>
            rw [hd] at h
            -- in either case the loop goes on with the merged candidate
            have hgo : PageAllocator.searchDescriptors start? better
                (mergeBest better candidate o) (l.map toDescriptor) = .ok r := by
              cases o with
              | none =>
                  cases candidate with
                  | none => exact h
                  | some c => exact h
              | some v =>
                  cases candidate with
                  | none => exact h
                  | some c => exact h
            have hmerged := hcand.union hb (hstart s List.mem_cons_self hconv o hd)
            refine (ih htail hmerged hgo).congr ?_
            intro v
            constructor
            · rintro ((hv | ⟨hv, hq⟩) | ⟨u, hu, hrest⟩)
              · exact Or.inl hv
              · exact Or.inr ⟨s, List.mem_cons_self, hconv, hv, hq⟩
              · exact Or.inr ⟨u, List.mem_cons_of_mem _ hu, hrest⟩
            · rintro (hv | ⟨u, hu, htag, hv, hq⟩)
              · exact Or.inl (Or.inl hv)
              · rcases List.mem_cons.mp hu with rfl | hu
                · exact Or.inl (Or.inr ⟨hv, hq⟩)
                · exact Or.inr ⟨u, hu, htag, hv, hq⟩
      · rw [if_pos (by rw [toDescriptor_type]; exact hconv)] at h
        refine (ih htail hcand h).congr ?_
        intro v
        constructor
        · rintro (hv | ⟨u, hu, hrest⟩)
          · exact Or.inl hv
          · exact Or.inr ⟨u, List.mem_cons_of_mem _ hu, hrest⟩
        · rintro (hv | ⟨u, hu, htag, hrest⟩)
          · exact Or.inl hv
          · rcases List.mem_cons.mp hu with rfl | hu
            · exact absurd htag hconv
            · exact Or.inr ⟨u, hu, htag, hrest⟩

/-- From an empty candidate, and in terms of the page map. -/
theorem searchDescriptors_hosts {R : Nat → Nat → Prop} {better : Nat → Nat → Nat}
    (hb : Chooses R better)
    {start? : EfiMemoryDescriptor → Except MemoryError (Option Nat)} {n : Nat} (hn : 0 < n)
    {Q : Nat → Prop} {a : PageAllocator} {l : List PageSeg} (hl : Holds a l)
    (hcan : Canonical l)
    (hstart : ∀ s, Fits s → ∀ o, start? (toDescriptor s) = .ok o →
      Best R (fun v => v ∈ startsIn s n ∧ Q v) o)
    {r : Option Nat}
    (h : PageAllocator.searchDescriptors start? better none a.activeDescriptors = .ok r) :
    Best R (fun v => HostsRun a.pageMap n v ∧ Q v) r := by
  rw [hl.active] at h
  have hnone : Best R (∅ : Set Nat) none := fun _ hv => hv
  refine (searchDescriptors_best hb (fun s hs _ => hstart s (hl.fits s hs)) hnone h).congr ?_
  intro v
  rw [hl.pageMap_eq]
  show v ∈ (∅ : Set Nat) ∪ startsOf l n Q ↔ HostsRun (denote l) n v ∧ Q v
  rw [Set.empty_union]
  exact mem_startsOf hcan hn Q v

/-- **The loop fails exactly where a conventional descriptor does**, whatever
    the candidates. -/
theorem searchDescriptors_ok_iff
    {start? : EfiMemoryDescriptor → Except MemoryError (Option Nat)} {better : Nat → Nat → Nat}
    {ds : List EfiMemoryDescriptor} (candidate : Option Nat) :
    (∃ r, PageAllocator.searchDescriptors start? better candidate ds = .ok r)
      ↔ ∀ d ∈ ds, d.type = .conventionalMemory → ∃ o, start? d = .ok o := by
  induction ds generalizing candidate with
  | nil => exact ⟨fun _ d hd => absurd hd List.not_mem_nil, fun _ => ⟨candidate, rfl⟩⟩
  | cons d ds ih =>
      rw [PageAllocator.searchDescriptors, List.forall_mem_cons]
      by_cases hconv : d.type = .conventionalMemory
      · rw [if_neg (not_not.mpr hconv)]
        cases hd : start? d with
        | error e =>
            constructor
            · rintro ⟨r, hr⟩
              cases hr
            · rintro ⟨hfirst, _⟩
              obtain ⟨o, ho⟩ := hfirst hconv
              cases ho
        | ok o =>
            have hgo : ∀ c, (∃ r, PageAllocator.searchDescriptors start? better c ds = .ok r)
                ↔ (d.type = .conventionalMemory → ∃ p, Except.ok o = Except.ok (ε := MemoryError) p)
                  ∧ ∀ e ∈ ds, e.type = .conventionalMemory → ∃ p, start? e = .ok p := fun c =>
              (ih c).trans ⟨fun h => ⟨fun _ => ⟨o, rfl⟩, h⟩, fun h => h.2⟩
            cases o with
            | none => exact hgo candidate
            | some v => exact hgo _
      · rw [if_pos hconv, ih candidate]
        exact ⟨fun h => ⟨fun hc => absurd hc hconv, h⟩, fun h => h.2⟩

/-- The loop ends with a candidate exactly when it had one or was handed one. -/
theorem searchDescriptors_isSome
    {start? : EfiMemoryDescriptor → Except MemoryError (Option Nat)} {better : Nat → Nat → Nat}
    {ds : List EfiMemoryDescriptor} {candidate r : Option Nat}
    (h : PageAllocator.searchDescriptors start? better candidate ds = .ok r) :
    r.isSome = true
      ↔ candidate.isSome = true
        ∨ ∃ d ∈ ds, d.type = .conventionalMemory ∧ ∃ v, start? d = .ok (some v) := by
  induction ds generalizing candidate with
  | nil =>
      obtain rfl := Except.ok.inj h
      simp
  | cons d ds ih =>
      rw [PageAllocator.searchDescriptors] at h
      simp only [List.exists_mem_cons_iff]
      by_cases hconv : d.type = .conventionalMemory
      · rw [if_neg (not_not.mpr hconv)] at h
        cases hd : start? d with
        | error e =>
            rw [hd] at h
            cases h
        | ok o =>
            rw [hd] at h
            cases o with
            | none => simpa using ih h
            | some v =>
                have hrec := ih h
                simp only [Option.isSome_some, true_or, iff_true] at hrec
                simp [hrec, hconv]
      · rw [if_pos hconv] at h
        rw [ih h]
        simp [hconv]

/-- An error of the loop is an error of some descriptor. -/
theorem searchDescriptors_error
    {start? : EfiMemoryDescriptor → Except MemoryError (Option Nat)} {better : Nat → Nat → Nat}
    {ds : List EfiMemoryDescriptor} {candidate : Option Nat} {e : MemoryError}
    (h : PageAllocator.searchDescriptors start? better candidate ds = .error e) :
    ∃ d ∈ ds, start? d = .error e := by
  induction ds generalizing candidate with
  | nil => cases h
  | cons d ds ih =>
      have hlater : ∀ {c}, PageAllocator.searchDescriptors start? better c ds = .error e →
          ∃ d' ∈ d :: ds, start? d' = .error e := by
        intro c hc
        obtain ⟨d', hd', herr⟩ := ih hc
        exact ⟨d', List.mem_cons_of_mem _ hd', herr⟩
      rw [PageAllocator.searchDescriptors] at h
      split at h
      · exact hlater h
      · cases hd : start? d with
        | error e' =>
            rw [hd] at h
            obtain rfl := Except.error.inj h
            exact ⟨d, List.mem_cons_self, hd⟩
        | ok o =>
            rw [hd] at h
            cases o with
            | none => exact hlater h
            | some v => exact hlater h

/-! ## §3. The searches of `AllocatePages`. -/

/-- `find_allocation_any_pages` asks a descriptor for its highest start. -/
theorem anyPagesStart_best {s : PageSeg} (hs : Fits s) {n : Nat} {o : Option Nat}
    (h : PageAllocator.anyPagesStart (n * 4096) (toDescriptor s) = .ok o) :
    Best (fun v w => w ≤ v) (fun v => v ∈ startsIn s n ∧ True) o := by
  obtain ⟨hne, hfit⟩ := hs
  unfold PageAllocator.anyPagesStart saturatingAdd at h
  rw [descriptorEnd_toDescriptor ⟨hne, hfit⟩, toDescriptor_physicalStart] at h
  change (if s.hi * 4096 < _ then _ else _) = _ at h
  split at h
  next hshort =>
    obtain rfl := Except.ok.inj h
    rintro v ⟨⟨hmod, hlo, hhi⟩, _⟩
    omega
  next hlong =>
    rw [alignDown_page (by omega)] at h
    change (if _ < s.lo * 4096 then _ else _) = _ at h
    split at h
    next hbelow =>
      obtain rfl := Except.ok.inj h
      rintro v ⟨⟨hmod, hlo, hhi⟩, _⟩
      omega
    next habove =>
      obtain rfl := Except.ok.inj h
      refine ⟨⟨⟨by omega, by omega, by omega⟩, trivial⟩, ?_⟩
      rintro w ⟨⟨hmod, hlo, hhi⟩, _⟩
      omega

/-- `find_allocation_max_address` asks for the highest start whose last byte is
    not above the limit.  The saturated end `2 ^ 64 - 1` of a limit at the top
    of the address space is above every descriptor, so it cuts nothing off. -/
theorem maxAddressStart_best {s : PageSeg} (hs : Fits s) {n memory : Nat} (hn : 0 < n)
    {o : Option Nat}
    (h : PageAllocator.maxAddressStart (n * 4096) memory (toDescriptor s) = .ok o) :
    Best (fun v w => w ≤ v) (fun v => v ∈ startsIn s n ∧ v + n * 4096 - 1 ≤ memory) o := by
  obtain ⟨hne, hfit⟩ := hs
  unfold PageAllocator.maxAddressStart saturatingAdd at h
  rw [descriptorEnd_toDescriptor ⟨hne, hfit⟩, toDescriptor_physicalStart] at h
  change (if min (s.hi * 4096) (min (memory + 1) (2 ^ 64 - 1)) < _ then _ else _) = _ at h
  -- below the descriptor's end the bound is the limit, saturated or not
  obtain ⟨upper, hupper⟩ : ∃ u, u = min (s.hi * 4096) (min (memory + 1) (2 ^ 64 - 1)) := ⟨_, rfl⟩
  have hle : upper ≤ s.hi * 4096 ∧ upper ≤ memory + 1 := by omega
  have hge : ∀ w, w ≤ s.hi * 4096 → w ≤ memory + 1 → w ≤ upper := by
    intro w hw1 hw2
    omega
  rw [← hupper] at h
  clear hupper
  split at h
  next hshort =>
    obtain rfl := Except.ok.inj h
    rintro v ⟨⟨hmod, hlo, hhi⟩, hlimit⟩
    have hv := hge (v + n * 4096) hhi (by omega)
    omega
  next hlong =>
    rw [alignDown_page (by omega)] at h
    change (if _ < s.lo * 4096 then _ else _) = _ at h
    split at h
    next hbelow =>
      obtain rfl := Except.ok.inj h
      rintro v ⟨⟨hmod, hlo, hhi⟩, hlimit⟩
      have hv := hge (v + n * 4096) hhi (by omega)
      omega
    next habove =>
      obtain rfl := Except.ok.inj h
      refine ⟨⟨⟨by omega, by omega, by omega⟩, by omega⟩, ?_⟩
      rintro w ⟨⟨hmod, hlo, hhi⟩, hlimit⟩
      have hw := hge (w + n * 4096) hhi (by omega)
      omega

/-- The outcome of a search over the starts `S`: the best one, or
    `OutOfResources` when there is none. -/
def Found (R : Nat → Nat → Prop) (S : Set Nat) (result : Except MemoryError Nat) : Prop :=
  (∃ start, result = .ok start ∧ start ∈ S ∧ ∀ v ∈ S, R start v)
  ∨ (result = .error .outOfResources ∧ ∀ v, v ∉ S)

theorem found_of_best {R : Nat → Nat → Prop} {S : Set Nat} {o : Option Nat}
    (h : Best R S o) : Found R S (okOr o .outOfResources) := by
  cases o with
  | none => exact Or.inr ⟨rfl, h⟩
  | some start => exact Or.inl ⟨start, rfl, h.1, h.2⟩

/-- On page descriptors neither search of `AllocatePages` ever fails. -/
theorem addressStart_total {a : PageAllocator} {l : List PageSeg} (hl : Holds a l)
    (bytes memory : Nat) :
    (∀ d ∈ a.activeDescriptors, ∃ o, PageAllocator.anyPagesStart bytes d = .ok o)
    ∧ ∀ d ∈ a.activeDescriptors, ∃ o, PageAllocator.maxAddressStart bytes memory d = .ok o := by
  rw [hl.active]
  constructor
  · intro d hd
    obtain ⟨s, hs, rfl⟩ := List.mem_map.mp hd
    unfold PageAllocator.anyPagesStart
    rw [descriptorEnd_toDescriptor (hl.fits s hs)]
    dsimp only [bind, Except.bind]
    split
    · exact ⟨_, rfl⟩
    · split
      · exact ⟨_, rfl⟩
      · exact ⟨_, rfl⟩
  · intro d hd
    obtain ⟨s, hs, rfl⟩ := List.mem_map.mp hd
    unfold PageAllocator.maxAddressStart
    rw [descriptorEnd_toDescriptor (hl.fits s hs)]
    dsimp only [bind, Except.bind]
    split
    · exact ⟨_, rfl⟩
    · split
      · exact ⟨_, rfl⟩
      · exact ⟨_, rfl⟩

/-- **`find_allocation_any_pages` finds the highest start.** -/
theorem findAllocationAnyPages_found {a : PageAllocator} {l : List PageSeg} (hl : Holds a l)
    (hcan : Canonical l) {n : Nat} (hn : 0 < n) (hbytes : n * 4096 < 2 ^ 64) :
    Found (fun v w => w ≤ v) (fun v => HostsRun a.pageMap n v) (a.findAllocationAnyPages n) := by
  have hcount : pagesToBytes n = .ok (n * 4096) := pagesToBytes_ok.mpr ⟨hbytes, rfl⟩
  obtain ⟨r, hr⟩ : ∃ r, PageAllocator.searchDescriptors _ max none a.activeDescriptors = .ok r :=
    (searchDescriptors_ok_iff none).mpr
      (fun d hd _ => (addressStart_total hl (n * 4096) 0).1 d hd)
  have hbest := searchDescriptors_hosts chooses_max hn hl hcan
    (fun s hs o ho => anyPagesStart_best hs ho) hr
  unfold PageAllocator.findAllocationAnyPages
  rw [hcount]
  show Found _ _ (PageAllocator.searchDescriptors _ max none a.activeDescriptors >>= _)
  rw [hr]
  refine found_of_best (hbest.congr ?_)
  intro v
  exact ⟨fun h => h.1, fun h => ⟨h, trivial⟩⟩

/-- **`find_allocation_max_address` finds the highest start below its limit.** -/
theorem findAllocationMaxAddress_found {a : PageAllocator} {l : List PageSeg} (hl : Holds a l)
    (hcan : Canonical l) {n : Nat} (hn : 0 < n) (memory : Nat) :
    Found (fun v w => w ≤ v) (fun v => HostsRun a.pageMap n v ∧ v + n * 4096 - 1 ≤ memory)
      (a.findAllocationMaxAddress (n * 4096) memory) := by
  obtain ⟨r, hr⟩ : ∃ r, PageAllocator.searchDescriptors _ max none a.activeDescriptors = .ok r :=
    (searchDescriptors_ok_iff none).mpr
      (fun d hd _ => (addressStart_total hl (n * 4096) memory).2 d hd)
  have hbest := searchDescriptors_hosts chooses_max hn hl hcan
    (fun s hs o ho => maxAddressStart_best hs hn ho) hr
  unfold PageAllocator.findAllocationMaxAddress
  rw [hr]
  exact found_of_best hbest

/-! ## §4. Room for a split. -/

/-- How many descriptors an allocation at `start` adds: one for each side on
    which the descriptor around it goes on. -/
def PageAllocator.splitGrowth (self : PageAllocator) (start n : Nat) : Nat :=
  (if 0 < start / 4096 ∧ self.pageMap (start / 4096 - 1) = some .conventionalMemory then 1 else 0)
    + (if self.pageMap (start / 4096 + n) = some .conventionalMemory then 1 else 0)

/-- The split fits in the descriptor buffer. -/
def PageAllocator.SplitFits (self : PageAllocator) (start n : Nat) : Prop :=
  self.descriptorCount + self.splitGrowth start n ≤ self.descriptors.length

/-- The size of the split list, read off the page map. -/
theorem split_length_eq {a : PageAllocator} {l₁ l₂ : List PageSeg} {s : PageSeg}
    (hl : Holds a (l₁ ++ s :: l₂)) (hcan : Canonical (l₁ ++ s :: l₂))
    (htag : s.tag = .conventionalMemory) {x n : Nat} (h1 : s.lo ≤ x) (h2 : x + n ≤ s.hi)
    (hn : 0 < n) (t : EfiMemoryType) :
    (l₁ ++ (splitSeg s x (x + n) t ++ l₂)).length
      = a.descriptorCount + a.splitGrowth (x * 4096) n := by
  have hmem : s ∈ l₁ ++ s :: l₂ := by simp
  have hcount := hl.length_eq
  rw [List.length_append, List.length_cons] at hcount
  have hleft : (if s.lo < x then 1 else 0)
      = if 0 < x ∧ a.pageMap (x - 1) = some .conventionalMemory then 1 else 0 := by
    rw [hl.pageMap_eq, ← htag]
    by_cases hlt : s.lo < x
    · rw [if_pos hlt, if_pos ⟨by omega, hcan.toTidy.denote_mem hmem ⟨by omega, by omega⟩⟩]
    · have hx : x = s.lo := by omega
      rw [if_neg hlt, if_neg]
      rintro ⟨hpos, hprev⟩
      rw [hx] at hpos hprev
      exact hcan.denote_pred_ne hmem hpos hprev
  have hright : (if x + n < s.hi then 1 else 0)
      = if a.pageMap (x + n) = some .conventionalMemory then 1 else 0 := by
    rw [hl.pageMap_eq, ← htag]
    by_cases hlt : x + n < s.hi
    · rw [if_pos hlt, if_pos (hcan.toTidy.denote_mem hmem ⟨by omega, by omega⟩)]
    · have hx : x + n = s.hi := by omega
      rw [if_neg hlt, if_neg]
      rw [hx]
      exact hcan.denote_hi_ne hmem
  unfold PageAllocator.splitGrowth
  rw [Nat.mul_div_cancel x (by omega), ← hleft, ← hright, List.length_append, List.length_append,
      splitSeg_length]
  omega

/-- **An exact range of conventional pages is allocated** exactly when the split
    fits; otherwise the call reports `BufferTooSmall` and changes nothing. -/
theorem allocateExactRange_of_hosts {a : PageAllocator} {l : List PageSeg} (hl : Holds a l)
    (hcan : Canonical l) {n start : Nat} (hn : 0 < n) (hrun : HostsRun a.pageMap n start)
    (t : EfiMemoryType) :
    (a.SplitFits start n ∧ ∃ a', a.allocateExactRange start n t = (.ok (), a'))
    ∨ (¬ a.SplitFits start n ∧ a.allocateExactRange start n t = (.error .bufferTooSmall, a)) := by
  obtain ⟨hmod, hpages⟩ := hrun
  obtain ⟨x, rfl⟩ : ∃ x, start = x * 4096 := ⟨start / 4096, by omega⟩
  rw [Nat.mul_div_cancel x (by omega), hl.pageMap_eq] at hpages
  obtain ⟨l₁, s, l₂, rfl, h1, h2, htag⟩ := hcan.run_in_segment hn hpages
  have haccept : PageAllocator.allocateRefuses s.tag = none := by
    rw [htag]
    rfl
  have hsize := split_length_eq hl hcan htag h1 h2 hn t
  unfold PageAllocator.allocateExactRange PageAllocator.SplitFits
  rw [← hsize]
  rcases retypeExactRange_at hl hcan.toTidy hn h1 h2 PageAllocator.allocateRefuses t with
    ⟨e, href, _⟩ | ⟨_, hroom, a', heq, _⟩ | ⟨_, hroom, heq⟩
  · rw [haccept] at href
    cases href
  · exact Or.inl ⟨hroom, a', heq⟩
  · exact Or.inr ⟨by omega, heq⟩

/-! ## §5. `AllocatePages`, policy by policy. -/

/-- What a call does that may use the starts `S` and prefers a higher one: no
    start, `OutOfResources`; otherwise the highest start, unless its split does
    not fit. -/
def TakesHighest (a : PageAllocator) (S : Set Nat) (n memory : Nat)
    (result : Except MemoryError Unit × Nat × PageAllocator) : Prop :=
  ((∀ v, v ∉ S) ∧ result = (.error .outOfResources, memory, a))
  ∨ ∃ start, IsGreatest S start
      ∧ ((a.SplitFits start n ∧ ∃ a', result = (.ok (), start, a'))
        ∨ (¬ a.SplitFits start n ∧ result = (.error .bufferTooSmall, memory, a)))

/-- The body of `AllocatePages` behind its parameter checks. -/
theorem allocatePages_eq (a : PageAllocator) {type : EfiAllocateType} {t : EfiMemoryType}
    {n : Nat} (hn : 0 < n) (hbytes : n * 4096 < 2 ^ 64) (ht : t ≠ .maxMemoryType)
    (htype : type ≠ .maxAllocateType) (memory : Nat) :
    a.allocatePages type t n memory
      = match a.allocationStart type n (n * 4096) memory with
        | .error e => (.error e, memory, a)
        | .ok start =>
            match a.allocateExactRange start n t with
            | (.error e, self) => (.error e, memory, self)
            | (.ok (), self)   => (.ok (), start, self) := by
  have hcount : pagesToU64 n = .ok n := pagesToU64_ok.mpr ⟨by omega, rfl⟩
  have hsize : pagesToBytes n = .ok (n * 4096) := pagesToBytes_ok.mpr ⟨hbytes, rfl⟩
  unfold PageAllocator.allocatePages
  rw [if_neg (by simp only [ht, htype, or_false]; omega), hcount, hsize]
  rfl

/-- A successful `AllocateAddress` returns the address it was given. -/
theorem allocateAddress_start {a a' : PageAllocator} {t : EfiMemoryType} {n memory start : Nat}
    (h : a.allocatePages .allocateAddress t n memory = (.ok (), start, a')) : start = memory := by
  unfold PageAllocator.allocatePages at h
  split at h
  · cases (Prod.mk.inj h).1
  · split at h
    · cases (Prod.mk.inj h).1
    next start' hstart =>
      obtain ⟨_, _, hstart⟩ := bind_eq_ok.mp hstart
      obtain ⟨_, _, hstart⟩ := bind_eq_ok.mp hstart
      unfold PageAllocator.allocationStart at hstart
      dsimp only at hstart
      split at hstart
      · obtain rfl := Except.ok.inj hstart
        split at h
        · cases (Prod.mk.inj h).1
        · exact (Prod.mk.inj (Prod.mk.inj h).2).1.symm
      · cases hstart

/-- From a search to the call: the start that was found is the one allocated. -/
theorem takesHighest_of_found {a : PageAllocator} {l : List PageSeg} (hl : Holds a l)
    (hcan : Canonical l) {type : EfiAllocateType} {t : EfiMemoryType} {n : Nat} (hn : 0 < n)
    (hbytes : n * 4096 < 2 ^ 64) (ht : t ≠ .maxMemoryType) (htype : type ≠ .maxAllocateType)
    {memory : Nat} {S : Set Nat} (hS : ∀ v ∈ S, HostsRun a.pageMap n v)
    (hfound : Found (fun v w => w ≤ v) S (a.allocationStart type n (n * 4096) memory)) :
    TakesHighest a S n memory (a.allocatePages type t n memory) := by
  rw [allocatePages_eq a hn hbytes ht htype]
  rcases hfound with ⟨start, heq, hstart, hbest⟩ | ⟨heq, hnone⟩
  · rw [heq]
    right
    refine ⟨start, ⟨hstart, hbest⟩, ?_⟩
    dsimp only
    rcases allocateExactRange_of_hosts hl hcan hn (hS start hstart) t with
      ⟨hfits, a', halloc⟩ | ⟨hfull, halloc⟩
    · rw [halloc]
      exact Or.inl ⟨hfits, a', rfl⟩
    · rw [halloc]
      exact Or.inr ⟨hfull, rfl⟩
  · rw [heq]
    exact Or.inl ⟨hnone, rfl⟩

/-- **`AllocatePages` finds the optimum**: `AllocateAnyPages` takes the highest
    start there is, `AllocateMaxAddress` the highest one whose last byte is not
    above the limit, and `AllocateAddress` the start it is given, for which all
    pages have to be conventional. -/
theorem allocatePages_takes_optimum {a₀ : PageAllocator} (h : Built a₀) {calls : List Call}
    (hlast : lastSucceeded a₀ calls = true) {n : Nat} (hn : 1 ≤ n) (hbytes : n * 4096 < 2 ^ 64)
    {t : EfiMemoryType} (ht : t ≠ .maxMemoryType) (memory : Nat) :
    TakesHighest (final a₀ calls) (fun v => HostsRun (final a₀ calls).pageMap n v) n memory
        ((final a₀ calls).allocatePages .allocateAnyPages t n memory)
    ∧ TakesHighest (final a₀ calls)
        (fun v => HostsRun (final a₀ calls).pageMap n v ∧ v + n * 4096 - 1 ≤ memory) n memory
        ((final a₀ calls).allocatePages .allocateMaxAddress t n memory)
    ∧ (memory % 4096 = 0 →
        (HostsRun (final a₀ calls).pageMap n memory →
          ((final a₀ calls).SplitFits memory n ∧ ∃ a',
            (final a₀ calls).allocatePages .allocateAddress t n memory = (.ok (), memory, a'))
          ∨ (¬ (final a₀ calls).SplitFits memory n
            ∧ (final a₀ calls).allocatePages .allocateAddress t n memory
                = (.error .bufferTooSmall, memory, final a₀ calls)))
        ∧ (¬ HostsRun (final a₀ calls).pageMap n memory → ∃ e,
            (final a₀ calls).allocatePages .allocateAddress t n memory
              = (.error e, memory, final a₀ calls))) := by
  obtain ⟨hsound, hset⟩ := runs_keep_settled h hlast
  generalize final a₀ calls = a at hsound hset ⊢
  obtain ⟨l, hl, htidy⟩ := hsound
  have hcan := hl.canonical htidy hset
  refine ⟨?_, ?_, ?_⟩
  · exact takesHighest_of_found hl hcan hn hbytes ht (by decide) (fun v hv => hv)
      (findAllocationAnyPages_found hl hcan hn hbytes)
  · exact takesHighest_of_found hl hcan hn hbytes ht (by decide) (fun v hv => hv.1)
      (findAllocationMaxAddress_found hl hcan hn memory)
  · intro hmod
    constructor
    · intro hrun
      rw [allocatePages_eq a hn hbytes ht (by decide)]
      unfold PageAllocator.allocationStart
      dsimp only
      rw [if_pos ((isPageAligned_iff memory).mpr hmod)]
      dsimp only
      rcases allocateExactRange_of_hosts hl hcan hn hrun t with
        ⟨hfits, a', halloc⟩ | ⟨hfull, halloc⟩
      · rw [halloc]
        exact Or.inl ⟨hfits, a', rfl⟩
      · rw [halloc]
        exact Or.inr ⟨hfull, rfl⟩
    · intro hno
      rcases Sound.allocatePages ⟨l, hl, htidy⟩ .allocateAddress t n memory with
        ⟨start, a', heq, hgrant⟩ | herr
      · -- a start that was granted is the given one, and its pages were conventional
        have hgiven := allocateAddress_start heq
        subst hgiven
        exact absurd ⟨hgrant.aligned, hgrant.free⟩ hno
      · exact herr

/-- Two pages from one range of eight, right after the constructor. -/
theorem allocatePages_takes_optimum_example :
    ∃ a, PageAllocator.fromRegions .none [⟨0x1000, 0x8000⟩] [] (List.replicate 8 emptyDescriptor)
        = .ok a
      ∧ TakesHighest a (fun v => HostsRun a.pageMap 2 v ∧ v + 2 * 4096 - 1 ≤ 0x5800) 2 0x5800
          (a.allocatePages .allocateMaxAddress .loaderData 2 0x5800) := by
  obtain ⟨a, ha⟩ : ∃ a, PageAllocator.fromRegions .none [⟨0x1000, 0x8000⟩] []
      (List.replicate 8 emptyDescriptor) = .ok a := ⟨_, rfl⟩
  have hlast : lastSucceeded a [] = true := rfl
  exact ⟨a, ha, (allocatePages_takes_optimum (Or.inl ⟨_, _, _, _, ha⟩) hlast (n := 2)
    (by decide) (by decide) (t := .loaderData) (by decide) 0x5800).2.1⟩

end RustFirmware.Memory
