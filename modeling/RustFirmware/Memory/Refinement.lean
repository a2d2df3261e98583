/-
  RustFirmware.Memory.Refinement
  ──────────────────────────────
  **THE DESCRIPTOR BUFFER REFINES A LIST OF PAGE SEGMENTS.**

  `Holds a l` says that the active descriptors of `a` are exactly the segments
  `l`, written as descriptors: page-aligned, no wider than the address space,
  attribute and virtual start zero.  Each method of the allocator then has ONE
  lemma that says what it does to `l`:

      replaceRange   splitSeg            in the middle of the list
      coalesce       fuse
      carveLoop      carve               (or a failure half-way)
      insertSorted   insertion by start
      retypeExactRange   splitSeg, then fuse

  Everything later is about the segment list and its denotation; no later proof
  unfolds an allocator loop again.
-/
import RustFirmware.Lib.Carve
import RustFirmware.Memory.Allocator

namespace RustFirmware.Memory

open RustFirmware.Lib

/-! ## §1. Segments as descriptors. -/

/-- A run of pages of one memory type, in page numbers. -/
abbrev PageSeg := Seg EfiMemoryType

/-- The descriptor that stands for a segment. -/
def toDescriptor (s : PageSeg) : EfiMemoryDescriptor :=
  { type := s.tag, physicalStart := s.lo * 4096, virtualStart := 0,
    numberOfPages := s.hi - s.lo, attributeMask := 0 }

@[simp] theorem toDescriptor_type (s : PageSeg) : (toDescriptor s).type = s.tag := rfl

@[simp] theorem toDescriptor_physicalStart (s : PageSeg) :
    (toDescriptor s).physicalStart = s.lo * 4096 := rfl

/-- Non-empty, and its end address `hi * 4096` is a `u64`. -/
def Fits (s : PageSeg) : Prop := s.lo < s.hi ∧ s.hi < 2 ^ 52

/-- The allocator's active descriptors are the segments `l`. -/
structure Holds (a : PageAllocator) (l : List PageSeg) : Prop where
  active   : a.activeDescriptors = l.map toDescriptor
  count_le : a.descriptorCount ≤ a.descriptors.length
  fits     : ∀ s ∈ l, Fits s

theorem descriptorEnd_toDescriptor {s : PageSeg} (h : Fits s) :
    descriptorEnd (toDescriptor s) = .ok (s.hi * 4096) := by
  obtain ⟨hne, hfit⟩ := h
  show checkedEnd (s.lo * 4096) (s.hi - s.lo) = _
  rw [checkedEnd_page, show s.lo + (s.hi - s.lo) = s.hi by omega]
  exact ⟨hfit, rfl⟩

/-- Two descriptors can be merged exactly when their segments can be joined. -/
theorem compatible_toDescriptor {s t : PageSeg} (h : Fits s) :
    descriptorsAreCompatible (toDescriptor s) (toDescriptor t) = true ↔ Joins s t := by
  unfold descriptorsAreCompatible
  rw [descriptorEnd_toDescriptor h]
  have hrest : (toDescriptor s).attributeMask = (toDescriptor t).attributeMask
      ∧ (toDescriptor s).virtualStart = (toDescriptor t).virtualStart := ⟨rfl, rfl⟩
  by_cases htag : s.tag = t.tag
  · rw [if_neg (by simp [htag, hrest])]
    show decide (t.lo * 4096 ≤ s.hi * 4096) = true ↔ s.tag = t.tag ∧ t.lo ≤ s.hi
    rw [decide_eq_true_iff, pageAddr_le, and_iff_right htag]
  · rw [if_pos (Or.inl (by simpa using htag))]
    simp [Joins, htag]

namespace Holds

theorem length_eq {a : PageAllocator} {l : List PageSeg} (h : Holds a l) :
    a.descriptorCount = l.length := by
  have hlen := congrArg List.length h.active
  rw [PageAllocator.activeDescriptors, List.length_take, List.length_map,
      Nat.min_eq_left h.count_le] at hlen
  exact hlen

/-- `self.descriptors[index]` at the position of a segment. -/
theorem descriptorAt_eq {a : PageAllocator} {l₁ l₂ : List PageSeg} {s : PageSeg}
    (h : Holds a (l₁ ++ s :: l₂)) : a.descriptorAt l₁.length = toDescriptor s := by
  have hcount := h.length_eq
  have hget : a.activeDescriptors[l₁.length]? = some (toDescriptor s) := by
    rw [h.active, List.map_append, List.map_cons]
    simp
  rw [PageAllocator.activeDescriptors, List.getElem?_take] at hget
  split at hget
  · rw [PageAllocator.descriptorAt, List.getD_eq_getElem?_getD, hget]
    rfl
  · cases hget

theorem fits_mid {a : PageAllocator} {l₁ l₂ : List PageSeg} {s : PageSeg}
    (h : Holds a (l₁ ++ s :: l₂)) : Fits s :=
  h.fits s (by simp)

end Holds

/-! ## §2. Replacing one descriptor. -/

/-- `replace_descriptor` on segments: either the parts fit and take the place of
`s`, or nothing changes. -/
theorem replaceDescriptor_cases {a : PageAllocator} {l₁ l₂ : List PageSeg} {s : PageSeg}
    (h : Holds a (l₁ ++ s :: l₂)) (parts : List PageSeg) (hne : parts ≠ [])
    (hfits : ∀ t ∈ parts, Fits t) :
    (∃ a', a.replaceDescriptor l₁.length (parts.map toDescriptor) = (.ok (), a')
        ∧ Holds a' (l₁ ++ (parts ++ l₂)) ∧ a'.descriptors.length = a.descriptors.length)
    ∨ (a.replaceDescriptor l₁.length (parts.map toDescriptor) = (.error .bufferTooSmall, a)
        ∧ a.descriptors.length < l₁.length + parts.length + l₂.length) := by
  have hcount := h.length_eq
  have hcl := h.count_le
  have hpos : 0 < parts.length := List.length_pos_of_ne_nil hne
  simp only [List.length_append, List.length_cons] at hcount
  unfold PageAllocator.replaceDescriptor
  rw [if_neg (by simp only [List.map_eq_nil_iff, hne, or_false]; omega)]
  simp only [List.length_map]
  by_cases hroom : a.descriptorCount - 1 + parts.length > a.descriptors.length
  · right
    rw [if_pos hroom]
    exact ⟨rfl, by omega⟩
  · left
    rw [if_neg hroom]
    refine ⟨_, rfl, ⟨?_, ?_, ?_⟩, ?_⟩
    · -- the two branches of the shift agree with one splice
      have hshift : (if parts.length > 1 then
            shiftUp a.descriptors (parts.length - 1) (l₁.length + 1) a.descriptorCount
          else a.descriptors)
          = shiftUp a.descriptors ((parts.map toDescriptor).length - 1) (l₁.length + 1)
              a.descriptorCount := by
        rw [List.length_map]
        split
        · rfl
        · rw [show parts.length - 1 = 0 by omega, shiftUp_zero _ _ _ hcl]
      have hsplice := take_splice a.descriptors (parts.map toDescriptor) l₁.length 1
        a.descriptorCount (by rw [List.length_map]; omega) (by omega)
        (by rw [List.length_map]; omega)
      have hact := h.active
      rw [PageAllocator.activeDescriptors] at hact
      show (writeSlice _ _ _).take (a.descriptorCount - 1 + parts.length) = _
      rw [hshift, show a.descriptorCount - 1 + parts.length
            = a.descriptorCount + (parts.map toDescriptor).length - 1 by
              rw [List.length_map]; omega,
          hsplice, hact,
          show a.descriptors.take l₁.length
            = (a.descriptors.take a.descriptorCount).take l₁.length by
              rw [List.take_take, Nat.min_eq_left (by omega)],
          hact, List.map_append, List.map_cons]
      simp [List.drop_append]
    · show a.descriptorCount - 1 + parts.length ≤ (writeSlice _ _ _).length
      rw [writeSlice_length]
      split
      · rw [shiftUp_length]
        omega
      · omega
    · intro t ht
      rcases List.mem_append.mp ht with ht | ht
      · exact h.fits t (List.mem_append_left _ ht)
      · rcases List.mem_append.mp ht with ht | ht
        · exact hfits t ht
        · exact h.fits t (by simp [ht])
    · show (writeSlice _ _ _).length = _
      rw [writeSlice_length]
      split
      · rw [shiftUp_length]
      · rfl

/-- The descriptors `replace_range` builds are the pieces of a split segment. -/
theorem replacementParts_eq (s : PageSeg) (x y : Nat) (t : EfiMemoryType) :
    PageAllocator.replacementParts (toDescriptor s) (x * 4096) (y * 4096) (s.hi * 4096) (y - x) t
      = (splitSeg s x y t).map toDescriptor := by
  unfold PageAllocator.replacementParts splitSeg
  rw [toDescriptor_physicalStart, bytesToPages_sub, bytesToPages_sub, List.map_append,
      List.map_cons]
  congr 1
  · by_cases hlt : s.lo < x
    · rw [if_pos (by omega), if_pos hlt]
      rfl
    · rw [if_neg (by omega), if_neg hlt]
      rfl
  · congr 1
    by_cases hlt : y < s.hi
    · rw [if_pos (by omega), if_pos hlt]
      rfl
    · rw [if_neg (by omega), if_neg hlt]
      rfl

/-- **`replace_range` splits one segment**, or fails for lack of room and
changes nothing. -/
theorem replaceRange_cases {a : PageAllocator} {l₁ l₂ : List PageSeg} {s : PageSeg}
    (h : Holds a (l₁ ++ s :: l₂)) {x y : Nat} (t : EfiMemoryType)
    (h1 : s.lo ≤ x) (h2 : x < y) (h3 : y ≤ s.hi) :
    (∃ a', a.replaceRange l₁.length (x * 4096) (y - x) t
          = (.ok (l₁.length + (if s.lo < x then 1 else 0) + 1), a')
        ∧ Holds a' (l₁ ++ (splitSeg s x y t ++ l₂))
        ∧ a'.descriptors.length = a.descriptors.length)
    ∨ (a.replaceRange l₁.length (x * 4096) (y - x) t = (.error .bufferTooSmall, a)
        ∧ a.descriptors.length < l₁.length + (splitSeg s x y t).length + l₂.length) := by
  have hs := h.fits_mid
  obtain ⟨hs1, hs2⟩ := hs
  have hend : checkedEnd (x * 4096) (y - x) = .ok (y * 4096) := by
    rw [checkedEnd_page, show x + (y - x) = y by omega]
    exact ⟨by omega, rfl⟩
  have hpieces : ∀ u ∈ splitSeg s x y t, Fits u := by
    intro u hu
    have := mem_splitSeg h1 h2 h3 hu
    exact ⟨by omega, by omega⟩
  have hne : splitSeg s x y t ≠ [] := by simp [splitSeg]
  unfold PageAllocator.replaceRange
  rw [h.descriptorAt_eq]
  simp only [descriptorEnd_toDescriptor ⟨hs1, hs2⟩, hend]
  rw [if_neg (by rw [toDescriptor_physicalStart]; omega),
      replacementParts_eq]
  have hnext : (if bytesToPages (x * 4096 - (toDescriptor s).physicalStart) ≠ 0
      then l₁.length + 1 + 1 else l₁.length + 1) = l₁.length + (if s.lo < x then 1 else 0) + 1 := by
    rw [toDescriptor_physicalStart, bytesToPages_sub]
    by_cases hlt : s.lo < x
    · rw [if_pos (show x - s.lo ≠ 0 by omega), if_pos hlt]
    · rw [if_neg (show ¬ x - s.lo ≠ 0 by omega), if_neg hlt]
  rcases replaceDescriptor_cases h (splitSeg s x y t) hne hpieces with
    ⟨a', heq, hholds, hlen⟩ | ⟨heq, hroom⟩
  · left
    rw [heq, hnext]
    exact ⟨a', rfl, hholds, hlen⟩
  · right
    rw [heq]
    exact ⟨rfl, hroom⟩

/-! ## §3. Coalescing. -/

theorem mergedDescriptor_toDescriptor (c : PageSeg) {n : PageSeg} (hn : Fits n) :
    PageAllocator.mergedDescriptor (toDescriptor c) (toDescriptor n)
      = toDescriptor ⟨c.lo, n.hi, c.tag⟩ := by
  unfold PageAllocator.mergedDescriptor
  rw [descriptorEnd_toDescriptor hn]
  dsimp only
  rw [toDescriptor_physicalStart, bytesToPages_sub]
  rfl

/-- The buffer after a merge: one descriptor less, and the merged one in its place. -/
theorem Holds.merged {a : PageAllocator} {l₁ l : List PageSeg} {c n : PageSeg}
    (h : Holds a (l₁ ++ c :: n :: l)) (hcn : c.lo ≤ n.lo) :
    Holds
      { descriptors := shiftDown
          (a.descriptors.set l₁.length (toDescriptor ⟨c.lo, n.hi, c.tag⟩))
          (a.descriptorCount - (l₁.length + 2)) (l₁.length + 2)
        descriptorCount := a.descriptorCount - 1 }
      (l₁ ++ ⟨c.lo, n.hi, c.tag⟩ :: l) := by
  have hcount := h.length_eq
  simp only [List.length_append, List.length_cons] at hcount
  have hn : Fits n := h.fits n (by simp)
  have hcl := h.count_le
  have hact := h.active
  rw [PageAllocator.activeDescriptors] at hact
  refine ⟨?_, ?_, ?_⟩
  · show (shiftDown _ _ _).take (a.descriptorCount - 1) = _
    have hrem := take_remove
      (a.descriptors.set l₁.length (toDescriptor ⟨c.lo, n.hi, c.tag⟩))
      (l₁.length + 1) a.descriptorCount (by omega) (by rw [List.length_set]; omega)
    have htake : ∀ k, (a.descriptors.set l₁.length
          (toDescriptor ⟨c.lo, n.hi, c.tag⟩)).take k
        = (a.descriptors.take k).set l₁.length
          (toDescriptor ⟨c.lo, n.hi, c.tag⟩) := fun k => List.take_set ..
    rw [hrem, htake, htake, hact,
        show a.descriptors.take (l₁.length + 1)
          = (a.descriptors.take a.descriptorCount).take (l₁.length + 1) by
            rw [List.take_take, Nat.min_eq_left (by omega)],
        hact, List.map_append, List.map_cons, List.map_cons]
    have hA : (l₁.map toDescriptor).length = l₁.length := List.length_map _
    simp [List.take_append, List.drop_append,
      List.take_of_length_le (show (l₁.map toDescriptor).length ≤ l₁.length + 1 by omega),
      show l₁.length + 1 + 1 - l₁.length = 2 by omega]
    omega
  · show a.descriptorCount - 1 ≤ (shiftDown _ _ _).length
    rw [shiftDown_length, List.length_set]
    omega
  · intro s hs
    rcases List.mem_append.mp hs with hs | hs
    · exact h.fits s (List.mem_append_left _ hs)
    · rcases List.mem_cons.mp hs with rfl | hs
      · -- the merged segment ends where the right one did
        have h1 := hn.1
        exact ⟨by show c.lo < n.hi; omega, hn.2⟩
      · exact h.fits s (by simp [hs])

/-- The loop of `coalesce` is one pass of joining neighbours.  The induction is
on the fuel; what lies before the index is final. -/
theorem coalesceLoop_holds (fuel : Nat) {a : PageAllocator} {l₁ l₂ : List PageSeg} {c : PageSeg}
    (h : Holds a (l₁ ++ c :: l₂)) (hlay : Layered (c :: l₂)) (hfuel : l₂.length ≤ fuel) :
    Holds (PageAllocator.coalesceLoop fuel a l₁.length) (l₁ ++ fuseFrom c l₂)
      ∧ (PageAllocator.coalesceLoop fuel a l₁.length).descriptors.length
          = a.descriptors.length := by
  induction fuel generalizing a l₁ c l₂ with
  | zero =>
      have hnil : l₂ = [] := List.length_eq_zero_iff.mp (by omega)
      subst hnil
      exact ⟨h, rfl⟩
  | succ fuel ih =>
      have hcount := h.length_eq
      simp only [List.length_append, List.length_cons] at hcount
      unfold PageAllocator.coalesceLoop
      cases l₂ with
      | nil =>
          simp only [List.length_nil] at hcount
          rw [if_neg (by omega)]
          exact ⟨h, rfl⟩
      | cons n l =>
          simp only [List.length_cons] at hcount hfuel
          have hc : Fits c := h.fits_mid
          have hn : Fits n := h.fits n (by simp)
          have hcn := (List.pairwise_cons.mp hlay.sorted).1 n List.mem_cons_self
          have h' : Holds a ((l₁ ++ [c]) ++ n :: l) := by
            rw [List.append_assoc]
            exact h
          have hnext : a.descriptorAt (l₁.length + 1) = toDescriptor n := by
            have := h'.descriptorAt_eq
            rw [List.length_append, List.length_singleton] at this
            exact this
          rw [if_pos (by omega), h.descriptorAt_eq, hnext]
          by_cases hj : Joins c n
          · -- the merged descriptor is compared again, at the same index
            rw [if_pos ((compatible_toDescriptor hc).mpr hj), mergedDescriptor_toDescriptor c hn,
                fuseFrom, if_pos hj]
            have hrec := ih (h.merged hcn.1) (hlay.join hj) (by omega)
            refine ⟨hrec.1, ?_⟩
            rw [hrec.2]
            show (shiftDown _ _ _).length = _
            rw [shiftDown_length, List.length_set]
          · rw [if_neg (fun hc' => hj ((compatible_toDescriptor hc).mp hc')), fuseFrom, if_neg hj]
            have hrec := ih h' hlay.tail (by omega)
            rw [List.length_append, List.length_singleton] at hrec
            rw [show l₁ ++ c :: fuseFrom n l = (l₁ ++ [c]) ++ fuseFrom n l by simp]
            exact hrec

/-- **`coalesce` joins neighbours in one pass.** -/
theorem coalesce_holds {a : PageAllocator} {l : List PageSeg} (h : Holds a l)
    (hlay : Layered l) :
    Holds a.coalesce (fuse l) ∧ a.coalesce.descriptors.length = a.descriptors.length := by
  have hcount := h.length_eq
  unfold PageAllocator.coalesce
  cases l with
  | nil =>
      rw [hcount]
      exact ⟨h, rfl⟩
  | cons c l =>
      rw [hcount]
      have hstart : Holds a ([] ++ c :: l) := h
      exact coalesceLoop_holds _ hstart hlay (by simp)

/-! ## §4. Carving. -/

/-- What a carve leaves: the carved list, or, when the buffer ran out, some
other tidy list. -/
def CarveResult (a : PageAllocator) (result : Except MemoryError Unit × PageAllocator)
    (l : List PageSeg) : Prop :=
  result.2.descriptors.length = a.descriptors.length
  ∧ ((result.1 = .ok () ∧ Holds result.2 l ∧ Tidy l)
    ∨ (result.1 = .error .bufferTooSmall ∧ ∃ l', Holds result.2 l' ∧ Tidy l'))

/-- The pieces of a split that a carve loop has finished with. -/
def splitDone (s : PageSeg) (x y : Nat) (t : EfiMemoryType) : List PageSeg :=
  (if s.lo < x then [⟨s.lo, x, s.tag⟩] else []) ++ [⟨x, y, t⟩]

/-- The piece that it meets next, if there is one. -/
def splitAhead (s : PageSeg) (y : Nat) : List PageSeg :=
  if y < s.hi then [⟨y, s.hi, s.tag⟩] else []

theorem splitSeg_eq (s : PageSeg) (x y : Nat) (t : EfiMemoryType) :
    splitSeg s x y t = splitDone s x y t ++ splitAhead s y := by
  unfold splitSeg splitDone splitAhead
  rw [List.append_assoc]
  rfl

theorem splitDone_length (s : PageSeg) (x y : Nat) (t : EfiMemoryType) :
    (splitDone s x y t).length = (if s.lo < x then 1 else 0) + 1 := by
  unfold splitDone
  split <;> rfl

/-- The piece ahead is behind the range: the carve ends in front of it. -/
theorem splitAhead_append_carveWithin (elig : EfiMemoryType → Bool) {x y : Nat} (t : EfiMemoryType)
    {s : PageSeg} {l : List PageSeg} (h : Tidy (s :: l)) (h1 : ¬ s.hi ≤ x) (hxy : x < y)
    (room : Nat) :
    carveWithin elig x y t room (splitAhead s (min s.hi y) ++ l)
      = ((carveWithin elig x y t room l).1,
          splitAhead s (min s.hi y) ++ (carveWithin elig x y t room l).2) := by
  unfold splitAhead
  by_cases hy : min s.hi y < s.hi
  · have hrest : carveWithin elig x y t room l = (true, l) := by
      apply carveWithin_of_le hxy room h.tail.nonempty
      intro u hu
      have := h.head_le u hu
      omega
    rw [if_pos hy, hrest, List.singleton_append, carveWithin]
    dsimp only
    rw [if_neg h1, if_pos (by omega)]
  · rw [if_neg hy]
    rfl

/-- The outcome of a carve loop, from the flag of the bounded carve. -/
def carveOutcome : Bool → Except MemoryError Unit
  | true  => .ok ()
  | false => .error .bufferTooSmall

/-- **A carve loop is a carve bounded by the free slots.**  Induction on the
fuel: the index rises in every pass and never passes the buffer length. -/
theorem carveLoop_within (elig : EfiMemoryType → Bool) {x y : Nat} (t : EfiMemoryType)
    (hxy : x < y) (fuel : Nat) {a : PageAllocator} {l₁ l₂ : List PageSeg} {room : Nat}
    (h : Holds a (l₁ ++ l₂)) (htidy : Tidy (l₁ ++ l₂))
    (hfuel : a.descriptors.length ≤ fuel + l₁.length)
    (hroom : (l₁ ++ l₂).length + room = a.descriptors.length) :
    ∃ a', PageAllocator.carveLoop elig (x * 4096) (y * 4096) t fuel a l₁.length
          = (carveOutcome (carveWithin elig x y t room l₂).1, a')
      ∧ Holds a' (l₁ ++ (carveWithin elig x y t room l₂).2)
      ∧ Tidy (l₁ ++ (carveWithin elig x y t room l₂).2)
      ∧ a'.descriptors.length = a.descriptors.length := by
  induction fuel generalizing a l₁ l₂ room with
  | zero =>
      have hcount := h.length_eq
      have hcl := h.count_le
      rw [List.length_append] at hcount
      have hnil : l₂ = [] := List.length_eq_zero_iff.mp (by omega)
      subst hnil
      exact ⟨a, rfl, h, htidy, rfl⟩
  | succ fuel ih =>
      have hcount := h.length_eq
      rw [List.length_append] at hcount
      unfold PageAllocator.carveLoop
      cases l₂ with
      | nil =>
          simp only [List.length_nil] at hcount
          rw [if_neg (by omega)]
          exact ⟨a, rfl, h, htidy, rfl⟩
      | cons s l =>
          simp only [List.length_cons] at hcount
          have hs : Fits s := h.fits_mid
          have htail : Tidy (s :: l) := by
            obtain ⟨hsort, hne⟩ := htidy
            exact ⟨(List.pairwise_append.mp hsort).2.1,
              fun u hu => hne u (List.mem_append_right _ hu)⟩
          -- passing over `s` moves it to the finished part
          have hskip : ∃ a', PageAllocator.carveLoop elig (x * 4096) (y * 4096) t fuel a
                (l₁.length + 1) = (carveOutcome (carveWithin elig x y t room l).1, a')
              ∧ Holds a' (l₁ ++ s :: (carveWithin elig x y t room l).2)
              ∧ Tidy (l₁ ++ s :: (carveWithin elig x y t room l).2)
              ∧ a'.descriptors.length = a.descriptors.length := by
            have h' : Holds a ((l₁ ++ [s]) ++ l) := by simpa using h
            have hrec := ih h' (by simpa using htidy)
              (by rw [List.length_append, List.length_singleton]; omega) (by simpa using hroom)
            rw [List.length_append, List.length_singleton, List.append_assoc] at hrec
            exact hrec
          rw [if_pos (by omega), h.descriptorAt_eq]
          simp only [descriptorEnd_toDescriptor hs]
          rw [carveWithin]
          by_cases h1 : s.hi ≤ x
          · rw [if_pos (by omega), if_pos h1]
            exact hskip
          · rw [if_neg (by omega), if_neg h1]
            by_cases h2 : y ≤ s.lo
            · rw [if_pos (by rw [toDescriptor_physicalStart]; omega), if_pos h2]
              exact ⟨a, rfl, h, htidy, rfl⟩
            · rw [if_neg (by rw [toDescriptor_physicalStart]; omega), if_neg h2]
              by_cases he : elig s.tag = true
              · rw [if_neg (by simpa using he), if_pos he]
                have hne := hs.1
                have hov : bytesToPages (min (s.hi * 4096) (y * 4096)
                      - max (toDescriptor s).physicalStart (x * 4096))
                    = min s.hi y - max s.lo x := by
                  rw [toDescriptor_physicalStart,
                      show min (s.hi * 4096) (y * 4096) = min s.hi y * 4096 by omega,
                      show max (s.lo * 4096) (x * 4096) = max s.lo x * 4096 by omega,
                      bytesToPages_sub]
                have hst : max (toDescriptor s).physicalStart (x * 4096)
                    = max s.lo x * 4096 := by
                  rw [toDescriptor_physicalStart]
                  omega
                rw [hov, hst]
                dsimp only
                rw [List.length_append, List.length_cons] at hroom
                rcases replaceRange_cases h t (x := max s.lo x) (y := min s.hi y)
                    (by omega) (by omega) (by omega) with ⟨a', heq, hholds, hlen⟩ | ⟨heq, hfull⟩
                · rw [heq]
                  have hfits := hholds.count_le
                  rw [hholds.length_eq, hlen, List.length_append, List.length_append] at hfits
                  have hpieces : (splitSeg s (max s.lo x) (min s.hi y) t).length ≤ room + 1 := by
                    omega
                  rw [if_pos hpieces]
                  have htidy' := htidy.split t (a := max s.lo x) (b := min s.hi y)
                    (by omega) (by omega) (by omega)
                  -- what is done goes to the finished part, the rest is met next
                  have htotal : (l₁ ++ (splitSeg s (max s.lo x) (min s.hi y) t ++ l)).length
                      + (room + 1 - (splitSeg s (max s.lo x) (min s.hi y) t).length)
                      = a'.descriptors.length := by
                    rw [List.length_append, List.length_append, hlen]
                    omega
                  rw [splitSeg_eq] at hholds htidy' htotal ⊢
                  rw [List.append_assoc (splitDone _ _ _ _), ← List.append_assoc l₁]
                    at hholds htidy' htotal
                  have hidx : (l₁ ++ splitDone s (max s.lo x) (min s.hi y) t).length
                      = l₁.length + (if s.lo < max s.lo x then 1 else 0) + 1 := by
                    rw [List.length_append, splitDone_length, Nat.add_assoc]
                  obtain ⟨b, hloop, hb, hbtidy, hblen⟩ :=
                    ih hholds htidy' (by rw [hidx, hlen]; omega) htotal
                  rw [splitAhead_append_carveWithin elig t htail h1 hxy] at hloop hb hbtidy
                  rw [hidx] at hloop
                  rw [List.append_assoc] at hb hbtidy
                  rw [List.append_assoc (splitDone _ _ _ _)]
                  exact ⟨b, hloop, hb, hbtidy, hblen.trans hlen⟩
                · have hpieces : ¬ (splitSeg s (max s.lo x) (min s.hi y) t).length ≤ room + 1 := by
                    omega
                  rw [heq, if_neg hpieces]
                  exact ⟨a, rfl, h, htidy, rfl⟩
              · rw [if_pos (by simpa using he), if_neg he]
                exact hskip

/-- **A carve loop retags the eligible part of its range**, or fails. -/
theorem carveLoop_result (elig : EfiMemoryType → Bool) {x y : Nat} (t : EfiMemoryType)
    (hxy : x < y) (fuel : Nat) {a : PageAllocator} {l₁ l₂ : List PageSeg}
    (h : Holds a (l₁ ++ l₂)) (htidy : Tidy (l₁ ++ l₂))
    (hfuel : a.descriptors.length ≤ fuel + l₁.length) :
    CarveResult a
      (PageAllocator.carveLoop elig (x * 4096) (y * 4096) t fuel a l₁.length)
      (l₁ ++ carve elig x y t l₂) := by
  have hcl := h.count_le
  rw [h.length_eq] at hcl
  obtain ⟨room, hroom⟩ := Nat.exists_eq_add_of_le hcl
  obtain ⟨a', heq, hholds, htidy', hlen⟩ :=
    carveLoop_within elig t hxy fuel h htidy hfuel hroom.symm
  rw [heq]
  refine ⟨hlen, ?_⟩
  cases hflag : (carveWithin elig x y t room l₂).1 with
  | true =>
      rw [carveWithin_eq_carve hflag] at hholds htidy'
      exact Or.inl ⟨rfl, hholds, htidy'⟩
  | false => exact Or.inr ⟨rfl, _, hholds, htidy'⟩

/-! ## §5. Retyping an exact range. -/

/-- A covering descriptor is a segment of the list that contains the range. -/
theorem coveringIndex_ok {l : List PageSeg} {start stop i j : Nat} (hfits : ∀ s ∈ l, Fits s)
    (h : PageAllocator.coveringIndex start stop (l.map toDescriptor) i = .ok j) :
    ∃ l₁ s l₂, l = l₁ ++ s :: l₂ ∧ j = i + l₁.length
      ∧ s.lo * 4096 ≤ start ∧ stop ≤ s.hi * 4096 := by
  induction l generalizing i with
  | nil => cases h
  | cons s l ih =>
      rw [List.map_cons, PageAllocator.coveringIndex,
          descriptorEnd_toDescriptor (hfits s List.mem_cons_self)] at h
      dsimp only at h
      split at h
      next hcov =>
        obtain rfl := Except.ok.inj h
        exact ⟨[], s, l, rfl, rfl, hcov.1, hcov.2⟩
      next =>
        obtain ⟨l₁, u, l₂, rfl, rfl, h1, h2⟩ :=
          ih (fun u hu => hfits u (List.mem_cons_of_mem _ hu)) h
        refine ⟨s :: l₁, u, l₂, rfl, ?_, h1, h2⟩
        rw [List.length_cons]
        omega

/-- The search finds the segment that contains the range: every segment before
it ends where the range starts, or earlier. -/
theorem coveringIndex_eq {l₁ l₂ : List PageSeg} {s : PageSeg} {start stop : Nat}
    (hfits : ∀ u ∈ l₁ ++ s :: l₂, Fits u) (htidy : Tidy (l₁ ++ s :: l₂))
    (h1 : s.lo * 4096 ≤ start) (hlt : start < stop) (h2 : stop ≤ s.hi * 4096) (i : Nat) :
    PageAllocator.coveringIndex start stop ((l₁ ++ s :: l₂).map toDescriptor) i
      = .ok (i + l₁.length) := by
  induction l₁ generalizing i with
  | nil =>
      rw [List.nil_append, List.map_cons, PageAllocator.coveringIndex,
          descriptorEnd_toDescriptor (hfits s (by simp))]
      dsimp only
      rw [toDescriptor_physicalStart, if_pos ⟨h1, h2⟩]
      rfl
  | cons u l₁ ih =>
      have hu := htidy.head_le s (by simp)
      rw [List.cons_append, List.map_cons, PageAllocator.coveringIndex,
          descriptorEnd_toDescriptor (hfits u (by simp))]
      dsimp only
      rw [if_neg (by omega), ih (fun v hv => hfits v (List.mem_cons_of_mem _ hv)) htidy.tail]
      rw [List.length_cons, show i + 1 + l₁.length = i + (l₁.length + 1) by omega]

/-- **An exact range inside one segment**: the type is checked, then the segment
is split and the list coalesced; the split needs room for its pieces. -/
theorem retypeExactRange_at {a : PageAllocator} {l₁ l₂ : List PageSeg} {s : PageSeg}
    (h : Holds a (l₁ ++ s :: l₂)) (htidy : Tidy (l₁ ++ s :: l₂)) {x n : Nat} (hn : 0 < n)
    (h1 : s.lo ≤ x) (h2 : x + n ≤ s.hi) (refuse : EfiMemoryType → Option MemoryError)
    (t : EfiMemoryType) :
    (∃ e, refuse s.tag = some e ∧ a.retypeExactRange (x * 4096) n refuse t = (.error e, a))
    ∨ (refuse s.tag = none
        ∧ (l₁ ++ (splitSeg s x (x + n) t ++ l₂)).length ≤ a.descriptors.length
        ∧ ∃ a', a.retypeExactRange (x * 4096) n refuse t = (.ok (), a')
            ∧ Holds a' (fuse (l₁ ++ (splitSeg s x (x + n) t ++ l₂)))
            ∧ a'.descriptors.length = a.descriptors.length)
    ∨ (refuse s.tag = none
        ∧ a.descriptors.length < (l₁ ++ (splitSeg s x (x + n) t ++ l₂)).length
        ∧ a.retypeExactRange (x * 4096) n refuse t = (.error .bufferTooSmall, a)) := by
  obtain ⟨hs1, hs2⟩ := h.fits_mid
  have hend : checkedEnd (x * 4096) n = .ok ((x + n) * 4096) :=
    checkedEnd_page.mpr ⟨by omega, rfl⟩
  have hcov : a.findDescriptorCovering (x * 4096) ((x + n) * 4096) = .ok l₁.length := by
    rw [PageAllocator.findDescriptorCovering, h.active,
        coveringIndex_eq h.fits htidy (by omega) (by omega) (by omega), Nat.zero_add]
  unfold PageAllocator.retypeExactRange
  rw [hend, show (Except.ok ((x + n) * 4096) >>= fun rangeEnd =>
        a.findDescriptorCovering (x * 4096) rangeEnd) = .ok l₁.length from hcov]
  dsimp only
  rw [h.descriptorAt_eq, toDescriptor_type]
  cases href : refuse s.tag with
  | some e => exact Or.inl ⟨e, rfl, rfl⟩
  | none =>
      dsimp only
      right
      rcases replaceRange_cases h t (x := x) (y := x + n) h1 (by omega) h2 with
        ⟨a', heq, hholds, hlen⟩ | ⟨heq, hroom⟩
      · left
        rw [show x + n - x = n by omega] at heq
        rw [heq]
        have htidy' := htidy.split t (a := x) (b := x + n) h1 (by omega) h2
        obtain ⟨hco, hcolen⟩ := coalesce_holds hholds htidy'.layered
        have hroom := hholds.count_le
        rw [hholds.length_eq, hlen] at hroom
        exact ⟨rfl, hroom, _, rfl, hco, hcolen.trans hlen⟩
      · right
        rw [show x + n - x = n by omega] at heq
        rw [heq]
        refine ⟨rfl, ?_, rfl⟩
        rw [List.length_append, List.length_append]
        omega

/-- **`allocate_exact_range` and `free_exact_range` on segments**: on success
one segment, of a type that is not refused, contained the range and was split
and the list coalesced; on failure nothing changed. -/
theorem retypeExactRange_cases {a : PageAllocator} {l : List PageSeg} (h : Holds a l)
    (htidy : Tidy l) {x n : Nat} (hn : 0 < n) (refuse : EfiMemoryType → Option MemoryError)
    (t : EfiMemoryType) :
    (∃ a' l₁ s l₂, a.retypeExactRange (x * 4096) n refuse t = (.ok (), a')
        ∧ l = l₁ ++ s :: l₂ ∧ s.lo ≤ x ∧ x + n ≤ s.hi ∧ refuse s.tag = none
        ∧ (l₁ ++ (splitSeg s x (x + n) t ++ l₂)).length ≤ a.descriptors.length
        ∧ Holds a' (fuse (l₁ ++ (splitSeg s x (x + n) t ++ l₂)))
        ∧ a'.descriptors.length = a.descriptors.length)
    ∨ (∃ e, a.retypeExactRange (x * 4096) n refuse t = (.error e, a)) := by
  cases hidx : (do let rangeEnd ← checkedEnd (x * 4096) n
                   a.findDescriptorCovering (x * 4096) rangeEnd) with
  | error e =>
      unfold PageAllocator.retypeExactRange
      rw [hidx]
      exact Or.inr ⟨e, rfl⟩
  | ok index =>
      obtain ⟨rangeEnd, hend, hcov⟩ := bind_eq_ok.mp hidx
      obtain ⟨_, rfl⟩ := checkedEnd_page.mp hend
      rw [PageAllocator.findDescriptorCovering, h.active] at hcov
      obtain ⟨l₁, s, l₂, rfl, _, h1, h2⟩ := coveringIndex_ok h.fits hcov
      have hlo : s.lo ≤ x := by omega
      have hhi : x + n ≤ s.hi := by omega
      rcases retypeExactRange_at h htidy hn hlo hhi refuse t with
        ⟨e, _, heq⟩ | ⟨href, hroom, a', heq, hholds, hlen⟩ | ⟨_, _, heq⟩
      · exact Or.inr ⟨e, heq⟩
      · exact Or.inl ⟨a', l₁, s, l₂, heq, rfl, hlo, hhi, href, hroom, hholds, hlen⟩
      · exact Or.inr ⟨_, heq⟩

end RustFirmware.Memory
