/-
  RustFirmware.Lib.Canonical
  ──────────────────────────
  **CANONICAL SEGMENT LISTS.**

  A tidy list in which no two neighbours can be joined is the ONLY such list
  with its denotation.  Three consequences, in the order of the file:

    • a run of equally tagged pages lies in one segment (§2),
    • two canonical lists with one denotation are equal (§3),
    • how many segments a split needs depends on the denotation OUTSIDE the
      split range alone (§4): give the range a tag that occurs nowhere else,
      and the split list is canonical again.
-/
import Mathlib.Data.List.Chain
import RustFirmware.Lib.Segments

namespace RustFirmware.Lib

variable {α β : Type}

/-! ## §1. The invariant. -/

/-- Tidy, and no two neighbours can be joined. -/
structure Canonical (l : List (Seg α)) : Prop extends Tidy l where
  fused : l.IsChain (fun s t => ¬ Joins s t)

theorem Canonical.tail {s : Seg α} {l : List (Seg α)} (h : Canonical (s :: l)) : Canonical l :=
  ⟨h.toTidy.tail, h.fused.tail⟩

/-- One pass of joining makes a tidy list canonical. -/
theorem Tidy.canonical_fuse [DecidableEq α] {l : List (Seg α)} (h : Tidy l) :
    Canonical (fuse l) :=
  ⟨h.layered.tidy_fuse, fuse_isChain l⟩

/-- Two segments of a tidy list with a page in common are the same segment. -/
theorem Tidy.eq_of_has {l : List (Seg α)} (h : Tidy l) {s t : Seg α} (hs : s ∈ l) (ht : t ∈ l)
    {p : Nat} (hsp : s.Has p) (htp : t.Has p) : s = t := by
  induction l with
  | nil => cases hs
  | cons u l ih =>
      have hle := h.head_le
      rcases List.mem_cons.mp hs with rfl | hsl
      · rcases List.mem_cons.mp ht with rfl | htl
        · rfl
        · have := hle t htl
          omega
      · rcases List.mem_cons.mp ht with rfl | htl
        · have := hle s hsl
          omega
        · exact ih h.tail hsl htl

/-! ## §2. Runs of equally tagged pages. -/

/-- **A run lies in one segment.**  The induction follows the list up to the
segment that holds the first page; if that one ended inside the run, its
neighbour would start right there with the same tag. -/
theorem Canonical.run_in_segment {l : List (Seg α)} (h : Canonical l) {t : α} {x n : Nat}
    (hn : 0 < n) (hrun : ∀ p, x ≤ p → p < x + n → denote l p = some t) :
    ∃ l₁ s l₂, l = l₁ ++ s :: l₂ ∧ s.lo ≤ x ∧ x + n ≤ s.hi ∧ s.tag = t := by
  induction l with
  | nil =>
      have hx := hrun x (Nat.le_refl x) (by omega)
      cases hx
  | cons s l ih =>
      have hs := h.nonempty s List.mem_cons_self
      have hx := hrun x (Nat.le_refl x) (by omega)
      by_cases hhas : s.Has x
      · have htag : s.tag = t := by
          rw [denote, if_pos hhas] at hx
          exact Option.some.inj hx
        refine ⟨[], s, l, rfl, hhas.1, ?_, htag⟩
        by_contra hshort
        -- the page behind `s` is in the run, so it lies in a later segment
        have hnext := hrun s.hi (by omega) (by omega)
        have hout : ¬ s.Has s.hi := fun hc => Nat.lt_irrefl _ hc.2
        rw [denote, if_neg hout] at hnext
        cases l with
        | nil => cases hnext
        | cons c l =>
            obtain ⟨u, hu, huhas, _⟩ := mem_of_denote hnext
            have hc := h.head_le c List.mem_cons_self
            have hlow : c.lo ≤ s.hi := by
              rcases List.mem_cons.mp hu with rfl | hu
              · exact huhas.1
              · have hcu := h.toTidy.tail.head_le u hu
                have hcn := h.nonempty c (by simp)
                omega
            have hcn := h.nonempty c (by simp)
            have hctag := h.toTidy.tail.denote_mem (s := c) List.mem_cons_self
              (p := s.hi) ⟨hlow, by omega⟩
            rw [hctag] at hnext
            have hjoin := (List.isChain_cons_cons.mp h.fused).1
            exact hjoin ⟨htag.trans (Option.some.inj hnext).symm, hlow⟩
      · have habove : s.hi ≤ x := by
          by_contra hbelow
          rw [h.toTidy.denote_lt (by omega)] at hx
          cases hx
        have hrest : ∀ p, x ≤ p → p < x + n → denote l p = some t := by
          intro p hp1 hp2
          have hp := hrun p hp1 hp2
          rw [denote, if_neg (fun hc => by have := hc.2; omega)] at hp
          exact hp
        obtain ⟨l₁, u, l₂, rfl, hlo, hhi, htag⟩ := ih h.tail hrest
        exact ⟨s :: l₁, u, l₂, rfl, hlo, hhi, htag⟩

/-- The page behind a segment does not have its tag. -/
theorem Canonical.denote_hi_ne {l : List (Seg α)} (h : Canonical l) {s : Seg α} (hs : s ∈ l) :
    denote l s.hi ≠ some s.tag := by
  intro hnext
  have hne := h.nonempty s hs
  obtain ⟨l₁, u, l₂, rfl, hlo, hhi, _⟩ := h.run_in_segment (x := s.lo) (n := s.hi - s.lo + 1)
    (t := s.tag) (by omega) (by
      intro p hp1 hp2
      by_cases hp : p < s.hi
      · exact h.toTidy.denote_mem hs ⟨hp1, hp⟩
      · rw [show p = s.hi by omega]
        exact hnext)
  have hsu : s = u :=
    h.toTidy.eq_of_has hs (by simp) (p := s.lo) ⟨Nat.le_refl _, hne⟩ ⟨hlo, by omega⟩
  subst hsu
  omega

/-- Nor does the page in front of it. -/
theorem Canonical.denote_pred_ne {l : List (Seg α)} (h : Canonical l) {s : Seg α} (hs : s ∈ l)
    (hpos : 0 < s.lo) : denote l (s.lo - 1) ≠ some s.tag := by
  intro hprev
  have hne := h.nonempty s hs
  obtain ⟨l₁, u, l₂, rfl, hlo, hhi, _⟩ := h.run_in_segment (x := s.lo - 1)
    (n := s.hi - s.lo + 1) (t := s.tag) (by omega) (by
      intro p hp1 hp2
      by_cases hp : s.lo ≤ p
      · exact h.toTidy.denote_mem hs ⟨hp, by omega⟩
      · rw [show p = s.lo - 1 by omega]
        exact hprev)
  have hsu : s = u :=
    h.toTidy.eq_of_has hs (by simp) (p := s.lo) ⟨Nat.le_refl _, hne⟩ ⟨by omega, by omega⟩
  subst hsu
  omega

/-! ## §3. The denotation determines the list. -/

/-- What the tail of a tidy list denotes. -/
theorem Tidy.denote_tail {s : Seg α} {l : List (Seg α)} (h : Tidy (s :: l)) (p : Nat) :
    denote l p = if p < s.hi then none else denote (s :: l) p := by
  by_cases hp : p < s.hi
  · rw [if_pos hp]
    apply denote_eq_none
    intro t ht hhas
    have := h.head_le t ht
    omega
  · rw [if_neg hp, denote, if_neg (fun hc => hp hc.2)]

/-- **Canonical lists are determined by what they denote.** -/
theorem Canonical.ext {l l' : List (Seg α)} (h : Canonical l) (h' : Canonical l')
    (heq : denote l = denote l') : l = l' := by
  induction l generalizing l' with
  | nil =>
      cases l' with
      | nil => rfl
      | cons u l' =>
          have hu := h'.nonempty u List.mem_cons_self
          have hpage := h'.toTidy.denote_mem (s := u) List.mem_cons_self ⟨Nat.le_refl _, hu⟩
          rw [← heq] at hpage
          cases hpage
  | cons s l ih =>
      have hs := h.nonempty s List.mem_cons_self
      have hspage := h.toTidy.denote_mem (s := s) List.mem_cons_self ⟨Nat.le_refl _, hs⟩
      cases l' with
      | nil =>
          rw [heq] at hspage
          cases hspage
      | cons u l' =>
          have hu := h'.nonempty u List.mem_cons_self
          have hupage := h'.toTidy.denote_mem (s := u) List.mem_cons_self ⟨Nat.le_refl _, hu⟩
          -- neither list has a page below its first segment
          have hlo : s.lo = u.lo := by
            apply Nat.le_antisymm
            · by_contra hlt
              rw [← heq, h.toTidy.denote_lt (by omega)] at hupage
              cases hupage
            · by_contra hlt
              rw [heq, h'.toTidy.denote_lt (by omega)] at hspage
              cases hspage
          have htag : s.tag = u.tag := by
            rw [heq, hlo, hupage] at hspage
            exact (Option.some.inj hspage).symm
          have hhi : s.hi = u.hi := by
            apply Nat.le_antisymm
            · by_contra hlt
              apply h'.denote_hi_ne (s := u) List.mem_cons_self
              rw [← heq, ← htag]
              exact h.toTidy.denote_mem List.mem_cons_self ⟨by omega, by omega⟩
            · by_contra hlt
              apply h.denote_hi_ne (s := s) List.mem_cons_self
              rw [heq, htag]
              exact h'.toTidy.denote_mem List.mem_cons_self ⟨by omega, by omega⟩
          have hsu : s = u := by
            cases s
            cases u
            simp_all
          subst hsu
          have hrest : denote l = denote l' := by
            funext p
            rw [h.toTidy.denote_tail, h'.toTidy.denote_tail, heq]
          rw [ih h.tail h'.tail hrest]

/-! ## §4. The size of a split. -/

/-- A segment with its tag changed. -/
def Seg.retag (f : α → β) (s : Seg α) : Seg β := ⟨s.lo, s.hi, f s.tag⟩

theorem denote_retag (f : α → β) (l : List (Seg α)) (p : Nat) :
    denote (l.map (Seg.retag f)) p = (denote l p).map f := by
  induction l with
  | nil => rfl
  | cons s l ih =>
      rw [List.map_cons, denote, denote, ih]
      show (if s.lo ≤ p ∧ p < s.hi then some (f s.tag) else _) = _
      by_cases hs : s.Has p
      · rw [if_pos hs, if_pos hs]
        rfl
      · rw [if_neg hs, if_neg hs]

/-- Changing the tags by an injective function keeps a list canonical. -/
theorem Canonical.retag {f : α → β} (hf : ∀ x y, f x = f y → x = y) {l : List (Seg α)}
    (h : Canonical l) : Canonical (l.map (Seg.retag f)) := by
  constructor
  · constructor
    · rw [List.pairwise_map]
      exact h.sorted
    · intro s hs
      obtain ⟨u, hu, rfl⟩ := List.mem_map.mp hs
      exact h.nonempty u hu
  · rw [List.isChain_map]
    refine h.fused.imp ?_
    intro s t hst hjoin
    exact hst ⟨hf _ _ hjoin.1, hjoin.2⟩

/-- How many pieces a split makes: the new piece and what is left on each side. -/
theorem splitSeg_length (s : Seg α) (a b : Nat) (t : α) :
    (splitSeg s a b t).length = 1 + (if s.lo < a then 1 else 0) + (if b < s.hi then 1 else 0) := by
  unfold splitSeg
  split <;> split <;> rfl

/-- Splitting off a piece with a tag that occurs nowhere keeps a list canonical. -/
theorem Canonical.split_fresh {l₁ l₂ : List (Seg α)} {s : Seg α}
    (h : Canonical (l₁ ++ s :: l₂)) {a b : Nat} {z : α} (hz : ∀ u ∈ l₁ ++ s :: l₂, u.tag ≠ z)
    (h1 : s.lo ≤ a) (h2 : a < b) (h3 : b ≤ s.hi) :
    Canonical (l₁ ++ (splitSeg s a b z ++ l₂)) := by
  refine ⟨h.toTidy.split z h1 h2 h3, ?_⟩
  obtain ⟨hfront, hrest, hcross⟩ := List.isChain_append.mp h.fused
  obtain ⟨hhead, hback⟩ := List.isChain_cons.mp hrest
  have hsz : s.tag ≠ z := hz s (by simp)
  -- behind the new piece: either the rest of `s` or the old neighbour
  have hright : ∀ y ∈ ((if b < s.hi then [(⟨b, s.hi, s.tag⟩ : Seg α)] else []) ++ l₂).head?,
      ¬ Joins (⟨a, b, z⟩ : Seg α) y := by
    intro y hy hjoin
    by_cases hb : b < s.hi
    · rw [if_pos hb] at hy
      obtain rfl : (⟨b, s.hi, s.tag⟩ : Seg α) = y := by simpa using hy
      exact hsz hjoin.1.symm
    · rw [if_neg hb, List.nil_append] at hy
      exact hz y (by simp [List.mem_of_mem_head? hy]) hjoin.1.symm
  have htail : ((if b < s.hi then [(⟨b, s.hi, s.tag⟩ : Seg α)] else []) ++ l₂).IsChain
      (fun s t => ¬ Joins s t) := by
    by_cases hb : b < s.hi
    · rw [if_pos hb]
      exact List.isChain_cons.mpr ⟨hhead, hback⟩
    · rw [if_neg hb]
      exact hback
  have hmid : List.IsChain (fun s t => ¬ Joins s t)
      ((⟨a, b, z⟩ : Seg α) :: ((if b < s.hi then [⟨b, s.hi, s.tag⟩] else []) ++ l₂)) :=
    List.isChain_cons.mpr ⟨hright, htail⟩
  unfold splitSeg
  rw [List.append_assoc, List.cons_append]
  by_cases ha : s.lo < a
  · rw [if_pos ha]
    apply List.isChain_append.mpr
    refine ⟨hfront, List.isChain_cons.mpr ⟨?_, hmid⟩, ?_⟩
    · intro y hy hjoin
      obtain rfl : (⟨a, b, z⟩ : Seg α) = y := by simpa using hy
      exact hsz hjoin.1
    · -- the left rest starts where `s` did
      intro x hx y hy hjoin
      obtain rfl : (⟨s.lo, a, s.tag⟩ : Seg α) = y := by simpa using hy
      exact hcross x hx s (by simp) hjoin
  · rw [if_neg ha, List.nil_append]
    apply List.isChain_append.mpr
    refine ⟨hfront, hmid, ?_⟩
    intro x hx y hy hjoin
    obtain rfl : (⟨a, b, z⟩ : Seg α) = y := by simpa using hy
    exact hz x (by simp [List.mem_of_mem_getLast? hx]) hjoin.1

/-- **The size of a split list depends on the outside alone**: two canonical
lists that agree outside `[a, b)` need the same number of segments once the
range has been split off. -/
theorem Canonical.split_length_eq {l₁ l₂ m₁ m₂ : List (Seg α)} {s u : Seg α}
    (hl : Canonical (l₁ ++ s :: l₂)) (hm : Canonical (m₁ ++ u :: m₂)) {a b : Nat} (t : α)
    (h1 : s.lo ≤ a) (h2 : a < b) (h3 : b ≤ s.hi) (h4 : u.lo ≤ a) (h5 : b ≤ u.hi)
    (hout : ∀ p, ¬ (a ≤ p ∧ p < b) →
      denote (l₁ ++ s :: l₂) p = denote (m₁ ++ u :: m₂) p) :
    (l₁ ++ (splitSeg s a b t ++ l₂)).length = (m₁ ++ (splitSeg u a b t ++ m₂)).length := by
  -- tags become `some`, so that `none` is fresh for the range
  have hinj : ∀ x y : α, some x = some y → x = y := fun _ _ => Option.some.inj
  have hfresh : ∀ l : List (Seg α), ∀ v ∈ l.map (Seg.retag some), v.tag ≠ none := by
    intro l v hv
    obtain ⟨w, _, rfl⟩ := List.mem_map.mp hv
    exact Option.some_ne_none _
  have key : ∀ {k₁ k₂ : List (Seg α)} {v : Seg α}, Canonical (k₁ ++ v :: k₂) → v.lo ≤ a →
      b ≤ v.hi → Canonical (k₁.map (Seg.retag some)
          ++ (splitSeg (v.retag some) a b none ++ k₂.map (Seg.retag some)))
        ∧ denote (k₁.map (Seg.retag some)
          ++ (splitSeg (v.retag some) a b none ++ k₂.map (Seg.retag some)))
          = paint (fun p => (denote (k₁ ++ v :: k₂) p).map some) a b none := by
    intro k₁ k₂ v hk hlo hhi
    have hcan := hk.retag hinj
    have hnone := hfresh (k₁ ++ v :: k₂)
    rw [List.map_append, List.map_cons] at hcan hnone
    refine ⟨hcan.split_fresh hnone hlo h2 hhi, ?_⟩
    rw [hcan.toTidy.denote_split none hlo h2 hhi]
    funext p
    unfold paint
    rw [← List.map_cons, ← List.map_append, denote_retag]
  obtain ⟨hcl, hdl⟩ := key hl h1 h3
  obtain ⟨hcm, hdm⟩ := key hm h4 h5
  have hsame := hcl.ext hcm (by
    rw [hdl, hdm]
    funext p
    unfold paint
    by_cases hp : a ≤ p ∧ p < b
    · rw [if_pos hp, if_pos hp]
    · rw [if_neg hp, if_neg hp]
      show (denote (l₁ ++ s :: l₂) p).map some = _
      rw [hout p hp])
  have hlen := congrArg List.length hsame
  simp only [List.length_append, List.length_map, splitSeg_length] at hlen ⊢
  exact hlen

end RustFirmware.Lib
