/-
  RustFirmware.Lib.Segments
  ─────────────────────────
  **SEGMENT LISTS AS PARTIAL MAPS.**

  A segment is a half-open interval `[lo, hi)` of page numbers with a tag.  A
  list of segments DENOTES a partial map from pages to tags; it is `Tidy` when
  its segments are non-empty, in ascending order and disjoint.

  Three edits, each with its meaning as a map:

      splitSeg   replace part of one segment      denote = paint (denote old)
      carve      retag the eligible part of a     denote = recolor (denote old)
                 range, across many segments
      fuse       join neighbours of equal tag     denote unchanged

  `fuse` also makes sense on lists that overlap (equal tags only): §6 says
  which pages it keeps.  Joining `[c.lo, c.hi)` with a later `[n.lo, n.hi)`
  gives `[c.lo, n.hi)`, so the page survives exactly when the LAST segment
  starting at or below it contains it.
-/
import Mathlib.Data.List.Basic
import Mathlib.Tactic.Common

namespace RustFirmware.Lib

/-- The interval `[lo, hi)` with a tag. -/
structure Seg (α : Type) where
  lo  : Nat
  hi  : Nat
  tag : α
  deriving Repr, DecidableEq

variable {α : Type}

/-! ## §1. Membership and denotation. -/

/-- Page `p` lies in the segment. -/
abbrev Seg.Has (s : Seg α) (p : Nat) : Prop := s.lo ≤ p ∧ p < s.hi

/-- The partial map a segment list stands for (first match). -/
def denote : List (Seg α) → Nat → Option α
  | [], _ => none
  | s :: l, p => if s.Has p then some s.tag else denote l p

/-- Non-empty segments, in ascending order, disjoint. -/
structure Tidy (l : List (Seg α)) : Prop where
  sorted   : l.Pairwise (fun s t => s.hi ≤ t.lo)
  nonempty : ∀ s ∈ l, s.lo < s.hi

theorem Tidy.nil : Tidy ([] : List (Seg α)) := ⟨List.Pairwise.nil, by simp⟩

theorem Tidy.tail {s : Seg α} {l : List (Seg α)} (h : Tidy (s :: l)) : Tidy l :=
  ⟨(List.pairwise_cons.mp h.sorted).2, fun t ht => h.nonempty t (List.mem_cons_of_mem _ ht)⟩

theorem Tidy.head_le {s : Seg α} {l : List (Seg α)} (h : Tidy (s :: l)) :
    ∀ t ∈ l, s.hi ≤ t.lo :=
  (List.pairwise_cons.mp h.sorted).1

theorem denote_eq_none {l : List (Seg α)} {p : Nat} (h : ∀ s ∈ l, ¬ s.Has p) :
    denote l p = none := by
  induction l with
  | nil => rfl
  | cons s l ih =>
      rw [denote, if_neg (h s List.mem_cons_self)]
      exact ih (fun t ht => h t (List.mem_cons_of_mem _ ht))

/-- Below its first segment a tidy list denotes nothing. -/
theorem Tidy.denote_lt {s : Seg α} {l : List (Seg α)} (h : Tidy (s :: l)) {p : Nat}
    (hp : p < s.lo) : denote (s :: l) p = none := by
  apply denote_eq_none
  intro t ht hhas
  have hs := h.nonempty s List.mem_cons_self
  rcases List.mem_cons.mp ht with rfl | ht
  · exact absurd hhas.1 (by omega)
  · have := h.head_le t ht
    exact absurd hhas.1 (by omega)

/-- Whatever a list denotes comes from one of its segments. -/
theorem mem_of_denote {l : List (Seg α)} {p : Nat} {t : α} (h : denote l p = some t) :
    ∃ s ∈ l, s.Has p ∧ s.tag = t := by
  induction l with
  | nil => simp [denote] at h
  | cons s l ih =>
      rw [denote] at h
      split at h
      next hhas => exact ⟨s, List.mem_cons_self, hhas, Option.some.inj h⟩
      next =>
        obtain ⟨u, hu, huh⟩ := ih h
        exact ⟨u, List.mem_cons_of_mem _ hu, huh⟩

/-- In a tidy list every segment speaks for its own pages. -/
theorem Tidy.denote_mem {l : List (Seg α)} (h : Tidy l) {s : Seg α} (hs : s ∈ l) {p : Nat}
    (hp : s.Has p) : denote l p = some s.tag := by
  induction l with
  | nil => simp at hs
  | cons u l ih =>
      rw [denote]
      rcases List.mem_cons.mp hs with rfl | hs
      · rw [if_pos hp]
      · have hle := h.head_le s hs
        rw [if_neg (fun hu => by have := hp.1; have := hu.2; omega)]
        exact ih h.tail hs

/-! ## §2. The two map updates. -/

/-- The map with every page of `[a, b)` set to `t`. -/
def paint (m : Nat → Option α) (a b : Nat) (t : α) : Nat → Option α :=
  fun p => if a ≤ p ∧ p < b then some t else m p

/-- The map with every page of `[a, b)` whose tag is eligible set to `t`. -/
def recolor (elig : α → Bool) (a b : Nat) (t : α) (m : Nat → Option α) : Nat → Option α :=
  fun p => (m p).map (fun x => if (a ≤ p ∧ p < b) ∧ elig x = true then t else x)

theorem recolor_empty (elig : α → Bool) {a b : Nat} (hab : b ≤ a) (t : α)
    (m : Nat → Option α) : recolor elig a b t m = m := by
  funext p
  unfold recolor
  rw [show (fun x => if (a ≤ p ∧ p < b) ∧ elig x = true then t else x) = id from by
        funext x
        rw [if_neg (fun h => by have := h.1; omega)]
        rfl,
      Option.map_id, id]

/-! ## §3. Replacing part of one segment. -/

/-- `s` with `[a, b)` retagged: the piece before, the piece itself, the piece
after; empty pieces are left out. -/
def splitSeg (s : Seg α) (a b : Nat) (t : α) : List (Seg α) :=
  (if s.lo < a then [⟨s.lo, a, s.tag⟩] else [])
    ++ ⟨a, b, t⟩ :: (if b < s.hi then [⟨b, s.hi, s.tag⟩] else [])

/-- The pieces stay inside the segment they came from. -/
theorem mem_splitSeg {s u : Seg α} {a b : Nat} {t : α} (h1 : s.lo ≤ a) (h2 : a < b)
    (h3 : b ≤ s.hi) (hu : u ∈ splitSeg s a b t) :
    s.lo ≤ u.lo ∧ u.lo < u.hi ∧ u.hi ≤ s.hi := by
  unfold splitSeg at hu
  simp only [List.mem_append, List.mem_cons] at hu
  rcases hu with hu | rfl | hu
  · split at hu
    · rw [List.mem_singleton] at hu
      subst hu
      dsimp only
      omega
    · simp at hu
  · dsimp only
    omega
  · split at hu
    · rw [List.mem_singleton] at hu
      subst hu
      dsimp only
      omega
    · simp at hu

theorem splitSeg_sorted {s : Seg α} {a b : Nat} (t : α) (h : a ≤ b) :
    (splitSeg s a b t).Pairwise (fun u v => u.hi ≤ v.lo) := by
  unfold splitSeg
  split <;> split <;> simp [h]

/-- Splitting a segment in the middle of a tidy list keeps the list tidy. -/
theorem Tidy.split {l₁ l₂ : List (Seg α)} {s : Seg α} (h : Tidy (l₁ ++ s :: l₂)) {a b : Nat}
    (t : α) (h1 : s.lo ≤ a) (h2 : a < b) (h3 : b ≤ s.hi) :
    Tidy (l₁ ++ (splitSeg s a b t ++ l₂)) := by
  obtain ⟨hsort, hne⟩ := h
  rw [List.pairwise_append, List.pairwise_cons] at hsort
  obtain ⟨hl₁, ⟨hs₂, hl₂⟩, hcross⟩ := hsort
  have hpiece := fun u hu => mem_splitSeg (t := t) (u := u) h1 h2 h3 hu
  constructor
  · rw [List.pairwise_append, List.pairwise_append]
    refine ⟨hl₁, ⟨splitSeg_sorted t (by omega), hl₂, ?_⟩, ?_⟩
    · intro u hu v hv
      have := hpiece u hu
      have := hs₂ v hv
      omega
    · intro u hu v hv
      rcases List.mem_append.mp hv with hv | hv
      · have := hpiece v hv
        have := hcross u hu s List.mem_cons_self
        omega
      · exact hcross u hu v (List.mem_cons_of_mem _ hv)
  · intro u hu
    rcases List.mem_append.mp hu with hu | hu
    · exact hne u (List.mem_append_left _ hu)
    · rcases List.mem_append.mp hu with hu | hu
      · exact (hpiece u hu).2.1
      · exact hne u (List.mem_append_right _ (List.mem_cons_of_mem _ hu))

/-- What the pieces of `s`, followed by `l`, denote. -/
theorem denote_splitSeg_append (s : Seg α) (l : List (Seg α)) {a b : Nat} (t : α)
    (h1 : s.lo ≤ a) (h2 : a < b) (h3 : b ≤ s.hi) (p : Nat) :
    denote (splitSeg s a b t ++ l) p
      = if a ≤ p ∧ p < b then some t else if s.Has p then some s.tag else denote l p := by
  have hpre : ∀ r : List (Seg α),
      denote ((if s.lo < a then [⟨s.lo, a, s.tag⟩] else []) ++ r) p
        = if s.lo ≤ p ∧ p < a then some s.tag else denote r p := by
    intro r
    by_cases hlt : s.lo < a
    · rw [if_pos hlt]
      rfl
    · rw [if_neg hlt, if_neg (by omega)]
      rfl
  have hpost : denote ((if b < s.hi then [⟨b, s.hi, s.tag⟩] else []) ++ l) p
        = if b ≤ p ∧ p < s.hi then some s.tag else denote l p := by
    by_cases hlt : b < s.hi
    · rw [if_pos hlt]
      rfl
    · rw [if_neg hlt, if_neg (by omega)]
      rfl
  unfold splitSeg
  rw [List.append_assoc, hpre, List.cons_append]
  simp only [denote, Seg.Has]
  rw [hpost]
  -- the four places `p` can be: before, in the new piece, after, outside `s`
  by_cases hab : a ≤ p ∧ p < b
  · rw [if_pos hab, if_pos hab, if_neg (by omega)]
  · rw [if_neg hab, if_neg hab]
    by_cases hs : s.lo ≤ p ∧ p < s.hi
    · rw [if_pos hs]
      by_cases hpa : p < a
      · rw [if_pos (by omega)]
      · rw [if_neg (by omega), if_pos (by omega)]
    · rw [if_neg hs, if_neg (by omega), if_neg (by omega)]

/-- **Splitting paints**: replacing part of one segment of a tidy list sets
exactly those pages. -/
theorem Tidy.denote_split {l₁ l₂ : List (Seg α)} {s : Seg α} (h : Tidy (l₁ ++ s :: l₂))
    {a b : Nat} (t : α) (h1 : s.lo ≤ a) (h2 : a < b) (h3 : b ≤ s.hi) :
    denote (l₁ ++ (splitSeg s a b t ++ l₂)) = paint (denote (l₁ ++ s :: l₂)) a b t := by
  funext p
  induction l₁ with
  | nil =>
      rw [List.nil_append, denote_splitSeg_append s l₂ t h1 h2 h3 p]
      rfl
  | cons u l₁ ih =>
      have hle := h.head_le s (by simp)
      simp only [List.cons_append, denote, paint]
      rw [ih h.tail]
      unfold paint
      by_cases hu : u.Has p
      · have := hu.2
        rw [if_pos hu, if_neg (by omega), if_pos hu]
      · rw [if_neg hu, if_neg hu]

/-! ## §4. Retagging the eligible part of a range. -/

/-- Walk the list and retag `[a, b)` wherever the tag is eligible; stop at the
first segment that starts at or above `b`. -/
def carve (elig : α → Bool) (a b : Nat) (t : α) : List (Seg α) → List (Seg α)
  | [] => []
  | s :: l =>
      if s.hi ≤ a then s :: carve elig a b t l
      else if b ≤ s.lo then s :: l
      else if elig s.tag then splitSeg s (max s.lo a) (min s.hi b) t ++ carve elig a b t l
      else s :: carve elig a b t l

/-- **Carving recolors**: across any number of segments, exactly the eligible
pages of `[a, b)` change their tag. -/
theorem Tidy.denote_carve (elig : α → Bool) {a b : Nat} (t : α) (hab : a < b)
    {l : List (Seg α)} (h : Tidy l) :
    denote (carve elig a b t l) = recolor elig a b t (denote l) := by
  funext p
  induction l with
  | nil => simp [carve, denote, recolor]
  | cons s l ih =>
      have hne := h.nonempty s List.mem_cons_self
      have hcons : denote (s :: carve elig a b t l) p
          = if s.Has p then some s.tag else recolor elig a b t (denote l) p := by
        rw [denote, ih h.tail]
      -- a segment that is kept: its own pages are outside `[a, b)` or not eligible
      have hkeep : (s.Has p → ¬ ((a ≤ p ∧ p < b) ∧ elig s.tag = true)) →
          denote (s :: carve elig a b t l) p = recolor elig a b t (denote (s :: l)) p := by
        intro hout
        rw [hcons]
        unfold recolor
        rw [denote]
        by_cases hs : s.Has p
        · rw [if_pos hs, if_pos hs, Option.map_some, if_neg (hout hs)]
        · rw [if_neg hs, if_neg hs]
      rw [carve]
      by_cases h1 : s.hi ≤ a
      · rw [if_pos h1]
        exact hkeep (fun hs hc => by have := hs.2; omega)
      · rw [if_neg h1]
        by_cases h2 : b ≤ s.lo
        · rw [if_pos h2]
          unfold recolor
          by_cases hp : p < b
          · rw [h.denote_lt (by omega)]
            rfl
          · rw [show (fun x => if (a ≤ p ∧ p < b) ∧ elig x = true then t else x) = id from by
                  funext x
                  rw [if_neg (fun hc => hp hc.1.2)]
                  rfl,
                Option.map_id, id]
        · rw [if_neg h2]
          by_cases he : elig s.tag = true
          · rw [if_pos he,
                denote_splitSeg_append s _ t (by omega) (by omega) (by omega) p, ih h.tail]
            unfold recolor
            rw [denote]
            by_cases hs : s.Has p
            · rw [if_pos hs, if_pos hs, Option.map_some]
              by_cases hp : a ≤ p ∧ p < b
              · rw [if_pos (by omega), if_pos ⟨hp, he⟩]
              · rw [if_neg (by omega), if_neg (fun hc => hp hc.1)]
            · have hout : ¬ (max s.lo a ≤ p ∧ p < min s.hi b) := by
                intro hc
                exact hs ⟨by omega, by omega⟩
              rw [if_neg hout, if_neg hs, if_neg hs]
          · rw [if_neg he]
            exact hkeep (fun _ hc => he hc.2)

/-! ## §5. Joining neighbours. -/

/-- Two neighbours that `fuse` joins. -/
abbrev Joins (c n : Seg α) : Prop := c.tag = n.tag ∧ n.lo ≤ c.hi

/-- Join `c` with as many of the following segments as it touches, then go on. -/
def fuseFrom [DecidableEq α] (c : Seg α) : List (Seg α) → List (Seg α)
  | [] => [c]
  | n :: l => if Joins c n then fuseFrom ⟨c.lo, n.hi, c.tag⟩ l else c :: fuseFrom n l

/-- One pass of joining neighbours. -/
def fuse [DecidableEq α] : List (Seg α) → List (Seg α)
  | [] => []
  | c :: l => fuseFrom c l

/-- Ascending starts, and overlap only between segments of equal tag. -/
structure Layered (l : List (Seg α)) : Prop where
  sorted   : l.Pairwise (fun s t => s.lo ≤ t.lo ∧ (s.tag ≠ t.tag → s.hi ≤ t.lo))
  nonempty : ∀ s ∈ l, s.lo < s.hi

theorem Layered.tail {s : Seg α} {l : List (Seg α)} (h : Layered (s :: l)) : Layered l :=
  ⟨(List.pairwise_cons.mp h.sorted).2, fun t ht => h.nonempty t (List.mem_cons_of_mem _ ht)⟩

theorem Tidy.layered {l : List (Seg α)} (h : Tidy l) : Layered l := by
  refine ⟨?_, h.nonempty⟩
  refine h.sorted.imp_of_mem ?_
  intro s t hs _ hst
  have := h.nonempty s hs
  exact ⟨by omega, fun _ => hst⟩

/-- Joining the first two segments keeps a list layered. -/
theorem Layered.join {c n : Seg α} {l : List (Seg α)} (h : Layered (c :: n :: l))
    (hj : Joins c n) : Layered (⟨c.lo, n.hi, c.tag⟩ :: l) := by
  obtain ⟨hc, hrest⟩ := List.pairwise_cons.mp h.sorted
  obtain ⟨hn, hl⟩ := List.pairwise_cons.mp hrest
  have hcn := hc n List.mem_cons_self
  have hnn := h.nonempty n (by simp)
  constructor
  · refine List.pairwise_cons.mpr ⟨?_, hl⟩
    intro t ht
    refine ⟨(hc t (List.mem_cons_of_mem _ ht)).1, ?_⟩
    intro htag
    exact (hn t ht).2 (fun he => htag (hj.1.trans he))
  · intro s hs
    rcases List.mem_cons.mp hs with rfl | hs
    · show c.lo < n.hi
      omega
    · exact h.nonempty s (by simp [hs])

/-- The last segment of the list that starts at or below `p`. -/
def lastStart : List (Seg α) → Nat → Option (Seg α)
  | [], _ => none
  | s :: l, p => (lastStart l p).or (if s.lo ≤ p then some s else none)

/-- `p` is in the last segment that starts at or below it. -/
def KeptAt (l : List (Seg α)) (p : Nat) : Prop :=
  ∃ s, lastStart l p = some s ∧ p < s.hi

theorem lastStart_eq_none {l : List (Seg α)} {p : Nat} (h : ∀ s ∈ l, p < s.lo) :
    lastStart l p = none := by
  induction l with
  | nil => rfl
  | cons s l ih =>
      have := h s List.mem_cons_self
      rw [lastStart, ih (fun t ht => h t (List.mem_cons_of_mem _ ht)), if_neg (by omega)]
      rfl

theorem lastStart_ne_none {l : List (Seg α)} {p : Nat} {s : Seg α} (hs : s ∈ l)
    (hp : s.lo ≤ p) : lastStart l p ≠ none := by
  induction l with
  | nil => simp at hs
  | cons u l ih =>
      rw [lastStart]
      intro hnone
      obtain ⟨hl, hu⟩ := Option.or_eq_none_iff.mp hnone
      rcases List.mem_cons.mp hs with rfl | hs
      · rw [if_pos hp] at hu
        cases hu
      · exact ih hs hl

/-- The last start splits the list: nothing behind it starts at or below `p`. -/
theorem lastStart_eq_some {l : List (Seg α)} {p : Nat} {y : Seg α} :
    lastStart l p = some y ↔
      ∃ l₁ l₂, l = l₁ ++ y :: l₂ ∧ y.lo ≤ p ∧ ∀ z ∈ l₂, p < z.lo := by
  constructor
  · intro h
    induction l with
    | nil => simp [lastStart] at h
    | cons u l ih =>
        rw [lastStart] at h
        cases hl : lastStart l p with
        | some v =>
            rw [hl] at h
            obtain ⟨l₁, l₂, rfl, hy, hafter⟩ := ih (hl.trans h)
            exact ⟨u :: l₁, l₂, rfl, hy, hafter⟩
        | none =>
            rw [hl, Option.none_or] at h
            split at h
            next hle =>
              obtain rfl := Option.some.inj h
              refine ⟨[], l, rfl, hle, ?_⟩
              intro z hz
              exact Nat.lt_of_not_le (fun hzp => lastStart_ne_none hz hzp hl)
            next => cases h
  · rintro ⟨l₁, l₂, rfl, hy, hafter⟩
    induction l₁ with
    | nil => rw [List.nil_append, lastStart, lastStart_eq_none hafter, if_pos hy, Option.none_or]
    | cons u l₁ ih => rw [List.cons_append, lastStart, ih, Option.some_or]

theorem lastStart_mem {l : List (Seg α)} {p : Nat} {s : Seg α} (h : lastStart l p = some s) :
    s ∈ l ∧ s.lo ≤ p := by
  obtain ⟨l₁, l₂, rfl, hle, _⟩ := lastStart_eq_some.mp h
  exact ⟨by simp, hle⟩

section Fuse

variable [DecidableEq α]

/-- The first segment of a pass starts where its input starts. -/
theorem fuseFrom_eq_cons (c : Seg α) (l : List (Seg α)) :
    ∃ d r, fuseFrom c l = d :: r ∧ d.lo = c.lo ∧ d.tag = c.tag := by
  induction l generalizing c with
  | nil => exact ⟨c, [], rfl, rfl, rfl⟩
  | cons n l ih =>
      rw [fuseFrom]
      split
      · obtain ⟨d, r, hd, hlo, htag⟩ := ih ⟨c.lo, n.hi, c.tag⟩
        exact ⟨d, r, hd, hlo, htag⟩
      · exact ⟨c, _, rfl, rfl, rfl⟩

/-- **One pass is enough**: no two neighbours of the result can be joined.  The
segment a join leaves behind keeps its start and tag, so the neighbour before
it, already rejected, stays rejected. -/
theorem fuseFrom_isChain (c : Seg α) (l : List (Seg α)) :
    (fuseFrom c l).IsChain (fun s t => ¬ Joins s t) := by
  induction l generalizing c with
  | nil => simp [fuseFrom]
  | cons n l ih =>
      rw [fuseFrom]
      split
      · exact ih _
      next hj =>
        obtain ⟨d, r, hd, hlo, htag⟩ := fuseFrom_eq_cons n l
        have hrec := ih n
        rw [hd] at hrec ⊢
        refine List.isChain_cons_cons.mpr ⟨?_, hrec⟩
        rintro ⟨h1, h2⟩
        exact hj ⟨h1.trans htag, by omega⟩

theorem fuse_isChain (l : List (Seg α)) : (fuse l).IsChain (fun s t => ¬ Joins s t) := by
  cases l with
  | nil => simp [fuse]
  | cons c l => exact fuseFrom_isChain c l

/-- Every segment a pass produces starts at or after its input. -/
theorem Layered.le_of_mem_fuseFrom {c : Seg α} {l : List (Seg α)} (h : Layered (c :: l)) :
    ∀ s ∈ fuseFrom c l, c.lo ≤ s.lo := by
  induction l generalizing c with
  | nil => simp [fuseFrom]
  | cons n l ih =>
      rw [fuseFrom]
      split
      next hj => exact fun s hs => ih (h.join hj) s hs
      next =>
        intro s hs
        have hcn := (List.pairwise_cons.mp h.sorted).1 n List.mem_cons_self
        rcases List.mem_cons.mp hs with rfl | hs
        · exact Nat.le_refl _
        · have := ih h.tail s hs
          omega

/-- **A pass over a layered list gives a tidy one**, overlaps included: where
two neighbours are not joined, the second starts at or after the first's end. -/
theorem Layered.tidy_fuseFrom {c : Seg α} {l : List (Seg α)} (h : Layered (c :: l)) :
    Tidy (fuseFrom c l) := by
  induction l generalizing c with
  | nil =>
      have := h.nonempty c List.mem_cons_self
      exact ⟨by simp [fuseFrom], by simpa [fuseFrom] using this⟩
  | cons n l ih =>
      rw [fuseFrom]
      split
      next hj => exact ih (h.join hj)
      next hj =>
        have hrec := ih h.tail
        have hle := h.tail.le_of_mem_fuseFrom
        have hcn := (List.pairwise_cons.mp h.sorted).1 n List.mem_cons_self
        have hgap : c.hi ≤ n.lo := by
          by_cases htag : c.tag = n.tag
          · have : ¬ n.lo ≤ c.hi := fun hle' => hj ⟨htag, hle'⟩
            omega
          · exact hcn.2 htag
        constructor
        · refine List.pairwise_cons.mpr ⟨?_, hrec.sorted⟩
          intro s hs
          have := hle s hs
          omega
        · intro s hs
          rcases List.mem_cons.mp hs with rfl | hs
          · exact h.nonempty _ List.mem_cons_self
          · exact hrec.nonempty s hs

theorem Layered.tidy_fuse {l : List (Seg α)} (h : Layered l) : Tidy (fuse l) := by
  cases l with
  | nil => exact Tidy.nil
  | cons c l => exact h.tidy_fuseFrom

/-- **On a tidy list a pass changes nothing but the representation.** -/
theorem Tidy.denote_fuseFrom {c : Seg α} {l : List (Seg α)} (h : Tidy (c :: l)) :
    denote (fuseFrom c l) = denote (c :: l) := by
  funext p
  induction l generalizing c with
  | nil => rfl
  | cons n l ih =>
      have hcn := h.head_le n List.mem_cons_self
      have hc := h.nonempty c List.mem_cons_self
      have hn := h.nonempty n (by simp)
      rw [fuseFrom]
      split
      next hj =>
        obtain ⟨htag, htouch⟩ := hj
        have hmerged : Tidy (⟨c.lo, n.hi, c.tag⟩ :: l) := by
          refine ⟨List.pairwise_cons.mpr ⟨h.tail.head_le, h.tail.tail.sorted⟩, ?_⟩
          intro s hs
          rcases List.mem_cons.mp hs with rfl | hs
          · show c.lo < n.hi
            omega
          · exact h.nonempty s (by simp [hs])
        rw [ih hmerged]
        simp only [denote, Seg.Has]
        -- `c` and `n` touch, so together they are `[c.lo, n.hi)`
        by_cases hp : c.lo ≤ p ∧ p < n.hi
        · rw [if_pos hp]
          by_cases hpc : p < c.hi
          · rw [if_pos (by omega)]
          · rw [if_neg (by omega), if_pos (by omega), htag]
        · rw [if_neg hp, if_neg (by omega), if_neg (by omega)]
      next =>
        show (if c.Has p then some c.tag else denote (fuseFrom n l) p) = _
        rw [ih h.tail]
        rfl

theorem Tidy.denote_fuse {l : List (Seg α)} (h : Tidy l) : denote (fuse l) = denote l := by
  cases l with
  | nil => rfl
  | cons c l => exact h.denote_fuseFrom

/-- A pass over segments of one tag produces no other tag. -/
theorem tag_of_mem_fuseFrom {c : Seg α} {l : List (Seg α)} (htag : ∀ s ∈ l, s.tag = c.tag) :
    ∀ s ∈ fuseFrom c l, s.tag = c.tag := by
  induction l generalizing c with
  | nil => simp [fuseFrom]
  | cons n l ih =>
      have hn := htag n List.mem_cons_self
      have hl := fun s hs => htag s (List.mem_cons_of_mem n hs)
      rw [fuseFrom]
      split
      · exact ih hl
      · intro s hs
        rcases List.mem_cons.mp hs with rfl | hs
        · rfl
        · exact (ih (fun u hu => (hl u hu).trans hn.symm) s hs).trans hn

/-! ## §6. What a pass keeps of an overlapping list. -/

/-- **Which pages survive overlapping input**: those in the last segment that
starts at or below them.  An earlier, longer segment does not help. -/
theorem Layered.has_fuseFrom_iff {c : Seg α} {l : List (Seg α)} (h : Layered (c :: l))
    (htag : ∀ s ∈ l, s.tag = c.tag) (p : Nat) :
    (∃ s ∈ fuseFrom c l, s.Has p) ↔ KeptAt (c :: l) p := by
  induction l generalizing c with
  | nil =>
      unfold KeptAt
      simp only [fuseFrom, List.mem_singleton, exists_eq_left, lastStart, Option.none_or, Seg.Has]
      by_cases hp : c.lo ≤ p <;> simp [hp]
  | cons n l ih =>
      have hcn := (List.pairwise_cons.mp h.sorted).1 n List.mem_cons_self
      have hnn := h.nonempty n (by simp)
      have hn := htag n List.mem_cons_self
      rw [fuseFrom]
      split
      next hj =>
        obtain ⟨_, htouch⟩ := hj
        rw [ih (h.join ⟨hn.symm, htouch⟩) (fun s hs => htag s (List.mem_cons_of_mem _ hs))]
        unfold KeptAt
        simp only [lastStart]
        cases hl : lastStart l p with
        | some v => simp
        | none =>
            simp only [Option.none_or]
            by_cases hnp : n.lo ≤ p
            · rw [if_pos (by omega), if_pos hnp]
              simp
            · by_cases hcp : c.lo ≤ p
              · rw [if_pos hcp, if_neg hnp, if_pos hcp]
                simp only [Option.none_or, Option.some.injEq, exists_eq_left']
                omega
              · rw [if_neg hcp, if_neg hnp, if_neg hcp]
                simp
      next hj =>
        have hgap : c.hi < n.lo := by
          have : ¬ n.lo ≤ c.hi := fun hle => hj ⟨hn.symm, hle⟩
          omega
        have hrec := ih h.tail (fun s hs => (htag s (List.mem_cons_of_mem _ hs)).trans hn.symm)
        have hsplit : (∃ s ∈ c :: fuseFrom n l, s.Has p)
            ↔ c.Has p ∨ KeptAt (n :: l) p := by
          rw [← hrec]
          simp
        rw [hsplit]
        -- above `n.lo` only the tail matters, below it only `c` does
        by_cases hnp : n.lo ≤ p
        · have hnot : ¬ c.Has p := fun hc => by have := hc.2; omega
          have hsome : lastStart (c :: n :: l) p = lastStart (n :: l) p := by
            show ((lastStart l p).or (if n.lo ≤ p then some n else none)).or _ = _
            rw [if_pos hnp]
            cases hl : lastStart l p <;> simp [lastStart, hl, hnp]
          unfold KeptAt
          rw [hsome]
          simp only [hnot, false_or]
        · have hnone : lastStart (n :: l) p = none := by
            apply lastStart_eq_none
            intro s hs
            rcases List.mem_cons.mp hs with rfl | hs
            · omega
            · have := ((List.pairwise_cons.mp h.tail.sorted).1 s hs).1
              omega
          have hsome : lastStart (c :: n :: l) p = if c.lo ≤ p then some c else none := by
            show (lastStart (n :: l) p).or _ = _
            rw [hnone, Option.none_or]
          unfold KeptAt
          rw [hsome, hnone]
          by_cases hcp : c.lo ≤ p <;> simp [hcp]

/-- The same for a whole pass, which also keeps the one tag. -/
theorem has_fuse_iff {l : List (Seg α)} {t : α} (h : Layered l) (htag : ∀ s ∈ l, s.tag = t)
    (p : Nat) :
    ((∃ s ∈ fuse l, s.Has p) ↔ KeptAt l p) ∧ ∀ s ∈ fuse l, s.tag = t := by
  cases l with
  | nil => simp [fuse, KeptAt, lastStart]
  | cons c l =>
      have hc := htag c List.mem_cons_self
      have hl := fun s hs => (htag s (List.mem_cons_of_mem _ hs)).trans hc.symm
      refine ⟨h.has_fuseFrom_iff hl p, ?_⟩
      intro s hs
      exact (tag_of_mem_fuseFrom hl s hs).trans hc

end Fuse

/-! ## §7. Insertion by start. -/

/-- Insert behind every segment that starts at or below `s`. -/
def insertByStart (s : Seg α) : List (Seg α) → List (Seg α)
  | [] => [s]
  | u :: l => if u.lo ≤ s.lo then u :: insertByStart s l else s :: u :: l

theorem mem_insertByStart {s u : Seg α} {l : List (Seg α)} :
    u ∈ insertByStart s l ↔ u = s ∨ u ∈ l := by
  induction l with
  | nil => simp [insertByStart]
  | cons v l ih =>
      rw [insertByStart]
      split
      · rw [List.mem_cons, ih, List.mem_cons]
        exact or_left_comm
      · rw [List.mem_cons]

/-- Insertion keeps the list ordered by start. -/
theorem insertByStart_sorted {s : Seg α} {l : List (Seg α)}
    (h : l.Pairwise (fun u v => u.lo ≤ v.lo)) :
    (insertByStart s l).Pairwise (fun u v => u.lo ≤ v.lo) := by
  induction l with
  | nil => simp [insertByStart]
  | cons v l ih =>
      obtain ⟨hv, hl⟩ := List.pairwise_cons.mp h
      rw [insertByStart]
      split
      next hle =>
        refine List.pairwise_cons.mpr ⟨?_, ih hl⟩
        intro u hu
        rcases mem_insertByStart.mp hu with rfl | hu
        · exact hle
        · exact hv u hu
      next hlt =>
        refine List.pairwise_cons.mpr ⟨?_, h⟩
        intro u hu
        rcases List.mem_cons.mp hu with rfl | hu
        · omega
        · have := hv u hu
          omega

/-- Segments of one tag, ordered by start, are layered. -/
theorem layered_of_tag {l : List (Seg α)} {t : α} (hsort : l.Pairwise (fun u v => u.lo ≤ v.lo))
    (htag : ∀ s ∈ l, s.tag = t) (hne : ∀ s ∈ l, s.lo < s.hi) : Layered l := by
  refine ⟨?_, hne⟩
  refine hsort.imp_of_mem ?_
  intro u v hu hv huv
  refine ⟨huv, ?_⟩
  intro hdiff
  exact absurd ((htag u hu).trans (htag v hv).symm) hdiff

/-- **Which pages a pass loses.**  In a list ordered by start the pages kept are
    all pages of all segments exactly when no segment `x` outlasts a later
    segment `y` with nothing starting, behind `y`, at or before `y`'s end. -/
theorem keptAt_eq_union_iff {l : List (Seg α)} (hsort : l.Pairwise (fun u v => u.lo ≤ v.lo))
    (hne : ∀ s ∈ l, s.lo < s.hi) :
    (∀ p, KeptAt l p ↔ ∃ s ∈ l, s.Has p)
      ↔ ∀ l₁ y l₂, l = l₁ ++ y :: l₂ → ∀ x ∈ l₁, y.hi < x.hi → ∃ z ∈ l₂, z.lo ≤ y.hi := by
  constructor
  · rintro h l₁ y l₂ rfl x hx hlt
    -- otherwise the page at `y`'s end is in `x` but not kept
    by_contra hnone
    have hxy : x.lo ≤ y.lo := (List.pairwise_append.mp hsort).2.2 x hx y List.mem_cons_self
    have hy : y.lo < y.hi := hne y (by simp)
    obtain ⟨s, hs, hps⟩ := (h y.hi).mpr ⟨x, List.mem_append_left _ hx, by omega, hlt⟩
    have hlast : lastStart (l₁ ++ y :: l₂) y.hi = some y := by
      refine lastStart_eq_some.mpr ⟨l₁, l₂, rfl, by omega, ?_⟩
      intro z hz
      exact Nat.lt_of_not_le (fun hle => hnone ⟨z, hz, hle⟩)
    obtain rfl := Option.some.inj (hlast.symm.trans hs)
    omega
  · intro h p
    constructor
    · rintro ⟨s, hs, hp⟩
      obtain ⟨hmem, hle⟩ := lastStart_mem hs
      exact ⟨s, hmem, hle, hp⟩
    · rintro ⟨s, hs, hlo, hhi⟩
      obtain ⟨y, hy⟩ := Option.ne_none_iff_exists'.mp (lastStart_ne_none hs hlo)
      refine ⟨y, hy, ?_⟩
      obtain ⟨l₁, l₂, rfl, hyp, hafter⟩ := lastStart_eq_some.mp hy
      by_contra hout
      rcases List.mem_append.mp hs with hs | hs
      · obtain ⟨z, hz, hzy⟩ := h l₁ y l₂ rfl s hs (by omega)
        have := hafter z hz
        omega
      · rcases List.mem_cons.mp hs with rfl | hs
        · exact hout hhi
        · have := hafter s hs
          omega

end RustFirmware.Lib
