/-
  RustFirmware.Lib.Carve
  ──────────────────────
  **CARVING IN A LIST OF BOUNDED LENGTH.**

  `carve` cuts a range out of a segment list, segment by segment.  A list kept
  in a buffer has `room` for so many segments more, and a carve that meets a
  segment whose pieces do not fit stops there: what came before stays carved.

  Only two segments can need room: the one the range starts in, which is met
  first, and the one it ends in, which is met last.  So the carve is TORN, half
  done and then refused, exactly when the last cut has no room and something
  before it has changed.
-/
import RustFirmware.Lib.Canonical

namespace RustFirmware.Lib

variable {α : Type}

/-! ## §1. The bounded carve. -/

/-- Carve with room for `room` segments more.  The flag says whether the whole
    range was done. -/
def carveWithin (elig : α → Bool) (a b : Nat) (t : α) :
    (room : Nat) → List (Seg α) → Bool × List (Seg α)
  | _, [] => (true, [])
  | room, s :: l =>
      if s.hi ≤ a then
        ((carveWithin elig a b t room l).1, s :: (carveWithin elig a b t room l).2)
      else if b ≤ s.lo then (true, s :: l)
      else if elig s.tag then
        let pieces := splitSeg s (max s.lo a) (min s.hi b) t
        if pieces.length ≤ room + 1 then
          ((carveWithin elig a b t (room + 1 - pieces.length) l).1,
            pieces ++ (carveWithin elig a b t (room + 1 - pieces.length) l).2)
        else (false, s :: l)
      else ((carveWithin elig a b t room l).1, s :: (carveWithin elig a b t room l).2)

variable {elig : α → Bool} {a b : Nat} {t : α}

/-- Where it gets through, it is the unbounded carve. -/
theorem carveWithin_eq_carve {room : Nat} {l : List (Seg α)}
    (h : (carveWithin elig a b t room l).1 = true) :
    (carveWithin elig a b t room l).2 = carve elig a b t l := by
  induction l generalizing room with
  | nil => rfl
  | cons s l ih =>
      rw [carveWithin] at h ⊢
      rw [carve]
      by_cases h1 : s.hi ≤ a
      · rw [if_pos h1] at h ⊢
        rw [if_pos h1]
        exact congrArg (s :: ·) (ih h)
      · rw [if_neg h1] at h ⊢
        rw [if_neg h1]
        by_cases h2 : b ≤ s.lo
        · rw [if_pos h2, if_pos h2]
        · rw [if_neg h2] at h ⊢
          rw [if_neg h2]
          by_cases he : elig s.tag = true
          · rw [if_pos he] at h ⊢
            rw [if_pos he]
            dsimp only at h ⊢
            split at h
            next hroom =>
              rw [if_pos hroom]
              exact congrArg (splitSeg s (max s.lo a) (min s.hi b) t ++ ·) (ih h)
            next => cases h
          · rw [if_neg he] at h ⊢
            rw [if_neg he]
            exact congrArg (s :: ·) (ih h)

/-- A range that ends where the list starts has nothing to carve. -/
theorem carveWithin_of_le (hab : a < b) (room : Nat) {l : List (Seg α)}
    (hne : ∀ s ∈ l, s.lo < s.hi) (h : ∀ s ∈ l, b ≤ s.lo) :
    carveWithin elig a b t room l = (true, l) := by
  cases l with
  | nil => rfl
  | cons s l =>
      have h1 := h s List.mem_cons_self
      have h2 := hne s List.mem_cons_self
      rw [carveWithin, if_neg (by omega), if_pos h1]

/-! ## §2. When a carve is torn. -/

/-- The segment is eligible and the range starts inside of it. -/
def Seg.startsRange (elig : α → Bool) (a : Nat) (s : Seg α) : Bool :=
  elig s.tag && decide (s.lo < a) && decide (a < s.hi)

/-- The range ends inside of an eligible segment that it enters from the left,
    it changes an eligible segment before that, and the cut at its start, if
    there is one, takes the last of the room. -/
structure Torn (elig : α → Bool) (a b : Nat) (t : α) (room : Nat) (l : List (Seg α)) : Prop where
  last    : ∃ d ∈ l, elig d.tag = true ∧ a ≤ d.lo ∧ d.lo < b ∧ b < d.hi
  changed : ∃ e ∈ l, elig e.tag = true ∧ a < e.hi ∧ e.hi ≤ b ∧ (e.lo < a ∨ e.tag ≠ t)
  full    : l.countP (Seg.startsRange elig a) = room

/-- What a carve does to a segment that ends inside of the range. -/
def Seg.carved (elig : α → Bool) (b : Nat) (t : α) (s : Seg α) : Seg α :=
  if s.hi ≤ b ∧ elig s.tag = true then ⟨s.lo, s.hi, t⟩ else s

/-- **Behind the start of the range only the last cut needs room.**  Without any
    the carve stops there, and the eligible segments before have the new tag. -/
theorem carveWithin_inside (elig : α → Bool) (t : α) (hab : a < b) (room : Nat)
    {l : List (Seg α)} (h : Tidy l) (hin : ∀ s ∈ l, a ≤ s.lo) :
    ((carveWithin elig a b t room l).1 = true
        ∧ ¬ (room = 0 ∧ ∃ d ∈ l, elig d.tag = true ∧ d.lo < b ∧ b < d.hi))
    ∨ (carveWithin elig a b t room l = (false, l.map (Seg.carved elig b t))
        ∧ room = 0 ∧ ∃ d ∈ l, elig d.tag = true ∧ d.lo < b ∧ b < d.hi) := by
  induction l with
  | nil =>
      refine Or.inl ⟨rfl, ?_⟩
      rintro ⟨_, d, hd, _⟩
      cases hd
  | cons s l ih =>
      have hs := h.nonempty s List.mem_cons_self
      have hsa := hin s List.mem_cons_self
      have hrest := fun u hu => h.head_le u hu
      have hrec := ih h.tail (fun u hu => hin u (List.mem_cons_of_mem _ hu))
      rw [List.exists_mem_cons_iff, carveWithin, if_neg (by omega)]
      by_cases h2 : b ≤ s.lo
      · -- the range has ended
        rw [if_pos h2]
        refine Or.inl ⟨rfl, ?_⟩
        rintro ⟨_, ⟨_, hlo, _⟩ | ⟨d, hd, _, hlo, _⟩⟩
        · omega
        · have := hrest d hd
          omega
      rw [if_neg h2]
      by_cases he : elig s.tag = true
      · rw [if_pos he]
        dsimp only
        rw [show max s.lo a = s.lo by omega]
        by_cases hend : b < s.hi
        · -- the last cut
          have hlen : (splitSeg s s.lo (min s.hi b) t).length = 2 := by
            rw [splitSeg_length, if_neg (Nat.lt_irrefl s.lo), if_pos (by omega)]
          rw [hlen]
          by_cases hroom : room = 0
          · rw [if_neg (by omega)]
            refine Or.inr ⟨?_, hroom, Or.inl ⟨he, by omega, hend⟩⟩
            have hkeep : l.map (Seg.carved elig b t) = l.map id := by
              apply List.map_congr_left
              intro u hu
              have hu1 := hrest u hu
              have hu2 := h.nonempty u (List.mem_cons_of_mem _ hu)
              exact if_neg (fun hc => by omega)
            rw [List.map_cons, hkeep, List.map_id]
            unfold Seg.carved
            rw [if_neg (fun hc => by omega)]
          · rw [if_pos (by omega),
                carveWithin_of_le hab _ h.tail.nonempty (fun u hu => by
                  have := hrest u hu
                  omega)]
            exact Or.inl ⟨rfl, fun hc => hroom hc.1⟩
        · -- a whole segment
          have hpiece : splitSeg s s.lo (min s.hi b) t = [⟨s.lo, s.hi, t⟩] := by
            unfold splitSeg
            rw [show min s.hi b = s.hi by omega, if_neg (Nat.lt_irrefl _),
                if_neg (Nat.lt_irrefl _), List.nil_append]
          have hnot : ¬ (elig s.tag = true ∧ s.lo < b ∧ b < s.hi) := fun hc => hend hc.2.2
          rw [or_iff_right hnot, hpiece, List.length_singleton,
            if_pos (by omega), Nat.add_sub_cancel]
          rcases hrec with hok | ⟨heq, hlast⟩
          · exact Or.inl hok
          · refine Or.inr ⟨?_, hlast⟩
            rw [heq, List.map_cons]
            unfold Seg.carved
            rw [if_pos ⟨by omega, he⟩]
            rfl
      · have hnot : ¬ (elig s.tag = true ∧ s.lo < b ∧ b < s.hi) := fun hc => he hc.1
        rw [if_neg he, or_iff_right hnot]
        rcases hrec with hok | ⟨heq, hlast⟩
        · exact Or.inl hok
        · refine Or.inr ⟨?_, hlast⟩
          rw [heq, List.map_cons]
          unfold Seg.carved
          rw [if_neg (fun hc => he hc.2)]

/-- A list changes under a map exactly when one of its elements does. -/
theorem map_ne_self_iff {β : Type} {f : β → β} {l : List β} :
    l.map f ≠ l ↔ ∃ x ∈ l, f x ≠ x := by
  induction l with
  | nil => simp
  | cons x l ih =>
      rw [List.map_cons, Ne, List.cons.injEq, not_and_or, List.exists_mem_cons_iff]
      exact or_congr Iff.rfl ih

/-- The range does not start behind its start. -/
theorem countP_startsRange_eq_zero {l : List (Seg α)} (hin : ∀ s ∈ l, a ≤ s.lo) :
    l.countP (Seg.startsRange elig a) = 0 := by
  rw [List.countP_eq_zero]
  intro s hs hc
  have hlo := hin s hs
  unfold Seg.startsRange at hc
  simp only [Bool.and_eq_true, decide_eq_true_eq] at hc
  omega

/-- The same as an equivalence, for a list behind the start of the range. -/
theorem torn_inside_iff (hab : a < b) {room : Nat} {l : List (Seg α)} (h : Tidy l)
    (hin : ∀ s ∈ l, a ≤ s.lo) :
    ((carveWithin elig a b t room l).1 = false ∧ (carveWithin elig a b t room l).2 ≠ l)
      ↔ Torn elig a b t room l := by
  have hcount : l.countP (Seg.startsRange elig a) = 0 := countP_startsRange_eq_zero hin
  rcases carveWithin_inside elig t hab room h hin with
    ⟨hok, hno⟩ | ⟨heq, hroom, d, hd, hde, hlo, hhi⟩
  · constructor
    · rintro ⟨hfail, _⟩
      rw [hok] at hfail
      cases hfail
    · intro htorn
      obtain ⟨d, hd, hde, _, hlo, hhi⟩ := htorn.last
      exact absurd ⟨htorn.full.symm.trans hcount, d, hd, hde, hlo, hhi⟩ hno
  · rw [heq]
    dsimp only
    rw [map_ne_self_iff]
    constructor
    · rintro ⟨_, e, hemem, hchanged⟩
      refine ⟨⟨d, hd, hde, hin d hd, hlo, hhi⟩, ⟨e, hemem, ?_⟩, hcount.trans hroom.symm⟩
      have hne := h.nonempty e hemem
      have hea := hin e hemem
      unfold Seg.carved at hchanged
      by_cases hcut : e.hi ≤ b ∧ elig e.tag = true
      · rw [if_pos hcut] at hchanged
        refine ⟨hcut.2, by omega, hcut.1, Or.inr ?_⟩
        intro htag
        rw [← htag] at hchanged
        exact hchanged rfl
      · rw [if_neg hcut] at hchanged
        exact absurd rfl hchanged
    · intro htorn
      obtain ⟨e, hemem, hee, _, hehi, hdiff⟩ := htorn.changed
      refine ⟨rfl, e, hemem, ?_⟩
      have hea := hin e hemem
      unfold Seg.carved
      rw [if_pos ⟨hehi, hee⟩]
      intro hsame
      rcases hdiff with hlo' | htag
      · omega
      · exact htag (congrArg Seg.tag hsame).symm

/-- A head that is neither cut nor changed makes no difference. -/
theorem torn_cons_of_skipped {room : Nat} {s : Seg α} {l : List (Seg α)}
    (hskip : elig s.tag = true → s.hi ≤ a) :
    Torn elig a b t room (s :: l) ↔ Torn elig a b t room l := by
  have hcount : (s :: l).countP (Seg.startsRange elig a)
      = l.countP (Seg.startsRange elig a) := by
    apply List.countP_cons_of_neg
    intro hc
    unfold Seg.startsRange at hc
    simp only [Bool.and_eq_true, decide_eq_true_eq] at hc
    have := hskip hc.1.1
    omega
  constructor
  · rintro ⟨⟨d, hd, hlast⟩, ⟨e, hemem, hchanged⟩, hfull⟩
    refine ⟨⟨d, ?_, hlast⟩, ⟨e, ?_, hchanged⟩, hcount.symm.trans hfull⟩
    · rcases List.mem_cons.mp hd with rfl | hd
      · have := hskip hlast.1
        omega
      · exact hd
    · rcases List.mem_cons.mp hemem with rfl | hemem
      · have := hskip hchanged.1
        omega
      · exact hemem
  · rintro ⟨⟨d, hd, hlast⟩, ⟨e, hemem, hchanged⟩, hfull⟩
    exact ⟨⟨d, List.mem_cons_of_mem _ hd, hlast⟩,
      ⟨e, List.mem_cons_of_mem _ hemem, hchanged⟩, hcount.trans hfull⟩

/-- The whole range is inside of an eligible segment: all or nothing. -/
theorem torn_within_head_iff (hab : a < b) {room : Nat} {s : Seg α} {l : List (Seg α)}
    (h : Tidy (s :: l)) (he : elig s.tag = true) (hstart : s.lo < a) (hend : b < s.hi) :
    ((carveWithin elig a b t room (s :: l)).1 = false
        ∧ (carveWithin elig a b t room (s :: l)).2 ≠ s :: l)
      ↔ Torn elig a b t room (s :: l) := by
  have hrest := fun u hu => h.head_le u hu
  rw [carveWithin, if_neg (by omega), if_neg (by omega), if_pos he]
  dsimp only
  rw [carveWithin_of_le hab _ h.tail.nonempty (fun u hu => by
        have := hrest u hu
        omega)]
  constructor
  · rintro ⟨hfail, hne⟩
    split at hfail
    · cases hfail
    next hroom =>
      rw [if_neg hroom] at hne
      exact absurd rfl hne
  · intro htorn
    obtain ⟨d, hd, _, hdlo, hdb, _⟩ := htorn.last
    rcases List.mem_cons.mp hd with rfl | hd
    · omega
    · have := hrest d hd
      omega

/-- The range starts inside of an eligible segment and goes on behind it: the cut at the
    start takes room for one segment, and the last cut finds none. -/
theorem torn_cut_head_iff (hab : a < b) {room : Nat} {s : Seg α} {l : List (Seg α)}
    (h : Tidy (s :: l)) (he : elig s.tag = true) (hstart : s.lo < a) (hinto : a < s.hi)
    (hend : s.hi ≤ b) :
    ((carveWithin elig a b t room (s :: l)).1 = false
        ∧ (carveWithin elig a b t room (s :: l)).2 ≠ s :: l)
      ↔ Torn elig a b t room (s :: l) := by
  have hinside : ∀ u ∈ l, a ≤ u.lo := by
    intro u hu
    have := h.head_le u hu
    omega
  have hlen : (splitSeg s a (min s.hi b) t).length = 2 := by
    rw [splitSeg_length, if_pos hstart, if_neg (by omega)]
  have hcount : (s :: l).countP (Seg.startsRange elig a) = 1 := by
    rw [List.countP_cons_of_pos, countP_startsRange_eq_zero hinside]
    unfold Seg.startsRange
    simp only [he, hstart, hinto, decide_true, Bool.and_self]
  rw [carveWithin, if_neg (by omega), if_neg (by omega), if_pos he]
  dsimp only
  rw [show max s.lo a = a by omega, hlen]
  by_cases hroom : room = 0
  · -- the cut at the start is refused
    rw [if_neg (by omega)]
    constructor
    · rintro ⟨_, hne⟩
      exact absurd rfl hne
    · intro htorn
      have := htorn.full
      omega
  · rw [if_pos (by omega)]
    -- cut at the start: from here on the list differs in any case
    have hdiffer : ∀ r : List (Seg α), splitSeg s a (min s.hi b) t ++ r ≠ s :: l := by
      intro r heq
      unfold splitSeg at heq
      rw [if_pos hstart, List.append_assoc, List.singleton_append, List.cons.injEq] at heq
      have hhi := congrArg Seg.hi heq.1
      dsimp only at hhi
      omega
    rcases carveWithin_inside elig t hab (room + 1 - 2) h.tail hinside with
      ⟨hok, hno⟩ | ⟨heq, hzero, d, hd, hde, hlo, hhi⟩
    · rw [hok]
      constructor
      · rintro ⟨hfail, _⟩
        cases hfail
      · intro htorn
        have hfull := htorn.full
        obtain ⟨d, hd, hde, hdlo, hdb, hdhi⟩ := htorn.last
        rcases List.mem_cons.mp hd with rfl | hd
        · omega
        · exact absurd ⟨by omega, d, hd, hde, hdb, hdhi⟩ hno
    · rw [heq]
      constructor
      · intro _
        exact ⟨⟨d, List.mem_cons_of_mem _ hd, hde, hinside d hd, hlo, hhi⟩,
          ⟨s, List.mem_cons_self, he, hinto, hend, Or.inl hstart⟩, by omega⟩
      · intro _
        exact ⟨rfl, hdiffer _⟩

/-- **A bounded carve fails with a changed list exactly when it is torn.**  The
    induction passes over what ends before the range. -/
theorem torn_iff (hab : a < b) {room : Nat} {l : List (Seg α)} (h : Tidy l) :
    ((carveWithin elig a b t room l).1 = false ∧ (carveWithin elig a b t room l).2 ≠ l)
      ↔ Torn elig a b t room l := by
  induction l with
  | nil =>
      constructor
      · rintro ⟨hfail, _⟩
        cases hfail
      · intro htorn
        obtain ⟨d, hd, _⟩ := htorn.last
        cases hd
  | cons s l ih =>
      have hs := h.nonempty s List.mem_cons_self
      have hrest := fun u hu => h.head_le u hu
      by_cases h1 : s.hi ≤ a
      · rw [torn_cons_of_skipped (fun _ => h1), ← ih h.tail, carveWithin, if_pos h1]
        dsimp only
        rw [Ne, List.cons.injEq, and_iff_right rfl]
      by_cases h2 : a ≤ s.lo
      · -- the whole list is behind the start of the range
        apply torn_inside_iff hab h
        intro u hu
        rcases List.mem_cons.mp hu with rfl | hu
        · exact h2
        · have := hrest u hu
          omega
      by_cases he : elig s.tag = true
      · by_cases hend : b < s.hi
        · exact torn_within_head_iff hab h he (by omega) hend
        · exact torn_cut_head_iff hab h he (by omega) (by omega) (by omega)
      · have hinside : ∀ u ∈ l, a ≤ u.lo := by
          intro u hu
          have := hrest u hu
          omega
        rw [torn_cons_of_skipped (fun hc => absurd hc he), ← torn_inside_iff hab h.tail hinside,
          carveWithin, if_neg h1, if_neg (by omega), if_neg he]
        dsimp only
        rw [Ne, List.cons.injEq, and_iff_right rfl]

end RustFirmware.Lib
