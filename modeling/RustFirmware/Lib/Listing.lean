/-
  RustFirmware.Lib.Listing
  ────────────────────────
  **SEQUENCES THAT MAY BREAK OFF, AND WHAT IS DONE WITH THEIR ITEMS.**

  A reader of untrusted records yields items until the data ends or is malformed: a
  `Listing` is the items and how it ended.  A program that searches the records and
  one that visits all of them are both functions of the same listing (`find`,
  `visitAll`), which is how two separate loops over one format are compared.

  `Keep` is for visitors: a program that keeps its state also when it fails.
-/
import Mathlib.Data.List.Basic
import Mathlib.Tactic.Common

namespace RustFirmware.Lib

/-! ## §1. Programs that keep their state when they fail. -/

/-- A result, and the state that is left. -/
def Keep (ε σ α : Type) : Type := σ → Except ε α × σ

namespace Keep

variable {ε σ α β : Type}

instance : Monad (Keep ε σ) where
  pure a := fun s => (.ok a, s)
  bind x f := fun s =>
    match x s with
    | (.ok a, s)    => f a s
    | (.error e, s) => (.error e, s)

/-- A result that does not depend on the state. -/
def lift (result : Except ε α) : Keep ε σ α := fun s => (result, s)

def throw (e : ε) : Keep ε σ α := lift (.error e)

def modify (f : σ → σ) : Keep ε σ Unit := fun s => (.ok (), f s)

/-- `visit` for every item, until one fails. -/
def visitAll {ρ : Type} (visit : ρ → Keep ε σ Unit) : List ρ → Keep ε σ Unit
  | [] => pure ()
  | r :: rs => do
      visit r
      visitAll visit rs

instance : LawfulMonad (Keep ε σ) := LawfulMonad.mk' _
  (by
    intro α x
    funext s
    show (match x s with
      | (.ok a, s) => (.ok a, s)
      | (.error e, s) => (.error e, s)) = x s
    split <;> simp_all)
  (fun a f => rfl)
  (by
    intro α β γ x f g
    funext s
    show (match (match x s with
        | (.ok a, s) => f a s
        | (.error e, s) => (.error e, s)) with
      | (.ok b, s) => g b s
      | (.error e, s) => (.error e, s)) = (match x s with
        | (.ok a, s) => (f a >>= g) s
        | (.error e, s) => (.error e, s))
    cases x s with
    | mk result s' => cases result <;> rfl)

theorem visitAll_map {ρ ι : Type} (visit : ρ → Keep ε σ Unit) (f : ι → ρ) (items : List ι) :
    visitAll visit (items.map f) = visitAll (fun i => visit (f i)) items := by
  induction items with
  | nil => rfl
  | cons i items ih =>
      show (do visit (f i); visitAll visit (items.map f)) = _
      rw [ih]
      rfl

variable {x : Keep ε σ α} {f : α → Keep ε σ β} {s s' : σ}

theorem bind_ok {a : α} (h : x s = (.ok a, s')) : (x >>= f) s = f a s' := by
  show (match x s with
    | (.ok a, s) => f a s
    | (.error e, s) => (.error e, s)) = _
  rw [h]

theorem bind_error {e : ε} (h : x s = (.error e, s')) : (x >>= f) s = (.error e, s') := by
  show (match x s with
    | (.ok a, s) => f a s
    | (.error e, s) => (.error e, s)) = _
  rw [h]

end Keep

/-! ## §2. Listings. -/

/-- The items that were yielded, and how it ended: with a result or by breaking off. -/
structure Listing (ε ρ α : Type) where
  items  : List ρ
  ending : Except ε α

namespace Listing

variable {ε σ ρ α β : Type}

/-- What follows a listing depends on its result. -/
instance : Monad (Listing ε ρ) where
  pure a := ⟨[], .ok a⟩
  bind first next :=
    match first.ending with
    | .ok a    => ⟨first.items ++ (next a).items, (next a).ending⟩
    | .error e => ⟨first.items, .error e⟩

/-- It breaks off here. -/
def fail (e : ε) : Listing ε ρ α := ⟨[], .error e⟩

/-- One more item in front. -/
def cons (r : ρ) (rest : Listing ε ρ α) : Listing ε ρ α := ⟨r :: rest.items, rest.ending⟩

/-- The first item that `p` accepts, or the result of a listing without one; a search that
    finds nothing fails as the listing does. -/
def find (p : ρ → Bool) (listing : Listing ε ρ α) : Except ε (ρ ⊕ α) :=
  match listing.items.find? p with
  | some r => .ok (.inl r)
  | none   => listing.ending.map .inr

/-- Every item is visited, then the result or the failure of the listing is passed on. -/
def visitAll (visit : ρ → Keep ε σ Unit) (listing : Listing ε ρ α) : Keep ε σ α := do
  Keep.visitAll visit listing.items
  Keep.lift listing.ending

theorem find_cons (p : ρ → Bool) (r : ρ) (rest : Listing ε ρ α) :
    (cons r rest).find p = if p r then .ok (.inl r) else rest.find p := by
  unfold find cons
  rw [List.find?_cons]
  cases p r <;> rfl

/-- Among items with different keys, a search for the key of one of them finds it. -/
theorem find_of_nodup {κ : Type} [BEq κ] [LawfulBEq κ] {key : ρ → κ} {listing : Listing ε ρ α}
    (hnodup : (listing.items.map key).Nodup) {r : ρ} (hr : r ∈ listing.items) :
    listing.find (fun r' => key r' == key r) = .ok (.inl r) := by
  obtain ⟨items, ending⟩ := listing
  have hfind : items.find? (fun r' => key r' == key r) = some r := by
    induction items with
    | nil => cases hr
    | cons r₁ items ih =>
        rw [List.map_cons, List.nodup_cons] at hnodup
        rw [List.find?_cons]
        obtain rfl | hmem := List.mem_cons.mp hr
        · rw [beq_self_eq_true]
        · have hkey : key r₁ ≠ key r := fun hkey => hnodup.1 (hkey ▸ List.mem_map_of_mem hmem)
          rw [beq_false_of_ne hkey]
          exact ih hnodup.2 hmem
  unfold find
  rw [hfind]

theorem bind_ok {first : Listing ε ρ α} {a : α} (h : first.ending = .ok a)
    (next : α → Listing ε ρ β) :
    (first >>= next) = ⟨first.items ++ (next a).items, (next a).ending⟩ := by
  show (match first.ending with
    | .ok a    => (⟨first.items ++ (next a).items, (next a).ending⟩ : Listing ε ρ β)
    | .error e => ⟨first.items, .error e⟩) = _
  rw [h]

theorem bind_error {first : Listing ε ρ α} {e : ε} (h : first.ending = .error e)
    (next : α → Listing ε ρ β) : (first >>= next) = ⟨first.items, .error e⟩ := by
  show (match first.ending with
    | .ok a    => (⟨first.items ++ (next a).items, (next a).ending⟩ : Listing ε ρ β)
    | .error e => ⟨first.items, .error e⟩) = _
  rw [h]

instance : LawfulMonad (Listing ε ρ) := LawfulMonad.mk' _
  (fun ⟨items, ending⟩ => by
    cases ending with
    | error e => rfl
    | ok a =>
        show (⟨items ++ [], _⟩ : Listing ε ρ _) = _
        rw [List.append_nil]
        rfl)
  (fun a next => rfl)
  (fun first next next' => by
    cases hfirst : first.ending with
    | error e => rw [bind_error hfirst, bind_error hfirst, bind_error rfl]
    | ok a =>
        rw [bind_ok hfirst, bind_ok hfirst]
        cases hnext : (next a).ending with
        | error e =>
            rw [bind_error rfl, bind_error hnext]
        | ok b =>
            rw [bind_ok rfl, bind_ok hnext, List.append_assoc])

/-- A search goes on in what follows when the first part has nothing. -/
theorem find_bind (p : ρ → Bool) (first : Listing ε ρ α) (next : α → Listing ε ρ β) :
    (first >>= next).find p
      = (first.find p >>= fun found =>
          match found with
          | .inl r => .ok (.inl r)
          | .inr a => (next a).find p) := by
  cases hending : first.ending with
  | ok a =>
      rw [bind_ok hending]
      unfold find
      rw [hending, List.find?_append]
      cases first.items.find? p with
      | some r => rfl
      | none => rfl
  | error e =>
      rw [bind_error hending]
      unfold find
      rw [hending]
      cases first.items.find? p with
      | some r => rfl
      | none => rfl

/-- A search that accepts none of the items ends as the listing does. -/
theorem find_of_none {p : ρ → Bool} {listing : Listing ε ρ α}
    (h : ∀ r ∈ listing.items, p r = false) : listing.find p = listing.ending.map .inr := by
  have hnone : listing.items.find? p = none := by
    rw [List.find?_eq_none]
    intro r hr hp
    rw [h r hr] at hp
    cases hp
  unfold find
  rw [hnone]

/-- A search fails only as the listing does. -/
theorem ending_of_find_error {p : ρ → Bool} {listing : Listing ε ρ α} {e : ε}
    (h : listing.find p = .error e) : listing.ending = .error e := by
  unfold find at h
  split at h
  · cases h
  · cases hending : listing.ending with
    | ok a =>
        rw [hending] at h
        cases h
    | error e' =>
        rw [hending] at h
        cases h
        rfl

/-- All items have the property. -/
def All (P : ρ → Prop) (listing : Listing ε ρ α) : Prop := ∀ r ∈ listing.items, P r

theorem All.pure {P : ρ → Prop} (a : α) : (pure a : Listing ε ρ α).All P :=
  fun _ hr => absurd hr List.not_mem_nil

theorem All.fail {P : ρ → Prop} (e : ε) : (fail e : Listing ε ρ α).All P :=
  fun _ hr => absurd hr List.not_mem_nil

theorem All.cons {P : ρ → Prop} {r : ρ} {rest : Listing ε ρ α} (hr : P r) (hrest : rest.All P) :
    (cons r rest).All P := by
  intro r' hr'
  obtain rfl | hr' := List.mem_cons.mp hr'
  · exact hr
  · exact hrest r' hr'

theorem All.bind {P : ρ → Prop} {first : Listing ε ρ α} {next : α → Listing ε ρ β}
    (hfirst : first.All P) (hnext : ∀ a, (next a).All P) : (first >>= next).All P := by
  intro r hr
  cases hending : first.ending with
  | error e =>
      rw [bind_error hending] at hr
      exact hfirst r hr
  | ok a =>
      rw [bind_ok hending] at hr
      obtain hr | hr := List.mem_append.mp hr
      · exact hfirst r hr
      · exact hnext a r hr

theorem visitAll_cons (visit : ρ → Keep ε σ Unit) (r : ρ) (rest : Listing ε ρ α) :
    (cons r rest).visitAll visit = (do visit r; rest.visitAll visit) := by
  show ((do visit r; Keep.visitAll visit rest.items) >>= fun _ => Keep.lift rest.ending) = _
  rw [bind_assoc]
  rfl

theorem cons_bind (r : ρ) (first : Listing ε ρ α) (next : α → Listing ε ρ β) :
    (cons r first >>= next) = cons r (first >>= next) := by
  obtain ⟨items, ending⟩ := first
  cases ending <;> rfl

/-- What follows is visited after the first part. -/
theorem visitAll_bind (visit : ρ → Keep ε σ Unit) (first : Listing ε ρ α)
    (next : α → Listing ε ρ β) :
    (first >>= next).visitAll visit
      = (first.visitAll visit >>= fun a => (next a).visitAll visit) := by
  obtain ⟨items, ending⟩ := first
  induction items with
  | nil => cases ending <;> rfl
  | cons r items ih =>
      show (cons r ⟨items, ending⟩ >>= next).visitAll visit
        = ((cons r ⟨items, ending⟩).visitAll visit >>= fun a => (next a).visitAll visit)
      rw [cons_bind, visitAll_cons, visitAll_cons, ih, bind_assoc]

end Listing

/-! ## §3. Visitors that do not fail in some way, or not at all. -/

section Avoids

variable {ε σ ρ α : Type} {visit : ρ → Keep ε σ Unit} {Inv : σ → Prop} {e : ε}

/-- From a state with `Inv` it does not fail with `e`, and `Inv` is kept. -/
def Keep.Avoids (x : Keep ε σ α) (e : ε) (Inv : σ → Prop) : Prop :=
  ∀ s, Inv s → (x s).1 ≠ .error e ∧ Inv (x s).2

theorem Keep.Avoids.bind {β : Type} {x : Keep ε σ α} {f : α → Keep ε σ β}
    (hx : x.Avoids e Inv) (hf : ∀ a, (f a).Avoids e Inv) : (x >>= f).Avoids e Inv := by
  intro s hs
  obtain ⟨hne, hinv⟩ := hx s hs
  cases hfirst : x s with
  | mk result s' =>
      rw [hfirst] at hne hinv
      cases result with
      | error e' =>
          rw [Keep.bind_error hfirst]
          refine ⟨fun hsame => hne ?_, hinv⟩
          cases hsame
          rfl
      | ok a =>
          rw [Keep.bind_ok hfirst]
          exact hf a s' hinv

/-- **A visit of all items avoids what each visit and the listing avoid.** -/
theorem Listing.visitAll_avoids {listing : Listing ε ρ α}
    (hvisit : ∀ r ∈ listing.items, (visit r).Avoids e Inv) (hending : listing.ending ≠ .error e) :
    (listing.visitAll visit).Avoids e Inv := by
  obtain ⟨items, ending⟩ := listing
  induction items with
  | nil => exact fun s hs => ⟨hending, hs⟩
  | cons r items ih =>
      show ((cons r ⟨items, ending⟩).visitAll visit).Avoids e Inv
      rw [visitAll_cons]
      refine (hvisit r List.mem_cons_self).bind (fun _ => ?_)
      exact ih (fun r' hr' => hvisit r' (List.mem_cons_of_mem _ hr')) hending

end Avoids

section Succeeds

variable {ε σ ρ α β : Type} {visit : ρ → Keep ε σ Unit}

/-- A visit that succeeds has visited every item, and each of these visits has succeeded. -/
theorem Listing.exists_visit_ok {listing : Listing ε ρ α} {s : σ} {a : α}
    (h : (listing.visitAll visit s).1 = .ok a) {r : ρ} (hr : r ∈ listing.items) :
    ∃ s', (visit r s').1 = .ok () := by
  obtain ⟨items, ending⟩ := listing
  induction items generalizing s with
  | nil => cases hr
  | cons r₁ items ih =>
      have hcons : (Listing.visitAll visit ⟨r₁ :: items, ending⟩ s)
          = (visit r₁ >>= fun _ => Listing.visitAll visit ⟨items, ending⟩) s :=
        congrFun (visitAll_cons visit r₁ ⟨items, ending⟩) s
      rw [hcons] at h
      cases hfirst : visit r₁ s with
      | mk result s₁ =>
          cases result with
          | error e =>
              rw [Keep.bind_error hfirst] at h
              cases h
          | ok u =>
              rw [Keep.bind_ok hfirst] at h
              obtain rfl | hr := List.mem_cons.mp hr
              · exact ⟨s, by rw [hfirst]⟩
              · exact ih h hr

/-- **Where every visit succeeds with one report**, all items are reported in their order. -/
theorem Listing.visitAll_reports (Inv : σ → Prop) (out : σ → List β)
    {listing : Listing ε ρ α} {report : ρ → β}
    (hvisit : ∀ r ∈ listing.items, ∀ s, Inv s →
      ∃ s', visit r s = (.ok (), s') ∧ Inv s' ∧ out s' = out s ++ [report r])
    {s : σ} (hs : Inv s) :
    ∃ s', listing.visitAll visit s = (listing.ending, s') ∧ Inv s'
      ∧ out s' = out s ++ listing.items.map report := by
  obtain ⟨items, ending⟩ := listing
  induction items generalizing s with
  | nil => exact ⟨s, rfl, hs, (List.append_nil _).symm⟩
  | cons r items ih =>
      obtain ⟨s₁, hfirst, hinv, hout⟩ := hvisit r List.mem_cons_self s hs
      obtain ⟨s', hrest, hinv', hout'⟩ :=
        ih hinv (fun r' hr' => hvisit r' (List.mem_cons_of_mem _ hr'))
      refine ⟨s', ?_, hinv', ?_⟩
      · show (Listing.visitAll visit (cons r ⟨items, ending⟩)) s = _
        rw [visitAll_cons, Keep.bind_ok hfirst]
        exact hrest
      · rw [hout', hout, List.append_assoc]
        rfl

/-- A visit fails with its first item. -/
theorem Listing.visitAll_first_error {listing : Listing ε ρ α} {r : ρ} {rest : List ρ}
    (hitems : listing.items = r :: rest) {s s' : σ} {e : ε} (h : visit r s = (.error e, s')) :
    listing.visitAll visit s = (.error e, s') := by
  obtain ⟨items, ending⟩ := listing
  obtain rfl : items = r :: rest := hitems
  show (Listing.visitAll visit (cons r ⟨rest, ending⟩)) s = _
  rw [visitAll_cons, Keep.bind_error h]

end Succeeds

/-! ## §4. Visitors that add to a list. -/

section Appends

variable {ε σ ρ β κ : Type} {visit : ρ → Keep ε σ Unit} {out : σ → List β} {Inv : σ → Prop}
  {Sound : ρ → β → Prop} {Complete : ρ → List β → Prop}

/-- Each visit keeps `Inv` and adds to `out`: only what is `Sound` for its item, and all that
    is `Complete` for it if it succeeds. -/
def Appends (visit : ρ → Keep ε σ Unit) (out : σ → List β) (Inv : σ → Prop)
    (Sound : ρ → β → Prop) (Complete : ρ → List β → Prop) (r : ρ) : Prop :=
  ∀ s, Inv s → ∃ new, Inv (visit r s).2 ∧ out (visit r s).2 = out s ++ new
    ∧ (∀ b ∈ new, Sound r b) ∧ ((visit r s).1 = .ok () → Complete r new)

/-- **Visiting all items adds a piece for each of them.** -/
theorem visitAll_appends {rs : List ρ} (hvisit : ∀ r ∈ rs, Appends visit out Inv Sound Complete r)
    {s : σ} (hs : Inv s) :
    ∃ pieces : List (List β), Inv (Keep.visitAll visit rs s).2
      ∧ out (Keep.visitAll visit rs s).2 = out s ++ pieces.flatten
      ∧ (∀ b ∈ pieces.flatten, ∃ r ∈ rs, Sound r b)
      ∧ ((Keep.visitAll visit rs s).1 = .ok () → List.Forall₂ Complete rs pieces) := by
  induction rs generalizing s with
  | nil => exact ⟨[], hs, (List.append_nil _).symm, fun b hb => (by cases hb), fun _ => .nil⟩
  | cons r rs ih =>
      -- what the first visit appends is there whether it fails or not
      obtain ⟨new, hinv, hout, hsound, hcomplete⟩ := hvisit r List.mem_cons_self s hs
      cases hfirst : visit r s with
      | mk result s₁ =>
          rw [hfirst] at hinv hout hcomplete
          cases result with
          | error e =>
              have hall : Keep.visitAll visit (r :: rs) s = (.error e, s₁) := Keep.bind_error hfirst
              rw [hall]
              refine ⟨[new], hinv, by rw [List.flatten_singleton]; exact hout, ?_, fun h => (by cases h)⟩
              intro b hb
              rw [List.flatten_singleton] at hb
              exact ⟨r, List.mem_cons_self, hsound b hb⟩
          | ok u =>
              have hall : Keep.visitAll visit (r :: rs) s = Keep.visitAll visit rs s₁ :=
                Keep.bind_ok hfirst
              obtain ⟨pieces, hinv', hout', hsound', hcomplete'⟩ :=
                ih (fun r' hr' => hvisit r' (List.mem_cons_of_mem _ hr')) hinv
              rw [hall]
              refine ⟨new :: pieces, hinv', ?_, ?_, fun h => .cons (hcomplete rfl) (hcomplete' h)⟩
              · rw [hout', hout, List.flatten_cons, List.append_assoc]
              · intro b hb
                rw [List.flatten_cons] at hb
                obtain hnew | hlater := List.mem_append.mp hb
                · exact ⟨r, List.mem_cons_self, hsound b hnew⟩
                · obtain ⟨r', hr', hb'⟩ := hsound' b hlater
                  exact ⟨r', List.mem_cons_of_mem _ hr', hb'⟩

/-- The same for a listing, whose failure comes after its items. -/
theorem Listing.visitAll_appends {listing : Listing ε ρ Unit}
    (hvisit : ∀ r ∈ listing.items, Appends visit out Inv Sound Complete r) {s : σ} (hs : Inv s) :
    ∃ pieces : List (List β), Inv (listing.visitAll visit s).2
      ∧ out (listing.visitAll visit s).2 = out s ++ pieces.flatten
      ∧ (∀ b ∈ pieces.flatten, ∃ r ∈ listing.items, Sound r b)
      ∧ ((listing.visitAll visit s).1 = .ok () → List.Forall₂ Complete listing.items pieces) := by
  obtain ⟨pieces, hinv, hout, hsound, hcomplete⟩ := Lib.visitAll_appends hvisit hs
  cases hall : Keep.visitAll visit listing.items s with
  | mk result s₁ =>
      rw [hall] at hinv hout hcomplete
      cases result with
      | error e =>
          have hlisting : listing.visitAll visit s = (.error e, s₁) := Keep.bind_error hall
          rw [hlisting]
          exact ⟨pieces, hinv, hout, hsound, fun h => (by cases h)⟩
      | ok u =>
          have hlisting : listing.visitAll visit s = (listing.ending, s₁) := Keep.bind_ok hall
          rw [hlisting]
          exact ⟨pieces, hinv, hout, hsound, fun _ => hcomplete rfl⟩

theorem filter_flatten_eq_nil {p : β → Bool} {rs : List ρ} {pieces : List (List β)}
    (hpieces : List.Forall₂ Complete rs pieces)
    (hnone : ∀ r ∈ rs, ∀ piece, Complete r piece → piece.filter p = []) :
    pieces.flatten.filter p = [] := by
  induction hpieces with
  | nil => rfl
  | cons hpiece _ ih =>
      rw [List.flatten_cons, List.filter_append, hnone _ List.mem_cons_self _ hpiece,
        ih (fun r hr => hnone r (List.mem_cons_of_mem _ hr)), List.append_nil]

/-- Of the pieces of items with different keys, a filter that belongs to one key keeps a part
    of one piece. -/
theorem filter_flatten_of_nodup {key : ρ → κ} {p : β → Bool} {rs : List ρ}
    {pieces : List (List β)} (hpieces : List.Forall₂ Complete rs pieces)
    (hnodup : (rs.map key).Nodup) {r : ρ} (hr : r ∈ rs)
    (hother : ∀ r' piece, Complete r' piece → key r' ≠ key r → piece.filter p = []) :
    ∃ piece, Complete r piece ∧ pieces.flatten.filter p = piece.filter p := by
  induction hpieces with
  | nil => cases hr
  | @cons r₁ piece rs pieces hpiece hrest ih =>
      rw [List.map_cons, List.nodup_cons] at hnodup
      rw [List.flatten_cons, List.filter_append]
      obtain rfl | hmem := List.mem_cons.mp hr
      · -- all later keys differ
        have hnone : pieces.flatten.filter p = [] := by
          refine filter_flatten_eq_nil hrest (fun r' hr' piece hpiece => hother r' piece hpiece ?_)
          intro hkey
          exact hnodup.1 (hkey ▸ List.mem_map_of_mem hr')
        exact ⟨piece, hpiece, by rw [hnone, List.append_nil]⟩
      · obtain ⟨piece', hpiece', hfilter⟩ := ih hnodup.2 hmem
        have hkey : key r₁ ≠ key r := fun hkey => hnodup.1 (hkey ▸ List.mem_map_of_mem hmem)
        exact ⟨piece', hpiece', by rw [hother r₁ piece hpiece hkey, List.nil_append, hfilter]⟩

end Appends

/-! ## §5. Counting items. -/

/-- Two views of the same items that agree where `p` does not hold, and give the same values
    equally often, do so also where it holds. -/
theorem perm_map_filter {ρ β : Type} {f g : ρ → β} {rs : List ρ} (p : ρ → Bool)
    (hperm : (rs.map f).Perm (rs.map g)) (hsame : ∀ r ∈ rs, p r = false → f r = g r) :
    ((rs.filter p).map f).Perm ((rs.filter p).map g) := by
  have hrest : (rs.filter (fun r => !p r)).map f = (rs.filter (fun r => !p r)).map g := by
    refine List.map_congr_left (fun r hr => ?_)
    obtain ⟨hmem, hnot⟩ := List.mem_filter.mp hr
    exact hsame r hmem (Bool.not_eq_true' _ ▸ hnot)
  have hsplit := List.filter_append_perm p rs
  have hleft : ((rs.filter p).map f ++ (rs.filter (fun r => !p r)).map f).Perm (rs.map f) := by
    rw [← List.map_append]
    exact hsplit.map f
  have hright : ((rs.filter p).map g ++ (rs.filter (fun r => !p r)).map f).Perm (rs.map g) := by
    rw [hrest, ← List.map_append]
    exact hsplit.map g
  have hboth := (hleft.trans hperm).trans hright.symm
  exact (List.perm_append_right_iff _).mp hboth

end RustFirmware.Lib
