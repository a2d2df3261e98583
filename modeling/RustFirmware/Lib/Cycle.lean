/-
  RustFirmware.Lib.Cycle
  ──────────────────────
  **A PARTIAL STEP ON FINITELY MANY POINTS STOPS, OR IT HAS COME INTO A CYCLE.**

  `steps next n a` is where `n` steps lead from `a`, if all of them can be taken.  A run
  that reaches a cycle has no end (`ReachesCycle.endless`), and one that has as many
  steps as there are points has reached one (`reachesCycle_of_card`).
-/
import Mathlib.Data.Fintype.Pigeonhole
import Mathlib.SetTheory.Cardinal.Finite

namespace RustFirmware.Lib

variable {α : Type} {next : α → Option α}

/-- Where `n` steps lead. -/
def steps (next : α → Option α) : (n : Nat) → α → Option α
  | 0, a => some a
  | n + 1, a => (next a).bind (steps next n)

/-- Some steps lead to a point that some more steps lead back to. -/
def ReachesCycle (next : α → Option α) (a : α) : Prop :=
  ∃ reach period b, steps next reach a = some b ∧ 0 < period ∧ steps next period b = some b

theorem steps_add (m n : Nat) (a : α) :
    steps next (m + n) a = (steps next m a).bind (steps next n) := by
  induction m generalizing a with
  | zero =>
      rw [Nat.zero_add]
      rfl
  | succ m ih =>
      rw [Nat.succ_add]
      show (next a).bind (steps next (m + n)) = ((next a).bind (steps next m)).bind (steps next n)
      rw [Option.bind_assoc]
      congr 1
      funext b
      exact ih b

/-- A long run has taken the shorter ones on its way. -/
theorem exists_steps_of_le {m n : Nat} {a b : α} (hmn : m ≤ n) (h : steps next n a = some b) :
    ∃ c, steps next m a = some c ∧ steps next (n - m) c = some b := by
  have hsplit : steps next (m + (n - m)) a = (steps next m a).bind (steps next (n - m)) :=
    steps_add m (n - m) a
  rw [Nat.add_sub_cancel' hmn, h] at hsplit
  exact Option.bind_eq_some_iff.mp hsplit.symm

/-- A cycle can be gone around any number of times. -/
theorem steps_around {period : Nat} {b : α} (h : steps next period b = some b) (times : Nat) :
    steps next (times * period) b = some b := by
  induction times with
  | zero =>
      rw [Nat.zero_mul]
      rfl
  | succ times ih =>
      rw [Nat.succ_mul, steps_add, ih]
      exact h

theorem ReachesCycle.endless {a : α} (h : ReachesCycle next a) (n : Nat) :
    ∃ c, steps next n a = some c := by
  obtain ⟨reach, period, b, hreach, hperiod, haround⟩ := h
  -- `n` times around is at least `n` steps
  have hlong : steps next (reach + n * period) a = some b := by
    rw [steps_add, hreach]
    exact steps_around haround n
  have hle : n ≤ reach + n * period :=
    Nat.le_trans (Nat.le_mul_of_pos_right n hperiod) (Nat.le_add_left _ _)
  obtain ⟨c, hc, -⟩ := exists_steps_of_le hle hlong
  exact ⟨c, hc⟩

/-- **With as many steps as there are points, some point has been passed twice.** -/
theorem reachesCycle_of_card [Finite α] {a c : α} (h : steps next (Nat.card α) a = some c) :
    ReachesCycle next a := by
  have : Fintype α := Fintype.ofFinite α
  have hpassed : ∀ i : Fin (Nat.card α + 1), ∃ b, steps next i a = some b := by
    intro i
    obtain ⟨b, hb, -⟩ := exists_steps_of_le (Nat.le_of_lt_succ i.isLt) h
    exact ⟨b, hb⟩
  choose passed hpassed using hpassed
  -- one more point is passed than there are
  have hcard : Fintype.card α < Fintype.card (Fin (Nat.card α + 1)) := by
    rw [Fintype.card_fin, Nat.card_eq_fintype_card]
    exact Nat.lt_succ_self _
  obtain ⟨i, j, hne, hsame⟩ := Fintype.exists_ne_map_eq_of_card_lt passed hcard
  have hcycle : ∀ i j : Fin (Nat.card α + 1), i < j → passed i = passed j →
      ReachesCycle next a := by
    intro i j hlt hsame
    obtain ⟨b, hb, haround⟩ := exists_steps_of_le (Nat.le_of_lt hlt) (hpassed j)
    rw [hpassed i] at hb
    cases hb
    rw [← hsame] at haround
    exact ⟨i, j - i, passed i, hpassed i, Nat.sub_pos_of_lt hlt, haround⟩
  obtain hlt | hlt := Nat.lt_or_gt_of_ne (fun h => hne (Fin.ext h))
  · exact hcycle i j hlt hsame
  · exact hcycle j i hlt hsame.symm

/-- A view of the points that the steps respect keeps the cycles. -/
theorem ReachesCycle.map {β : Type} {next' : β → Option β} {view : α → β}
    (hview : ∀ a b, next a = some b → next' (view a) = some (view b)) {a : α}
    (h : ReachesCycle next a) : ReachesCycle next' (view a) := by
  have hsteps : ∀ n a b, steps next n a = some b → steps next' n (view a) = some (view b) := by
    intro n
    induction n with
    | zero =>
        intro a b hab
        cases hab
        rfl
    | succ n ih =>
        intro a b hab
        obtain ⟨c, hc, hcb⟩ := Option.bind_eq_some_iff.mp hab
        show (next' (view a)).bind (steps next' n) = _
        rw [hview a c hc]
        exact ih c b hcb
  obtain ⟨reach, period, b, hreach, hperiod, haround⟩ := h
  exact ⟨reach, period, view b, hsteps _ _ _ hreach, hperiod, hsteps _ _ _ haround⟩

end RustFirmware.Lib
