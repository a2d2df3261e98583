/-
  RustFirmware.Lib.Trace
  ──────────────────────
  **PROGRAMS THAT WRITE DOWN WHAT THEY DO.**

  To speak about values that a program uses and does not return, it is written once more
  with a trace next to its state.  `Traces` says that this is the same program: without
  the trace it has the same result and leaves the same state, and the trace only grows.
-/
import RustFirmware.Lib.Listing

namespace RustFirmware.Lib

variable {ε σ τ α β : Type}

/-- One more event. -/
def Keep.emit (event : σ → τ) : Keep ε (σ × List τ) Unit :=
  Keep.modify (fun (s, trace) => (s, trace ++ [event s]))

/-- A program that has nothing to write down. -/
def Keep.silent (x : Keep ε σ α) : Keep ε (σ × List τ) α := fun (s, trace) =>
  let (result, s) := x s
  (result, (s, trace))

theorem Keep.silent_eq {x : Keep ε σ α} {s s' : σ} {result : Except ε α} (h : x s = (result, s'))
    (trace : List τ) : Keep.silent x (s, trace) = (result, (s', trace)) := by
  show ((x s).1, ((x s).2, trace)) = _
  rw [h]

/-- `x` is `y` with a trace. -/
def Keep.Traces (x : Keep ε (σ × List τ) α) (y : Keep ε σ α) : Prop :=
  ∀ s trace, ∃ emitted, x (s, trace) = ((y s).1, ((y s).2, trace ++ emitted))

namespace Keep.Traces

variable {x : Keep ε (σ × List τ) α} {y : Keep ε σ α}

theorem silent (y : Keep ε σ α) : (Keep.silent y : Keep ε (σ × List τ) α).Traces y := by
  intro s trace
  exact ⟨[], by rw [List.append_nil]; rfl⟩

theorem bind {f : α → Keep ε (σ × List τ) β} {g : α → Keep ε σ β} (h : x.Traces y)
    (hrest : ∀ a, (f a).Traces (g a)) : (x >>= f).Traces (y >>= g) := by
  intro s trace
  obtain ⟨emitted, hx⟩ := h s trace
  cases hy : y s with
  | mk result s' =>
      rw [hy] at hx
      cases result with
      | error e =>
          rw [Keep.bind_error hx, Keep.bind_error hy]
          exact ⟨emitted, rfl⟩
      | ok a =>
          rw [Keep.bind_ok hx, Keep.bind_ok hy]
          obtain ⟨emitted', hrest⟩ := hrest a s' (trace ++ emitted)
          exact ⟨emitted ++ emitted', by rw [hrest, List.append_assoc]⟩

/-- Writing down an event is no step of the program. -/
theorem emit (event : σ → τ) (h : x.Traces y) : (Keep.emit event >>= fun _ => x).Traces y := by
  intro s trace
  obtain ⟨emitted, hx⟩ := h s (trace ++ [event s])
  exact ⟨event s :: emitted, by
    rw [Keep.bind_ok (show Keep.emit event (s, trace) = (.ok (), (s, trace ++ [event s])) from rfl), hx,
      List.append_assoc, List.singleton_append]⟩

theorem visitAll {ρ : Type} {visit : ρ → Keep ε (σ × List τ) Unit} {visit' : ρ → Keep ε σ Unit}
    (h : ∀ r, (visit r).Traces (visit' r)) (listing : Listing ε ρ α) :
    (listing.visitAll visit).Traces (listing.visitAll visit') := by
  obtain ⟨items, ending⟩ := listing
  induction items with
  | nil => exact bind (silent (pure ())) (fun _ => silent (Keep.lift ending))
  | cons r items ih =>
      have hcons : ∀ {σ : Type} (visit : ρ → Keep ε σ Unit),
          (⟨r :: items, ending⟩ : Listing ε ρ α).visitAll visit
            = (do visit r; (⟨items, ending⟩ : Listing ε ρ α).visitAll visit) :=
        fun visit => Listing.visitAll_cons visit r ⟨items, ending⟩
      rw [hcons, hcons]
      exact bind (h r) (fun _ => ih)

end Keep.Traces

end RustFirmware.Lib
