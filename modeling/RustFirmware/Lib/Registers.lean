/-
  RustFirmware.Lib.Registers
  ──────────────────────────
  **PROGRAMS THAT TALK TO A DEVICE THROUGH REGISTERS.**

  A program reads and writes cells of type `ι` that hold values of type `ν`.  What a
  read gives is the device's choice: `Responses` answers it with all accesses before
  it in view, so a statement about every `Responses` is one about every device.

  `Meets` is the rule of such programs against a monitor, a partial step function on
  accesses: whatever the device answers within `ok`, every access is one the monitor
  takes, and the result fits the state the monitor ends in.

      meets_bind    : a program and then another
      Meets.sound   : what `Meets` says holds of the accesses performed
-/
import RustFirmware.Lib.Transition

namespace RustFirmware.Lib

/-! ## §1. Programs and their accesses. -/

/-- One access of a cell, with the value that went over. -/
inductive Access (ι ν : Type) where
  | read (cell : ι) (value : ν)
  | write (cell : ι) (value : ν)
  deriving Repr, DecidableEq

/-- A program over cells. -/
inductive Program (ι ν α : Type) where
  | done (result : α)
  | read (cell : ι) (next : ν → Program ι ν α)
  | write (cell : ι) (value : ν) (next : Program ι ν α)

/-- What the device answers to a read, given the accesses before it. -/
abbrev Responses (ι ν : Type) := List (Access ι ν) → ι → ν

namespace Program

variable {ι ν α β σ : Type}

/-- One program and then another. -/
def bind : Program ι ν α → (α → Program ι ν β) → Program ι ν β
  | done a, f => f a
  | read cell next, f => read cell (fun value => bind (next value) f)
  | write cell value next, f => write cell value (bind next f)

instance : Monad (Program ι ν) where
  pure := done
  bind := bind

/-- Read a cell. -/
def get (cell : ι) : Program ι ν ν := read cell done

/-- Write a cell. -/
def set (cell : ι) (value : ν) : Program ι ν Unit := write cell value (done ())

/-- The result and the accesses, those `before` included. -/
def perform (answers : Responses ι ν) :
    Program ι ν α → List (Access ι ν) → α × List (Access ι ν)
  | done a, before => (a, before)
  | read cell next, before =>
      perform answers (next (answers before cell)) (before ++ [.read cell (answers before cell)])
  | write cell value next, before => perform answers next (before ++ [.write cell value])

@[simp] theorem perform_pure (answers : Responses ι ν) (a : α) (before : List (Access ι ν)) :
    perform answers (pure a : Program ι ν α) before = (a, before) := rfl

@[simp] theorem perform_get (answers : Responses ι ν) (cell : ι) (before : List (Access ι ν)) :
    perform answers (get cell) before
      = (answers before cell, before ++ [.read cell (answers before cell)]) := rfl

@[simp] theorem perform_set (answers : Responses ι ν) (cell : ι) (value : ν)
    (before : List (Access ι ν)) :
    perform answers (set cell value) before = ((), before ++ [.write cell value]) := rfl

theorem perform_bind (answers : Responses ι ν) (p : Program ι ν α) (f : α → Program ι ν β)
    (before : List (Access ι ν)) :
    perform answers (p >>= f) before
      = perform answers (f (perform answers p before).1) (perform answers p before).2 := by
  induction p generalizing before with
  | done a => rfl
  | read cell next ih => exact ih _ _
  | write cell value next ih => exact ih _

/-! ## §2. Programs against a monitor. -/

section Monitor

variable (step : σ → Access ι ν → Option σ) (ok : σ → Access ι ν → Prop)

/-- From the monitor state `s` on, every access of the program is one the monitor
    takes, and the result meets `post`; the answers are those within `ok`. -/
def Meets : Program ι ν α → σ → (α → σ → Prop) → Prop
  | done a, s, post => post a s
  | read cell next, s, post =>
      ∀ value, ok s (.read cell value) →
        ∃ s', step s (.read cell value) = some s' ∧ Meets (next value) s' post
  | write cell value next, s, post =>
      ∃ s', step s (.write cell value) = some s' ∧ Meets next s' post

variable {step ok}

theorem Meets.mono {p : Program ι ν α} {s : σ} {post post' : α → σ → Prop}
    (h : Meets step ok p s post) (hpost : ∀ a s, post a s → post' a s) :
    Meets step ok p s post' := by
  induction p generalizing s with
  | done a => exact hpost a s h
  | read cell next ih =>
      intro value hvalue
      obtain ⟨s', hs', hnext⟩ := h value hvalue
      exact ⟨s', hs', ih value hnext⟩
  | write cell value next ih =>
      obtain ⟨s', hs', hnext⟩ := h
      exact ⟨s', hs', ih hnext⟩

/-- **The rule of sequencing.** -/
theorem meets_bind {p : Program ι ν α} {f : α → Program ι ν β} {s : σ} {post : β → σ → Prop}
    (h : Meets step ok p s (fun a s' => Meets step ok (f a) s' post)) :
    Meets step ok (p >>= f) s post := by
  induction p generalizing s with
  | done a => exact h
  | read cell next ih =>
      intro value hvalue
      obtain ⟨s', hs', hnext⟩ := h value hvalue
      exact ⟨s', hs', ih value hnext⟩
  | write cell value next ih =>
      obtain ⟨s', hs', hnext⟩ := h
      exact ⟨s', hs', ih hnext⟩

/-- The device keeps to `ok` in its answers along the accesses of a program. -/
def Honest (step : σ → Access ι ν → Option σ) (ok : σ → Access ι ν → Prop) (s : σ)
    (answers : Responses ι ν) : Prop :=
  ∀ before s' cell, run step s before = some s' → ok s' (.read cell (answers before cell))

/-- **Soundness**: the monitor takes all accesses of a program that meets it. -/
theorem Meets.sound {answers : Responses ι ν} {start : σ} (honest : Honest step ok start answers)
    {p : Program ι ν α} {s : σ} {post : α → σ → Prop} (h : Meets step ok p s post)
    {before : List (Access ι ν)} (hbefore : run step start before = some s) :
    ∃ s', run step start (perform answers p before).2 = some s'
      ∧ post (perform answers p before).1 s' := by
  induction p generalizing s before with
  | done a => exact ⟨s, hbefore, h⟩
  | read cell next ih =>
      obtain ⟨s', hs', hnext⟩ := h (answers before cell) (honest before s cell hbefore)
      refine ih (answers before cell) hnext ?_
      rw [run_append, hbefore, Option.bind_some]
      show (step s _).bind _ = _
      rw [hs']
      rfl
  | write cell value next ih =>
      obtain ⟨s', hs', hnext⟩ := h
      refine ih hnext ?_
      rw [run_append, hbefore, Option.bind_some]
      show (step s _).bind _ = _
      rw [hs']
      rfl

end Monitor

end Program

end RustFirmware.Lib
