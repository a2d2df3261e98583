/-
  RustFirmware.Lib.Path
  ─────────────────────
  **PATHS IN A BUFFER OF FIXED SIZE.**

  A walk of a tree keeps the path it has come along in one buffer: a component is written
  behind the part that is used, or there is no room for it.
-/
import RustFirmware.Lib.Bytes
import RustFirmware.Lib.Word

namespace RustFirmware.Lib

variable {ε : Type}

/-- A separator and a component behind the first `pathLen` bytes, and the length of it all. -/
def appendComponent (tooLong : ε) (separator : UInt8) (path : Bytes) (pathLen : Nat)
    (component : Bytes) : Except ε (Bytes × Nat) := do
  let nextLen ← okOr
    ((checkedAdd 64 pathLen 1).bind (fun len => checkedAdd 64 len component.length)) tooLong
  if nextLen > path.length then .error tooLong
  else .ok (overwrite (overwrite path pathLen [separator]) (pathLen + 1) component, nextLen)

theorem appendComponent_cases (tooLong : ε) (separator : UInt8) (buffer : Bytes) (pathLen : Nat)
    (component : Bytes) :
    pathLen + 1 + component.length ≤ buffer.length
      ∧ appendComponent tooLong separator buffer pathLen component
          = .ok (overwrite buffer pathLen (separator :: component), pathLen + 1 + component.length)
    ∨ appendComponent tooLong separator buffer pathLen component = .error tooLong := by
  unfold appendComponent
  cases hnext : (checkedAdd 64 pathLen 1).bind (fun len => checkedAdd 64 len component.length) with
  | none => exact .inr rfl
  | some nextLen =>
      obtain ⟨len, hlen, hnextLen⟩ := Option.bind_eq_some_iff.mp hnext
      obtain ⟨-, rfl⟩ := checkedAdd_eq_some.mp hlen
      obtain ⟨-, rfl⟩ := checkedAdd_eq_some.mp hnextLen
      show _ ∧ (if pathLen + 1 + component.length > buffer.length then _ else _) = _
        ∨ (if pathLen + 1 + component.length > buffer.length then _ else _) = _
      by_cases hroom : pathLen + 1 + component.length > buffer.length
      · rw [if_pos hroom]
        exact .inr rfl
      · rw [if_neg hroom]
        -- the separator and the component are one write
        have hone : overwrite (overwrite buffer pathLen [separator]) (pathLen + 1) component
            = overwrite buffer pathLen (separator :: component) :=
          overwrite_append (by rw [List.length_singleton]; omega)
        rw [hone]
        exact .inl ⟨Nat.not_lt.mp hroom, rfl⟩

/-- Where there is room, it is used. -/
theorem appendComponent_ok (tooLong : ε) (separator : UInt8) {buffer component : Bytes}
    {pathLen : Nat} (hroom : pathLen + 1 + component.length ≤ buffer.length)
    (hbuffer : buffer.length < 2 ^ 64) :
    appendComponent tooLong separator buffer pathLen component
      = .ok (overwrite buffer pathLen (separator :: component), pathLen + 1 + component.length) := by
  obtain ⟨-, happend⟩ | hlong :=
    appendComponent_cases tooLong separator buffer pathLen component
  · exact happend
  · have hone : checkedAdd 64 pathLen 1 = some (pathLen + 1) :=
      checkedAdd_eq_some.mpr ⟨by omega, rfl⟩
    have htwo : checkedAdd 64 (pathLen + 1) component.length
        = some (pathLen + 1 + component.length) := checkedAdd_eq_some.mpr ⟨by omega, rfl⟩
    unfold appendComponent at hlong
    rw [hone, Option.bind_some, htwo] at hlong
    have hfits : ¬ pathLen + 1 + component.length > buffer.length := Nat.not_lt.mpr hroom
    have hgoes : ∀ next : Nat → Except ε (Bytes × Nat),
        (okOr (some (pathLen + 1 + component.length)) tooLong >>= next)
          = next (pathLen + 1 + component.length) := fun _ => rfl
    rw [hgoes, if_neg hfits] at hlong
    cases hlong

/-- The buffer keeps its size. -/
theorem appendComponent_fits {separator : UInt8} {buffer component : Bytes} {pathLen : Nat}
    (h : pathLen + 1 + component.length ≤ buffer.length) :
    pathLen + (separator :: component).length ≤ buffer.length := by
  rw [List.length_cons]
  omega

end RustFirmware.Lib
