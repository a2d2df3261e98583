/-
  RustFirmware.Virtio.Configuration
  ─────────────────────────────────
  **READING THE CONFIGURATION WHILE THE DEVICE CHANGES IT.**

  `read_config_u64_le` reads eight bytes one at a time, between two reads of the
  generation counter, and starts over when the counter has moved.  The device may
  change its configuration between any two of these accesses (`Changes`).

  The counter has 32 bits.  As long as it does not come round within one pass, the
  value returned is one that the device had (`readConfigU64Le_snapshot`), and the loop
  ends with the first pass that nothing disturbs.
-/
import RustFirmware.Virtio.Transport
import Mathlib.Order.Monotone.Defs

namespace RustFirmware.Virtio

open RustFirmware.Lib

/-! ## §1. A configuration that changes. -/

/-- The configurations of a device one after another: `version t` of them were given up
    before the access number `t`. -/
structure Changes where
  version  : Nat → Nat
  contents : (version offset : Nat) → UInt8
  monotone : Monotone version

namespace Changes

variable (changes : Changes) (device : VirtioMmioDevice)

/-- The device answers from the configuration of the moment; the counter has 32 bits. -/
def answers (others : Responses Cell Nat) : Responses Cell Nat := fun before cell =>
  match cell with
  | .byte address =>
      (changes.contents (changes.version before.length) (address - (device.base + 0x100))).toNat
  | .register address =>
      if address = device.base + mmioConfigGeneration then changes.version before.length % 2 ^ 32
      else others before cell
  | .fill _ _ => others before cell

/-- The `count` bytes at `offset` of one version. -/
def snapshot (version offset count : Nat) : Bytes :=
  (List.range count).map (fun i => changes.contents version (offset + i))

/-- The bytes read from access number `t` on, one access each. -/
def observed (t offset count : Nat) : Bytes :=
  (List.range count).map (fun i => changes.contents (changes.version (t + i)) (offset + i))

variable {changes device}

theorem observed_succ (t offset count : Nat) :
    changes.observed t offset (count + 1)
      = changes.contents (changes.version t) offset :: changes.observed (t + 1) (offset + 1) count := by
  unfold observed
  rw [List.range_succ_eq_map, List.map_cons, List.map_map, Nat.add_zero, Nat.add_zero]
  congr 1
  apply List.map_congr_left
  intro i _
  show changes.contents (changes.version (t + (i + 1))) (offset + (i + 1)) = _
  rw [Nat.add_right_comm t, Nat.add_assoc t, Nat.add_right_comm offset, Nat.add_assoc offset]

/-- While the version stands, the bytes are those of one version. -/
theorem observed_of_stable {t offset count : Nat}
    (h : ∀ i < count, changes.version (t + i) = changes.version t) :
    changes.observed t offset count = changes.snapshot (changes.version t) offset count := by
  apply List.map_congr_left
  intro i hi
  rw [h i (List.mem_range.mp hi)]

/-- Between two equal versions there is no other. -/
theorem version_between {t u k : Nat} (hsame : changes.version u = changes.version t) (htk : t ≤ k)
    (hku : k ≤ u) : changes.version k = changes.version t :=
  Nat.le_antisymm (hsame ▸ changes.monotone hku) (changes.monotone htk)

end Changes

/-! ## §2. One pass. -/

section Pass

open VirtioMmioDevice

variable (changes : Changes) (device : VirtioMmioDevice) (others : Responses Cell Nat)

theorem perform_configGeneration (before : List (Access Cell Nat)) :
    ∃ after, Program.perform (changes.answers device others) device.configGeneration before
        = (changes.version before.length % 2 ^ 32, after) ∧ after.length = before.length + 1 := by
  have hcounter : changes.answers device others before
      (.register (device.base + mmioConfigGeneration)) = changes.version before.length % 2 ^ 32 :=
    if_pos rfl
  refine ⟨before ++ [.read (.register (device.base + mmioConfigGeneration))
    (changes.version before.length % 2 ^ 32)], ?_, ?_⟩
  · rw [← hcounter]
    rfl
  · rw [List.length_append]
    rfl

theorem perform_readConfigBytes (offset count : Nat) (before : List (Access Cell Nat)) :
    ∃ after, Program.perform (changes.answers device others) (device.readConfigBytes offset count)
          before = (changes.observed before.length offset count, after)
      ∧ after.length = before.length + count := by
  induction count generalizing offset before with
  | zero => exact ⟨before, rfl, rfl⟩
  | succ count ih =>
      have hbyte : changes.answers device others before (.byte (device.base + 0x100 + offset))
          = (changes.contents (changes.version before.length) offset).toNat := by
        show (changes.contents _ (device.base + 0x100 + offset - (device.base + 0x100))).toNat = _
        rw [Nat.add_sub_cancel_left]
      obtain ⟨after, hafter, hlength⟩ := ih (offset + 1)
        (before ++ [.read (.byte (device.base + 0x100 + offset))
          (changes.contents (changes.version before.length) offset).toNat])
      refine ⟨after, ?_, ?_⟩
      · rw [readConfigBytes, Program.perform_bind, Program.perform_get, hbyte, Program.perform_bind,
          hafter, Program.perform_pure, UInt8.ofNat_toNat, Changes.observed_succ, List.length_append]
        rfl
      · rw [hlength, List.length_append]
        show before.length + 1 + count = before.length + (count + 1)
        omega

/-- **One pass**: the value of the bytes as they were read, if the counter stands where it
    stood; and otherwise the next pass, ten accesses later. -/
theorem perform_pass (offset passes : Nat) (before : List (Access Cell Nat)) :
    ∃ after, after.length = before.length + 10
      ∧ Program.perform (changes.answers device others)
          (device.readConfigU64Le offset (passes + 1)) before
        = if changes.version before.length % 2 ^ 32 = changes.version (before.length + 9) % 2 ^ 32 then
            (some (leNat (changes.observed (before.length + 1) offset 8)), after)
          else Program.perform (changes.answers device others) (device.readConfigU64Le offset passes)
            after := by
  obtain ⟨first, hfirst, hlen₁⟩ :=
    perform_configGeneration changes device others before
  obtain ⟨bytes, hbytes, hlen₂⟩ :=
    perform_readConfigBytes changes device others offset 8 first
  obtain ⟨last, hlast, hlen₃⟩ :=
    perform_configGeneration changes device others bytes
  refine ⟨last, by omega, ?_⟩
  rw [readConfigU64Le, Program.perform_bind, hfirst, Program.perform_bind, hbytes,
    Program.perform_bind, hlast, hlen₂, hlen₁]
  show Program.perform _ (if _ then _ else _) last = _
  split
  · rfl
  · rfl

end Pass

/-! ## §3. The loop. -/

variable {changes : Changes} {device : VirtioMmioDevice} {others : Responses Cell Nat}

/-- The counter does not come round within a pass. -/
def Changes.Slow (changes : Changes) : Prop :=
  ∀ t, changes.version (t + 9) < changes.version t + 2 ^ 32

theorem Changes.Slow.same (h : changes.Slow) {t : Nat}
    (hcounter : changes.version t % 2 ^ 32 = changes.version (t + 9) % 2 ^ 32) :
    changes.version (t + 9) = changes.version t := by
  have hle := changes.monotone (Nat.le_add_right t 9)
  have hlt := h t
  omega

/-- **A value that is returned is one the device had.**  However the configuration
    changes between the accesses, the eight bytes returned all come from one version,
    which was current at some moment of the call; and the call returns as soon as one
    of its passes sees no change. -/
theorem readConfigU64Le_snapshot (hslow : changes.Slow) (offset passes : Nat)
    (before : List (Access Cell Nat)) :
    (∀ value, (Program.perform (changes.answers device others)
          (device.readConfigU64Le offset passes) before).1 = some value →
        ∃ t, before.length ≤ t ∧ t < before.length + 10 * passes
          ∧ value = leNat (changes.snapshot (changes.version t) offset 8))
    ∧ ((∃ pass < passes, changes.version (before.length + 10 * pass + 9)
            = changes.version (before.length + 10 * pass)) →
        ∃ value, (Program.perform (changes.answers device others)
          (device.readConfigU64Le offset passes) before).1 = some value) := by
  induction passes generalizing before with
  | zero =>
      refine ⟨?_, ?_⟩
      · intro value hvalue
        cases hvalue
      · rintro ⟨pass, hpass, -⟩
        omega
  | succ passes ih =>
      obtain ⟨after, hlength, hperform⟩ :=
        perform_pass changes device others offset passes before
      rw [hperform]
      by_cases hcounter : changes.version before.length % 2 ^ 32
          = changes.version (before.length + 9) % 2 ^ 32
      · rw [if_pos hcounter]
        have hsame := hslow.same hcounter
        refine ⟨?_, fun _ => ⟨_, rfl⟩⟩
        intro value hvalue
        obtain rfl := Option.some.inj hvalue
        refine ⟨before.length + 1, by omega, by omega, ?_⟩
        rw [Changes.observed_of_stable]
        intro i hi
        have hthen := Changes.version_between hsame (show before.length ≤ before.length + 1 + i by omega)
          (by omega)
        have hnow := Changes.version_between hsame (show before.length ≤ before.length + 1 by omega)
          (by omega)
        exact hthen.trans hnow.symm
      · rw [if_neg hcounter]
        obtain ⟨hvalue, hreturns⟩ := ih after
        rw [hlength] at hvalue hreturns
        refine ⟨?_, ?_⟩
        · intro value hgiven
          obtain ⟨t, hlo, hhi, hsnapshot⟩ := hvalue value hgiven
          exact ⟨t, by omega, by omega, hsnapshot⟩
        · rintro ⟨pass, hpass, hstable⟩
          cases pass with
          | zero =>
              -- an undisturbed pass leaves the counter where it was
              exact absurd (congrArg (· % 2 ^ 32) hstable).symm hcounter
          | succ pass =>
              refine hreturns ⟨pass, by omega, ?_⟩
              rw [show before.length + 10 + 10 * pass = before.length + 10 * (pass + 1) by omega]
              exact hstable

/-- The configuration changes once, in the middle of the first pass. -/
def oneChange : Changes where
  version  := fun t => if t < 3 then 0 else 1
  contents := fun version _ => if version = 0 then 1 else 2
  monotone := by
    intro t u h
    dsimp only
    split <;> split <;> omega

/-- The second pass returns. -/
theorem readConfigU64Le_snapshot_example :
    ∃ value, (Program.perform (oneChange.answers ⟨0x10001000, by decide⟩ (fun _ _ => 0))
      (VirtioMmioDevice.readConfigU64Le ⟨0x10001000, by decide⟩ 0 2) []).1 = some value := by
  have hslow : oneChange.Slow := by
    intro t
    show (if t + 9 < 3 then 0 else 1) < (if t < 3 then 0 else 1) + 2 ^ 32
    split <;> split <;> omega
  exact (readConfigU64Le_snapshot hslow 0 2 []).2 ⟨1, by decide, by decide⟩

end RustFirmware.Virtio
