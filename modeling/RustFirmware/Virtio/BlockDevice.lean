/-
  RustFirmware.Virtio.BlockDevice
  ───────────────────────────────
  **WHAT THE READERS ABOVE THE DRIVER SEE: THE `BlockDevice` TRAIT.**

  A device has 2^64 sectors by number, of which it reports `sectorCount`; a read of
  consecutive sectors gives their contents or an error, whichever the device
  likes.  The contents do not change.
-/
import RustFirmware.Virtio.Queue
import RustFirmware.Lib.Bytes

namespace RustFirmware.Virtio

open RustFirmware.Lib

/-- A `BlockDevice`: `error lba count` is what a read of `count` sectors from `lba` on
    fails with, if it fails. -/
structure BlockDevice where
  sectorCount    : Nat
  sector         : Nat → Bytes
  error          : (lba count : Nat) → Option VirtioError
  sectorCount_lt : sectorCount < 2 ^ 64
  sector_length  : ∀ lba, (sector lba).length = virtioSectorSize

namespace BlockDevice

variable (device : BlockDevice)

/-- The contents of `count` sectors from `lba` on; sector numbers are `u64`s. -/
def sectors (lba : Nat) : (count : Nat) → Bytes
  | 0 => []
  | count + 1 => device.sector (lba % 2 ^ 64) ++ sectors (lba + 1) count

/-- `read_blocks` into a buffer of `count` sectors. -/
def readBlocks (lba count : Nat) : Except VirtioError Bytes :=
  match device.error lba count with
  | some e => .error e
  | none   => .ok (device.sectors lba count)

theorem sectors_length (lba count : Nat) :
    (device.sectors lba count).length = virtioSectorSize * count := by
  induction count generalizing lba with
  | zero => rfl
  | succ count ih =>
      show (device.sector _ ++ device.sectors (lba + 1) count).length = _
      rw [List.length_append, device.sector_length, ih, Nat.mul_succ, Nat.add_comm]

theorem readBlocks_ok {lba count : Nat} {bytes : Bytes}
    (h : device.readBlocks lba count = .ok bytes) : bytes = device.sectors lba count := by
  unfold readBlocks at h
  split at h
  · cases h
  · exact (Except.ok.inj h).symm

/-- Two devices with the same contents, which need not fail on the same reads. -/
def SameDisk (device' : BlockDevice) : Prop :=
  device'.sectorCount = device.sectorCount ∧ device'.sector = device.sector

theorem SameDisk.sectors {device device' : BlockDevice} (h : device.SameDisk device')
    (lba count : Nat) : device'.sectors lba count = device.sectors lba count := by
  induction count generalizing lba with
  | zero => rfl
  | succ count ih =>
      show device'.sector _ ++ device'.sectors (lba + 1) count = _
      rw [h.2, ih]
      rfl

/-- A long run of sectors is two runs. -/
theorem sectors_add (lba m n : Nat) :
    device.sectors lba (m + n) = device.sectors lba m ++ device.sectors (lba + m) n := by
  induction m generalizing lba with
  | zero =>
      rw [Nat.zero_add, Nat.add_zero]
      rfl
  | succ m ih =>
      rw [Nat.succ_add_eq_add_succ, Nat.add_succ]
      show device.sector _ ++ device.sectors (lba + 1) (m + n) = _
      rw [ih, Nat.add_right_comm, Nat.add_assoc]
      show _ = (device.sector _ ++ device.sectors (lba + 1) m) ++ _
      rw [List.append_assoc]

/-- Sector numbers count modulo `2 ^ 64`. -/
theorem sectors_mod (lba count : Nat) :
    device.sectors (lba % 2 ^ 64) count = device.sectors lba count := by
  induction count generalizing lba with
  | zero => rfl
  | succ count ih =>
      show device.sector _ ++ device.sectors (lba % 2 ^ 64 + 1) count = _
      rw [Nat.mod_mod, ← ih (lba % 2 ^ 64 + 1), Nat.mod_add_mod, ih (lba + 1)]
      rfl

/-- A part of a run of sectors that fills whole sectors. -/
theorem sectors_drop (lba count skip : Nat) (h : skip ≤ count) :
    (device.sectors lba count).drop (virtioSectorSize * skip)
      = device.sectors (lba + skip) (count - skip) := by
  have hsplit := device.sectors_add lba skip (count - skip)
  rw [Nat.add_sub_cancel' h] at hsplit
  rw [hsplit, ← device.sectors_length lba skip, List.drop_left]

theorem sectors_take (lba count keep : Nat) (h : keep ≤ count) :
    (device.sectors lba count).take (virtioSectorSize * keep) = device.sectors lba keep := by
  have hsplit := device.sectors_add lba keep (count - keep)
  rw [Nat.add_sub_cancel' h] at hsplit
  rw [hsplit, ← device.sectors_length lba keep, List.take_left]

end BlockDevice

end RustFirmware.Virtio
