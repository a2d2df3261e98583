/-
  RustFirmware.Gpt.Total
  ──────────────────────
  **THE GPT READER DOES NOT TRAP.**

  Whatever the sectors hold and whichever of them cannot be read, each reader ends with a
  value or with `None`: no index is out of range, nothing overflows, and the checksum loop
  comes to the end of the array.
-/
import RustFirmware.Gpt.Probe

namespace RustFirmware.Gpt

open RustFirmware.Lib
open RustFirmware.Virtio

/-! ## §1. Readers without traps. -/

namespace Reading

variable {α β : Type}

/-- The reader has a value or returns `None`. -/
def Total (x : Reading α) : Prop := ∀ reason, x.result ≠ .error (.trap reason)

theorem total_pure (a : α) : Total (pure a : Reading α) := by
  intro reason h
  cases h

theorem total_none : Total (none : Reading α) := by
  intro reason h
  cases h

theorem total_some? (o : Option α) : Total (some? o) := by
  cases o with
  | none => exact total_none
  | some a => exact total_pure a

theorem total_readBlocks (device : BlockDevice) (lba count : Nat) :
    Total (readBlocks device lba count) := by
  intro reason h
  rcases readBlocks_cases device lba count with ⟨-, hread⟩ | hread
  · rw [hread] at h
    cases h
  · rw [hread] at h
    cases h

theorem total_checked {x : Checked α} {a : α} (h : x = .ok a) : Total (checked x) := by
  subst h
  exact total_pure a

/-- A sequence does not trap if neither part does. -/
theorem total_bind {x : Reading α} {f : α → Reading β} (hx : Total x)
    (hf : ∀ a, x.result = .ok a → Total (f a)) : Total (x >>= f) := by
  intro reason h
  obtain ⟨r, reads⟩ := x
  cases r with
  | ok a => exact hf a rfl reason h
  | error e =>
      obtain rfl : e = .trap reason := Except.error.inj h
      exact hx reason rfl

theorem total_ite {p : Prop} [Decidable p] {x y : Reading α} (hx : p → Total x)
    (hy : ¬ p → Total y) : Total (if p then x else y) := by
  by_cases hp : p
  · rw [if_pos hp]
    exact hx hp
  · rw [if_neg hp]
    exact hy hp

theorem total_orElse {x y : Reading α} (hx : Total x) (hy : Total y) : Total (orElse x y) := by
  intro reason h
  obtain ⟨r, reads⟩ := x
  cases r with
  | ok a => cases h
  | error e =>
      cases e with
      | none => exact hy reason h
      | trap reason' => exact hx reason h

/-- What `Option` such a reader gives. -/
theorem Total.cases {x : Reading α} (h : Total x) :
    (∃ a, x.result = .ok a) ∨ x.result = .error .none := by
  cases hresult : x.result with
  | ok a => exact .inl ⟨a, rfl⟩
  | error e =>
      cases e with
      | none => exact .inr rfl
      | trap reason => exact absurd hresult (h reason)

end Reading

open Reading

/-! ## §2. The functions of the source. -/

/-- The checksum loop: every round takes at least a byte off the rest. -/
theorem entryArrayCrcLoop_total (device : BlockDevice) {fuel currentLba remaining : Nat}
    {crc : UInt32} (hfuel : remaining < fuel) :
    Total (entryArrayCrcLoop device fuel currentLba remaining crc) := by
  induction fuel generalizing currentLba remaining crc with
  | zero => omega
  | succ fuel ih =>
      unfold entryArrayCrcLoop
      refine total_ite (fun _ => total_pure _) (fun hne => ?_)
      refine total_bind (total_readBlocks _ _ _) (fun sector hsector => ?_)
      obtain rfl := readBlocks_result_ok hsector
      have hlength := device.sectors_length currentLba 1
      refine total_bind (total_checked (indexRange_ok (Nat.zero_le _) ?_)) (fun chunk _ => ?_)
      · rw [hlength]
        omega
      refine total_bind (total_checked (subWord_ok (Nat.min_le_left _ _))) (fun rest hrest => ?_)
      rw [checked_ok, subWord_ok (Nat.min_le_left _ _)] at hrest
      refine total_bind (total_some? _) (fun nextLba _ => ih ?_)
      rw [← Except.ok.inj hrest]
      unfold virtioSectorSize
      omega

/-- `read_header_at`, on any sector of any device. -/
theorem readHeaderAt_total (device : BlockDevice) (lba : Nat) : Total (readHeaderAt device lba) := by
  unfold readHeaderAt
  refine total_bind (total_readBlocks _ _ _) (fun sector hsector => ?_)
  obtain rfl := readBlocks_result_ok hsector
  have hlength : (device.sectors lba 1).length = 512 := device.sectors_length lba 1
  refine total_bind (total_checked (indexRange_ok (by omega) (by omega))) (fun signature _ => ?_)
  refine total_ite (fun _ => total_none) (fun _ => ?_)
  refine total_bind (total_some? _) (fun headerSize _ => ?_)
  refine total_ite (fun _ => total_none) (fun hsize => ?_)
  have hle : headerSize ≤ (device.sectors lba 1).length := by
    rw [hlength]
    exact (not_not.mp hsize).2
  refine total_bind (total_some? _) (fun _ _ => ?_)
  refine total_bind (total_checked (indexRange_ok (Nat.zero_le _) hle)) (fun copied _ => ?_)
  refine total_ite (fun _ => total_none) (fun _ => ?_)
  refine total_bind (total_some? _) (fun _ _ => total_ite (fun _ => total_none) (fun _ => ?_))
  refine total_bind (total_some? _) (fun _ _ => total_ite (fun _ => total_none) (fun _ => ?_))
  refine total_bind (total_some? _) (fun _ _ => total_bind (total_some? _) (fun _ _ => ?_))
  refine total_ite (fun _ => total_none) (fun _ => ?_)
  refine total_bind (total_some? _) (fun _ _ => total_bind (total_some? _) (fun _ _ => ?_))
  refine total_bind (total_some? _) (fun _ _ => total_ite (fun _ => total_none) (fun _ => ?_))
  refine total_bind (total_some? _) (fun bytes _ => total_bind (total_some? _) (fun _ _ => ?_))
  refine total_ite (fun _ => total_none) (fun _ => total_ite (fun _ => total_none) (fun _ => ?_))
  refine total_bind (total_some? _) (fun expected _ => total_bind ?_ (fun _ _ => total_pure _))
  unfold verifyEntryArrayCrc
  refine total_bind (entryArrayCrcLoop_total device (Nat.lt_succ_self bytes)) (fun _ _ => ?_)
  exact total_ite (fun _ => total_none) (fun _ => total_pure _)

/-- `GptPartitionTable::new`. -/
theorem newPartitionTable_total (device : BlockDevice) : Total (newPartitionTable device) := by
  refine total_orElse (readHeaderAt_total device 1) ?_
  exact total_bind (total_some? _) (fun lastSector _ => readHeaderAt_total device lastSector)

/-- `read_partition_entry`, on a table that has been accepted. -/
theorem readPartitionEntry_total {device : BlockDevice} {header : GptHeader}
    (hwithin : header.Within device.sectorCount) (entryIndex : Nat) :
    Total (readPartitionEntry device header entryIndex) := by
  by_cases hindex : entryIndex < header.partitionEntryCount
  · rw [readPartitionEntry_eq hwithin hindex]
    refine total_bind (total_readBlocks _ _ _) (fun _ _ => ?_)
    exact total_ite (fun _ => total_pure _) (fun _ => total_none)
  · unfold readPartitionEntry
    rw [if_pos (Nat.le_of_not_lt hindex)]
    exact total_none

/-! ## §3. What `probe_virtio` makes of one device. -/

/-- With a table the loop has the last word. -/
theorem probeDevice_table {device : BlockDevice} {boots : GptPartitionEntry → Bool}
    {header : GptHeader} {found : List (Nat × GptPartitionEntry)}
    (htable : (newPartitionTable device).result = .ok header)
    (hfound : (probePartitions device boots header.partitionEntryCount
      (header.partitionEntryCount + 1) header 0).result = .ok found) :
    (probeDevice device boots).result = .ok (some found) := by
  unfold probeDevice
  rw [bind_result (attempt_ok htable)]
  show (probePartitions device boots header.partitionEntryCount _ header 0 >>= _).result = _
  rw [bind_result hfound]
  rfl

/-- Without one there is nothing. -/
theorem probeDevice_none {device : BlockDevice} {boots : GptPartitionEntry → Bool}
    (htable : (newPartitionTable device).result = .error .none) :
    (probeDevice device boots).result = .ok none := by
  unfold probeDevice
  rw [bind_result (attempt_none htable)]
  rfl

end RustFirmware.Gpt
