/-
  RustFirmware.Boot.Probe
  ───────────────────────
  **THE WHOLE OF `probe_virtio`: THE FIRST PARTITION THAT CAN BE BOOTED IS BOOTED.**

  The walk goes through the block devices and through the slots of their tables, and each
  partition with the boot flag is an attempt.  An attempt that fails has already written
  to memory, and the next one builds its allocator anew from the live device tree.  That
  tree is outside the pool, so it is what it was, and whether an attempt succeeds is
  decided before the walk begins (`FlaggedPartition.boots`).  So is whether it goes on beyond
  the bounds (`FlaggedPartition.stalls`), which is where the walk stops as well.
-/
import RustFirmware.Boot.Partition
import RustFirmware.Gpt.Total
import RustFirmware.Lib.Attempts
import Mathlib.Data.List.Find

namespace RustFirmware.InMemory

open RustFirmware.Lib hiding readLe
open RustFirmware.Memory hiding Holds
open RustFirmware.DeviceTree
open RustFirmware.Virtio (BlockDevice)
open RustFirmware.Gpt (GptHeader GptPartitionEntry newPartitionTable readPartitionEntry)
open RustFirmware.Fat (FatVolume)
open RustFirmware.Ext4 (Ext4Volume)
open RustFirmware.Filesystem (DetectedFilesystem detectPartitionFilesystem)
open RustFirmware.Boot hiding LoadedFile loadFirstFile checkKernelHeader relocateKernel boot
  tryBootFromFilesystem Filesystem

/-! ## §1. The functions of the source. -/

/-- What the walk depends on beside the devices: where the firmware is, what a failed read
    leaves in the pages of an attempt, and how far the readers go. -/
structure Surroundings where
  firmware : FirmwareLayout
  left     : (blockDeviceIndex partitionNumber : Nat) → Lib.Memory
  bounds   : Bounds

section Source

variable (around : Surroundings) (bootHart deviceTreePtr : Nat)

/-- The loop of `probe_virtio` over the slots of one table, with the memory it works in. -/
def probePartitions (device : BlockDevice) (blockDeviceIndex partitionCount : Nat) :
    (fuel : Nat) → (partitions : GptHeader) → (partitionIndex : Nat) → Lib.Memory →
      Checked (Option Registers) × Lib.Memory
  | 0, _, _, memory => (.error .outOfFuel, memory)
  | fuel + 1, partitions, partitionIndex, memory =>
      if partitionIndex < partitionCount then
        match (readPartitionEntry device partitions partitionIndex).result with
        | .error .none          => (.ok none, memory)
        | .error (.trap reason) => (.error reason, memory)
        | .ok partition =>
            let partitionIndex := partitionIndex + 1
            if !partition.isPresent then
              probePartitions device blockDeviceIndex partitionCount fuel partitions partitionIndex
                memory
            else
              let filesystem := detectPartitionFilesystem device partition.firstLba
              let attempt :=
                if partition.bootable then
                  linuxTryBootFromPartition around.firmware
                    (around.left blockDeviceIndex partitionIndex) around.bounds device partition
                    filesystem blockDeviceIndex partitionIndex bootHart deviceTreePtr memory
                else (none, memory)
              match attempt with
              | (some (.ok registers), memory) => (.ok (some registers), memory)
              | (some (.error reason), memory) => (.error reason, memory)
              | (none, memory) =>
                  match (newPartitionTable device).result with
                  | .error .none          => (.ok none, memory)
                  | .error (.trap reason) => (.error reason, memory)
                  | .ok partitions =>
                      probePartitions device blockDeviceIndex partitionCount fuel partitions
                        partitionIndex memory
      else (.ok none, memory)

/-- The body of the outer loop, for one block device: `none` is for one whose driver does
    not start. -/
def probeBlockDevice (blockDeviceIndex : Nat) (driver : Option BlockDevice) (memory : Lib.Memory) :
    Checked (Option Registers) × Lib.Memory :=
  match driver with
  | none => (.ok none, memory)
  | some device =>
      match (newPartitionTable device).result with
      | .error .none          => (.ok none, memory)
      | .error (.trap reason) => (.error reason, memory)
      | .ok partitions =>
          probePartitions around bootHart deviceTreePtr device blockDeviceIndex
            partitions.partitionEntryCount (partitions.partitionEntryCount + 1) partitions 0 memory

/-- The outer loop, from `blockDeviceIndex` on. -/
def probeBlockDevices (blockDeviceIndex : Nat) :
    List (Option BlockDevice) → Lib.Memory → Checked (Option Registers) × Lib.Memory
  | [], memory => (.ok none, memory)
  | driver :: drivers, memory =>
      match probeBlockDevice around bootHart deviceTreePtr blockDeviceIndex driver memory with
      | (.ok none, memory) => probeBlockDevices (blockDeviceIndex + 1) drivers memory
      | ended              => ended

/-- `probe_virtio`, with the block devices that the slots show: the registers at the jump to
    a kernel, `none` when it returns, or `outOfFuel` where it goes on beyond the bounds. -/
def probeVirtio (drivers : List (Option BlockDevice)) (memory : Lib.Memory) :
    Checked (Option Registers) × Lib.Memory :=
  probeBlockDevices around bootHart deviceTreePtr 0 drivers memory

end Source

/-! ## §2. The attempts of a walk. -/

/-- A partition with the boot flag, as the walk comes to it. -/
structure FlaggedPartition where
  device           : BlockDevice
  blockDeviceIndex : Nat
  partitionNumber  : Nat
  partition        : GptPartitionEntry

namespace FlaggedPartition

/-- What `detect_partition_filesystem` says about it. -/
def filesystem (flagged : FlaggedPartition) : DetectedFilesystem :=
  detectPartitionFilesystem flagged.device flagged.partition.firstLba

/-- The volume that is mounted from it. -/
def volume (flagged : FlaggedPartition) (bounds : Bounds) : Option Volume :=
  match flagged.filesystem with
  | .fat =>
      (FatVolume.new flagged.device (UInt64.ofNat flagged.partition.firstLba)).toOption.map
        (fun volume => fatVolume volume bounds)
  | .ext4 =>
      (Ext4Volume.new flagged.device flagged.partition.firstLba).toOption.map
        (fun volume => ext4Volume volume bounds)
  | .unknown => none

/-- The attempt to boot it. -/
def tryBoot (around : Surroundings) (bootHart deviceTreePtr : Nat) (flagged : FlaggedPartition)
    (memory : Lib.Memory) : Option (Checked Registers) × Lib.Memory :=
  linuxTryBootFromPartition around.firmware
    (around.left flagged.blockDeviceIndex flagged.partitionNumber) around.bounds flagged.device
    flagged.partition flagged.filesystem flagged.blockDeviceIndex flagged.partitionNumber bootHart
    deviceTreePtr memory

/-- `try_boot_from_partition` on it. -/
def run (around : Surroundings) (bootHart deviceTreePtr : Nat) (flagged : FlaggedPartition)
    (memory : Lib.Memory) : Option Registers × Lib.Memory :=
  tryBootFromPartition around.firmware (around.left flagged.blockDeviceIndex flagged.partitionNumber)
    around.bounds flagged.device flagged.partition flagged.filesystem flagged.blockDeviceIndex
    flagged.partitionNumber bootHart deviceTreePtr memory

/-- Whether the page model of the sequence runs through on its volume, with a clone that is
    not at address 0. -/
def boots (around : Surroundings) (deviceTreePtr : Nat) (blob : Bytes) (flagged : FlaggedPartition) :
    Bool :=
  match flagged.volume around.bounds, pageAllocatorFromLiveFdt around.firmware deviceTreePtr blob 8 16
      (List.replicate 32 emptyDescriptor) with
  | some volume, some a =>
      match (Boot.tryBootFromFilesystem volume a flagged.blockDeviceIndex flagged.partitionNumber
          deviceTreePtr blob).1 with
      | none         => false
      | some handOff => handOff.dtb.pointer != 0
  | _, _ => false

/-- Whether a search on its volume goes on beyond the bounds. -/
def stalls (around : Surroundings) (deviceTreePtr : Nat) (blob : Bytes)
    (flagged : FlaggedPartition) : Bool :=
  match flagged.volume around.bounds with
  | none        => false
  | some volume => volumeStalls around.firmware volume deviceTreePtr blob

/-- Whether the walk comes no further. -/
def stops (around : Surroundings) (deviceTreePtr : Nat) (blob : Bytes) (flagged : FlaggedPartition) :
    Bool :=
  flagged.stalls around deviceTreePtr blob || flagged.boots around deviceTreePtr blob

/-- All searches on it come to an end within the bounds: there is no cycle in a FAT volume, and
    no extent tree of an ext4 volume is too deep. -/
inductive SearchesEnd (flagged : FlaggedPartition) (bounds : Bounds) : Prop
  | fat (hkind : flagged.filesystem = .fat)
      (hends : ∀ volume,
        FatVolume.new flagged.device (UInt64.ofNat flagged.partition.firstLba) = .ok volume →
        Fat.NoCycle volume)
      (hbound : Fat.enoughClusters ≤ bounds.clusters)
  | ext4 (hkind : flagged.filesystem = .ext4)
      (hends : ∀ volume, Ext4Volume.new flagged.device flagged.partition.firstLba = .ok volume →
        ∀ number inode, volume.readInode number = .ok inode →
        Ext4.EndsWithin volume Ext4.ext4MaxExtentDepth inode)
      (hbound : Ext4.ext4MaxExtentDepth < bounds.levels)
  | unknown (hkind : flagged.filesystem = .unknown)

/-- Its files. -/
def Has (flagged : FlaggedPartition) (bounds : Bounds) : Bytes → Bytes → Prop :=
  PartitionHas bounds flagged.device flagged.partition flagged.filesystem

end FlaggedPartition

/-- The entries with the boot flag among those that a device reports. -/
def flaggedEntries (device : BlockDevice) (blockDeviceIndex : Nat)
    (found : List (Nat × GptPartitionEntry)) : List FlaggedPartition :=
  (found.filter (fun entry => entry.2.bootable)).map
    (fun entry => ⟨device, blockDeviceIndex, entry.1, entry.2⟩)

/-- The flagged partitions of one device, if nothing on it boots. -/
def flaggedOn (blockDeviceIndex : Nat) (driver : Option BlockDevice) : List FlaggedPartition :=
  match driver with
  | none => []
  | some device =>
      match (Gpt.probeDevice device (fun _ => false)).result with
      | .ok (some found) => flaggedEntries device blockDeviceIndex found
      | _                => []

/-- The flagged partitions of all devices, in the order of the walk. -/
def flaggedPartitions : (blockDeviceIndex : Nat) → List (Option BlockDevice) → List FlaggedPartition
  | _, [] => []
  | blockDeviceIndex, driver :: drivers =>
      flaggedOn blockDeviceIndex driver ++ flaggedPartitions (blockDeviceIndex + 1) drivers

/-- The first of them that boots, or on which a search goes on beyond the bounds. -/
def firstStop (around : Surroundings) (deviceTreePtr : Nat) (blob : Bytes)
    (drivers : List (Option BlockDevice)) : Option FlaggedPartition :=
  (flaggedPartitions 0 drivers).find? (fun flagged => flagged.stops around deviceTreePtr blob)

/-! ## §3. The walk is its attempts, one after the other. -/

/-- How a walk ends, by its last attempt. -/
def outcomeOf : Option (Checked Registers) → Checked (Option Registers)
  | none                   => .ok none
  | some (.ok registers)   => .ok (some registers)
  | some (.error reason)   => .error reason

/-- A walk as its attempts leave it. -/
def ended (result : Option (Checked Registers) × Lib.Memory) :
    Checked (Option Registers) × Lib.Memory :=
  (outcomeOf result.1, result.2)

/-- An attempt, and what follows it when it fails. -/
theorem ended_match (attempt : Option (Checked Registers) × Lib.Memory)
    {walk : Lib.Memory → Checked (Option Registers) × Lib.Memory}
    {rest : Lib.Memory → Option (Checked Registers) × Lib.Memory}
    (h : ∀ memory, walk memory = ended (rest memory)) :
    (match attempt with
      | (some (.ok registers), memory) => (.ok (some registers), memory)
      | (some (.error reason), memory) => (.error reason, memory)
      | (none, memory) => walk memory)
      = ended (match attempt with
        | (some result, memory) => (some result, memory)
        | (none, memory) => rest memory) := by
  obtain ⟨result, memory⟩ := attempt
  cases result with
  | none => exact h memory
  | some result =>
      cases result with
      | ok registers => rfl
      | error reason => rfl

theorem flaggedEntries_cons (device : BlockDevice) (blockDeviceIndex partitionNumber : Nat)
    (partition : GptPartitionEntry) (found : List (Nat × GptPartitionEntry)) :
    flaggedEntries device blockDeviceIndex ((partitionNumber, partition) :: found)
      = if partition.bootable then
          ⟨device, blockDeviceIndex, partitionNumber, partition⟩
            :: flaggedEntries device blockDeviceIndex found
        else flaggedEntries device blockDeviceIndex found := by
  unfold flaggedEntries
  rw [List.filter_cons]
  dsimp only
  cases partition.bootable with
  | true => rfl
  | false => rfl

section Walk

variable {around : Surroundings} {bootHart deviceTreePtr : Nat} {device : BlockDevice}
  {blockDeviceIndex : Nat}

/-- **The loop over the slots** does not trap; it tries the flagged entries of those that it
    would report if nothing booted. -/
theorem probePartitions_eq {fuel partitionCount partitionIndex : Nat} {partitions : GptHeader}
    (hwithin : partitions.Within device.sectorCount) (hfuel : partitionCount - partitionIndex < fuel) :
    ∃ found, (Gpt.probePartitions device (fun _ => false) partitionCount fuel partitions
          partitionIndex).result = .ok found
      ∧ ∀ memory, probePartitions around bootHart deviceTreePtr device blockDeviceIndex partitionCount
          fuel partitions partitionIndex memory
        = ended (attempts (FlaggedPartition.tryBoot around bootHart deviceTreePtr)
            (flaggedEntries device blockDeviceIndex found) memory) := by
  induction fuel generalizing partitions partitionIndex with
  | zero => omega
  | succ fuel ih =>
      unfold Gpt.probePartitions probePartitions
      by_cases hindex : partitionIndex < partitionCount
      case neg =>
        rw [if_neg hindex]
        exact ⟨[], rfl, fun memory => by rw [if_neg hindex]; rfl⟩
      rw [if_pos hindex]
      have hfuel' : partitionCount - (partitionIndex + 1) < fuel := by omega
      rcases (Gpt.readPartitionEntry_total hwithin partitionIndex).cases with ⟨partition, hslot⟩ | hslot
      case inr =>
        rw [Gpt.Reading.bind_result (Gpt.Reading.attempt_none hslot)]
        exact ⟨[], rfl, fun memory => by rw [if_pos hindex, hslot]; rfl⟩
      rw [Gpt.Reading.bind_result (Gpt.Reading.attempt_ok hslot), hslot]
      dsimp only
      cases hpresent : partition.isPresent with
      | false =>
          obtain ⟨found, hfound, hloop⟩ := ih hwithin hfuel'
          refine ⟨found, hfound, fun memory => ?_⟩
          rw [if_pos hindex]
          exact hloop memory
      | true =>
      -- a present slot: the flag decides whether it is an attempt
      rw [Bool.and_false]
      have hattempt : ∀ (found : List (Nat × GptPartitionEntry)) (memory : Lib.Memory),
          attempts (FlaggedPartition.tryBoot around bootHart deviceTreePtr)
              (flaggedEntries device blockDeviceIndex ((partitionIndex + 1, partition) :: found)) memory
            = match (if partition.bootable then
                  linuxTryBootFromPartition around.firmware
                    (around.left blockDeviceIndex (partitionIndex + 1)) around.bounds device partition
                    (detectPartitionFilesystem device partition.firstLba) blockDeviceIndex
                    (partitionIndex + 1) bootHart deviceTreePtr memory
                else (none, memory)) with
              | (some result, memory) => (some result, memory)
              | (none, memory) => attempts (FlaggedPartition.tryBoot around bootHart deviceTreePtr)
                  (flaggedEntries device blockDeviceIndex found) memory := by
        intro found memory
        rw [flaggedEntries_cons]
        cases partition.bootable with
        | true =>
            rw [if_pos rfl, if_pos rfl, attempts]
            have hsame : linuxTryBootFromPartition around.firmware
                (around.left blockDeviceIndex (partitionIndex + 1)) around.bounds device partition
                (detectPartitionFilesystem device partition.firstLba) blockDeviceIndex
                (partitionIndex + 1) bootHart deviceTreePtr memory
                = FlaggedPartition.tryBoot around bootHart deviceTreePtr
                    ⟨device, blockDeviceIndex, partitionIndex + 1, partition⟩ memory := rfl
            rw [hsame]
            cases FlaggedPartition.tryBoot around bootHart deviceTreePtr
                ⟨device, blockDeviceIndex, partitionIndex + 1, partition⟩ memory with
            | mk result memory' =>
                cases result with
                | some result => rfl
                | none => rfl
        | false => rfl
      rcases (Gpt.newPartitionTable_total device).cases with ⟨reopened, htable⟩ | htable
      case inr =>
        refine ⟨[(partitionIndex + 1, partition)], ?_, fun memory => ?_⟩
        · show (Gpt.Reading.attempt (newPartitionTable device) >>= _).result = _
          rw [Gpt.Reading.bind_result (Gpt.Reading.attempt_none htable)]
          rfl
        · rw [if_pos hindex, hattempt, htable]
          exact ended_match _ (fun memory => rfl)
      obtain ⟨found, hfound, hloop⟩ := ih (Gpt.newPartitionTable_within htable) hfuel'
      refine ⟨(partitionIndex + 1, partition) :: found, ?_, fun memory => ?_⟩
      · show (Gpt.Reading.attempt (newPartitionTable device) >>= _).result = _
        rw [Gpt.Reading.bind_result (Gpt.Reading.attempt_ok htable)]
        show (Gpt.probePartitions device _ partitionCount fuel reopened _ >>= _).result = _
        rw [Gpt.Reading.bind_result hfound]
        rfl
      · rw [if_pos hindex, hattempt, htable]
        exact ended_match _ hloop

/-- One block device. -/
theorem probeBlockDevice_eq (driver : Option BlockDevice) (memory : Lib.Memory) :
    probeBlockDevice around bootHart deviceTreePtr blockDeviceIndex driver memory
      = ended (attempts (FlaggedPartition.tryBoot around bootHart deviceTreePtr)
          (flaggedOn blockDeviceIndex driver) memory) := by
  cases driver with
  | none => rfl
  | some device =>
      unfold probeBlockDevice flaggedOn
      dsimp only
      rcases (Gpt.newPartitionTable_total device).cases with ⟨partitions, htable⟩ | htable
      · obtain ⟨found, hfound, hloop⟩ := @probePartitions_eq around bootHart deviceTreePtr device
          blockDeviceIndex (partitions.partitionEntryCount + 1) partitions.partitionEntryCount 0
          partitions (Gpt.newPartitionTable_within htable) (Nat.lt_succ_of_le (Nat.sub_le _ 0))
        rw [htable, Gpt.probeDevice_table htable hfound]
        exact hloop memory
      · rw [htable, Gpt.probeDevice_none htable]
        rfl

/-- **The walk over all devices.** -/
theorem probeBlockDevices_eq (blockDeviceIndex : Nat) (drivers : List (Option BlockDevice))
    (memory : Lib.Memory) :
    probeBlockDevices around bootHart deviceTreePtr blockDeviceIndex drivers memory
      = ended (attempts (FlaggedPartition.tryBoot around bootHart deviceTreePtr)
          (flaggedPartitions blockDeviceIndex drivers) memory) := by
  induction drivers generalizing blockDeviceIndex memory with
  | nil => rfl
  | cons driver drivers ih =>
      unfold probeBlockDevices flaggedPartitions
      rw [probeBlockDevice_eq, attempts_append]
      cases attempts (FlaggedPartition.tryBoot around bootHart deviceTreePtr)
          (flaggedOn blockDeviceIndex driver) memory with
      | mk result memory' =>
          cases result with
          | none => exact ih _ memory'
          | some result =>
              cases result with
              | ok registers => rfl
              | error reason => rfl

end Walk

/-! ## §4. Which attempts succeed. -/

namespace FlaggedPartition

/-- An attempt is one on the volume that is mounted, if there is one. -/
theorem run_eq (around : Surroundings) (bootHart deviceTreePtr : Nat)
    (flagged : FlaggedPartition) (m : Lib.Memory) :
    flagged.run around bootHart deviceTreePtr m
      = match flagged.volume around.bounds with
        | none => (none, m)
        | some volume =>
            tryBootFromVolume around.firmware
              (around.left flagged.blockDeviceIndex flagged.partitionNumber) volume
              flagged.blockDeviceIndex flagged.partitionNumber bootHart deviceTreePtr m := by
  unfold run volume tryBootFromPartition
  cases flagged.filesystem with
  | fat =>
      cases FatVolume.new flagged.device (UInt64.ofNat flagged.partition.firstLba) with
      | error e => rfl
      | ok volume => rfl
  | ext4 =>
      cases Ext4Volume.new flagged.device flagged.partition.firstLba with
      | error e => rfl
      | ok volume => rfl
  | unknown => rfl

/-- Whether it goes on beyond the bounds is a matter of that volume, too. -/
theorem partitionStalls_eq (around : Surroundings) (deviceTreePtr : Nat) (flagged : FlaggedPartition)
    (blob : Bytes) :
    partitionStalls around.firmware around.bounds flagged.device flagged.partition flagged.filesystem
        deviceTreePtr blob = flagged.stalls around deviceTreePtr blob := by
  unfold partitionStalls stalls volume
  cases flagged.filesystem with
  | fat =>
      cases FatVolume.new flagged.device (UInt64.ofNat flagged.partition.firstLba) with
      | error e => rfl
      | ok volume => rfl
  | ext4 =>
      cases Ext4Volume.new flagged.device flagged.partition.firstLba with
      | error e => rfl
      | ok volume => rfl
  | unknown => rfl

theorem tryBoot_of_stalls {around : Surroundings} {bootHart deviceTreePtr : Nat}
    {flagged : FlaggedPartition} {m : Lib.Memory}
    (h : flagged.stalls around deviceTreePtr (blobAt m deviceTreePtr) = true) :
    flagged.tryBoot around bootHart deviceTreePtr m = (some (.error .outOfFuel), m) := by
  rw [← partitionStalls_eq] at h
  unfold tryBoot linuxTryBootFromPartition
  rw [if_pos h]

theorem tryBoot_of_ends {around : Surroundings} {bootHart deviceTreePtr : Nat}
    {flagged : FlaggedPartition} {m : Lib.Memory}
    (h : flagged.stalls around deviceTreePtr (blobAt m deviceTreePtr) = false) :
    flagged.tryBoot around bootHart deviceTreePtr m
      = ((flagged.run around bootHart deviceTreePtr m).1.map Except.ok,
          (flagged.run around bootHart deviceTreePtr m).2) := by
  rw [← partitionStalls_eq] at h
  unfold tryBoot linuxTryBootFromPartition
  rw [if_neg (Bool.eq_false_iff.mp h)]
  split
  next registers memory hattempt =>
    have hrun : flagged.run around bootHart deviceTreePtr m = (some registers, memory) := hattempt
    rw [hrun]
    rfl
  next memory hattempt =>
    have hrun : flagged.run around bootHart deviceTreePtr m = (none, memory) := hattempt
    rw [hrun]
    rfl

/-- That volume serves the files of the partition. -/
theorem volume_serves {flagged : FlaggedPartition} {bounds : Bounds} {volume : Volume}
    (h : flagged.volume bounds = some volume) : Serves volume (flagged.Has bounds) := by
  unfold FlaggedPartition.volume at h
  unfold Has PartitionHas
  cases hkind : flagged.filesystem with
  | fat =>
      rw [hkind] at h
      obtain ⟨mounted, hmount, rfl⟩ := Option.map_eq_some_iff.mp h
      rw [toOption_eq_some] at hmount
      have hserves := fatVolume_serves hmount bounds
      exact ⟨fun path file contents hfile hread =>
        ⟨mounted, hmount, hserves.holds path file contents hfile hread⟩, hserves.sized⟩
  | ext4 =>
      rw [hkind] at h
      obtain ⟨mounted, hmount, rfl⟩ := Option.map_eq_some_iff.mp h
      rw [toOption_eq_some] at hmount
      have hserves := ext4Volume_serves mounted bounds
      exact ⟨fun path file contents hfile hread =>
        ⟨mounted, hmount, hserves.holds path file contents hfile hread⟩, hserves.sized⟩
  | unknown =>
      rw [hkind] at h
      cases h

/-- **Where all searches come to an end**, so does the attempt. -/
theorem SearchesEnd.stalls_eq_false {flagged : FlaggedPartition} {around : Surroundings}
    (h : flagged.SearchesEnd around.bounds) (deviceTreePtr : Nat) (blob : Bytes) :
    flagged.stalls around deviceTreePtr blob = false := by
  have hvolume : ∀ volume, flagged.volume around.bounds = some volume →
      ∀ path, volume.endless path = false := by
    intro volume hvolume
    unfold FlaggedPartition.volume at hvolume
    cases h with
    | fat hkind hends hbound =>
        rw [hkind] at hvolume
        obtain ⟨mounted, hmount, rfl⟩ := Option.map_eq_some_iff.mp hvolume
        exact fatVolume_ends (hends mounted (toOption_eq_some.mp hmount)) hbound
    | ext4 hkind hends hbound =>
        rw [hkind] at hvolume
        obtain ⟨mounted, hmount, rfl⟩ := Option.map_eq_some_iff.mp hvolume
        exact ext4Volume_ends (hends mounted (toOption_eq_some.mp hmount)) hbound
    | unknown hkind =>
        rw [hkind] at hvolume
        cases hvolume
  unfold stalls
  cases hmounted : flagged.volume around.bounds with
  | none => rfl
  | some volume =>
      dsimp only
      unfold volumeStalls
      cases pageAllocatorFromLiveFdt around.firmware deviceTreePtr blob 8 16
          (List.replicate 32 emptyDescriptor) with
      | none => rfl
      | some a => exact InMemory.stalls_eq_false (hvolume volume hmounted) a

section Attempt

variable {around : Surroundings} {bootHart deviceTreePtr : Nat} {m : Lib.Memory} {d : Dtb}
  {tree : Tree}

/-- **Whether an attempt succeeds** is a matter of the page model. -/
theorem run_isSome (hlive : Dtb.fromPtr deviceTreePtr (blobAt m deviceTreePtr) = .ok d)
    (hbootable : Bootable d tree) (flagged : FlaggedPartition) :
    (flagged.run around bootHart deviceTreePtr m).1.isSome
      = flagged.boots around deviceTreePtr (blobAt m deviceTreePtr) := by
  rw [run_eq]
  unfold boots
  cases hvolume : flagged.volume around.bounds with
  | none => rfl
  | some volume =>
      have hsized := (volume_serves hvolume).sized
      rw [Bool.eq_iff_iff, Option.isSome_iff_exists]
      constructor
      · rintro ⟨registers, hrun⟩
        obtain ⟨a, handOff, a', hbuild, hmodel, hplaced⟩ :=
          model_of_handsOver hsized hlive hbootable (Prod.ext hrun rfl)
        rw [hbuild]
        dsimp only
        rw [hmodel]
        exact bne_iff_ne.mpr hplaced
      · intro hboots
        cases hbuild : pageAllocatorFromLiveFdt around.firmware deviceTreePtr (blobAt m deviceTreePtr)
            8 16 (List.replicate 32 emptyDescriptor) with
        | none =>
            rw [hbuild] at hboots
            cases hboots
        | some a =>
            rw [hbuild] at hboots
            dsimp only at hboots
            cases hmodel : Boot.tryBootFromFilesystem volume a flagged.blockDeviceIndex
                flagged.partitionNumber deviceTreePtr (blobAt m deviceTreePtr) with
            | mk handOff a' =>
                rw [hmodel] at hboots
                cases handOff with
                | none => cases hboots
                | some handOff =>
                    obtain ⟨m', hrun, -⟩ := handsOver_of_model hsized
                      (around.left flagged.blockDeviceIndex flagged.partitionNumber) bootHart hlive
                      hbootable hbuild hmodel (bne_iff_ne.mp hboots)
                    exact ⟨_, congrArg Prod.fst hrun⟩

/-- And so is whether the walk comes past it. -/
theorem tryBoot_isSome (hlive : Dtb.fromPtr deviceTreePtr (blobAt m deviceTreePtr) = .ok d)
    (hbootable : Bootable d tree) (flagged : FlaggedPartition) :
    (flagged.tryBoot around bootHart deviceTreePtr m).1.isSome
      = flagged.stops around deviceTreePtr (blobAt m deviceTreePtr) := by
  unfold stops
  cases hstalls : flagged.stalls around deviceTreePtr (blobAt m deviceTreePtr) with
  | true =>
      rw [tryBoot_of_stalls hstalls]
      rfl
  | false => rw [tryBoot_of_ends hstalls, Option.isSome_map, run_isSome hlive hbootable, Bool.false_or]

end Attempt

end FlaggedPartition

/-! ## §5. The walk. -/

section Probe

variable {around : Surroundings} {bootHart deviceTreePtr : Nat} {m m' : Lib.Memory} {d : Dtb}
  {tree : Tree}

/-- The allocator that each attempt builds from this device tree. -/
def allocatorOf (around : Surroundings) (deviceTreePtr : Nat) (blob : Bytes) : Option PageAllocator :=
  pageAllocatorFromLiveFdt around.firmware deviceTreePtr blob 8 16 (List.replicate 32 emptyDescriptor)

/-- **What attempts leave of the memory `m`**: the live tree is where it was, and only
    conventional memory was written. -/
structure Attempted (around : Surroundings) (deviceTreePtr : Nat) (m m' : Lib.Memory) : Prop where
  blob  : blobAt m' deviceTreePtr = blobAt m deviceTreePtr
  frame : ∀ a, allocatorOf around deviceTreePtr (blobAt m deviceTreePtr) = some a → Frame a m m'
  idle  : allocatorOf around deviceTreePtr (blobAt m deviceTreePtr) = none → m' = m

theorem Attempted.refl (around : Surroundings) (deviceTreePtr : Nat) (m : Lib.Memory) :
    Attempted around deviceTreePtr m m := ⟨rfl, fun a _ => Frame.refl a m, fun _ => rfl⟩

/-- `try_boot_from_partition` keeps that. -/
theorem Attempted.run (hlive : Dtb.fromPtr deviceTreePtr (blobAt m deviceTreePtr) = .ok d)
    (hbootable : Bootable d tree) (h : Attempted around deviceTreePtr m m')
    (bootHart : Nat) (flagged : FlaggedPartition) :
    Attempted around deviceTreePtr m (flagged.run around bootHart deviceTreePtr m').2 := by
  have hlive' : Dtb.fromPtr deviceTreePtr (blobAt m' deviceTreePtr) = .ok d := h.blob ▸ hlive
  cases hbuild : allocatorOf around deviceTreePtr (blobAt m deviceTreePtr) with
  | none =>
      have hnothing : flagged.run around bootHart deviceTreePtr m' = (none, m') :=
        tryBootFromPartition_none (by rw [h.blob]; exact hbuild)
      rw [hnothing]
      exact h
  | some a =>
      have hframe : Frame a m' (flagged.run around bootHart deviceTreePtr m').2 :=
        tryBootFromPartition_frame hlive' hbootable (by rw [h.blob]; exact hbuild)
      have hall : Frame a m (flagged.run around bootHart deviceTreePtr m').2 :=
        (h.frame a hbuild).trans hframe (fun _ hp => hp)
      obtain ⟨-, -, hlarge, -, -, hblob⟩ := fromPtr_view hlive
      refine ⟨hall.blobAt_eq hblob hlarge (live_outside hbuild hlive).2, ?_, ?_⟩
      · intro a' hbuild'
        obtain rfl : a = a' := Option.some.inj (hbuild.symm.trans hbuild')
        exact hall
      · intro hnone
        rw [hbuild] at hnone
        cases hnone

/-- And so does an attempt, however it ends. -/
theorem Attempted.tryBoot (hlive : Dtb.fromPtr deviceTreePtr (blobAt m deviceTreePtr) = .ok d)
    (hbootable : Bootable d tree) (h : Attempted around deviceTreePtr m m')
    (bootHart : Nat) (flagged : FlaggedPartition) :
    Attempted around deviceTreePtr m (flagged.tryBoot around bootHart deviceTreePtr m').2 := by
  cases hstalls : flagged.stalls around deviceTreePtr (blobAt m' deviceTreePtr) with
  | true =>
      rw [FlaggedPartition.tryBoot_of_stalls hstalls]
      exact h
  | false =>
      rw [FlaggedPartition.tryBoot_of_ends hstalls]
      exact h.run hlive hbootable bootHart flagged

/-- What the list of attempts has for a result. -/
theorem tryBoot_find (hlive : Dtb.fromPtr deviceTreePtr (blobAt m deviceTreePtr) = .ok d)
    (hbootable : Bootable d tree) (bootHart : Nat) (drivers : List (Option BlockDevice)) :
    (∀ flagged, firstStop around deviceTreePtr (blobAt m deviceTreePtr) drivers = some flagged →
        ∃ s, Attempted around deviceTreePtr m s
          ∧ attempts (FlaggedPartition.tryBoot around bootHart deviceTreePtr)
              (flaggedPartitions 0 drivers) m = flagged.tryBoot around bootHart deviceTreePtr s)
      ∧ (firstStop around deviceTreePtr (blobAt m deviceTreePtr) drivers = none →
        (attempts (FlaggedPartition.tryBoot around bootHart deviceTreePtr)
          (flaggedPartitions 0 drivers) m).1 = none) := by
  apply attempts_find (fun flagged m' h => h.tryBoot hlive hbootable bootHart flagged)
  · intro flagged m' h
    rw [flagged.tryBoot_isSome (h.blob ▸ hlive) hbootable, h.blob]
  · exact Attempted.refl around deviceTreePtr m

/-- However the walk goes, only conventional memory is written. -/
theorem probeVirtio_attempted (hlive : Dtb.fromPtr deviceTreePtr (blobAt m deviceTreePtr) = .ok d)
    (hbootable : Bootable d tree) (bootHart : Nat) (drivers : List (Option BlockDevice)) :
    Attempted around deviceTreePtr m (probeVirtio around bootHart deviceTreePtr drivers m).2 := by
  unfold probeVirtio
  rw [probeBlockDevices_eq]
  exact attempts_keeps (fun flagged m' h => h.tryBoot hlive hbootable bootHart flagged) _
    (Attempted.refl around deviceTreePtr m)

/-- The first partition that can be booted is booted, if all before it come to an end. -/
theorem probeVirtio_of_boots (hlive : Dtb.fromPtr deviceTreePtr (blobAt m deviceTreePtr) = .ok d)
    (hbootable : Bootable d tree) (bootHart : Nat) {drivers : List (Option BlockDevice)}
    {flagged : FlaggedPartition}
    (hfirst : firstStop around deviceTreePtr (blobAt m deviceTreePtr) drivers = some flagged)
    (hends : flagged.stalls around deviceTreePtr (blobAt m deviceTreePtr) = false) :
    ∃ registers m', probeVirtio around bootHart deviceTreePtr drivers m = (.ok (some registers), m')
      ∧ Booted (flagged.Has around.bounds) tree flagged.blockDeviceIndex flagged.partitionNumber
          bootHart registers m' := by
  obtain ⟨s, hs, hrun⟩ := (tryBoot_find hlive hbootable bootHart drivers).1 flagged hfirst
  have hlive' : Dtb.fromPtr deviceTreePtr (blobAt s deviceTreePtr) = .ok d := hs.blob ▸ hlive
  have hstops : flagged.stops around deviceTreePtr (blobAt m deviceTreePtr) = true :=
    List.find?_some hfirst
  unfold FlaggedPartition.stops at hstops
  rw [hends, Bool.false_or] at hstops
  have hsome : (flagged.run around bootHart deviceTreePtr s).1.isSome = true := by
    rw [flagged.run_isSome hlive' hbootable, hs.blob]
    exact hstops
  obtain ⟨registers, hregisters⟩ := Option.isSome_iff_exists.mp hsome
  have hreached : flagged.run around bootHart deviceTreePtr s
      = (some registers, (flagged.run around bootHart deviceTreePtr s).2) :=
    Prod.ext hregisters rfl
  unfold probeVirtio
  rw [probeBlockDevices_eq, hrun, FlaggedPartition.tryBoot_of_ends (by rw [hs.blob]; exact hends),
    hregisters]
  exact ⟨registers, _, rfl, booted_of_partition hlive' hbootable hreached⟩

/-- Where a search goes on beyond the bounds, so does the walk. -/
theorem probeVirtio_of_stalls (hlive : Dtb.fromPtr deviceTreePtr (blobAt m deviceTreePtr) = .ok d)
    (hbootable : Bootable d tree) (bootHart : Nat) {drivers : List (Option BlockDevice)}
    {flagged : FlaggedPartition}
    (hfirst : firstStop around deviceTreePtr (blobAt m deviceTreePtr) drivers = some flagged)
    (hstalls : flagged.stalls around deviceTreePtr (blobAt m deviceTreePtr) = true) :
    (probeVirtio around bootHart deviceTreePtr drivers m).1 = .error .outOfFuel := by
  obtain ⟨s, hs, hrun⟩ := (tryBoot_find hlive hbootable bootHart drivers).1 flagged hfirst
  unfold probeVirtio
  rw [probeBlockDevices_eq, hrun, FlaggedPartition.tryBoot_of_stalls (by rw [hs.blob]; exact hstalls)]
  rfl

/-- Where there is neither, the walk returns. -/
theorem probeVirtio_of_none (hlive : Dtb.fromPtr deviceTreePtr (blobAt m deviceTreePtr) = .ok d)
    (hbootable : Bootable d tree) (bootHart : Nat) {drivers : List (Option BlockDevice)}
    (hnone : firstStop around deviceTreePtr (blobAt m deviceTreePtr) drivers = none) :
    (probeVirtio around bootHart deviceTreePtr drivers m).1 = .ok none := by
  unfold probeVirtio
  rw [probeBlockDevices_eq]
  exact congrArg outcomeOf ((tryBoot_find hlive hbootable bootHart drivers).2 hnone)

/-- Where all searches come to an end, what stops the walk is a boot. -/
theorem firstStop_ends {drivers : List (Option BlockDevice)}
    (hends : ∀ flagged ∈ flaggedPartitions 0 drivers, flagged.SearchesEnd around.bounds) {blob : Bytes} :
    (∀ flagged, firstStop around deviceTreePtr blob drivers = some flagged →
        flagged.stalls around deviceTreePtr blob = false)
      ∧ firstStop around deviceTreePtr blob drivers
        = (flaggedPartitions 0 drivers).find? (fun flagged => flagged.boots around deviceTreePtr blob) := by
  constructor
  · intro flagged hfirst
    exact (hends flagged (List.mem_of_find?_eq_some hfirst)).stalls_eq_false deviceTreePtr blob
  · apply List.find?_congr
    intro flagged hflagged
    unfold FlaggedPartition.stops
    rw [(hends flagged hflagged).stalls_eq_false deviceTreePtr, Bool.false_or]

/-- **How a walk ends**, by the first partition that stops it. -/
structure WalkEnds (around : Surroundings) (tree : Tree) (bootHart deviceTreePtr : Nat)
    (drivers : List (Option BlockDevice)) (m : Lib.Memory) (result : Checked (Option Registers))
    (m' : Lib.Memory) : Prop where
  attempted : Attempted around deviceTreePtr m m'
  stalled   : ∀ flagged,
    firstStop around deviceTreePtr (blobAt m deviceTreePtr) drivers = some flagged →
    flagged.stalls around deviceTreePtr (blobAt m deviceTreePtr) = true → result = .error .outOfFuel
  booted    : ∀ flagged,
    firstStop around deviceTreePtr (blobAt m deviceTreePtr) drivers = some flagged →
    flagged.stalls around deviceTreePtr (blobAt m deviceTreePtr) = false →
    ∃ registers, result = .ok (some registers)
      ∧ Booted (flagged.Has around.bounds) tree flagged.blockDeviceIndex flagged.partitionNumber
          bootHart registers m'
  returned  : firstStop around deviceTreePtr (blobAt m deviceTreePtr) drivers = none →
    result = .ok none

/-- Every walk ends so. -/
theorem probeVirtio_ends (hlive : Dtb.fromPtr deviceTreePtr (blobAt m deviceTreePtr) = .ok d)
    (hbootable : Bootable d tree) {bootHart : Nat} {drivers : List (Option BlockDevice)}
    {result : Checked (Option Registers)}
    (hrun : probeVirtio around bootHart deviceTreePtr drivers m = (result, m')) :
    WalkEnds around tree bootHart deviceTreePtr drivers m result m' := by
  have hattempted : Attempted around deviceTreePtr m
      (probeVirtio around bootHart deviceTreePtr drivers m).2 :=
    probeVirtio_attempted hlive hbootable bootHart drivers
  rw [hrun] at hattempted
  refine ⟨hattempted, ?_, ?_, ?_⟩
  · intro flagged hfirst hstalls
    have hresult := probeVirtio_of_stalls hlive hbootable bootHart hfirst hstalls
    rwa [hrun] at hresult
  · intro flagged hfirst hends
    obtain ⟨registers, m'', hrun', hbooted⟩ :=
      probeVirtio_of_boots hlive hbootable bootHart hfirst hends
    obtain ⟨hresult, rfl⟩ := Prod.mk.inj (hrun.symm.trans hrun')
    exact ⟨registers, hresult, hbooted⟩
  · intro hnone
    have hresult := probeVirtio_of_none hlive hbootable bootHart hnone
    rwa [hrun] at hresult

/-- It comes to an end where all searches do. -/
theorem WalkEnds.ok_of_searchesEnd {bootHart : Nat} {drivers : List (Option BlockDevice)}
    {result : Checked (Option Registers)}
    (h : WalkEnds around tree bootHart deviceTreePtr drivers m result m')
    (hsearches : ∀ flagged ∈ flaggedPartitions 0 drivers, flagged.SearchesEnd around.bounds) :
    ∃ registers, result = .ok registers := by
  cases hfirst : firstStop around deviceTreePtr (blobAt m deviceTreePtr) drivers with
  | none => exact ⟨none, h.returned hfirst⟩
  | some flagged =>
      obtain ⟨registers, hresult, -⟩ :=
        h.booted flagged hfirst ((firstStop_ends hsearches).1 flagged hfirst)
      exact ⟨some registers, hresult⟩

/-- **`probe_virtio` on any devices**: the live tree is where it was, and only what was
    conventional memory has been written.  The first partition, in the order of the devices and
    of the slots on them, that can be booted or on which a search goes on beyond the bounds
    decides: it is booted, or the walk goes on there.  If there is none, the walk returns; so it
    comes to an end wherever all searches do. -/
theorem probeVirtio_finds (hlive : Dtb.fromPtr deviceTreePtr (blobAt m deviceTreePtr) = .ok d)
    (hbootable : Bootable d tree) (bootHart : Nat) (drivers : List (Option BlockDevice)) :
    ∃ result m', probeVirtio around bootHart deviceTreePtr drivers m = (result, m')
      ∧ Attempted around deviceTreePtr m m'
      ∧ (∀ flagged,
          firstStop around deviceTreePtr (blobAt m deviceTreePtr) drivers = some flagged →
            (flagged.stalls around deviceTreePtr (blobAt m deviceTreePtr) = true →
              result = .error .outOfFuel)
            ∧ (flagged.stalls around deviceTreePtr (blobAt m deviceTreePtr) = false →
              ∃ registers, result = .ok (some registers)
                ∧ Booted (flagged.Has around.bounds) tree flagged.blockDeviceIndex
                    flagged.partitionNumber bootHart registers m'))
      ∧ (firstStop around deviceTreePtr (blobAt m deviceTreePtr) drivers = none →
          result = .ok none)
      ∧ ((∀ flagged ∈ flaggedPartitions 0 drivers, flagged.SearchesEnd around.bounds) →
          firstStop around deviceTreePtr (blobAt m deviceTreePtr) drivers
              = (flaggedPartitions 0 drivers).find?
                  (fun flagged => flagged.boots around deviceTreePtr (blobAt m deviceTreePtr))
            ∧ ∃ registers, result = .ok registers) := by
  obtain ⟨result, m', hrun⟩ : ∃ result m',
      probeVirtio around bootHart deviceTreePtr drivers m = (result, m') := ⟨_, _, rfl⟩
  have hends := probeVirtio_ends hlive hbootable hrun
  refine ⟨result, m', hrun, hends.attempted, ?_, hends.returned, ?_⟩
  · intro flagged hfirst
    exact ⟨hends.stalled flagged hfirst, hends.booted flagged hfirst⟩
  · intro hsearches
    exact ⟨(firstStop_ends hsearches).2, hends.ok_of_searchesEnd hsearches⟩

end Probe

/-! ## §6. A walk past a device that does not start. -/

/-- The one entry of `bootDisk`, with the boot flag. -/
def bootEntry : Bytes :=
  List.replicate 16 1 ++ List.replicate 16 0 ++ leBytes 8 8 ++ leBytes 8 5006 ++ leBytes 8 4
    ++ List.replicate 72 0

def bootHeader : Bytes :=
  Gpt.gptSignature ++ leBytes 4 65536 ++ leBytes 4 92 ++ leBytes 4 1634593041 ++ leBytes 4 0
    ++ leBytes 8 1 ++ leBytes 8 5007 ++ leBytes 8 3 ++ leBytes 8 5006 ++ List.replicate 16 1
    ++ leBytes 8 2 ++ leBytes 4 1 ++ leBytes 4 128 ++ leBytes 4 3912714563

/-- A disk with the FAT volume of `bootContents` from sector 8 on. -/
def bootDisk : BlockDevice where
  sectorCount    := 5008
  sector lba     :=
    if lba = 1 then Fat.sectorOf bootHeader
    else if lba = 2 then Fat.sectorOf bootEntry
    else (Fat.fat16Device bootContents).sector (lba - 8)
  error _ _      := none
  sectorCount_lt := by decide
  sector_length  := by
    intro lba
    split_ifs
    · exact Fat.sectorOf_length _
    · exact Fat.sectorOf_length _
    · exact (Fat.fat16Device bootContents).sector_length _

/-- The surroundings of a walk on `ramMemory`. -/
def ramSurroundings : Surroundings := ⟨ramFirmware, fun _ _ _ => 0xff, ⟨1, 6⟩⟩

set_option maxRecDepth 20000 in
/-- The first partition that stops the walk is the first of the second device, and it boots. -/
theorem bootDisk_found :
    (firstStop ramSurroundings 0x80008000 ramBlob [none, some bootDisk]).map
      (fun flagged => (flagged.blockDeviceIndex, flagged.partitionNumber,
        flagged.stalls ramSurroundings 0x80008000 ramBlob)) = some (1, 1, false) := by
  decide +kernel

theorem probeVirtio_finds_example :
    ∃ (flagged : FlaggedPartition) (registers : Registers) (m' : Lib.Memory),
      probeVirtio ramSurroundings 3 0x80008000 [none, some bootDisk] ramMemory
        = (.ok (some registers), m')
      ∧ flagged.blockDeviceIndex = 1 ∧ flagged.partitionNumber = 1
      ∧ Booted (flagged.Has ⟨1, 6⟩) ramTree 1 1 3 registers m' := by
  obtain ⟨result, m', hrun, -, hfirst, -⟩ := @probeVirtio_finds ramSurroundings 0x80008000 ramMemory
    ramDtb ramTree ramMemory_live ramDtb_bootable 3 [none, some bootDisk]
  obtain ⟨flagged, hflagged, hnumbers⟩ := Option.map_eq_some_iff.mp bootDisk_found
  obtain ⟨hindex, hrest⟩ := Prod.mk.inj hnumbers
  obtain ⟨hnumber, hends⟩ := Prod.mk.inj hrest
  rw [blobAt_ramMemory] at hfirst
  obtain ⟨registers, rfl, hbooted⟩ := (hfirst flagged hflagged).2 hends
  rw [hindex, hnumber] at hbooted
  exact ⟨flagged, registers, m', hrun, hindex, hnumber, hbooted⟩

end RustFirmware.InMemory
