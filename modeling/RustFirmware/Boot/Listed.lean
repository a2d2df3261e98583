/-
  RustFirmware.Boot.Listed
  ────────────────────────
  **THE KERNEL THAT IS BOOTED IS ON THE FIRST PARTITION THAT THE TABLES LIST FOR IT.**

  `probe_virtio` is about what the readers find.  Here the disks are given by the entries
  that were written to their tables, the first copy of which may since have been damaged.
-/
import RustFirmware.Boot.Probe
import RustFirmware.Gpt.Table

namespace RustFirmware.InMemory

open RustFirmware.Lib hiding readLe
open RustFirmware.Memory hiding Holds
open RustFirmware.DeviceTree
open RustFirmware.Virtio (BlockDevice)
open RustFirmware.Gpt (GptPartitionEntry Tabled enumerate)
open RustFirmware.Boot hiding LoadedFile loadFirstFile checkKernelHeader relocateKernel boot
  tryBootFromFilesystem Filesystem

/-! ## §1. What the tables list. -/

/-- A block device with the entries of its table, or one whose driver does not start. -/
abbrev Disk := Option (BlockDevice × List GptPartitionEntry)

/-- The partitions that a table lists for booting: the entries before the first one whose range
    is out of order, with their numbers, as far as they are present and have the flag. -/
def listedOn (blockDeviceIndex : Nat) : Disk → List FlaggedPartition
  | none => []
  | some (device, entries) =>
      (((entries.takeWhile (fun entry => decide (entry.InOrder device.sectorCount))).zipIdx 1).filter
          (fun entry => entry.1.isPresent && entry.1.bootable)).map
        (fun entry => ⟨device, blockDeviceIndex, entry.2, entry.1⟩)

/-- The partitions that the tables list, in the order of the disks. -/
def listedPartitions : (blockDeviceIndex : Nat) → List Disk → List FlaggedPartition
  | _, [] => []
  | blockDeviceIndex, disk :: disks =>
      listedOn blockDeviceIndex disk ++ listedPartitions (blockDeviceIndex + 1) disks

/-- The driver of a disk. -/
def driverOf (disk : Disk) : Option BlockDevice := disk.map Prod.fst

/-- Every table is on its device. -/
def AllTabled (disks : List Disk) : Prop :=
  ∀ device entries, some (device, entries) ∈ disks → Tabled device entries

/-! ## §2. The walk tries what the tables list. -/

/-- What the loop reports of the entries. -/
theorem enumerate_flagged (device : BlockDevice) (blockDeviceIndex partitionIndex : Nat)
    (entries : List GptPartitionEntry) :
    flaggedEntries device blockDeviceIndex
        (enumerate device.sectorCount (fun _ => false) partitionIndex entries)
      = (((entries.takeWhile (fun entry => decide (entry.InOrder device.sectorCount))).zipIdx
            (partitionIndex + 1)).filter (fun entry => entry.1.isPresent && entry.1.bootable)).map
          (fun entry => ⟨device, blockDeviceIndex, entry.2, entry.1⟩) := by
  induction entries generalizing partitionIndex with
  | nil => rfl
  | cons entry entries ih =>
      unfold enumerate
      by_cases horder : entry.InOrder device.sectorCount
      case neg =>
        rw [if_pos horder, List.takeWhile_cons_of_neg (by simpa using horder)]
        rfl
      rw [if_neg (not_not.mpr horder), List.takeWhile_cons_of_pos (by simpa using horder),
        List.zipIdx_cons, List.filter_cons]
      dsimp only
      cases hpresent : entry.isPresent with
      | false => exact ih (partitionIndex + 1)
      | true =>
          rw [Bool.and_false]
          show flaggedEntries device blockDeviceIndex ((partitionIndex + 1, entry) :: _) = _
          rw [flaggedEntries_cons, ih (partitionIndex + 1), Bool.true_and]
          cases entry.bootable with
          | true => rfl
          | false => rfl

/-- The walk tries what the table of a disk lists. -/
theorem flaggedOn_of_tabled {disk : Disk} (blockDeviceIndex : Nat)
    (h : ∀ device entries, disk = some (device, entries) → Tabled device entries) :
    flaggedOn blockDeviceIndex (driverOf disk) = listedOn blockDeviceIndex disk := by
  cases disk with
  | none => rfl
  | some disk =>
      obtain ⟨device, entries⟩ := disk
      have hprobe := (h device entries rfl).probeDevice (fun _ => false)
      unfold flaggedOn driverOf
      rw [Option.map_some]
      dsimp only
      rw [hprobe]
      exact enumerate_flagged device blockDeviceIndex 0 entries

theorem flaggedPartitions_of_tabled {disks : List Disk} (h : AllTabled disks) (blockDeviceIndex : Nat) :
    flaggedPartitions blockDeviceIndex (disks.map driverOf) = listedPartitions blockDeviceIndex disks := by
  induction disks generalizing blockDeviceIndex with
  | nil => rfl
  | cons disk disks ih =>
      unfold listedPartitions
      rw [List.map_cons, flaggedPartitions, ih (fun device entries hmem => h device entries (.tail _ hmem)),
        flaggedOn_of_tabled blockDeviceIndex (fun device entries hdisk => h device entries (hdisk ▸ .head _))]

/-- The first partition that the tables list and that stops the walk is the one that it is to
    find. -/
theorem firstStop_of_tabled {disks : List Disk} (h : AllTabled disks) (around : Surroundings)
    (deviceTreePtr : Nat) (blob : Bytes) :
    firstStop around deviceTreePtr blob (disks.map driverOf)
      = (listedPartitions 0 disks).find? (fun flagged => flagged.stops around deviceTreePtr blob) := by
  unfold firstStop
  rw [flaggedPartitions_of_tabled h 0]

/-- **`probe_virtio` boots what the tables list**: of the partitions that are listed with the
    flag, the first one whose boot sequence runs through, unless a search on one before it goes
    on beyond the bounds; if there is neither, it returns.  Where all searches come to an end it
    is the first one whose boot sequence runs through. -/
theorem probeVirtio_boots_listed {around : Surroundings} {deviceTreePtr : Nat} {m : Lib.Memory}
    {d : Dtb} {tree : Tree} {disks : List Disk}
    (hlive : Dtb.fromPtr deviceTreePtr (blobAt m deviceTreePtr) = .ok d)
    (hbootable : Bootable d tree) (bootHart : Nat) (htabled : AllTabled disks) :
    ∃ result m', probeVirtio around bootHart deviceTreePtr (disks.map driverOf) m = (result, m')
      ∧ (match (listedPartitions 0 disks).find?
            (fun flagged => flagged.stops around deviceTreePtr (blobAt m deviceTreePtr)) with
        | none => result = .ok none
        | some flagged =>
            if flagged.stalls around deviceTreePtr (blobAt m deviceTreePtr) then
              result = .error .outOfFuel
            else ∃ registers, result = .ok (some registers)
              ∧ Booted (flagged.Has around.bounds) tree flagged.blockDeviceIndex
                  flagged.partitionNumber bootHart registers m')
      ∧ ((∀ flagged ∈ listedPartitions 0 disks, flagged.SearchesEnd around.bounds) →
          match (listedPartitions 0 disks).find?
              (fun flagged => flagged.boots around deviceTreePtr (blobAt m deviceTreePtr)) with
          | none => result = .ok none
          | some flagged => ∃ registers, result = .ok (some registers)
              ∧ Booted (flagged.Has around.bounds) tree flagged.blockDeviceIndex
                  flagged.partitionNumber bootHart registers m') := by
  obtain ⟨result, m', hrun⟩ : ∃ result m',
      probeVirtio around bootHart deviceTreePtr (disks.map driverOf) m = (result, m') := ⟨_, _, rfl⟩
  have hwalk := probeVirtio_ends hlive hbootable hrun
  have hsame := firstStop_of_tabled htabled around deviceTreePtr (blobAt m deviceTreePtr)
  have hstop : match firstStop around deviceTreePtr (blobAt m deviceTreePtr) (disks.map driverOf) with
      | none => result = .ok none
      | some flagged =>
          if flagged.stalls around deviceTreePtr (blobAt m deviceTreePtr) then
            result = .error .outOfFuel
          else ∃ registers, result = .ok (some registers)
            ∧ Booted (flagged.Has around.bounds) tree flagged.blockDeviceIndex
                flagged.partitionNumber bootHart registers m' := by
    cases hfirst : firstStop around deviceTreePtr (blobAt m deviceTreePtr) (disks.map driverOf) with
    | none => exact hwalk.returned hfirst
    | some flagged =>
        dsimp only
        split_ifs with hstalls
        · exact hwalk.stalled flagged hfirst hstalls
        · exact hwalk.booted flagged hfirst (Bool.eq_false_iff.mpr hstalls)
  refine ⟨result, m', hrun, hsame ▸ hstop, fun hends => ?_⟩
  -- no search goes on, so what stops the walk is the first boot
  have hflagged := flaggedPartitions_of_tabled htabled 0
  rw [← hflagged] at hends
  obtain ⟨hfirstEnds, hboots⟩ := @firstStop_ends around deviceTreePtr (disks.map driverOf) hends
    (blobAt m deviceTreePtr)
  rw [hflagged] at hboots
  rw [← hboots]
  cases hfirst : firstStop around deviceTreePtr (blobAt m deviceTreePtr) (disks.map driverOf) with
  | none =>
      rw [hfirst] at hstop
      exact hstop
  | some flagged =>
      rw [hfirst] at hstop
      dsimp only at hstop
      rw [hfirstEnds flagged hfirst, if_neg (by decide)] at hstop
      exact hstop

/-! ## §3. The table of `bootDisk`. -/

/-- The entry of `bootDisk`. -/
def bootEntryFields : GptPartitionEntry where
  partitionTypeGuid   := List.replicate 16 1
  uniquePartitionGuid := List.replicate 16 0
  firstLba            := 8
  lastLba             := 5006
  attributes          := 4
  partitionName       := List.replicate 36 0

/-- Its copy, with the header in sector `headerLba`. -/
def bootCopy (headerLba : Nat) : Gpt.GptCopy where
  headerLba          := headerLba
  revision           := leBytes 4 65536
  reserved           := leBytes 4 0
  backupLba          := 5007
  firstUsableLba     := 3
  lastUsableLba      := 5006
  diskGuid           := List.replicate 16 1
  partitionEntryLba  := 2
  partitionEntrySize := 128
  tail               := []
  entries            := [bootEntryFields]

theorem bootEntryFields_fits : bootEntryFields.Fits := by
  constructor <;> decide

theorem bootCopy_valid : (bootCopy 1).Valid 5008 := by
  constructor <;> first | decide | exact fun entry h => List.mem_singleton.mp h ▸ bootEntryFields_fits

set_option maxRecDepth 20000 in
theorem bootCopy_written : (bootCopy 1).WrittenOn bootDisk := by
  have hheader : (bootCopy 1).headerBytes = bootHeader := by decide +kernel
  refine ⟨⟨bootCopy_valid, ?_, rfl⟩, ?_, fun s _ _ => rfl⟩
  · rw [hheader]
    refine ⟨[], List.replicate 420 0, ?_, rfl⟩
    decide +kernel
  · decide +kernel

theorem bootDisk_tabled : AllTabled [none, some (bootDisk, [bootEntryFields])] := by
  intro device entries hmem
  cases hmem with
  | tail _ hmem =>
      obtain ⟨rfl, rfl⟩ := Prod.mk.inj (Option.some.inj (List.mem_singleton.mp hmem))
      exact ⟨bootCopy 1, bootCopy 5007, rfl, rfl, rfl, rfl, .inl bootCopy_written⟩

/-- The one partition that is listed is the one that was found to boot. -/
theorem bootDisk_listed :
    (listedPartitions 0 [none, some (bootDisk, [bootEntryFields])]).find?
        (fun flagged => flagged.stops ramSurroundings 0x80008000 ramBlob)
      = some ⟨bootDisk, 1, 1, bootEntryFields⟩ := by
  have hlisted : listedPartitions 0 [none, some (bootDisk, [bootEntryFields])]
      = [⟨bootDisk, 1, 1, bootEntryFields⟩] := rfl
  obtain ⟨flagged, hflagged, -⟩ := Option.map_eq_some_iff.mp bootDisk_found
  have hfirst := (firstStop_of_tabled bootDisk_tabled ramSurroundings 0x80008000 ramBlob).symm.trans
    hflagged
  have hmem := List.mem_of_find?_eq_some hfirst
  rw [hlisted, List.mem_singleton] at hmem
  rw [hfirst, hmem]

/-- And no search on it goes on. -/
theorem bootDisk_ends :
    FlaggedPartition.stalls ramSurroundings 0x80008000 ramBlob ⟨bootDisk, 1, 1, bootEntryFields⟩
      = false := by
  obtain ⟨flagged, hflagged, hnumbers⟩ := Option.map_eq_some_iff.mp bootDisk_found
  have hfirst := (firstStop_of_tabled bootDisk_tabled ramSurroundings 0x80008000 ramBlob).symm.trans
    hflagged
  obtain rfl := Option.some.inj (hfirst.symm.trans bootDisk_listed)
  exact (Prod.mk.inj (Prod.mk.inj hnumbers).2).2

set_option maxRecDepth 20000 in
theorem probeVirtio_boots_listed_example :
    ∃ (registers : Registers) (m' : Lib.Memory),
      probeVirtio ramSurroundings 3 0x80008000 [none, some bootDisk] ramMemory
        = (.ok (some registers), m')
      ∧ Booted (FlaggedPartition.Has ⟨bootDisk, 1, 1, bootEntryFields⟩ ⟨1, 6⟩) ramTree 1 1 3
          registers m' := by
  obtain ⟨result, m', hrun, hresult, -⟩ := @probeVirtio_boots_listed ramSurroundings 0x80008000
    ramMemory ramDtb ramTree [none, some (bootDisk, [bootEntryFields])] ramMemory_live ramDtb_bootable 3
    bootDisk_tabled
  rw [blobAt_ramMemory, bootDisk_listed] at hresult
  dsimp only at hresult
  rw [bootDisk_ends, if_neg (by decide)] at hresult
  obtain ⟨registers, rfl, hbooted⟩ := hresult
  exact ⟨registers, m', hrun, hbooted⟩

end RustFirmware.InMemory
