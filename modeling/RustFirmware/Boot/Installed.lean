/-
  RustFirmware.Boot.Installed
  ───────────────────────────
  **FROM THE FILES AS THEY WERE STORED TO THE KERNEL.**

  The disks are given by what was written to them: the entries of the tables, and the
  directory tree of the partition that boots with the data of its files.  What is entered is
  the data that the tree has under the path of a kernel.
-/
import RustFirmware.Boot.Listed
import RustFirmware.Fat.Stored

namespace RustFirmware.InMemory

open RustFirmware.Lib hiding readLe
open RustFirmware.Memory hiding Holds
open RustFirmware.DeviceTree
open RustFirmware.Fat (FatVolume FatFile FatDirectoryEntry DirectoryLocation DirectorySlot Inside
  Leads StoredTree itemsOf)
open RustFirmware.Boot hiding LoadedFile loadFirstFile checkKernelHeader relocateKernel boot
  tryBootFromFilesystem Filesystem

/-! ## §1. Files with their data. -/

/-- The clusters of an entry begin with the data. -/
structure DataStored (volume : FatVolume) (entry : FatDirectoryEntry) (data : Bytes) : Prop where
  size   : entry.fileSize.toNat = data.length
  begins : data <+: volume.chainBytes entry.firstCluster (volume.clustersFor data.length)

section Stored

variable (slots : DirectoryLocation → List DirectorySlot) (data : FatDirectoryEntry → Bytes)

/-- **The volume holds the tree with the data of its files.** -/
structure StoredFiles (volume : FatVolume) (clusters : Nat) : Prop where
  tree : StoredTree slots volume clusters
  data : ∀ directory, Inside slots directory → ∀ item ∈ itemsOf (slots directory),
    DataStored volume item.entry (data item.entry)

/-- What the tree has under a path. -/
def StoredHas (path contents : Bytes) : Prop :=
  ∃ entry, Leads slots .rootDirectory (Fat.pathComponents path) entry ∧ contents = data entry

end Stored

variable {slots : DirectoryLocation → List DirectorySlot} {data : FatDirectoryEntry → Bytes}
  {volume : FatVolume}

/-- A stored file reads as its data. -/
theorem DataStored.contents_eq {entry : FatDirectoryEntry} {bytes : Bytes}
    (h : DataStored volume entry bytes) : (FatFile.mk volume entry).contents = bytes := by
  -- a reader takes as many bytes of the chain as the entry says
  obtain ⟨behind, hbehind⟩ := h.begins
  show (volume.chainBytes entry.firstCluster (volume.clustersFor entry.fileSize.toNat)).take
    entry.fileSize.toNat = bytes
  rw [h.size, ← hbehind, List.take_left]

/-- Where components lead, there is an item of a directory of the tree. -/
theorem exists_item_of_leads {directory : DirectoryLocation} {components : List Bytes}
    {entry : FatDirectoryEntry} (h : Leads slots directory components entry)
    (hinside : Inside slots directory) :
    ∃ directory', Inside slots directory'
      ∧ ∃ item ∈ itemsOf (slots directory'), item.entry = entry := by
  induction h with
  | last _ hfirst => exact ⟨_, hinside, _, List.mem_of_find?_eq_some hfirst, rfl⟩
  | through _ hfirst hdir _ ih => exact ih (.sub hinside (List.mem_of_find?_eq_some hfirst) hdir)

/-- **A file of the volume is one of the tree**, with the data that was stored. -/
theorem StoredFiles.has {bounds : Bounds} (h : StoredFiles slots data volume bounds.clusters)
    {path contents : Bytes} (hpath : ascii "-" ∉ Fat.pathComponents path)
    (hhas : FatHas volume bounds path contents) : StoredHas slots data path contents := by
  -- opening a file is finding its entry, and on a stored tree that is following the path
  obtain ⟨file, hopen, rfl⟩ := hhas
  obtain ⟨entry, hfound, hfile⟩ := bind_eq_ok.mp hopen
  obtain rfl := Except.ok.inj hfile
  have hleads := ((Fat.findPathEntry_stored h.tree path).1 hpath entry).mp hfound
  obtain ⟨directory, hinside, item, hitem, rfl⟩ := exists_item_of_leads hleads .root
  exact ⟨item.entry, hleads, (h.data directory hinside item hitem).contents_eq⟩

/-- On a stored tree every path is looked up to an end. -/
theorem StoredFiles.ends {bounds : Bounds} (h : StoredFiles slots data volume bounds.clusters)
    (path : Bytes) : (fatVolume volume bounds).endless path = false := by
  show fatRunsOn (volume.openFile bounds.clusters path) = false
  unfold Fat.FatVolume.openFile
  cases hfound : Fat.findPathEntry volume bounds.clusters path with
  | ok entry => rfl
  | error halt =>
      obtain rfl | rfl | rfl := (Fat.findPathEntry_stored h.tree path).2 halt hfound
      · rfl
      · rfl
      · rfl

/-! ## §2. The kernel that is entered. -/

/-- A boot from files is one from any that are the same under the paths that are tried. -/
theorem Booted.mono {has has' : Bytes → Bytes → Prop} {tree : Tree}
    {blockDeviceIndex partitionNumber bootHart : Nat} {registers : Registers} {m : Lib.Memory}
    (hhas : ∀ path, path ∈ kernelCandidatePaths ∨ path ∈ initrdCandidatePaths →
      ∀ contents, has path contents → has' path contents)
    (h : Booted has tree blockDeviceIndex partitionNumber bootHart registers m) :
    Booted has' tree blockDeviceIndex partitionNumber bootHart registers m where
  aligned := h.aligned
  hart := h.hart
  image := by
    obtain ⟨path, hpath, contents, header, hfile, himage⟩ := h.image
    exact ⟨path, hpath, contents, header, hhas path (.inl hpath) contents hfile, himage⟩
  deviceTree := by
    obtain ⟨size, initrd, commandLine, hline, hview, hinitrd⟩ := h.deviceTree
    refine ⟨size, initrd, commandLine, hline, hview, fun file hsome => ?_⟩
    obtain ⟨path, hpath, contents, hfile, hloaded⟩ := hinitrd file hsome
    exact ⟨path, hpath, contents, hhas path (.inr hpath) contents hfile, hloaded⟩

/-- None of the paths that are tried has a component that is not the name of a file. -/
theorem candidate_proper {path : Bytes}
    (h : path ∈ kernelCandidatePaths ∨ path ∈ initrdCandidatePaths) :
    ascii "-" ∉ Fat.pathComponents path := by
  have hall : ∀ path ∈ kernelCandidatePaths ++ initrdCandidatePaths,
      ascii "-" ∉ Fat.pathComponents path := by decide +kernel
  exact hall path (List.mem_append.mpr h)

/-- The files of a mounted FAT partition. -/
theorem has_of_mount {flagged : FlaggedPartition} {bounds : Bounds} {path contents : Bytes}
    (hfat : flagged.filesystem = .fat)
    (hmount : FatVolume.new flagged.device (UInt64.ofNat flagged.partition.firstLba) = .ok volume)
    (h : flagged.Has bounds path contents) : FatHas volume bounds path contents := by
  unfold FlaggedPartition.Has PartitionHas at h
  rw [hfat] at h
  obtain ⟨volume', hmount', hhas⟩ := h
  obtain rfl := Except.ok.inj (hmount.symm.trans hmount')
  exact hhas

/-- A boot sequence on stored files comes to an end. -/
theorem StoredFiles.stalls_eq_false {flagged : FlaggedPartition} {around : Surroundings}
    (h : StoredFiles slots data volume around.bounds.clusters) (hfat : flagged.filesystem = .fat)
    (hmount : FatVolume.new flagged.device (UInt64.ofNat flagged.partition.firstLba) = .ok volume)
    (deviceTreePtr : Nat) (blob : Bytes) : flagged.stalls around deviceTreePtr blob = false := by
  have hvolume : flagged.volume around.bounds = some (fatVolume volume around.bounds) := by
    unfold FlaggedPartition.volume
    rw [hfat, hmount]
    rfl
  unfold FlaggedPartition.stalls
  rw [hvolume]
  dsimp only
  unfold volumeStalls
  cases pageAllocatorFromLiveFdt around.firmware deviceTreePtr blob 8 16
      (List.replicate 32 emptyDescriptor) with
  | none => rfl
  | some a => exact InMemory.stalls_eq_false h.ends a

/-- **`probe_virtio` enters the kernel that was stored**: if the first partition that is listed
    and stops the walk holds a directory tree, what is at the program counter is the data that
    the tree has under the path of a kernel. -/
theorem probeVirtio_boots_stored {around : Surroundings} {deviceTreePtr : Nat} {m : Lib.Memory}
    {d : Dtb} {tree : Tree} {disks : List Disk} {flagged : FlaggedPartition}
    (hlive : Dtb.fromPtr deviceTreePtr (blobAt m deviceTreePtr) = .ok d)
    (hbootable : Bootable d tree) (bootHart : Nat) (htabled : AllTabled disks)
    (hfirst : (listedPartitions 0 disks).find?
      (fun flagged => flagged.stops around deviceTreePtr (blobAt m deviceTreePtr)) = some flagged)
    (hfat : flagged.filesystem = .fat)
    (hmount : FatVolume.new flagged.device (UInt64.ofNat flagged.partition.firstLba) = .ok volume)
    (hstored : StoredFiles slots data volume around.bounds.clusters) :
    ∃ registers m', probeVirtio around bootHart deviceTreePtr (disks.map driverOf) m
        = (.ok (some registers), m')
      ∧ Booted (StoredHas slots data) tree flagged.blockDeviceIndex flagged.partitionNumber bootHart
          registers m' := by
  have hfound := (firstStop_of_tabled htabled around deviceTreePtr (blobAt m deviceTreePtr)).trans hfirst
  obtain ⟨registers, m', hrun, hbooted⟩ := probeVirtio_of_boots hlive hbootable bootHart hfound
    (hstored.stalls_eq_false hfat hmount deviceTreePtr _)
  exact ⟨registers, m', hrun, hbooted.mono (fun path hpath contents hhas =>
    hstored.has (candidate_proper hpath) (has_of_mount hfat hmount hhas))⟩

/-! ## §3. The files of `bootDisk`. -/

/-- The volume on `bootDisk`. -/
def bootVolume : FatVolume :=
  { Fat.fat16Volume bootContents with device := bootDisk, partitionStartLba := 8 }

theorem bootDisk_mount :
    FatVolume.new bootDisk (UInt64.ofNat bootEntryFields.firstLba) = .ok bootVolume := by
  apply Fat.new_of_readBlocks bootContents
  show Except.ok ((Fat.fat16Device bootContents).sector 0 ++ []) = _
  rw [List.append_nil]
  rfl

/-- The kernel in its root directory. -/
def storedKernel : Fat.StoredEntry :=
  ⟨some ['v', 'm', 'l', 'i', 'n', 'u', 'z'], ascii "VMLINUZ    ", ⟨0x20, 2, 64⟩⟩

def bootSlots : DirectoryLocation → List DirectorySlot
  | .rootDirectory  => [.stored storedKernel]
  | .clusterChain _ => []

theorem inside_bootSlots {directory : DirectoryLocation} (h : Inside bootSlots directory) :
    directory = .rootDirectory := by
  induction h with
  | root => rfl
  | @sub directory item _ hitem hdir ih =>
      subst ih
      have hitems : item ∈ [storedKernel] := hitem
      obtain rfl := List.mem_singleton.mp hitems
      exact absurd hdir (by decide)

set_option maxRecDepth 20000 in
theorem bootVolume_stored : StoredFiles bootSlots (fun _ => tinyKernel) bootVolume 1 := by
  have hvalid : storedKernel.Valid := by
    refine ⟨fun name hname => ?_, by decide, by decide, by decide, by decide,
      fun hnone => (by cases hnone)⟩
    cases hname
    exact ⟨by decide, by decide, by decide, by decide⟩
  constructor
  · intro directory hinside
    obtain rfl := inside_bootSlots hinside
    refine ⟨fun slot hslot => ?_, List.replicate 14 (List.replicate 32 0), by decide +kernel,
      .inr ⟨_, _, rfl, rfl⟩⟩
    obtain rfl := List.mem_singleton.mp hslot
    exact hvalid
  · intro directory hinside item hitem
    obtain rfl := inside_bootSlots hinside
    have hitems : item ∈ [storedKernel] := hitem
    obtain rfl := List.mem_singleton.mp hitems
    exact ⟨by decide, by decide +kernel⟩

theorem probeVirtio_boots_stored_example :
    ∃ registers m', probeVirtio ramSurroundings 3 0x80008000 [none, some bootDisk] ramMemory
        = (.ok (some registers), m')
      ∧ load m' registers.pc tinyKernel.length = tinyKernel := by
  have hfat : FlaggedPartition.filesystem ⟨bootDisk, 1, 1, bootEntryFields⟩ = .fat := by
    decide +kernel
  obtain ⟨registers, m', hrun, hbooted⟩ := @probeVirtio_boots_stored bootSlots (fun _ => tinyKernel)
    bootVolume ramSurroundings 0x80008000 ramMemory ramDtb ramTree
    [none, some (bootDisk, [bootEntryFields])] ⟨bootDisk, 1, 1, bootEntryFields⟩ ramMemory_live
    ramDtb_bootable 3 bootDisk_tabled (by rw [blobAt_ramMemory]; exact bootDisk_listed) hfat
    bootDisk_mount bootVolume_stored
  obtain ⟨path, -, contents, header, ⟨entry, -, rfl⟩, hload, -⟩ := hbooted.image
  exact ⟨registers, m', hrun, hload⟩

end RustFirmware.InMemory
