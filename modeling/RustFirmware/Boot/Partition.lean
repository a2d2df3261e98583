/-
  RustFirmware.Boot.Partition
  ───────────────────────────
  **FROM THE PARTITION ON DISK TO THE FIRST INSTRUCTION OF THE KERNEL.**

  `try_boot_from_partition` mounts what `detect_partition_filesystem` has found and runs
  the boot sequence on it.  The sequence knows a volume by what its paths open to; here
  that is what the FAT and the ext4 reader make of the device (`fatVolume`,
  `ext4Volume`), and their `load` is the one that the sequence uses (`fatLoad_same`,
  `ext4Load_same`).  So the bytes at the program counter are the bytes of a file of the
  disk (`tryBootFromPartition_boots`).

  Nothing in the code bounds a FAT cluster chain or the extent trees of ext4.  `Bounds` says
  how far they are followed, and a search that goes beyond is an outcome of its own
  (`linuxTryBootFromPartition`): on the machine it goes on for ever, or the stack overflows.
-/
import RustFirmware.Boot.Handover
import RustFirmware.Filesystem.Loaded
import RustFirmware.Fat.Stream
import RustFirmware.Fat.Termination
import RustFirmware.Ext4.Resolution
import RustFirmware.Gpt.Probe

/-! ## §1. Which filesystem it is. -/

namespace RustFirmware.Filesystem

open RustFirmware.Virtio
open RustFirmware.Fat
open RustFirmware.Ext4

/-- `DetectedFilesystem`. -/
inductive DetectedFilesystem where
  | fat
  | ext4
  | unknown
  deriving Repr, DecidableEq

/-- `detect_partition_filesystem`. -/
def detectPartitionFilesystem (device : BlockDevice) (partitionStartLba : Nat) :
    DetectedFilesystem :=
  match FatVolume.new device (UInt64.ofNat partitionStartLba) with
  | .ok _ => .fat
  | .error _ =>
      match Ext4Volume.new device partitionStartLba with
      | .ok _    => .ext4
      | .error _ => .unknown

end RustFirmware.Filesystem

namespace RustFirmware.InMemory

open RustFirmware.Lib hiding readLe
open RustFirmware.Memory hiding Holds
open RustFirmware.DeviceTree
open RustFirmware.Virtio (BlockDevice)
open RustFirmware.Gpt (GptPartitionEntry)
open RustFirmware.Fat (FatVolume FatFile)
open RustFirmware.Ext4 (Ext4Volume Ext4File)
open RustFirmware.Filesystem (LoadedFile Loading DetectedFilesystem filePages filePages_eq le_filePages)
open RustFirmware.Boot hiding LoadedFile loadFirstFile checkKernelHeader relocateKernel boot
  tryBootFromFilesystem Filesystem

/-! ## §2. The volumes. -/

/-- How far the readers follow what the code does not bound: clusters of a FAT directory,
    and nested activations in an ext4 tree. -/
structure Bounds where
  clusters : Nat
  levels   : Nat
  deriving Repr, DecidableEq

/-- What the loader sees of an opened FAT file. -/
def fatVolumeFile (file : FatFile) : VolumeFile where
  isDirectory := file.entry.isDirectory
  sizeBytes   := file.entry.fileSize.toNat
  contents    := (file.volume.readFileContents file.entry.firstCluster file.entry.fileSize
    (List.replicate file.entry.fileSize.toNat 0)).toOption.map (fun result => result.2)

/-- A result of the FAT reader that is not the end of a call. -/
def fatRunsOn {α : Type} : Except Fat.Halt α → Bool
  | .error .runsOn => true
  | _              => false

/-- A mounted FAT volume, as the boot sequence sees it. -/
def fatVolume (volume : FatVolume) (bounds : Bounds) : Volume where
  kind := .fat
  files path := (volume.openFile bounds.clusters path).toOption.map fatVolumeFile
  endless path := fatRunsOn (volume.openFile bounds.clusters path)

/-- What the loader sees of an opened ext4 file. -/
def ext4VolumeFile (levels : Nat) (file : Ext4File) : VolumeFile where
  isDirectory := file.inode.isDirectory
  sizeBytes   := file.inode.sizeBytes
  contents    := (Ext4.readInodeContents file.volume levels file.inode
    (List.replicate file.inode.sizeBytes 0)).toOption.map (fun result => result.2)

/-- A result of the ext4 reader that is not the end of a call. -/
def ext4Deeper {α : Type} : Except Ext4.Halt α → Bool
  | .error .deeper => true
  | _              => false

/-- A mounted ext4 volume, as the boot sequence sees it. -/
def ext4Volume (volume : Ext4Volume) (bounds : Bounds) : Volume where
  kind := .ext4
  files path := (volume.openFile bounds.levels path).toOption.map (ext4VolumeFile bounds.levels)
  endless path :=
    match volume.openFile bounds.levels path with
    | .ok file => ext4Deeper (Ext4.readInodeContents file.volume bounds.levels file.inode
        (List.replicate file.inode.sizeBytes 0))
    | .error halt => ext4Deeper (.error halt : Except Ext4.Halt Ext4File)

/-- The pages of a loaded file: its bytes, and zeros behind them. -/
def pagesOf (loaded : Boot.LoadedFile) : LoadedFile × Bytes :=
  (place loaded,
    loaded.contents ++ List.replicate (loaded.pageCount * 4096 - loaded.sizeBytes) 0)

/-- **Two loaders do the same**: they leave the same allocator, fail together, and return
    the same file with the same pages. -/
def SameLoad {ε : Type} (model : Except LoadError Boot.LoadedFile × PageAllocator)
    (source : Loading ε) : Prop :=
  model.2 = source.2 ∧ model.1.toOption.map pagesOf = source.1.toOption

/-- The slice of the pages that the reader gets. -/
theorem take_zeros {sizeBytes pages : Nat} (h : sizeBytes ≤ pages * 4096) :
    (List.replicate (pages * 4096) (0 : UInt8)).take sizeBytes = List.replicate sizeBytes 0 := by
  rw [List.take_replicate, Nat.min_eq_left h]

/-- **`load` of a FAT file** is the loader of the boot sequence. -/
theorem fatLoad_same (file : FatFile) (a : PageAllocator) :
    SameLoad (fatLoad (fatVolumeFile file) a) (file.load a) := by
  have hlt : file.entry.fileSize.toNat < 2 ^ 32 := file.entry.fileSize.toNat_lt
  have hfits := le_filePages file.entry.fileSize.toNat
  have hcount : Boot.fileSizeToPageCount .fileTooLarge file.entry.fileSize.toNat
      = .ok ((file.entry.fileSize.toNat + 4095) / 4096) := by
    unfold Boot.fileSizeToPageCount
    rw [checkedAdd_some (by unfold efiPageSize; omega)]
    rfl
  unfold fatLoad FatFile.load FatFile.loadIntoAllocatedPages fatVolumeFile
  dsimp only
  rw [hcount, Fat.FatFile.fileSizeToPageCount_eq]
  dsimp only
  rw [filePages_eq]
  cases file.entry.isDirectory with
  | true => exact ⟨rfl, rfl⟩
  | false =>
      rw [if_neg (by decide), if_neg (by decide)]
      unfold Filesystem.fillPages
      cases a.allocatePagesForSize .bootServicesData file.entry.fileSize.toNat with
      | mk result a' =>
          cases result with
          | error e => exact ⟨rfl, rfl⟩
          | ok start =>
              have hmul : checkedMul 64 (filePages file.entry.fileSize.toNat) efiPageSize
                  = some (filePages file.entry.fileSize.toNat * efiPageSize) := by
                apply checkedMul_some
                unfold filePages efiPageSize
                omega
              dsimp only
              rw [hmul, Fat.FatFile.zeroedPages_eq]
              cases hread : file.volume.readFileContents file.entry.firstCluster file.entry.fileSize
                  (List.replicate file.entry.fileSize.toNat 0) with
              | error e =>
                  refine ⟨rfl, ?_⟩
                  show _ = Except.toOption (Except.bind (file.volume.readFileContents
                    file.entry.firstCluster file.entry.fileSize _) _)
                  rw [take_zeros hfits, hread]
                  rfl
              | ok result =>
                  refine ⟨rfl, ?_⟩
                  show _ = Except.toOption (Except.bind (file.volume.readFileContents
                    file.entry.firstCluster file.entry.fileSize _) _)
                  rw [take_zeros hfits, hread, List.drop_replicate]
                  rfl

/-- **`load` of an ext4 file**, likewise. -/
theorem ext4Load_same (levels : Nat) (file : Ext4File) (a : PageAllocator) :
    SameLoad (ext4Load (ext4VolumeFile levels file) a) (file.load levels a) := by
  have hfits := le_filePages file.inode.sizeBytes
  unfold ext4Load Ext4File.load Ext4File.loadIntoAllocatedPages ext4VolumeFile
    Boot.fileSizeToPageCount Ext4.fileSizeToPageCount
  dsimp only
  cases file.inode.isDirectory with
  | true => exact ⟨rfl, rfl⟩
  | false =>
      rw [if_neg (by decide), if_neg (by decide)]
      cases hadd : checkedAdd 64 file.inode.sizeBytes (efiPageSize - 1) with
      | none => exact ⟨rfl, rfl⟩
      | some rounded =>
          obtain ⟨-, rfl⟩ := checkedAdd_eq_some.mp hadd
          have hmax : max 1 ((file.inode.sizeBytes + (efiPageSize - 1)) / efiPageSize)
              = filePages file.inode.sizeBytes := filePages_eq _
          simp only [okOr, Option.map_some, hmax]
          unfold Filesystem.fillPages
          cases a.allocatePagesForSize .bootServicesData file.inode.sizeBytes with
          | mk result a' =>
              cases result with
              | error e => exact ⟨rfl, rfl⟩
              | ok start =>
                  dsimp only
                  cases hread : Ext4.readInodeContents file.volume levels file.inode
                      (List.replicate file.inode.sizeBytes 0) with
                  | error e =>
                      refine ⟨rfl, ?_⟩
                      show _ = Except.toOption (Except.bind (Ext4.readInodeContents file.volume levels
                        file.inode ((List.replicate (filePages file.inode.sizeBytes * 4096) 0).take _)) _)
                      rw [take_zeros hfits, hread]
                      rfl
                  | ok result =>
                      refine ⟨rfl, ?_⟩
                      show _ = Except.toOption (Except.bind (Ext4.readInodeContents file.volume levels
                        file.inode ((List.replicate (filePages file.inode.sizeBytes * 4096) 0).take _)) _)
                      rw [take_zeros hfits, hread]
                      show _ = some (_, result.2 ++ (List.replicate _ 0).drop _)
                      rw [List.drop_replicate]
                      rfl

/-! ## §3. What the files of a volume hold. -/

/-- The path leads to a file of the FAT volume with these bytes. -/
def FatHas (volume : FatVolume) (bounds : Bounds) (path contents : Bytes) : Prop :=
  ∃ file, volume.openFile bounds.clusters path = .ok file ∧ file.contents = contents

/-- The path leads to a file of the ext4 volume with these bytes. -/
def Ext4Has (volume : Ext4Volume) (bounds : Bounds) (path contents : Bytes) : Prop :=
  ∃ file, volume.openFile bounds.levels path = .ok file ∧ file.Holds contents

/-- A volume whose files hold what `has` says, as many bytes as they say. -/
structure Serves (volume : Volume) (has : Bytes → Bytes → Prop) : Prop where
  holds : ∀ path file contents, volume.files path = some file → file.contents = some contents →
    has path contents
  sized : Exact volume

/-- A file that is open was opened on the volume. -/
theorem openFile_volume {volume : FatVolume} {clusters : Nat} {path : Bytes} {file : FatFile}
    (h : volume.openFile clusters path = .ok file) : file.volume = volume := by
  unfold Fat.FatVolume.openFile at h
  obtain ⟨entry, -, h⟩ := bind_eq_ok.mp h
  cases h
  rfl

theorem fatVolume_file {volume : FatVolume} {bounds : Bounds} {path : Bytes} {opened : VolumeFile}
    (h : (fatVolume volume bounds).files path = some opened) :
    ∃ file, volume.openFile bounds.clusters path = .ok file ∧ opened = fatVolumeFile file := by
  obtain ⟨file, hopen, rfl⟩ := Option.map_eq_some_iff.mp h
  exact ⟨file, toOption_eq_some.mp hopen, rfl⟩

theorem ext4Volume_file {volume : Ext4Volume} {bounds : Bounds} {path : Bytes} {opened : VolumeFile}
    (h : (ext4Volume volume bounds).files path = some opened) :
    ∃ file, volume.openFile bounds.levels path = .ok file
      ∧ opened = ext4VolumeFile bounds.levels file := by
  obtain ⟨file, hopen, rfl⟩ := Option.map_eq_some_iff.mp h
  exact ⟨file, toOption_eq_some.mp hopen, rfl⟩

/-- **A mounted FAT volume** serves the beginnings of its cluster chains. -/
theorem fatVolume_serves {device : BlockDevice} {partitionStartLba : UInt64} {volume : FatVolume}
    (hmount : FatVolume.new device partitionStartLba = .ok volume) (bounds : Bounds) :
    Serves (fatVolume volume bounds) (FatHas volume bounds) := by
  obtain ⟨hmounted, -, -⟩ := Fat.mounted_of_new hmount
  have hcontents : ∀ path opened contents, (fatVolume volume bounds).files path = some opened →
      opened.contents = some contents →
      ∃ file, volume.openFile bounds.clusters path = .ok file ∧ opened = fatVolumeFile file
        ∧ file.contents = contents := by
    intro path opened contents hopened hread
    obtain ⟨file, hopen, rfl⟩ := fatVolume_file hopened
    obtain ⟨result, hresult, rfl⟩ := Option.map_eq_some_iff.mp hread
    refine ⟨file, hopen, rfl, ?_⟩
    cases hran : file.volume.readFileContents file.entry.firstCluster file.entry.fileSize
        (List.replicate file.entry.fileSize.toNat 0) with
    | error e =>
        rw [hran] at hresult
        cases hresult
    | ok result' =>
        rw [hran] at hresult
        cases hresult
        exact (FatFile.readFileContents_ok (openFile_volume hopen ▸ hmounted) hran).symm
  constructor
  · intro path opened contents hopened hread
    obtain ⟨file, hopen, -, hfile⟩ := hcontents path opened contents hopened hread
    exact ⟨file, hopen, hfile⟩
  · intro path opened contents hopened hread
    obtain ⟨file, -, rfl, rfl⟩ := hcontents path opened contents hopened hread
    exact file.contents_length

/-- **An ext4 volume** serves what the leaves of its extent trees give. -/
theorem ext4Volume_serves (volume : Ext4Volume) (bounds : Bounds) :
    Serves (ext4Volume volume bounds) (Ext4Has volume bounds) := by
  have hcontents : ∀ path opened contents, (ext4Volume volume bounds).files path = some opened →
      opened.contents = some contents →
      ∃ file, volume.openFile bounds.levels path = .ok file
        ∧ opened = ext4VolumeFile bounds.levels file ∧ file.Holds contents := by
    intro path opened contents hopened hread
    obtain ⟨file, hopen, rfl⟩ := ext4Volume_file hopened
    obtain ⟨result, hresult, rfl⟩ := Option.map_eq_some_iff.mp hread
    refine ⟨file, hopen, rfl, ?_⟩
    cases hran : Ext4.readInodeContents file.volume bounds.levels file.inode
        (List.replicate file.inode.sizeBytes 0) with
    | error e =>
        rw [hran] at hresult
        cases hresult
    | ok result' =>
        rw [hran] at hresult
        cases hresult
        exact Ext4File.readInodeContents_holds hran
  constructor
  · intro path opened contents hopened hread
    obtain ⟨file, hopen, -, hfile⟩ := hcontents path opened contents hopened hread
    exact ⟨file, hopen, hfile⟩
  · intro path opened contents hopened hread
    obtain ⟨file, -, rfl, hholds⟩ := hcontents path opened contents hopened hread
    exact hholds.1

/-- **On a FAT volume without a cycle** every path is opened to an end. -/
theorem fatVolume_ends {volume : FatVolume} {bounds : Bounds} (hnone : Fat.NoCycle volume)
    (hbound : Fat.enoughClusters ≤ bounds.clusters) (path : Bytes) :
    (fatVolume volume bounds).endless path = false := by
  have hends : Fat.Ends (volume.openFile bounds.clusters path) := by
    unfold Fat.FatVolume.openFile
    have hfound := Fat.findPathEntry_ends hnone hbound path
    cases hfind : Fat.findPathEntry volume bounds.clusters path with
    | error halt => exact fun h => hfound (by rw [hfind, Except.error.inj h])
    | ok entry => exact Fat.ends_ok _
  show fatRunsOn (volume.openFile bounds.clusters path) = false
  cases hopen : volume.openFile bounds.clusters path with
  | ok file => rfl
  | error halt =>
      cases halt with
      | error e => rfl
      | runsOn => exact absurd hopen hends

/-- **On an ext4 volume whose extent trees end** every path is opened and every file read to an
    end. -/
theorem ext4Volume_ends {volume : Ext4Volume} {bounds : Bounds}
    (hreads : ∀ number inode, volume.readInode number = .ok inode →
      Ext4.EndsWithin volume Ext4.ext4MaxExtentDepth inode)
    (hbound : Ext4.ext4MaxExtentDepth < bounds.levels) (path : Bytes) :
    (ext4Volume volume bounds).endless path = false := by
  have hcollect : ∀ number inode, volume.readInode number = .ok inode →
      Ext4.collectInodeExtents volume bounds.levels inode ≠ .error .deeper := by
    intro number inode hread
    obtain ⟨outcome, hends⟩ := hreads number inode hread
    rw [hends bounds.levels hbound]
    exact Ext4.ended_ne_deeper outcome
  have hresolve := Ext4.resolvePath_ne_deeper hcollect path
  show (match volume.openFile bounds.levels path with
    | .ok file => ext4Deeper (Ext4.readInodeContents file.volume bounds.levels file.inode
        (List.replicate file.inode.sizeBytes 0))
    | .error halt => ext4Deeper (.error halt : Except Ext4.Halt Ext4File)) = false
  unfold Ext4.Ext4Volume.openFile
  cases hpath : Ext4.resolvePath volume bounds.levels path with
  | error halt =>
      cases halt with
      | error e => rfl
      | deeper => exact absurd hpath hresolve
  | ok result =>
      have hread := Ext4.resolvePath_read hpath
      show ext4Deeper (Ext4.readInodeContents volume bounds.levels result.2
        (List.replicate result.2.sizeBytes 0)) = false
      have hcontents : FailsIn (fun e => e ≠ Ext4.Halt.deeper) (Ext4.readInodeContents volume
          bounds.levels result.2 (List.replicate result.2.sizeBytes 0)) :=
        Ext4.readInodeContents_ends (hcollect _ _ hread) _
      cases hran : Ext4.readInodeContents volume bounds.levels result.2
          (List.replicate result.2.sizeBytes 0) with
      | ok contents => rfl
      | error halt =>
          cases halt with
          | error e => rfl
          | deeper => exact absurd rfl (hcontents _ hran)

/-- A boot sequence does not go on for ever on a volume without endless paths. -/
theorem stalls_eq_false {volume : Volume} (h : ∀ path, volume.endless path = false)
    (a : PageAllocator) : volume.stalls a = false := by
  have hload : ∀ paths a, loadStalls volume a paths = false := by
    intro paths
    induction paths with
    | nil => exact fun a => rfl
    | cons path paths ih =>
        intro a
        unfold loadStalls
        rw [h path]
        cases volume.files path with
        | none => exact ih a
        | some file =>
            dsimp only
            cases volume.load file a with
            | mk result a' =>
                cases result with
                | ok loaded => rfl
                | error e =>
                    dsimp only
                    rw [Bool.and_false, Bool.false_or]
                    exact ih a'
  unfold Volume.stalls
  rw [hload, Bool.false_or]
  cases Boot.loadFirstFile volume a kernelCandidatePaths with
  | mk kernel a' =>
      cases kernel with
      | none => rfl
      | some kernel => exact hload _ a'

/-! ## §4. Booting a partition. -/

/-- `try_boot_from_partition`. -/
def tryBootFromPartition (firmware : FirmwareLayout) (left : Lib.Memory) (bounds : Bounds)
    (device : BlockDevice) (partition : GptPartitionEntry) (filesystem : DetectedFilesystem)
    (blockDeviceIndex partitionNumber bootHart deviceTreePtr : Nat) (memory : Lib.Memory) :
    Option Registers × Lib.Memory :=
  match filesystem with
  | .fat =>
      match FatVolume.new device (UInt64.ofNat partition.firstLba) with
      | .error _ => (none, memory)
      | .ok volume =>
          tryBootFromVolume firmware left (fatVolume volume bounds) blockDeviceIndex partitionNumber
            bootHart deviceTreePtr memory
  | .ext4 =>
      match Ext4Volume.new device partition.firstLba with
      | .error _ => (none, memory)
      | .ok volume =>
          tryBootFromVolume firmware left (ext4Volume volume bounds) blockDeviceIndex partitionNumber
            bootHart deviceTreePtr memory
  | .unknown => (none, memory)

/-- Whether the boot sequence on a volume does not come to an end, over the RAM that the device
    tree describes. -/
def volumeStalls (firmware : FirmwareLayout) (volume : Volume) (deviceTreePtr : Nat) (blob : Bytes) :
    Bool :=
  match pageAllocatorFromLiveFdt firmware deviceTreePtr blob 8 16 (List.replicate 32 emptyDescriptor) with
  | none           => false
  | some allocator => volume.stalls allocator

/-- Whether `try_boot_from_partition` does not come to an end. -/
def partitionStalls (firmware : FirmwareLayout) (bounds : Bounds) (device : BlockDevice)
    (partition : GptPartitionEntry) (filesystem : DetectedFilesystem) (deviceTreePtr : Nat)
    (blob : Bytes) : Bool :=
  match filesystem with
  | .fat =>
      match FatVolume.new device (UInt64.ofNat partition.firstLba) with
      | .error _   => false
      | .ok volume => volumeStalls firmware (fatVolume volume bounds) deviceTreePtr blob
  | .ext4 =>
      match Ext4Volume.new device partition.firstLba with
      | .error _   => false
      | .ok volume => volumeStalls firmware (ext4Volume volume bounds) deviceTreePtr blob
  | .unknown => false

/-- `linux_try_boot_from_partition`, as `probe_virtio` calls it: it hands over, it returns, or it
    goes on beyond the bounds. -/
def linuxTryBootFromPartition (firmware : FirmwareLayout) (left : Lib.Memory) (bounds : Bounds)
    (device : BlockDevice) (partition : GptPartitionEntry) (filesystem : DetectedFilesystem)
    (blockDeviceIndex partitionNumber bootHart deviceTreePtr : Nat) (memory : Lib.Memory) :
    Option (Checked Registers) × Lib.Memory :=
  if partitionStalls firmware bounds device partition filesystem deviceTreePtr
      (blobAt memory deviceTreePtr) then (some (.error .outOfFuel), memory)
  else
    match tryBootFromPartition firmware left bounds device partition filesystem blockDeviceIndex
        partitionNumber bootHart deviceTreePtr memory with
    | (some registers, memory) => (some (.ok registers), memory)
    | (none, memory)           => (none, memory)

/-- **A kernel has been booted from files that hold what `has` says**: its image is at the
    program counter and has both magic numbers, and the tree at `a1` is the live one with
    the root device and the range of the initrd in `/chosen`, where the initrd stands. -/
structure Booted (has : Bytes → Bytes → Prop) (tree : Tree)
    (blockDeviceIndex partitionNumber bootHart : Nat) (registers : Registers) (m : Lib.Memory) :
    Prop where
  aligned    : registers.pc % (2 * 1024 * 1024) = 0
  hart       : registers.a0 = bootHart
  image      : ∃ path ∈ kernelCandidatePaths, ∃ contents header, has path contents
    ∧ load m registers.pc contents.length = contents
    ∧ parseLinuxBootImageHeader contents = .ok header
    ∧ header.magic = riscvLinuxMagic ∧ header.magic2 = riscvLinuxMagic2
  deviceTree : ∃ size initrd commandLine,
    rootCommandLine blockDeviceIndex partitionNumber = some commandLine
    ∧ Bootable (PlacedDtb.view { pointer := registers.a1, size := size } m)
        (chosenTree tree initrd commandLine)
    ∧ ∀ file, initrd = some file → ∃ path ∈ initrdCandidatePaths, ∃ contents, has path contents
        ∧ file.sizeBytes = contents.length ∧ load m file.physicalStart contents.length = contents

/-- What the page model has checked when it runs through. -/
theorem model_checks {volume : Volume} {a a' : PageAllocator}
    {blockDeviceIndex partitionNumber devicePtr : Nat} {deviceMemory : Bytes} {handOff : HandOff}
    (hok : Boot.tryBootFromFilesystem volume a blockDeviceIndex partitionNumber devicePtr deviceMemory
      = (some handOff, a')) :
    rootCommandLine blockDeviceIndex partitionNumber = some handOff.commandLine
      ∧ ∃ kernel, Boot.checkKernelHeader kernel = .ok ()
        ∧ handOff.relocation.kernel = { kernel with
            physicalStart := handOff.relocation.kernel.physicalStart } := by
  unfold Boot.tryBootFromFilesystem at hok
  split at hok
  · cases (Prod.mk.inj hok).1
  next kernel a₁ hkernel =>
    dsimp only at hok
    split at hok
    next commandLine deviceTree hline _ hheader =>
      split at hok
      · cases (Prod.mk.inj hok).1
      next relocation a₂ hrel =>
        split at hok
        · cases (Prod.mk.inj hok).1
        · obtain rfl := Option.some.inj (Prod.mk.inj hok).1
          exact ⟨hline, kernel, hheader, relocateKernel_image hrel⟩
    next => cases (Prod.mk.inj hok).1

/-- An image whose header has been checked. -/
theorem header_of_check {kernel : Boot.LoadedFile} {m : Lib.Memory} (hholds : Holds m kernel)
    (hcheck : Boot.checkKernelHeader kernel = .ok ()) :
    ∃ header, parseLinuxBootImageHeader kernel.contents = .ok header
      ∧ header.magic = riscvLinuxMagic ∧ header.magic2 = riscvLinuxMagic2 := by
  rw [← checkKernelHeader_eq hholds] at hcheck
  unfold checkKernelHeader at hcheck
  rw [hholds.bytes] at hcheck
  obtain ⟨header, hparse, hcheck⟩ := bind_eq_ok.mp hcheck
  split_ifs at hcheck with hmagic hmagic2
  exact ⟨header, hparse, not_not.mp hmagic, not_not.mp hmagic2⟩

section Booted

variable {firmware : FirmwareLayout} {volume : Volume} {m m' left : Lib.Memory} {deviceTreePtr : Nat}
  {d : Dtb} {tree : Tree} {blockDeviceIndex partitionNumber bootHart : Nat} {registers : Registers}

/-- **A volume that serves files boots them.** -/
theorem Serves.boots {has : Bytes → Bytes → Prop} (hserves : Serves volume has)
    (hlive : Dtb.fromPtr deviceTreePtr (blobAt m deviceTreePtr) = .ok d) (hbootable : Bootable d tree)
    (hrun : tryBootFromVolume firmware left volume blockDeviceIndex partitionNumber bootHart
      deviceTreePtr m = (some registers, m')) :
    Booted has tree blockDeviceIndex partitionNumber bootHart registers m' := by
  obtain ⟨a, handOff, a', hbuild, hmodel, hplaced⟩ :=
    model_of_handsOver hserves.sized hlive hbootable hrun
  obtain ⟨m'', hrun', hdelivered⟩ := handsOver_of_model hserves.sized left bootHart hlive hbootable
    hbuild hmodel hplaced
  rw [hrun] at hrun'
  obtain ⟨hregisters, rfl⟩ := Prod.mk.inj hrun'
  have hsound := (live_outside hbuild hlive).1
  obtain rfl := (Option.some.inj hregisters).trans (registersOf_eq hsound hmodel bootHart)
  obtain ⟨hline, kernel, hcheck, hmoved⟩ := model_checks hmodel
  have hsame : handOff.relocation.kernel.contents = kernel.contents := by rw [hmoved]
  -- the bytes of a candidate, where it was loaded
  have hcandidate : ∀ {paths : List Bytes} {loaded : Boot.LoadedFile}, Candidate volume paths loaded →
      Holds m' loaded → ∃ path ∈ paths, ∃ contents, has path contents
        ∧ loaded.contents = contents ∧ loaded.sizeBytes = contents.length
        ∧ load m' loaded.physicalStart contents.length = contents := by
    intro paths loaded hfrom hholds
    obtain ⟨path, hpath, file, hfile, hsize, hcontents⟩ := hfrom
    have hlength : loaded.contents.length = loaded.sizeBytes := by
      rw [hserves.sized path file _ hfile hcontents, hsize]
    refine ⟨path, hpath, loaded.contents, hserves.holds path file _ hfile hcontents, rfl,
      hlength.symm, ?_⟩
    rw [hlength]
    exact hholds
  constructor
  · obtain ⟨_, a₁, a₂, a₃, _, hkernel, hinitrd, hrel, -⟩ := tryBootFromFilesystem_ok hmodel
    have hload₁ := loadFirstFile_loads volume hsound kernelCandidatePaths
    rw [hkernel] at hload₁
    have hload₂ := loadFirstFile_loads volume hload₁.sound initrdCandidatePaths
    rw [hinitrd] at hload₂
    obtain ⟨b, -, -, hmod, -⟩ := relocateKernel_ok hload₂.sound hrel
    exact hmod
  · rfl
  · obtain ⟨path, hpath, contents, hhas, rfl, -, hbytes⟩ :=
      hcandidate hdelivered.kernelFrom hdelivered.kernel
    have hkernelHolds : Holds m' { kernel with
        physicalStart := handOff.relocation.kernel.physicalStart } := hmoved ▸ hdelivered.kernel
    obtain ⟨header, hparse, hmagics⟩ := header_of_check hkernelHolds
      (show Boot.checkKernelHeader _ = _ from hcheck)
    exact ⟨path, hpath, _, header, hhas, hbytes, hsame ▸ hparse, hmagics⟩
  · refine ⟨handOff.dtb.size, handOff.initrd, handOff.commandLine, hline, hdelivered.deviceTree, ?_⟩
    intro file hfile
    obtain ⟨hholds, hfrom⟩ := hdelivered.initrd file hfile
    obtain ⟨path, hpath, contents, hhas, -, hsize, hbytes⟩ := hcandidate hfrom hholds
    exact ⟨path, hpath, contents, hhas, hsize, hbytes⟩

/-- Without an allocator nothing is tried. -/
theorem tryBootFromVolume_none
    (hbuild : pageAllocatorFromLiveFdt firmware deviceTreePtr (blobAt m deviceTreePtr) 8 16
      (List.replicate 32 emptyDescriptor) = none) :
    tryBootFromVolume firmware left volume blockDeviceIndex partitionNumber bootHart deviceTreePtr m
      = (none, m) := by
  unfold tryBootFromVolume
  rw [hbuild]

variable {bounds : Bounds} {device : BlockDevice} {partition : GptPartitionEntry}
  {filesystem : DetectedFilesystem}

/-- A file of the partition, as the filesystem that is mounted on it has it. -/
def PartitionHas (bounds : Bounds) (device : BlockDevice) (partition : GptPartitionEntry)
    (filesystem : DetectedFilesystem) (path contents : Bytes) : Prop :=
  match filesystem with
  | .fat => ∃ volume, FatVolume.new device (UInt64.ofNat partition.firstLba) = .ok volume
      ∧ FatHas volume bounds path contents
  | .ext4 => ∃ volume, Ext4Volume.new device partition.firstLba = .ok volume
      ∧ Ext4Has volume bounds path contents
  | .unknown => False

/-- Every attempt on a partition is one on a volume that serves its files, or nothing. -/
theorem tryBootFromPartition_cases (firmware : FirmwareLayout) (left : Lib.Memory) (bounds : Bounds)
    (device : BlockDevice) (partition : GptPartitionEntry) (filesystem : DetectedFilesystem)
    (blockDeviceIndex partitionNumber bootHart deviceTreePtr : Nat) :
    (∃ volume, Serves volume (PartitionHas bounds device partition filesystem)
        ∧ ∀ m, tryBootFromPartition firmware left bounds device partition filesystem blockDeviceIndex
            partitionNumber bootHart deviceTreePtr m
          = tryBootFromVolume firmware left volume blockDeviceIndex partitionNumber bootHart
              deviceTreePtr m)
      ∨ ∀ m, tryBootFromPartition firmware left bounds device partition filesystem blockDeviceIndex
          partitionNumber bootHart deviceTreePtr m = (none, m) := by
  unfold tryBootFromPartition
  cases filesystem with
  | fat =>
      cases hmount : FatVolume.new device (UInt64.ofNat partition.firstLba) with
      | error e => exact .inr (fun _ => rfl)
      | ok volume =>
          have hserves := fatVolume_serves hmount bounds
          exact .inl ⟨_, ⟨fun path file contents hfile hread =>
            ⟨volume, hmount, hserves.holds path file contents hfile hread⟩, hserves.sized⟩,
            fun _ => rfl⟩
  | ext4 =>
      cases hmount : Ext4Volume.new device partition.firstLba with
      | error e => exact .inr (fun _ => rfl)
      | ok volume =>
          have hserves := ext4Volume_serves volume bounds
          exact .inl ⟨_, ⟨fun path file contents hfile hread =>
            ⟨volume, hmount, hserves.holds path file contents hfile hread⟩, hserves.sized⟩,
            fun _ => rfl⟩
  | unknown => exact .inr (fun _ => rfl)

/-- A partition that boots, boots its own files. -/
theorem booted_of_partition
    (hlive : Dtb.fromPtr deviceTreePtr (blobAt m deviceTreePtr) = .ok d) (hbootable : Bootable d tree)
    (hrun : tryBootFromPartition firmware left bounds device partition filesystem blockDeviceIndex
      partitionNumber bootHart deviceTreePtr m = (some registers, m')) :
    Booted (PartitionHas bounds device partition filesystem) tree blockDeviceIndex partitionNumber
      bootHart registers m' := by
  rcases tryBootFromPartition_cases firmware left bounds device partition filesystem blockDeviceIndex
      partitionNumber bootHart deviceTreePtr with ⟨volume, hserves, hvolume⟩ | hnothing
  · rw [hvolume] at hrun
    exact hserves.boots hlive hbootable hrun
  · rw [hnothing] at hrun
    cases (Prod.mk.inj hrun).1

/-- An attempt writes only conventional memory. -/
theorem tryBootFromPartition_frame
    (hlive : Dtb.fromPtr deviceTreePtr (blobAt m deviceTreePtr) = .ok d) (hbootable : Bootable d tree)
    {a : PageAllocator}
    (hbuild : pageAllocatorFromLiveFdt firmware deviceTreePtr (blobAt m deviceTreePtr) 8 16
      (List.replicate 32 emptyDescriptor) = some a) :
    Frame a m (tryBootFromPartition firmware left bounds device partition filesystem blockDeviceIndex
      partitionNumber bootHart deviceTreePtr m).2 := by
  rcases tryBootFromPartition_cases firmware left bounds device partition filesystem blockDeviceIndex
      partitionNumber bootHart deviceTreePtr with ⟨volume, hserves, hvolume⟩ | hnothing
  · rw [hvolume]
    exact tryBootFromVolume_frame hserves.sized left bootHart hlive hbootable hbuild
  · rw [hnothing]
    exact Frame.refl a m

/-- Without an allocator an attempt does nothing. -/
theorem tryBootFromPartition_none
    (hbuild : pageAllocatorFromLiveFdt firmware deviceTreePtr (blobAt m deviceTreePtr) 8 16
      (List.replicate 32 emptyDescriptor) = none) :
    tryBootFromPartition firmware left bounds device partition filesystem blockDeviceIndex
      partitionNumber bootHart deviceTreePtr m = (none, m) := by
  rcases tryBootFromPartition_cases firmware left bounds device partition filesystem blockDeviceIndex
      partitionNumber bootHart deviceTreePtr with ⟨volume, -, hvolume⟩ | hnothing
  · rw [hvolume, tryBootFromVolume_none hbuild]
  · rw [hnothing]

/-- **From the disk to the first instruction.**  If the attempt on a partition hands over,
    the machine runs a kernel image of that partition, with the initrd of that partition
    if it names one, and no byte outside the conventional memory has changed. -/
theorem tryBootFromPartition_boots
    (hlive : Dtb.fromPtr deviceTreePtr (blobAt m deviceTreePtr) = .ok d) (hbootable : Bootable d tree)
    (hrun : tryBootFromPartition firmware left bounds device partition filesystem blockDeviceIndex
      partitionNumber bootHart deviceTreePtr m = (some registers, m')) :
    Booted (PartitionHas bounds device partition filesystem) tree blockDeviceIndex partitionNumber
        bootHart registers m'
      ∧ ∃ a, pageAllocatorFromLiveFdt firmware deviceTreePtr (blobAt m deviceTreePtr) 8 16
          (List.replicate 32 emptyDescriptor) = some a ∧ Frame a m m' := by
  refine ⟨booted_of_partition hlive hbootable hrun, ?_⟩
  cases hbuild : pageAllocatorFromLiveFdt firmware deviceTreePtr (blobAt m deviceTreePtr) 8 16
      (List.replicate 32 emptyDescriptor) with
  | none =>
      rw [tryBootFromPartition_none hbuild] at hrun
      cases (Prod.mk.inj hrun).1
  | some a =>
      refine ⟨a, rfl, ?_⟩
      have hframe : Frame a m (tryBootFromPartition firmware left bounds device partition filesystem
          blockDeviceIndex partitionNumber bootHart deviceTreePtr m).2 :=
        tryBootFromPartition_frame hlive hbootable hbuild
      rw [hrun] at hframe
      exact hframe

end Booted

/-- The long name `vmlinuz` of the entry `VMLINUZ`. -/
def kernelLongName : Bytes :=
  Fat.pieceBytes 0x41 (Fat.shortNameChecksum (ascii "VMLINUZ    "))
    (utf16 ['v', 'm', 'l', 'i', 'n', 'u', 'z'] ++ Fat.vfatPadding 7)

/-- A FAT16 disk with the tiny kernel as `/vmlinuz`. -/
def bootContents (lba : Nat) : Bytes :=
  if lba = 1 then List.replicate 4 0 ++ leBytes 2 0xffff
  else if lba = 21 then kernelLongName ++ Fat.entryBytes (ascii "VMLINUZ    ") 0x20 2 64
  else if lba = 22 then tinyKernel
  else []

/-- Its partition, which starts at the first sector. -/
def bootPartition : GptPartitionEntry where
  partitionTypeGuid   := List.replicate 16 1
  uniquePartitionGuid := List.replicate 16 0
  firstLba            := 0
  lastLba             := 4999
  attributes          := 4
  partitionName       := []

set_option maxRecDepth 20000 in
/-- The page model runs through on that disk. -/
theorem bootContents_runs :
    ∃ a handOff a', pageAllocatorFromLiveFdt ramFirmware 0x80008000 (blobAt ramMemory 0x80008000) 8 16
        (List.replicate 32 emptyDescriptor) = some a
      ∧ Boot.tryBootFromFilesystem (fatVolume (Fat.fat16Volume bootContents) ⟨1, 6⟩) a 0 1 0x80008000
          (blobAt ramMemory 0x80008000) = (some handOff, a')
      ∧ handOff.dtb.pointer ≠ 0 := by
  rw [blobAt_ramMemory]
  have hrun : (pageAllocatorFromLiveFdt ramFirmware 0x80008000 ramBlob 8 16
        (List.replicate 32 emptyDescriptor)).map (fun a =>
          (Boot.tryBootFromFilesystem (fatVolume (Fat.fat16Volume bootContents) ⟨1, 6⟩) a 0 1 0x80008000
            ramBlob).1.map (fun handOff => decide (handOff.dtb.pointer ≠ 0))) = some (some true) := by
    decide +kernel
  obtain ⟨a, ha, hsome⟩ := Option.map_eq_some_iff.mp hrun
  obtain ⟨handOff, hh, hpointer⟩ := Option.map_eq_some_iff.mp hsome
  exact ⟨a, handOff, _, ha, Prod.ext hh rfl, of_decide_eq_true hpointer⟩

set_option maxRecDepth 20000 in
/-- The attempt on its partition hands over. -/
theorem bootPartition_handsOver :
    ∃ registers m', tryBootFromPartition ramFirmware (fun _ => 0) ⟨1, 6⟩ (Fat.fat16Device bootContents)
      bootPartition .fat 0 1 3 0x80008000 ramMemory = (some registers, m') := by
  obtain ⟨a, handOff, a', hbuild, hmodel, hplaced⟩ := bootContents_runs
  have hmount := Fat.new_fat16Device bootContents
  obtain ⟨m', hrun, -⟩ := handsOver_of_model (fatVolume_serves hmount ⟨1, 6⟩).sized (fun _ => 0) 3
    ramMemory_live ramDtb_bootable hbuild hmodel hplaced
  refine ⟨registersOf handOff 3, m', ?_⟩
  unfold tryBootFromPartition
  show (match FatVolume.new (Fat.fat16Device bootContents) 0 with
    | .error _ => (none, ramMemory)
    | .ok volume => tryBootFromVolume ramFirmware (fun _ => 0) (fatVolume volume ⟨1, 6⟩) 0 1 3
        0x80008000 ramMemory) = _
  rw [hmount]
  exact hrun

theorem tryBootFromPartition_boots_example :
    ∃ registers m', tryBootFromPartition ramFirmware (fun _ => 0) ⟨1, 6⟩ (Fat.fat16Device bootContents)
        bootPartition .fat 0 1 3 0x80008000 ramMemory = (some registers, m')
      ∧ Booted (PartitionHas ⟨1, 6⟩ (Fat.fat16Device bootContents) bootPartition .fat) ramTree 0 1 3
          registers m' := by
  obtain ⟨registers, m', hrun⟩ := bootPartition_handsOver
  exact ⟨registers, m', hrun,
    (tryBootFromPartition_boots ramMemory_live ramDtb_bootable hrun).1⟩

end RustFirmware.InMemory
