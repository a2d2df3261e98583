/-
  RustFirmware.Boot.InMemory
  ──────────────────────────
  **THE LINUX BOOT SEQUENCE AS THE MACHINE RUNS IT: BYTES IN PHYSICAL MEMORY.**

  `Boot.Linux` follows the pages and carries the contents of a file along with its
  record.  Here a record is what the source has, an address and a size, and every
  byte is in one flat memory: the loaders fill pages, `relocate_kernel` copies,
  `clone` copies and fills, the edits of `/chosen` work on the clone where it stands,
  and `start` sets three registers.

  The live device tree is read where it lies.  Two things are parameters: what the
  volume holds, and what a load that fails leaves in the pages it had taken (`left`).
-/
import RustFirmware.Boot.Chosen
import RustFirmware.Filesystem.Load
import RustFirmware.Lib.Memory

namespace RustFirmware.InMemory

open RustFirmware.Lib hiding readLe
open RustFirmware.Memory
open RustFirmware.DeviceTree
open RustFirmware.Filesystem (LoadedFile)
open RustFirmware.Boot hiding LoadedFile

/-! ## §1. The machine. -/

/-- The memory, and the page allocator that says what is in use. -/
structure Machine where
  memory    : Lib.Memory
  allocator : PageAllocator

/-- The registers at the kernel's first instruction. -/
structure Registers where
  pc : Nat
  a0 : Nat
  a1 : Nat
  deriving Repr, DecidableEq

/-- `LoadedFile::bytes`. -/
def bytes (file : LoadedFile) (memory : Lib.Memory) : Bytes :=
  load memory file.physicalStart file.sizeBytes

/-- The record without the contents. -/
def place (file : Boot.LoadedFile) : LoadedFile where
  physicalStart := file.physicalStart
  pageCount     := file.pageCount
  sizeBytes     := file.sizeBytes

/-! ## §2. Loading. -/

/-- The memory after a load that failed: `left` in the pages that it had taken. -/
def spoiled (left : Lib.Memory) (before after : PageAllocator) (memory : Lib.Memory) :
    Lib.Memory := fun address =>
  if before.pageMap (address / 4096) = some .conventionalMemory
      ∧ after.pageMap (address / 4096) ≠ some .conventionalMemory then left address
  else memory address

/-- `FileHandle::load`: the pages are zeroed, then the file is read into them. -/
def loadFile (left : Lib.Memory) (volume : Volume) (file : VolumeFile) (s : Machine) :
    Except LoadError LoadedFile × Machine :=
  match volume.load file s.allocator with
  | (.error e, allocator) =>
      (.error e, { memory := spoiled left s.allocator allocator s.memory, allocator := allocator })
  | (.ok loaded, allocator) =>
      let zeroed := store s.memory loaded.physicalStart (List.replicate (loaded.pageCount * 4096) 0)
      -- the reader gets the slice that is as long as the file
      let filled := store zeroed loaded.physicalStart (loaded.contents.take loaded.sizeBytes)
      (.ok (place loaded), { memory := filled, allocator := allocator })

/-- `load_first_file`, with the path that was loaded. -/
def loadFirstFile (left : Lib.Memory) (volume : Volume) (s : Machine) :
    List Bytes → Option (Bytes × LoadedFile) × Machine
  | [] => (none, s)
  | path :: paths =>
      match volume.files path with
      | none => loadFirstFile left volume s paths
      | some file =>
          match loadFile left volume file s with
          | (.ok loaded, s) => (some (path, loaded), s)
          | (.error _, s)   => loadFirstFile left volume s paths

/-! ## §3. The kernel image. -/

/-- `LinuxBootImageHeader`. -/
structure LinuxBootImageHeader where
  code0      : Nat
  code1      : Nat
  textOffset : Nat
  imageSize  : Nat
  flags      : Nat
  version    : Nat
  res1       : Nat
  res2       : Nat
  magic      : Nat
  magic2     : Nat
  res3       : Nat
  deriving Repr, DecidableEq

/-- `parse_linux_boot_image_header`. -/
def parseLinuxBootImageHeader (bytes : Bytes) : Except LinuxBootError LinuxBootImageHeader := do
  if bytes.length < riscvLinuxHeaderSize then .error .kernelImageTooSmall
  else
    let code0 ← okOr (readLe bytes 0x00 4) .kernelImageTooSmall
    let code1 ← okOr (readLe bytes 0x04 4) .kernelImageTooSmall
    let textOffset ← okOr (readLe bytes 0x08 8) .kernelImageTooSmall
    let imageSize ← okOr (readLe bytes 0x10 8) .kernelImageTooSmall
    let flags ← okOr (readLe bytes 0x18 8) .kernelImageTooSmall
    let version ← okOr (readLe bytes 0x20 4) .kernelImageTooSmall
    let res1 ← okOr (readLe bytes 0x24 4) .kernelImageTooSmall
    let res2 ← okOr (readLe bytes 0x28 8) .kernelImageTooSmall
    let magic ← okOr (readLe bytes 0x30 8) .kernelImageTooSmall
    let magic2 ← okOr (readLe bytes 0x38 4) .kernelImageTooSmall
    let res3 ← okOr (readLe bytes 0x3c 4) .kernelImageTooSmall
    .ok { code0 := code0, code1 := code1, textOffset := textOffset, imageSize := imageSize,
          flags := flags, version := version, res1 := res1, res2 := res2, magic := magic,
          magic2 := magic2, res3 := res3 }

/-- `check_kernel_header`. -/
def checkKernelHeader (kernelImage : LoadedFile) (memory : Lib.Memory) :
    Except LinuxBootError Unit := do
  let header ← parseLinuxBootImageHeader (bytes kernelImage memory)
  if header.magic ≠ riscvLinuxMagic then .error .invalidKernelMagic
  else if header.magic2 ≠ riscvLinuxMagic2 then .error .invalidKernelMagic2
  else .ok ()

/-- `relocate_kernel`: the copy is made before the old pages are given back. -/
def relocateKernel (kernelLoaded : LoadedFile) (s : Machine) : Option LoadedFile × Machine :=
  match s.allocator.allocateAlignedPagesForSize .bootServicesData kernelLoaded.sizeBytes
      kernelAlignment .low with
  | (.error _, allocator) => (none, { s with allocator := allocator })
  | (.ok relocatedStart, allocator) =>
      let copied := store s.memory relocatedStart (bytes kernelLoaded s.memory)
      match allocator.freePages kernelLoaded.physicalStart kernelLoaded.pageCount with
      | (.error _, allocator) => (none, { memory := copied, allocator := allocator })
      | (.ok (), allocator) =>
          (some { kernelLoaded with physicalStart := relocatedStart },
            { memory := copied, allocator := allocator })

/-! ## §4. The device tree. -/

/-- `Dtb` as the source has it: where the blob is, and its size. -/
structure PlacedDtb where
  pointer : Nat
  size    : Nat
  deriving Repr, DecidableEq

/-- The blob with the bytes that memory holds for it. -/
def PlacedDtb.view (d : PlacedDtb) (memory : Lib.Memory) : Dtb where
  pointer := d.pointer
  blob    := load memory d.pointer d.size
  size    := d.size

/-- What a reader of the blob at `pointer` looks at: the header, and as many bytes as
    the header says. -/
def blobAt (memory : Lib.Memory) (pointer : Nat) : Bytes :=
  load memory pointer (max fdtHeaderSize ((readBe32 (load memory pointer fdtHeaderSize) 4).getD 0))

/-- `Dtb::from_ptr`. -/
def PlacedDtb.fromPtr (pointer : Nat) (memory : Lib.Memory) : Except DtbError PlacedDtb :=
  (Dtb.fromPtr pointer (blobAt memory pointer)).map
    (fun d => { pointer := d.pointer, size := d.size })

/-- `Dtb::clone`. -/
def PlacedDtb.clone (d : PlacedDtb) (newSize : Nat) (s : Machine) :
    Except DtbError PlacedDtb × Machine :=
  let headerTotalSize := (d.view s.memory).totalSizeField
  if newSize ≤ headerTotalSize then (.error .invalidCloneSize, s)
  else
    let pageCount := (newSize + (efiPageSize - 1)) / efiPageSize
    match checkedMul 64 pageCount efiPageSize with
    | none => (.error .sizeOverflow, s)
    | some allocatedSize =>
        if ¬ allocatedSize < 2 ^ 32 then (.error .sizeOverflow, s)
        else
          match s.allocator.allocatePages .allocateAnyPages .acpiReclaimMemory pageCount 0 with
          | (.error e, _, allocator) => (.error (.memory e), { s with allocator := allocator })
          | (.ok (), physicalStart, allocator) =>
              -- `copy_nonoverlapping`, `write_bytes` and `set_total_size`
              let copied := store s.memory physicalStart (load s.memory d.pointer headerTotalSize)
              let zeroed := store copied (physicalStart + headerTotalSize)
                (List.replicate (allocatedSize - headerTotalSize) 0)
              let sized := store zeroed (physicalStart + 4) (be32 allocatedSize)
              (.ok { pointer := physicalStart, size := allocatedSize },
                { memory := sized, allocator := allocator })

/-! ## §5. The request and the jump. -/

/-- `LinuxBootRequest::update_device_tree` on the clone where it stands: an error keeps
    the edits made before it. -/
def updateDeviceTree (initrd : Option LoadedFile) (commandLine : Bytes) (d : PlacedDtb)
    (memory : Lib.Memory) : Except LinuxBootError Unit × Lib.Memory :=
  -- the edits read nothing but the range of the initrd
  match updateChosen (initrd.map (fun file => ⟨file.physicalStart, file.pageCount, file.sizeBytes, []⟩))
      commandLine (d.view memory) with
  | (result, edited) => (result, store memory d.pointer edited.blob)

/-- `start`: `jalr` clears the lowest bit of its target. -/
def start (kernelImage : LoadedFile) (bootHart updatedDeviceTree : Nat) : Registers where
  pc := kernelImage.physicalStart / 2 * 2
  a0 := bootHart
  a1 := updatedDeviceTree

/-- `boot` for loaded files, which are no directories: the clone. -/
def boot (deviceTree : PlacedDtb) (s : Machine) : Except LinuxBootError PlacedDtb × Machine :=
  match checkedAdd 64 deviceTree.size linuxDtbExtraSize with
  | none => (.error (.deviceTreeClone .sizeOverflow), s)
  | some newSize =>
      match deviceTree.clone newSize s with
      | (.ok cloned, s) => (.ok cloned, s)
      | (.error e, s)   => (.error (.deviceTreeClone e), s)

/-- `boot_and_start`: the registers and the memory that the kernel finds. -/
def bootAndStart (kernelImage : LoadedFile) (initrd : Option LoadedFile) (deviceTree : PlacedDtb)
    (commandLine : Bytes) (bootHart : Nat) (s : Machine) :
    Except LinuxBootError Registers × Machine :=
  match boot deviceTree s with
  | (.error e, s) => (.error e, s)
  | (.ok cloned, s) =>
      match updateDeviceTree initrd commandLine cloned s.memory with
      | (.error e, memory) => (.error e, { s with memory := memory })
      | (.ok (), memory) => (.ok (start kernelImage bootHart cloned.pointer), { s with memory := memory })

/-- `try_boot_from_filesystem`; `none` where it gives up. -/
def tryBootFromFilesystem (left : Lib.Memory) (volume : Volume)
    (blockDeviceIndex partitionNumber bootHart deviceTreePtr : Nat) (s : Machine) :
    Option Registers × Machine :=
  match loadFirstFile left volume s kernelCandidatePaths with
  | (none, s) => (none, s)
  | (some (_, kernelLoaded), s) =>
      match loadFirstFile left volume s initrdCandidatePaths with
      | (initrdLoaded, s) =>
          match rootCommandLine blockDeviceIndex partitionNumber,
              PlacedDtb.fromPtr deviceTreePtr s.memory, checkKernelHeader kernelLoaded s.memory with
          | some commandLine, .ok deviceTree, .ok () =>
              match relocateKernel kernelLoaded s with
              | (none, s) => (none, s)
              | (some kernelLoaded, s) =>
                  match bootAndStart kernelLoaded (initrdLoaded.map (fun loaded => loaded.2)) deviceTree
                      commandLine bootHart s with
                  | (.ok registers, s) => (some registers, s)
                  | (.error _, s)      => (none, s)
          | _, _, _ => (none, s)

/-- `try_boot_from_volume`: a fresh allocator over the RAM that the live device tree
    describes, then the sequence. -/
def tryBootFromVolume (firmware : FirmwareLayout) (left : Lib.Memory) (volume : Volume)
    (blockDeviceIndex partitionNumber bootHart deviceTreePtr : Nat) (memory : Lib.Memory) :
    Option Registers × Lib.Memory :=
  match pageAllocatorFromLiveFdt firmware deviceTreePtr (blobAt memory deviceTreePtr) 8 16
      (List.replicate 32 emptyDescriptor) with
  | none => (none, memory)
  | some allocator =>
      match tryBootFromFilesystem left volume blockDeviceIndex partitionNumber bootHart deviceTreePtr
          { memory := memory, allocator := allocator } with
      | (registers, s) => (registers, s.memory)

end RustFirmware.InMemory
