/-
  RustFirmware.Boot.Linux
  ───────────────────────
  **THE LINUX BOOT SEQUENCE OF `src/linux.rs` ON THE PAGE ALLOCATOR.**

  `try_boot_from_filesystem` loads the kernel and the initrd, moves the kernel
  down to a 2 MiB boundary, frees its old pages and clones the device tree.
  What the volume holds is a parameter: each of the four candidate paths is
  opened at most once, so a function from paths says everything.  Filling in
  `/chosen` and the jump come after the clone and touch no page allocation.

  The argument is about ONE set, the conventional pages: every step but the free
  takes pages out of it, and the free puts back exactly the kernel's old pages.
-/
import RustFirmware.Memory.Runs
import RustFirmware.DeviceTree.Write

namespace RustFirmware.Boot

open RustFirmware.Lib
open RustFirmware.Memory
open RustFirmware.DeviceTree

/-! ## §1. Files and loaders. -/

/-- `LoadedFile`, with the bytes its pages hold. -/
structure LoadedFile where
  physicalStart : Nat
  pageCount     : Nat
  sizeBytes     : Nat
  contents      : Bytes
  deriving Repr, DecidableEq

/-- A path that opens: what the loader sees of it.  `contents` is `none` where
    reading the file fails. -/
structure VolumeFile where
  isDirectory : Bool
  sizeBytes   : Nat
  contents    : Option Bytes
  deriving Repr, DecidableEq

/-- The errors of the two loaders. -/
inductive LoadError where
  | isDirectory
  | fileTooLarge
  | bufferTooSmall
  | memory (error : MemoryError)
  | read
  deriving Repr, DecidableEq

/-- `file_size_to_page_count`, with the error each filesystem has for it. -/
def fileSizeToPageCount (tooLarge : LoadError) (sizeBytes : Nat) : Except LoadError Nat :=
  match checkedAdd 64 sizeBytes (efiPageSize - 1) with
  | some value => .ok (value / efiPageSize)
  | none       => .error tooLarge

/-- `FatFile::load_into_allocated_pages`. -/
def fatLoad (file : VolumeFile) (allocator : PageAllocator) :
    Except LoadError LoadedFile × PageAllocator :=
  if file.isDirectory then (.error .isDirectory, allocator)
  else
    match fileSizeToPageCount .fileTooLarge file.sizeBytes with
    | .error e => (.error e, allocator)
    | .ok pages =>
        let pageCount := max 1 pages
        match allocator.allocatePagesForSize .bootServicesData file.sizeBytes with
        | (.error e, allocator) => (.error (.memory e), allocator)
        | (.ok physicalStart, allocator) =>
            -- `allocation_size_bytes` checks the product only after the allocation
            match checkedMul 64 pageCount efiPageSize, file.contents with
            | none, _ => (.error .fileTooLarge, allocator)
            | some _, none => (.error .read, allocator)
            | some _, some contents =>
                (.ok { physicalStart := physicalStart, pageCount := pageCount,
                       sizeBytes := file.sizeBytes, contents := contents }, allocator)

/-- `Ext4File::load_into_allocated_pages`. -/
def ext4Load (file : VolumeFile) (allocator : PageAllocator) :
    Except LoadError LoadedFile × PageAllocator :=
  if file.isDirectory then (.error .isDirectory, allocator)
  else
    match fileSizeToPageCount .bufferTooSmall file.sizeBytes with
    | .error e => (.error e, allocator)
    | .ok pages =>
        match allocator.allocatePagesForSize .bootServicesData file.sizeBytes with
        | (.error e, allocator) => (.error (.memory e), allocator)
        | (.ok physicalStart, allocator) =>
            match file.contents with
            | none => (.error .read, allocator)
            | some contents =>
                (.ok { physicalStart := physicalStart, pageCount := max 1 pages,
                       sizeBytes := file.sizeBytes, contents := contents }, allocator)

/-- The mounted filesystems. -/
inductive Filesystem where
  | fat
  | ext4
  deriving Repr, DecidableEq

/-- A mounted volume: its kind, what opening a path gives, and the paths on which the reader
    does not come to an end: as it opens them, where nothing opens, or else as it reads the
    file. -/
structure Volume where
  kind    : Filesystem
  files   : Bytes → Option VolumeFile
  endless : Bytes → Bool

def Volume.load (volume : Volume) (file : VolumeFile) (allocator : PageAllocator) :
    Except LoadError LoadedFile × PageAllocator :=
  match volume.kind with
  | .fat  => fatLoad file allocator
  | .ext4 => ext4Load file allocator

/-- `load_first_file`: the first candidate that opens and loads.  A candidate
    that fails after its allocation keeps its pages. -/
def loadFirstFile (volume : Volume) (allocator : PageAllocator) :
    List Bytes → Option LoadedFile × PageAllocator
  | [] => (none, allocator)
  | path :: paths =>
      match volume.files path with
      | none => loadFirstFile volume allocator paths
      | some file =>
          match volume.load file allocator with
          | (.ok loaded, allocator) => (some loaded, allocator)
          | (.error _, allocator)   => loadFirstFile volume allocator paths

/-- Whether `load_first_file` comes to a path on which the reader does not come to an end. -/
def loadStalls (volume : Volume) (allocator : PageAllocator) : List Bytes → Bool
  | [] => false
  | path :: paths =>
      match volume.files path with
      | none => volume.endless path || loadStalls volume allocator paths
      | some file =>
          match volume.load file allocator with
          | (.ok _, _) => false
          | (.error e, allocator) =>
              (e == .read && volume.endless path) || loadStalls volume allocator paths

/-! ## §2. The boot sequence. -/

/-- `kernel_candidate_path`, in order. -/
def kernelCandidatePaths : List Bytes := [ascii "/boot/vmlinuz", ascii "/vmlinuz"]

/-- `initrd_candidate_path`, in order. -/
def initrdCandidatePaths : List Bytes := [ascii "/boot/initrd.img", ascii "/initrd.img"]

def riscvLinuxMagic : Nat := 0x005643534952
def riscvLinuxMagic2 : Nat := 0x05435352
def riscvLinuxHeaderSize : Nat := 64
def kernelAlignment : Nat := 2 * 1024 * 1024
def linuxDtbExtraSize : Nat := 8 * 1024

/-- `LinuxBootError`. -/
inductive LinuxBootError where
  | kernelIsDirectory
  | initrdIsDirectory
  | kernelImageTooSmall
  | invalidKernelMagic
  | invalidKernelMagic2
  | initrdRangeOverflow
  | deviceTreeClone (error : DtbError)
  | deviceTreeUpdate (error : DtbError)
  deriving Repr, DecidableEq

/-- The little-endian word of `length` bytes at `offset`. -/
def readLe (bytes : Bytes) (offset length : Nat) : Option Nat :=
  (slice? bytes offset (offset + length)).map (fun word => beNat word.reverse)

/-- `check_kernel_header`: both magic fields of the boot header. -/
def checkKernelHeader (kernel : LoadedFile) : Except LinuxBootError Unit := do
  if kernel.contents.length < riscvLinuxHeaderSize then .error .kernelImageTooSmall
  else
    let magic ← okOr (readLe kernel.contents 0x30 8) .kernelImageTooSmall
    let magic2 ← okOr (readLe kernel.contents 0x38 4) .kernelImageTooSmall
    if magic ≠ riscvLinuxMagic then .error .invalidKernelMagic
    else if magic2 ≠ riscvLinuxMagic2 then .error .invalidKernelMagic2
    else .ok ()

/-- The decimal digits of a `u32`. -/
def decimalDigits : (fuel : Nat) → (value : Nat) → Bytes
  | 0, _ => []
  | fuel + 1, value =>
      (if value / 10 = 0 then [] else decimalDigits fuel (value / 10))
        ++ [UInt8.ofNat (48 + value % 10)]

/-- `root_command_line`. -/
def rootCommandLine (blockDeviceIndex partitionNumber : Nat) : Option Bytes :=
  if blockDeviceIndex ≥ 26 then none
  else some (ascii "root=/dev/vd" ++ [UInt8.ofNat (97 + blockDeviceIndex)]
    ++ decimalDigits 10 partitionNumber)

/-- What `relocate_kernel` did: the relocated kernel, and the two ranges of its
    `copy_nonoverlapping` with their common length. -/
structure Relocation where
  kernel          : LoadedFile
  copySource      : Nat
  copyDestination : Nat
  copyLength      : Nat
  deriving Repr, DecidableEq

/-- `relocate_kernel`. -/
def relocateKernel (allocator : PageAllocator) (loaded : LoadedFile) :
    Option Relocation × PageAllocator :=
  match allocator.allocateAlignedPagesForSize .bootServicesData loaded.sizeBytes kernelAlignment
      .low with
  | (.error _, allocator) => (none, allocator)
  | (.ok relocatedStart, allocator) =>
      match allocator.freePages loaded.physicalStart loaded.pageCount with
      | (.error _, allocator) => (none, allocator)
      | (.ok (), allocator) =>
          (some { kernel := { loaded with physicalStart := relocatedStart },
                  copySource := loaded.physicalStart, copyDestination := relocatedStart,
                  copyLength := loaded.sizeBytes }, allocator)

/-- `boot`, as far as pages go: the clone with room for `/chosen`. -/
def bootClone (deviceTree : Dtb) (allocator : PageAllocator) :
    Except LinuxBootError Dtb × PageAllocator :=
  match checkedAdd 64 deviceTree.size linuxDtbExtraSize with
  | none => (.error (.deviceTreeClone .sizeOverflow), allocator)
  | some newSize =>
      match deviceTree.clone newSize allocator with
      | (.ok dtb, allocator)  => (.ok dtb, allocator)
      | (.error e, allocator) => (.error (.deviceTreeClone e), allocator)

/-- What stands in memory when the sequence has run through. -/
structure HandOff where
  relocation  : Relocation
  initrd      : Option LoadedFile
  dtb         : Dtb
  commandLine : Bytes

/-- `try_boot_from_filesystem` up to the clone; `none` where it gives up. -/
def tryBootFromFilesystem (volume : Volume) (allocator : PageAllocator)
    (blockDeviceIndex partitionNumber devicePtr : Nat) (deviceMemory : Bytes) :
    Option HandOff × PageAllocator :=
  match loadFirstFile volume allocator kernelCandidatePaths with
  | (none, allocator) => (none, allocator)
  | (some kernel, allocator) =>
      match loadFirstFile volume allocator initrdCandidatePaths with
      | (initrd, allocator) =>
          match rootCommandLine blockDeviceIndex partitionNumber,
              Dtb.fromPtr devicePtr deviceMemory, checkKernelHeader kernel with
          | some commandLine, .ok deviceTree, .ok () =>
              match relocateKernel allocator kernel with
              | (none, allocator) => (none, allocator)
              | (some relocation, allocator) =>
                  match bootClone deviceTree allocator with
                  | (.error _, allocator) => (none, allocator)
                  | (.ok dtb, allocator) =>
                      (some { relocation := relocation, initrd := initrd, dtb := dtb,
                              commandLine := commandLine }, allocator)
          | _, _, _ => (none, allocator)

/-- Whether the sequence does not come to an end: only its two searches can go on for ever. -/
def Volume.stalls (volume : Volume) (allocator : PageAllocator) : Bool :=
  loadStalls volume allocator kernelCandidatePaths
    || match loadFirstFile volume allocator kernelCandidatePaths with
      | (none, _)           => false
      | (some _, allocator) => loadStalls volume allocator initrdCandidatePaths

/-! ## §3. The pool through the sequence. -/

/-- The page is in the pool: conventional memory. -/
def Pool (a : PageAllocator) (page : Nat) : Prop := a.pageMap page = some .conventionalMemory

/-- The page is one of `count` pages from address `start` on. -/
def InRange (start count page : Nat) : Prop := start / 4096 ≤ page ∧ page < start / 4096 + count

/-- An allocation takes exactly its range out of the pool. -/
theorem pool_of_granted {a a' : PageAllocator} {start pages : Nat} {t : EfiMemoryType}
    (h : Granted a a' start pages t) (ht : t ≠ .conventionalMemory) (p : Nat) :
    Pool a' p ↔ Pool a p ∧ ¬ InRange start pages p := by
  unfold Pool InRange
  rw [h.map, paint]
  split
  next hin =>
    constructor
    · intro he
      exact absurd (Option.some.inj he) ht
    · intro hr
      exact absurd hin hr.2
  next hout => exact ⟨fun hp => ⟨hp, hout⟩, fun hr => hr.1⟩

/-- A free puts exactly its range back. -/
theorem pool_of_released {a a' : PageAllocator} {memory pages : Nat}
    (h : Released a a' memory pages) (p : Nat) :
    Pool a' p ↔ Pool a p ∨ InRange memory pages p := by
  unfold Pool InRange
  rw [h.map, paint]
  split
  next hin => exact ⟨fun _ => Or.inr hin, fun _ => rfl⟩
  next hout => exact ⟨Or.inl, fun hr => hr.resolve_right hout⟩

/-- A file whose pages came out of the pool between `a` and `a'`. -/
structure Stored (a a' : PageAllocator) (file : LoadedFile) : Prop where
  aligned : file.physicalStart % 4096 = 0
  count   : file.pageCount = max 1 ((file.sizeBytes + 4095) / 4096)
  drawn   : ∀ p, InRange file.physicalStart file.pageCount p → Pool a p ∧ ¬ Pool a' p

/-- What a load attempt does to the allocator: it never adds to the pool, and
    the file it returns is stored. -/
structure Loads (a : PageAllocator) (file? : Option LoadedFile) (a' : PageAllocator) : Prop where
  sound  : Sound a'
  shrink : ∀ p, Pool a' p → Pool a p
  stored : ∀ file, file? = some file → Stored a a' file

theorem Loads.nothing {a : PageAllocator} (h : Sound a) : Loads a none a :=
  ⟨h, fun _ hp => hp, fun _ hf => by cases hf⟩

/-- Both loaders allocate for the file's size and then may still fail: what
    remains is one allocation, with or without a file on it. -/
theorem Loads.of_granted {a a' : PageAllocator} {start sizeBytes : Nat}
    (hg : Granted a a' start (pageCountForSize sizeBytes) .bootServicesData)
    {file? : Option LoadedFile}
    (hfile : ∀ file, file? = some file → file.physicalStart = start
      ∧ file.pageCount = max 1 ((sizeBytes + 4095) / 4096) ∧ file.sizeBytes = sizeBytes) :
    Loads a file? a' := by
  have hpool := pool_of_granted hg (by decide)
  refine ⟨hg.sound, fun p hp => ((hpool p).mp hp).1, ?_⟩
  intro file hf
  obtain ⟨rfl, hcount, rfl⟩ := hfile file hf
  refine ⟨hg.aligned, hcount, ?_⟩
  intro p hp
  rw [hcount, ← pageCountForSize_eq hg.nonempty] at hp
  exact ⟨hg.free p hp.1 hp.2, fun hpool' => ((hpool p).mp hpool').2 hp⟩

theorem fileSizeToPageCount_ok {tooLarge : LoadError} {sizeBytes pages : Nat}
    (h : fileSizeToPageCount tooLarge sizeBytes = .ok pages) :
    pages = (sizeBytes + 4095) / 4096 := by
  unfold fileSizeToPageCount at h
  split at h
  next value hvalue =>
    obtain ⟨_, rfl⟩ := checkedAdd_eq_some.mp hvalue
    exact (Except.ok.inj h).symm
  next => cases h

theorem fatLoad_loads {a : PageAllocator} (h : Sound a) (file : VolumeFile) :
    Loads a (fatLoad file a).1.toOption (fatLoad file a).2 := by
  unfold fatLoad
  split
  · exact Loads.nothing h
  · cases hpages : fileSizeToPageCount .fileTooLarge file.sizeBytes with
    | error e => exact Loads.nothing h
    | ok pages =>
        dsimp only
        rcases h.allocatePagesForSize .bootServicesData file.sizeBytes with
          ⟨start, a', heq, hg⟩ | ⟨e, heq⟩
        · rw [heq]
          dsimp only
          -- a failure from here on leaves the pages allocated
          split
          · exact Loads.of_granted hg (fun _ hf => by cases hf)
          · exact Loads.of_granted hg (fun _ hf => by cases hf)
          · refine Loads.of_granted hg ?_
            intro loaded hloaded
            obtain rfl := Option.some.inj hloaded
            rw [← fileSizeToPageCount_ok hpages]
            exact ⟨rfl, rfl, rfl⟩
        · rw [heq]
          exact Loads.nothing h

theorem ext4Load_loads {a : PageAllocator} (h : Sound a) (file : VolumeFile) :
    Loads a (ext4Load file a).1.toOption (ext4Load file a).2 := by
  unfold ext4Load
  split
  · exact Loads.nothing h
  · cases hpages : fileSizeToPageCount .bufferTooSmall file.sizeBytes with
    | error e => exact Loads.nothing h
    | ok pages =>
        dsimp only
        rcases h.allocatePagesForSize .bootServicesData file.sizeBytes with
          ⟨start, a', heq, hg⟩ | ⟨e, heq⟩
        · rw [heq]
          dsimp only
          split
          · exact Loads.of_granted hg (fun _ hf => by cases hf)
          · refine Loads.of_granted hg ?_
            intro loaded hloaded
            obtain rfl := Option.some.inj hloaded
            rw [← fileSizeToPageCount_ok hpages]
            exact ⟨rfl, rfl, rfl⟩
        · rw [heq]
          exact Loads.nothing h

/-- **`load_first_file`**: however many candidates fail on the way. -/
theorem loadFirstFile_loads (volume : Volume) {a : PageAllocator} (h : Sound a)
    (paths : List Bytes) :
    Loads a (loadFirstFile volume a paths).1 (loadFirstFile volume a paths).2 := by
  induction paths generalizing a with
  | nil => exact Loads.nothing h
  | cons path paths ih =>
      rw [loadFirstFile]
      cases volume.files path with
      | none => exact ih h
      | some file =>
          dsimp only
          have hload : Loads a (volume.load file a).1.toOption (volume.load file a).2 := by
            unfold Volume.load
            cases volume.kind with
            | fat => exact fatLoad_loads h file
            | ext4 => exact ext4Load_loads h file
          cases hres : volume.load file a with
          | mk result a' =>
              rw [hres] at hload
              cases result with
              | ok loaded => exact hload
              | error e =>
                  -- the next candidate draws from what this one left
                  have hrest := ih hload.sound
                  refine ⟨hrest.sound, fun p hp => hload.shrink p (hrest.shrink p hp), ?_⟩
                  intro loaded hloaded
                  obtain ⟨haligned, hcount, hdrawn⟩ := hrest.stored loaded hloaded
                  exact ⟨haligned, hcount,
                    fun p hp => ⟨hload.shrink p (hdrawn p hp).1, (hdrawn p hp).2⟩⟩

/-- **`relocate_kernel`**: an aligned allocation, then a free of the old pages. -/
theorem relocateKernel_ok {a a' : PageAllocator} (h : Sound a) {loaded : LoadedFile}
    {relocation : Relocation} (hok : relocateKernel a loaded = (some relocation, a')) :
    ∃ a₁, Granted a a₁ relocation.kernel.physicalStart (pageCountForSize loaded.sizeBytes)
        .bootServicesData
      ∧ Released a₁ a' loaded.physicalStart loaded.pageCount
      ∧ relocation.kernel.physicalStart % (2 * 1024 * 1024) = 0
      ∧ relocation.kernel.pageCount = loaded.pageCount
      ∧ relocation.copySource = loaded.physicalStart
      ∧ relocation.copyDestination = relocation.kernel.physicalStart
      ∧ relocation.copyLength = loaded.sizeBytes := by
  unfold relocateKernel at hok
  rcases h.allocateAlignedPagesForSize .bootServicesData loaded.sizeBytes kernelAlignment .low with
    ⟨start, a₁, heq, hg, _, v, hv⟩ | ⟨e, heq⟩
  · rw [heq] at hok
    dsimp only at hok
    have hmod : start % (2 * 1024 * 1024) = 0 := by
      have hdvd := land_complement_pred_dvd 64 21 v kernelAlignment (by decide) (by decide)
      rw [hv]
      exact Nat.mod_eq_zero_of_dvd hdvd
    rcases hg.sound.freePages loaded.physicalStart loaded.pageCount with
      ⟨a₂, hfree, hr⟩ | ⟨e, hfree⟩
    · rw [hfree] at hok
      obtain ⟨hrel, rfl⟩ := Prod.mk.inj hok
      obtain rfl := Option.some.inj hrel
      exact ⟨a₁, hg, hr, hmod, rfl, rfl, rfl, rfl⟩
    · rw [hfree] at hok
      cases (Prod.mk.inj hok).1
  · rw [heq] at hok
    cases (Prod.mk.inj hok).1

theorem clone_ok {a a' : PageAllocator} (h : Sound a) {deviceTree dtb : Dtb} {newSize : Nat}
    (hok : deviceTree.clone newSize a = (.ok dtb, a')) :
    ∃ pages, Granted a a' dtb.pointer pages .acpiReclaimMemory ∧ dtb.size = pages * 4096 := by
  unfold Dtb.clone at hok
  dsimp only at hok
  split at hok
  · cases (Prod.mk.inj hok).1
  · split at hok
    · cases (Prod.mk.inj hok).1
    next allocatedSize hmul =>
      split at hok
      · cases (Prod.mk.inj hok).1
      · rcases h.allocatePages .allocateAnyPages .acpiReclaimMemory
            ((newSize + (efiPageSize - 1)) / efiPageSize) 0 with ⟨start, a₁, heq, hg⟩ | ⟨e, heq⟩
        · rw [heq] at hok
          obtain ⟨hd, rfl⟩ := Prod.mk.inj hok
          obtain rfl := Except.ok.inj hd
          refine ⟨_, hg, ?_⟩
          unfold checkedMul at hmul
          split at hmul
          · exact (Option.some.inj hmul).symm
          · cases hmul
        · rw [heq] at hok
          cases (Prod.mk.inj hok).1

/-- **The clone** is one allocation of all its pages. -/
theorem bootClone_ok {a a' : PageAllocator} (h : Sound a) {deviceTree dtb : Dtb}
    (hok : bootClone deviceTree a = (.ok dtb, a')) :
    ∃ pages, Granted a a' dtb.pointer pages .acpiReclaimMemory ∧ dtb.size = pages * 4096 := by
  unfold bootClone at hok
  cases hsize : checkedAdd 64 deviceTree.size linuxDtbExtraSize with
  | none =>
      rw [hsize] at hok
      cases (Prod.mk.inj hok).1
  | some newSize =>
      rw [hsize] at hok
      dsimp only at hok
      cases hclone : deviceTree.clone newSize a with
      | mk result a₁ =>
          rw [hclone] at hok
          cases result with
          | error e => cases (Prod.mk.inj hok).1
          | ok dtb' =>
              obtain ⟨hd, rfl⟩ := Prod.mk.inj hok
              obtain rfl := Except.ok.inj hd
              exact clone_ok h hclone

/-! ## §4. What stands in memory at the hand-off. -/

/-- The four steps that touch pages, when the sequence runs through. -/
theorem tryBootFromFilesystem_ok {volume : Volume} {a a' : PageAllocator}
    {blockDeviceIndex partitionNumber devicePtr : Nat} {deviceMemory : Bytes} {handOff : HandOff}
    (hok : tryBootFromFilesystem volume a blockDeviceIndex partitionNumber devicePtr deviceMemory
      = (some handOff, a')) :
    ∃ kernel a₁ a₂ a₃ deviceTree,
      loadFirstFile volume a kernelCandidatePaths = (some kernel, a₁)
      ∧ loadFirstFile volume a₁ initrdCandidatePaths = (handOff.initrd, a₂)
      ∧ relocateKernel a₂ kernel = (some handOff.relocation, a₃)
      ∧ bootClone deviceTree a₃ = (.ok handOff.dtb, a') := by
  unfold tryBootFromFilesystem at hok
  cases hkernel : loadFirstFile volume a kernelCandidatePaths with
  | mk kernel? a₁ =>
      rw [hkernel] at hok
      cases kernel? with
      | none => cases (Prod.mk.inj hok).1
      | some kernel =>
          dsimp only at hok
          cases hinitrd : loadFirstFile volume a₁ initrdCandidatePaths with
          | mk initrd a₂ =>
              rw [hinitrd] at hok
              dsimp only at hok
              split at hok
              next commandLine deviceTree _ _ _ =>
                cases hrel : relocateKernel a₂ kernel with
                | mk relocation? a₃ =>
                    rw [hrel] at hok
                    cases relocation? with
                    | none => cases (Prod.mk.inj hok).1
                    | some relocation =>
                        dsimp only at hok
                        cases hclone : bootClone deviceTree a₃ with
                        | mk result a₄ =>
                            rw [hclone] at hok
                            cases result with
                            | error e => cases (Prod.mk.inj hok).1
                            | ok dtb =>
                                obtain ⟨hh, rfl⟩ := Prod.mk.inj hok
                                obtain rfl := Option.some.inj hh
                                exact ⟨kernel, a₁, a₂, a₃, deviceTree, rfl, hinitrd, hrel, hclone⟩
              next => cases (Prod.mk.inj hok).1

/-- The pages of the relocated kernel. -/
def HandOff.kernelPage (h : HandOff) (page : Nat) : Prop :=
  InRange h.relocation.kernel.physicalStart h.relocation.kernel.pageCount page

/-- The pages of the initrd, if there is one. -/
def HandOff.initrdPage (h : HandOff) (page : Nat) : Prop :=
  ∃ initrd, h.initrd = some initrd ∧ InRange initrd.physicalStart initrd.pageCount page

/-- The pages of the cloned device tree. -/
def HandOff.dtbPage (h : HandOff) (page : Nat) : Prop :=
  InRange h.dtb.pointer (h.dtb.size / 4096) page

/-- Byte ranges inside disjoint page ranges are disjoint. -/
theorem bytes_disjoint {x y size n : Nat} (hx : x % 4096 = 0) (hy : y % 4096 = 0)
    (hsize : size ≤ n * 4096) (hpos : 0 < n)
    (hdisj : ∀ p, InRange x n p → ¬ InRange y n p) :
    x + size ≤ y ∨ y + size ≤ x := by
  by_contra hover
  obtain ⟨h1, h2⟩ := not_or.mp hover
  -- the larger of the two first pages would be shared
  rcases Nat.le_total (x / 4096) (y / 4096) with hle | hle
  · exact hdisj (y / 4096) ⟨hle, by omega⟩ ⟨Nat.le_refl _, by omega⟩
  · exact hdisj (x / 4096) ⟨Nat.le_refl _, by omega⟩ ⟨hle, by omega⟩

/-- **At the hand-off nothing overlaps.**  If the sequence runs through, the
    relocated kernel, the initrd and the cloned device tree are pairwise
    disjoint and made of pages that were conventional when the allocator was
    built, the kernel is 2 MiB aligned, and the copy that moved it had disjoint
    source and destination. -/
theorem handOff_disjoint {firmware : FirmwareLayout} {fdt : Fdt}
    {memoryCapacity reservedCapacity : Nat} {buffer : List EfiMemoryDescriptor}
    {a a' : PageAllocator}
    (hbuild : PageAllocator.fromFdt firmware fdt memoryCapacity reservedCapacity buffer = .ok a)
    {volume : Volume} {blockDeviceIndex partitionNumber devicePtr : Nat} {deviceMemory : Bytes}
    {handOff : HandOff}
    (hok : tryBootFromFilesystem volume a blockDeviceIndex partitionNumber devicePtr deviceMemory
      = (some handOff, a')) :
    (∀ p, handOff.kernelPage p → ¬ handOff.initrdPage p)
    ∧ (∀ p, handOff.kernelPage p → ¬ handOff.dtbPage p)
    ∧ (∀ p, handOff.initrdPage p → ¬ handOff.dtbPage p)
    ∧ (∀ p, handOff.kernelPage p ∨ handOff.initrdPage p ∨ handOff.dtbPage p →
        a.pageMap p = some .conventionalMemory)
    ∧ handOff.relocation.kernel.physicalStart % (2 * 1024 * 1024) = 0
    ∧ (handOff.relocation.copySource + handOff.relocation.copyLength
          ≤ handOff.relocation.copyDestination
        ∨ handOff.relocation.copyDestination + handOff.relocation.copyLength
          ≤ handOff.relocation.copySource) := by
  obtain ⟨hsound, _, _⟩ := fromFdt_spec hbuild
  obtain ⟨kernel, a₁, a₂, a₃, deviceTree, hkernel, hinitrd, hrel, hclone⟩ :=
    tryBootFromFilesystem_ok hok
  have hload₁ := loadFirstFile_loads volume hsound kernelCandidatePaths
  rw [hkernel] at hload₁
  have hload₂ := loadFirstFile_loads volume hload₁.sound initrdCandidatePaths
  rw [hinitrd] at hload₂
  obtain ⟨b, hg, hr, hmod, hcount, hsrc, hdst, hlen⟩ := relocateKernel_ok hload₂.sound hrel
  obtain ⟨dtbPages, hgd, hsize⟩ := bootClone_ok hr.sound hclone
  have hstored := hload₁.stored kernel rfl
  -- the pool from step to step
  have hpool₃ := pool_of_granted hg (by decide)
  have hpool₄ := pool_of_released hr
  have hold : ∀ p, InRange kernel.physicalStart kernel.pageCount p → Pool a p ∧ ¬ Pool a₁ p :=
    hstored.drawn
  have hnew : ∀ p, handOff.kernelPage p → Pool a₂ p ∧ ¬ Pool b p := by
    intro p hp
    unfold HandOff.kernelPage at hp
    rw [hcount, hstored.count, ← pageCountForSize_eq hg.nonempty] at hp
    exact ⟨hg.free p hp.1 hp.2, fun hb => ((hpool₃ p).mp hb).2 hp⟩
  have hird : ∀ p, handOff.initrdPage p → Pool a₁ p ∧ ¬ Pool a₂ p := by
    intro p hp
    obtain ⟨initrd, hi, hrange⟩ := hp
    exact (hload₂.stored initrd hi).drawn p hrange
  have hdtb : ∀ p, handOff.dtbPage p →
      Pool b p ∨ InRange kernel.physicalStart kernel.pageCount p := by
    intro p hp
    unfold HandOff.dtbPage at hp
    rw [hsize, Nat.mul_div_cancel _ (by decide)] at hp
    exact (hpool₄ p).mp (hgd.free p hp.1 hp.2)
  have hb₂ : ∀ p, Pool b p → Pool a₂ p := fun p hp => ((hpool₃ p).mp hp).1
  refine ⟨?_, ?_, ?_, ?_, hmod, ?_⟩
  · intro p hk hi
    exact (hird p hi).2 (hnew p hk).1
  · intro p hk hd
    rcases hdtb p hd with hb | hin
    · exact (hnew p hk).2 hb
    · exact (hold p hin).2 (hload₂.shrink p (hnew p hk).1)
  · intro p hi hd
    rcases hdtb p hd with hb | hin
    · exact (hird p hi).2 (hb₂ p hb)
    · exact (hold p hin).2 (hird p hi).1
  · intro p hp
    rcases hp with hk | hi | hd
    · exact hload₁.shrink p (hload₂.shrink p (hnew p hk).1)
    · exact hload₁.shrink p (hird p hi).1
    · rcases hdtb p hd with hb | hin
      · exact hload₁.shrink p (hload₂.shrink p (hb₂ p hb))
      · exact (hold p hin).1
  · rw [hsrc, hdst, hlen]
    refine bytes_disjoint (n := kernel.pageCount) hstored.aligned hg.aligned ?_ ?_ ?_
    · rw [hstored.count]
      omega
    · rw [hstored.count]
      omega
    · intro p hin hdest
      refine (hold p hin).2 (hload₂.shrink p (hnew p ?_).1)
      unfold HandOff.kernelPage
      rw [hcount]
      exact hdest

/-- A kernel image with nothing but a valid boot header. -/
def tinyKernel : Bytes :=
  List.replicate 0x30 0 ++ [0x52, 0x49, 0x53, 0x43, 0x56, 0, 0, 0] ++ [0x52, 0x53, 0x43, 0x05]
    ++ List.replicate 4 0

/-- A FAT volume with that kernel and a one-byte initrd. -/
def tinyVolume : Volume where
  kind := .fat
  files := fun path =>
    if path = ascii "/vmlinuz" then some ⟨false, 64, some tinyKernel⟩
    else if path = ascii "/initrd.img" then some ⟨false, 1, some [7]⟩
    else none
  endless := fun _ => false

/-- The sequence runs through on 64 KiB of RAM. -/
theorem handOff_disjoint_example :
    ∃ fdt a handOff a',
      PageAllocator.fromFdt ramFirmware fdt 4 4 (List.replicate 16 emptyDescriptor) = .ok a
      ∧ tryBootFromFilesystem tinyVolume a 0 1 0x80008000 ramBlob = (some handOff, a')
      ∧ ∀ p, handOff.kernelPage p → ¬ handOff.initrdPage p := by
  have hrun : (pageAllocatorFromLiveFdt ramFirmware 0x80008000 ramBlob 4 4
        (List.replicate 16 emptyDescriptor)).map (fun a =>
          (tryBootFromFilesystem tinyVolume a 0 1 0x80008000 ramBlob).1.isSome) = some true := by
    decide +kernel
  obtain ⟨a, ha, hsome⟩ := Option.map_eq_some_iff.mp hrun
  obtain ⟨fdt, _, hbuild⟩ := pageAllocatorFromLiveFdt_eq_some ha
  obtain ⟨handOff, hh⟩ := Option.isSome_iff_exists.mp hsome
  have hok : tryBootFromFilesystem tinyVolume a 0 1 0x80008000 ramBlob = (some handOff, _) :=
    Prod.ext hh rfl
  exact ⟨fdt, a, handOff, _, hbuild, hok, (handOff_disjoint hbuild hok).1⟩

end RustFirmware.Boot
