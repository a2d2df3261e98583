/-
  RustFirmware.Filesystem.Load
  ────────────────────────────
  **LOADING A FILE INTO PAGES: `load` AND `load_at` OF BOTH FILESYSTEMS.**

  The pages are allocated first and then filled from the device.  Nothing gives them
  back when that fails, so an error leaves the page map alone only if no pages were
  taken, or none could have been missed: `failed_load_keeps_map_iff`.

      §1   the common end of the four loaders
      §2   the FAT loaders
      §3   the ext4 loaders
      §4   when a failed load leaves the page map alone
-/
import RustFirmware.Ext4.Contents
import RustFirmware.Ext4.Directory
import RustFirmware.Fat.Contents
import RustFirmware.Fat.Tree
import RustFirmware.Memory.Room

namespace RustFirmware.Filesystem

open RustFirmware.Lib
open RustFirmware.Memory

/-! ## §1. Filling pages. -/

/-- `LoadedFile`. -/
structure LoadedFile where
  physicalStart : Nat
  pageCount     : Nat
  sizeBytes     : Nat
  deriving Repr, DecidableEq

/-- What a loader leaves behind: the file with the bytes of its pages, and the allocator. -/
abbrev Loading (ε : Type) := Except ε (LoadedFile × Bytes) × PageAllocator

/-- `AllocatePages` with the start address as its result. -/
def allocatedStart : Except MemoryError Unit × Nat × PageAllocator → Outcome Nat
  | (.error e, _, allocator)      => (.error e, allocator)
  | (.ok (), start, allocator) => (.ok start, allocator)

/-- What all loaders do with the pages they have asked for: `pages` zeroes them, and
    `read` fills the first `sizeBytes` bytes. -/
def fillPages {ε : Type} (allocated : Outcome Nat) (memoryError : MemoryError → ε)
    (pages : (physicalStart : Nat) → Except ε Bytes) (read : Bytes → Except ε (Nat × Bytes))
    (pageCount sizeBytes : Nat) : Loading ε :=
  match allocated with
  | (.error e, allocator) => (.error (memoryError e), allocator)
  | (.ok physicalStart, allocator) =>
      (do let buffer ← pages physicalStart
          let (_, contents) ← read (buffer.take sizeBytes)
          .ok (⟨physicalStart, pageCount, sizeBytes⟩, contents ++ buffer.drop sizeBytes),
        allocator)

/-- The pages of a file: at least one. -/
def filePages (sizeBytes : Nat) : Nat := (max sizeBytes 1 + 4095) / 4096

theorem filePages_eq (sizeBytes : Nat) : max 1 ((sizeBytes + 4095) / 4096) = filePages sizeBytes := by
  unfold filePages
  omega

theorem filePages_pos (sizeBytes : Nat) : 0 < filePages sizeBytes := by
  unfold filePages
  omega

/-- An allocation of memory that is not conventional changes the map. -/
theorem granted_changes {a a' : PageAllocator} {start n : Nat} {t : EfiMemoryType}
    (h : Granted a a' start n t) (ht : t ≠ .conventionalMemory) : a'.pageMap ≠ a.pageMap := by
  have hn := h.nonempty
  intro hsame
  have hpage := congrFun hsame (start / 4096)
  rw [h.map, h.free _ (Nat.le_refl _) (by omega)] at hpage
  unfold paint at hpage
  rw [if_pos ⟨Nat.le_refl _, by omega⟩] at hpage
  exact ht (Option.some.inj hpage)

/-- A call refused before it asks for pages. -/
theorem refused_keeps {ε α : Type} {a a' : PageAllocator} {e e' : ε}
    (h : ((.error e : Except ε α), a) = (.error e', a')) : a'.pageMap = a.pageMap := by
  rw [(Prod.mk.inj h).2]

/-- **An error leaves the map alone exactly if no pages were taken, or it is not an error
    of the reader.** -/
theorem fillPages_keeps_iff {ε : Type} {a : PageAllocator} {allocated : Outcome Nat} {n : Nat}
    {t : EfiMemoryType} (ht : t ≠ .conventionalMemory)
    (halloc : (∃ start a', allocated = (.ok start, a') ∧ Granted a a' start n t)
      ∨ ∃ e, allocated = (.error e, a))
    {memoryError : MemoryError → ε} {pages : Nat → Except ε Bytes} {buffer : Bytes}
    (hpages : ∀ start, pages start = .ok buffer) {read : Bytes → Except ε (Nat × Bytes)}
    {pageCount sizeBytes : Nat} (e : ε) :
    (∀ a', fillPages allocated memoryError pages read pageCount sizeBytes = (.error e, a') →
        a'.pageMap = a.pageMap)
      ↔ ¬ (∃ start a', allocated = (.ok start, a')) ∨ read (buffer.take sizeBytes) ≠ .error e
      := by
  rcases halloc with ⟨start, b, rfl, hgrant⟩ | ⟨e', rfl⟩
  · unfold fillPages
    dsimp only
    rw [hpages]
    constructor
    · intro h
      right
      intro hread
      -- the reader's error comes with the pages taken
      refine granted_changes hgrant ht (h b ?_)
      show (Except.bind (read (buffer.take sizeBytes)) _, b) = _
      rw [hread]
      rfl
    · rintro (hnone | hread) a' hfails
      · exact absurd ⟨start, b, rfl⟩ hnone
      · have hresult := (Prod.mk.inj hfails).1
        cases hgiven : read (buffer.take sizeBytes) with
        | error e' =>
            change Except.bind (read (buffer.take sizeBytes)) _ = _ at hresult
            rw [hgiven] at hresult hread
            obtain rfl := Except.error.inj hresult
            exact absurd rfl hread
        | ok given =>
            change Except.bind (read (buffer.take sizeBytes)) _ = _ at hresult
            rw [hgiven] at hresult
            cases hresult
  · constructor
    · intro _
      left
      rintro ⟨start, a', h⟩
      cases (Prod.mk.inj h).1
    · intro _ a' hfails
      obtain rfl := (Prod.mk.inj hfails).2
      rfl

/-- `AllocateAddress` as an allocation for a loader. -/
theorem allocatedStart_cases {a : PageAllocator} (h : Sound a) (type : EfiAllocateType)
    (t : EfiMemoryType) (n memory : Nat) :
    (∃ start a', allocatedStart (a.allocatePages type t n memory) = (.ok start, a')
        ∧ Granted a a' start n t)
      ∨ ∃ e, allocatedStart (a.allocatePages type t n memory) = (.error e, a) := by
  rcases h.allocatePages type t n memory with ⟨start, a', heq, hgrant⟩ | ⟨e, heq⟩
  · rw [heq]
    exact Or.inl ⟨start, a', rfl, hgrant⟩
  · rw [heq]
    exact Or.inr ⟨e, rfl⟩

theorem allocatedStart_ok_iff {result : Except MemoryError Unit × Nat × PageAllocator} :
    (∃ start a', allocatedStart result = (.ok start, a'))
      ↔ ∃ start a', result = (.ok (), start, a') := by
  obtain ⟨r, start, a⟩ := result
  cases r with
  | ok u => exact ⟨fun _ => ⟨start, a, rfl⟩, fun _ => ⟨start, a, rfl⟩⟩
  | error e =>
      constructor
      · rintro ⟨_, _, h⟩
        cases (Prod.mk.inj h).1
      · rintro ⟨_, _, h⟩
        cases (Prod.mk.inj h).1

/-- When the pages of `load` are there. -/
theorem loadPages_ok_iff {a : PageAllocator} (h : Sound a) (sizeBytes : Nat) :
    (∃ start a', a.allocatePagesForSize .bootServicesData sizeBytes = (.ok start, a'))
      ↔ a.CanTakeHighest (filePages sizeBytes) :=
  allocatePagesForSize_ok_iff h (by decide) sizeBytes

/-- When those of `load_at` are. -/
theorem loadPagesAt_ok_iff {a : PageAllocator} (h : Sound a) (sizeBytes physicalStart : Nat) :
    (∃ start a', allocatedStart (a.allocatePages .allocateAddress .bootServicesData
        (filePages sizeBytes) physicalStart) = (.ok start, a'))
      ↔ physicalStart % 4096 = 0 ∧ a.CanTake (filePages sizeBytes) physicalStart :=
  allocatedStart_ok_iff.trans
    (allocateAddress_ok_iff h (filePages_pos sizeBytes) (by decide) physicalStart)

end RustFirmware.Filesystem

/-! ## §2. FAT files. -/

namespace RustFirmware.Fat

open RustFirmware.Lib
open RustFirmware.Memory
open RustFirmware.Filesystem

/-- `FatFile`. -/
structure FatFile where
  volume : FatVolume
  entry  : FatDirectoryEntry

/-- `FatVolume::open`. -/
def FatVolume.openFile (volume : FatVolume) (clusters : Nat) (path : Bytes) :
    Except Halt FatFile := do
  let entry ← findPathEntry volume clusters path
  .ok { volume := volume, entry := entry }

/-- `file_size_to_page_count`. -/
def fileSizeToPageCount (fileSize : UInt32) : Except FatError Nat := do
  let rounded ← okOr (checkedAdd 64 fileSize.toNat (efiPageSize - 1)) .fileTooLarge
  .ok (rounded / efiPageSize)

/-- `allocation_size_bytes`. -/
def allocationSizeBytes (pageCount : Nat) : Except FatError Nat :=
  okOr (checkedMul 64 pageCount efiPageSize) .fileTooLarge

/-- `physical_address_as_mut_ptr`: a `usize` has the 8 bytes of an address. -/
def physicalAddressAsMutPtr (physicalStart : Nat) : Except FatError Nat :=
  let usizeBytes := 8
  if usizeBytes < 8 ∧ physicalStart ≥ 2 ^ (8 * usizeBytes) then .error .fileTooLarge
  else .ok physicalStart

/-- The slice over the allocation, zeroed. -/
def zeroedPages (pageCount physicalStart : Nat) : Except FatError Bytes := do
  let allocationSize ← allocationSizeBytes pageCount
  let _ ← physicalAddressAsMutPtr physicalStart
  .ok (List.replicate allocationSize 0)

namespace FatFile

variable (self : FatFile)

/-- `load_into_allocated_pages`. -/
def loadIntoAllocatedPages (allocator : PageAllocator) : Loading FatError :=
  if self.entry.isDirectory then (.error .isDirectory, allocator)
  else
    match fileSizeToPageCount self.entry.fileSize with
    | .error e => (.error e, allocator)
    | .ok pages =>
        fillPages (allocator.allocatePagesForSize .bootServicesData self.entry.fileSize.toNat)
          .memory (zeroedPages (max 1 pages))
          (self.volume.readFileContents self.entry.firstCluster self.entry.fileSize)
          (max 1 pages) self.entry.fileSize.toNat

/-- `load_into_pages`. -/
def loadIntoPages (allocator : PageAllocator) (allocationType : EfiAllocateType)
    (requestedStart : Nat) : Loading FatError :=
  if self.entry.isDirectory then (.error .isDirectory, allocator)
  else
    match fileSizeToPageCount self.entry.fileSize with
    | .error e => (.error e, allocator)
    | .ok pages =>
        fillPages
          (allocatedStart (allocator.allocatePages allocationType .bootServicesData (max 1 pages)
            requestedStart))
          .memory (zeroedPages (max 1 pages))
          (self.volume.readFileContents self.entry.firstCluster self.entry.fileSize)
          (max 1 pages) self.entry.fileSize.toNat

/-- `load`. -/
def load (allocator : PageAllocator) : Loading FatError := self.loadIntoAllocatedPages allocator

/-- `load_at`. -/
def loadAt (allocator : PageAllocator) (physicalStart : Nat) : Loading FatError :=
  self.loadIntoPages allocator .allocateAddress physicalStart

/-- **The file can be read**: it is empty, or the cluster chain carries it. -/
def Readable : Prop :=
  self.entry.fileSize ≠ 0 → FileReads self.volume self.entry.firstCluster self.entry.fileSize.toNat

variable {self}

/-- A 32-bit size always has a page count. -/
theorem fileSizeToPageCount_eq (fileSize : UInt32) :
    fileSizeToPageCount fileSize = .ok ((fileSize.toNat + 4095) / 4096) := by
  have hlt : fileSize.toNat < 2 ^ 32 := fileSize.toNat_lt
  unfold fileSizeToPageCount checkedAdd
  rw [if_pos (by unfold efiPageSize; omega)]
  rfl

/-- So its pages can be addressed. -/
theorem zeroedPages_eq (fileSize : UInt32) (physicalStart : Nat) :
    zeroedPages (filePages fileSize.toNat) physicalStart
      = .ok (List.replicate (filePages fileSize.toNat * 4096) 0) := by
  have hlt : fileSize.toNat < 2 ^ 32 := fileSize.toNat_lt
  have hfit : filePages fileSize.toNat * efiPageSize < 2 ^ 64 := by
    unfold filePages efiPageSize
    omega
  unfold zeroedPages allocationSizeBytes checkedMul
  rw [if_pos hfit]
  rfl

/-- The reader's answer does not depend on what the buffer holds. -/
theorem readable_iff {buffer : Bytes} :
    (∀ e, self.volume.readFileContents self.entry.firstCluster self.entry.fileSize buffer
        ≠ .error e) ↔ self.Readable := by
  unfold Readable
  rw [← @readFileContents_ok_iff self.volume _ _ buffer]
  cases self.volume.readFileContents self.entry.firstCluster self.entry.fileSize buffer with
  | ok result =>
      constructor
      · intro _
        exact ⟨result, rfl⟩
      · intro _ e h
        cases h
  | error e =>
      constructor
      · intro h
        exact absurd rfl (h e)
      · rintro ⟨result, h⟩
        cases h

/-- **`load` of a FAT file.** -/
theorem load_keeps_iff {a : PageAllocator} (h : Sound a) :
    (∀ e a', self.load a = (.error e, a') → a'.pageMap = a.pageMap)
      ↔ self.entry.isDirectory = true
        ∨ ¬ a.CanTakeHighest (filePages self.entry.fileSize.toNat) ∨ self.Readable := by
  unfold load loadIntoAllocatedPages
  by_cases hdir : self.entry.isDirectory = true
  · rw [if_pos hdir]
    apply iff_of_true
    · intro e a' hfails
      exact refused_keeps hfails
    · exact Or.inl hdir
  · rw [if_neg hdir, fileSizeToPageCount_eq, or_iff_right hdir]
    dsimp only
    rw [filePages_eq, ← loadPages_ok_iff h, ← readable_iff, ← forall_or_left]
    apply forall_congr'
    intro e
    exact fillPages_keeps_iff (by decide) (h.allocatePagesForSize _ _) (zeroedPages_eq _) e

/-- **`load_at` of a FAT file.** -/
theorem loadAt_keeps_iff {a : PageAllocator} (h : Sound a) (physicalStart : Nat) :
    (∀ e a', self.loadAt a physicalStart = (.error e, a') → a'.pageMap = a.pageMap)
      ↔ self.entry.isDirectory = true
        ∨ ¬ (physicalStart % 4096 = 0
            ∧ a.CanTake (filePages self.entry.fileSize.toNat) physicalStart)
        ∨ self.Readable := by
  unfold loadAt loadIntoPages
  by_cases hdir : self.entry.isDirectory = true
  · rw [if_pos hdir]
    apply iff_of_true
    · intro e a' hfails
      exact refused_keeps hfails
    · exact Or.inl hdir
  · rw [if_neg hdir, fileSizeToPageCount_eq, or_iff_right hdir]
    dsimp only
    rw [filePages_eq, ← loadPagesAt_ok_iff h, ← readable_iff, ← forall_or_left]
    apply forall_congr'
    intro e
    exact fillPages_keeps_iff (by decide) (allocatedStart_cases h _ _ _ _) (zeroedPages_eq _) e

end FatFile

end RustFirmware.Fat

/-! ## §3. Ext4 files. -/

namespace RustFirmware.Ext4

open RustFirmware.Lib
open RustFirmware.Memory
open RustFirmware.Filesystem

/-- `Ext4File`. -/
structure Ext4File where
  volume : Ext4Volume
  inode  : Ext4Inode

/-- `Ext4Volume::open`. -/
def Ext4Volume.openFile (volume : Ext4Volume) (levels : Nat) (path : Bytes) :
    Except Halt Ext4File := do
  let (_, inode) ← resolvePath volume levels path
  .ok { volume := volume, inode := inode }

/-- `file_size_to_page_count`. -/
def fileSizeToPageCount (sizeBytes : Nat) : Except Ext4Error Nat :=
  okOr ((checkedAdd 64 sizeBytes (efiPageSize - 1)).map (· / efiPageSize)) .bufferTooSmall

/-- The slice over the allocation, zeroed. -/
def zeroedPages (pageCount : Nat) (_physicalStart : Nat) : Except Halt Bytes :=
  .ok (List.replicate (pageCount * efiPageSize) 0)

namespace Ext4File

variable (self : Ext4File)

/-- `load_into_allocated_pages`. -/
def loadIntoAllocatedPages (levels : Nat) (allocator : PageAllocator) : Loading Halt :=
  if self.inode.isDirectory then (.error (.error .isDirectory), allocator)
  else
    match fileSizeToPageCount self.inode.sizeBytes with
    | .error e => (.error (.error e), allocator)
    | .ok pages =>
        fillPages (allocator.allocatePagesForSize .bootServicesData self.inode.sizeBytes)
          (fun e => .error (.memory e)) (zeroedPages (max 1 pages))
          (readInodeContents self.volume levels self.inode)
          (max 1 pages) self.inode.sizeBytes

/-- `load_into_pages`. -/
def loadIntoPages (levels : Nat) (allocator : PageAllocator) (allocationType : EfiAllocateType)
    (requestedStart : Nat) : Loading Halt :=
  if self.inode.isDirectory then (.error (.error .isDirectory), allocator)
  else
    match fileSizeToPageCount self.inode.sizeBytes with
    | .error e => (.error (.error e), allocator)
    | .ok pages =>
        fillPages
          (allocatedStart (allocator.allocatePages allocationType .bootServicesData (max 1 pages)
            requestedStart))
          (fun e => .error (.memory e)) (zeroedPages (max 1 pages))
          (readInodeContents self.volume levels self.inode)
          (max 1 pages) self.inode.sizeBytes

/-- `load`. -/
def load (levels : Nat) (allocator : PageAllocator) : Loading Halt :=
  self.loadIntoAllocatedPages levels allocator

/-- `load_at`. -/
def loadAt (levels : Nat) (allocator : PageAllocator) (physicalStart : Nat) : Loading Halt :=
  self.loadIntoPages levels allocator .allocateAddress physicalStart

/-- **The file can be read, or reading it never ends**: it is empty, or its extents are
    there, or their collection goes on for ever. -/
def Readable : Prop :=
  self.inode.sizeBytes ≠ 0 → NeverEnds self.volume self.inode ∨ InodeReads self.volume self.inode

variable {self}

/-- A size whose pages could be allocated has a page count. -/
theorem fileSizeToPageCount_cases (sizeBytes : Nat) :
    fileSizeToPageCount sizeBytes = .ok ((sizeBytes + 4095) / 4096)
      ∨ (fileSizeToPageCount sizeBytes = .error .bufferTooSmall
          ∧ 2 ^ 52 ≤ filePages sizeBytes) := by
  unfold fileSizeToPageCount checkedAdd efiPageSize
  by_cases hfit : sizeBytes + (4096 - 1) < 2 ^ 64
  · left
    rw [if_pos hfit]
    rfl
  · right
    rw [if_neg hfit]
    refine ⟨rfl, ?_⟩
    unfold filePages
    omega

/-- The part of the pages that the reader gets is as long as the file. -/
theorem fileSlice_length (sizeBytes : Nat) :
    sizeBytes ≤ ((List.replicate (filePages sizeBytes * efiPageSize) (0 : UInt8)).take
      sizeBytes).length := by
  rw [List.length_take, List.length_replicate]
  unfold filePages efiPageSize
  omega

/-- The directory check of the readers and of the loaders is the same. -/
theorem readable_iff (hfile : ¬ self.inode.isDirectory = true) :
    (∀ levels e, readInodeContents self.volume levels self.inode
        ((List.replicate (filePages self.inode.sizeBytes * efiPageSize) 0).take
          self.inode.sizeBytes) ≠ .error (.error e)) ↔ self.Readable :=
  readInodeContents_succeeds_iff (Bool.eq_false_iff.mpr hfile)
    (fileSlice_length self.inode.sizeBytes)

/-- **`load` of an ext4 file.** -/
theorem load_keeps_iff {a : PageAllocator} (h : Memory.Sound a) :
    (∀ levels e a', self.load levels a = (.error (.error e), a') → a'.pageMap = a.pageMap)
      ↔ self.inode.isDirectory = true
        ∨ ¬ a.CanTakeHighest (filePages self.inode.sizeBytes) ∨ self.Readable := by
  unfold load loadIntoAllocatedPages
  by_cases hdir : self.inode.isDirectory = true
  · simp only [if_pos hdir]
    apply iff_of_true
    · intro levels e a' hfails
      exact refused_keeps hfails
    · exact Or.inl hdir
  · simp only [if_neg hdir]
    rw [or_iff_right hdir]
    rcases fileSizeToPageCount_cases self.inode.sizeBytes with hcount | ⟨hcount, hlarge⟩
    · simp only [hcount, filePages_eq]
      rw [ ← loadPages_ok_iff h, ← readable_iff hdir]
      simp only [← forall_or_left]
      apply forall_congr'
      intro levels
      apply forall_congr'
      intro e
      exact fillPages_keeps_iff (by decide) (h.allocatePagesForSize _ _) (fun _ => rfl) _
    · -- a size without a page count is more than there is
      simp only [hcount]
      apply iff_of_true
      · intro levels e a' hfails
        exact refused_keeps hfails
      · left
        intro hhighest
        obtain ⟨start, htake, _⟩ := hhighest
        obtain ⟨l, hl, _⟩ := h
        have hlt := hl.canTake_lt htake
        omega

/-- **`load_at` of an ext4 file.** -/
theorem loadAt_keeps_iff {a : PageAllocator} (h : Memory.Sound a) (physicalStart : Nat) :
    (∀ levels e a', self.loadAt levels a physicalStart = (.error (.error e), a') →
        a'.pageMap = a.pageMap)
      ↔ self.inode.isDirectory = true
        ∨ ¬ (physicalStart % 4096 = 0
            ∧ a.CanTake (filePages self.inode.sizeBytes) physicalStart)
        ∨ self.Readable := by
  unfold loadAt loadIntoPages
  by_cases hdir : self.inode.isDirectory = true
  · simp only [if_pos hdir]
    apply iff_of_true
    · intro levels e a' hfails
      exact refused_keeps hfails
    · exact Or.inl hdir
  · simp only [if_neg hdir]
    rw [or_iff_right hdir]
    rcases fileSizeToPageCount_cases self.inode.sizeBytes with hcount | ⟨hcount, hlarge⟩
    · simp only [hcount, filePages_eq]
      rw [ ← loadPagesAt_ok_iff h, ← readable_iff hdir]
      simp only [← forall_or_left]
      apply forall_congr'
      intro levels
      apply forall_congr'
      intro e
      exact fillPages_keeps_iff (by decide) (allocatedStart_cases h _ _ _ _) (fun _ => rfl) _
    · -- a size without a page count is more than there is
      simp only [hcount]
      apply iff_of_true
      · intro levels e a' hfails
        exact refused_keeps hfails
      · left
        intro hplaced
        obtain ⟨l, hl, _⟩ := h
        have hlt := hl.canTake_lt hplaced.2
        omega

end Ext4File

end RustFirmware.Ext4

/-! ## §4. When a failed load leaves the page map alone. -/

namespace RustFirmware.Filesystem

open RustFirmware.Lib
open RustFirmware.Memory
open RustFirmware.Fat
open RustFirmware.Ext4

/-- **A failed load leaves the page map alone exactly if no pages are taken for the file, or
    the file can be read**: so a device error or a broken chain or tree leaves the pages
    behind. -/
theorem failed_load_keeps_map_iff {a : PageAllocator} (h : Reachable a) :
    (∀ file : FatFile,
      ((∀ e a', file.load a = (.error e, a') → a'.pageMap = a.pageMap)
        ↔ file.entry.isDirectory = true
          ∨ ¬ a.CanTakeHighest (filePages file.entry.fileSize.toNat) ∨ file.Readable)
      ∧ ∀ physicalStart,
        (∀ e a', file.loadAt a physicalStart = (.error e, a') → a'.pageMap = a.pageMap)
          ↔ file.entry.isDirectory = true
            ∨ ¬ (physicalStart % 4096 = 0
                ∧ a.CanTake (filePages file.entry.fileSize.toNat) physicalStart)
            ∨ file.Readable)
    ∧ ∀ file : Ext4File,
      ((∀ levels e a', file.load levels a = (.error (.error e), a') → a'.pageMap = a.pageMap)
        ↔ file.inode.isDirectory = true
          ∨ ¬ a.CanTakeHighest (filePages file.inode.sizeBytes) ∨ file.Readable)
      ∧ ∀ physicalStart,
        (∀ levels e a', file.loadAt levels a physicalStart = (.error (.error e), a') →
            a'.pageMap = a.pageMap)
          ↔ file.inode.isDirectory = true
            ∨ ¬ (physicalStart % 4096 = 0
                ∧ a.CanTake (filePages file.inode.sizeBytes) physicalStart)
            ∨ file.Readable := by
  have hsound := h.sound
  refine ⟨?_, ?_⟩
  · intro file
    exact ⟨FatFile.load_keeps_iff hsound, FatFile.loadAt_keeps_iff hsound⟩
  · intro file
    exact ⟨Ext4File.load_keeps_iff hsound, Ext4File.loadAt_keeps_iff hsound⟩

/-- One range of eight conventional pages, in a buffer of two descriptors. -/
def plainAllocator : PageAllocator :=
  { descriptors := [⟨.conventionalMemory, 0x1000, 0, 8, 0⟩, emptyDescriptor]
    descriptorCount := 1 }

theorem reachable_plainAllocator : Reachable plainAllocator :=
  ⟨plainAllocator, [], Or.inl ⟨.none, [⟨0x1000, 0x8000⟩], [], List.replicate 2 emptyDescriptor,
    by decide +kernel⟩, rfl⟩

theorem plainAllocator_canTake {pages start : Nat} (h : plainAllocator.CanTake pages start) :
    pages ≤ 8 := by
  obtain ⟨d, hd, ⟨-, -, hlo, hhi⟩, -⟩ := h
  obtain rfl : d = ⟨.conventionalMemory, 0x1000, 0, 8, 0⟩ := List.mem_singleton.mp hd
  have hstop : EfiMemoryDescriptor.stop ⟨.conventionalMemory, 0x1000, 0, 8, 0⟩ = 0x9000 := rfl
  rw [hstop] at hhi
  change 0x1000 ≤ start at hlo
  omega

/-- There are not the nine pages that a file of 36864 bytes takes. -/
theorem failed_load_keeps_map_iff_example :
    ∃ e a', (FatFile.mk flatVolume ⟨0x20, 3, 36864⟩).load plainAllocator = (.error e, a')
      ∧ a'.pageMap = plainAllocator.pageMap := by
  have hfile := ((failed_load_keeps_map_iff reachable_plainAllocator).1
    (FatFile.mk flatVolume ⟨0x20, 3, 36864⟩)).1
  refine ⟨_, _, rfl, hfile.mpr (.inr (.inl ?_)) _ _ rfl⟩
  intro htake
  obtain ⟨start, htake, -⟩ := htake
  have hle := plainAllocator_canTake htake
  exact absurd hle (by decide)

/-- A text file of 1000 bytes in a chain of one cluster, which has 512. -/
def shortChainContents (lba : Nat) : Bytes :=
  if lba = 1 then List.replicate 4 0 ++ leBytes 2 0xffff
  else if lba = 21 then entryBytes textName 0x20 2 1000
  else []

/-- The file as it is opened. -/
def shortChainFile : FatFile :=
  { volume := fat16Volume shortChainContents, entry := ⟨0x20, 2, 1000⟩ }

/-- The page below the end of the range. -/
def leakedAllocator : PageAllocator :=
  { descriptors :=
      [⟨.conventionalMemory, 0x1000, 0, 7, 0⟩, ⟨.bootServicesData, 0x8000, 0, 1, 0⟩]
    descriptorCount := 2 }

set_option maxRecDepth 20000 in
theorem shortChainFile_opens :
    (fat16Volume shortChainContents).openFile 1 (ascii "/A.TXT") = .ok shortChainFile := by
  have hentry : findPathEntry (fat16Volume shortChainContents) 1 (ascii "/A.TXT")
      = .ok ⟨0x20, 2, 1000⟩ := by decide +kernel
  unfold FatVolume.openFile
  rw [hentry]
  rfl

set_option maxRecDepth 20000 in
/-- **A chain that ends before the file does**: `load` reports `ChainTooShort` and keeps the
    page that it has taken. -/
theorem failed_load_leaks_page :
    ¬ ∀ a, Reachable a → ∀ device partitionStartLba volume clusters path file,
        FatVolume.new device partitionStartLba = .ok volume →
        volume.openFile clusters path = .ok file →
        ∀ e a', file.load a = (.error e, a') → a'.pageMap = a.pageMap := by
  intro hall
  have hload : shortChainFile.load plainAllocator = (.error .chainTooShort, leakedAllocator) := by
    decide +kernel
  have hsame := hall plainAllocator reachable_plainAllocator _ _ _ _ _ shortChainFile
    (new_fat16Device shortChainContents) shortChainFile_opens _ _ hload
  have hpage := congrFun hsame 8
  exact absurd hpage (by decide +kernel)

end RustFirmware.Filesystem
