/-
  RustFirmware.Filesystem.Loaded
  ──────────────────────────────
  **WHAT A SUCCESSFUL `load` HAS DONE: THE FILE IS IN THE PAGES THAT IT TOOK, AND NOTHING
  ELSE WAS WRITTEN.**

  The allocator counts the pages with `pages_for_size`, the loaders with
  `file_size_to_page_count`; where the allocation is granted the two agree, so the slice
  that is written ends where the allocation does.  What a file holds is said apart from
  the readers: the beginning of its cluster chain, or what the leaves of its extent tree
  map its blocks to.
-/
import RustFirmware.Filesystem.Load
import RustFirmware.Fat.Chains

namespace RustFirmware.Filesystem

open RustFirmware.Lib
open RustFirmware.Memory

/-! ## §1. A file in its pages. -/

/-- What a loader has written at an address: its slice starts at `physicalStart`. -/
def LoadedFile.written (file : LoadedFile) (buffer : Bytes) (address : Nat) : Option UInt8 :=
  if file.physicalStart ≤ address then buffer[address - file.physicalStart]? else none

/-- The bytes of the pages of a file. -/
def LoadedFile.Has (file : LoadedFile) (address : Nat) : Prop :=
  file.physicalStart ≤ address ∧ address < file.physicalStart + file.pageCount * 4096

/-- **The file is in its pages**: they are the pages that became boot services data, and the
    only ones that changed; they are what was written; and they hold the file, and zeros
    behind it. -/
structure Loaded (a a' : PageAllocator) (file : LoadedFile) (buffer contents : Bytes) : Prop where
  size    : file.sizeBytes = contents.length
  changed : ∀ address, (a.pageMap (address / 4096) = some .conventionalMemory
    ∧ a'.pageMap (address / 4096) = some .bootServicesData) ↔ file.Has address
  kept    : ∀ address, ¬ file.Has address → a'.pageMap (address / 4096) = a.pageMap (address / 4096)
  written : ∀ address, (file.written buffer address).isSome = true ↔ file.Has address
  bytes   : buffer = contents ++ List.replicate (file.pageCount * 4096 - file.sizeBytes) 0

/-- Where the pages were granted, the file is in them. -/
theorem loaded_of_granted {a a' : PageAllocator} {start pageCount sizeBytes : Nat} {contents : Bytes}
    (hgrant : Granted a a' start pageCount .bootServicesData) (hlength : contents.length = sizeBytes)
    (hfits : sizeBytes ≤ pageCount * 4096) :
    Loaded a a' ⟨start, pageCount, sizeBytes⟩
      (contents ++ List.replicate (pageCount * 4096 - sizeBytes) 0) contents := by
  have haligned := hgrant.aligned
  -- an address is in the range exactly if its page is
  have hpage : ∀ address, (start ≤ address ∧ address < start + pageCount * 4096)
      ↔ start / 4096 ≤ address / 4096 ∧ address / 4096 < start / 4096 + pageCount := by
    intro address
    omega
  have hmap : ∀ page, a'.pageMap page = if start / 4096 ≤ page ∧ page < start / 4096 + pageCount
      then some .bootServicesData else a.pageMap page := by
    intro page
    rw [hgrant.map]
    rfl
  constructor
  · exact hlength.symm
  · intro address
    show _ ↔ start ≤ address ∧ address < start + pageCount * 4096
    rw [hpage, hmap]
    constructor
    -- conventional memory is no boot services data, so outside the range nothing became it
    · intro hchanged
      by_contra hout
      rw [if_neg hout, hchanged.1] at hchanged
      cases Option.some.inj hchanged.2
    · intro hin
      rw [if_pos hin]
      exact ⟨hgrant.free _ hin.1 hin.2, rfl⟩
  · intro address hout
    have hout : ¬ (start ≤ address ∧ address < start + pageCount * 4096) := hout
    rw [hpage] at hout
    rw [hmap, if_neg hout]
  · intro address
    show (if start ≤ address then _ else none : Option UInt8).isSome = true
      ↔ start ≤ address ∧ address < start + pageCount * 4096
    by_cases hstart : start ≤ address
    · rw [if_pos hstart, isSome_getElem?]
      show address - start < (contents ++ List.replicate _ 0).length ↔ _
      rw [List.length_append, List.length_replicate, hlength]
      omega
    · rw [if_neg hstart]
      exact ⟨fun h => (by cases h), fun h => absurd h.1 hstart⟩
  · rfl

/-- What a loader has done when it returns a file. -/
theorem fillPages_ok {ε : Type} {allocated : Outcome Nat} {memoryError : MemoryError → ε}
    {pages : Nat → Except ε Bytes} {read : Bytes → Except ε (Nat × Bytes)}
    {pageCount sizeBytes : Nat} {file : LoadedFile} {buffer : Bytes} {a' : PageAllocator}
    (hpages : ∀ start, pages start = .ok (List.replicate (pageCount * 4096) 0))
    (hfits : sizeBytes ≤ pageCount * 4096)
    (h : fillPages allocated memoryError pages read pageCount sizeBytes = (.ok (file, buffer), a')) :
    ∃ start result, allocated = (.ok start, a') ∧ file = ⟨start, pageCount, sizeBytes⟩
      ∧ read (List.replicate sizeBytes 0) = .ok result
      ∧ buffer = result.2 ++ List.replicate (pageCount * 4096 - sizeBytes) 0 := by
  unfold fillPages at h
  split at h
  next e allocator => cases (Prod.mk.inj h).1
  next start allocator =>
    obtain ⟨hresult, rfl⟩ := Prod.mk.inj h
    obtain ⟨zeros, hzeros, hresult⟩ := bind_eq_ok.mp hresult
    obtain ⟨result, hread, hresult⟩ := bind_eq_ok.mp hresult
    rw [hpages] at hzeros
    cases hzeros
    cases hresult
    -- the reader gets as many bytes as the file has; what is behind them stays zero
    rw [List.take_replicate, Nat.min_eq_left hfits] at hread
    exact ⟨start, result, rfl, rfl, hread, by rw [List.drop_replicate]⟩

/-- The two page counts of the sources agree where pages were granted. -/
theorem granted_filePages {a a' : PageAllocator} (h : Sound a) {sizeBytes start : Nat}
    (halloc : a.allocatePagesForSize .bootServicesData sizeBytes = (.ok start, a')) :
    Granted a a' start (filePages sizeBytes) .bootServicesData := by
  obtain ⟨start', b, hcall, hgrant⟩ | ⟨e, hcall⟩ := h.allocatePagesForSize .bootServicesData sizeBytes
  · rw [halloc] at hcall
    obtain ⟨hstart, rfl⟩ := Prod.mk.inj hcall
    cases hstart
    rw [pageCountForSize_eq hgrant.nonempty, filePages_eq] at hgrant
    exact hgrant
  · rw [halloc] at hcall
    cases (Prod.mk.inj hcall).1

theorem le_filePages (sizeBytes : Nat) : sizeBytes ≤ filePages sizeBytes * 4096 := by
  unfold filePages
  omega

end RustFirmware.Filesystem

/-! ## §2. FAT files. -/

namespace RustFirmware.Fat

open RustFirmware.Lib
open RustFirmware.Memory
open RustFirmware.Filesystem

/-- What a file holds: the beginning of its cluster chain. -/
def FatFile.contents (file : FatFile) : Bytes :=
  (file.volume.chainBytes file.entry.firstCluster
    (file.volume.clustersFor file.entry.fileSize.toNat)).take file.entry.fileSize.toNat

theorem FatFile.contents_length (file : FatFile) :
    file.contents.length = file.entry.fileSize.toNat := by
  have henough := @clustersFor_enough file.volume file.entry.fileSize.toNat
  unfold contents
  rw [List.length_take, chainBytes_length]
  omega

/-- What `read_file_contents` has read when it succeeds. -/
theorem FatFile.readFileContents_ok {file : FatFile} {fields : BootFields}
    (hmounted : Mounted fields file.volume) {result : Nat × Bytes}
    (h : file.volume.readFileContents file.entry.firstCluster file.entry.fileSize
      (List.replicate file.entry.fileSize.toNat 0) = .ok result) : result.2 = file.contents := by
  have hlength := file.contents_length
  by_cases hempty : file.entry.fileSize = 0
  · -- an empty file is not looked at
    have hsize : file.entry.fileSize.toNat = 0 := congrArg UInt32.toNat hempty
    unfold FatVolume.readFileContents at h
    rw [if_pos hempty, hsize] at h
    rw [hsize] at hlength
    rw [List.eq_nil_of_length_eq_zero hlength]
    exact (congrArg Prod.snd (Except.ok.inj h)).symm
  · have hsize : file.entry.fileSize.toNat ≠ 0 := fun hzero => hempty (UInt32.toNat_inj.mp hzero)
    rw [readFileContents_loop hempty] at h
    have hread := readFileContentsLoop_contents hmounted hsize (Nat.le_refl _)
      (by rw [List.length_replicate]; omega) h
    rw [hread]
    show overwrite (List.replicate file.entry.fileSize.toNat 0) 0 file.contents = file.contents
    unfold overwrite
    rw [List.take_zero, List.nil_append, List.drop_of_length_le (by
      rw [List.length_replicate, hlength]; omega), List.append_nil]

/-- **`load` of a FAT file.** -/
theorem FatFile.load_loaded {file : FatFile} {fields : BootFields}
    (hmounted : Mounted fields file.volume) {a a' : PageAllocator} (hsound : Sound a)
    {loaded : LoadedFile} {buffer : Bytes} (h : file.load a = (.ok (loaded, buffer), a')) :
    Loaded a a' loaded buffer file.contents := by
  unfold load loadIntoAllocatedPages at h
  rw [fileSizeToPageCount_eq] at h
  dsimp only at h
  rw [filePages_eq] at h
  by_cases hdir : file.entry.isDirectory = true
  · rw [if_pos hdir] at h
    cases (Prod.mk.inj h).1
  · rw [if_neg hdir] at h
    obtain ⟨start, result, halloc, rfl, hread, rfl⟩ :=
      fillPages_ok (zeroedPages_eq file.entry.fileSize) (le_filePages _) h
    rw [readFileContents_ok hmounted hread]
    exact loaded_of_granted (granted_filePages hsound halloc) file.contents_length (le_filePages _)

end RustFirmware.Fat

/-! ## §3. Ext4 files. -/

namespace RustFirmware.Ext4

open RustFirmware.Lib
open RustFirmware.Memory
open RustFirmware.Filesystem

section Contents

variable (volume : Ext4Volume) (sizeBytes : Nat)

/-- Where the byte at `position` comes from: of the leaves in front of the first one behind
    the end of the file, the last that covers its block. -/
def coveringLeaf (leaves : List Ext4Extent) (position : Nat) : Option Ext4Extent :=
  (extentsInFile volume sizeBytes leaves).reverse.find?
    (fun leaf => Covers leaf (position / volume.blockSize))

/-- The byte at `position`, or `other` where no leaf covers it. -/
def contentByte (leaves : List Ext4Extent) (position : Nat) (other : Option UInt8) : Option UInt8 :=
  match coveringLeaf volume sizeBytes leaves position with
  | some leaf => fileByte volume leaf position
  | none      => other

variable {volume sizeBytes}

theorem contentByte_nil (position : Nat) (other : Option UInt8) :
    contentByte volume sizeBytes [] position other = other := rfl

/-- A leaf behind the end of the file hides those after it. -/
theorem contentByte_behind {leaf : Ext4Extent} (leaves : List Ext4Extent) (position : Nat)
    (other : Option UInt8) (h : sizeBytes ≤ leaf.logicalBlock * volume.blockSize) :
    contentByte volume sizeBytes (leaf :: leaves) position other = other := by
  unfold contentByte coveringLeaf extentsInFile
  rw [List.takeWhile_cons, if_neg (by simpa using h)]
  rfl

/-- A leaf in the file gives the bytes that no later one does. -/
theorem contentByte_cons {leaf : Ext4Extent} (leaves : List Ext4Extent) (position : Nat)
    (other : Option UInt8) (h : leaf.logicalBlock * volume.blockSize < sizeBytes) :
    contentByte volume sizeBytes (leaf :: leaves) position other
      = contentByte volume sizeBytes leaves position
          (if Covers leaf (position / volume.blockSize) then fileByte volume leaf position
           else other) := by
  unfold contentByte coveringLeaf extentsInFile
  rw [List.takeWhile_cons, if_pos (by simpa using h), List.reverse_cons, List.find?_append]
  cases hlater : (leaves.takeWhile (fun extent =>
      decide (extent.logicalBlock * volume.blockSize < sizeBytes))).reverse.find?
      (fun leaf => decide (Covers leaf (position / volume.blockSize))) with
  | some later => rfl
  | none =>
      rw [Option.none_or, List.find?_singleton]
      by_cases hcovers : Covers leaf (position / volume.blockSize)
      · rw [if_pos (decide_eq_true hcovers), if_pos hcovers]
      · rw [if_neg (by simpa using hcovers), if_neg hcovers]

/-- **The loop writes the contents**, whatever the order of the leaves. -/
theorem copyExtents_contents {extents : List Ext4Extent} {buffer buffer' : Bytes}
    (h : copyExtents volume sizeBytes extents buffer = .ok buffer')
    (hbuffer : sizeBytes ≤ buffer.length) :
    buffer'.length = buffer.length
    ∧ ∀ i < sizeBytes, buffer'[i]? = contentByte volume sizeBytes extents i buffer[i]? := by
  induction extents generalizing buffer with
  | nil =>
      cases h
      exact ⟨rfl, fun i _ => (contentByte_nil i _).symm⟩
  | cons extent extents ih =>
      unfold copyExtents at h
      by_cases hbehind : extent.logicalBlock * volume.blockSize ≥ sizeBytes
      · rw [if_pos hbehind] at h
        cases h
        exact ⟨rfl, fun i _ => (contentByte_behind extents i _ hbehind).symm⟩
      · rw [if_neg hbehind] at h
        obtain ⟨full, hfull, h⟩ := bind_eq_ok.mp h
        obtain ⟨tail, htail, h⟩ := bind_eq_ok.mp h
        have hin := Nat.not_le.mp hbehind
        obtain ⟨hlength, -, hbytes⟩ := writeExtent hbuffer hin hfull htail
        obtain ⟨hlength', hbytes'⟩ := ih h (Nat.le_trans hbuffer (Nat.le_of_eq hlength.symm))
        refine ⟨hlength'.trans hlength, ?_⟩
        intro i hi
        -- what this leaf has written shows where no later leaf writes
        rw [hbytes' i hi, contentByte_cons extents i _ hin]
        exact congrArg _ (hbytes i hi)

end Contents

/-- **What an inode's file holds**: as many bytes as its size says, each the one that the
    leaves of its tree give, and zero where they give none. -/
def Ext4File.Holds (file : Ext4File) (contents : Bytes) : Prop :=
  contents.length = file.inode.sizeBytes
    ∧ (file.inode.sizeBytes ≠ 0 → ∃ leaves, Leaves file.volume file.inode.blockData leaves
      ∧ ∀ i < file.inode.sizeBytes,
          contents[i]? = contentByte file.volume file.inode.sizeBytes leaves i (some 0))

/-- What `read_inode_contents` has read when it succeeds. -/
theorem Ext4File.readInodeContents_holds {file : Ext4File} {levels : Nat} {result : Nat × Bytes}
    (h : readInodeContents file.volume levels file.inode
      (List.replicate file.inode.sizeBytes 0) = .ok result) : file.Holds result.2 := by
  have hzeros := @List.length_replicate _ file.inode.sizeBytes (0 : UInt8)
  unfold readInodeContents at h
  split at h
  · cases h
  · dsimp only at h
    rw [if_neg (by rw [hzeros]; exact Nat.lt_irrefl _)] at h
    split at h
    next hempty =>
      cases h
      exact ⟨hzeros, fun hne => absurd hempty hne⟩
    next hne =>
      obtain ⟨extents, hextents, h⟩ := bind_eq_ok.mp h
      obtain ⟨filled, hfilled, h⟩ := bind_eq_ok.mp h
      cases h
      have hzeroed : overwrite (List.replicate file.inode.sizeBytes (0 : UInt8)) 0
          (List.replicate file.inode.sizeBytes 0) = List.replicate file.inode.sizeBytes 0 := by
        unfold overwrite
        rw [List.take_zero, List.nil_append, hzeros, Nat.zero_add,
          List.drop_of_length_le (Nat.le_of_eq hzeros), List.append_nil]
      rw [hzeroed] at hfilled
      obtain ⟨hlength, hbytes⟩ := copyExtents_contents (ended_ok.mp hfilled) (Nat.le_of_eq hzeros.symm)
      refine ⟨hlength.trans hzeros, fun _ => ⟨extents, (collectInodeExtents_ok hextents).2.1, ?_⟩⟩
      intro i hi
      rw [hbytes i hi, List.getElem?_replicate, if_pos hi]

/-- **`load` of an ext4 file.** -/
theorem Ext4File.load_loaded {file : Ext4File} {levels : Nat} {a a' : PageAllocator}
    (hsound : Memory.Sound a) {loaded : LoadedFile} {buffer : Bytes}
    (h : file.load levels a = (.ok (loaded, buffer), a')) :
    ∃ contents, file.Holds contents ∧ Loaded a a' loaded buffer contents := by
  unfold load loadIntoAllocatedPages at h
  by_cases hdir : file.inode.isDirectory = true
  · rw [if_pos hdir] at h
    cases (Prod.mk.inj h).1
  · rw [if_neg hdir] at h
    obtain hcount | ⟨hcount, -⟩ := fileSizeToPageCount_cases file.inode.sizeBytes
    · rw [hcount] at h
      dsimp only at h
      rw [filePages_eq] at h
      obtain ⟨start, result, halloc, rfl, hread, rfl⟩ :=
        fillPages_ok (fun _ => rfl) (le_filePages file.inode.sizeBytes) h
      have hholds := readInodeContents_holds hread
      exact ⟨result.2, hholds, loaded_of_granted (granted_filePages hsound halloc) hholds.1
        (le_filePages _)⟩
    · rw [hcount] at h
      cases (Prod.mk.inj h).1

end RustFirmware.Ext4

/-! ## §4. Both loaders. -/

namespace RustFirmware.Filesystem

open RustFirmware.Lib
open RustFirmware.Memory
open RustFirmware.Fat
open RustFirmware.Ext4

/-- **A file that `load` returns is in its pages**: exactly they became boot services data,
    exactly they were written, and they hold the file with zeros behind it. -/
theorem load_ok {a : PageAllocator} (h : Reachable a) :
    (∀ (device : Virtio.BlockDevice) (partitionStartLba : UInt64) (file : FatFile)
        (loaded : LoadedFile) (buffer : Bytes) (a' : PageAllocator),
        FatVolume.new device partitionStartLba = .ok file.volume →
        file.load a = (.ok (loaded, buffer), a') → Loaded a a' loaded buffer file.contents)
    ∧ ∀ (file : Ext4File) (levels : Nat) (loaded : LoadedFile) (buffer : Bytes) (a' : PageAllocator),
        file.load levels a = (.ok (loaded, buffer), a') →
        ∃ contents, file.Holds contents ∧ Loaded a a' loaded buffer contents := by
  constructor
  · intro device partitionStartLba file loaded buffer a' hnew hload
    obtain ⟨hmounted, -, -⟩ := mounted_of_new hnew
    exact FatFile.load_loaded hmounted h.sound hload
  · intro file levels loaded buffer a' hload
    exact Ext4File.load_loaded h.sound hload

/-- A file of 600 bytes in the clusters 2 and 3. -/
def twoClusterFile : FatFile :=
  { volume := fat16Volume twoClusterContents, entry := ⟨0x20, 2, 600⟩ }

def sparseFile : Ext4File := { volume := sparseVolume, inode := sparseInode }

set_option maxRecDepth 20000 in
theorem load_ok_example :
    Loaded plainAllocator leakedAllocator ⟨0x8000, 1, 600⟩ (List.replicate 4096 0)
        twoClusterFile.contents
      ∧ ∃ contents, sparseFile.Holds contents ∧ Loaded plainAllocator leakedAllocator
          ⟨0x8000, 1, 1027⟩
          (List.replicate 1024 0 ++ [1, 2, 3] ++ List.replicate 3069 0) contents := by
  have hfat : twoClusterFile.load plainAllocator
      = (.ok (⟨0x8000, 1, 600⟩, List.replicate 4096 0), leakedAllocator) := by decide +kernel
  have hext4 : sparseFile.load 6 plainAllocator
      = (.ok (⟨0x8000, 1, 1027⟩, List.replicate 1024 0 ++ [1, 2, 3] ++ List.replicate 3069 0),
          leakedAllocator) := by decide +kernel
  obtain ⟨hfats, hext4s⟩ := load_ok reachable_plainAllocator
  exact ⟨hfats _ _ twoClusterFile _ _ _ (new_fat16Device twoClusterContents) hfat,
    hext4s sparseFile 6 _ _ _ hext4⟩

end RustFirmware.Filesystem
