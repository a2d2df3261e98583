/-
  RustFirmware.Boot.Placement
  ───────────────────────────
  **EACH STEP OF THE BOOT SEQUENCE WRITES ONLY PAGES OF THE POOL.**

  The argument of `Boot.Linux` carries over to bytes because every step keeps one rule:
  a byte whose page is not in the pool before the step has its value after it
  (`Frame`).  A file once loaded is not in the pool any more, so later steps keep its
  bytes; the live device tree never was in the pool, so it can be cloned last.

  `Follows` connects the two levels: the pages are those of the page model, and each
  file that the page model has is in memory, byte for byte.
-/
import RustFirmware.Boot.InMemory

namespace RustFirmware.InMemory

open RustFirmware.Lib hiding readLe
open RustFirmware.Memory hiding Holds
open RustFirmware.DeviceTree
open RustFirmware.Filesystem (LoadedFile)
open RustFirmware.Boot hiding LoadedFile loadFirstFile checkKernelHeader relocateKernel boot
  tryBootFromFilesystem

/-! ## §1. Frames. -/

/-- Only bytes whose pages are in the pool of `a` were written. -/
def Frame (a : PageAllocator) (m m' : Lib.Memory) : Prop :=
  ∀ address, ¬ Pool a (address / 4096) → m' address = m address

/-- The bytes of the range lie outside the pool of `a`. -/
def Outside (a : PageAllocator) (start length : Nat) : Prop :=
  ∀ address, Within start length address → ¬ Pool a (address / 4096)

theorem Frame.refl (a : PageAllocator) (m : Lib.Memory) : Frame a m m := fun _ _ => rfl

/-- A step on a smaller pool behind another step. -/
theorem Frame.trans {a a' : PageAllocator} {m m' m'' : Lib.Memory} (h : Frame a m m')
    (h' : Frame a' m' m'') (hshrink : ∀ p, Pool a' p → Pool a p) : Frame a m m'' := by
  intro address hout
  rw [h' address (fun hpool => hout (hshrink _ hpool)), h address hout]

/-- What lies outside the pool is read as before. -/
theorem Frame.load_eq {a : PageAllocator} {m m' : Lib.Memory} {start length : Nat} (h : Frame a m m')
    (hout : Outside a start length) : load m' start length = load m start length :=
  load_congr (fun address hin => h address (hout address hin))

theorem Outside.mono {a a' : PageAllocator} {start length : Nat} (h : Outside a start length)
    (hshrink : ∀ p, Pool a' p → Pool a p) : Outside a' start length :=
  fun address hin hpool => h address hin (hshrink _ hpool)

/-- The page of a byte of a page range. -/
theorem page_of_within {start pages address : Nat} (haligned : start % 4096 = 0)
    (h : Within start (pages * 4096) address) : InRange start pages (address / 4096) := by
  unfold Within at h
  unfold InRange
  omega

/-- A range inside pages that are not in the pool. -/
theorem outside_of_pages {a : PageAllocator} {start length : Nat} (pages : Nat) (haligned : start % 4096 = 0)
    (hlength : length ≤ pages * 4096) (hpages : ∀ p, InRange start pages p → ¬ Pool a p) :
    Outside a start length := by
  intro address hin
  refine hpages _ (page_of_within haligned ?_)
  unfold Within at hin ⊢
  omega

/-- A store into pages of the pool. -/
theorem frame_store {a : PageAllocator} {m : Lib.Memory} {start pages : Nat} {bytes : Bytes}
    (haligned : start % 4096 = 0) (hlength : bytes.length ≤ pages * 4096)
    (hpages : ∀ p, InRange start pages p → Pool a p) : Frame a m (store m start bytes) := by
  intro address hout
  apply store_outside
  intro hin
  refine hout (hpages _ (page_of_within haligned ?_))
  unfold Within at hin ⊢
  omega

/-! ## §2. Files in memory. -/

/-- The bytes that the page model gives a file are in memory. -/
def Holds (m : Lib.Memory) (file : Boot.LoadedFile) : Prop :=
  load m file.physicalStart file.sizeBytes = file.contents

theorem Holds.bytes {m : Lib.Memory} {file : Boot.LoadedFile} (h : Holds m file) :
    bytes (place file) m = file.contents := h

/-- A volume whose files have as many bytes as they say. -/
def Exact (volume : Volume) : Prop :=
  ∀ path file contents, volume.files path = some file → file.contents = some contents →
    contents.length = file.sizeBytes

/-- What a file that was loaded has to do with the one on the volume. -/
structure LoadedFrom (file : VolumeFile) (loaded : Boot.LoadedFile) : Prop where
  size     : loaded.sizeBytes = file.sizeBytes
  contents : file.contents = some loaded.contents

theorem fatLoad_from {file : VolumeFile} {a a' : PageAllocator} {loaded : Boot.LoadedFile}
    (h : fatLoad file a = (.ok loaded, a')) : LoadedFrom file loaded := by
  unfold fatLoad at h
  split at h
  · cases (Prod.mk.inj h).1
  · split at h
    · cases (Prod.mk.inj h).1
    · dsimp only at h
      split at h
      · cases (Prod.mk.inj h).1
      · split at h
        · cases (Prod.mk.inj h).1
        · cases (Prod.mk.inj h).1
        next hcontents =>
          obtain rfl := Except.ok.inj (Prod.mk.inj h).1
          exact ⟨rfl, hcontents⟩

theorem ext4Load_from {file : VolumeFile} {a a' : PageAllocator} {loaded : Boot.LoadedFile}
    (h : ext4Load file a = (.ok loaded, a')) : LoadedFrom file loaded := by
  unfold ext4Load at h
  split at h
  · cases (Prod.mk.inj h).1
  · split at h
    · cases (Prod.mk.inj h).1
    · split at h
      · cases (Prod.mk.inj h).1
      · split at h
        · cases (Prod.mk.inj h).1
        next hcontents =>
          obtain rfl := Except.ok.inj (Prod.mk.inj h).1
          exact ⟨rfl, hcontents⟩

/-- **Both loaders** return the file that they were given. -/
theorem load_from {volume : Volume} {file : VolumeFile} {a a' : PageAllocator}
    {loaded : Boot.LoadedFile} (h : volume.load file a = (.ok loaded, a')) :
    LoadedFrom file loaded := by
  unfold Volume.load at h
  cases hkind : volume.kind with
  | fat =>
      rw [hkind] at h
      exact fatLoad_from h
  | ext4 =>
      rw [hkind] at h
      exact ext4Load_from h

theorem load_loads (volume : Volume) {a : PageAllocator} (h : Sound a) (file : VolumeFile) :
    Loads a (volume.load file a).1.toOption (volume.load file a).2 := by
  unfold Volume.load
  cases volume.kind with
  | fat => exact fatLoad_loads h file
  | ext4 => exact ext4Load_loads h file

/-- **A step of the machine follows one of the page model**: the pages are the same, only
    pages of the pool were written, and the file is in memory. -/
structure Follows (s : Machine) (file? : Option Boot.LoadedFile) (a' : PageAllocator)
    (s' : Machine) : Prop where
  allocator : s'.allocator = a'
  frame     : Frame s.allocator s.memory s'.memory
  holds     : ∀ file, file? = some file → Holds s'.memory file

/-- **`load`**, whether it succeeds or fails. -/
theorem loadFile_follows (left : Lib.Memory) (volume : Volume) {file : VolumeFile} {s : Machine}
    (h : Sound s.allocator)
    (hexact : ∀ contents, file.contents = some contents → contents.length = file.sizeBytes) :
    (loadFile left volume file s).1 = (volume.load file s.allocator).1.map place
      ∧ Follows s (volume.load file s.allocator).1.toOption (volume.load file s.allocator).2
          (loadFile left volume file s).2 := by
  have hloads := load_loads volume h file
  unfold loadFile
  cases hload : volume.load file s.allocator with
  | mk result a' =>
      rw [hload] at hloads
      cases result with
      | error e =>
          refine ⟨rfl, rfl, ?_, fun _ hf => by cases hf⟩
          -- what failed wrote only the pages that it had taken
          intro address hout
          exact if_neg (fun hin => hout hin.1)
      | ok loaded =>
          obtain ⟨hsize, hcontents⟩ := load_from hload
          have hlength : loaded.contents.length = loaded.sizeBytes := by
            rw [hexact _ hcontents, hsize]
          have hstored := hloads.stored loaded rfl
          have hpool : ∀ p, InRange loaded.physicalStart loaded.pageCount p → Pool s.allocator p :=
            fun p hp => (hstored.drawn p hp).1
          have hfits : loaded.sizeBytes ≤ loaded.pageCount * 4096 := by
            rw [hstored.count]
            omega
          have hwhole : loaded.contents.take loaded.sizeBytes = loaded.contents :=
            List.take_of_length_le (Nat.le_of_eq hlength)
          refine ⟨rfl, rfl, ?_, ?_⟩
          · dsimp only
            rw [hwhole]
            have hzeroed : Frame s.allocator s.memory
                (store s.memory loaded.physicalStart (List.replicate (loaded.pageCount * 4096) 0)) :=
              frame_store hstored.aligned (by rw [List.length_replicate]) hpool
            exact hzeroed.trans (frame_store hstored.aligned (by omega) hpool) (fun _ hp => hp)
          · intro file hfile
            cases hfile
            unfold Holds
            dsimp only
            rw [hwhole, ← hlength, load_store]

/-- The files that `load_first_file` can return. -/
def Candidate (volume : Volume) (paths : List Bytes) (loaded : Boot.LoadedFile) : Prop :=
  ∃ path ∈ paths, ∃ file, volume.files path = some file ∧ LoadedFrom file loaded

/-- **`load_first_file`**, however many candidates fail on the way. -/
theorem loadFirstFile_follows {volume : Volume} (hexact : Exact volume) (left : Lib.Memory)
    (paths : List Bytes) {s : Machine} (h : Sound s.allocator) :
    (loadFirstFile left volume s paths).1.map (fun loaded => loaded.2)
        = (Boot.loadFirstFile volume s.allocator paths).1.map place
      ∧ Follows s (Boot.loadFirstFile volume s.allocator paths).1
          (Boot.loadFirstFile volume s.allocator paths).2 (loadFirstFile left volume s paths).2
      ∧ ∀ loaded, (Boot.loadFirstFile volume s.allocator paths).1 = some loaded →
          Candidate volume paths loaded := by
  induction paths generalizing s with
  | nil => exact ⟨rfl, ⟨rfl, Frame.refl _ _, fun _ hf => by cases hf⟩, fun _ hf => by cases hf⟩
  | cons path paths ih =>
      have hmore : ∀ loaded, Candidate volume paths loaded → Candidate volume (path :: paths) loaded := by
        intro loaded hcandidate
        obtain ⟨other, hmem, hother⟩ := hcandidate
        exact ⟨other, List.mem_cons_of_mem _ hmem, hother⟩
      rw [loadFirstFile, Boot.loadFirstFile]
      cases hfile : volume.files path with
      | none =>
          obtain ⟨hresult, hfollows, hfrom⟩ := ih h
          exact ⟨hresult, hfollows, fun loaded hloaded => hmore _ (hfrom loaded hloaded)⟩
      | some file =>
          have hloads := load_loads volume h file
          obtain ⟨hresult, hfollows⟩ :=
            loadFile_follows left volume h (fun contents => hexact path file contents hfile)
          dsimp only
          cases hload : volume.load file s.allocator with
          | mk result a' =>
              rw [hload] at hloads hresult hfollows
              cases hrun : loadFile left volume file s with
              | mk result' s' =>
                  rw [hrun] at hresult hfollows
                  change result' = result.map place at hresult
                  change Follows s result.toOption a' s' at hfollows
                  subst hresult
                  obtain ⟨rfl, hframe, hholds⟩ := hfollows
                  cases result with
                  | ok loaded =>
                      refine ⟨rfl, ⟨rfl, hframe, hholds⟩, ?_⟩
                      intro loaded' hloaded
                      obtain rfl := Option.some.inj hloaded
                      exact ⟨path, List.mem_cons_self, file, hfile, load_from hload⟩
                  | error e =>
                      -- the next candidate draws from what this one left
                      obtain ⟨hrest, ⟨hallocator, hframe', hholds'⟩, hfrom⟩ := ih hloads.sound
                      exact ⟨hrest, ⟨hallocator, hframe.trans hframe' hloads.shrink, hholds'⟩,
                        fun loaded hloaded => hmore _ (hfrom loaded hloaded)⟩

/-! ## §3. The kernel image. -/

/-- A word inside the bytes can be read. -/
theorem readLe_inside {bytes : Bytes} {offset length : Nat} (h : offset + length ≤ bytes.length) :
    ∃ word, readLe bytes offset length = some word := by
  unfold readLe slice?
  rw [if_pos ⟨Nat.le_add_right _ _, h⟩]
  exact ⟨_, rfl⟩

/-- **The parsed header says what the page model reads of it**: once the image has the
    bytes of a header, every field of it can be read. -/
theorem checkKernelHeader_eq {m : Lib.Memory} {file : Boot.LoadedFile} (h : Holds m file) :
    checkKernelHeader (place file) m = Boot.checkKernelHeader file := by
  unfold checkKernelHeader parseLinuxBootImageHeader Boot.checkKernelHeader
  rw [h.bytes]
  by_cases hshort : file.contents.length < riscvLinuxHeaderSize
  · rw [if_pos hshort, if_pos hshort]
    rfl
  · have hread : ∀ offset length, offset + length ≤ 64 →
        ∃ word, readLe file.contents offset length = some word := by
      intro offset length hfits
      exact readLe_inside (Nat.le_trans hfits (Nat.le_of_not_lt hshort))
    obtain ⟨code0, h0⟩ := hread 0x00 4 (by decide)
    obtain ⟨code1, h1⟩ := hread 0x04 4 (by decide)
    obtain ⟨textOffset, h2⟩ := hread 0x08 8 (by decide)
    obtain ⟨imageSize, h3⟩ := hread 0x10 8 (by decide)
    obtain ⟨flags, h4⟩ := hread 0x18 8 (by decide)
    obtain ⟨version, h5⟩ := hread 0x20 4 (by decide)
    obtain ⟨res1, h6⟩ := hread 0x24 4 (by decide)
    obtain ⟨res2, h7⟩ := hread 0x28 8 (by decide)
    obtain ⟨magic, h8⟩ := hread 0x30 8 (by decide)
    obtain ⟨magic2, h9⟩ := hread 0x38 4 (by decide)
    obtain ⟨res3, h10⟩ := hread 0x3c 4 (by decide)
    rw [if_neg hshort, if_neg hshort]
    simp only [h0, h1, h2, h3, h4, h5, h6, h7, h8, h9, h10, okOr, bind, Except.bind]

/-- **`relocate_kernel`**: the copy ends up in fresh pages, with the bytes of the image. -/
theorem relocateKernel_follows {s : Machine} {file : Boot.LoadedFile} (h : Sound s.allocator)
    (hholds : Holds s.memory file) :
    (relocateKernel (place file) s).1
        = (Boot.relocateKernel s.allocator file).1.map (fun relocation => place relocation.kernel)
      ∧ Follows s ((Boot.relocateKernel s.allocator file).1.map (fun relocation => relocation.kernel))
          (Boot.relocateKernel s.allocator file).2 (relocateKernel (place file) s).2 := by
  unfold relocateKernel Boot.relocateKernel
  have hsize : (place file).sizeBytes = file.sizeBytes := rfl
  rcases h.allocateAlignedPagesForSize .bootServicesData file.sizeBytes kernelAlignment .low with
    ⟨start, a₁, heq, hgranted, -⟩ | ⟨e, heq⟩
  · rw [hsize, heq]
    dsimp only
    have hlength : file.contents.length = file.sizeBytes := by
      rw [← hholds, load_length]
    have hcount := pageCountForSize_eq hgranted.nonempty
    have hframe : Frame s.allocator s.memory (store s.memory start file.contents) :=
      frame_store hgranted.aligned (by rw [hlength, hcount]; omega)
        (fun p hp => hgranted.free p hp.1 hp.2)
    rw [hholds.bytes]
    have hplace : (place file).physicalStart = file.physicalStart
        ∧ (place file).pageCount = file.pageCount := ⟨rfl, rfl⟩
    rw [hplace.1, hplace.2]
    cases hfree : a₁.freePages file.physicalStart file.pageCount with
    | mk result a₂ =>
        cases result with
        | error e => exact ⟨rfl, rfl, hframe, fun _ hf => by cases hf⟩
        | ok u =>
            refine ⟨rfl, rfl, hframe, ?_⟩
            intro relocated hrelocated
            cases hrelocated
            show load (store s.memory start file.contents) start file.sizeBytes = file.contents
            rw [← hlength, load_store]
  · rw [hsize, heq]
    exact ⟨rfl, rfl, Frame.refl _ _, fun _ hf => by cases hf⟩

/-! ## §4. The device tree. -/

/-- The clone's three writes, as one list of bytes. -/
theorem cloned_bytes {m : Lib.Memory} {start allocatedSize : Nat} {blob : Bytes}
    (hsmall : blob.length < allocatedSize) (hroom : 8 ≤ allocatedSize) :
    load (store (store (store m start blob) (start + blob.length)
        (List.replicate (allocatedSize - blob.length) 0)) (start + 4) (be32 allocatedSize))
      start allocatedSize
      = overwrite (blob ++ List.replicate (allocatedSize - blob.length) 0) 4 (be32 allocatedSize) := by
  have hlength : (blob ++ List.replicate (allocatedSize - blob.length) (0 : UInt8)).length
      = allocatedSize := by
    rw [List.length_append, List.length_replicate]
    omega
  have hword : (be32 allocatedSize).length = 4 := rfl
  rw [store_append, load_store_inside (by rw [hword]; omega)]
  congr 1
  rw [load_store_take (Nat.le_of_eq hlength.symm), List.take_of_length_le (Nat.le_of_eq hlength)]

/-- They stay inside the pages of the clone. -/
theorem cloned_frame {a : PageAllocator} {m : Lib.Memory} {start pages allocatedSize : Nat}
    {blob : Bytes} (haligned : start % 4096 = 0) (hsize : allocatedSize = pages * 4096)
    (hsmall : blob.length < allocatedSize) (hpages : ∀ p, InRange start pages p → Pool a p) :
    Frame a m (store (store (store m start blob) (start + blob.length)
        (List.replicate (allocatedSize - blob.length) 0)) (start + 4) (be32 allocatedSize)) := by
  rw [store_append]
  have hfilled : Frame a m
      (store m start (blob ++ List.replicate (allocatedSize - blob.length) 0)) := by
    refine frame_store haligned ?_ hpages
    rw [List.length_append, List.length_replicate]
    omega
  refine hfilled.trans ?_ (fun p (hp : Pool a p) => hp)
  intro address hout
  apply store_outside
  intro hin
  refine hout (hpages _ (page_of_within haligned ?_))
  have hword : (be32 allocatedSize).length = 4 := rfl
  unfold Within at hin ⊢
  omega

/-- **`clone`**: what stands in memory is what the model of the blob says. -/
theorem clone_follows {s : Machine} {d : PlacedDtb} (newSize : Nat) (h : Sound s.allocator)
    (hwhole : (d.view s.memory).totalSizeField ≤ d.size) :
    (∃ dtb a', (d.view s.memory).clone newSize s.allocator = (.ok dtb, a')
        ∧ ∃ memory, d.clone newSize s
            = (.ok { pointer := dtb.pointer, size := dtb.size }, { memory := memory, allocator := a' })
          ∧ Frame s.allocator s.memory memory
          ∧ PlacedDtb.view { pointer := dtb.pointer, size := dtb.size } memory = dtb)
      ∨ ∃ e, (d.view s.memory).clone newSize s.allocator = (.error e, s.allocator)
        ∧ d.clone newSize s = (.error e, s) := by
  unfold PlacedDtb.clone Dtb.clone
  dsimp only
  generalize (d.view s.memory).totalSizeField = total at hwhole
  generalize hcount : (newSize + (efiPageSize - 1)) / efiPageSize = pageCount
  by_cases hsmall : newSize ≤ total
  · rw [if_pos hsmall, if_pos hsmall]
    exact .inr ⟨_, rfl, rfl⟩
  · rw [if_neg hsmall, if_neg hsmall]
    cases hmul : checkedMul 64 pageCount efiPageSize with
    | none => exact .inr ⟨_, rfl, rfl⟩
    | some allocatedSize =>
        dsimp only
        by_cases hfits : ¬ allocatedSize < 2 ^ 32
        · rw [if_pos hfits, if_pos hfits]
          exact .inr ⟨_, rfl, rfl⟩
        · rw [if_neg hfits, if_neg hfits]
          rcases h.allocatePages .allocateAnyPages .acpiReclaimMemory pageCount 0 with
            ⟨start, a₁, heq, hgranted⟩ | ⟨e, heq⟩
          · left
            rw [heq]
            dsimp only
            obtain ⟨-, hsize⟩ := checkedMul_eq_some.mp hmul
            have hpage : efiPageSize = 4096 := rfl
            rw [hpage] at hsize hcount
            have hpos := hgranted.nonempty
            -- what is copied, under a name
            have hblob : load s.memory d.pointer total = (d.view s.memory).blob.take total :=
              (load_take hwhole).symm
            have hlength : (load s.memory d.pointer total).length = total := load_length _ _ _
            rw [← hblob]
            generalize load s.memory d.pointer total = blob at hlength
            subst hlength
            refine ⟨_, _, rfl, _, rfl, ?_, ?_⟩
            · exact cloned_frame hgranted.aligned hsize (by omega)
                (fun p hp => hgranted.free p hp.1 hp.2)
            · unfold PlacedDtb.view
              dsimp only
              rw [cloned_bytes (by omega) (by omega)]
          · right
            rw [heq]
            exact ⟨_, rfl, rfl⟩

/-- The size that the header states is read from the header. -/
theorem blobAt_total {m : Lib.Memory} {pointer : Nat} :
    readBe32 (blobAt m pointer) 4 = readBe32 (load m pointer fdtHeaderSize) 4 := by
  have hheader : fdtHeaderSize = 40 := rfl
  unfold blobAt
  obtain ⟨rest, hrest⟩ := Nat.exists_eq_add_of_le
    (Nat.le_max_left fdtHeaderSize ((readBe32 (load m pointer fdtHeaderSize) 4).getD 0))
  rw [hrest, load_add, readBe32, readBe32, slice_append (by rw [load_length, hheader]; decide)]

/-- The blob that `from_ptr` has accepted, in memory. -/
theorem fromPtr_view {m : Lib.Memory} {pointer : Nat} {dtb : Dtb}
    (h : Dtb.fromPtr pointer (blobAt m pointer) = .ok dtb) :
    PlacedDtb.fromPtr pointer m = .ok { pointer := dtb.pointer, size := dtb.size }
      ∧ dtb.pointer = pointer ∧ fdtHeaderSize ≤ dtb.size
      ∧ PlacedDtb.view { pointer := dtb.pointer, size := dtb.size } m = dtb
      ∧ dtb.totalSizeField = dtb.size ∧ blobAt m pointer = load m pointer dtb.size := by
  refine ⟨by rw [PlacedDtb.fromPtr, h]; rfl, ?_⟩
  unfold Dtb.fromPtr at h
  cases hfdt : Fdt.fromPtr pointer (blobAt m pointer) with
  | error e =>
      rw [hfdt] at h
      cases h
  | ok fdt =>
      rw [hfdt] at h
      cases h
      obtain ⟨total, os, ot, om, version, st, ss, haccepts⟩ := Fdt.fromPtr_eq_ok hfdt
      have hstruct := haccepts.structInside
      have htotal : fdt.totalSize = total := by rw [haccepts.result]
      have hlarge : fdtHeaderSize ≤ total := by omega
      have hread := haccepts.total
      have hblob : blobAt m pointer = load m pointer total := by
        have hheader := hread
        rw [blobAt_total] at hheader
        unfold blobAt
        rw [hheader, Option.getD_some, Nat.max_eq_right hlarge]
      have hwhole : (load m pointer total).take total = load m pointer total :=
        List.take_of_length_le (Nat.le_of_eq (load_length _ _ _))
      dsimp only
      rw [htotal]
      refine ⟨rfl, hlarge, ?_, ?_, hblob⟩
      · rw [PlacedDtb.view, hblob, hwhole]
      · show (readBe32 ((blobAt m pointer).take total) 4).getD 0 = total
        rw [hblob, hwhole, ← hblob, hread]
        rfl

/-- A blob in memory is found by its address. -/
theorem fromPtr_of_view {m : Lib.Memory} {p : PlacedDtb} {fdt : Fdt}
    (hview : (p.view m).fdtView = .ok fdt) (htotal : (p.view m).totalSizeField = p.size) :
    Dtb.fromPtr p.pointer (blobAt m p.pointer) = .ok (p.view m) := by
  have hfdt : Fdt.fromPtr p.pointer (load m p.pointer p.size) = .ok fdt := Dtb.fdtView_eq_ok.mp hview
  obtain ⟨total, os, ot, om, version, st, ss, haccepts⟩ := Fdt.fromPtr_eq_ok hfdt
  have hstruct := haccepts.structInside
  have hread := haccepts.total
  have hsize : total = p.size := by
    have hfield : (readBe32 (load m p.pointer p.size) 4).getD 0 = p.size := htotal
    rwa [hread] at hfield
  have hheader : readBe32 (load m p.pointer fdtHeaderSize) 4 = some total := by
    have hlength : fdtHeaderSize = 40 := rfl
    obtain ⟨rest, hrest⟩ := Nat.exists_eq_add_of_le (show fdtHeaderSize ≤ p.size by omega)
    rw [← hread, hrest, load_add, readBe32, readBe32,
      slice_append (by rw [load_length, hlength]; decide)]
  have hblob : blobAt m p.pointer = load m p.pointer p.size := by
    unfold blobAt
    rw [hheader, Option.getD_some, hsize, Nat.max_eq_right (by omega)]
  unfold Dtb.fromPtr
  rw [hblob, hfdt]
  have htotalSize : fdt.totalSize = p.size := by rw [haccepts.result, hsize]
  dsimp only
  rw [htotalSize, List.take_of_length_le (Nat.le_of_eq (load_length _ _ _))]
  rfl

/-- A device tree outside the pool is found as it was. -/
theorem Frame.blobAt_eq {a : PageAllocator} {m m' : Lib.Memory} (h : Frame a m m') {pointer size : Nat}
    (hblob : blobAt m pointer = load m pointer size) (hlarge : fdtHeaderSize ≤ size)
    (hout : Outside a pointer size) : blobAt m' pointer = blobAt m pointer := by
  have hheader : load m' pointer fdtHeaderSize = load m pointer fdtHeaderSize := by
    refine h.load_eq (fun address hin => hout address ?_)
    unfold Within at hin ⊢
    omega
  have hlength := congrArg List.length hblob
  unfold blobAt at hlength ⊢
  rw [load_length, load_length] at hlength
  rw [hheader, hlength]
  exact h.load_eq hout

end RustFirmware.InMemory
