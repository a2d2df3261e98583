/-
  RustFirmware.Boot.Handover
  ──────────────────────────
  **WHAT THE KERNEL FINDS IN MEMORY AT ITS FIRST INSTRUCTION.**

  From the live device tree and a mounted volume to the jump: the machine hands over
  exactly when the sequence of `Boot.Linux` runs through and its clone is not at
  address 0.  Then the image is at the program counter, the initrd is where `/chosen`
  says, the tree at `a1` is the live one with `/chosen` filled in, and no byte outside
  the conventional memory of the live tree has changed.

      §1   the edits of the clone, on the model of the blob
      §2   `boot_and_start` in memory
      §3   the two sequences in lockstep
      §4   the hand-over
-/
import RustFirmware.Boot.Placement
import RustFirmware.Memory.Reservations

namespace RustFirmware.InMemory

open RustFirmware.Lib hiding readLe
open RustFirmware.Memory hiding Holds
open RustFirmware.DeviceTree
open RustFirmware.Filesystem (LoadedFile)
open RustFirmware.Boot hiding LoadedFile loadFirstFile checkKernelHeader relocateKernel boot
  tryBootFromFilesystem

/-! ## §1. The edits of the clone. -/

/-- **A device tree that can be cloned and filled in**: it is well-formed, its root node
    stands at the front of the structure block, and the values that the edits replace
    are not longer than `2 ^ 31` bytes. -/
structure Bootable (d : Dtb) (tree : Tree) : Prop where
  decodes : d.Decodes tree
  regular : d.Regular tree
  behind  : fdtHeaderSize ≤ d.offMemRsvmap
  root    : ∃ fdt root, d.fdtView = .ok fdt ∧ fdt.rootNode = some root
  short   : ReplacesShort tree

theorem keepsPlace_setPropertyString (path name value : Bytes) :
    DtbM.KeepsPlace (Dtb.setPropertyString path name value) :=
  (DtbM.keepsPlace_orThrow _ _).bind fun _ =>
    DtbM.keepsPlace_guard _ (Dtb.keepsPlace_setPropertyBytes _ _ _)

theorem mapUpdateError_snd (r : Except DtbError Unit × Dtb) : (mapUpdateError r).2 = r.2 := by
  obtain ⟨result, d⟩ := r
  cases result with
  | ok u => rfl
  | error e => rfl

/-- The range of the initrd is written where the clone is. -/
theorem setInitrdRange_keepsPlace (initrd : Option Boot.LoadedFile) (d : Dtb) :
    (setInitrdRange initrd d).2.pointer = d.pointer ∧ (setInitrdRange initrd d).2.size = d.size := by
  unfold setInitrdRange
  cases initrd with
  | none => exact ⟨rfl, rfl⟩
  | some file =>
      dsimp only
      cases checkedAdd 64 file.physicalStart file.sizeBytes with
      | none => exact ⟨rfl, rfl⟩
      | some initrdEnd =>
          dsimp only
          rw [mapUpdateError_snd]
          exact ((Dtb.keepsPlace_setPropertyBytes _ _ _).bind
            fun _ => Dtb.keepsPlace_setPropertyBytes _ _ _) d

/-- **The edits stay in the clone.** -/
theorem updateChosen_keepsPlace (initrd : Option Boot.LoadedFile) (commandLine : Bytes) (d : Dtb) :
    (updateChosen initrd commandLine d).2.pointer = d.pointer
      ∧ (updateChosen initrd commandLine d).2.size = d.size := by
  unfold updateChosen
  have hcreated : (mapUpdateError (Dtb.createNode (ascii "/chosen") d)).2.pointer = d.pointer
      ∧ (mapUpdateError (Dtb.createNode (ascii "/chosen") d)).2.size = d.size := by
    rw [mapUpdateError_snd]
    exact Dtb.keepsPlace_createNode _ d
  cases hcreate : mapUpdateError (Dtb.createNode (ascii "/chosen") d) with
  | mk result d₁ =>
      rw [hcreate] at hcreated
      cases result with
      | error e => exact hcreated
      | ok u =>
          dsimp only
          have hranged := setInitrdRange_keepsPlace initrd d₁
          cases hrange : setInitrdRange initrd d₁ with
          | mk result d₂ =>
              rw [hrange] at hranged
              have hplace : d₂.pointer = d.pointer ∧ d₂.size = d.size :=
                ⟨hranged.1.trans hcreated.1, hranged.2.trans hcreated.2⟩
              cases result with
              | error e => exact hplace
              | ok u =>
                  dsimp only
                  rw [mapUpdateError_snd]
                  have hargs := keepsPlace_setPropertyString (ascii "/chosen") (ascii "bootargs")
                    commandLine d₂
                  exact ⟨hargs.1.trans hplace.1, hargs.2.trans hplace.2⟩

/-- A clone in the page at address 0 is not edited: it would be a null pointer. -/
theorem updateChosen_null (initrd : Option Boot.LoadedFile) (commandLine : Bytes) {d : Dtb}
    (hzero : d.pointer = 0) :
    updateChosen initrd commandLine d = (.error (.deviceTreeUpdate (.fdt .nullPointer)), d) := by
  have hrefused : d.fdtView = .error (.fdt .nullPointer) := by
    unfold Dtb.fdtView Fdt.fromPtr validateDtbPointer
    rw [if_pos hzero]
    rfl
  have hsplit : Fdt.splitPath (ascii "/chosen") = [] :: [ascii "chosen"] := by decide
  have hcreate : Dtb.createNode (ascii "/chosen") d = (.error (.fdt .nullPointer), d) := by
    rw [Dtb.createNode_eq hsplit]
    apply DtbM.bind_of_error
    simp only [DtbM.read, hrefused, bind, Except.bind]
  unfold updateChosen
  rw [hcreate]
  rfl

/-- The clone of `boot`, as a call of `clone`. -/
theorem clone_of_bootClone {d dtb : Dtb} {a a' : PageAllocator} (h : bootClone d a = (.ok dtb, a')) :
    d.clone (d.size + linuxDtbExtraSize) a = (.ok dtb, a') := by
  have hboot : Boot.boot ⟨.file, 0⟩ none d a [] = (.ok ⟨dtb, [], 0, none⟩, a') := by
    unfold Boot.boot
    rw [if_neg (by decide), if_neg (by decide), h]
    rfl
  exact (boot_ok hboot).2

/-- What the edits leave can be booted from again. -/
theorem Ready.bootable {d : Dtb} {tree : Tree} {spent : Nat} (h : Ready d tree spent) :
    Bootable d tree := by
  obtain ⟨fdt, node, hview, hnode⟩ := h.chosen
  obtain ⟨-, root, hroot, -⟩ := Fdt.findNode_eq_some.mp hnode
  exact ⟨h.decodes, h.regular, h.behind, ⟨fdt, root, hview, hroot⟩, h.short⟩

/-- **The edits succeed on the clone**, and give the tree that Linux gets. -/
theorem Bootable.update {d dtb : Dtb} {tree : Tree} (h : Bootable d tree) {a a' : PageAllocator}
    (hsound : Sound a) (hclone : bootClone d a = (.ok dtb, a')) (hplaced : dtb.pointer ≠ 0)
    {initrd : Option Boot.LoadedFile}
    (hinitrd : ∀ file, initrd = some file → file.physicalStart + file.sizeBytes < 2 ^ 64)
    {commandLine : Bytes} (hline : commandLine.length ≤ 255) :
    ∃ d', updateChosen initrd commandLine dtb = (.ok (), d')
      ∧ Bootable d' (chosenTree tree initrd commandLine) := by
  obtain ⟨fdt, root, hview, hroot⟩ := h.root
  obtain ⟨pages, hgranted, -⟩ := bootClone_ok hsound hclone
  have hpointer : validateDtbPointer dtb.pointer = .ok () := by
    have haligned := hgranted.aligned
    unfold validateDtbPointer
    rw [if_neg hplaced, if_neg (by omega)]
  obtain ⟨d₁, hcreate, hready₁⟩ := ready_of_clone h.decodes h.regular h.behind hview hroot h.short
    (clone_of_bootClone hclone) hpointer
  obtain ⟨d₂, hrange, hready₂⟩ := hready₁.setInitrdRange hinitrd
  have hlength : (commandLine ++ [0]).length = commandLine.length + 1 := by simp
  have hname : (ascii "bootargs").length = 8 := by decide
  have hextra : linuxDtbExtraSize = 8192 := rfl
  obtain ⟨d₃, hargs, hready₃⟩ := hready₂.setProperty (ascii "bootargs")
    (commandLine ++ [0]) (by decide) (by omega)
    (by rw [hname, hextra, hlength]; unfold align4; omega)
  -- the NUL goes into the value, and the value into a buffer of 256 bytes
  have hstring : Dtb.setPropertyString (ascii "/chosen") (ascii "bootargs") commandLine d₂
      = (.ok (), d₃) := by
    have hadd : DtbM.orThrow (checkedAdd 64 commandLine.length 1) .sizeOverflow d₂
        = (.ok (commandLine.length + 1), d₂) := by
      rw [checkedAdd_some (by omega)]
      rfl
    rw [Dtb.setPropertyString, DtbM.bind_of_ok hadd]
    show (if commandLine.length + 1 > 256 then DtbM.throw .bufferTooSmall else _ : DtbM Unit) d₂ = _
    rw [if_neg (by omega)]
    exact hargs
  refine ⟨d₃, ?_, Ready.bootable hready₃⟩
  simp only [updateChosen, hcreate, mapUpdateError, hrange, hstring]

/-! ## §2. `boot_and_start` in memory. -/

/-- The edits read only where the initrd is, not what it holds. -/
theorem updateChosen_place (initrd : Option Boot.LoadedFile) (commandLine : Bytes) (d : Dtb) :
    updateChosen ((initrd.map place).map
        (fun file => ⟨file.physicalStart, file.pageCount, file.sizeBytes, []⟩)) commandLine d
      = updateChosen initrd commandLine d := by
  cases initrd with
  | none => rfl
  | some file => rfl

/-- `boot` on the blob where it stands. -/
theorem boot_follows {s : Machine} {p : PlacedDtb} (h : Sound s.allocator)
    (hwhole : (p.view s.memory).totalSizeField ≤ p.size) :
    (∃ dtb a', bootClone (p.view s.memory) s.allocator = (.ok dtb, a')
        ∧ ∃ memory, boot p s
            = (.ok { pointer := dtb.pointer, size := dtb.size }, { memory := memory, allocator := a' })
          ∧ Frame s.allocator s.memory memory
          ∧ PlacedDtb.view { pointer := dtb.pointer, size := dtb.size } memory = dtb)
      ∨ ∃ e e', bootClone (p.view s.memory) s.allocator = (.error e, s.allocator)
        ∧ boot p s = (.error e', s) := by
  unfold boot bootClone
  have hsize : (p.view s.memory).size = p.size := rfl
  rw [hsize]
  cases hadd : checkedAdd 64 p.size linuxDtbExtraSize with
  | none => exact .inr ⟨_, _, rfl, rfl⟩
  | some newSize =>
      dsimp only
      rcases clone_follows newSize h hwhole with
        ⟨dtb, a', hclone, memory, hrun, hframe, hview⟩ | ⟨e, hclone, hrun⟩
      · left
        rw [hclone, hrun]
        exact ⟨dtb, a', rfl, memory, rfl, hframe, hview⟩
      · right
        rw [hclone, hrun]
        exact ⟨_, _, rfl, rfl⟩

/-- **`boot_and_start`** reaches the jump exactly when the clone is there and not at
    address 0; the kernel's tree then stands in the clone. -/
theorem bootAndStart_follows {s : Machine} {p : PlacedDtb} {tree : Tree} (h : Sound s.allocator)
    (hbootable : Bootable (p.view s.memory) tree) (kernelImage : LoadedFile) (bootHart : Nat)
    {initrd : Option Boot.LoadedFile}
    (hinitrd : ∀ file, initrd = some file → file.physicalStart + file.sizeBytes < 2 ^ 64)
    {commandLine : Bytes} (hline : commandLine.length ≤ 255) :
    (∀ dtb a', bootClone (p.view s.memory) s.allocator = (.ok dtb, a') → dtb.pointer ≠ 0 →
        ∃ memory, bootAndStart kernelImage (initrd.map place) p commandLine bootHart s
            = (.ok (start kernelImage bootHart dtb.pointer), { memory := memory, allocator := a' })
          ∧ Frame s.allocator s.memory memory
          ∧ Bootable (PlacedDtb.view { pointer := dtb.pointer, size := dtb.size } memory)
              (chosenTree tree initrd commandLine))
      ∧ (∀ registers, (bootAndStart kernelImage (initrd.map place) p commandLine bootHart s).1
            = .ok registers →
          ∃ dtb a', bootClone (p.view s.memory) s.allocator = (.ok dtb, a') ∧ dtb.pointer ≠ 0)
      ∧ Frame s.allocator s.memory
          (bootAndStart kernelImage (initrd.map place) p commandLine bootHart s).2.memory := by
  have hwhole : (p.view s.memory).totalSizeField ≤ p.size := by
    have htotal := hbootable.decodes.total_eq
    have hlength : (p.view s.memory).blob.length = p.size := load_length _ _ _
    omega
  unfold bootAndStart updateDeviceTree
  simp only [updateChosen_place]
  rcases boot_follows h hwhole with ⟨dtb, a', hclone, memory, hrun, hframe, hview⟩ | ⟨e, e', hclone, hrun⟩
  · rw [hrun]
    dsimp only
    rw [hview]
    by_cases hplaced : dtb.pointer = 0
    · -- nothing is written any more
      rw [updateChosen_null initrd commandLine hplaced]
      refine ⟨?_, ?_, ?_⟩
      · intro dtb' a'' hclone' hplaced'
        rw [hclone] at hclone'
        obtain rfl := Except.ok.inj (Prod.mk.inj hclone').1
        exact absurd hplaced hplaced'
      · intro registers hreached
        cases hreached
      · have hblob : load memory dtb.pointer dtb.size = dtb.blob := congrArg Dtb.blob hview
        show Frame s.allocator s.memory (store memory dtb.pointer dtb.blob)
        rw [← hblob, store_load]
        exact hframe
    · obtain ⟨d', hupdate, hchosen⟩ := hbootable.update h hclone hplaced hinitrd hline
      have hplace := updateChosen_keepsPlace initrd commandLine dtb
      rw [hupdate] at hplace ⊢
      obtain ⟨hpointer, hsize⟩ := hplace
      dsimp only at hpointer hsize
      obtain ⟨pages, hgranted, hpages⟩ := bootClone_ok h hclone
      have hlength : d'.blob.length = dtb.size := by rw [← hchosen.decodes.size_eq, hsize]
      -- the edits write the pages that the clone has taken
      have hedits : Frame s.allocator s.memory (store memory dtb.pointer d'.blob) :=
        hframe.trans (frame_store hgranted.aligned (by omega)
          (fun page hp => hgranted.free page hp.1 hp.2)) (fun _ hp => hp)
      refine ⟨?_, fun _ _ => ⟨dtb, a', hclone, hplaced⟩, hedits⟩
      intro dtb' a'' hclone' _
      rw [hclone] at hclone'
      obtain ⟨hd, rfl⟩ := Prod.mk.inj hclone'
      obtain rfl := Except.ok.inj hd
      refine ⟨store memory dtb.pointer d'.blob, rfl, hedits, ?_⟩
      have hedited : PlacedDtb.view { pointer := dtb.pointer, size := dtb.size }
          (store memory dtb.pointer d'.blob) = d' := by
        unfold PlacedDtb.view
        dsimp only
        rw [← hlength, load_store, hlength, ← hsize, ← hpointer]
      rw [hedited]
      exact hchosen
  · rw [hrun]
    refine ⟨?_, ?_, Frame.refl _ _⟩
    · intro dtb a' hclone'
      rw [hclone] at hclone'
      cases (Prod.mk.inj hclone').1
    · intro registers hreached
      cases hreached

/-! ## §3. The two sequences in lockstep. -/

/-- Pages of the map end below page `2 ^ 52`. -/
theorem pool_lt {a : PageAllocator} (h : Sound a) {p : Nat} (hp : Pool a p) : p + 1 < 2 ^ 52 := by
  obtain ⟨l, hl, -⟩ := h
  unfold Pool at hp
  rw [hl.pageMap_eq] at hp
  obtain ⟨s, hs, hin, -⟩ := mem_of_denote hp
  have hfits := hl.fits s hs
  unfold Fits at hfits
  unfold Seg.Has at hin
  omega

/-- So a file in pages of the pool ends before the addresses do. -/
theorem stored_fits {a a' : PageAllocator} (h : Sound a) {file : Boot.LoadedFile}
    (hstored : Stored a a' file) : file.physicalStart + file.sizeBytes < 2 ^ 64 := by
  have hcount := hstored.count
  have haligned := hstored.aligned
  have hlast := (hstored.drawn (file.physicalStart / 4096 + file.pageCount - 1)
    ⟨by omega, by omega⟩).1
  have hlt := pool_lt h hlast
  omega

theorem decimalDigits_length (fuel value : Nat) : (decimalDigits fuel value).length ≤ fuel := by
  induction fuel generalizing value with
  | zero => exact Nat.le_refl 0
  | succ fuel ih =>
      rw [decimalDigits, List.length_append]
      have hrest := ih (value / 10)
      split
      · simp
      · simp
        exact hrest

/-- The command line fits the buffer of 24 bytes. -/
theorem rootCommandLine_length {blockDeviceIndex partitionNumber : Nat} {commandLine : Bytes}
    (h : rootCommandLine blockDeviceIndex partitionNumber = some commandLine) :
    commandLine.length ≤ 24 := by
  unfold rootCommandLine at h
  split at h
  · cases h
  · obtain rfl := Option.some.inj h
    have hdigits := decimalDigits_length 10 partitionNumber
    have hprefix : (ascii "root=/dev/vd").length = 12 := by decide
    rw [List.length_append, List.length_append, hprefix]
    simp only [List.length_cons, List.length_nil]
    omega

/-- The relocated image is the loaded one at another address. -/
theorem relocateKernel_image {a a' : PageAllocator} {file : Boot.LoadedFile} {relocation : Relocation}
    (h : Boot.relocateKernel a file = (some relocation, a')) :
    relocation.kernel = { file with physicalStart := relocation.kernel.physicalStart } := by
  unfold Boot.relocateKernel at h
  split at h
  · cases (Prod.mk.inj h).1
  · split at h
    · cases (Prod.mk.inj h).1
    · obtain rfl := Option.some.inj (Prod.mk.inj h).1
      rfl

/-- **What stands in memory** when the sequence has run through: the image and the initrd
    with the bytes of candidates of the volume, the tree that Linux gets, and every byte
    outside the pool as it was. -/
structure Delivered (volume : Volume) (tree : Tree) (handOff : HandOff) (a : PageAllocator)
    (m m' : Lib.Memory) : Prop where
  kernel     : Holds m' handOff.relocation.kernel
  kernelFrom : Candidate volume kernelCandidatePaths handOff.relocation.kernel
  initrd     : ∀ initrd, handOff.initrd = some initrd →
    Holds m' initrd ∧ Candidate volume initrdCandidatePaths initrd
  deviceTree : Bootable (PlacedDtb.view { pointer := handOff.dtb.pointer, size := handOff.dtb.size } m')
    (chosenTree tree handOff.initrd handOff.commandLine)
  frame      : Frame a m m'

/-- The registers at the jump. -/
def registersOf (handOff : HandOff) (bootHart : Nat) : Registers :=
  start (place handOff.relocation.kernel) bootHart handOff.dtb.pointer

/-- What `relocate_kernel` does to the pool: the old pages come back to it, and the new
    ones are not in it. -/
theorem relocated_pool {a₁ a₂ a₃ : PageAllocator} (h : Sound a₂) {kernel : Boot.LoadedFile}
    {relocation : Relocation} (hshrink : ∀ p, Pool a₂ p → Pool a₁ p)
    (hcount : kernel.pageCount = max 1 ((kernel.sizeBytes + 4095) / 4096))
    (hold : ∀ p, InRange kernel.physicalStart kernel.pageCount p → ¬ Pool a₁ p)
    (hrel : Boot.relocateKernel a₂ kernel = (some relocation, a₃)) :
    Sound a₃
      ∧ (∀ p, Pool a₃ p → Pool a₂ p ∨ InRange kernel.physicalStart kernel.pageCount p)
      ∧ Outside a₃ relocation.kernel.physicalStart relocation.kernel.sizeBytes
      ∧ relocation.kernel.physicalStart % (2 * 1024 * 1024) = 0 := by
  obtain ⟨b, hgranted, hreleased, hmod, hpages, -⟩ := relocateKernel_ok h hrel
  have himage := relocateKernel_image hrel
  have hsize : relocation.kernel.sizeBytes = kernel.sizeBytes := by rw [himage]
  have htaken := pool_of_granted hgranted (by decide)
  have hback := pool_of_released hreleased
  have hgrantedCount := pageCountForSize_eq hgranted.nonempty
  refine ⟨hreleased.sound, ?_, ?_, hmod⟩
  · intro p hp
    rcases (hback p).mp hp with hb | hin
    · exact .inl ((htaken p).mp hb).1
    · exact .inr hin
  · refine outside_of_pages (pageCountForSize kernel.sizeBytes) hgranted.aligned
      (by rw [hsize, hgrantedCount]; omega) ?_
    intro p hin hpool
    rcases (hback p).mp hpool with hb | hinOld
    · exact ((htaken p).mp hb).2 hin
    · -- the old pages were taken before the new ones were free
      exact hold p hinOld (hshrink p (hgranted.free p hin.1 hin.2))

/-- A stored file is outside the pool that is left. -/
theorem stored_outside {a a' : PageAllocator} {file : Boot.LoadedFile} (h : Stored a a' file) :
    Outside a' file.physicalStart file.sizeBytes :=
  outside_of_pages file.pageCount h.aligned (by rw [h.count]; omega) (fun p hp => (h.drawn p hp).2)

/-- The machine when the image has been moved: what was loaded is in memory, and outside
    the pool that the clone will draw from. -/
structure Prepared (volume : Volume) (a : PageAllocator) (m : Lib.Memory)
    (image : Boot.LoadedFile) (initrd : Option Boot.LoadedFile) (s : Machine) : Prop where
  sound     : Sound s.allocator
  smaller   : ∀ p, Pool s.allocator p → Pool a p
  frame     : Frame a m s.memory
  kept      : Holds s.memory image ∧ Outside s.allocator image.physicalStart image.sizeBytes
  imageFrom : Candidate volume kernelCandidatePaths image
  initrdKept : ∀ file, initrd = some file →
    Holds s.memory file ∧ Outside s.allocator file.physicalStart file.sizeBytes
  fromPath  : ∀ file, initrd = some file → Candidate volume initrdCandidatePaths file
  fits      : ∀ file, initrd = some file → file.physicalStart + file.sizeBytes < 2 ^ 64

/-- **After the kernel, the initrd and the move.** -/
theorem prepared {volume : Volume} {a : PageAllocator} {m : Lib.Memory} {s₁ s₂ s₃ : Machine}
    {kernel : Boot.LoadedFile} {initrd : Option Boot.LoadedFile} {relocation : Relocation}
    (hkernel : Loads a (some kernel) s₁.allocator)
    (hinitrd : Loads s₁.allocator initrd s₂.allocator)
    (hrel : Boot.relocateKernel s₂.allocator kernel = (some relocation, s₃.allocator))
    (hframe₁ : Frame a m s₁.memory) (hframe₂ : Frame s₁.allocator s₁.memory s₂.memory)
    (hframe₃ : Frame s₂.allocator s₂.memory s₃.memory)
    (himage : Holds s₃.memory relocation.kernel)
    (hholds : ∀ file, initrd = some file → Holds s₂.memory file)
    (hkernelFrom : Candidate volume kernelCandidatePaths kernel)
    (hinitrdFrom : ∀ file, initrd = some file → Candidate volume initrdCandidatePaths file) :
    Prepared volume a m relocation.kernel initrd s₃ := by
  have hstored := hkernel.stored kernel rfl
  obtain ⟨hsound₃, hpool₃, houtside₃, -⟩ := relocated_pool hinitrd.sound hinitrd.shrink hstored.count
    (fun p hp => (hstored.drawn p hp).2) hrel
  have hmoved := relocateKernel_image hrel
  refine ⟨hsound₃, ?_, ?_, ⟨himage, houtside₃⟩, ?_, ?_, hinitrdFrom,
    fun file hfile => stored_fits hkernel.sound (hinitrd.stored file hfile)⟩
  · intro p hp
    rcases hpool₃ p hp with hin | hold
    · exact hkernel.shrink p (hinitrd.shrink p hin)
    · exact (hstored.drawn p hold).1
  · exact (hframe₁.trans hframe₂ hkernel.shrink).trans hframe₃
      (fun p hp => hkernel.shrink p (hinitrd.shrink p hp))
  · obtain ⟨path, hpath, file, hfile, hfrom⟩ := hkernelFrom
    refine ⟨path, hpath, file, hfile, ?_, ?_⟩
    · show relocation.kernel.sizeBytes = file.sizeBytes
      rw [hmoved]
      exact hfrom.size
    · show file.contents = some relocation.kernel.contents
      rw [hmoved]
      exact hfrom.contents
  · intro file hfile
    have hfileStored := hinitrd.stored file hfile
    constructor
    · unfold Holds
      rw [hframe₃.load_eq (stored_outside hfileStored)]
      exact hholds file hfile
    · -- neither in the pool that is left, nor among the kernel's old pages
      refine outside_of_pages file.pageCount hfileStored.aligned
        (by rw [hfileStored.count]; omega) ?_
      intro p hp hpool
      rcases hpool₃ p hpool with hin | hold
      · exact (hfileStored.drawn p hp).2 hin
      · exact (hstored.drawn p hold).2 (hfileStored.drawn p hp).1

/-- **The rest of the way**: the live tree is cloned and filled in, and what was loaded
    stays. -/
theorem Prepared.deliver {volume : Volume} {a : PageAllocator} {m memory : Lib.Memory}
    {relocation : Relocation} {initrd : Option Boot.LoadedFile} {s : Machine} {tree : Tree}
    {dtb : Dtb} {commandLine : Bytes}
    (h : Prepared volume a m relocation.kernel initrd s)
    (hframe : Frame s.allocator s.memory memory)
    (hchosen : Bootable (PlacedDtb.view { pointer := dtb.pointer, size := dtb.size } memory)
      (chosenTree tree initrd commandLine)) :
    Delivered volume tree ⟨relocation, initrd, dtb, commandLine⟩ a m memory := by
  constructor
  · show load memory _ _ = _
    rw [hframe.load_eq h.kept.2]
    exact h.kept.1
  · exact h.imageFrom
  · intro file hfile
    obtain ⟨hholds, houtside⟩ := h.initrdKept file hfile
    refine ⟨?_, h.fromPath file hfile⟩
    unfold Holds
    rw [hframe.load_eq houtside]
    exact hholds
  · exact hchosen
  · exact h.frame.trans hframe h.smaller

/-- **The machine and the page model run in lockstep**: with the live tree outside the
    pool, the machine reaches the jump exactly when the page model runs through and its
    clone is not at address 0; and it writes only pages of the pool, however far it gets. -/
theorem lockstep {volume : Volume} (hexact : Exact volume) (left : Lib.Memory)
    {m : Lib.Memory} {a : PageAllocator} (hsound : Sound a) {deviceTreePtr : Nat} {d : Dtb}
    {tree : Tree} (hlive : Dtb.fromPtr deviceTreePtr (blobAt m deviceTreePtr) = .ok d)
    (hbootable : Bootable d tree) (hout : Outside a deviceTreePtr d.size)
    (blockDeviceIndex partitionNumber bootHart : Nat) :
    (∀ handOff a', Boot.tryBootFromFilesystem volume a blockDeviceIndex partitionNumber deviceTreePtr
          (blobAt m deviceTreePtr) = (some handOff, a') → handOff.dtb.pointer ≠ 0 →
        ∃ m', tryBootFromFilesystem left volume blockDeviceIndex partitionNumber bootHart deviceTreePtr
            { memory := m, allocator := a }
            = (some (registersOf handOff bootHart), { memory := m', allocator := a' })
          ∧ Delivered volume tree handOff a m m')
      ∧ (∀ registers, (tryBootFromFilesystem left volume blockDeviceIndex partitionNumber bootHart
            deviceTreePtr { memory := m, allocator := a }).1 = some registers →
          ∃ handOff a', Boot.tryBootFromFilesystem volume a blockDeviceIndex partitionNumber
              deviceTreePtr (blobAt m deviceTreePtr) = (some handOff, a')
            ∧ handOff.dtb.pointer ≠ 0)
      ∧ Frame a m (tryBootFromFilesystem left volume blockDeviceIndex partitionNumber bootHart
          deviceTreePtr { memory := m, allocator := a }).2.memory := by
  obtain ⟨-, hpointer, hlarge, hview, -, hblob⟩ := fromPtr_view hlive
  unfold tryBootFromFilesystem Boot.tryBootFromFilesystem
  -- the kernel
  obtain ⟨hkernelResult, hkernelFollows, hkernelFrom⟩ :=
    loadFirstFile_follows hexact left kernelCandidatePaths (s := ⟨m, a⟩) hsound
  have hkernelLoads := loadFirstFile_loads volume hsound kernelCandidatePaths
  dsimp only at hkernelResult hkernelFollows hkernelFrom
  cases hkernelRun : loadFirstFile left volume ⟨m, a⟩ kernelCandidatePaths with
  | mk kernelFound s₁ =>
  cases hkernelModel : Boot.loadFirstFile volume a kernelCandidatePaths with
  | mk kernel? a₁ =>
  rw [hkernelRun, hkernelModel] at hkernelResult hkernelFollows
  rw [hkernelModel] at hkernelFrom hkernelLoads
  obtain ⟨hallocator₁, hframe₁, hholds₁⟩ := hkernelFollows
  dsimp only at hkernelResult hallocator₁ hframe₁ hholds₁ hkernelFrom
  subst hallocator₁
  cases kernel? with
  | none =>
      cases kernelFound with
      | some found => cases hkernelResult
      | none =>
          exact ⟨fun _ _ hrun => (by cases (Prod.mk.inj hrun).1), fun _ hreached => (by cases hreached),
            hframe₁⟩
  | some kernel =>
  cases kernelFound with
  | none => cases hkernelResult
  | some found =>
  obtain ⟨path, kernelLoaded⟩ := found
  obtain rfl : kernelLoaded = place kernel := Option.some.inj hkernelResult
  dsimp only
  -- the initrd, from what the kernel has left
  obtain ⟨hinitrdResult, hinitrdFollows, hinitrdFrom⟩ :=
    loadFirstFile_follows hexact left initrdCandidatePaths (s := s₁) hkernelLoads.sound
  have hinitrdLoads := loadFirstFile_loads volume hkernelLoads.sound initrdCandidatePaths
  cases hinitrdRun : loadFirstFile left volume s₁ initrdCandidatePaths with
  | mk initrdFound s₂ =>
  cases hinitrdModel : Boot.loadFirstFile volume s₁.allocator initrdCandidatePaths with
  | mk initrd a₂ =>
  rw [hinitrdRun, hinitrdModel] at hinitrdResult hinitrdFollows
  rw [hinitrdModel] at hinitrdFrom hinitrdLoads
  obtain ⟨hallocator₂, hframe₂, hholds₂⟩ := hinitrdFollows
  dsimp only at hinitrdResult hallocator₂ hframe₂ hholds₂ hinitrdFrom
  subst hallocator₂
  have hkernel₂ : Holds s₂.memory kernel := by
    unfold Holds
    rw [hframe₂.load_eq (stored_outside (hkernelLoads.stored kernel rfl))]
    exact hholds₁ kernel rfl
  -- the live tree is where it was
  have hlive₂ : blobAt s₂.memory deviceTreePtr = blobAt m deviceTreePtr :=
    (hframe₁.trans hframe₂ hkernelLoads.shrink).blobAt_eq hblob hlarge hout
  rw [(fromPtr_view (m := s₂.memory) (hlive₂ ▸ hlive)).1, checkKernelHeader_eq hkernel₂,
    hinitrdResult, hlive]
  cases hline : rootCommandLine blockDeviceIndex partitionNumber with
  | none => exact ⟨fun _ _ hrun => (by cases (Prod.mk.inj hrun).1), fun _ hreached => (by cases hreached),
            hframe₁.trans hframe₂ hkernelLoads.shrink⟩
  | some commandLine =>
  cases Boot.checkKernelHeader kernel with
  | error e =>
      exact ⟨fun _ _ hrun => (by cases (Prod.mk.inj hrun).1), fun _ hreached => (by cases hreached),
            hframe₁.trans hframe₂ hkernelLoads.shrink⟩
  | ok u =>
  dsimp only
  -- the image moves down
  obtain ⟨hrelResult, hrelFollows⟩ := relocateKernel_follows hinitrdLoads.sound hkernel₂
  cases hrelRun : relocateKernel (place kernel) s₂ with
  | mk relocated s₃ =>
  cases hrelModel : Boot.relocateKernel s₂.allocator kernel with
  | mk relocation? a₃ =>
  rw [hrelRun, hrelModel] at hrelResult hrelFollows
  obtain ⟨hallocator₃, hframe₃, hholds₃⟩ := hrelFollows
  dsimp only at hrelResult hallocator₃ hframe₃ hholds₃
  subst hallocator₃
  cases relocation? with
  | none =>
      cases relocated with
      | some file => cases hrelResult
      | none =>
          exact ⟨fun _ _ hrun => (by cases (Prod.mk.inj hrun).1), fun _ hreached => (by cases hreached),
            (hframe₁.trans hframe₂ hkernelLoads.shrink).trans hframe₃
              (fun p hp => hkernelLoads.shrink p (hinitrdLoads.shrink p hp))⟩
  | some relocation =>
  cases relocated with
  | none => cases hrelResult
  | some file =>
  obtain rfl : file = place relocation.kernel := Option.some.inj hrelResult
  dsimp only
  have hprepared := prepared hkernelLoads hinitrdLoads hrelModel hframe₁ hframe₂ hframe₃
    (hholds₃ relocation.kernel rfl) hholds₂ (hkernelFrom kernel rfl) hinitrdFrom
  -- and the clone is made from the live tree
  have hview₃ : PlacedDtb.view { pointer := d.pointer, size := d.size } s₃.memory = d := by
    have hsame : load s₃.memory d.pointer d.size = load m d.pointer d.size :=
      hprepared.frame.load_eq (hpointer ▸ hout)
    rw [← hview]
    unfold PlacedDtb.view
    dsimp only
    rw [hsame]
  have hbootable₃ : Bootable (PlacedDtb.view { pointer := d.pointer, size := d.size } s₃.memory)
      tree := by
    rw [hview₃]
    exact hbootable
  obtain ⟨hforth, hback, hlast⟩ := bootAndStart_follows hprepared.sound hbootable₃ (place relocation.kernel)
    bootHart hprepared.fits (Nat.le_trans (rootCommandLine_length hline) (by decide))
  rw [hview₃] at hforth hback
  refine ⟨?_, ?_, ?_⟩
  · intro handOff a' hrun hplaced
    cases hclone : bootClone d s₃.allocator with
    | mk result a₄ =>
        rw [hclone] at hrun
        cases result with
        | error e => cases (Prod.mk.inj hrun).1
        | ok dtb =>
            obtain ⟨hhandOff, rfl⟩ := Prod.mk.inj hrun
            obtain rfl := Option.some.inj hhandOff
            obtain ⟨memory, hstart, hframe₄, hchosen⟩ := hforth dtb a₄ hclone hplaced
            exact ⟨memory, by rw [hstart]; rfl, hprepared.deliver hframe₄ hchosen⟩
  · intro registers hreached
    cases hstart : bootAndStart (place relocation.kernel) (initrd.map place)
        { pointer := d.pointer, size := d.size } commandLine bootHart s₃ with
    | mk result s₄ =>
        rw [hstart] at hreached
        cases result with
        | error e => cases hreached
        | ok registers' =>
            obtain ⟨dtb, a', hclone, hplaced⟩ := hback registers' (by rw [hstart])
            exact ⟨⟨relocation, initrd, dtb, commandLine⟩, a', by rw [hclone], hplaced⟩
  · have hwritten := hprepared.frame.trans hlast hprepared.smaller
    revert hwritten
    cases bootAndStart (place relocation.kernel) (initrd.map place)
        { pointer := d.pointer, size := d.size } commandLine bootHart s₃ with
    | mk result s₄ =>
        intro hwritten
        cases result with
        | error e => exact hwritten
        | ok registers => exact hwritten

/-! ## §4. The hand-over. -/

/-- **The live tree is outside the pool**: the allocator takes its pages first of all. -/
theorem live_outside {firmware : FirmwareLayout} {deviceTreePtr : Nat} {blob : Bytes}
    {memoryCapacity reservedCapacity : Nat} {buffer : List EfiMemoryDescriptor} {a : PageAllocator}
    (hbuild : pageAllocatorFromLiveFdt firmware deviceTreePtr blob memoryCapacity reservedCapacity
      buffer = some a) {d : Dtb} (hlive : Dtb.fromPtr deviceTreePtr blob = .ok d) :
    Sound a ∧ Outside a deviceTreePtr d.size := by
  obtain ⟨fdt, hfdt, hmap⟩ := pageAllocatorFromLiveFdt_eq_some hbuild
  refine ⟨(fromFdt_spec hmap).1, ?_⟩
  unfold Dtb.fromPtr at hlive
  rw [hfdt] at hlive
  cases hlive
  obtain ⟨total, os, ot, om, version, st, ss, haccepts⟩ := Fdt.fromPtr_eq_ok hfdt
  have hbase : fdt.base = deviceTreePtr := by rw [haccepts.result]
  intro address hin hpool
  obtain ⟨hlow, hhigh⟩ := hin
  dsimp only at hhigh
  have htouch : (fdtRegion fdt).Touches (address / 4096) := by
    show fdt.base / 4096 ≤ _ ∧ _ < (fdt.base + fdt.totalSize + 4095) / 4096
    omega
  have hhit : ∃ c ∈ fdtReservations fdt reservedCapacity, c.1.Touches (address / 4096) ∧ Sticky c.2 :=
    ⟨(fdtRegion fdt, .acpiReclaimMemory), List.mem_append_left _ List.mem_cons_self, htouch,
      (show EfiMemoryType.acpiReclaimMemory ≠ .conventionalMemory by decide),
      (show EfiMemoryType.acpiReclaimMemory ≠ .reservedMemoryType by decide)⟩
  unfold Pool at hpool
  rcases fromFdt_page_cases hmap (address / 4096) with ⟨-, hnone⟩ | ⟨-, ⟨-, t, ht, hsticky⟩ | ⟨hmiss, -⟩⟩
  · rw [hnone] at hpool
    cases hpool
  · rw [ht] at hpool
    exact hsticky.1 (Option.some.inj hpool)
  · exact hmiss hhit

/-- The jump goes to the image: its address is even. -/
theorem registersOf_eq {volume : Volume} {a a' : PageAllocator} (h : Sound a)
    {blockDeviceIndex partitionNumber devicePtr : Nat} {deviceMemory : Bytes} {handOff : HandOff}
    (hok : Boot.tryBootFromFilesystem volume a blockDeviceIndex partitionNumber devicePtr deviceMemory
      = (some handOff, a')) (bootHart : Nat) :
    registersOf handOff bootHart
      = { pc := handOff.relocation.kernel.physicalStart, a0 := bootHart, a1 := handOff.dtb.pointer } := by
  obtain ⟨kernel, a₁, a₂, a₃, deviceTree, hkernel, hinitrd, hrel, -⟩ := tryBootFromFilesystem_ok hok
  have hload₁ := loadFirstFile_loads volume h kernelCandidatePaths
  rw [hkernel] at hload₁
  have hload₂ := loadFirstFile_loads volume hload₁.sound initrdCandidatePaths
  rw [hinitrd] at hload₂
  obtain ⟨b, -, -, hmod, -⟩ := relocateKernel_ok hload₂.sound hrel
  unfold registersOf start place
  congr 1
  dsimp only
  omega

section HandOver

variable {firmware : FirmwareLayout} {volume : Volume} {m : Lib.Memory} {deviceTreePtr : Nat}
  {d : Dtb} {tree : Tree} {blockDeviceIndex partitionNumber bootHart : Nat}

/-- Where the page model runs through, the machine hands over. -/
theorem handsOver_of_model (hexact : Exact volume) (left : Lib.Memory) (bootHart : Nat)
    (hlive : Dtb.fromPtr deviceTreePtr (blobAt m deviceTreePtr) = .ok d) (hbootable : Bootable d tree)
    {a a' : PageAllocator} {handOff : HandOff}
    (hbuild : pageAllocatorFromLiveFdt firmware deviceTreePtr (blobAt m deviceTreePtr) 8 16
      (List.replicate 32 emptyDescriptor) = some a)
    (hmodel : Boot.tryBootFromFilesystem volume a blockDeviceIndex partitionNumber deviceTreePtr
      (blobAt m deviceTreePtr) = (some handOff, a')) (hplaced : handOff.dtb.pointer ≠ 0) :
    ∃ m', tryBootFromVolume firmware left volume blockDeviceIndex partitionNumber bootHart
        deviceTreePtr m = (some (registersOf handOff bootHart), m')
      ∧ Delivered volume tree handOff a m m' := by
  obtain ⟨hsound, hout⟩ := live_outside hbuild hlive
  obtain ⟨hforth, -, -⟩ := lockstep hexact left hsound hlive hbootable hout blockDeviceIndex
    partitionNumber bootHart
  obtain ⟨m', hrun, hdelivered⟩ := hforth handOff a' hmodel hplaced
  refine ⟨m', ?_, hdelivered⟩
  unfold tryBootFromVolume
  rw [hbuild]
  dsimp only
  rw [hrun]

/-- And only there. -/
theorem model_of_handsOver (hexact : Exact volume) {left : Lib.Memory}
    (hlive : Dtb.fromPtr deviceTreePtr (blobAt m deviceTreePtr) = .ok d) (hbootable : Bootable d tree)
    {registers : Registers} {m' : Lib.Memory}
    (hrun : tryBootFromVolume firmware left volume blockDeviceIndex partitionNumber bootHart
      deviceTreePtr m = (some registers, m')) :
    ∃ a handOff a', pageAllocatorFromLiveFdt firmware deviceTreePtr (blobAt m deviceTreePtr) 8 16
          (List.replicate 32 emptyDescriptor) = some a
      ∧ Boot.tryBootFromFilesystem volume a blockDeviceIndex partitionNumber deviceTreePtr
          (blobAt m deviceTreePtr) = (some handOff, a')
      ∧ handOff.dtb.pointer ≠ 0 := by
  unfold tryBootFromVolume at hrun
  cases hbuild : pageAllocatorFromLiveFdt firmware deviceTreePtr (blobAt m deviceTreePtr) 8 16
      (List.replicate 32 emptyDescriptor) with
  | none =>
      rw [hbuild] at hrun
      cases (Prod.mk.inj hrun).1
  | some a =>
      rw [hbuild] at hrun
      obtain ⟨hsound, hout⟩ := live_outside hbuild hlive
      obtain ⟨-, hback, -⟩ := lockstep hexact left hsound hlive hbootable hout blockDeviceIndex
        partitionNumber bootHart
      obtain ⟨handOff, a', hmodel, hplaced⟩ := hback registers (Prod.mk.inj hrun).1
      exact ⟨a, handOff, a', rfl, hmodel, hplaced⟩

/-- However far it gets, it writes only what was conventional memory. -/
theorem tryBootFromVolume_frame (hexact : Exact volume) (left : Lib.Memory) (bootHart : Nat)
    (hlive : Dtb.fromPtr deviceTreePtr (blobAt m deviceTreePtr) = .ok d) (hbootable : Bootable d tree)
    {a : PageAllocator}
    (hbuild : pageAllocatorFromLiveFdt firmware deviceTreePtr (blobAt m deviceTreePtr) 8 16
      (List.replicate 32 emptyDescriptor) = some a) :
    Frame a m (tryBootFromVolume firmware left volume blockDeviceIndex partitionNumber bootHart
      deviceTreePtr m).2 := by
  obtain ⟨hsound, hout⟩ := live_outside hbuild hlive
  obtain ⟨-, -, hframe⟩ := lockstep hexact left hsound hlive hbootable hout blockDeviceIndex
    partitionNumber bootHart
  unfold tryBootFromVolume
  rw [hbuild]
  exact hframe

/-- **What the kernel finds.**  If the machine hands over, the page model has run through on
    the allocator of the live device tree; the program counter is at its relocated image,
    `a0` is the boot hart and `a1` the clone.  In memory stand the image and the initrd
    with the bytes of candidates of the volume, the clone decodes to the live tree with
    `/chosen` filled in and can be booted from in its turn, and every byte outside the
    conventional memory is as it was. -/
theorem tryBootFromVolume_delivers (hexact : Exact volume) {left : Lib.Memory}
    (hlive : Dtb.fromPtr deviceTreePtr (blobAt m deviceTreePtr) = .ok d) (hbootable : Bootable d tree)
    {registers : Registers} {m' : Lib.Memory}
    (hrun : tryBootFromVolume firmware left volume blockDeviceIndex partitionNumber bootHart
      deviceTreePtr m = (some registers, m')) :
    ∃ a handOff a', pageAllocatorFromLiveFdt firmware deviceTreePtr (blobAt m deviceTreePtr) 8 16
          (List.replicate 32 emptyDescriptor) = some a
      ∧ Boot.tryBootFromFilesystem volume a blockDeviceIndex partitionNumber deviceTreePtr
          (blobAt m deviceTreePtr) = (some handOff, a')
      ∧ registers = { pc := handOff.relocation.kernel.physicalStart, a0 := bootHart,
                      a1 := handOff.dtb.pointer }
      ∧ Delivered volume tree handOff a m m' := by
  obtain ⟨a, handOff, a', hbuild, hmodel, hplaced⟩ := model_of_handsOver hexact hlive hbootable hrun
  obtain ⟨m'', hrun', hdelivered⟩ :=
    handsOver_of_model hexact left bootHart hlive hbootable hbuild hmodel hplaced
  rw [hrun] at hrun'
  obtain ⟨hregisters, rfl⟩ := Prod.mk.inj hrun'
  refine ⟨a, handOff, a', hbuild, hmodel, ?_, hdelivered⟩
  rw [Option.some.inj hregisters]
  exact registersOf_eq (live_outside hbuild hlive).1 hmodel bootHart

/-- **When it hands over**: exactly when the page model runs through and its clone is not at
    address 0.  Filling in `/chosen` never fails otherwise. -/
theorem tryBootFromVolume_handsOver_iff (hexact : Exact volume) (left : Lib.Memory)
    (hlive : Dtb.fromPtr deviceTreePtr (blobAt m deviceTreePtr) = .ok d) (hbootable : Bootable d tree) :
    (∃ registers m', tryBootFromVolume firmware left volume blockDeviceIndex partitionNumber bootHart
        deviceTreePtr m = (some registers, m'))
      ↔ ∃ a handOff a', pageAllocatorFromLiveFdt firmware deviceTreePtr (blobAt m deviceTreePtr) 8 16
            (List.replicate 32 emptyDescriptor) = some a
        ∧ Boot.tryBootFromFilesystem volume a blockDeviceIndex partitionNumber deviceTreePtr
            (blobAt m deviceTreePtr) = (some handOff, a')
        ∧ handOff.dtb.pointer ≠ 0 := by
  constructor
  · rintro ⟨registers, m', hrun⟩
    exact model_of_handsOver hexact hlive hbootable hrun
  · rintro ⟨a, handOff, a', hbuild, hmodel, hplaced⟩
    obtain ⟨m', hrun, -⟩ := handsOver_of_model hexact left bootHart hlive hbootable hbuild hmodel
      hplaced
    exact ⟨registersOf handOff bootHart, m', hrun⟩

end HandOver

/-! ## §5. A run on 64 KiB of RAM. -/

/-- The nodes below the root of `ramBlob`. -/
def ramItems : Items :=
  Items.child (ascii "memory")
    (Items.property 0 (be32 0 ++ be32 0x80000000 ++ be32 0x10000) .nil) .nil

/-- `ramBlob`, section by section. -/
def ramImage : Image where
  offMemRsvmap    := 40
  version         := 17
  lastCompVersion := 16
  bootCpuid       := 0
  reserved        := List.replicate 16 0
  structureBlock  := nops 0 ++ (nodeHead [] [0, 0, 0] ++ (ramItems.flat
    ++ (be32 fdtEndNode ++ (nops 0 ++ be32 fdtEnd))))
  gap             := []
  strings         := ascii "reg" ++ [0]
  free            := []

def ramDtb : Dtb where
  pointer := 0x80008000
  blob    := ramImage.bytes
  size    := ramImage.totalSize

def ramTree : Tree where
  reserveMap := []
  rootName   := []
  contents   := .node (ascii "memory")
    (.prop (some (ascii "reg")) (be32 0 ++ be32 0x80000000 ++ be32 0x10000) .nil) .nil

theorem ramDtb_shows : ramDtb.Shows ramImage :=
  ⟨rfl, rfl, by decide +kernel, by decide +kernel⟩

theorem ramDtb_bootable : Bootable ramDtb ramTree := by
  have hmap : (ramImage.fdt 0x80008000).ReserveMap [] :=
    ⟨fun index entry h => by simp at h, by decide +kernel⟩
  have hh : ramImage.Holds 0x80008000 ramTree ramItems [0, 0, 0] 0 0 := by
    refine ⟨by decide, hmap, by decide, by decide, ?_, by decide +kernel, rfl⟩
    refine ⟨by decide, by decide, ⟨by decide, by decide, by decide, trivial⟩, trivial⟩
  refine ⟨hh.decodes ramDtb_shows, ⟨?_, ?_, ?_⟩, ?_, ?_, ?_⟩
  · exact ⟨trivial, trivial, trivial⟩
  · exact ⟨⟨rfl, trivial⟩, trivial⟩
  · intro fdt hview
    rw [ramDtb_shows.fdtView] at hview
    cases hview
    show Terminated (ascii "reg" ++ [0])
    exact ⟨.inr (by decide), by decide⟩
  · rw [ramDtb_shows.offMemRsvmap]
    exact Nat.le_refl 40
  · have hroot : ((ramImage.fdt 0x80008000).rootNode).isSome = true := by decide +kernel
    obtain ⟨root, hroot⟩ := Option.isSome_iff_exists.mp hroot
    exact ⟨_, root, ramDtb_shows.fdtView, hroot⟩
  · intro name _ old hold
    cases hold

/-- The blob in memory, with zeros around it. -/
def ramMemory : Lib.Memory := store (fun _ => 0) 0x80008000 ramBlob

theorem blobAt_ramMemory : blobAt ramMemory 0x80008000 = ramBlob := by decide +kernel

theorem ramMemory_live : Dtb.fromPtr 0x80008000 (blobAt ramMemory 0x80008000) = .ok ramDtb := by
  rw [blobAt_ramMemory]
  decide +kernel

theorem tinyVolume_exact : Exact tinyVolume := by
  intro path file contents hfile hcontents
  unfold tinyVolume at hfile
  dsimp only at hfile
  split_ifs at hfile
  · cases hfile
    cases hcontents
    decide
  · cases hfile
    cases hcontents
    rfl

/-- The page model runs through on that memory. -/
theorem ramMemory_runs :
    ∃ a handOff a', pageAllocatorFromLiveFdt ramFirmware 0x80008000 (blobAt ramMemory 0x80008000) 8 16
        (List.replicate 32 emptyDescriptor) = some a
      ∧ Boot.tryBootFromFilesystem tinyVolume a 0 1 0x80008000 (blobAt ramMemory 0x80008000)
          = (some handOff, a')
      ∧ handOff.dtb.pointer ≠ 0 := by
  rw [blobAt_ramMemory]
  have hrun : (pageAllocatorFromLiveFdt ramFirmware 0x80008000 ramBlob 8 16
        (List.replicate 32 emptyDescriptor)).map (fun a =>
          (Boot.tryBootFromFilesystem tinyVolume a 0 1 0x80008000 ramBlob).1.map
            (fun handOff => decide (handOff.dtb.pointer ≠ 0))) = some (some true) := by
    decide +kernel
  obtain ⟨a, ha, hsome⟩ := Option.map_eq_some_iff.mp hrun
  obtain ⟨handOff, hh, hpointer⟩ := Option.map_eq_some_iff.mp hsome
  exact ⟨a, handOff, _, ha, Prod.ext hh rfl, of_decide_eq_true hpointer⟩

/-- The hand-over of that run. -/
theorem tryBootFromVolume_delivers_example :
    ∃ registers m' handOff a, tryBootFromVolume ramFirmware (fun _ => 0xff) tinyVolume 0 1 3 0x80008000
        ramMemory = (some registers, m')
      ∧ registers.a0 = 3 ∧ Delivered tinyVolume ramTree handOff a ramMemory m' := by
  obtain ⟨a, handOff, a', hbuild, hmodel, hplaced⟩ := ramMemory_runs
  obtain ⟨m', hrun, -⟩ := handsOver_of_model tinyVolume_exact (fun _ => 0xff) 3 ramMemory_live
    ramDtb_bootable hbuild hmodel hplaced
  obtain ⟨a, handOff', a', -, -, hregisters, hdelivered⟩ :=
    tryBootFromVolume_delivers tinyVolume_exact ramMemory_live ramDtb_bootable hrun
  exact ⟨_, m', handOff', a, hrun, by rw [hregisters], hdelivered⟩

theorem tryBootFromVolume_handsOver_iff_example :
    ∃ registers m', tryBootFromVolume ramFirmware (fun _ => 0) tinyVolume 0 1 3 0x80008000 ramMemory
      = (some registers, m') :=
  (tryBootFromVolume_handsOver_iff tinyVolume_exact (fun _ => 0) ramMemory_live ramDtb_bootable).mpr
    ramMemory_runs

end RustFirmware.InMemory
