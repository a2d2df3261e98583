/-
  RustFirmware.Boot.Firmware
  ──────────────────────────
  **FROM THE ENTRY OF THE FIRMWARE TO THE ENTRY OF THE KERNEL.**

  The firmware is loaded where Linux wants to be, so its first activation only copies it to
  the highest free memory and jumps into the copy.  The copy finds that it is not at the
  load address, and probes the block devices.  Its allocator knows the window of the copy
  and no longer the one at the load address.

  `powerOn` is the machine: it runs the firmware again from where it was jumped to, provided
  that its code stands there.  What the firmware keeps in its own window, its stack and its
  statics, is not part of the memory of the model.
-/
import RustFirmware.Boot.Probe
import RustFirmware.Memory.Search

namespace RustFirmware.InMemory

open RustFirmware.Lib hiding readLe
open RustFirmware.Memory hiding Holds
open RustFirmware.DeviceTree
open RustFirmware.Virtio (BlockDevice)
open RustFirmware.Boot hiding LoadedFile loadFirstFile checkKernelHeader relocateKernel boot
  tryBootFromFilesystem Filesystem

/-! ## §1. The image. -/

/-- `LENGTH(RAM)`, and `__heap_end` of the image before it is placed. -/
def firmwareWindow : Nat := 256 * 1024

/-- `__stack_size`. -/
def firmwareStackSize : Nat := 16 * 1024 + 128 * 1024

/-- `PRIMARY_FIRMWARE_LOAD_ADDRESS`. -/
def primaryFirmwareLoadAddress : Nat := 0x80200000

/-- The image that the linker script makes: its code from the first byte on, and the offsets
    of `__firmware_data_end` and `relocated_entry`. -/
structure LinkedImage where
  code           : Bytes
  dataEnd        : Nat
  relocatedEntry : Nat
  entry_lt       : relocatedEntry < code.length
  data_le        : code.length ≤ dataEnd
  data_fits      : dataEnd ≤ firmwareWindow

/-- What the linker symbols are at run time, with the image at `base`. -/
def LinkedImage.layoutAt (image : LinkedImage) (base : Nat) : FirmwareLayout where
  codeStart   := base
  codeEnd     := base + image.code.length
  dataStart   := base + image.code.length
  dataEnd     := base + image.dataEnd
  heapStart   := base + image.dataEnd
  heapEnd     := base + firmwareWindow
  stackBottom := base + (firmwareWindow - firmwareStackSize)
  stackTop    := base + firmwareWindow

/-! ## §2. The functions of the source. -/

/-- The registers at `relocated_entry`. -/
structure EntryRegisters where
  pc : Nat
  a0 : Nat
  a1 : Nat
  a2 : Nat
  deriving Repr, DecidableEq

/-- `enter_relocated_copy`; the addition is unwrapped. -/
def enterRelocatedCopy (image : LinkedImage) (relocatedBase bootHart deviceTree entryStack : Nat) :
    Checked EntryRegisters := do
  let relocatedEntryAddress ← addWord 64 relocatedBase image.relocatedEntry
  pure { pc := relocatedEntryAddress, a0 := bootHart, a1 := deviceTree, a2 := entryStack }

/-- `try_relocate_firmware`, in an image that runs at `runtimeBase`. -/
def tryRelocateFirmware (image : LinkedImage) (runtimeBase bootHart deviceTree entryStack : Nat)
    (memory : Lib.Memory) : Checked (Option EntryRegisters) × Lib.Memory :=
  match pageAllocatorFromLiveFdt (image.layoutAt runtimeBase) deviceTree (blobAt memory deviceTree)
      8 16 (List.replicate 32 emptyDescriptor) with
  | none => (.ok none, memory)
  | some allocator =>
      let runtimeSize := firmwareWindow
      let runtimePages := (runtimeSize + (efiPageSize - 1)) / efiPageSize
      match allocator.allocatePages .allocateMaxAddress .bootServicesData runtimePages (2 ^ 64 - 1) with
      | (.error _, _, _) => (.ok none, memory)
      | (.ok (), relocatedBase, _) =>
          let memory := store memory relocatedBase (load memory runtimeBase runtimeSize)
          match enterRelocatedCopy image relocatedBase bootHart deviceTree entryStack with
          | .error reason  => (.error reason, memory)
          | .ok registers => (.ok (some registers), memory)

/-- How an activation of the firmware ends. -/
inductive Activation where
  | relocated (registers : EntryRegisters)
  | handedOver (registers : Registers)
  | poweroff
  deriving Repr, DecidableEq

section Source

variable (image : LinkedImage) (left : Nat → Nat → Lib.Memory) (bounds : Bounds)
  (drivers : List (Option BlockDevice))

/-- What the walk over the block devices depends on, in an image at `base`. -/
def surroundingsAt (base : Nat) : Surroundings := ⟨image.layoutAt base, left, bounds⟩

/-- `run_firmware`, in an image that runs at `runtimeBase`. -/
def runFirmware (runtimeBase bootHart deviceTree entryStack : Nat) (memory : Lib.Memory) :
    Checked Activation × Lib.Memory :=
  if runtimeBase = primaryFirmwareLoadAddress then
    match tryRelocateFirmware image runtimeBase bootHart deviceTree entryStack memory with
    | (.error reason, memory)        => (.error reason, memory)
    | (.ok none, memory)             => (.ok .poweroff, memory)
    | (.ok (some registers), memory) => (.ok (.relocated registers), memory)
  else
    match probeVirtio (surroundingsAt image left bounds runtimeBase) bootHart deviceTree drivers
        memory with
    | (.error reason, memory)        => (.error reason, memory)
    | (.ok none, memory)             => (.ok .poweroff, memory)
    | (.ok (some registers), memory) => (.ok (.handedOver registers), memory)

/-- What becomes of the machine. -/
inductive Fate where
  | kernel (registers : Registers)
  | poweroff
  | panic (reason : Trap)
  -- it has gone on beyond the bounds of a search, or of the activations
  | endless
  -- the jump went to something that is not the code of the firmware
  | astray
  deriving Repr, DecidableEq

/-- The machine, from an activation on.  `relocated_entry` puts the stack pointer that it
    finds into `a2`, so that is what a copy gets for `entry_stack`. -/
def powerOn (stackPointer : Nat) : (activations : Nat) →
    (runtimeBase bootHart deviceTree entryStack : Nat) → Lib.Memory → Fate × Lib.Memory
  | 0, _, _, _, _, memory => (.endless, memory)
  | activations + 1, runtimeBase, bootHart, deviceTree, entryStack, memory =>
      match runFirmware image left bounds drivers runtimeBase bootHart deviceTree entryStack memory with
      | (.error .outOfFuel, memory)           => (.endless, memory)
      | (.error reason, memory)               => (.panic reason, memory)
      | (.ok .poweroff, memory)               => (.poweroff, memory)
      | (.ok (.handedOver registers), memory) => (.kernel registers, memory)
      | (.ok (.relocated registers), memory)  =>
          let base := registers.pc - image.relocatedEntry
          if load memory base image.code.length = image.code then
            powerOn stackPointer activations base registers.a0 registers.a1 stackPointer memory
          else (.astray, memory)

end Source

/-! ## §3. The window is what the allocator keeps free of others. -/

/-- The pages of a linker range. -/
theorem linkerPages_iff {start stop p : Nat} :
    ((linkerPages start stop).1 ≤ p ∧ p < (linkerPages start stop).2)
      ↔ start < stop ∧ start / 4096 ≤ p ∧ p < (stop + 4095) / 4096 := by
  unfold linkerPages
  by_cases hempty : stop ≤ start
  · rw [if_pos hempty]
    dsimp only
    omega
  · rw [if_neg hempty]
    unfold MemoryRegion.outerPages
    dsimp only
    rw [Nat.add_sub_cancel' (by omega)]
    omega

section Window

variable {image : LinkedImage} {base p : Nat}

/-- **The four ranges cover the pages of the window**, and no others. -/
theorem LinkedImage.touches_iff (haligned : base % 4096 = 0) :
    FirmwareTouches (image.layoutAt base) p ↔ InRange base 64 p := by
  have hcode : 0 < image.code.length := Nat.lt_of_le_of_lt (Nat.zero_le _) image.entry_lt
  have hdata := image.data_le
  have hfits : image.dataEnd ≤ 262144 := image.data_fits
  have hstack : (image.layoutAt base).stackBottom = base + 114688 := rfl
  have hstackTop : (image.layoutAt base).stackTop = base + 262144 := rfl
  have hheapEnd : (image.layoutAt base).heapEnd = base + 262144 := rfl
  unfold FirmwareTouches PageAllocator.firmwareRegions InRange
  simp only [List.mem_cons, List.not_mem_nil, or_false, exists_eq_or_imp, exists_eq_left,
    linkerPages_iff, hstack, hstackTop, hheapEnd]
  show (base < base + image.code.length ∧ base / 4096 ≤ p
        ∧ p < (base + image.code.length + 4095) / 4096
      ∨ base + image.code.length < base + image.dataEnd ∧ (base + image.code.length) / 4096 ≤ p
        ∧ p < (base + image.dataEnd + 4095) / 4096
      ∨ base + image.dataEnd < base + 262144 ∧ (base + image.dataEnd) / 4096 ≤ p
        ∧ p < (base + 262144 + 4095) / 4096
      ∨ base + 114688 < base + 262144 ∧ (base + 114688) / 4096 ≤ p
        ∧ p < (base + 262144 + 4095) / 4096) ↔ _
  omega

variable {deviceTree : Nat} {blob : Bytes} {buffer buffer' : List EfiMemoryDescriptor}
  {memoryCapacity reservedCapacity : Nat} {a a' : PageAllocator}

/-- The window is not in the pool. -/
theorem window_not_in_pool (haligned : base % 4096 = 0)
    (hbuild : pageAllocatorFromLiveFdt (image.layoutAt base) deviceTree blob memoryCapacity
      reservedCapacity buffer = some a) (h : InRange base 64 p) : ¬ Pool a p := by
  obtain ⟨fdt, -, hmap⟩ := pageAllocatorFromLiveFdt_eq_some hbuild
  intro hpool
  exact ((fromFdt_conventional_iff hmap p).mp hpool).2.2
    ((LinkedImage.touches_iff haligned).mpr h)

/-- **When the image moves**, the allocator gets nothing but the window at the old place. -/
theorem pool_of_moved {base' : Nat} (haligned : base % 4096 = 0)
    (hbuild : pageAllocatorFromLiveFdt (image.layoutAt base) deviceTree blob memoryCapacity
      reservedCapacity buffer = some a)
    (hbuild' : pageAllocatorFromLiveFdt (image.layoutAt base') deviceTree blob memoryCapacity
      reservedCapacity buffer' = some a') (h : Pool a' p) : Pool a p ∨ InRange base 64 p := by
  obtain ⟨fdt, hfdt, hmap⟩ := pageAllocatorFromLiveFdt_eq_some hbuild
  obtain ⟨fdt', hfdt', hmap'⟩ := pageAllocatorFromLiveFdt_eq_some hbuild'
  obtain rfl : fdt = fdt' := Except.ok.inj (hfdt.symm.trans hfdt')
  obtain ⟨hram, hfree, -⟩ := (fromFdt_conventional_iff hmap' p).mp h
  by_cases hwindow : InRange base 64 p
  · exact .inr hwindow
  · refine .inl ((fromFdt_conventional_iff hmap p).mpr ⟨hram, hfree, ?_⟩)
    exact fun htouch => hwindow ((LinkedImage.touches_iff haligned).mp htouch)

end Window

/-! ## §4. The copy. -/

/-- **What relocation does**: the window at `base` is copied, byte for byte, to the highest
    run of free pages. -/
structure Copied (a : PageAllocator) (base : Nat) (m : Lib.Memory) (base' : Nat) (m' : Lib.Memory) :
    Prop where
  aligned : base' % 4096 = 0
  below   : base' + firmwareWindow ≤ 2 ^ 64
  free    : ∀ p, InRange base' 64 p → Pool a p
  highest : ∀ start, HostsRun a.pageMap 64 start → start ≤ base'
  apart   : base' + firmwareWindow ≤ base ∨ base + firmwareWindow ≤ base'
  same    : load m' base' firmwareWindow = load m base firmwareWindow
  frame   : Frame a m m'

section Relocation

variable {image : LinkedImage} {base deviceTree : Nat} {m : Lib.Memory}

/-- Where an image at `base` finds room for its copy. -/
def relocationTarget (image : LinkedImage) (base deviceTree : Nat) (blob : Bytes) : Option Nat :=
  match pageAllocatorFromLiveFdt (image.layoutAt base) deviceTree blob 8 16
      (List.replicate 32 emptyDescriptor) with
  | none => none
  | some a =>
      match a.allocatePages .allocateMaxAddress .bootServicesData 64 (2 ^ 64 - 1) with
      | (.ok (), target, _) => some target
      | (.error _, _, _)    => none

/-- The pages for the copy are the highest ones, and a failed allocation is no copy. -/
theorem allocateMaxAddress_highest {a : PageAllocator} (h : Built a) :
    (∃ base' a', a.allocatePages .allocateMaxAddress .bootServicesData 64 (2 ^ 64 - 1)
          = (.ok (), base', a')
        ∧ IsGreatest {v | HostsRun a.pageMap 64 v ∧ v + 64 * 4096 - 1 ≤ 2 ^ 64 - 1} base')
      ∨ ∃ e, a.allocatePages .allocateMaxAddress .bootServicesData 64 (2 ^ 64 - 1)
          = (.error e, 2 ^ 64 - 1, a) := by
  obtain ⟨⟨l, hl, htidy⟩, hsettled⟩ := h.sound
  have hcan := hl.canonical htidy hsettled
  have htakes : TakesHighest a {v | HostsRun a.pageMap 64 v ∧ v + 64 * 4096 - 1 ≤ 2 ^ 64 - 1} 64
      (2 ^ 64 - 1) (a.allocatePages .allocateMaxAddress .bootServicesData 64 (2 ^ 64 - 1)) :=
    takesHighest_of_found hl hcan (by decide) (by decide) (by decide) (by decide) (fun v hv => hv.1)
      (findAllocationMaxAddress_found hl hcan (by decide) (2 ^ 64 - 1))
  rcases htakes with ⟨-, hfail⟩ | ⟨base', hbest, ⟨-, a', hok⟩ | ⟨-, hfail⟩⟩
  · exact .inr ⟨_, hfail⟩
  · exact .inl ⟨base', a', hok, hbest⟩
  · exact .inr ⟨_, hfail⟩

/-- The copy that is made in pages of the pool. -/
theorem copied_of_highest {a : PageAllocator} (haligned : base % 4096 = 0) (hsound : Sound a)
    (hwindow : ∀ p, InRange base 64 p → ¬ Pool a p) {base' : Nat}
    (hbest : IsGreatest {v | HostsRun a.pageMap 64 v ∧ v + 64 * 4096 - 1 ≤ 2 ^ 64 - 1} base') :
    Copied a base m base' (store m base' (load m base firmwareWindow)) := by
  obtain ⟨⟨⟨hmod, hpages⟩, hlimit⟩, hhighest⟩ := hbest
  have hfree : ∀ p, InRange base' 64 p → Pool a p := fun p hp => hpages p hp.1 hp.2
  have hlength : (load m base firmwareWindow).length = 64 * 4096 := load_length _ _ _
  have hwindowSize : firmwareWindow = 64 * 4096 := rfl
  refine ⟨hmod, ?_, hfree, ?_, ?_, ?_, frame_store hmod (Nat.le_of_eq hlength) hfree⟩
  · rw [hwindowSize]
    omega
  · intro start hruns
    -- a run ends below the last address, as every page of the map does
    have hlast := pool_lt hsound (hruns.2 (start / 4096 + 63) (by omega) (by omega))
    have hmodStart := hruns.1
    refine hhighest ⟨hruns, ?_⟩
    omega
  · rw [hwindowSize]
    by_contra hover
    have hcommon : ∃ p, InRange base' 64 p ∧ InRange base 64 p := by
      refine ⟨max (base / 4096) (base' / 4096), ?_, ?_⟩
      · unfold InRange
        omega
      · unfold InRange
        omega
    obtain ⟨p, hnew, hold⟩ := hcommon
    exact hwindow p hold (hfree p hnew)
  · have hload := load_store m base' (load m base firmwareWindow)
    rw [load_length] at hload
    exact hload

/-- **`try_relocate_firmware`** makes that copy and enters it if there is room, and does
    nothing otherwise. -/
theorem tryRelocateFirmware_spec (image : LinkedImage) (haligned : base % 4096 = 0)
    (bootHart entryStack : Nat) :
    (relocationTarget image base deviceTree (blobAt m deviceTree) = none →
        tryRelocateFirmware image base bootHart deviceTree entryStack m = (.ok none, m))
      ∧ ∀ base', relocationTarget image base deviceTree (blobAt m deviceTree) = some base' →
        ∃ a m', pageAllocatorFromLiveFdt (image.layoutAt base) deviceTree (blobAt m deviceTree) 8 16
            (List.replicate 32 emptyDescriptor) = some a
          ∧ Copied a base m base' m'
          ∧ tryRelocateFirmware image base bootHart deviceTree entryStack m
            = (.ok (some { pc := base' + image.relocatedEntry, a0 := bootHart, a1 := deviceTree,
                           a2 := entryStack }), m') := by
  unfold tryRelocateFirmware relocationTarget
  cases hbuild : pageAllocatorFromLiveFdt (image.layoutAt base) deviceTree (blobAt m deviceTree) 8 16
      (List.replicate 32 emptyDescriptor) with
  | none => exact ⟨fun _ => rfl, fun base' htarget => (by cases htarget)⟩
  | some a =>
      have hbuilt : Built a := by
        obtain ⟨fdt, -, hmap⟩ := pageAllocatorFromLiveFdt_eq_some hbuild
        exact .inr ⟨_, _, _, _, _, hmap⟩
      have hpages : (firmwareWindow + (efiPageSize - 1)) / efiPageSize = 64 := by decide
      dsimp only
      rw [hpages]
      rcases allocateMaxAddress_highest hbuilt with ⟨target, a', halloc, hbest⟩ | ⟨e, halloc⟩
      · rw [halloc]
        refine ⟨fun htarget => (by cases htarget), fun base' htarget => ?_⟩
        obtain rfl : target = base' := Option.some.inj htarget
        have hcopied : Copied a base m target (store m target (load m base firmwareWindow)) :=
          copied_of_highest haligned hbuilt.sound.1
            (fun p hp => window_not_in_pool haligned hbuild hp) hbest
        have henter : enterRelocatedCopy image target bootHart deviceTree entryStack
            = .ok { pc := target + image.relocatedEntry, a0 := bootHart, a1 := deviceTree,
                    a2 := entryStack } := by
          have hbelow := hcopied.below
          have hentry := image.entry_lt
          have hdata := image.data_le
          have hfits := image.data_fits
          unfold enterRelocatedCopy
          rw [addWord_ok (by omega)]
          rfl
        refine ⟨a, _, rfl, hcopied, ?_⟩
        dsimp only
        rw [henter]
      · rw [halloc]
        exact ⟨fun _ => rfl, fun base' htarget => (by cases htarget)⟩

end Relocation

/-! ## §5. The whole way. -/

/-- **What the firmware has done to memory** by the time it leaves the machine to a kernel
    or switches it off: the code of the copy that runs stands at `base'`, and outside of
    the memory that was free and of the window that was left nothing has changed. -/
structure Kept (image : LinkedImage) (a : PageAllocator) (m : Lib.Memory) (base' : Nat)
    (m' : Lib.Memory) : Prop where
  code  : load m' base' image.code.length = image.code
  frame : ∀ address, ¬ Pool a (address / 4096) →
    ¬ Within primaryFirmwareLoadAddress firmwareWindow address → m' address = m address

section PowerOn

variable {image : LinkedImage} {left : Nat → Nat → Lib.Memory} {bounds : Bounds}
  {drivers : List (Option BlockDevice)} {bootHart deviceTree entryStack : Nat} {m : Lib.Memory}
  {d : Dtb} {tree : Tree}

/-- The load address is a page address. -/
theorem primary_aligned : primaryFirmwareLoadAddress % 4096 = 0 := by decide

/-- The device tree stands where it was when the copy has been made. -/
theorem Copied.blob_eq {a : PageAllocator} {base base' : Nat} {m' : Lib.Memory}
    (h : Copied a base m base' m')
    (hbuild : pageAllocatorFromLiveFdt (image.layoutAt base) deviceTree (blobAt m deviceTree) 8 16
      (List.replicate 32 emptyDescriptor) = some a)
    (hlive : Dtb.fromPtr deviceTree (blobAt m deviceTree) = .ok d) :
    blobAt m' deviceTree = blobAt m deviceTree := by
  obtain ⟨-, -, hlarge, -, -, hblob⟩ := fromPtr_view hlive
  exact h.frame.blobAt_eq hblob hlarge (live_outside hbuild hlive).2

/-- The jump goes to the code of the copy. -/
theorem Copied.resident {a : PageAllocator} {base base' : Nat} {m' : Lib.Memory}
    (h : Copied a base m base' m') (hcode : load m base image.code.length = image.code) :
    load m' base' image.code.length = image.code := by
  have hdata := image.data_le
  have hfits := image.data_fits
  have hsame := congrArg (List.take image.code.length) h.same
  rw [load_take (by omega), load_take (by omega), hcode] at hsame
  exact hsame

/-- What the walk in the copy leaves. -/
theorem Copied.kept {a : PageAllocator} {base' : Nat} {m₁ m' : Lib.Memory}
    (h : Copied a primaryFirmwareLoadAddress m base' m₁)
    (hcode : load m primaryFirmwareLoadAddress image.code.length = image.code)
    (hbuild : pageAllocatorFromLiveFdt (image.layoutAt primaryFirmwareLoadAddress) deviceTree
      (blobAt m deviceTree) 8 16 (List.replicate 32 emptyDescriptor) = some a)
    (hblob : blobAt m₁ deviceTree = blobAt m deviceTree)
    (hwalk : Attempted (surroundingsAt image left bounds base') deviceTree m₁ m') :
    Kept image a m base' m' := by
  cases hbuild' : allocatorOf (surroundingsAt image left bounds base') deviceTree
      (blobAt m₁ deviceTree) with
  | none =>
      obtain rfl := hwalk.idle hbuild'
      exact ⟨h.resident hcode, fun address hout _ => h.frame address hout⟩
  | some a' =>
      have hframe := hwalk.frame a' hbuild'
      constructor
      · have hdata := image.data_le
        have hfits : image.dataEnd ≤ 64 * 4096 := image.data_fits
        have hout : Outside a' base' image.code.length :=
          outside_of_pages 64 h.aligned (by omega)
            (fun p hp => window_not_in_pool h.aligned hbuild' hp)
        rw [hframe.load_eq hout, h.resident hcode]
      · intro address hout hwindow
        rw [hframe address, h.frame address hout]
        intro hpool
        rw [hblob] at hbuild'
        rcases pool_of_moved primary_aligned hbuild hbuild' hpool with hfree | hin
        · exact hout hfree
        · refine hwindow ?_
          unfold InRange primaryFirmwareLoadAddress at hin
          unfold Within primaryFirmwareLoadAddress firmwareWindow
          omega

/-- The copy is at another place. -/
theorem Copied.moved {a : PageAllocator} {base base' : Nat} {m' : Lib.Memory}
    (h : Copied a base m base' m') : base' ≠ base := by
  intro heq
  have hapart := h.apart
  unfold firmwareWindow at hapart
  omega

/-- What becomes of the machine when the walk in the copy has come to this. -/
def fateOf : Checked (Option Registers) → Fate
  | .ok none             => .poweroff
  | .ok (some registers) => .kernel registers
  | .error .outOfFuel    => .endless
  | .error reason        => .panic reason

/-- **The two activations.**  Without room for a copy the first one ends it; otherwise the
    walk over the block devices in the copy decides, over the same device tree. -/
theorem powerOn_eq
    (hcode : load m primaryFirmwareLoadAddress image.code.length = image.code)
    (hlive : Dtb.fromPtr deviceTree (blobAt m deviceTree) = .ok d) (stackPointer activations : Nat) :
    (relocationTarget image primaryFirmwareLoadAddress deviceTree (blobAt m deviceTree) = none →
        powerOn image left bounds drivers stackPointer (activations + 2) primaryFirmwareLoadAddress
          bootHart deviceTree entryStack m = (.poweroff, m))
      ∧ ∀ base',
        relocationTarget image primaryFirmwareLoadAddress deviceTree (blobAt m deviceTree) = some base' →
        ∃ a m₁, pageAllocatorFromLiveFdt (image.layoutAt primaryFirmwareLoadAddress)
              deviceTree (blobAt m deviceTree) 8 16 (List.replicate 32 emptyDescriptor) = some a
          ∧ Copied a primaryFirmwareLoadAddress m base' m₁
          ∧ blobAt m₁ deviceTree = blobAt m deviceTree
          ∧ ∀ result m', probeVirtio (surroundingsAt image left bounds base') bootHart deviceTree drivers
                m₁ = (result, m') →
              powerOn image left bounds drivers stackPointer (activations + 2)
                primaryFirmwareLoadAddress bootHart deviceTree entryStack m = (fateOf result, m') := by
  have hprimary : runFirmware image left bounds drivers primaryFirmwareLoadAddress bootHart deviceTree
      entryStack m
      = match tryRelocateFirmware image primaryFirmwareLoadAddress bootHart deviceTree entryStack m with
        | (.error reason, memory)        => (.error reason, memory)
        | (.ok none, memory)             => (.ok .poweroff, memory)
        | (.ok (some registers), memory) => (.ok (.relocated registers), memory) := if_pos rfl
  obtain ⟨hnothing, hrelocates⟩ := @tryRelocateFirmware_spec primaryFirmwareLoadAddress deviceTree m
    image primary_aligned bootHart entryStack
  constructor
  · intro htarget
    rw [powerOn, hprimary, hnothing htarget]
  · intro base' htarget
    obtain ⟨a, m₁, hbuild, hcopied, hrelocated⟩ := hrelocates base' htarget
    refine ⟨a, m₁, hbuild, hcopied, hcopied.blob_eq hbuild hlive, ?_⟩
    intro result m' hwalk
    -- the first activation jumps into the copy, which is not at the load address
    have hjump : powerOn image left bounds drivers stackPointer (activations + 2)
        primaryFirmwareLoadAddress bootHart deviceTree entryStack m
        = powerOn image left bounds drivers stackPointer (activations + 1) base' bootHart deviceTree
            stackPointer m₁ := by
      rw [powerOn, hprimary, hrelocated]
      dsimp only
      rw [Nat.add_sub_cancel, if_pos (hcopied.resident hcode)]
    have hcopy : runFirmware image left bounds drivers base' bootHart deviceTree stackPointer m₁
        = match probeVirtio (surroundingsAt image left bounds base') bootHart deviceTree drivers m₁ with
          | (.error reason, memory)        => (.error reason, memory)
          | (.ok none, memory)             => (.ok .poweroff, memory)
          | (.ok (some registers), memory) => (.ok (.handedOver registers), memory) :=
      if_neg hcopied.moved
    rw [hjump, powerOn, hcopy, hwalk]
    cases result with
    | error reason => cases reason <;> rfl
    | ok result =>
        cases result with
        | none => rfl
        | some registers => rfl

/-- **From the load address on**, with the code of the image there.  Without room for a copy
    the machine is switched off with its memory as it was.  Otherwise the image is copied,
    and it is the copy that boots the first bootable partition it finds, or switches the
    machine off if there is none, or goes on at a partition on which a search does.  Two
    activations are enough for that. -/
theorem powerOn_boots
    (hcode : load m primaryFirmwareLoadAddress image.code.length = image.code)
    (hlive : Dtb.fromPtr deviceTree (blobAt m deviceTree) = .ok d) (hbootable : Bootable d tree)
    (stackPointer activations : Nat) :
    (relocationTarget image primaryFirmwareLoadAddress deviceTree (blobAt m deviceTree) = none →
        powerOn image left bounds drivers stackPointer (activations + 2) primaryFirmwareLoadAddress
          bootHart deviceTree entryStack m = (.poweroff, m))
      ∧ ∀ base',
        relocationTarget image primaryFirmwareLoadAddress deviceTree (blobAt m deviceTree) = some base' →
        ∃ a m₁ fate m', pageAllocatorFromLiveFdt (image.layoutAt primaryFirmwareLoadAddress)
              deviceTree (blobAt m deviceTree) 8 16 (List.replicate 32 emptyDescriptor) = some a
          ∧ Copied a primaryFirmwareLoadAddress m base' m₁
          ∧ powerOn image left bounds drivers stackPointer (activations + 2)
              primaryFirmwareLoadAddress bootHart deviceTree entryStack m = (fate, m')
          ∧ Kept image a m base' m'
          ∧ (∀ flagged, firstStop (surroundingsAt image left bounds base') deviceTree
                (blobAt m deviceTree) drivers = some flagged →
              (flagged.stalls (surroundingsAt image left bounds base') deviceTree
                  (blobAt m deviceTree) = true → fate = .endless)
              ∧ (flagged.stalls (surroundingsAt image left bounds base') deviceTree
                  (blobAt m deviceTree) = false →
                ∃ registers, fate = .kernel registers
                  ∧ Booted (flagged.Has bounds) tree flagged.blockDeviceIndex flagged.partitionNumber
                      bootHart registers m'))
          ∧ (firstStop (surroundingsAt image left bounds base') deviceTree
                (blobAt m deviceTree) drivers = none → fate = .poweroff)
          ∧ ((∀ flagged ∈ flaggedPartitions 0 drivers, flagged.SearchesEnd bounds) →
              fate ≠ .endless) := by
  obtain ⟨hnothing, hcopies⟩ := @powerOn_eq image left bounds drivers bootHart deviceTree entryStack m d
    hcode hlive stackPointer activations
  refine ⟨hnothing, fun base' htarget => ?_⟩
  obtain ⟨a, m₁, hbuild, hcopied, hblob, hrun⟩ := hcopies base' htarget
  have hlive₁ : Dtb.fromPtr deviceTree (blobAt m₁ deviceTree) = .ok d := hblob ▸ hlive
  obtain ⟨result, m', hwalk⟩ : ∃ result m', probeVirtio (surroundingsAt image left bounds base')
      bootHart deviceTree drivers m₁ = (result, m') := ⟨_, _, rfl⟩
  have hends := probeVirtio_ends hlive₁ hbootable hwalk
  obtain ⟨hattempted, hstalled, hbooted, hreturned⟩ := id hends
  rw [hblob] at hstalled hbooted hreturned
  refine ⟨a, m₁, fateOf result, m', hbuild, hcopied, hrun result m' hwalk,
    hcopied.kept hcode hbuild hblob hattempted, fun flagged hfirst => ⟨?_, ?_⟩, ?_, ?_⟩
  · intro hstalls
    exact congrArg fateOf (hstalled flagged hfirst hstalls)
  · intro hstalls
    obtain ⟨registers, hresult, hbooted⟩ := hbooted flagged hfirst hstalls
    exact ⟨registers, congrArg fateOf hresult, hbooted⟩
  · intro hfirst
    exact congrArg fateOf (hreturned hfirst)
  · intro hsearches hfate
    obtain ⟨registers, rfl⟩ := hends.ok_of_searchesEnd hsearches
    cases registers with
    | none => cases hfate
    | some registers => cases hfate

end PowerOn

/-! ## §6. A machine with 4 MiB of RAM. -/

/-- The nodes below the root of its device tree. -/
def wideItems : Items :=
  Items.child (ascii "memory")
    (Items.property 0 (be32 0 ++ be32 0x80000000 ++ be32 0x400000) .nil) .nil

def wideImage : Image where
  offMemRsvmap    := 40
  version         := 17
  lastCompVersion := 16
  bootCpuid       := 0
  reserved        := List.replicate 16 0
  structureBlock  := nops 0 ++ (nodeHead [] [0, 0, 0] ++ (wideItems.flat
    ++ (be32 fdtEndNode ++ (nops 0 ++ be32 fdtEnd))))
  gap             := []
  strings         := ascii "reg" ++ [0]
  free            := []

def wideDtb : Dtb where
  pointer := 0x80008000
  blob    := wideImage.bytes
  size    := wideImage.totalSize

def wideTree : Tree where
  reserveMap := []
  rootName   := []
  contents   := .node (ascii "memory")
    (.prop (some (ascii "reg")) (be32 0 ++ be32 0x80000000 ++ be32 0x400000) .nil) .nil

theorem wideDtb_shows : wideDtb.Shows wideImage :=
  ⟨rfl, rfl, by decide +kernel, by decide +kernel⟩

theorem wideDtb_bootable : Bootable wideDtb wideTree := by
  have hmap : (wideImage.fdt 0x80008000).ReserveMap [] :=
    ⟨fun index entry h => by simp at h, by decide +kernel⟩
  have hh : wideImage.Holds 0x80008000 wideTree wideItems [0, 0, 0] 0 0 := by
    refine ⟨by decide, hmap, by decide, by decide, ?_, by decide +kernel, rfl⟩
    refine ⟨by decide, by decide, ⟨by decide, by decide, by decide, trivial⟩, trivial⟩
  refine ⟨hh.decodes wideDtb_shows, ⟨?_, ?_, ?_⟩, ?_, ?_, ?_⟩
  · exact ⟨trivial, trivial, trivial⟩
  · exact ⟨⟨rfl, trivial⟩, trivial⟩
  · intro fdt hview
    rw [wideDtb_shows.fdtView] at hview
    cases hview
    show Terminated (ascii "reg" ++ [0])
    exact ⟨.inr (by decide), by decide⟩
  · rw [wideDtb_shows.offMemRsvmap]
    exact Nat.le_refl 40
  · have hroot : ((wideImage.fdt 0x80008000).rootNode).isSome = true := by decide +kernel
    obtain ⟨root, hroot⟩ := Option.isSome_iff_exists.mp hroot
    exact ⟨_, root, wideDtb_shows.fdtView, hroot⟩
  · intro name _ old hold
    cases hold

/-- An image of two instructions, with its second entry at the second one. -/
def tinyImage : LinkedImage where
  code           := [0x13, 0, 0, 0, 0x13, 0, 0, 0]
  dataEnd        := 64
  relocatedEntry := 4
  entry_lt       := by decide
  data_le        := by decide
  data_fits      := by decide

/-- The image and the device tree where the machine has put them. -/
def wideMemory : Lib.Memory :=
  store (store (fun _ => 0) 0x80008000 wideImage.bytes) primaryFirmwareLoadAddress tinyImage.code

theorem blobAt_wideMemory : blobAt wideMemory 0x80008000 = wideImage.bytes := by decide +kernel

theorem wideMemory_live : Dtb.fromPtr 0x80008000 (blobAt wideMemory 0x80008000) = .ok wideDtb := by
  rw [blobAt_wideMemory]
  decide +kernel

/-- The copy goes to the end of the RAM. -/
theorem relocationTarget_wide :
    relocationTarget tinyImage primaryFirmwareLoadAddress 0x80008000 wideImage.bytes
      = some 0x803c0000 := by
  decide +kernel

set_option maxRecDepth 20000 in
/-- And finds the disk. -/
theorem wide_found :
    (firstStop (surroundingsAt tinyImage (fun _ _ _ => 0) ⟨1, 6⟩ 0x803c0000) 0x80008000
      wideImage.bytes [none, some bootDisk]).map (fun flagged => flagged.stalls
        (surroundingsAt tinyImage (fun _ _ _ => 0) ⟨1, 6⟩ 0x803c0000) 0x80008000 wideImage.bytes)
      = some false := by
  decide +kernel

theorem powerOn_boots_example :
    ∃ registers m', powerOn tinyImage (fun _ _ _ => 0) ⟨1, 6⟩ [none, some bootDisk] 0 2
        primaryFirmwareLoadAddress 3 0x80008000 0 wideMemory = (.kernel registers, m')
      ∧ registers.a0 = 3 ∧ registers.pc % (2 * 1024 * 1024) = 0 := by
  obtain ⟨-, hcopied⟩ := @powerOn_boots tinyImage (fun _ _ _ => 0) ⟨1, 6⟩ [none, some bootDisk] 3
    0x80008000 0 wideMemory wideDtb wideTree (by decide +kernel) wideMemory_live wideDtb_bootable 0 0
  obtain ⟨flagged, hfirst, hends⟩ := Option.map_eq_some_iff.mp wide_found
  obtain ⟨a, m₁, fate, m', -, -, hrun, -, hboots, -⟩ := hcopied 0x803c0000
    (by rw [blobAt_wideMemory]; exact relocationTarget_wide)
  rw [blobAt_wideMemory] at hboots
  obtain ⟨registers, rfl, hbooted⟩ := (hboots flagged hfirst).2 hends
  exact ⟨registers, m', hrun, hbooted.hart, hbooted.aligned⟩

end RustFirmware.InMemory
