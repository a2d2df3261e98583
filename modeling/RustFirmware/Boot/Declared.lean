/-
  RustFirmware.Boot.Declared
  ──────────────────────────
  **THE MEMORY THAT THE DEVICE TREE DECLARES, BEFORE AND AFTER THE BOOT.**

  The firmware is told about memory by one device tree and tells the kernel by another.

      §1   every byte it writes is RAM that the first tree declares and that neither that
           tree nor the firmware keeps for something else
      §2   the second tree is well-formed where the kernel finds it, and says of memory
           what the first one says

  Both hold from the load address to the jump, whatever is on the block devices.
-/
import RustFirmware.DeviceTree.Ranges
import RustFirmware.Boot.Firmware

namespace RustFirmware.InMemory

open RustFirmware.Lib
open RustFirmware.DeviceTree
open RustFirmware.Memory
open RustFirmware.Virtio (BlockDevice)
open RustFirmware.Boot (Pool chosenTree initrdTree)

/-! ## §1. What is written. -/

/-- The byte is in the region. -/
def Covers (region : MemoryRegion) (address : Nat) : Prop :=
  Within region.base region.size address

/-- **A byte that the tree declares and does not keep**: it is RAM, in no static reservation,
    and in none of the first `reservedCapacity` entries of the reserve map. -/
structure Spare (tree : Tree) (reservedCapacity address : Nat) : Prop where
  ram      : ∃ region ∈ tree.memoryRanges, Covers region address
  mapped   : ∀ region ∈ tree.mappedRanges.take reservedCapacity, ¬ Covers region address
  reserved : ∀ region ∈ tree.staticRanges, ¬ Covers region.1 address

/-- A region touches the page of each of its bytes. -/
theorem Covers.touches {region : MemoryRegion} {address : Nat} (h : Covers region address) :
    region.Touches (address / 4096) := by
  obtain ⟨hlow, hhigh⟩ := h
  refine MemoryRegion.Overlaps.touches ⟨?_, ?_, ?_⟩
  · omega
  · omega
  · omega

/-- A page of RAM lies in one of the ranges. -/
theorem covers_of_ramPage {regions : List MemoryRegion} {address : Nat}
    (h : RamPage regions (address / 4096)) : ∃ region ∈ regions, Covers region address := by
  obtain ⟨s, hs, hlt⟩ := h
  obtain ⟨hmem, hle⟩ := lastStart_mem hs
  obtain ⟨region, hregion, hlow, hhigh⟩ := (seedOrder_has_iff regions _).mp ⟨s, hmem, hle, hlt⟩
  refine ⟨region, hregion, ?_⟩
  unfold Covers Within
  omega

section Declared

variable {m : Lib.Memory} {deviceTree : Nat} {d : Dtb} {tree : Tree}

/-- The reader's view of the live tree. -/
theorem Bootable.live_view (hbootable : Bootable d tree)
    (hlive : Dtb.fromPtr deviceTree (blobAt m deviceTree) = .ok d) :
    ∃ fdt root, Fdt.fromPtr deviceTree (blobAt m deviceTree) = .ok fdt ∧ d.fdtView = .ok fdt
      ∧ fdt.rootNode = some root ∧ fdt.ReserveMap tree.reserveMap
      ∧ fdt.Parses tree.rootName tree.contents := by
  obtain ⟨fdt, root, hview, hroot⟩ := hbootable.root
  obtain ⟨fdt', hview', hmap, hparse⟩ := hbootable.decodes.view
  obtain rfl : fdt = fdt' := Except.ok.inj (hview.symm.trans hview')
  refine ⟨fdt, root, ?_, hview, hroot, hmap, hparse⟩
  obtain ⟨-, hpointer, -, hblob, -, hload⟩ := fromPtr_view hlive
  have hfdt := Dtb.fdtView_eq_ok.mp hview
  have hbytes : d.blob = blobAt m deviceTree := by
    rw [hload, ← hpointer]
    exact (congrArg Dtb.blob hblob).symm
  rwa [hpointer, hbytes] at hfdt

/-- **The conventional memory of an allocator that is built from the tree.** -/
theorem spare_of_pool (hbootable : Bootable d tree)
    (hlive : Dtb.fromPtr deviceTree (blobAt m deviceTree) = .ok d) {firmware : FirmwareLayout}
    {memoryCapacity reservedCapacity : Nat} {buffer : List EfiMemoryDescriptor} {a : PageAllocator}
    (hbuild : pageAllocatorFromLiveFdt firmware deviceTree (blobAt m deviceTree) memoryCapacity
      reservedCapacity buffer = some a) {address : Nat} (hpool : Pool a (address / 4096)) :
    Spare tree reservedCapacity address := by
  obtain ⟨fdt, root, hfdt, -, hroot, hmap, hparse⟩ := hbootable.live_view hlive
  obtain ⟨fdt', hfdt', hbuilt⟩ := pageAllocatorFromLiveFdt_eq_some hbuild
  obtain rfl : fdt = fdt' := Except.ok.inj (hfdt.symm.trans hfdt')
  obtain ⟨hram, hcarved, -⟩ := (fromFdt_conventional_iff hbuilt (address / 4096)).mp hpool
  rw [memoryRegions_eq hparse hroot] at hram
  constructor
  · obtain ⟨region, hregion, hcovers⟩ := covers_of_ramPage hram
    exact ⟨region, List.mem_of_mem_take hregion, hcovers⟩
  · intro region hregion hcovers
    rw [← reserveMapRegions_eq hmap] at hregion
    refine hcarved (region, .reservedMemoryType) ?_ hcovers.touches
    exact List.mem_append_left _ (List.mem_cons_of_mem _ (List.mem_map_of_mem hregion))
  · intro region hregion hcovers
    rw [← staticRegions_eq hparse hroot] at hregion
    exact hcarved _ (List.mem_append_right _ (List.mem_map_of_mem hregion)) hcovers.touches

variable {image : LinkedImage} {left : Nat → Nat → Lib.Memory} {bounds : Bounds}
  {drivers : List (Option BlockDevice)} {bootHart entryStack : Nat}

/-- **What the firmware writes on its way**: RAM that the tree declares and does not keep, and
    nothing of the tree itself.  The copy may also use the window that it has left. -/
theorem powerOn_writes_spare
    (hcode : load m primaryFirmwareLoadAddress image.code.length = image.code)
    (hlive : Dtb.fromPtr deviceTree (blobAt m deviceTree) = .ok d) (hbootable : Bootable d tree)
    (stackPointer activations : Nat) {fate : Fate} {m' : Lib.Memory}
    (hrun : powerOn image left bounds drivers stackPointer (activations + 2) primaryFirmwareLoadAddress
      bootHart deviceTree entryStack m = (fate, m'))
    {address : Nat} (hwritten : m' address ≠ m address)
    (hwindow : ¬ Within primaryFirmwareLoadAddress firmwareWindow address) :
    Spare tree 16 address ∧ ¬ Within deviceTree d.size address := by
  obtain ⟨hnothing, hcopies⟩ := @powerOn_eq image left bounds drivers bootHart deviceTree entryStack m d
    hcode hlive stackPointer activations
  cases htarget : relocationTarget image primaryFirmwareLoadAddress deviceTree
      (blobAt m deviceTree) with
  | none =>
      -- the machine is switched off as it was
      obtain ⟨-, rfl⟩ := Prod.mk.inj ((hnothing htarget).symm.trans hrun)
      exact absurd rfl hwritten
  | some base' =>
      obtain ⟨a, m₁, hbuild, hcopied, hblob, hwalks⟩ := hcopies base' htarget
      have hlive₁ : Dtb.fromPtr deviceTree (blobAt m₁ deviceTree) = .ok d := hblob ▸ hlive
      have hattempted : Attempted (surroundingsAt image left bounds base') deviceTree m₁
          (probeVirtio (surroundingsAt image left bounds base') bootHart deviceTree drivers m₁).2 :=
        probeVirtio_attempted hlive₁ hbootable bootHart drivers
      obtain ⟨-, rfl⟩ := Prod.mk.inj ((hwalks _ _ rfl).symm.trans hrun)
      have hpool : Pool a (address / 4096) := by
        by_contra hnot
        exact hwritten ((hcopied.kept hcode hbuild hblob hattempted).frame address hnot hwindow)
      exact ⟨spare_of_pool hbootable hlive hbuild hpool,
        fun hin => (live_outside hbuild hlive).2 address hin hpool⟩

end Declared

/-! ## §2. What the kernel is told. -/

/-- `/chosen` is filled in, and nothing else is. -/
theorem chosenTree_sameBut (tree : Tree) (initrd : Option Boot.LoadedFile) (commandLine : Bytes) :
    tree.SameBut (ascii "chosen") (chosenTree tree initrd commandLine) := by
  have hadded := Tree.sameBut_addMissing tree (ascii "chosen") []
  have hranged : tree.SameBut (ascii "chosen") (initrdTree (tree.addMissing [ascii "chosen"]) initrd) := by
    cases initrd with
    | none => exact hadded
    | some file =>
        exact (hadded.trans (Tree.sameBut_setProperty _ _ _ _ _)).trans
          (Tree.sameBut_setProperty _ _ _ _ _)
  exact hranged.trans (Tree.sameBut_setProperty _ _ _ _ _)

/-- **Two blobs say the same of memory**: every reader finds the same regions. -/
structure SameMemory (fdt fdt' : Fdt) : Prop where
  memory   : ∀ capacity, memoryRegions fdt' capacity = memoryRegions fdt capacity
  mapped   : ∀ capacity, reserveMapRegions fdt' capacity = reserveMapRegions fdt capacity
  reserved : ∀ capacity, reservedRegions fdt' capacity = reservedRegions fdt capacity
  static   : staticRegions fdt' = staticRegions fdt

/-- Encodings of trees with the same memory. -/
theorem sameMemory_of_trees {fdt fdt' : Fdt} {root root' : FdtNode} {tree tree' : Tree}
    (hmap : fdt.ReserveMap tree.reserveMap) (hparse : fdt.Parses tree.rootName tree.contents)
    (hroot : fdt.rootNode = some root) (hmap' : fdt'.ReserveMap tree'.reserveMap)
    (hparse' : fdt'.Parses tree'.rootName tree'.contents) (hroot' : fdt'.rootNode = some root')
    (hsame : tree'.memoryRanges = tree.memoryRanges ∧ tree'.mappedRanges = tree.mappedRanges
      ∧ tree'.staticRanges = tree.staticRanges) : SameMemory fdt fdt' := by
  obtain ⟨hram, hmapped, hstatic⟩ := hsame
  constructor
  · intro capacity
    rw [memoryRegions_eq hparse' hroot', memoryRegions_eq hparse hroot, hram]
  · intro capacity
    rw [reserveMapRegions_eq hmap', reserveMapRegions_eq hmap, hmapped]
  · intro capacity
    rw [reservedRegions_eq hmap' hparse' hroot', reservedRegions_eq hmap hparse hroot, hmapped, hstatic]
  · rw [staticRegions_eq hparse' hroot', staticRegions_eq hparse hroot, hstatic]

section Told

variable {m m' : Lib.Memory} {deviceTree : Nat} {d : Dtb} {tree : Tree} {image : LinkedImage}
  {left : Nat → Nat → Lib.Memory} {bounds : Bounds} {drivers : List (Option BlockDevice)}
  {bootHart entryStack : Nat}

/-- The tree of a booted kernel, where the kernel finds it. -/
theorem Booted.live {has : Bytes → Bytes → Prop} {blockDeviceIndex partitionNumber : Nat}
    {registers : Registers}
    (h : Booted has tree blockDeviceIndex partitionNumber bootHart registers m') :
    ∃ d' initrd commandLine, Dtb.fromPtr registers.a1 (blobAt m' registers.a1) = .ok d'
      ∧ Bootable d' (chosenTree tree initrd commandLine) := by
  obtain ⟨size, initrd, commandLine, -, hbootable, -⟩ := h.deviceTree
  obtain ⟨fdt, hview, -⟩ := hbootable.decodes.view
  refine ⟨_, initrd, commandLine, fromPtr_of_view hview ?_, hbootable⟩
  rw [hbootable.decodes.total_eq, ← hbootable.decodes.size_eq]
  rfl

/-- A walk that boots a kernel boots one from a partition. -/
theorem booted_of_walk {around : Surroundings} {deviceTreePtr : Nat}
    (hlive : Dtb.fromPtr deviceTreePtr (blobAt m deviceTreePtr) = .ok d) (hbootable : Bootable d tree)
    {registers : Registers}
    (hwalk : probeVirtio around bootHart deviceTreePtr drivers m = (.ok (some registers), m')) :
    ∃ flagged : FlaggedPartition, Booted (flagged.Has around.bounds) tree flagged.blockDeviceIndex
      flagged.partitionNumber bootHart registers m' := by
  have hends := probeVirtio_ends hlive hbootable hwalk
  cases hfirst : firstStop around deviceTreePtr (blobAt m deviceTreePtr) drivers with
  | none => cases hends.returned hfirst
  | some flagged =>
      cases hstalls : flagged.stalls around deviceTreePtr (blobAt m deviceTreePtr) with
      | true => cases hends.stalled flagged hfirst hstalls
      | false =>
          obtain ⟨registers', hregisters, hbooted⟩ := hends.booted flagged hfirst hstalls
          cases hregisters
          exact ⟨flagged, hbooted⟩

/-- **What the firmware tells the kernel.**  The tree at `a1` is accepted where it is, and is
    well-formed enough to be booted from in its turn; it is the tree that the firmware was
    given with `/chosen` filled in, and every reader of memory finds the same regions in both. -/
theorem powerOn_tells_memory
    (hcode : load m primaryFirmwareLoadAddress image.code.length = image.code)
    (hlive : Dtb.fromPtr deviceTree (blobAt m deviceTree) = .ok d) (hbootable : Bootable d tree)
    (stackPointer activations : Nat) {registers : Registers}
    (hrun : powerOn image left bounds drivers stackPointer (activations + 2) primaryFirmwareLoadAddress
      bootHart deviceTree entryStack m = (.kernel registers, m')) :
    ∃ d' initrd commandLine fdt fdt',
      Dtb.fromPtr registers.a1 (blobAt m' registers.a1) = .ok d'
        ∧ Bootable d' (chosenTree tree initrd commandLine)
        ∧ Fdt.fromPtr deviceTree (blobAt m deviceTree) = .ok fdt
        ∧ Fdt.fromPtr registers.a1 (blobAt m' registers.a1) = .ok fdt'
        ∧ SameMemory fdt fdt' := by
  obtain ⟨hnothing, hcopies⟩ := @powerOn_eq image left bounds drivers bootHart deviceTree entryStack m d
    hcode hlive stackPointer activations
  cases htarget : relocationTarget image primaryFirmwareLoadAddress deviceTree
      (blobAt m deviceTree) with
  | none => cases (Prod.mk.inj ((hnothing htarget).symm.trans hrun)).1
  | some base' =>
      obtain ⟨a, m₁, hbuild, hcopied, hblob, hwalks⟩ := hcopies base' htarget
      have hlive₁ : Dtb.fromPtr deviceTree (blobAt m₁ deviceTree) = .ok d := hblob ▸ hlive
      obtain ⟨result, m₂, hwalk⟩ : ∃ result m₂, probeVirtio
          (surroundingsAt image left bounds base') bootHart deviceTree drivers m₁ = (result, m₂) :=
        ⟨_, _, rfl⟩
      obtain ⟨hfate, rfl⟩ := Prod.mk.inj ((hwalks result m₂ hwalk).symm.trans hrun)
      cases result with
      | error reason => cases reason <;> cases hfate
      | ok result =>
      cases result with
      | none => cases hfate
      | some registers' =>
          cases hfate
          obtain ⟨flagged, hbooted⟩ := booted_of_walk hlive₁ hbootable hwalk
          obtain ⟨d', initrd, commandLine, hlive', hbootable'⟩ := hbooted.live
          obtain ⟨fdt, root, hfdt, -, hroot, hmap, hparse⟩ := hbootable.live_view hlive
          obtain ⟨fdt', root', hfdt', -, hroot', hmap', hparse'⟩ := hbootable'.live_view hlive'
          refine ⟨d', initrd, commandLine, fdt, fdt', hlive', hbootable', hfdt, hfdt', ?_⟩
          exact sameMemory_of_trees hmap hparse hroot hmap' hparse' hroot'
            ((chosenTree_sameBut tree initrd commandLine).memory (by decide) (by decide))

end Told

/-! ## §3. On the machine with 4 MiB of RAM. -/

/-- It boots, and the code of the firmware is at the end of the RAM. -/
theorem wide_runs :
    ∃ registers m', powerOn tinyImage (fun _ _ _ => 0) ⟨1, 6⟩ [none, some bootDisk] 0 2
        primaryFirmwareLoadAddress 3 0x80008000 0 wideMemory = (.kernel registers, m')
      ∧ load m' 0x803c0000 tinyImage.code.length = tinyImage.code := by
  have hcode : load wideMemory primaryFirmwareLoadAddress tinyImage.code.length = tinyImage.code := by
    decide +kernel
  obtain ⟨-, hcopies⟩ := @powerOn_eq tinyImage (fun _ _ _ => 0) ⟨1, 6⟩ [none, some bootDisk] 3
    0x80008000 0 wideMemory wideDtb hcode wideMemory_live 0 0
  obtain ⟨a, m₁, hbuild, hcopied, hblob, hwalks⟩ := hcopies 0x803c0000
    (by rw [blobAt_wideMemory]; exact relocationTarget_wide)
  have hlive₁ : Dtb.fromPtr 0x80008000 (blobAt m₁ 0x80008000) = .ok wideDtb := by
    rw [hblob]
    exact wideMemory_live
  obtain ⟨flagged, hfirst, hends⟩ := Option.map_eq_some_iff.mp wide_found
  rw [← blobAt_wideMemory, ← hblob] at hfirst hends
  obtain ⟨registers, m', hwalk, -⟩ := @probeVirtio_of_boots
    (surroundingsAt tinyImage (fun _ _ _ => 0) ⟨1, 6⟩ 0x803c0000) 0x80008000 m₁ wideDtb wideTree hlive₁
    wideDtb_bootable 3 [none, some bootDisk] flagged hfirst hends
  have hattempted : Attempted (surroundingsAt tinyImage (fun _ _ _ => 0) ⟨1, 6⟩ 0x803c0000) 0x80008000
      m₁ (probeVirtio (surroundingsAt tinyImage (fun _ _ _ => 0) ⟨1, 6⟩ 0x803c0000) 3 0x80008000
        [none, some bootDisk] m₁).2 :=
    probeVirtio_attempted hlive₁ wideDtb_bootable 3 [none, some bootDisk]
  rw [hwalk] at hattempted
  exact ⟨registers, m', hwalks _ _ hwalk, (hcopied.kept hcode hbuild hblob hattempted).code⟩

/-- The copy is written into spare RAM. -/
theorem powerOn_writes_spare_example :
    ∃ fate m', powerOn tinyImage (fun _ _ _ => 0) ⟨1, 6⟩ [none, some bootDisk] 0 2
        primaryFirmwareLoadAddress 3 0x80008000 0 wideMemory = (fate, m')
      ∧ m' 0x803c0000 ≠ wideMemory 0x803c0000
      ∧ Spare wideTree 16 0x803c0000 ∧ ¬ Within 0x80008000 wideDtb.size 0x803c0000 := by
  obtain ⟨registers, m', hrun, hcopy⟩ := wide_runs
  have hwritten : m' 0x803c0000 ≠ wideMemory 0x803c0000 := by
    have hbyte : m' 0x803c0000 = 0x13 := (List.cons.inj hcopy).1
    rw [hbyte]
    decide +kernel
  exact ⟨_, m', hrun, hwritten, powerOn_writes_spare (by decide +kernel) wideMemory_live
    wideDtb_bootable 0 0 hrun hwritten (by unfold Within; decide)⟩

theorem powerOn_tells_memory_example :
    ∃ registers m' fdt fdt', powerOn tinyImage (fun _ _ _ => 0) ⟨1, 6⟩ [none, some bootDisk] 0 2
        primaryFirmwareLoadAddress 3 0x80008000 0 wideMemory = (.kernel registers, m')
      ∧ Fdt.fromPtr 0x80008000 (blobAt wideMemory 0x80008000) = .ok fdt
      ∧ Fdt.fromPtr registers.a1 (blobAt m' registers.a1) = .ok fdt' ∧ SameMemory fdt fdt' := by
  obtain ⟨registers, m', hrun, -⟩ := wide_runs
  obtain ⟨-, -, -, fdt, fdt', -, -, hfdt, hfdt', hsame⟩ := powerOn_tells_memory (by decide +kernel)
    wideMemory_live wideDtb_bootable 0 0 hrun
  exact ⟨registers, m', fdt, fdt', hrun, hfdt, hfdt', hsame⟩

end RustFirmware.InMemory
