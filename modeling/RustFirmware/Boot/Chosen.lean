/-
  RustFirmware.Boot.Chosen
  ────────────────────────
  **THE LINUX BOOT REQUEST: CLONE THE DEVICE TREE, THEN FILL IN `/chosen`.**

  `boot` checks the file types and clones the tree with 8 KiB to spare;
  `update_device_tree` creates `/chosen` and sets up to three properties in the
  clone, each edit moving the offsets that the next one uses.  `Ready` is the
  invariant of that chain: the blob decodes, `/chosen` resolves, and no more than
  `spent` bytes of the head room are used.

  All four edits together take less than 400 bytes, so the head room is enough.
-/
import RustFirmware.Boot.Linux
import RustFirmware.DeviceTree.CreateStep

namespace RustFirmware.Boot

open RustFirmware.Lib
open RustFirmware.Memory
open RustFirmware.DeviceTree

/-! ## §1. The request. -/

/-- `FileType`. -/
inductive FileType where
  | file
  | directory
  deriving Repr, DecidableEq

/-- `FileInfo`, what `boot` reads of an opened path. -/
structure FileInfo where
  fileType  : FileType
  sizeBytes : Nat
  deriving Repr, DecidableEq

/-- `LinuxBootRequest`. -/
structure LinuxBootRequest where
  deviceTree      : Dtb
  commandLine     : Bytes
  kernelSizeBytes : Nat
  initrdSizeBytes : Option Nat
  deriving Repr, DecidableEq

/-- `boot`: both files are regular, then the clone. -/
def boot (kernel : FileInfo) (initrd : Option FileInfo) (deviceTree : Dtb)
    (allocator : PageAllocator) (commandLine : Bytes) :
    Except LinuxBootError LinuxBootRequest × PageAllocator :=
  if kernel.fileType ≠ .file then (.error .kernelIsDirectory, allocator)
  else if initrd.any (fun file => file.fileType ≠ .file) then (.error .initrdIsDirectory, allocator)
  else
    match bootClone deviceTree allocator with
    | (.error e, allocator) => (.error e, allocator)
    | (.ok clonedDeviceTree, allocator) =>
        (.ok { deviceTree := clonedDeviceTree, commandLine := commandLine,
               kernelSizeBytes := kernel.sizeBytes,
               initrdSizeBytes := initrd.map (fun file => file.sizeBytes) }, allocator)

/-- `result.map_err(LinuxBootError::DeviceTreeUpdate)`. -/
def mapUpdateError : Except DtbError Unit × Dtb → Except LinuxBootError Unit × Dtb
  | (.ok (), d)   => (.ok (), d)
  | (.error e, d) => (.error (.deviceTreeUpdate e), d)

/-- The initrd part of `update_device_tree`. -/
def setInitrdRange (initrd : Option LoadedFile) (d : Dtb) : Except LinuxBootError Unit × Dtb :=
  match initrd with
  | none => (.ok (), d)
  | some file =>
      match checkedAdd 64 file.physicalStart file.sizeBytes with
      | none => (.error .initrdRangeOverflow, d)
      | some initrdEnd => mapUpdateError ((do
          Dtb.setPropertyU64 (ascii "/chosen") (ascii "linux,initrd-start") file.physicalStart
          Dtb.setPropertyU64 (ascii "/chosen") (ascii "linux,initrd-end") initrdEnd : DtbM Unit) d)

/-- The edits of `update_device_tree`; an error keeps the edits made before it. -/
def updateChosen (initrd : Option LoadedFile) (commandLine : Bytes) (d : Dtb) :
    Except LinuxBootError Unit × Dtb :=
  match mapUpdateError (Dtb.createNode (ascii "/chosen") d) with
  | (.error e, d) => (.error e, d)
  | (.ok (), d) =>
      match setInitrdRange initrd d with
      | (.error e, d) => (.error e, d)
      | (.ok (), d) =>
          mapUpdateError (Dtb.setPropertyString (ascii "/chosen") (ascii "bootargs") commandLine d)

/-- `update_device_tree`. -/
def LinuxBootRequest.updateDeviceTree (request : LinuxBootRequest) (initrd : Option LoadedFile)
    (commandLine : Bytes) : Except LinuxBootError Unit × LinuxBootRequest :=
  match updateChosen initrd commandLine request.deviceTree with
  | (result, d) => (result, { request with deviceTree := d })

/-! ## §2. The tree that Linux gets. -/

/-- The tree with the initrd's range in `/chosen`, if there is an initrd. -/
def initrdTree (tree : Tree) : Option LoadedFile → Tree
  | none => tree
  | some file =>
      (tree.setProperty [ascii "chosen"] (ascii "linux,initrd-start")
          (be64 file.physicalStart)).setProperty
        [ascii "chosen"] (ascii "linux,initrd-end") (be64 (file.physicalStart + file.sizeBytes))

/-- **What the update is for**: the tree with `/chosen`, the initrd's range if there
    is an initrd, and the NUL-terminated command line in it. -/
def chosenTree (tree : Tree) (initrd : Option LoadedFile) (commandLine : Bytes) : Tree :=
  (initrdTree (tree.addMissing [ascii "chosen"]) initrd).setProperty [ascii "chosen"]
    (ascii "bootargs") (commandLine ++ [0])

/-- The range reads back. -/
theorem initrdTree_properties {tree : Tree} (h : (tree.contents.child (ascii "chosen")).isSome)
    (file : LoadedFile) :
    (initrdTree tree (some file)).contents.childProperty (ascii "chosen") (ascii "linux,initrd-start")
        = some (be64 file.physicalStart)
      ∧ (initrdTree tree (some file)).contents.childProperty (ascii "chosen") (ascii "linux,initrd-end")
        = some (be64 (file.physicalStart + file.sizeBytes)) := by
  let started := tree.setProperty [ascii "chosen"] (ascii "linux,initrd-start")
    (be64 file.physicalStart)
  have hstarted : (started.contents.child (ascii "chosen")).isSome := by
    show (Contents.child _ (Contents.onChild _ _ _)).isSome
    rw [Contents.child_onChild, Option.isSome_map]
    exact h
  refine ⟨?_, ?_⟩
  · show (started.contents.modifyAt _ _).childProperty _ _ = _
    rw [Contents.childProperty_setProperty hstarted, if_neg (by decide)]
    show (tree.contents.modifyAt _ _).childProperty _ _ = _
    rw [Contents.childProperty_setProperty h, if_pos rfl]
  · show (started.contents.modifyAt _ _).childProperty _ _ = _
    rw [Contents.childProperty_setProperty hstarted, if_pos rfl]

/-- The three properties that the update sets. -/
def chosenNames : List Bytes :=
  [ascii "linux,initrd-start", ascii "linux,initrd-end", ascii "bootargs"]

/-- The values that the update replaces are not longer than `2 ^ 31` bytes. -/
def ReplacesShort (tree : Tree) : Prop :=
  ∀ name ∈ chosenNames, ∀ old, tree.contents.childProperty (ascii "chosen") name = some old →
    old.length ≤ 2 ^ 31

/-- The clone between two edits: it decodes, `/chosen` resolves, and `spent` bytes of
    the head room are used at most. -/
structure Ready (d : Dtb) (tree : Tree) (spent : Nat) : Prop where
  decodes : d.Decodes tree
  regular : d.Regular tree
  behind  : fdtHeaderSize ≤ d.offMemRsvmap
  chosen  : ∃ fdt node, d.fdtView = .ok fdt ∧ fdt.findNode (ascii "/chosen") = some node
  room    : d.usedBlobEndOffset + linuxDtbExtraSize ≤ d.size + spent
  short   : ReplacesShort tree

theorem pathComponents_chosen : pathComponents (ascii "/chosen") = [ascii "chosen"] := by decide

/-- `get_property` on `/chosen` reads the tree. -/
theorem getProperty_chosen {d : Dtb} {tree : Tree} {fdt : Fdt} {node : FdtNode}
    (hdec : d.Decodes tree) (hregular : d.Regular tree) (hview : d.fdtView = .ok fdt)
    (hnode : fdt.findNode (ascii "/chosen") = some node) (name : Bytes) :
    fdt.getProperty node name = tree.contents.childProperty (ascii "chosen") name
      ∧ (tree.contents.child (ascii "chosen")).isSome := by
  obtain ⟨m, items, pad, lead, trail, hm, hh⟩ := hdec.exists_image
  obtain rfl : fdt = m.fdt d.pointer := Except.ok.inj (hview.symm.trans hm.fdtView)
  have hnamed := hregular.named
  rw [← hh.contents] at hnamed
  obtain ⟨-, -, -, inner, n, p, before, after, hinner, rfl, hinnerAt, hinnerNamed, -⟩ :=
    hh.resolve hnamed hnode
  rw [pathComponents_chosen] at hinner
  obtain ⟨c, hc, hrest⟩ := Option.bind_eq_some_iff.mp hinner
  cases hrest
  have hchild : tree.contents.child (ascii "chosen")
      = some (inner.contents (m.fdt d.pointer).stringAt) := by
    rw [← hh.contents, Items.contents_childItems, hc]
    rfl
  refine ⟨?_, ?_⟩
  · rw [hinnerAt.getProperty hinnerNamed, Contents.childProperty, hchild]
    rfl
  · rw [hchild]
    rfl

/-! ## §3. The edits one by one. -/

/-- **Setting one of the three properties** succeeds and keeps the clone ready. -/
theorem Ready.setProperty {d : Dtb} {tree : Tree} {spent : Nat} (h : Ready d tree spent)
    (name v : Bytes) (hname : name ∈ chosenNames) (hvalue : v.length ≤ 256)
    (hroom : spent + (name.length + 1) + (12 + align4 v.length) ≤ linuxDtbExtraSize) :
    ∃ d', Dtb.setPropertyBytes (ascii "/chosen") name v d = (.ok (), d')
      ∧ Ready d' (tree.setProperty [ascii "chosen"] name v)
          (spent + (name.length + 1) + (12 + align4 v.length)) := by
  obtain ⟨fdt, node, hview, hnode⟩ := h.chosen
  have htext : IsText name := by
    have hall : ∀ name ∈ chosenNames, IsText name := by decide
    exact hall name hname
  obtain ⟨hproperty, hchild⟩ := getProperty_chosen h.decodes h.regular hview hnode name
  have hspent := h.room
  obtain ⟨d', hok⟩ := Dtb.setPropertyBytes_exists h.decodes h.regular hview hnode htext
    (show d.usedBlobEndOffset + (name.length + 1) + (12 + align4 v.length) ≤ d.size by omega)
    (by omega) (fun old hold => h.short name hname old (hproperty ▸ hold))
  refine ⟨d', hok, ?_⟩
  obtain ⟨hdec', hregular', hbehind', ⟨fdt', node', hview', hnode', -⟩, hgrown⟩ :=
    Dtb.setPropertyBytes_decodes h.decodes h.regular h.behind hview hnode htext hok
  rw [pathComponents_chosen] at hdec' hregular'
  have hsize := (Dtb.keepsPlace_setPropertyBytes _ _ _).size_of_ok hok
  refine ⟨hdec', hregular', hbehind', ⟨fdt', node', hview', hnode'⟩, by omega, ?_⟩
  -- the new value is short, the others are the old ones
  intro other hother old hold
  rw [Tree.setProperty, Contents.childProperty_setProperty hchild] at hold
  split_ifs at hold with heq
  · cases hold
    omega
  · exact h.short other hother old hold

/-- **Creating `/chosen`** in a fresh clone succeeds. -/
theorem ready_of_clone {d d' : Dtb} {tree : Tree} {fdt : Fdt} {root : FdtNode}
    {a a' : PageAllocator} (hdec : d.Decodes tree) (hregular : d.Regular tree)
    (hbehind : fdtHeaderSize ≤ d.offMemRsvmap) (hview : d.fdtView = .ok fdt)
    (hroot : fdt.rootNode = some root) (hshort : ReplacesShort tree)
    (hclone : d.clone (d.size + linuxDtbExtraSize) a = (.ok d', a'))
    (hpointer : validateDtbPointer d'.pointer = .ok ()) :
    ∃ d₁, Dtb.createNode (ascii "/chosen") d' = (.ok (), d₁)
      ∧ Ready d₁ (tree.addMissing [ascii "chosen"]) 16 := by
  obtain ⟨hdec', hregular', hbehind', ⟨fdt', root', hview', hroot'⟩, hused, hinside, hsize⟩ :=
    Dtb.clone_decodes hdec hregular hbehind hview hroot hclone hpointer
  have hsplit : Fdt.splitPath (ascii "/chosen") = [] :: [ascii "chosen"] := by decide
  have hroom : Items.pathRoom [ascii "chosen"] = 16 := by decide
  have hextra : linuxDtbExtraSize = 8192 := rfl
  obtain ⟨d₁, hok⟩ := Dtb.createNode_exists hdec' hview' hroot' hsplit
    (show ∀ component ∈ [ascii "chosen"], IsText component ∧ component ≠ []
      ∧ component.length ≤ 255 by decide)
    (by rw [hroom]; omega)
  refine ⟨d₁, hok, ?_⟩
  obtain ⟨hdec₁, hbehind₁, hfound, -, hregular₁, hgrown⟩ := Dtb.createNode_decodes hdec' hbehind' hsplit
    (by decide) (by decide) hok
  have hsize₁ := (Dtb.keepsPlace_createNode _).size_of_ok hok
  rw [hroom] at hgrown
  refine ⟨hdec₁, hregular₁ hregular', hbehind₁, hfound, by omega, ?_⟩
  intro name hname old hold
  rw [Tree.addMissing, Contents.childProperty_addMissing] at hold
  exact hshort name hname old hold

/-- **The initrd's range** takes two edits, or none. -/
theorem Ready.setInitrdRange {d : Dtb} {tree : Tree} (h : Ready d tree 16)
    {initrd : Option LoadedFile}
    (hinitrd : ∀ file, initrd = some file → file.physicalStart + file.sizeBytes < 2 ^ 64) :
    ∃ d', Boot.setInitrdRange initrd d = (.ok (), d')
      ∧ Ready d' (initrdTree tree initrd) 92 := by
  cases initrd with
  | none =>
      have hspent := h.room
      exact ⟨d, rfl, h.decodes, h.regular, h.behind, h.chosen, by omega, h.short⟩
  | some file =>
      have hrange := hinitrd file rfl
      have hextra : linuxDtbExtraSize = 8192 := rfl
      have hstart : (ascii "linux,initrd-start").length = 18 := by decide
      have hend : (ascii "linux,initrd-end").length = 16 := by decide
      have hlength : ∀ value, (be64 value).length = 8 := fun _ => rfl
      obtain ⟨d₁, hok₁, hready₁⟩ := h.setProperty (ascii "linux,initrd-start")
        (be64 file.physicalStart) (by decide) (by rw [hlength]; decide)
        (by rw [hstart, hlength, hextra]; decide)
      obtain ⟨d₂, hok₂, hready₂⟩ := hready₁.setProperty (ascii "linux,initrd-end")
        (be64 (file.physicalStart + file.sizeBytes)) (by decide) (by rw [hlength]; decide)
        (by rw [hstart, hend, hlength, hlength, hextra]; decide)
      rw [hstart, hend, hlength, hlength] at hready₂
      refine ⟨d₂, ?_, hready₂⟩
      have hadd := checkedAdd_some (show file.physicalStart + file.sizeBytes < 2 ^ 64 from hrange)
      simp only [Boot.setInitrdRange, hadd]
      show mapUpdateError ((Dtb.setPropertyBytes _ _ _ >>= fun _ => Dtb.setPropertyBytes _ _ _) d) = _
      rw [DtbM.bind_of_ok hok₁, hok₂]
      rfl

/-- `boot` hands out the clone. -/
theorem boot_ok {kernel : FileInfo} {initrd : Option FileInfo} {deviceTree : Dtb}
    {a a' : PageAllocator} {commandLine : Bytes} {request : LinuxBootRequest}
    (h : boot kernel initrd deviceTree a commandLine = (.ok request, a')) :
    bootClone deviceTree a = (.ok request.deviceTree, a')
      ∧ deviceTree.clone (deviceTree.size + linuxDtbExtraSize) a = (.ok request.deviceTree, a') := by
  have hclone : bootClone deviceTree a = (.ok request.deviceTree, a') := by
    unfold boot at h
    split_ifs at h
    · cases (Prod.mk.inj h).1
    · cases (Prod.mk.inj h).1
    · split at h
      · cases (Prod.mk.inj h).1
      next cloned allocator hclone =>
        obtain ⟨hrequest, rfl⟩ := Prod.mk.inj h
        cases hrequest
        exact hclone
  refine ⟨hclone, ?_⟩
  unfold bootClone at hclone
  split at hclone
  · cases (Prod.mk.inj hclone).1
  next newSize hsize =>
    obtain ⟨-, rfl⟩ := checkedAdd_eq_some.mp hsize
    split at hclone
    next d' allocator hd' =>
      obtain ⟨hd, rfl⟩ := Prod.mk.inj hclone
      cases hd
      exact hd'
    · cases (Prod.mk.inj hclone).1

/-! ## §4. The whole update. -/

/-- **The head room always suffices.**  On a reachable allocator and a well-formed
    device tree whose root node stands at the front of its structure block: if `boot`
    returns a request whose clone is not at address 0, then for every initrd whose
    range does not overflow and every command line of at most 255 bytes
    `update_device_tree` succeeds, the blob decodes to `chosenTree`, and `/chosen`
    reads back as written. -/
theorem updateDeviceTree_chosen {a a' : PageAllocator} (hreach : Reachable a) {deviceTree : Dtb}
    {tree : Tree} {fdt : Fdt} {root : FdtNode} (hdec : deviceTree.Decodes tree)
    (hregular : deviceTree.Regular tree) (hbehind : fdtHeaderSize ≤ deviceTree.offMemRsvmap)
    (hview : deviceTree.fdtView = .ok fdt) (hroot : fdt.rootNode = some root)
    (hshort : ReplacesShort tree) {kernel : FileInfo} {initrdInfo : Option FileInfo}
    {requestLine : Bytes} {request : LinuxBootRequest}
    (hboot : boot kernel initrdInfo deviceTree a requestLine = (.ok request, a'))
    (hplaced : request.deviceTree.pointer ≠ 0) {initrd : Option LoadedFile}
    (hinitrd : ∀ file, initrd = some file → file.physicalStart + file.sizeBytes < 2 ^ 64)
    {commandLine : Bytes} (hline : commandLine.length ≤ 255) :
    ∃ request', request.updateDeviceTree initrd commandLine = (.ok (), request')
      ∧ request'.deviceTree.Decodes (chosenTree tree initrd commandLine)
      ∧ ∃ fdt' node, request'.deviceTree.fdtView = .ok fdt'
          ∧ fdt'.findNode (ascii "/chosen") = some node
          ∧ fdt'.getProperty node (ascii "bootargs") = some (commandLine ++ [0])
          ∧ ∀ file, initrd = some file →
              fdt'.getProperty node (ascii "linux,initrd-start") = some (be64 file.physicalStart)
              ∧ fdt'.getProperty node (ascii "linux,initrd-end")
                  = some (be64 (file.physicalStart + file.sizeBytes)) := by
  obtain ⟨hbootClone, hclone⟩ := boot_ok hboot
  obtain ⟨pages, hgranted, -⟩ := bootClone_ok hreach.sound hbootClone
  have hpointer : validateDtbPointer request.deviceTree.pointer = .ok () := by
    have haligned := hgranted.aligned
    unfold validateDtbPointer
    rw [if_neg hplaced, if_neg (by omega)]
  -- the four edits
  obtain ⟨d₁, hcreate, hready₁⟩ :=
    ready_of_clone hdec hregular hbehind hview hroot hshort hclone hpointer
  obtain ⟨d₂, hrange, hready₂⟩ := hready₁.setInitrdRange hinitrd
  have hlength : (commandLine ++ [0]).length = commandLine.length + 1 := by simp
  have hname : (ascii "bootargs").length = 8 := by decide
  have hextra : linuxDtbExtraSize = 8192 := rfl
  obtain ⟨d₃, hargs, hready₃⟩ := hready₂.setProperty (ascii "bootargs")
    (commandLine ++ [0]) (by decide) (by omega)
    (by rw [hname, hextra, hlength]; unfold align4; omega)
  have hstring : Dtb.setPropertyString (ascii "/chosen") (ascii "bootargs") commandLine d₂
      = (.ok (), d₃) := by
    have hadd : DtbM.orThrow (checkedAdd 64 commandLine.length 1) .sizeOverflow d₂
        = (.ok (commandLine.length + 1), d₂) := by
      rw [checkedAdd_some (by omega)]
      rfl
    rw [Dtb.setPropertyString, DtbM.bind_of_ok hadd]
    show (if commandLine.length + 1 > 256 then DtbM.throw .bufferTooSmall else _ : DtbM Unit) d₂ = _
    rw [if_neg (by omega)]
    exact hargs
  have hupdate : updateChosen initrd commandLine request.deviceTree = (.ok (), d₃) := by
    simp only [updateChosen, hcreate, mapUpdateError, hrange, hstring]
  refine ⟨{ request with deviceTree := d₃ }, ?_, hready₃.decodes, ?_⟩
  · rw [LinuxBootRequest.updateDeviceTree, hupdate]
  · obtain ⟨fdt', node, hview', hnode⟩ := hready₃.chosen
    have hread := getProperty_chosen hready₃.decodes hready₃.regular hview' hnode
    obtain ⟨fdt₂, node₂, hview₂, hnode₂⟩ := hready₂.chosen
    have hchild₂ := (getProperty_chosen hready₂.decodes hready₂.regular hview₂ hnode₂ []).2
    obtain ⟨fdt₁, node₁, hview₁, hnode₁⟩ := hready₁.chosen
    have hchild₁ := (getProperty_chosen hready₁.decodes hready₁.regular hview₁ hnode₁ []).2
    refine ⟨fdt', node, hview', hnode, ?_, ?_⟩
    · rw [(hread _).1, Tree.setProperty, Contents.childProperty_setProperty hchild₂, if_pos rfl]
    · intro file hfile
      subst hfile
      obtain ⟨hstart, hend⟩ := initrdTree_properties hchild₁ file
      rw [(hread _).1, (hread _).1, Tree.setProperty, Contents.childProperty_setProperty hchild₂,
        Contents.childProperty_setProperty hchild₂, if_neg (by decide), if_neg (by decide)]
      exact ⟨hstart, hend⟩

/-- An allocator over `pages` free pages from address `base` on. -/
def freeRun (base pages : Nat) : Except MemoryError PageAllocator :=
  PageAllocator.fromRegions FirmwareLayout.none [⟨base, pages * 4096⟩] []
    (List.replicate 4 emptyDescriptor)

theorem reachable_freeRun {base pages : Nat} {a : PageAllocator} (h : freeRun base pages = .ok a) :
    Reachable a := ⟨a, [], .inl ⟨_, _, _, _, h⟩, rfl⟩

/-- A request for the small blob on three free pages, with what `see` sees of it. -/
theorem boot_of_run {d : Dtb} {base : Nat} {α : Type} {see : LinuxBootRequest → α} {seen : α}
    (h : (freeRun base 3).toOption.map (fun a =>
      (boot ⟨.file, 64⟩ none d a []).1.toOption.map see) = some (some seen)) :
    ∃ a a' request, Reachable a ∧ boot ⟨.file, 64⟩ none d a [] = (.ok request, a')
      ∧ see request = seen := by
  obtain ⟨a, ha, hboot⟩ := Option.map_eq_some_iff.mp h
  obtain ⟨request, hrequest, hseen⟩ := Option.map_eq_some_iff.mp hboot
  have hrun : freeRun base 3 = .ok a := by
    cases hrun : freeRun base 3 with
    | error e =>
        rw [hrun] at ha
        cases ha
    | ok b =>
        rw [hrun] at ha
        cases ha
        rfl
  cases hresult : boot ⟨.file, 64⟩ none d a [] with
  | mk result a' =>
      rw [hresult] at hrequest
      cases result with
      | error e => cases hrequest
      | ok r =>
          cases hrequest
          exact ⟨a, a', request, reachable_freeRun hrun, hresult, hseen⟩

/-- An initrd and a command line for the small blob. -/
theorem updateDeviceTree_chosen_example :
    ∃ a a' request request', Reachable a
      ∧ boot ⟨.file, 64⟩ none (smallDtb 40) a [] = (.ok request, a')
      ∧ request.updateDeviceTree (some ⟨0x1000, 1, 5, []⟩) (ascii "ro") = (.ok (), request')
      ∧ request'.deviceTree.Decodes
          (chosenTree (smallTree []) (some ⟨0x1000, 1, 5, []⟩) (ascii "ro")) := by
  have hrun : (freeRun 0x80000000 3).toOption.map (fun a =>
      (boot ⟨.file, 64⟩ none (smallDtb 40) a []).1.toOption.map (fun r => r.deviceTree.pointer))
        = some (some 0x80000000) := by
    decide +kernel
  obtain ⟨a, a', request, hreach, hboot, hpointer⟩ := boot_of_run hrun
  have hm := smallDtb_shows (Nat.le_refl 40)
  have hroot : (((smallImage 40).fdt 0x80008000).rootNode).isSome = true := by decide +kernel
  obtain ⟨root, hroot⟩ := Option.isSome_iff_exists.mp hroot
  obtain ⟨request', hupdate, hdec, -⟩ := updateDeviceTree_chosen hreach smallDtb_encodes_empty.decodes
    (smallDtb_regular (Nat.le_refl 40) []) (by rw [hm.offMemRsvmap]; exact Nat.le_refl 40) hm.fdtView
    hroot (by intro name _ old hold; cases hold) hboot (by rw [hpointer]; decide)
    (show ∀ file, some (⟨0x1000, 1, 5, []⟩ : LoadedFile) = some file → _ by
      intro file hfile
      cases hfile
      decide)
    (show (ascii "ro").length ≤ 255 by decide)
  exact ⟨a, a', request, request', hreach, hboot, hupdate, hdec⟩

/-! ## §5. Where the update fails. -/

/-- The small blob with a no-op in front of its root node. -/
def leadImage : Image :=
  { smallImage 40 with
    structureBlock := nops 1 ++ (nodeHead [] [0, 0, 0] ++ (Items.nil.flat
      ++ (be32 fdtEndNode ++ (nops 0 ++ be32 fdtEnd)))) }

def leadDtb : Dtb where
  pointer := 0x80008000
  blob    := leadImage.bytes
  size    := leadImage.totalSize

theorem leadDtb_encodes : leadDtb.Encodes (smallTree []) ∧ leadDtb.Regular (smallTree [])
    ∧ fdtHeaderSize ≤ leadDtb.offMemRsvmap := by
  have htotal : leadImage.totalSize = 120 := rfl
  have hpointer : validateDtbPointer 0x80008000 = .ok () := by decide +kernel
  have hfits : leadImage.Fits := by
    refine ⟨?_, ?_, ?_, ?_, ?_, ?_⟩
    · rw [htotal]
      decide
    all_goals decide
  have hm : leadDtb.Shows leadImage := ⟨rfl, rfl, hfits, hpointer⟩
  have hmap : (leadImage.fdt 0x80008000).ReserveMap [] :=
    ⟨fun index entry h => by simp at h, by decide +kernel⟩
  have hh : leadImage.Holds 0x80008000 (smallTree []) .nil [0, 0, 0] 1 0 :=
    ⟨by decide, hmap, ⟨by simp [smallTree], rfl⟩, by simp [smallTree, padLength, align4], trivial,
      rfl, rfl⟩
  refine ⟨(hh.decodes hm).encodes ?_, ⟨trivial, trivial, ?_⟩, ?_⟩
  · rw [hm.blob, Image.bytes_length, htotal]
    decide
  · intro fdt hview
    rw [hm.fdtView] at hview
    cases hview
    show Terminated (ascii "reg" ++ [0])
    exact ⟨.inr (by decide), by decide⟩
  · rw [hm.offMemRsvmap]
    exact Nat.le_refl 40

/-- **Two well-formed requests that the update refuses.**  A clone in the page at
    address 0 is a null pointer to the reader, and a root node behind a no-op is not
    found. -/
theorem updateDeviceTree_refuses :
    (∃ a a' request, Reachable a ∧ (smallDtb 40).Encodes (smallTree [])
        ∧ (smallDtb 40).Regular (smallTree []) ∧ fdtHeaderSize ≤ (smallDtb 40).offMemRsvmap
        ∧ boot ⟨.file, 64⟩ none (smallDtb 40) a [] = (.ok request, a')
        ∧ (request.updateDeviceTree none (ascii "ro")).1
            = .error (.deviceTreeUpdate (.fdt .nullPointer)))
      ∧ ∃ a a' request, Reachable a ∧ leadDtb.Encodes (smallTree []) ∧ leadDtb.Regular (smallTree [])
        ∧ fdtHeaderSize ≤ leadDtb.offMemRsvmap
        ∧ boot ⟨.file, 64⟩ none leadDtb a [] = (.ok request, a')
        ∧ (request.updateDeviceTree none (ascii "ro")).1
            = .error (.deviceTreeUpdate .badStructure) := by
  constructor
  · have hrun : (freeRun 0 3).toOption.map (fun a =>
        (boot ⟨.file, 64⟩ none (smallDtb 40) a []).1.toOption.map (fun r =>
          (r.updateDeviceTree none (ascii "ro")).1))
            = some (some (.error (.deviceTreeUpdate (.fdt .nullPointer)))) := by
      decide +kernel
    obtain ⟨a, a', request, hreach, hboot, hrefused⟩ := boot_of_run hrun
    have hm := smallDtb_shows (Nat.le_refl 40)
    exact ⟨a, a', request, hreach, smallDtb_encodes_empty, smallDtb_regular (Nat.le_refl 40) [],
      by rw [hm.offMemRsvmap]; exact Nat.le_refl 40, hboot, hrefused⟩
  · have hrun : (freeRun 0x80000000 3).toOption.map (fun a =>
        (boot ⟨.file, 64⟩ none leadDtb a []).1.toOption.map (fun r =>
          (r.updateDeviceTree none (ascii "ro")).1))
            = some (some (.error (.deviceTreeUpdate .badStructure))) := by
      decide +kernel
    obtain ⟨a, a', request, hreach, hboot, hrefused⟩ := boot_of_run hrun
    obtain ⟨henc, hregular, hbehind⟩ := leadDtb_encodes
    exact ⟨a, a', request, hreach, henc, hregular, hbehind, hboot, hrefused⟩

end RustFirmware.Boot
