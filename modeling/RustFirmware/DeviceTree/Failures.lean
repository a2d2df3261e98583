/-
  RustFirmware.DeviceTree.Failures
  ────────────────────────────────
  **A FAILED PROPERTY WRITE LEAVES THE TREE AS IT WAS.**

  A step fails cleanly if it leaves the `Dtb` untouched when it fails
  (`DtbM.FailsClean`): a check that throws does, a sequence does if its first
  step only looks, and a step that succeeds has nothing to show.

  `set_property_bytes` is four steps.  The lookup only looks, appending the name
  and making room for the record fail cleanly, and the writes into a record with
  room do not fail.  What a failed call can leave behind is the appended name,
  which changes no tree.
-/
import RustFirmware.DeviceTree.Room

namespace RustFirmware.DeviceTree

open RustFirmware.Lib

/-! ## §1. Steps that fail cleanly. -/

namespace DtbM

variable {α β : Type} {d d' : Dtb}

/-- A sequence fails in its first step or behind it. -/
theorem bind_error {x : DtbM α} {f : α → DtbM β} {e : DtbError} :
    (x >>= f) d = (.error e, d')
      ↔ x d = (.error e, d') ∨ ∃ a d₁, x d = (.ok a, d₁) ∧ f a d₁ = (.error e, d') := by
  rcases hx : x d with ⟨result, d₁⟩
  cases result with
  | error e =>
      rw [bind_of_error hx]
      simp
  | ok a =>
      rw [bind_of_ok hx]
      simp

/-- An error and the state left with it. -/
theorem eq_of_fst_error {x : Except DtbError α × Dtb} {e : DtbError} (h : x.1 = .error e) :
    x = (.error e, x.2) := by
  rw [← h]

/-- Failing leaves everything as it was. -/
def FailsClean (x : DtbM α) (d : Dtb) : Prop := ∀ e d', x d = (.error e, d') → d' = d

theorem failsClean_throw (e : DtbError) (d : Dtb) : FailsClean (throw e : DtbM α) d := by
  intro e d' h
  exact (Prod.mk.inj h).2.symm

theorem failsClean_pure (a : α) (d : Dtb) : FailsClean (pure a) d := by
  intro e d' h
  cases (Prod.mk.inj h).1

theorem failsClean_read (f : Dtb → Except DtbError α) (d : Dtb) : FailsClean (read f) d := by
  intro e d' h
  exact (Prod.mk.inj h).2.symm

theorem failsClean_orThrow (o : Option α) (e : DtbError) (d : Dtb) :
    FailsClean (orThrow o e) d := by
  cases o with
  | none => exact failsClean_throw e d
  | some a => exact failsClean_pure a d

/-- A step that succeeds has nothing to leave behind. -/
theorem failsClean_of_ok {x : DtbM α} {a : α} (h : x d = (.ok a, d')) : FailsClean x d := by
  intro e d'' herr
  rw [h] at herr
  cases (Prod.mk.inj herr).1

/-- A step behind one that changed nothing. -/
theorem FailsClean.bind {x : DtbM α} {f : α → DtbM β} (hx : FailsClean x d)
    (hf : ∀ a d₁, x d = (.ok a, d₁) → d₁ = d ∧ FailsClean (f a) d) : FailsClean (x >>= f) d := by
  intro e d' h
  rcases bind_error.mp h with hfirst | ⟨a, d₁, hok, hsecond⟩
  · exact hx e d' hfirst
  · obtain ⟨rfl, hclean⟩ := hf a d₁ hok
    exact hclean e d' hsecond

theorem failsClean_read_bind {f : Dtb → Except DtbError α} {g : α → DtbM β}
    (h : ∀ a, f d = .ok a → FailsClean (g a) d) : FailsClean (read f >>= g) d := by
  apply (failsClean_read f d).bind
  intro a d₁ hok
  obtain ⟨ha, rfl⟩ := read_ok.mp hok
  exact ⟨rfl, h a ha⟩

theorem failsClean_orThrow_bind {o : Option α} {e : DtbError} {g : α → DtbM β}
    (h : ∀ a, o = some a → FailsClean (g a) d) : FailsClean (orThrow o e >>= g) d := by
  apply (failsClean_orThrow o e d).bind
  intro a d₁ hok
  obtain ⟨ha, rfl⟩ := orThrow_ok.mp hok
  exact ⟨rfl, h a ha⟩

theorem failsClean_guard {p : Prop} [Decidable p] {e : DtbError} {x : DtbM α}
    (h : ¬ p → FailsClean x d) : FailsClean (if p then throw e else x) d := by
  split_ifs with hp
  · exact failsClean_throw e d
  · exact h hp

end DtbM

namespace Dtb

open DtbM

variable {d d' : Dtb} {m : Image}

/-! ## §2. The splice. -/

/-- **The splice fails cleanly**: it checks the offset, the old bytes and the room
    before it moves anything.  Behind these checks only a difference that the
    header cannot hold could stop it. -/
theorem Shows.spliceStructPlaceholder_failsClean (offset oldLen newLen : Nat) (h : d.Shows m)
    (hdelta : offset + oldLen ≤ m.offDtStruct + m.structureBlock.length →
      m.offDtStrings + m.strings.length + newLen ≤ m.totalSize + oldLen →
        oldLen ≤ newLen + 2 ^ 31 ∧ newLen < 2 ^ 31) :
    FailsClean (Dtb.spliceStructPlaceholder offset oldLen newLen) d := by
  have hused : d.usedBlobEndOffset = m.offDtStrings + m.strings.length := by
    rw [Dtb.usedBlobEndOffset, h.offDtStrings, h.sizeDtStrings]
  have hstructEnd : d.structureEndOffset = m.offDtStruct + m.structureBlock.length := by
    rw [Dtb.structureEndOffset, h.offDtStruct, h.sizeDtStruct]
  have hstruct := h.offDtStruct
  have hsize := h.size
  by_cases hfits : m.offDtStruct ≤ offset ∧ offset + oldLen ≤ m.offDtStruct + m.structureBlock.length
      ∧ m.offDtStrings + m.strings.length + newLen ≤ m.totalSize + oldLen
  · -- all checks pass, and then the splice succeeds
    obtain ⟨hlow, hhigh, hroom⟩ := hfits
    obtain ⟨hshrink, hgrow⟩ := hdelta hhigh hroom
    let before : Bytes := m.structureBlock.take (offset - m.offDtStruct)
    let old : Bytes := (m.structureBlock.drop (offset - m.offDtStruct)).take oldLen
    have hbefore : before.length = offset - m.offDtStruct := List.length_take_of_le (by omega)
    have hold : old.length = oldLen := by
      rw [List.length_take, List.length_drop]
      omega
    have hblock : m.structureBlock = before
        ++ (old ++ (m.structureBlock.drop (offset - m.offDtStruct)).drop oldLen) := by
      rw [List.take_append_drop, List.take_append_drop]
    obtain ⟨d', hok⟩ := h.spliceStructPlaceholder_exists hblock
      (show m.offDtStrings + m.strings.length + newLen ≤ _ by omega) (by omega) hgrow
    rw [hbefore, hold, Nat.add_sub_cancel' hlow] at hok
    exact failsClean_of_ok hok
  · -- one of the checks throws
    apply failsClean_read_bind
    intro usedEnd husedEnd
    apply failsClean_read_bind
    intro structStart hstructStart
    apply failsClean_read_bind
    intro structEnd hend
    apply failsClean_guard
    intro hin
    apply failsClean_orThrow_bind
    intro oldEnd holdEnd
    apply failsClean_guard
    intro hinside
    apply failsClean_orThrow_bind
    intro resulting hresulting
    apply failsClean_read_bind
    intro size hsize'
    apply failsClean_guard
    intro hroom
    cases husedEnd
    cases hstructStart
    cases hend
    cases hsize'
    obtain ⟨-, rfl⟩ := checkedAdd_eq_some.mp holdEnd
    obtain ⟨value, hvalue, hsum⟩ := Option.bind_eq_some_iff.mp hresulting
    obtain ⟨hle, rfl⟩ := checkedSub_eq_some.mp hvalue
    obtain ⟨-, rfl⟩ := checkedAdd_eq_some.mp hsum
    exact absurd ⟨by omega, by omega, by omega⟩ hfits

end Dtb

/-! ## §3. The reader looks at the structure block only. -/

section Block

variable {fdt fdt' : Fdt}

theorem Fdt.nodeEndLoop_congr (h : fdt'.structureBlock = fdt.structureBlock) (fuel offset depth : Nat) :
    fdt'.nodeEndLoop fuel offset depth = fdt.nodeEndLoop fuel offset depth := by
  induction fuel generalizing offset depth with
  | zero => rfl
  | succ fuel ih =>
      simp only [nodeEndLoop, readToken, afterBeginNode, afterProperty, h, ih]

theorem Fdt.nodeAtOffset_congr (h : fdt'.structureBlock = fdt.structureBlock)
    (offset : Nat) : fdt'.nodeAtOffset offset = fdt.nodeAtOffset offset := by
  simp only [nodeAtOffset, readToken, nodeEndOffset, loopBound, nodeEndLoop_congr h, h]

theorem Fdt.forEachChildLoop_congr {σ : Type} (h : fdt'.structureBlock = fdt.structureBlock) (stop : Nat)
    (visit : FdtNode → σ → Bool × σ) (fuel offset : Nat) (acc : σ) :
    fdt'.forEachChildLoop stop visit fuel offset acc = fdt.forEachChildLoop stop visit fuel offset acc := by
  induction fuel generalizing offset acc with
  | zero => rfl
  | succ fuel ih =>
      simp only [forEachChildLoop, readToken, afterProperty, nodeAtOffset_congr h, h, ih]

theorem Fdt.findChild_congr (h : fdt'.structureBlock = fdt.structureBlock)
    (parent : FdtNode) (name : Bytes) : fdt'.findChild parent name = fdt.findChild parent name := by
  simp only [findChild, forEachChild, afterBeginNode, readToken, loopBound, forEachChildLoop_congr h, h]

theorem Fdt.descend_congr (h : fdt'.structureBlock = fdt.structureBlock) (node : FdtNode)
    (components : List Bytes) : fdt'.descend node components = fdt.descend node components := by
  induction components generalizing node with
  | nil => rfl
  | cons component components ih =>
      rw [descend, descend, findChild_congr h]
      split_ifs
      · rfl
      · cases fdt.findChild node component with
        | none => rfl
        | some child => exact ih child

theorem Fdt.findNode_congr (h : fdt'.structureBlock = fdt.structureBlock) (path : Bytes) :
    fdt'.findNode path = fdt.findNode path := by
  simp only [findNode, rootNode, nodeAtOffset_congr h, descend_congr h]

end Block

namespace Dtb

open DtbM

variable {d d' : Dtb} {m : Image}

/-! ## §4. `set_property_bytes`. -/

/-- **Appending a name fails cleanly**: the room is checked for the name and its NUL
    together, before either is written. -/
theorem Shows.findOrAddString_failsClean (name : Bytes) (h : d.Shows m)
    (hterm : Terminated m.strings) : FailsClean (Dtb.findOrAddString name) d := by
  by_cases hroom : m.offDtStrings + m.strings.length + (name.length + 1) ≤ m.totalSize
  · obtain ⟨nameOffset, d', hok⟩ := h.findOrAddString_exists hterm hroom
    exact failsClean_of_ok hok
  · have hused : d.usedBlobEndOffset = m.offDtStrings + m.strings.length := by
      rw [Dtb.usedBlobEndOffset, h.offDtStrings, h.sizeDtStrings]
    have hsize := h.size
    apply failsClean_read_bind
    intro stringsStart _
    apply failsClean_read_bind
    intro stringsSize _
    apply failsClean_read_bind
    intro found _
    cases found with
    | some offset => exact failsClean_orThrow _ _ d
    | none =>
        apply failsClean_read_bind
        intro absoluteOffset habsolute
        cases habsolute
        apply FailsClean.bind
        · apply failsClean_orThrow_bind
          intro stop _
          apply failsClean_read_bind
          intro size _
          apply failsClean_guard
          intro _
          exact failsClean_pure _ d
        · -- the room is not there
          intro u d₁ hensure
          have hfits := (ensureRange_ok hensure).1
          omega

/-- Making room for a record fails cleanly, at whatever node. -/
theorem Shows.preparePropertyRecord_failsClean (node : Nat × Nat) (name : Bytes) (valueLength : Nat)
    (h : d.Shows m) (hsmall : m.totalSize < 2 ^ 31) :
    FailsClean (Dtb.preparePropertyRecord node name valueLength) d := by
  have htotal : m.totalSize = m.offDtStruct + m.structureBlock.length + m.gap.length
      + m.strings.length + m.free.length := rfl
  have hstrings : m.offDtStrings = m.offDtStruct + m.structureBlock.length + m.gap.length := rfl
  have hsplice : ∀ offset oldLen newLen : Nat,
      FailsClean (Dtb.spliceStructPlaceholder offset oldLen newLen >>= fun _ => pure offset) d := by
    intro offset oldLen newLen
    have hclean := h.spliceStructPlaceholder_failsClean offset oldLen newLen (by
      intro hinside hroom
      omega)
    intro e d' herr
    rcases bind_error.mp herr with hfirst | ⟨_, d₁, -, hsecond⟩
    · exact hclean e d' hfirst
    · cases (Prod.mk.inj hsecond).1
  apply failsClean_read_bind
  intro existing _
  cases existing with
  | some existing =>
      apply failsClean_read_bind
      intro recordLength _
      exact hsplice _ _ _
  | none =>
      apply failsClean_read_bind
      intro insertionOffset _
      apply failsClean_read_bind
      intro recordLength _
      exact hsplice _ _ _

/-- Only a path that leads to a node has a location. -/
theorem exists_node_of_location {fdt : Fdt} {path : Bytes} {location : Nat × Nat}
    (hview : d.fdtView = .ok fdt) (hok : d.findNodeLocation path = .ok location) :
    ∃ node, fdt.findNode path = some node := by
  unfold findNodeLocation at hok
  split_ifs at hok with hslash
  · simp only [hview, bind, Except.bind, okOr] at hok
    cases hroot : fdt.rootNode with
    | none =>
        rw [hroot] at hok
        cases hok
    | some root => exact ⟨root, by rw [Fdt.findNode, if_pos hslash, hroot]⟩
  · cases hsplit : Fdt.splitPath path with
    | nil =>
        rw [hsplit] at hok
        cases hok
    | cons first components =>
        rw [hsplit] at hok
        dsimp only at hok
        split_ifs at hok
        simp only [hview, bind, Except.bind, okOr] at hok
        cases hnode : fdt.findNode path with
        | none =>
            rw [hnode] at hok
            cases hok
        | some node => exact ⟨node, rfl⟩

/-- A blob in order for an edit: well formed, regular, and the reserve map behind
    the header. -/
structure WellFormed (d : Dtb) (tree : Tree) : Prop where
  encodes : d.Encodes tree
  regular : d.Regular tree
  behind  : fdtHeaderSize ≤ d.offMemRsvmap

/-- **One more name in the strings changes no tree.** -/
theorem WellFormed.findOrAddString {tree : Tree} {name : Bytes} {nameOffset : Nat}
    (h : d.WellFormed tree) (hname : IsText name)
    (hok : Dtb.findOrAddString name d = (.ok nameOffset, d')) :
    d'.WellFormed tree ∧ ∀ fdt, d.fdtView = .ok fdt →
      ∃ fdt', d'.fdtView = .ok fdt' ∧ fdt'.structureBlock = fdt.structureBlock := by
  obtain ⟨m, items, pad, lead, trail, hm, hh⟩ := h.encodes.decodes.exists_image
  have hbehind := h.behind
  rw [hm.offMemRsvmap] at hbehind
  have hterm : Terminated m.strings := h.regular.terminated _ hm.fdtView
  have hnamed := h.regular.named
  rw [← hh.contents] at hnamed
  obtain ⟨hpointer, more, free, hm', hterm', -, -, -⟩ := hm.findOrAddString hname hterm hok
  -- every name in use resolves as before
  have hcontents : items.contents
      (Image.fdt { m with strings := m.strings ++ more, free := free } d.pointer).stringAt
        = tree.contents := by
    rw [Items.contents_mono (fun o s hs => Fdt.stringAt_append rfl hs) hnamed, hh.contents]
  have hh' : Image.Holds { m with strings := m.strings ++ more, free := free } d.pointer tree items pad
      lead trail := hh.edit hbehind rfl rfl hh.valid hcontents hh.block
  rw [← hpointer] at hh'
  refine ⟨⟨(hh'.decodes hm').encodes ?_, ⟨h.regular.propsFirst, h.regular.named, ?_⟩, ?_⟩, ?_⟩
  · rw [← (hh'.decodes hm').size_eq, (keepsPlace_findOrAddString name).size_of_ok hok,
      h.encodes.size_eq]
    exact h.encodes.small
  · intro fdt hview
    rw [hm'.fdtView] at hview
    cases hview
    exact hterm'
  · rw [hm'.offMemRsvmap]
    exact hbehind
  · intro fdt hview
    rw [hm.fdtView] at hview
    cases hview
    exact ⟨_, hm'.fdtView, rfl⟩

/-- Behind a name that was found or added, the rest of the call fails cleanly: the
    record either gets no room, or room for all five writes. -/
theorem WellFormed.writeRecord_failsClean {tree : Tree} {fdt : Fdt} {path name value : Bytes}
    {node : FdtNode} {nameOffset : Nat} (h : d.WellFormed tree) (hview : d.fdtView = .ok fdt)
    (hnode : fdt.findNode path = some node) :
    FailsClean (do
      let recordOffset ← Dtb.preparePropertyRecord (node.beginOffset, node.endOffset) name value.length
      let _ ← insertU32 recordOffset fdtProp
      let storedLength ← DtbM.orThrow (u32OrOverflow value.length) .sizeOverflow
      let _ ← insertU32 (recordOffset + 4) storedLength
      let _ ← insertU32 (recordOffset + 8) nameOffset
      let _ ← insertBytes (recordOffset + 12) value
      Dtb.zeroPropertyPadding recordOffset value.length : DtbM Unit) d := by
  obtain ⟨m, items, pad, lead, trail, hm, hh⟩ := h.encodes.decodes.exists_image
  obtain rfl : fdt = m.fdt d.pointer := Except.ok.inj (hview.symm.trans hm.fdtView)
  have hnamed := h.regular.named
  rw [← hh.contents] at hnamed
  have hsmall : m.totalSize < 2 ^ 31 := by
    rw [← m.bytes_length, ← hm.blob]
    exact h.encodes.small
  obtain ⟨rfl, -, -, inner, n, p, before, after, -, rfl, hinnerAt, hinnerNamed, hblock⟩ :=
    hh.resolve hnamed hnode
  intro e d' herr
  rcases bind_error.mp herr with hprepare | ⟨recordOffset, d₁, hrecord, hwrites⟩
  · exact hm.preparePropertyRecord_failsClean _ _ _ hsmall e d' hprepare
  · -- there is room for the record, so the writes succeed
    obtain ⟨-, front, old, back, free, -, hoffset, hm₁⟩ :=
      hm.preparePropertyRecord hinnerAt hinnerNamed (hh.block_around hblock) List.length_append hrecord
    have hsize₁ := (keepsPlace_preparePropertyRecord _ _ _).size_of_ok hrecord
    have hsize := hm.size
    have hinside : recordOffset + (12 + align4 value.length) ≤ d₁.size := by
      rw [hm₁.size, hoffset]
      simp only [Image.totalSize, Image.offDtStrings, Image.offDtStruct, List.length_append,
        List.length_replicate]
      omega
    obtain ⟨d₂, hok⟩ := writeRecord_exists nameOffset hinside (by omega)
    rw [hok] at hwrites
    cases (Prod.mk.inj hwrites).1

/-- **A failed `set_property_bytes` leaves the tree.** -/
theorem WellFormed.setPropertyBytes_failed {tree : Tree} {path name value : Bytes} {e : DtbError}
    (h : d.WellFormed tree) (hname : IsText name)
    (herr : setPropertyBytes path name value d = (.error e, d')) : d'.WellFormed tree := by
  obtain ⟨fdt, hview, -, -⟩ := h.encodes.view
  rw [setPropertyBytes] at herr
  rcases bind_error.mp herr with hfirst | ⟨location, d₁, hread, herr⟩
  · obtain rfl := failsClean_read _ d e d' hfirst
    exact h
  obtain ⟨hlocation, rfl⟩ := read_ok.mp hread
  obtain ⟨node, hnode⟩ := exists_node_of_location hview hlocation
  obtain rfl := findNodeLocation_ok hview hnode hlocation
  rcases bind_error.mp herr with hsecond | ⟨nameOffset, d₁, hstring, herr⟩
  · -- the name is not there and does not fit
    obtain ⟨m, -, -, -, -, hm, -⟩ := h.encodes.decodes.exists_image
    have hterm' : Terminated m.strings := h.regular.terminated _ hm.fdtView
    obtain rfl := hm.findOrAddString_failsClean name hterm' e d' hsecond
    exact h
  · -- the name stays behind; the node is still where it was
    obtain ⟨h₁, hsame⟩ := h.findOrAddString hname hstring
    obtain ⟨fdt₁, hview₁, hblock⟩ := hsame fdt hview
    rw [← Fdt.findNode_congr hblock] at hnode
    obtain rfl := h₁.writeRecord_failsClean hview₁ hnode e d' herr
    exact h₁

/-- **A failed property write leaves the blob well formed and its tree as it was**,
    for each of the four calls: the three others write bytes of their own through
    `set_property_bytes`, and a string too long for the fixed buffer is refused
    before it. -/
theorem failed_setProperty_keeps_tree {tree : Tree} {path name : Bytes} (h : d.WellFormed tree)
    (hname : IsText name) :
    (∀ value e d', setPropertyBytes path name value d = (.error e, d') → d'.WellFormed tree)
      ∧ (∀ value e d', setPropertyU32 path name value d = (.error e, d') → d'.WellFormed tree)
      ∧ (∀ value e d', setPropertyU64 path name value d = (.error e, d') → d'.WellFormed tree)
      ∧ (∀ value e d', setPropertyString path name value d = (.error e, d')
          → d'.WellFormed tree) := by
  refine ⟨?_, ?_, ?_, ?_⟩
  · intro value e d' herr
    exact h.setPropertyBytes_failed hname herr
  · intro value e d' herr
    exact h.setPropertyBytes_failed hname herr
  · intro value e d' herr
    exact h.setPropertyBytes_failed hname herr
  · intro value e d' herr
    rw [setPropertyString] at herr
    rcases bind_error.mp herr with hfirst | ⟨propertyLen, d₁, hlen, herr⟩
    · obtain rfl := failsClean_orThrow _ _ d e d' hfirst
      exact h
    · obtain ⟨-, rfl⟩ := orThrow_ok.mp hlen
      split_ifs at herr with hlong
      · obtain rfl := failsClean_throw _ d e d' herr
        exact h
      · exact h.setPropertyBytes_failed hname herr

theorem boardDtb_wellFormed : boardDtb.WellFormed boardTree := by
  refine ⟨boardDtb_encodes, boardDtb_regular, ?_⟩
  rw [boardDtb_shows.offMemRsvmap]
  exact Nat.le_refl 40

/-- The blob takes the name `x` but not a value of 40 bytes for it. -/
theorem failed_setProperty_keeps_tree_example :
    ∃ d', setPropertyBytes (ascii "/memory") (ascii "x") (List.replicate 40 0) boardDtb
        = (.error .bufferTooSmall, d')
      ∧ d' ≠ boardDtb ∧ d'.WellFormed boardTree := by
  have hrun : (setPropertyBytes (ascii "/memory") (ascii "x") (List.replicate 40 0) boardDtb).1
      = .error .bufferTooSmall := by
    decide +kernel
  have hsize : (setPropertyBytes (ascii "/memory") (ascii "x") (List.replicate 40 0)
      boardDtb).2.sizeDtStrings = 12 := by
    decide +kernel
  have herr := eq_of_fst_error hrun
  refine ⟨_, herr, ?_, ?_⟩
  · intro hsame
    rw [hsame, boardDtb_shows.sizeDtStrings] at hsize
    cases hsize
  · exact (failed_setProperty_keeps_tree boardDtb_wellFormed (by decide)).1 _ _ _ herr

/-- **A reserve map over the header changes with the appended name.**  The small
    blob with the map at offset 24 reads the size of the strings block as part of
    its first entry. -/
theorem failed_setProperty_changes_header_entry :
    (smallDtb 24).Encodes (smallTree [headerEntry 16])
      ∧ (smallDtb 24).Regular (smallTree [headerEntry 16]) ∧ IsText (ascii "x")
      ∧ ∃ e d', setPropertyBytes (ascii "/") (ascii "x") (List.replicate 40 0) (smallDtb 24)
            = (.error e, d')
          ∧ ¬ d'.Encodes (smallTree [headerEntry 16]) := by
  have hrun : (setPropertyBytes (ascii "/") (ascii "x") (List.replicate 40 0) (smallDtb 24)).1
      = .error .bufferTooSmall := by
    decide +kernel
  have hentry : (setPropertyBytes (ascii "/") (ascii "x") (List.replicate 40 0)
      (smallDtb 24)).2.reserveEntry 0 = some { address := 16 * 2 ^ 32, size := 6 * 2 ^ 32 + 16 } := by
    decide +kernel
  refine ⟨smallDtb_encodes_header, smallDtb_regular (by decide) _, by decide, _, _,
    eq_of_fst_error hrun, ?_⟩
  intro henc
  have hkept := henc.reserveEntry 0 (show _ = some (headerEntry 16) from rfl)
  exact absurd (hkept.symm.trans hentry) (by decide)

end Dtb

end RustFirmware.DeviceTree
