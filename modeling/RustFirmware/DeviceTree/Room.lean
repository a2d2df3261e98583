/-
  RustFirmware.DeviceTree.Room
  ────────────────────────────
  **WITH ENOUGH ROOM THE EDITS SUCCEED.**

  The refinement theorems say what a successful edit does.  Here is when an edit
  IS successful: the free space behind the strings holds what it adds, the strings
  are terminated, and a record that is replaced does not shrink by more than
  2 GiB (the header is corrected by a signed 32-bit difference).

  §5 makes the room: a clone is the same image with zeros behind it.
-/
import RustFirmware.DeviceTree.SetProperty
import RustFirmware.DeviceTree.CreateNode
import RustFirmware.Lib.Checked

namespace RustFirmware.DeviceTree

open RustFirmware.Lib

/-! ## §1. Steps that succeed. -/

theorem DtbM.read_of_ok {α : Type} (f : Dtb → Except DtbError α) {d : Dtb} {a : α}
    (h : f d = .ok a) : DtbM.read f d = (.ok a, d) := by
  rw [DtbM.read, h]

namespace Dtb

variable {d : Dtb} {m : Image}

theorem insertBytes_exists {offset : Nat} {bytes : Bytes} (hroom : offset + bytes.length ≤ d.size)
    (hsize : d.size < 2 ^ 32) : insertBytes offset bytes d
      = (.ok (offset + bytes.length), { d with blob := overwrite d.blob offset bytes }) := by
  have hadd : DtbM.orThrow (checkedAdd 64 offset bytes.length) .sizeOverflow d
      = (.ok (offset + bytes.length), d) := by
    rw [checkedAdd_some (by omega)]
    rfl
  rw [insertBytes, DtbM.bind_of_ok hadd]
  show (if offset + bytes.length > d.size then DtbM.throw .bufferTooSmall else _ : DtbM Nat) d = _
  rw [if_neg (by omega)]
  rfl

theorem ensureRange_exists {offset length : Nat} (hroom : offset + length ≤ d.size)
    (hsize : d.size < 2 ^ 32) : ensureRange offset length d = (.ok (), d) := by
  have hadd : DtbM.orThrow (checkedAdd 64 offset length) .sizeOverflow d
      = (.ok (offset + length), d) := by
    rw [checkedAdd_some (by omega)]
    rfl
  rw [ensureRange, DtbM.bind_of_ok hadd]
  show (if offset + length > d.size then DtbM.throw .bufferTooSmall else _ : DtbM Unit) d = _
  rw [if_neg (by omega)]
  rfl

theorem checkedAddSigned_some (value : Nat) (delta : Int) (hlow : 0 ≤ value + delta)
    (hhigh : value + delta < 2 ^ 32) :
    checkedAddSigned value delta = some ((value : Int) + delta).toNat :=
  if_pos ⟨hlow, hhigh⟩

/-- A header word of a blob that starts with these words. -/
theorem headerWord_wordBytes {words : List Nat} {rest : Bytes} {i value : Nat}
    (hblob : d.blob = wordBytes words ++ rest) (hword : words[i]? = some value)
    (hvalue : value < 2 ^ 32) : d.headerWord (4 * i) = value := by
  rw [headerWord, hblob, readBe32_wordBytes hword hvalue]
  rfl

/-! ## §2. The splice. -/

/-- **The splice succeeds** if what it makes room for fits. -/
theorem Shows.spliceStructPlaceholder_exists {before old after : Bytes} {newLen : Nat}
    (h : d.Shows m) (hblock : m.structureBlock = before ++ (old ++ after))
    (hroom : m.offDtStrings + m.strings.length + newLen ≤ m.totalSize + old.length)
    (hshrink : old.length ≤ newLen + 2 ^ 31) (hgrow : newLen < 2 ^ 31) :
    ∃ d', Dtb.spliceStructPlaceholder (m.offDtStruct + before.length) old.length newLen d
      = (.ok (), d') := by
  have hsmall := h.fits.small
  have hlength : m.structureBlock.length = before.length + (old.length + after.length) := by
    rw [hblock, List.length_append, List.length_append]
  have hstrings : m.offDtStrings = m.offDtStruct + m.structureBlock.length + m.gap.length := rfl
  have htotal : m.totalSize = m.offDtStrings + m.strings.length + m.free.length := rfl
  have hused : d.usedBlobEndOffset = m.offDtStrings + m.strings.length := by
    rw [Dtb.usedBlobEndOffset, h.offDtStrings, h.sizeDtStrings]
  have hstructEnd : d.structureEndOffset = m.offDtStruct + m.structureBlock.length := by
    rw [Dtb.structureEndOffset, h.offDtStruct, h.sizeDtStruct]
  -- the header in the moved blob is still the old one
  obtain ⟨m', -, -, hmoved⟩ := h.moved hblock
    (show m.offDtStrings + m.strings.length - old.length + newLen ≤ m.totalSize by omega)
  generalize hblob : overwrite (moveBytes d.blob (m.offDtStruct + before.length + old.length)
      (m.offDtStruct + before.length + newLen)
      (m.offDtStrings + m.strings.length - (m.offDtStruct + before.length + old.length)))
      (m.offDtStruct + before.length) (List.replicate newLen 0) = blob at hmoved
  have hsizeWord : Dtb.sizeDtStruct { d with blob := blob } = m.structureBlock.length :=
    headerWord_wordBytes (i := 9) hmoved rfl (by omega)
  have hnewSize := checkedAddSigned_some m.structureBlock.length ((newLen : Int) - old.length)
    (by omega) (by omega)
  generalize ((m.structureBlock.length : Int) + ((newLen : Int) - old.length)).toNat = newSize
    at hnewSize
  have hstringsWord : Dtb.offDtStrings { d with blob := overwrite blob 36 (be32 newSize) }
      = m.offDtStrings := by
    have hset : overwrite blob 36 (be32 newSize) = wordBytes (m.words.set 9 newSize) ++ m'.body := by
      rw [hmoved]
      exact overwrite_wordBytes (i := 9) newSize m'.body (by simp [Image.words])
    exact headerWord_wordBytes (i := 3) hset rfl (by omega)
  have hnewOffset := checkedAddSigned_some m.offDtStrings ((newLen : Int) - old.length)
    (by omega) (by omega)
  generalize ((m.offDtStrings : Int) + ((newLen : Int) - old.length)).toNat = newOffset at hnewOffset
  refine ⟨{ d with blob := overwrite (overwrite blob 36 (be32 newSize)) 12 (be32 newOffset) }, ?_⟩
  simp only [Dtb.spliceStructPlaceholder, DtbM.bind_ok, DtbM.orThrow_ok, DtbM.read_ok, DtbM.guard_ok,
    writeBytes_ok, copyWithin_ok, setSizeDtStruct, setOffDtStrings, Except.ok.injEq]
  refine ⟨_, _, ⟨hused, rfl⟩, _, _, ⟨h.offDtStruct, rfl⟩, _, _, ⟨hstructEnd, rfl⟩, by omega, _, _,
    ⟨checkedAdd_some (by omega), rfl⟩, by omega, m.offDtStrings + m.strings.length - old.length + newLen,
    _, ⟨?_, rfl⟩, _, _, ⟨h.size, rfl⟩, by omega, (), _, rfl, (), _, ?_, by omega, _, _, ⟨hsizeWord, rfl⟩,
    _, _, ⟨hnewSize, rfl⟩, (), _, rfl, _, _, ⟨hstringsWord, rfl⟩, _, _, ⟨hnewOffset, rfl⟩, rfl⟩
  · rw [checkedSub_some (by omega)]
    exact checkedAdd_some (by omega)
  · rw [← hblob]

/-! ## §3. The strings. -/

/-- The first string of a terminated block is UTF-8, and the rest is terminated. -/
theorem terminated_tail {text after : Bytes} (h : Terminated (text ++ 0 :: after)) :
    utf8Valid text = true ∧ Terminated after := by
  obtain ⟨hlast, hvalid⟩ := h
  obtain ⟨htext, hafter⟩ := (utf8Valid_append_ascii (by decide) text after).mp hvalid
  refine ⟨htext, ?_, hafter⟩
  cases after with
  | nil => exact .inl rfl
  | cons b after =>
      refine .inr ?_
      rcases hlast with hnil | hlast
      · simp at hnil
      · rw [List.getLast?_append, List.getLast?_cons_cons] at hlast
        cases hend : (b :: after).getLast? with
        | none => simp at hend
        | some x =>
            rw [hend] at hlast
            exact hlast

/-- A terminated block that is not empty has a NUL. -/
theorem exists_nul {bytes : Bytes} (h : Terminated bytes) (hne : bytes ≠ []) :
    ∃ stop, nulPosition bytes = some stop := by
  have hmem : (0 : UInt8) ∈ bytes := by
    rcases h.1 with hnil | hlast
    · exact absurd hnil hne
    · exact List.mem_of_getLast? hlast
  cases hpos : nulPosition bytes with
  | some stop => exact ⟨stop, rfl⟩
  | none =>
      have hnone := List.findIdx?_eq_none_iff.mp hpos 0 hmem
      simp at hnone

/-- The search for a name runs through a terminated block. -/
theorem findString_exists (name : Bytes) (fuel : Nat) {bytes strings : Bytes} {start size offset : Nat}
    (hbound : start + size ≤ bytes.length) (hstrings : (bytes.drop start).take size = strings)
    (hterm : Terminated (strings.drop offset)) :
    ∃ found, findString bytes start size name fuel offset = .ok found := by
  induction fuel generalizing offset with
  | zero => exact ⟨none, rfl⟩
  | succ fuel ih =>
      rw [findString]
      by_cases hlt : offset < size
      case neg =>
        rw [if_neg hlt]
        exact ⟨none, rfl⟩
      have hrest : (bytes.drop (start + offset)).take (size - offset) = strings.drop offset := by
        rw [← hstrings, List.drop_take, List.drop_drop]
      have hlength : (strings.drop offset).length = size - offset := by
        rw [← hrest, List.length_take, List.length_drop]
        omega
      obtain ⟨k, hk⟩ := exists_nul hterm (by
        intro hnil
        rw [hnil, List.length_nil] at hlength
        omega)
      have hklt := nulPosition_lt hk
      obtain ⟨-, after, hsplit⟩ := nulPosition_eq_some hk
      have hexisting : (bytes.drop (start + offset)).take (start + offset + k - (start + offset))
          = (strings.drop offset).take k := by
        rw [← hrest, List.take_take, Nat.add_sub_cancel_left, Nat.min_eq_left (by omega)]
      rw [hsplit] at hterm
      obtain ⟨hvalid, hafter⟩ := terminated_tail hterm
      rw [if_pos hlt, nulBefore_eq (by omega), hrest, hk]
      dsimp only [Option.map_some]
      rw [hexisting, fromUtf8, if_pos hvalid]
      dsimp only
      split_ifs with hname
      · exact ⟨some offset, rfl⟩
      · -- on to the string behind the NUL
        have hnext : strings.drop (start + offset + k - start + 1) = after := by
          have hdrop : strings.drop (start + offset + k - start + 1)
              = (strings.drop offset).drop (k + 1) := by
            rw [List.drop_drop]
            congr 1
            omega
          have htake : ((strings.drop offset).take k ++ [0]).length = k + 1 := by
            rw [List.length_append, List.length_take, List.length_singleton, Nat.min_eq_left (by omega)]
          calc strings.drop (start + offset + k - start + 1)
              = ((strings.drop offset).take k ++ [0] ++ after).drop (k + 1) := by
                rw [hdrop, List.append_assoc, List.singleton_append, ← hsplit]
            _ = after := List.drop_left' htake
        refine ih ?_
        rw [hnext]
        exact hafter

/-- **Finding or adding a name succeeds** if its text and NUL fit. -/
theorem Shows.findOrAddString_exists {name : Bytes} (h : d.Shows m) (hterm : Terminated m.strings)
    (hroom : m.offDtStrings + m.strings.length + (name.length + 1) ≤ m.totalSize) :
    ∃ nameOffset d', Dtb.findOrAddString name d = (.ok nameOffset, d') := by
  have hsmall := h.fits.small
  have hsize := h.size
  have hlength := m.bytes_length
  have htotal : m.totalSize = m.offDtStrings + m.strings.length + m.free.length := rfl
  have hbytes : d.blob.take d.size = m.bytes := by
    rw [h.blob, h.size, ← m.bytes_length, List.take_length]
  have hused : d.usedBlobEndOffset = m.offDtStrings + m.strings.length := by
    rw [Dtb.usedBlobEndOffset, h.offDtStrings, h.sizeDtStrings]
  obtain ⟨found, hfound⟩ := findString_exists name (m.strings.length + 1)
    (show m.offDtStrings + m.strings.length ≤ m.bytes.length by omega)
    (show _ = m.strings by rw [m.bytes_drop_strings, List.take_left])
    (show Terminated (m.strings.drop 0) from hterm)
  have hread : DtbM.read (fun d => Dtb.findString (d.blob.take d.size) m.offDtStrings m.strings.length name
      (m.strings.length + 1) 0) d = (.ok found, d) := by
    show (Dtb.findString (d.blob.take d.size) _ _ _ _ _, d) = _
    rw [hbytes, hfound]
  have hstart : DtbM.read (fun d => .ok d.offDtStrings) d = (.ok m.offDtStrings, d) := by
    show (Except.ok d.offDtStrings, d) = _
    rw [h.offDtStrings]
  have hstringsSize : DtbM.read (fun d => .ok d.sizeDtStrings) d = (.ok m.strings.length, d) := by
    show (Except.ok d.sizeDtStrings, d) = _
    rw [h.sizeDtStrings]
  rw [Dtb.findOrAddString, DtbM.bind_of_ok hstart, DtbM.bind_of_ok hstringsSize, DtbM.bind_of_ok hread]
  cases found with
  | some offset =>
      obtain ⟨-, hlt⟩ := findString_some (m.fdt d.pointer) (by omega)
        (by rw [m.bytes_drop_strings, List.take_left]; rfl) hfound
      refine ⟨offset, d, DtbM.orThrow_ok.mpr ⟨u32OrOverflow_eq_some.mpr ⟨?_, rfl⟩, rfl⟩⟩
      omega
  | none =>
      have habsolute : DtbM.read (fun d => .ok d.usedBlobEndOffset) d
          = (.ok (m.offDtStrings + m.strings.length), d) := by
        show (Except.ok d.usedBlobEndOffset, d) = _
        rw [hused]
      show ∃ nameOffset d', ((DtbM.read (fun d => .ok d.usedBlobEndOffset) >>= _) : DtbM Nat) d = _
      rw [DtbM.bind_of_ok habsolute, DtbM.bind_of_ok (ensureRange_exists (by omega) (by omega)),
        DtbM.bind_of_ok (insertBytes_exists (by omega) (by omega)),
        DtbM.bind_of_ok (insertBytes_exists (show _ + ([0] : Bytes).length ≤ _ by
          show m.offDtStrings + m.strings.length + name.length + 1 ≤ d.size
          omega) (by show d.size < 2 ^ 32; omega))]
      refine ⟨m.strings.length, _, DtbM.bind_ok.mpr ⟨_, _, DtbM.orThrow_ok.mpr
        ⟨u32OrOverflow_eq_some.mpr ⟨?_, rfl⟩, rfl⟩, DtbM.bind_ok.mpr ⟨(), _, rfl, DtbM.orThrow_ok.mpr
          ⟨u32OrOverflow_eq_some.mpr ⟨?_, rfl⟩, rfl⟩⟩⟩⟩
      · omega
      · omega

/-! ## §4. The call. -/

/-- A path that is followed has no empty component. -/
theorem descend_nonempty {fdt : Fdt} {node found : FdtNode} {components : List Bytes}
    (h : fdt.descend node components = some found) : ∀ component ∈ components, component ≠ [] := by
  induction components generalizing node with
  | nil =>
      intro component hmem
      cases hmem
  | cons first components ih =>
      rw [Fdt.descend] at h
      split_ifs at h with hempty
      split at h
      · cases h
      · intro component hmem
        rcases List.mem_cons.mp hmem with rfl | hmem
        · exact hempty
        · exact ih h component hmem

/-- The node's offsets are found where the path leads. -/
theorem findNodeLocation_exists {fdt : Fdt} {path : Bytes} {node : FdtNode}
    (hview : d.fdtView = .ok fdt) (hnode : fdt.findNode path = some node) :
    d.findNodeLocation path = .ok (node.beginOffset, node.endOffset) := by
  unfold findNodeLocation
  split_ifs with hslash
  · rw [Fdt.findNode, if_pos hslash] at hnode
    simp only [hview, hnode, okOr, bind, Except.bind]
  · obtain ⟨habsolute, root, hroot, hdescend⟩ := Fdt.findNode_eq_some.mp hnode
    rcases habsolute with hroot' | ⟨components, hsplit⟩
    · exact absurd hroot' hslash
    · rw [pathComponents, if_neg hslash, hsplit, List.tail_cons] at hdescend
      have hnonempty := descend_nonempty hdescend
      simp only [hsplit, hview, hnode, okOr, bind, Except.bind]
      rw [if_neg (by simp), if_neg]
      simp only [List.any_eq_true, not_exists, not_and]
      intro component hmem hempty
      exact hnonempty component hmem (List.isEmpty_iff.mp hempty)

/-- **Making room for a record succeeds.** -/
theorem Shows.preparePropertyRecord_exists {offset valueLength : Nat} {n p : Bytes} {inner : Items}
    {name front back : Bytes} (h : d.Shows m) (hnode : (m.fdt d.pointer).NodeAt offset n p inner)
    (hnamed : (inner.contents (m.fdt d.pointer).stringAt).Named)
    (hblock : m.structureBlock = front ++ (inner.flat ++ back))
    (hfront : front.length = offset + (nodeHead n p).length)
    (hroom : m.offDtStrings + m.strings.length + (12 + align4 valueLength) ≤ m.totalSize)
    (hvalue : valueLength < 2 ^ 30)
    (hold : ∀ old, (inner.contents (m.fdt d.pointer).stringAt).property name = some old →
      old.length ≤ 2 ^ 31) :
    ∃ recordOffset d', Dtb.preparePropertyRecord (offset, (spanNode offset n p inner).endOffset) name
      valueLength d = (.ok recordOffset, d') := by
  have hfuel := hnode.tokens_lt
  have hsmall := h.fits.small
  obtain ⟨before, old, after, hsite, hwrites⟩ := exists_propSite hnode.valid hnamed hnode.inside
    hnode.inside_mod (show inner.tokens < (m.fdt d.pointer).loopBound by omega) m.offDtStruct name
  have hshape : m.structureBlock = (front ++ before) ++ (old ++ (after ++ back)) := by
    rw [hblock, hsite.flat]
    simp only [List.append_assoc]
  have hposition : m.offDtStruct + (offset + (nodeHead n p).length + before.length)
      = m.offDtStruct + (front ++ before).length := by
    rw [List.length_append, hfront]
  have hshrink : old.length ≤ 12 + align4 valueLength + 2 ^ 31 := by
    rcases hsite.replaced with rfl | ⟨value, hproperty, hlength⟩
    · exact Nat.zero_le _
    · have hle := hold value hproperty
      rw [hlength]
      unfold align4
      omega
  have hgrow : 12 + align4 valueLength < 2 ^ 31 := by
    unfold align4
    omega
  obtain ⟨d', hsplice⟩ := h.spliceStructPlaceholder_exists hshape
    (show m.offDtStrings + m.strings.length + (12 + align4 valueLength) ≤ m.totalSize + old.length
      by omega) hshrink hgrow
  have hrecord : propertyRecordLength valueLength = .ok (12 + align4 valueLength) :=
    okOr_eq_ok.mpr (checkedAdd_some (by omega))
  have hfind : d.findDirectProperty (offset, (spanNode offset n p inner).endOffset) name
      = findPropertyLoop (m.fdt d.pointer) m.offDtStruct
          (offset + (nodeHead n p).length + inner.flat.length) name (m.fdt d.pointer).loopBound
          (offset + (nodeHead n p).length) := by
    simp only [findDirectProperty, h.fdtView, hnode.headAt.next, okOr, bind, Except.bind, h.offDtStruct,
      spanNode]
  have hlength := DtbM.read_of_ok (d := d) (fun _ => propertyRecordLength valueLength) hrecord
  rw [← hposition] at hsplice
  rw [Dtb.preparePropertyRecord]
  rcases hwrites with hfound | ⟨hnone, rfl, hinsert⟩
  · have hread := DtbM.read_of_ok (fun d => d.findDirectProperty _ name) (hfind.trans hfound)
    rw [DtbM.bind_of_ok hread]
    dsimp only
    rw [DtbM.bind_of_ok hlength, DtbM.bind_of_ok hsplice]
    exact ⟨_, d', rfl⟩
  · have hread := DtbM.read_of_ok (fun d => d.findDirectProperty _ name) (hfind.trans hnone)
    have hinsertion : d.propertyInsertionOffset (offset, (spanNode offset n p inner).endOffset)
        = .ok (m.offDtStruct + (offset + (nodeHead n p).length + before.length)) := by
      rw [propertyInsertionOffset_eq h hnode, hinsert]
      rfl
    have hreadInsertion := DtbM.read_of_ok (fun d => d.propertyInsertionOffset _) hinsertion
    rw [DtbM.bind_of_ok hread]
    dsimp only
    rw [List.length_nil] at hsplice
    rw [DtbM.bind_of_ok hreadInsertion, DtbM.bind_of_ok hlength, DtbM.bind_of_ok hsplice]
    exact ⟨_, d', rfl⟩

/-- **The five writes succeed** inside the room made for them. -/
theorem writeRecord_exists (nameOffset : Nat) {recordOffset : Nat} {value : Bytes}
    (hroom : recordOffset + (12 + align4 value.length) ≤ d.size) (hsize : d.size < 2 ^ 32) :
    ∃ d', (do
      let _ ← insertU32 recordOffset fdtProp
      let storedLength ← DtbM.orThrow (u32OrOverflow value.length) .sizeOverflow
      let _ ← insertU32 (recordOffset + 4) storedLength
      let _ ← insertU32 (recordOffset + 8) nameOffset
      let _ ← insertBytes (recordOffset + 12) value
      Dtb.zeroPropertyPadding recordOffset value.length : DtbM Unit) d = (.ok (), d') := by
  have halign := add_padLength value.length
  have hstored : ∀ d, DtbM.orThrow (u32OrOverflow value.length) .sizeOverflow d
      = (.ok value.length, d) := by
    intro d
    exact DtbM.orThrow_ok.mpr ⟨u32OrOverflow_eq_some.mpr ⟨by omega, rfl⟩, rfl⟩
  -- every write keeps the size, so each finds the same bound
  have hword : ∀ (d₁ : Dtb) (offset word : Nat), d₁.size = d.size → offset + 4 ≤ recordOffset + 12 →
      ∃ d₂, insertU32 offset word d₁ = (.ok (offset + 4), d₂) ∧ d₂.size = d.size := by
    intro d₁ offset word hd₁ hoffset
    refine ⟨_, insertBytes_exists ?_ (by omega), hd₁⟩
    rw [be32_length]
    omega
  obtain ⟨d₁, htoken, hd₁⟩ := hword d recordOffset fdtProp rfl (by omega)
  obtain ⟨d₂, hlength, hd₂⟩ := hword d₁ (recordOffset + 4) value.length hd₁ (by omega)
  obtain ⟨d₃, hname, hd₃⟩ := hword d₂ (recordOffset + 8) nameOffset hd₂ (by omega)
  obtain ⟨d₄, hvalue, hd₄⟩ : ∃ d₄, insertBytes (recordOffset + 12) value d₃
      = (.ok (recordOffset + 12 + value.length), d₄) ∧ d₄.size = d.size :=
    ⟨_, insertBytes_exists (by omega) (by omega), hd₃⟩
  rw [DtbM.bind_of_ok htoken, DtbM.bind_of_ok (hstored d₁), DtbM.bind_of_ok hlength,
    DtbM.bind_of_ok hname, DtbM.bind_of_ok hvalue]
  unfold zeroPropertyPadding
  split_ifs with hnone
  · exact ⟨_, rfl⟩
  · have hensure := ensureRange_exists
      (show recordOffset + 12 + value.length + (align4 value.length - value.length) ≤ d₄.size by
        unfold padLength at halign
        omega) (show d₄.size < 2 ^ 32 by omega)
    rw [DtbM.bind_of_ok hensure]
    exact ⟨_, rfl⟩

/-- **Setting a property succeeds** if the name and the record fit. -/
theorem setPropertyBytes_exists {tree : Tree} {path name value : Bytes} {fdt : Fdt} {node : FdtNode}
    (hdec : d.Decodes tree) (hregular : d.Regular tree) (hview : d.fdtView = .ok fdt)
    (hnode : fdt.findNode path = some node) (hname : IsText name)
    (hroom : d.usedBlobEndOffset + (name.length + 1) + (12 + align4 value.length) ≤ d.size)
    (hvalue : value.length < 2 ^ 30)
    (hold : ∀ old, fdt.getProperty node name = some old → old.length ≤ 2 ^ 31) :
    ∃ d', setPropertyBytes path name value d = (.ok (), d') := by
  obtain ⟨m, items, pad, lead, trail, hm, hh⟩ := hdec.exists_image
  obtain rfl : fdt = m.fdt d.pointer := Except.ok.inj (hview.symm.trans hm.fdtView)
  have hterm : Terminated m.strings := hregular.terminated _ hm.fdtView
  have hnamed := hregular.named
  rw [← hh.contents] at hnamed
  have hsmall := hm.fits.small
  have hsize := hm.size
  have hused : d.usedBlobEndOffset = m.offDtStrings + m.strings.length := by
    rw [usedBlobEndOffset, hm.offDtStrings, hm.sizeDtStrings]
  -- the addressed node, and the bytes around its contents
  obtain ⟨rfl, -, -, inner, n, p, before, after, -, rfl, hinnerAt, hinnerNamed, hblock⟩ :=
    hh.resolve hnamed hnode
  have hlocation := findNodeLocation_exists hview hnode
  rw [hinnerAt.getProperty hinnerNamed] at hold
  obtain ⟨nameOffset, d₁, hstring⟩ := hm.findOrAddString_exists hterm
    (show m.offDtStrings + m.strings.length + (name.length + 1) ≤ m.totalSize by omega)
  obtain ⟨hpointer₁, more, free₁, hm₁, -, -, -, hmore⟩ := hm.findOrAddString hname hterm hstring
  have hsize₁ := (keepsPlace_findOrAddString name).size_of_ok hstring
  -- the names from before still resolve
  have hcontents : inner.contents
      (Image.fdt { m with strings := m.strings ++ more, free := free₁ } d₁.pointer).stringAt
        = inner.contents (m.fdt d.pointer).stringAt :=
    Items.contents_mono (fun o s hs => Fdt.stringAt_append rfl hs) hinnerNamed
  have hused₁ : Image.offDtStrings { m with strings := m.strings ++ more, free := free₁ }
      + (m.strings ++ more).length ≤ m.offDtStrings + m.strings.length + (name.length + 1) := by
    rw [List.length_append]
    show m.offDtStrings + _ ≤ _
    omega
  have htotal₁ : Image.totalSize { m with strings := m.strings ++ more, free := free₁ } = m.totalSize := by
    rw [← hm₁.size, hsize₁, hsize]
  obtain ⟨recordOffset, d₂, hrecord⟩ := hm₁.preparePropertyRecord_exists (hinnerAt.congr rfl)
    (by rw [hcontents]; exact hinnerNamed) (hh.block_around hblock) List.length_append
    (show _ + (12 + align4 value.length) ≤ _ by
      rw [htotal₁]
      show Image.offDtStrings _ + (m.strings ++ more).length + _ ≤ _
      omega) hvalue
    (show ∀ old, Contents.property name _ = some old → _ by rw [hcontents]; exact hold)
  obtain ⟨-, front, old, back, free₂, -, hoffset, hm₂⟩ := hm₁.preparePropertyRecord (hinnerAt.congr rfl)
    (by rw [hcontents]; exact hinnerNamed) (hh.block_around hblock) List.length_append hrecord
  have hsize₂ := (keepsPlace_preparePropertyRecord _ _ _).size_of_ok hrecord
  have hinside : recordOffset + (12 + align4 value.length) ≤ d₂.size := by
    rw [hm₂.size, hoffset]
    simp only [Image.totalSize, Image.offDtStrings, Image.offDtStruct, List.length_append,
      List.length_replicate]
    omega
  obtain ⟨d₃, hwrite⟩ := writeRecord_exists nameOffset hinside (by omega)
  refine ⟨d₃, ?_⟩
  rw [setPropertyBytes, DtbM.bind_of_ok (DtbM.read_of_ok (fun d => d.findNodeLocation path) hlocation),
    DtbM.bind_of_ok hstring]
  exact (DtbM.bind_of_ok hrecord).trans hwrite

/-! ## §5. The clone. -/

/-- **A clone is the image with zeros behind it**, at least `newSize` bytes long. -/
theorem Shows.clone {newSize : Nat} {a a' : Memory.PageAllocator} {d' : Dtb} (h : d.Shows m)
    (hok : Dtb.clone d newSize a = (.ok d', a'))
    (hpointer : validateDtbPointer d'.pointer = .ok ()) :
    newSize ≤ d'.size ∧ ∃ zeros, d'.Shows { m with free := m.free ++ zeros } := by
  unfold Dtb.clone at hok
  dsimp only at hok
  rw [h.totalSizeField] at hok
  split_ifs at hok with hsmall
  · cases (Prod.mk.inj hok).1
  split at hok
  · cases (Prod.mk.inj hok).1
  next allocatedSize hmul =>
    split_ifs at hok with hlarge
    case neg => cases (Prod.mk.inj hok).1
    split at hok
    · cases (Prod.mk.inj hok).1
    next physicalStart _ _ =>
      obtain ⟨hd, -⟩ := Prod.mk.inj hok
      obtain rfl := Except.ok.inj hd
      obtain ⟨-, hproduct⟩ := checkedMul_eq_some.mp hmul
      have hpage : Memory.efiPageSize = 4096 := rfl
      have hlarger : newSize ≤ allocatedSize := by
        rw [hproduct, hpage]
        omega
      refine ⟨hlarger, List.replicate (allocatedSize - m.totalSize) 0, ?_, ?_, ?_, hpointer⟩
      all_goals
        have htotal : Image.totalSize
            { m with free := m.free ++ List.replicate (allocatedSize - m.totalSize) 0 }
              = allocatedSize := by
          show m.offDtStrings + m.strings.length + (m.free ++ _).length = _
          rw [List.length_append, List.length_replicate]
          have hold : m.totalSize = m.offDtStrings + m.strings.length + m.free.length := rfl
          omega
      · -- only the header's `totalsize` is written
        have hcopied : d.blob.take m.totalSize = m.bytes := by
          rw [h.blob, ← m.bytes_length, List.take_length]
        show overwrite (d.blob.take m.totalSize ++ _) 4 (be32 allocatedSize) = _
        have hwords : Image.words
            { m with free := m.free ++ List.replicate (allocatedSize - m.totalSize) 0 }
              = m.words.set 1 allocatedSize := by
          show [fdtMagic, Image.totalSize _, _, _, _, _, _, _, _, _] = _
          rw [htotal]
          rfl
        have hbody : Image.body
            { m with free := m.free ++ List.replicate (allocatedSize - m.totalSize) 0 }
              = m.body ++ List.replicate (allocatedSize - m.totalSize) 0 := by
          simp only [Image.body, List.append_assoc]
        rw [hcopied, Image.bytes, Image.bytes, hwords, hbody, List.append_assoc]
        exact overwrite_wordBytes (i := 1) allocatedSize _ (by simp [Image.words])
      · exact htotal.symm
      · have hfits := h.fits
        refine ⟨?_, hfits.supported, hfits.version, hfits.comp, hfits.cpuid, ?_⟩
        · rw [htotal]
          omega
        · rw [htotal]
          have hreserved := hfits.reserved
          show m.offMemRsvmap ≤ _
          omega

/-- **The clone decodes to the same tree**, and the new bytes are free. -/
theorem clone_decodes {tree : Tree} {newSize : Nat} {a a' : Memory.PageAllocator} {d' : Dtb}
    {fdt : Fdt} {root : FdtNode} (hdec : d.Decodes tree) (hregular : d.Regular tree)
    (hbehind : fdtHeaderSize ≤ d.offMemRsvmap) (hview : d.fdtView = .ok fdt)
    (hroot : fdt.rootNode = some root) (hok : d.clone newSize a = (.ok d', a'))
    (hpointer : validateDtbPointer d'.pointer = .ok ()) :
    d'.Decodes tree ∧ d'.Regular tree ∧ fdtHeaderSize ≤ d'.offMemRsvmap
      ∧ (∃ fdt' root', d'.fdtView = .ok fdt' ∧ fdt'.rootNode = some root')
      ∧ d'.usedBlobEndOffset = d.usedBlobEndOffset ∧ d.usedBlobEndOffset ≤ d.size
      ∧ newSize ≤ d'.size := by
  obtain ⟨m, items, pad, lead, trail, hm, hh⟩ := hdec.exists_image
  obtain rfl : fdt = m.fdt d.pointer := Except.ok.inj (hview.symm.trans hm.fdtView)
  obtain rfl := hh.lead_eq_zero hroot
  rw [hm.offMemRsvmap] at hbehind
  obtain ⟨hlarger, zeros, hm'⟩ := hm.clone hok hpointer
  have hh' := hh.moreFree d'.pointer hbehind zeros
  have hused : d.usedBlobEndOffset = m.offDtStrings + m.strings.length := by
    rw [usedBlobEndOffset, hm.offDtStrings, hm.sizeDtStrings]
  refine ⟨hh'.decodes hm', ⟨hregular.propsFirst, hregular.named, ?_⟩, ?_,
    ⟨_, _, hm'.fdtView, hh'.nodeAt.nodeAtOffset⟩, ?_, ?_, hlarger⟩
  · intro fdt hview'
    rw [hm'.fdtView] at hview'
    cases hview'
    exact hregular.terminated (m.fdt d.pointer) hm.fdtView
  · rw [hm'.offMemRsvmap]
    exact hbehind
  · rw [hused, usedBlobEndOffset, hm'.offDtStrings, hm'.sizeDtStrings]
    rfl
  · rw [hused, hm.size]
    exact Nat.le_add_right _ _

end Dtb

end RustFirmware.DeviceTree
