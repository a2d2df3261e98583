/-
  RustFirmware.DeviceTree.Edit
  ────────────────────────────
  **WHAT THE EDITOR'S STEPS DO TO AN IMAGE.**

  Each step of the editor that succeeds is an edit of one section of the image:
  appending a name to the strings takes free space, splicing the structure block
  moves the strings behind it, and writing a record changes the bytes it was
  made room for.  The header words follow, because an image computes them.
-/
import RustFirmware.DeviceTree.Layout

namespace RustFirmware.DeviceTree

open RustFirmware.Lib

/-! ## §1. Runs of a method. -/

namespace DtbM

variable {α β : Type} {d d' : Dtb}

/-- A sequence succeeds when its steps do, one after the other. -/
theorem bind_ok {x : DtbM α} {f : α → DtbM β} {b : β} :
    (x >>= f) d = (.ok b, d') ↔ ∃ a d₁, x d = (.ok a, d₁) ∧ f a d₁ = (.ok b, d') := by
  rcases hx : x d with ⟨result, d₁⟩
  cases result with
  | error e =>
      rw [bind_of_error hx]
      simp
  | ok a =>
      rw [bind_of_ok hx]
      simp

theorem pure_ok {a b : α} : (pure a : DtbM α) d = (.ok b, d') ↔ a = b ∧ d = d' := by
  show ((.ok a, d) : Except DtbError α × Dtb) = _ ↔ _
  simp only [Prod.mk.injEq, Except.ok.injEq]

theorem read_ok {f : Dtb → Except DtbError α} {a : α} :
    read f d = (.ok a, d') ↔ f d = .ok a ∧ d = d' := by
  simp only [read, Prod.mk.injEq]

theorem orThrow_ok {o : Option α} {e : DtbError} {a : α} :
    orThrow o e d = (.ok a, d') ↔ o = some a ∧ d = d' := by
  cases o with
  | none => simp [orThrow, throw]
  | some b => simp only [orThrow, pure_ok, Option.some.injEq]

/-- A check that throws has been passed. -/
theorem guard_ok {p : Prop} [Decidable p] {e : DtbError} {x : DtbM α} {a : α} :
    (if p then throw e else x) d = (.ok a, d') ↔ ¬ p ∧ x d = (.ok a, d') := by
  split_ifs with hp <;> simp [hp, throw]

/-- A result and the state left with it. -/
theorem eq_of_fst {x : Except DtbError α × Dtb} {a : α} (h : x.1 = .ok a) : x = (.ok a, x.2) := by
  rw [← h]

/-- A method that leaves the blob where it is and as long as it is, whatever it
    returns. -/
def KeepsPlace (x : DtbM α) : Prop :=
  ∀ d, (x d).2.pointer = d.pointer ∧ (x d).2.size = d.size

theorem KeepsPlace.size_of_ok {x : DtbM α} (h : KeepsPlace x) {a : α} (hok : x d = (.ok a, d')) :
    d'.size = d.size := by
  have hsize := (h d).2
  rw [hok] at hsize
  exact hsize

theorem keepsPlace_pure (a : α) : KeepsPlace (pure a) := fun _ => ⟨rfl, rfl⟩

theorem keepsPlace_throw (e : DtbError) : KeepsPlace (throw e : DtbM α) := fun _ => ⟨rfl, rfl⟩

theorem keepsPlace_read (f : Dtb → Except DtbError α) : KeepsPlace (read f) := fun _ => ⟨rfl, rfl⟩

theorem keepsPlace_orThrow (o : Option α) (e : DtbError) : KeepsPlace (orThrow o e) := by
  cases o with
  | none => exact keepsPlace_throw e
  | some a => exact keepsPlace_pure a

theorem KeepsPlace.bind {x : DtbM α} {f : α → DtbM β} (hx : KeepsPlace x)
    (hf : ∀ a, KeepsPlace (f a)) : KeepsPlace (x >>= f) := by
  intro d
  have hfirst := hx d
  rcases hx : x d with ⟨result, d₁⟩
  rw [hx] at hfirst
  cases result with
  | error e =>
      rw [bind_of_error hx]
      exact hfirst
  | ok a =>
      rw [bind_of_ok hx]
      have hnext := hf a d₁
      exact ⟨hnext.1.trans hfirst.1, hnext.2.trans hfirst.2⟩

theorem keepsPlace_guard {p : Prop} [Decidable p] (e : DtbError) {x : DtbM α} (hx : KeepsPlace x) :
    KeepsPlace (if p then throw e else x) := by
  split_ifs
  · exact keepsPlace_throw e
  · exact hx

end DtbM

namespace Dtb

variable {d d' : Dtb}

theorem writeBytes_ok {offset : Nat} {bytes : Bytes} {u : Unit} :
    writeBytes offset bytes d = (.ok u, d')
      ↔ d' = { d with blob := overwrite d.blob offset bytes } := by
  simp only [writeBytes, Prod.mk.injEq, true_and]
  exact eq_comm

theorem copyWithin_ok {src dst count : Nat} {u : Unit} :
    copyWithin src dst count d = (.ok u, d')
      ↔ d' = { d with blob := moveBytes d.blob src dst count } := by
  simp only [copyWithin, Prod.mk.injEq, true_and]
  exact eq_comm

/-- `insert_bytes` writes inside the allocation. -/
theorem insertBytes_ok {offset stop : Nat} {bytes : Bytes}
    (h : insertBytes offset bytes d = (.ok stop, d')) :
    offset + bytes.length ≤ d.size
      ∧ d' = { d with blob := overwrite d.blob offset bytes } := by
  simp only [insertBytes, DtbM.bind_ok, DtbM.orThrow_ok, DtbM.read_ok, DtbM.guard_ok, DtbM.pure_ok,
    writeBytes_ok] at h
  obtain ⟨stop, _, ⟨hstop, rfl⟩, size, _, ⟨hsize, rfl⟩, hle, _, _, hd, -, rfl⟩ := h
  cases hsize
  have hsum := (checkedAdd_eq_some.mp hstop).2
  exact ⟨by omega, hd⟩

theorem ensureRange_ok {offset length : Nat} {u : Unit}
    (h : ensureRange offset length d = (.ok u, d')) : offset + length ≤ d.size ∧ d = d' := by
  simp only [ensureRange, DtbM.bind_ok, DtbM.orThrow_ok, DtbM.read_ok, DtbM.guard_ok,
    DtbM.pure_ok] at h
  obtain ⟨stop, _, ⟨hstop, rfl⟩, size, _, ⟨hsize, rfl⟩, hle, -, rfl⟩ := h
  cases hsize
  have hsum := (checkedAdd_eq_some.mp hstop).2
  exact ⟨by omega, rfl⟩

section Place

open DtbM

theorem keepsPlace_writeBytes (offset : Nat) (bytes : Bytes) :
    KeepsPlace (writeBytes offset bytes) := fun _ => ⟨rfl, rfl⟩

theorem keepsPlace_copyWithin (src dst count : Nat) :
    KeepsPlace (copyWithin src dst count) := fun _ => ⟨rfl, rfl⟩

theorem keepsPlace_insertBytes (offset : Nat) (bytes : Bytes) :
    KeepsPlace (insertBytes offset bytes) :=
  (keepsPlace_orThrow _ _).bind fun _ => (keepsPlace_read _).bind fun _ =>
    keepsPlace_guard _ ((keepsPlace_writeBytes _ _).bind fun _ => keepsPlace_pure _)

theorem keepsPlace_ensureRange (offset length : Nat) : KeepsPlace (ensureRange offset length) :=
  (keepsPlace_orThrow _ _).bind fun _ => (keepsPlace_read _).bind fun _ =>
    keepsPlace_guard _ (keepsPlace_pure _)

theorem keepsPlace_spliceStructPlaceholder (offset oldLen newLen : Nat) :
    KeepsPlace (spliceStructPlaceholder offset oldLen newLen) :=
  (keepsPlace_read _).bind fun _ => (keepsPlace_read _).bind fun _ =>
    (keepsPlace_read _).bind fun _ => keepsPlace_guard _ <|
    (keepsPlace_orThrow _ _).bind fun _ => keepsPlace_guard _ <|
    (keepsPlace_orThrow _ _).bind fun _ => (keepsPlace_read _).bind fun _ => keepsPlace_guard _ <|
    (keepsPlace_copyWithin _ _ _).bind fun _ => (keepsPlace_writeBytes _ _).bind fun _ =>
    keepsPlace_guard _ <| (keepsPlace_read _).bind fun _ => (keepsPlace_orThrow _ _).bind fun _ =>
    (keepsPlace_writeBytes _ _).bind fun _ => (keepsPlace_read _).bind fun _ =>
    (keepsPlace_orThrow _ _).bind fun _ => keepsPlace_writeBytes _ _

theorem keepsPlace_findOrAddString (name : Bytes) : KeepsPlace (findOrAddString name) := by
  refine (keepsPlace_read _).bind fun _ => (keepsPlace_read _).bind fun _ =>
    (keepsPlace_read _).bind fun found => ?_
  cases found with
  | some offset => exact keepsPlace_orThrow _ _
  | none =>
      exact (keepsPlace_read _).bind fun _ => (keepsPlace_ensureRange _ _).bind fun _ =>
        (keepsPlace_insertBytes _ _).bind fun _ => (keepsPlace_insertBytes _ _).bind fun _ =>
        (keepsPlace_orThrow _ _).bind fun _ => (keepsPlace_writeBytes _ _).bind fun _ =>
        keepsPlace_orThrow _ _

theorem keepsPlace_preparePropertyRecord (node : Nat × Nat) (name : Bytes) (valueLength : Nat) :
    KeepsPlace (preparePropertyRecord node name valueLength) := by
  refine (keepsPlace_read _).bind fun existing => ?_
  cases existing with
  | some existing =>
      exact (keepsPlace_read _).bind fun _ =>
        (keepsPlace_spliceStructPlaceholder _ _ _).bind fun _ => keepsPlace_pure _
  | none =>
      exact (keepsPlace_read _).bind fun _ => (keepsPlace_read _).bind fun _ =>
        (keepsPlace_spliceStructPlaceholder _ _ _).bind fun _ => keepsPlace_pure _

/-- **`set_property_bytes` stays where it is**, also when it fails half way. -/
theorem keepsPlace_setPropertyBytes (path name value : Bytes) :
    KeepsPlace (setPropertyBytes path name value) := by
  refine (keepsPlace_read _).bind fun _ => (keepsPlace_findOrAddString _).bind fun _ =>
    (keepsPlace_preparePropertyRecord _ _ _).bind fun _ => (keepsPlace_insertBytes _ _).bind fun _ =>
    (keepsPlace_orThrow _ _).bind fun _ => (keepsPlace_insertBytes _ _).bind fun _ =>
    (keepsPlace_insertBytes _ _).bind fun _ => (keepsPlace_insertBytes _ _).bind fun _ => ?_
  unfold zeroPropertyPadding
  dsimp only
  split_ifs
  · exact keepsPlace_pure _
  · exact (keepsPlace_ensureRange _ _).bind fun _ => keepsPlace_writeBytes _ _

theorem keepsPlace_insertChildNode (parentEnd : Nat) (name : Bytes) :
    KeepsPlace (insertChildNode parentEnd name) :=
  keepsPlace_guard _ <| (keepsPlace_read _).bind fun _ =>
    ((keepsPlace_spliceStructPlaceholder _ _ _).bind fun _ => keepsPlace_writeBytes _ _).bind fun _ =>
    (keepsPlace_read _).bind fun _ => keepsPlace_pure _

theorem keepsPlace_createComponents (path : List Bytes) (parentBegin parentEnd : Nat) :
    KeepsPlace (createComponents parentBegin parentEnd path) := by
  induction path generalizing parentBegin parentEnd with
  | nil => exact keepsPlace_pure _
  | cons component path ih =>
      refine keepsPlace_guard _ ((keepsPlace_read _).bind fun child => ?_)
      cases child with
      | some child => exact ih _ _
      | none => exact (keepsPlace_insertChildNode _ _).bind fun _ => ih _ _

theorem keepsPlace_createNode (path : Bytes) : KeepsPlace (createNode path) := by
  unfold createNode
  cases Fdt.splitPath path with
  | nil => exact keepsPlace_throw _
  | cons first components =>
      exact keepsPlace_guard _ ((keepsPlace_read _).bind fun _ => keepsPlace_createComponents _ _ _)

end Place

/-! ## §2. The structure block. -/

theorem checkedAddSigned_eq_some {value result : Nat} {delta : Int}
    (h : checkedAddSigned value delta = some result) :
    result < 2 ^ 32 ∧ (result : Int) = value + delta := by
  unfold checkedAddSigned at h
  split_ifs at h with hfits
  cases h
  omega

/-- Bytes written over bytes of the structure block. -/
theorem Shows.overwrite_struct {m : Image} {before xs ys after : Bytes} {offset : Nat}
    (h : d.Shows m) (hblock : m.structureBlock = before ++ (xs ++ after))
    (hoffset : offset = m.offDtStruct + before.length) (hlength : ys.length = xs.length) :
    Shows { d with blob := overwrite d.blob offset ys }
      { m with structureBlock := before ++ (ys ++ after) } := by
  let m' : Image := { m with structureBlock := before ++ (ys ++ after) }
  have hsame : m'.structureBlock.length = m.structureBlock.length := by
    simp only [m', hblock, List.length_append, hlength]
  have hwords : m'.words = m.words := by
    simp only [Image.words, Image.totalSize, Image.offDtStrings, Image.offDtStruct, hsame]
    rfl
  have htotal : m'.totalSize = m.totalSize := by
    simp only [Image.totalSize, Image.offDtStrings, Image.offDtStruct, hsame]
    rfl
  -- in front of the written bytes stand the header, the reserve map and `before`
  have hfront : ∀ zs, wordBytes m.words
      ++ (m.reserved ++ ((before ++ (zs ++ after)) ++ (m.gap ++ (m.strings ++ m.free))))
      = (wordBytes m.words ++ (m.reserved ++ before))
          ++ (zs ++ (after ++ (m.gap ++ (m.strings ++ m.free)))) := by
    intro zs
    simp only [List.append_assoc]
  refine ⟨?_, ?_, h.fits.congr htotal rfl rfl rfl rfl, h.pointer⟩
  · show overwrite d.blob offset ys = m'.bytes
    rw [h.blob, Image.bytes, Image.bytes, hwords, Image.body, hblock, hfront]
    show _ = wordBytes m.words ++ (m.reserved ++ ((before ++ (ys ++ after)) ++ _))
    rw [hfront]
    refine overwrite_middle ?_ hlength
    rw [m.front_length, hoffset]
  · show d.size = m'.totalSize
    rw [htotal]
    exact h.size

theorem propertyRecordLength_ok {valueLength length : Nat}
    (h : propertyRecordLength valueLength = .ok length) : length = 12 + align4 valueLength :=
  (checkedAdd_eq_some.mp (okOr_eq_ok.mp h)).2

/-- **`splice_struct_placeholder`, inverted**: the bytes are in the structure block,
    there was room, and the blob is moved, zeroed and given its two new header
    words. -/
theorem spliceStructPlaceholder_ok {offset oldLen newLen : Nat} {u : Unit}
    (h : spliceStructPlaceholder offset oldLen newLen d = (.ok u, d')) :
    (d.offDtStruct ≤ offset ∧ offset + oldLen ≤ d.structureEndOffset)
      ∧ d.usedBlobEndOffset - oldLen + newLen ≤ d.size
      ∧ ∃ (blob : Bytes) (newSize newOffset : Nat), newSize < 2 ^ 32 ∧ newOffset < 2 ^ 32
          ∧ blob = overwrite (moveBytes d.blob (offset + oldLen) (offset + newLen)
            (d.usedBlobEndOffset - (offset + oldLen))) offset (List.replicate newLen 0)
          ∧ (newSize : Int) = (headerWord { d with blob := blob } 36 : Int) + (newLen - oldLen)
          ∧ (newOffset : Int) = (headerWord { d with blob := overwrite blob 36 (be32 newSize) } 12 : Int)
              + (newLen - oldLen)
          ∧ d' = { d with blob := overwrite (overwrite blob 36 (be32 newSize)) 12 (be32 newOffset) } := by
  simp only [spliceStructPlaceholder, DtbM.bind_ok, DtbM.orThrow_ok, DtbM.read_ok, DtbM.guard_ok,
    writeBytes_ok, copyWithin_ok, setSizeDtStruct, setOffDtStrings, Except.ok.injEq] at h
  obtain ⟨usedEnd, _, ⟨rfl, rfl⟩, structStart, _, ⟨rfl, rfl⟩, structEnd, _, ⟨rfl, rfl⟩, hstart, oldEnd, _,
    ⟨hold, rfl⟩, hend, resulting, _, ⟨hresulting, rfl⟩, size, _, ⟨rfl, rfl⟩, hroom, _, _, rfl, _, _, rfl, -,
    sizeDtStruct, _, ⟨rfl, rfl⟩, newSize, _, ⟨hnewSize, rfl⟩, _, _, rfl, offDtStrings, _,
    ⟨rfl, rfl⟩, newOffset, _, ⟨hnewOffset, rfl⟩, rfl⟩ := h
  obtain ⟨value, hvalue, hsum⟩ := Option.bind_eq_some_iff.mp hresulting
  obtain ⟨-, rfl⟩ := checkedSub_eq_some.mp hvalue
  obtain ⟨-, rfl⟩ := checkedAdd_eq_some.mp hsum
  obtain ⟨-, rfl⟩ := checkedAdd_eq_some.mp hold
  obtain ⟨hsizeLt, hsize⟩ := checkedAddSigned_eq_some hnewSize
  obtain ⟨hoffsetLt, hoffset⟩ := checkedAddSigned_eq_some hnewOffset
  exact ⟨⟨by omega, Nat.not_lt.mp hend⟩, Nat.not_lt.mp hroom, _, newSize, newOffset, hsizeLt, hoffsetLt,
    rfl, hsize, hoffset, rfl⟩

/-- The move and the zeros, with the header still to be written. -/
theorem Shows.moved {m : Image} {before old after : Bytes} {newLen : Nat} (h : d.Shows m)
    (hblock : m.structureBlock = before ++ (old ++ after))
    (hroom : m.offDtStrings + m.strings.length - old.length + newLen ≤ m.totalSize) :
    ∃ m' : Image, (∃ free, m' = { m with
        structureBlock := before ++ (List.replicate newLen 0 ++ after), free := free })
      ∧ m'.totalSize = m.totalSize
      ∧ overwrite (moveBytes d.blob (m.offDtStruct + before.length + old.length)
          (m.offDtStruct + before.length + newLen)
          (m.offDtStrings + m.strings.length - (m.offDtStruct + before.length + old.length)))
          (m.offDtStruct + before.length) (List.replicate newLen 0)
        = wordBytes m.words ++ m'.body := by
  have hlength : m.structureBlock.length = before.length + (old.length + after.length) := by
    rw [hblock, List.length_append, List.length_append]
  have hstrings : m.offDtStrings = m.offDtStruct + m.structureBlock.length + m.gap.length := rfl
  have htotal : m.totalSize = m.offDtStrings + m.strings.length + m.free.length := rfl
  -- the blob around the spliced bytes: what stays in front, what moves, and the free space
  let front : Bytes := wordBytes m.words ++ (m.reserved ++ before)
  let kept : Bytes := after ++ (m.gap ++ m.strings)
  have hfront : front.length = m.offDtStruct + before.length := m.front_length before
  have hkept : kept.length
      = m.offDtStrings + m.strings.length - (m.offDtStruct + before.length + old.length) := by
    simp only [kept, List.length_append]
    omega
  have hbytes : d.blob = front ++ (old ++ (kept ++ m.free)) := by
    rw [h.blob, Image.bytes, Image.body, hblock]
    simp only [front, kept, List.append_assoc]
  have hsize : d.blob.length = m.totalSize := by rw [h.blob, m.bytes_length]
  have hmove := overwrite_moveBytes front old kept m.free (List.replicate newLen 0) (by
    rw [← hbytes, hsize, List.length_replicate]
    omega)
  rw [← hbytes, List.length_replicate, hfront] at hmove
  rw [← hkept, hmove]
  refine ⟨_, ⟨d.blob.drop (m.offDtStruct + before.length + newLen + kept.length), rfl⟩, ?_, ?_⟩
  · simp only [Image.totalSize, Image.offDtStrings, Image.offDtStruct, List.length_append,
      List.length_replicate, List.length_drop, hsize] at *
    omega
  · simp only [front, kept, Image.body, List.append_assoc]

/-- The two header words that follow a splice. -/
theorem Shows.set_header {m m' : Image} {blob : Bytes} {newSize newOffset : Nat} {delta : Int}
    (h : d.Shows m) (hblob : blob = wordBytes m.words ++ m'.body)
    (htotal : m'.totalSize = m.totalSize) (hstruct : m'.offDtStruct = m.offDtStruct)
    (hsize' : (m'.structureBlock.length : Int) = m.structureBlock.length + delta)
    (hoffset' : (m'.offDtStrings : Int) = m.offDtStrings + delta)
    (hfields : m'.version = m.version ∧ m'.lastCompVersion = m.lastCompVersion
      ∧ m'.bootCpuid = m.bootCpuid ∧ m'.offMemRsvmap = m.offMemRsvmap)
    (hstrings : m'.strings = m.strings)
    (hnewSize : (newSize : Int) = (Dtb.headerWord { d with blob := blob } 36 : Int) + delta)
    (hnewOffset : (newOffset : Int)
      = (Dtb.headerWord { d with blob := overwrite blob 36 (be32 newSize) } 12 : Int) + delta) :
    Shows { d with blob := overwrite (overwrite blob 36 (be32 newSize)) 12 (be32 newOffset) } m' := by
  obtain ⟨hversion, hcomp, hcpuid, hrsvmap⟩ := hfields
  have hsmall := h.fits.small
  have hsum : m.totalSize = m.offDtStrings + m.strings.length + m.free.length := rfl
  have hsum' : m.offDtStrings = m.offDtStruct + m.structureBlock.length + m.gap.length := rfl
  -- both words are read from the moved blob, whose header is still the old one
  have hword36 : Dtb.headerWord { d with blob := blob } 36 = m.structureBlock.length := by
    rw [Dtb.headerWord, hblob]
    rw [show (36 : Nat) = 4 * 9 from rfl, readBe32_wordBytes (i := 9) rfl (by omega)]
    rfl
  have hset36 : overwrite blob 36 (be32 newSize) = wordBytes (m.words.set 9 newSize) ++ m'.body := by
    rw [hblob]
    exact overwrite_wordBytes (i := 9) newSize m'.body (by simp [Image.words])
  have hword12 : Dtb.headerWord { d with blob := overwrite blob 36 (be32 newSize) } 12
      = m.offDtStrings := by
    rw [Dtb.headerWord, hset36]
    rw [show (12 : Nat) = 4 * 3 from rfl, readBe32_wordBytes (i := 3) rfl (by omega)]
    rfl
  rw [hword36] at hnewSize
  rw [hword12] at hnewOffset
  obtain rfl : newSize = m'.structureBlock.length := by omega
  obtain rfl : newOffset = m'.offDtStrings := by omega
  have hwords : (m.words.set 9 m'.structureBlock.length).set 3 m'.offDtStrings = m'.words := by
    simp only [Image.words, List.set, htotal, hstruct, hrsvmap, hversion, hcomp, hcpuid, hstrings]
  refine ⟨?_, ?_, h.fits.congr htotal hversion hcomp hcpuid hrsvmap, h.pointer⟩
  · show overwrite (overwrite blob 36 _) (4 * 3) _ = m'.bytes
    rw [hset36, overwrite_wordBytes _ _ (by simp [Image.words]), hwords]
    rfl
  · show d.size = m'.totalSize
    rw [htotal, h.size]

/-- **Splicing the structure block.**  The old bytes become zeros, the strings move,
    and the header follows. -/
theorem Shows.spliceStructPlaceholder {m : Image} {before old after : Bytes}
    {offset oldLen newLen : Nat} {u : Unit} (h : d.Shows m)
    (hblock : m.structureBlock = before ++ (old ++ after))
    (hoffset : offset = m.offDtStruct + before.length) (hold : oldLen = old.length)
    (hok : Dtb.spliceStructPlaceholder offset oldLen newLen d = (.ok u, d')) :
    d'.pointer = d.pointer ∧ ∃ free, d'.Shows
      { m with structureBlock := before ++ (List.replicate newLen 0 ++ after), free := free } := by
  obtain ⟨-, hroom, blob, newSize, newOffset, -, -, hblob, hnewSize, hnewOffset, rfl⟩ :=
    spliceStructPlaceholder_ok hok
  have hused : d.usedBlobEndOffset = m.offDtStrings + m.strings.length := by
    rw [Dtb.usedBlobEndOffset, h.offDtStrings, h.sizeDtStrings]
  subst hoffset hold
  rw [hused, h.size] at hroom
  rw [hused] at hblob
  obtain ⟨m', ⟨free, hm'⟩, htotal, hmoved⟩ := h.moved hblock hroom
  have hlength : m.structureBlock.length = before.length + (old.length + after.length) := by
    rw [hblock, List.length_append, List.length_append]
  have hlength' : m'.structureBlock.length = before.length + (newLen + after.length) := by
    rw [hm', List.length_append, List.length_append, List.length_replicate]
  have hstrings : m.offDtStrings = m.offDtStruct + m.structureBlock.length + m.gap.length := rfl
  have hstrings' : m'.offDtStrings = m.offDtStruct + m'.structureBlock.length + m.gap.length := by
    rw [hm']
    rfl
  refine ⟨rfl, free, ?_⟩
  rw [← hm']
  exact h.set_header (hblob.trans hmoved) htotal (by rw [hm']; rfl) (by omega) (by omega)
    (by rw [hm']; exact ⟨rfl, rfl, rfl, rfl⟩) (by rw [hm']) hnewSize hnewOffset

/-! ## §3. The strings block. -/

/-- The inner loop looks for the first NUL of a slice. -/
theorem nulBefore_eq {bytes : Bytes} {room cursor : Nat} (h : cursor + room ≤ bytes.length) :
    nulBefore bytes room cursor
      = (nulPosition ((bytes.drop cursor).take room)).map (fun k => cursor + k) := by
  induction room generalizing cursor with
  | zero => simp [nulBefore, nulPosition]
  | succ room ih =>
      have hlt : cursor < bytes.length := by omega
      rw [nulBefore, List.getD_eq_getElem _ _ hlt, List.drop_eq_getElem_cons hlt,
        List.take_succ_cons, nulPosition, List.findIdx?_cons]
      by_cases hzero : bytes[cursor] = 0
      · simp [hzero]
      · rw [if_neg hzero, if_neg (by simpa using hzero), ih (by omega), nulPosition, Option.map_map]
        congr 1
        funext k
        show cursor + 1 + k = cursor + (k + 1)
        omega

/-- A string that `find_or_add_string` finds is the name. -/
theorem findString_some (fdt : Fdt) {bytes name : Bytes} {start size fuel offset found : Nat}
    (hbound : start + size ≤ bytes.length) (hstrings : (bytes.drop start).take size = fdt.strings)
    (h : findString bytes start size name fuel offset = .ok (some found)) :
    fdt.stringAt found = some name ∧ found < size := by
  induction fuel generalizing offset with
  | zero => cases h
  | succ fuel ih =>
      rw [findString] at h
      by_cases hlt : offset < size
      case neg =>
        rw [if_neg hlt] at h
        cases h
      rw [if_pos hlt, nulBefore_eq (by omega)] at h
      -- what the loop looks at is the rest of the strings block
      have hrest : (bytes.drop (start + offset)).take (size - offset) = fdt.strings.drop offset := by
        rw [← hstrings, List.drop_take, List.drop_drop]
      rw [hrest] at h
      cases hpos : nulPosition (fdt.strings.drop offset) with
      | none =>
          rw [hpos] at h
          cases h
      | some k =>
          rw [hpos] at h
          have hk : k ≤ size - offset := by
            obtain ⟨hk, -⟩ := List.findIdx?_eq_some_iff_getElem.mp hpos
            rw [← hrest, List.length_take] at hk
            omega
          have hexisting : (bytes.drop (start + offset)).take (start + offset + k - (start + offset))
              = (fdt.strings.drop offset).take k := by
            rw [← hrest, List.take_take, Nat.add_sub_cancel_left, Nat.min_eq_left hk]
          simp only [Option.map_some] at h
          rw [hexisting] at h
          cases hutf8 : fromUtf8 ((fdt.strings.drop offset).take k) with
          | none =>
              rw [hutf8] at h
              cases h
          | some existing =>
              rw [hutf8] at h
              simp only at h
              split_ifs at h with hname
              · cases h
                have hlength : fdt.strings.length = size := by
                  rw [← hstrings, List.length_take, List.length_drop]
                  omega
                have hslice : slice? fdt.strings found fdt.strings.length
                    = some (fdt.strings.drop found) := by
                  rw [slice?, if_pos ⟨by omega, Nat.le_refl _⟩,
                    List.take_of_length_le (by rw [List.length_drop])]
                refine ⟨?_, hlt⟩
                simp only [Fdt.stringAt, hslice, hpos, Option.bind_eq_bind, Option.bind_some, hutf8,
                  hname]
              · exact ih h

theorem u32OrOverflow_eq_some {value result : Nat} :
    u32OrOverflow value = some result ↔ value < 2 ^ 32 ∧ result = value := by
  unfold u32OrOverflow
  split_ifs with h
  · simp only [h, true_and, Option.some.injEq]
    exact eq_comm
  · constructor
    · intro he
      cases he
    · intro he
      exact absurd he.1 h

/-- A terminated block stays terminated with one more string. -/
theorem terminated_append {strings name : Bytes} (h : Terminated strings) (hname : IsText name) :
    Terminated (strings ++ (name ++ [0])) := by
  have htail : utf8Valid (name ++ [0]) = true :=
    (utf8Valid_append_ascii (by decide) name []).mpr ⟨hname.2, rfl⟩
  refine ⟨.inr (by simp), ?_⟩
  obtain ⟨hlast, hvalid⟩ := h
  rcases hlast with rfl | hlast
  · exact htail
  · obtain ⟨front, rfl⟩ := List.getLast?_eq_some_iff.mp hlast
    rw [List.append_assoc, List.singleton_append]
    refine (utf8Valid_append_ascii (by decide) front _).mpr ⟨?_, htail⟩
    exact ((utf8Valid_append_ascii (by decide) front []).mp hvalid).1

/-- A string appended behind the others, and the size of the block raised. -/
theorem Shows.appendString {m : Image} {name blob : Bytes} (h : d.Shows m)
    (hroom : m.offDtStrings + m.strings.length + (name.length + 1) ≤ m.totalSize)
    (hwrites : blob = overwrite (overwrite (overwrite d.blob (m.offDtStrings + m.strings.length) name)
      (m.offDtStrings + m.strings.length + name.length) [0]) 32
        (be32 (m.strings.length + (name.length + 1)))) :
    Shows { d with blob := blob }
      { m with strings := m.strings ++ (name ++ [0]), free := m.free.drop (name.length + 1) } := by
  have htotal : m.totalSize = m.offDtStrings + m.strings.length + m.free.length := rfl
  let kept : Bytes := m.free.drop (name.length + 1)
  let m' : Image := { m with strings := m.strings ++ (name ++ [0]), free := kept }
  have hkept : kept.length = m.free.length - (name.length + 1) := List.length_drop
  have hstrings' : m'.strings.length = m.strings.length + (name.length + 1) := by
    simp [m']
  have htotal' : m'.totalSize = m.totalSize := by
    have hsum : m'.totalSize = m.offDtStrings + m'.strings.length + kept.length := rfl
    rw [hsum, hkept, hstrings']
    omega
  -- the name and its NUL go over the first bytes of the free space
  let used : Bytes := m.structureBlock ++ (m.gap ++ m.strings)
  let first : Bytes := m.free.take name.length
  let second : Bytes := (m.free.drop name.length).take 1
  have hfirst : first.length = name.length := by
    simp only [first, List.length_take]
    omega
  have hsecond : second.length = ([0] : Bytes).length := by
    simp only [second, List.length_take, List.length_drop, List.length_singleton]
    omega
  have hfront : (wordBytes m.words ++ (m.reserved ++ used)).length
      = m.offDtStrings + m.strings.length := by
    rw [m.front_length, Image.offDtStrings]
    simp only [used, List.length_append]
    omega
  have hblob : d.blob = (wordBytes m.words ++ (m.reserved ++ used)) ++ (first ++ (second ++ kept)) := by
    have hfree : m.free = first ++ (second ++ kept) := by
      have hrest := drop_eq_take_append_drop m.free (Nat.le_add_right name.length 1)
      rw [Nat.add_sub_cancel_left] at hrest
      rw [← hrest, List.take_append_drop]
    rw [← hfree, h.blob, Image.bytes, Image.body]
    simp only [used, List.append_assoc]
  have hwritten : overwrite (overwrite d.blob (m.offDtStrings + m.strings.length) name)
      (m.offDtStrings + m.strings.length + name.length) [0] = wordBytes m.words ++ m'.body := by
    rw [hblob, overwrite_middle hfront.symm hfirst.symm, ← List.append_assoc,
      overwrite_middle (by rw [List.length_append, hfront]) hsecond.symm]
    simp only [used, m', Image.body, List.append_assoc]
  have hwords : m.words.set 8 (m.strings.length + (name.length + 1)) = m'.words := by
    rw [← hstrings']
    simp only [Image.words, List.set, htotal']
    rfl
  refine ⟨?_, ?_, h.fits.congr htotal' rfl rfl rfl rfl, h.pointer⟩
  · show blob = m'.bytes
    rw [hwrites, hwritten]
    show overwrite _ (4 * 8) _ = _
    rw [overwrite_wordBytes _ _ (by simp [Image.words]), hwords]
    rfl
  · show d.size = m'.totalSize
    rw [htotal', h.size]

/-- **`find_or_add_string` keeps the image, with the name in the strings.** -/
theorem Shows.findOrAddString {m : Image} {name : Bytes} {nameOffset : Nat} (h : d.Shows m)
    (hname : IsText name) (hterm : Terminated m.strings)
    (hok : Dtb.findOrAddString name d = (.ok nameOffset, d')) :
    d'.pointer = d.pointer ∧ ∃ more free,
      d'.Shows { m with strings := m.strings ++ more, free := free }
      ∧ Terminated (m.strings ++ more) ∧ nameOffset < 2 ^ 32
      ∧ (∀ base, (Image.fdt { m with strings := m.strings ++ more, free := free } base).stringAt nameOffset
          = some name)
      ∧ more.length ≤ name.length + 1 := by
  simp only [Dtb.findOrAddString, DtbM.bind_ok, DtbM.read_ok, Except.ok.injEq] at hok
  obtain ⟨stringsStart, _, ⟨rfl, rfl⟩, stringsSize, _, ⟨rfl, rfl⟩, found, _, ⟨hfound, rfl⟩, hok⟩ := hok
  rw [h.offDtStrings, h.sizeDtStrings] at hfound
  have hbytes : d.blob.take d.size = m.bytes := by
    rw [h.blob, h.size, ← m.bytes_length, List.take_length]
  have hlength := m.bytes_length
  have htotal : m.totalSize = m.offDtStrings + m.strings.length + m.free.length := rfl
  have hsmall := h.fits.small
  rw [hbytes] at hfound
  cases found with
  | some offset =>
      obtain ⟨hoffset, rfl⟩ := DtbM.orThrow_ok.mp hok
      obtain ⟨hlt, rfl⟩ := u32OrOverflow_eq_some.mp hoffset
      obtain ⟨hstring, -⟩ := findString_some (m.fdt d.pointer) (by omega)
        (by rw [m.bytes_drop_strings, List.take_left]; rfl) hfound
      have hsame : m = { m with strings := m.strings ++ [], free := m.free } := by
        rw [List.append_nil]
      refine ⟨rfl, [], m.free, ?_, ?_, hlt, ?_, Nat.zero_le _⟩
      · rw [← hsame]
        exact h
      · rw [List.append_nil]
        exact hterm
      · intro base
        rw [← hsame, ← hstring]
        exact congrFun (Fdt.stringAt_congr rfl) _
  | none =>
      simp only [DtbM.bind_ok, DtbM.read_ok, DtbM.orThrow_ok, setSizeDtStrings, writeBytes_ok,
        Except.ok.injEq] at hok
      obtain ⟨_, _, ⟨rfl, rfl⟩, _, _, hensure, _, _, hinsert, _, _, hnul, newSize, _, ⟨hnewSize, rfl⟩,
        _, _, rfl, hoffset, rfl⟩ := hok
      obtain ⟨hroom, rfl⟩ := ensureRange_ok hensure
      obtain ⟨-, rfl⟩ := insertBytes_ok hinsert
      obtain ⟨-, rfl⟩ := insertBytes_ok hnul
      obtain ⟨hsizeLt, rfl⟩ := u32OrOverflow_eq_some.mp hnewSize
      obtain ⟨hlt, rfl⟩ := u32OrOverflow_eq_some.mp hoffset
      have hused : Dtb.usedBlobEndOffset d = m.offDtStrings + m.strings.length := by
        rw [Dtb.usedBlobEndOffset, h.offDtStrings, h.sizeDtStrings]
      rw [hused, h.size] at hroom
      refine ⟨rfl, name ++ [0], m.free.drop (name.length + 1), ?_, terminated_append hterm hname, hlt, ?_,
        by rw [List.length_append, List.length_singleton]⟩
      · exact h.appendString hroom (by rw [← hused, ← h.sizeDtStrings])
      · intro base
        refine Fdt.stringAt_eq_some.mpr ⟨hname, m.strings, [], ?_, h.sizeDtStrings.symm⟩
        rw [List.append_nil]
        rfl

end Dtb

end RustFirmware.DeviceTree
