/-
  RustFirmware.DeviceTree.Tree
  ────────────────────────────
  **THE STRUCTURE BLOCK AS A TREE.**

  `Items` is what stands between a node's begin and end token, token by token:
  no-ops, properties and child nodes in the order of the block, with the
  padding bytes as they are (the reader never looks at them).  `flat` writes the
  tokens out; a structure block is one root node between no-ops, and the end
  token.

  A block has at most one reading: `Items.flat` is injective on valid items,
  whatever follows them (`Items.flat_unique`).
-/
import RustFirmware.Lib.Bytes
import RustFirmware.DeviceTree.Read

namespace RustFirmware.DeviceTree

open RustFirmware.Lib

/-! ## §1. Items and their bytes. -/

/-- The contents of a node in the order of the structure block. -/
inductive Items where
  | nil
  | nop (rest : Items)
  | prop (nameOffset : Nat) (value pad : Bytes) (rest : Items)
  | node (name pad : Bytes) (children rest : Items)
  deriving Repr, DecidableEq

/-- A property record. -/
def propRecord (nameOffset : Nat) (value pad : Bytes) : Bytes :=
  be32 fdtProp ++ (be32 value.length ++ (be32 nameOffset ++ (value ++ pad)))

/-- The begin token of a node and its name. -/
def nodeHead (name pad : Bytes) : Bytes := be32 fdtBeginNode ++ (name ++ 0 :: pad)

/-- The token stream of a node's contents. -/
def Items.flat : Items → Bytes
  | nil => []
  | nop rest => be32 fdtNop ++ rest.flat
  | prop nameOffset value pad rest => propRecord nameOffset value pad ++ rest.flat
  | node name pad children rest =>
      nodeHead name pad ++ (children.flat ++ (be32 fdtEndNode ++ rest.flat))

/-- How many bytes align `n` bytes to a multiple of four. -/
def padLength (n : Nat) : Nat := align4 n - n

/-- A property record with zero padding. -/
def Items.property (nameOffset : Nat) (value : Bytes) (rest : Items) : Items :=
  .prop nameOffset value (List.replicate (padLength value.length) 0) rest

/-- A child node with zero padding. -/
def Items.child (name : Bytes) (children rest : Items) : Items :=
  .node name (List.replicate (padLength (name.length + 1)) 0) children rest

/-- `count` no-op tokens. -/
def nops : (count : Nat) → Bytes
  | 0 => []
  | count + 1 => be32 fdtNop ++ nops count

/-- A blob with the sections in their usual order and no free space. -/
def assemble (reserveMap structureBlock strings : Bytes) : Bytes :=
  be32 fdtMagic
    ++ be32 (fdtHeaderSize + reserveMap.length + structureBlock.length + strings.length)
    ++ be32 (fdtHeaderSize + reserveMap.length)
    ++ be32 (fdtHeaderSize + reserveMap.length + structureBlock.length)
    ++ be32 fdtHeaderSize
    ++ be32 17 ++ be32 16 ++ be32 0
    ++ be32 strings.length ++ be32 structureBlock.length
    ++ reserveMap ++ structureBlock ++ strings

/-! ## §2. Validity and lengths. -/

/-- What a `&str` without a NUL is: the bytes of a string of the blob. -/
def IsText (bytes : Bytes) : Prop := 0 ∉ bytes ∧ utf8Valid bytes = true

instance (bytes : Bytes) : Decidable (IsText bytes) := inferInstanceAs (Decidable (_ ∧ _))

/-- Every word fits its field, every name is text, every padding aligns. -/
def Items.Valid : Items → Prop
  | nil => True
  | nop rest => rest.Valid
  | prop nameOffset value pad rest =>
      nameOffset < 2 ^ 32 ∧ value.length < 2 ^ 32 ∧ pad.length = padLength value.length
        ∧ rest.Valid
  | node name pad children rest =>
      IsText name ∧ pad.length = padLength (name.length + 1) ∧ children.Valid ∧ rest.Valid

instance Items.decidableValid : (items : Items) → Decidable items.Valid
  | .nil => inferInstanceAs (Decidable True)
  | .nop rest => decidableValid rest
  | .prop _ _ _ rest => @instDecidableAnd _ _ _ (@instDecidableAnd _ _ _
      (@instDecidableAnd _ _ _ (decidableValid rest)))
  | .node _ _ children rest => @instDecidableAnd _ _ _ (@instDecidableAnd _ _ _
      (@instDecidableAnd _ _ (decidableValid children) (decidableValid rest)))

theorem add_padLength (n : Nat) : n + padLength n = align4 n := by
  unfold padLength align4
  omega

theorem align4_mod (n : Nat) : align4 n % 4 = 0 := by
  unfold align4
  omega

/-- Behind an aligned offset, aligning the end is aligning the length. -/
theorem align4_add {offset : Nat} (h : offset % 4 = 0) (n : Nat) :
    align4 (offset + n) = offset + align4 n := by
  unfold align4
  omega

theorem propRecord_length (nameOffset : Nat) {value pad : Bytes}
    (hpad : pad.length = padLength value.length) :
    (propRecord nameOffset value pad).length = 12 + align4 value.length := by
  have h := add_padLength value.length
  simp only [propRecord, List.length_append, be32_length]
  omega

theorem nodeHead_length {name pad : Bytes} (hpad : pad.length = padLength (name.length + 1)) :
    (nodeHead name pad).length = 4 + align4 (name.length + 1) := by
  have h := add_padLength (name.length + 1)
  simp only [nodeHead, List.length_append, be32_length, List.length_cons]
  omega

/-- Everything in a structure block is aligned. -/
theorem Items.Valid.flat_mod {items : Items} (h : items.Valid) : items.flat.length % 4 = 0 := by
  induction items with
  | nil => rfl
  | nop rest ih =>
      have hrest := ih h
      rw [flat, List.length_append, be32_length]
      omega
  | prop nameOffset value pad rest ih =>
      obtain ⟨-, -, hpad, hrest⟩ := h
      have hmod := ih hrest
      have halign := align4_mod value.length
      rw [flat, List.length_append, propRecord_length nameOffset hpad]
      omega
  | node name pad children rest ihc ihr =>
      obtain ⟨-, hpad, hchildren, hrest⟩ := h
      have hc := ihc hchildren
      have hr := ihr hrest
      have halign := align4_mod (name.length + 1)
      rw [flat]
      simp only [List.length_append, be32_length]
      rw [nodeHead_length hpad]
      omega

/-- Where items end, from the end of their first token on. -/
theorem Items.end_nop (offset : Nat) (rest : Items) :
    offset + (nop rest).flat.length = offset + 4 + rest.flat.length := by
  rw [flat, List.length_append, be32_length, Nat.add_assoc]

theorem Items.end_prop (offset nameOffset : Nat) (value pad : Bytes) (rest : Items) :
    offset + (prop nameOffset value pad rest).flat.length
      = offset + (propRecord nameOffset value pad).length + rest.flat.length := by
  rw [flat, List.length_append, Nat.add_assoc]

theorem Items.end_node (offset : Nat) (name pad : Bytes) (children rest : Items) :
    offset + (node name pad children rest).flat.length
      = offset + (nodeHead name pad).length + children.flat.length + 4 + rest.flat.length := by
  rw [flat]
  simp only [List.length_append, be32_length, Nat.add_assoc]

/-- How many tokens a walk over the items passes. -/
def Items.tokens : Items → Nat
  | nil => 0
  | nop rest => rest.tokens + 1
  | prop _ _ _ rest => rest.tokens + 1
  | node _ _ children rest => children.tokens + rest.tokens + 2

/-- A token takes four bytes or more. -/
theorem Items.tokens_le (items : Items) : 4 * items.tokens ≤ items.flat.length := by
  induction items with
  | nil => exact Nat.le_refl 0
  | nop rest ih =>
      rw [tokens, flat, List.length_append, be32_length]
      omega
  | prop nameOffset value pad rest ih =>
      rw [tokens, flat, propRecord]
      simp only [List.length_append, be32_length]
      omega
  | node name pad children rest ihc ihr =>
      rw [tokens, flat, nodeHead]
      simp only [List.length_append, be32_length]
      omega

/-! ## §3. A block has one reading. -/

theorem be32_inj {v w : Nat} (hv : v < 2 ^ 32) (hw : w < 2 ^ 32) (h : be32 v = be32 w) :
    v = w := by
  rw [← beNat_be32 hv, h, beNat_be32 hw]

/-- A NUL-terminated string ends at its first NUL. -/
theorem text_append_inj {xs ys : Bytes} {as bs : Bytes} (hx : 0 ∉ xs) (hy : 0 ∉ ys)
    (h : xs ++ 0 :: as = ys ++ 0 :: bs) : xs = ys ∧ as = bs := by
  have hlength : xs.length = ys.length := by
    have hpos := nulPosition_append hx as
    rw [h, nulPosition_append hy bs] at hpos
    exact (Option.some.inj hpos).symm
  obtain ⟨hxy, hrest⟩ := List.append_inj h hlength
  exact ⟨hxy, (List.cons.inj hrest).2⟩

/-- The token in front, where `after` is the token that follows the items. -/
def Items.lead (after : Nat) : Items → Nat
  | nil => after
  | nop _ => fdtNop
  | prop _ _ _ _ => fdtProp
  | node _ _ _ _ => fdtBeginNode

/-- A token that can follow the items of a node. -/
def IsClosing (token : Nat) : Prop := token = fdtEndNode ∨ token = fdtEnd

theorem Items.take_lead (items : Items) (after : Nat) (rest : Bytes) :
    (items.flat ++ (be32 after ++ rest)).take 4 = be32 (items.lead after) := by
  cases items <;> rfl

theorem Items.lead_lt (items : Items) {after : Nat} (h : IsClosing after) :
    items.lead after < 2 ^ 32 := by
  rcases h with rfl | rfl <;> cases items <;>
    simp [lead, fdtBeginNode, fdtEndNode, fdtProp, fdtNop, fdtEnd]

/-- Items that read the same start with the same token. -/
theorem Items.lead_eq {a b : Items} {s t : Nat} {x y : Bytes} (hs : IsClosing s)
    (ht : IsClosing t) (h : a.flat ++ (be32 s ++ x) = b.flat ++ (be32 t ++ y)) :
    a.lead s = b.lead t := by
  apply be32_inj (a.lead_lt hs) (b.lead_lt ht)
  rw [← a.take_lead s x, ← b.take_lead t y, h]

/-- **A block has one reading.**  Valid items in front of a closing token are
    determined by the bytes. -/
theorem Items.flat_unique {a b : Items} (ha : a.Valid) (hb : b.Valid) {s t : Nat}
    {x y : Bytes} (hs : IsClosing s) (ht : IsClosing t)
    (h : a.flat ++ (be32 s ++ x) = b.flat ++ (be32 t ++ y)) :
    a = b ∧ be32 s ++ x = be32 t ++ y := by
  induction a generalizing b s t x y with
  | nil =>
      have hlead := Items.lead_eq hs ht h
      cases b with
      | nil => exact ⟨rfl, h⟩
      | _ => rcases hs with rfl | rfl <;> cases hlead
  | nop rest ih =>
      have hlead := Items.lead_eq hs ht h
      cases b with
      | nop rest' =>
          simp only [flat, List.append_assoc] at h
          obtain ⟨heq, hrest⟩ := ih (b := rest') ha hb hs ht (List.append_cancel_left h)
          exact ⟨by rw [heq], hrest⟩
      | nil => rcases ht with rfl | rfl <;> cases hlead
      | _ => cases hlead
  | prop o v p rest ih =>
      have hlead := Items.lead_eq hs ht h
      cases b with
      | prop o' v' p' rest' =>
          obtain ⟨ho, hv, hp, hrest⟩ := ha
          obtain ⟨ho', hv', hp', hrest'⟩ := hb
          simp only [flat, propRecord, List.append_assoc] at h
          -- the record is cut field by field: length word, name word, value, padding
          obtain ⟨hlen, h⟩ := List.append_inj (List.append_cancel_left h) rfl
          obtain ⟨hname, h⟩ := List.append_inj h rfl
          have hlength := be32_inj hv hv' hlen
          obtain ⟨hval, h⟩ := List.append_inj h hlength
          obtain ⟨hpad, h⟩ := List.append_inj h (by rw [hp, hp', hlength])
          obtain ⟨heq, htail⟩ := ih hrest hrest' hs ht h
          exact ⟨by rw [be32_inj ho ho' hname, hval, hpad, heq], htail⟩
      | nil => rcases ht with rfl | rfl <;> cases hlead
      | _ => cases hlead
  | node n p children rest ihc ihr =>
      have hlead := Items.lead_eq hs ht h
      cases b with
      | node n' p' children' rest' =>
          obtain ⟨hn, hp, hc, hr⟩ := ha
          obtain ⟨hn', hp', hc', hr'⟩ := hb
          simp only [flat, nodeHead, List.append_assoc, List.cons_append] at h
          obtain ⟨hname, h⟩ := text_append_inj hn.1 hn'.1 (List.append_cancel_left h)
          obtain ⟨hpad, h⟩ := List.append_inj h (by rw [hp, hp', hname])
          obtain ⟨hchildren, h⟩ := ihc hc hc' (.inl rfl) (.inl rfl) h
          obtain ⟨heq, htail⟩ := ihr hr hr' hs ht (List.append_cancel_left h)
          exact ⟨by rw [hname, hpad, hchildren, heq], htail⟩
      | nil => rcases ht with rfl | rfl <;> cases hlead
      | _ => cases hlead

end RustFirmware.DeviceTree
