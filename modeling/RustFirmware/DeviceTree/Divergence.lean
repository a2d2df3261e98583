/-
  RustFirmware.DeviceTree.Divergence
  ──────────────────────────────────
  **BYTES THAT CANNOT MEAN THE SAME NODE.**

  A block has one reading, so bytes that part from a node's items at a token mean
  another node (`Items.Diverges`).  Each kind of item in front carries the
  difference on; it starts with a begin token where the node's end token was
  (`Items.diverges_begin`), and a child that differs makes the parent different
  (`Items.exists_divergingSite`).
-/
import RustFirmware.DeviceTree.Walk

namespace RustFirmware.DeviceTree

open RustFirmware.Lib

/-! ## §1. One item in front. -/

namespace Items

variable {names : Nat → Option Bytes}

/-- Whatever items stand in front of an end token in `tail`, they do not mean what
    `items` mean. -/
def Diverges (names : Nat → Option Bytes) (items : Items) (tail : Bytes) : Prop :=
  ∀ (other : Items) (rest : Bytes), other.Valid → other.flat ++ (be32 fdtEndNode ++ rest) = tail →
    other.contents names ≠ items.contents names

/-- The token in front of the bytes says what the items start with. -/
theorem lead_of_bytes {other : Items} {rest tail : Bytes} {token : Nat}
    (h : other.flat ++ (be32 fdtEndNode ++ rest) = be32 token ++ tail) (htoken : token < 2 ^ 32) :
    other.lead fdtEndNode = token := by
  have htake := other.take_lead fdtEndNode rest
  -- the first four bytes are those of `token`
  rw [h] at htake
  have hsame : be32 (other.lead fdtEndNode) = be32 token := by
    rw [← htake]
    exact List.take_left' (be32_length token)
  exact be32_inj (other.lead_lt (.inl rfl)) htoken hsame

theorem Diverges.nop {rest : Items} {tail : Bytes} (h : rest.Diverges names tail) :
    (nop rest).Diverges names (be32 fdtNop ++ tail) := by
  intro other after hvalid hsame
  have hlead := lead_of_bytes hsame (by decide)
  cases other with
  | nop other =>
      rw [flat, List.append_assoc] at hsame
      exact h other after hvalid (List.append_cancel_left hsame)
  | _ => cases hlead

theorem Diverges.prop {rest : Items} {tail : Bytes} (h : rest.Diverges names tail) {o : Nat}
    {v pad : Bytes} (hv : v.length < 2 ^ 32) (hpad : pad.length = padLength v.length) :
    (prop o v pad rest).Diverges names (propRecord o v pad ++ tail) := by
  intro other after hvalid hsame
  have hlead := lead_of_bytes (by rw [hsame, propRecord, List.append_assoc]) (by decide)
  cases other with
  | prop o' v' pad' other =>
      obtain ⟨ho', hv', hpad', hrest⟩ := hvalid
      simp only [flat, propRecord, List.append_assoc] at hsame
      -- the records agree field by field
      obtain ⟨hlen, hsame⟩ := List.append_inj (List.append_cancel_left hsame) rfl
      obtain ⟨hname, hsame⟩ := List.append_inj hsame rfl
      have hlength := be32_inj hv' hv hlen
      obtain ⟨-, hsame⟩ := List.append_inj hsame hlength
      obtain ⟨-, hsame⟩ := List.append_inj hsame (by rw [hpad', hpad, hlength])
      intro hcontents
      simp only [contents, Contents.prop.injEq] at hcontents
      exact h other after hrest hsame hcontents.2.2
  | _ => cases hlead

/-- A node that starts with the same head has the same name. -/
theorem node_of_head {n pad tail after : Bytes} {other : Items} (hn : IsText n)
    (hpad : pad.length = padLength (n.length + 1)) (hvalid : other.Valid)
    (hsame : other.flat ++ (be32 fdtEndNode ++ after) = nodeHead n pad ++ tail) :
    ∃ pad' children rest, other = node n pad' children rest ∧ children.Valid ∧ rest.Valid
      ∧ children.flat ++ (be32 fdtEndNode ++ (rest.flat ++ (be32 fdtEndNode ++ after))) = tail := by
  have hlead := lead_of_bytes (by rw [hsame, nodeHead, List.append_assoc]) (by decide)
  cases other with
  | node n' pad' children rest =>
      obtain ⟨hn', hpad', hchildren, hrest⟩ := hvalid
      simp only [flat, nodeHead, List.append_assoc, List.cons_append] at hsame
      -- the name ends at the first NUL, and its length fixes the padding
      obtain ⟨rfl, hbehind⟩ := text_append_inj hn'.1 hn.1 (List.append_cancel_left hsame)
      obtain ⟨-, hinside⟩ := List.append_inj hbehind (by rw [hpad', hpad])
      exact ⟨pad', children, rest, rfl, hchildren, hrest, hinside⟩
  | _ => cases hlead

theorem Diverges.inside {children : Items} {tail : Bytes} (h : children.Diverges names tail)
    {n pad : Bytes} (hn : IsText n) (hpad : pad.length = padLength (n.length + 1)) (rest : Items) :
    (node n pad children rest).Diverges names (nodeHead n pad ++ tail) := by
  intro other after hvalid hsame
  obtain ⟨pad', children', rest', rfl, hchildren, -, hinside⟩ := node_of_head hn hpad hvalid hsame
  intro hcontents
  simp only [contents, Contents.node.injEq] at hcontents
  exact h children' _ hchildren hinside hcontents.2.1

theorem Diverges.behind {children rest : Items} {tail : Bytes} (h : rest.Diverges names tail)
    {n pad : Bytes} (hn : IsText n) (hpad : pad.length = padLength (n.length + 1))
    (hchildren : children.Valid) :
    (node n pad children rest).Diverges names
      (nodeHead n pad ++ (children.flat ++ (be32 fdtEndNode ++ tail))) := by
  intro other after hvalid hsame
  obtain ⟨pad', children', rest', rfl, hchildren', hrest', hinside⟩ :=
    node_of_head hn hpad hvalid hsame
  -- the children are the same, so the rest starts at the same place
  obtain ⟨-, htail⟩ := flat_unique hchildren' hchildren (.inl rfl) (.inl rfl) hinside
  intro hcontents
  simp only [contents, Contents.node.injEq] at hcontents
  exact h rest' after hrest' (List.append_cancel_left htail) hcontents.2.2

/-! ## §2. Where the difference starts, and how it rises. -/

/-- **A begin token where the end token was**: a node more. -/
theorem diverges_begin {items : Items} (h : items.Valid) (tail : Bytes) :
    items.Diverges names (items.flat ++ (be32 fdtBeginNode ++ tail)) := by
  induction items with
  | nil =>
      intro other after hvalid hsame
      -- what stands there has a child, and no items have none
      have hlead := lead_of_bytes hsame (by decide)
      cases other with
      | node n pad children rest =>
          intro hcontents
          cases hcontents
      | _ => cases hlead
  | nop rest ih =>
      rw [flat, List.append_assoc]
      exact (ih h).nop
  | prop o v pad rest ih =>
      obtain ⟨-, hv, hpad, hrest⟩ := h
      rw [flat, List.append_assoc]
      exact (ih hrest).prop hv hpad
  | node n pad children rest _ ih =>
      obtain ⟨hn, hpad, hchildren, hrest⟩ := h
      have hbehind := (ih hrest).behind hn hpad hchildren
      rw [flat]
      simp only [List.append_assoc]
      exact hbehind

/-- A child that cannot be the same makes the parent different. -/
theorem exists_divergingSite {items inner : Items} {name : Bytes} (h : items.Valid)
    (hchild : items.childItems name = some inner) :
    ∃ pad before after, items.ChildSite name pad inner before after
      ∧ ∀ tail, inner.Diverges names tail →
          items.Diverges names (before ++ (nodeHead name pad ++ tail)) := by
  induction items with
  | nil => cases hchild
  | nop rest ih =>
      obtain ⟨pad, before, after, hsite, hdiverges⟩ := ih h hchild
      refine ⟨pad, _, after, hsite.nop, ?_⟩
      intro tail htail
      rw [List.append_assoc]
      exact (hdiverges tail htail).nop
  | prop o v p rest ih =>
      obtain ⟨-, hv, hp, hvalid⟩ := h
      obtain ⟨pad, before, after, hsite, hdiverges⟩ := ih hvalid hchild
      refine ⟨pad, _, after, hsite.prop o hp, ?_⟩
      intro tail htail
      rw [List.append_assoc]
      exact (hdiverges tail htail).prop hv hp
  | node n p children rest _ ih =>
      obtain ⟨hn, hp, hchildren, hvalid⟩ := h
      rw [childItems] at hchild
      split_ifs at hchild with hname
      · cases hchild
        subst hname
        refine ⟨p, [], rest.flat, childSite_head hn hp hchildren, ?_⟩
        intro tail htail
        exact htail.inside hn hp rest
      · obtain ⟨pad, before, after, hsite, hdiverges⟩ := ih hvalid hchild
        refine ⟨pad, _, after, hsite.behind hname hp hchildren, ?_⟩
        intro tail htail
        have hbehind := (hdiverges tail htail).behind hn hp hchildren
        simp only [List.append_assoc] at hbehind ⊢
        exact hbehind

end Items

end RustFirmware.DeviceTree
