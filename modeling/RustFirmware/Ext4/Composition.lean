/-
  RustFirmware.Ext4.Composition
  ─────────────────────────────
  **RESOLVING `p1/p2` IS RESOLVING `p2` WHERE `p1` LEADS.**

  Two runs side by side: that of `p1`, and that of a path that goes on behind it.  What
  they have left of their paths is related by `Extends`: the second is the first, then
  separators, then `p2`.  Splitting, trimming and the expansion of a symlink keep that, so
  the second run is at `p2` where the first one ends.
-/
import RustFirmware.Ext4.Resolution
import RustFirmware.Lib.Text

namespace RustFirmware.Ext4

open RustFirmware.Lib

/-! ## §1. A path that goes on. -/

/-- `longer` is `path` with `tail` behind it, as a path of its own or none. -/
def Extends (tail path longer : Bytes) : Prop :=
  ∃ gap, longer = path ++ (gap ++ tail) ∧ (∀ byte ∈ gap, byte = separator)
    ∧ (gap = [] → path = [] ∨ path.getLast? = some separator)

/-- The same for the rests of two paths that resolution has come to. -/
structure Follows (tail path longer : Bytes) : Prop where
  longer_extends : Extends tail path longer
  trimmed        : longer.head? ≠ some separator

theorem trimLeadingSeparators_of_head {path : Bytes} (h : path.head? ≠ some separator) :
    trimLeadingSeparators path = path := by
  cases path with
  | nil => rfl
  | cons byte path =>
      have hbyte : ¬ (byte == separator) = true := by simpa using h
      exact List.dropWhile_cons_of_neg hbyte

theorem trimLeadingSeparators_head (path : Bytes) :
    (trimLeadingSeparators path).head? ≠ some separator := by
  intro h
  have hnot := List.head?_dropWhile_not (fun byte => byte == separator) path
  unfold trimLeadingSeparators at h
  rw [h] at hnot
  exact absurd hnot (by decide)

/-- Separators in front of a trimmed path are trimmed. -/
theorem trimLeadingSeparators_gap {gap tail : Bytes} (hgap : ∀ byte ∈ gap, byte = separator)
    (htail : tail.head? ≠ some separator) : trimLeadingSeparators (gap ++ tail) = tail := by
  induction gap with
  | nil => exact trimLeadingSeparators_of_head htail
  | cons byte gap ih =>
      obtain rfl := hgap byte List.mem_cons_self
      show trimLeadingSeparators (gap ++ tail) = tail
      exact ih (fun b hb => hgap b (List.mem_cons_of_mem _ hb))

/-- Trimming leaves the end of a path that is not trimmed away. -/
theorem trimLeadingSeparators_getLast {path : Bytes} (h : trimLeadingSeparators path ≠ []) :
    (trimLeadingSeparators path).getLast? = path.getLast? := by
  have hsplit : path.takeWhile (· == separator) ++ trimLeadingSeparators path = path :=
    List.takeWhile_append_dropWhile
  have hlast := List.getLast?_append_of_ne_nil (path.takeWhile (· == separator)) h
  rw [hsplit] at hlast
  exact hlast.symm

section Tail

variable {tail path longer : Bytes}

theorem Follows.of_nil (h : Follows tail [] longer) : longer = tail := by
  obtain ⟨gap, rfl, hgap, -⟩ := h.longer_extends
  cases gap with
  | nil => rfl
  | cons byte gap =>
      obtain rfl := hgap byte List.mem_cons_self
      exact absurd rfl h.trimmed

/-- **Trimming.** -/
theorem Extends.trim (htail : tail.head? ≠ some separator) (h : Extends tail path longer) :
    Follows tail (trimLeadingSeparators path) (trimLeadingSeparators longer) := by
  refine ⟨?_, trimLeadingSeparators_head longer⟩
  obtain ⟨gap, rfl, hgap, hend⟩ := h
  by_cases hnone : trimLeadingSeparators path = []
  · have hlonger : trimLeadingSeparators (path ++ (gap ++ tail)) = tail := by
      have hrest := trimLeadingSeparators_gap hgap htail
      unfold trimLeadingSeparators at hnone hrest ⊢
      rw [List.dropWhile_append, hnone]
      exact hrest
    rw [hnone, hlonger]
    exact ⟨[], rfl, List.forall_mem_nil _, fun _ => .inl rfl⟩
  · have hlonger : trimLeadingSeparators (path ++ (gap ++ tail))
        = trimLeadingSeparators path ++ (gap ++ tail) := by
      unfold trimLeadingSeparators at hnone ⊢
      rw [List.dropWhile_append, if_neg (by simpa using hnone)]
    refine ⟨gap, hlonger, hgap, fun hempty => .inr ?_⟩
    rw [trimLeadingSeparators_getLast hnone]
    refine (hend hempty).resolve_left ?_
    rintro rfl
    exact hnone rfl

/-- **Splitting**: the component is the same. -/
theorem Follows.split (htail : tail.head? ≠ some separator) (h : Follows tail path longer)
    (hpath : path ≠ []) {component rest : Bytes}
    (hsplit : splitPathComponent path = .ok (component, rest)) :
    ∃ rest', splitPathComponent longer = .ok (component, rest') ∧ Follows tail rest rest' := by
  obtain ⟨⟨gap, rfl, hgap, hend⟩, htrimmed⟩ := h
  have hhead : path.head? ≠ some separator := by
    rw [List.head?_append_of_ne_nil _ hpath] at htrimmed
    exact htrimmed
  have hlonger : path ++ (gap ++ tail) ≠ [] := List.append_ne_nil_of_left_ne_nil hpath _
  unfold splitPathComponent at hsplit ⊢
  rw [trimLeadingSeparators_of_head hhead] at hsplit
  rw [trimLeadingSeparators_of_head htrimmed]
  dsimp only at hsplit ⊢
  rw [if_neg hpath] at hsplit
  rw [if_neg hlonger, List.findIdx?_append]
  cases hfind : path.findIdx? (· == separator) with
  | none =>
      -- the component is the whole path: it ends in front of the gap
      rw [hfind] at hsplit
      cases hsplit
      have hfree : separator ∉ path := by
        intro hmem
        have hnone := List.findIdx?_eq_none_iff.mp hfind separator hmem
        exact absurd hnone (by decide)
      cases gap with
      | nil =>
          have hlast := (hend rfl).resolve_left hpath
          exact absurd (List.mem_of_getLast? hlast) hfree
      | cons byte gap =>
          obtain rfl := hgap byte List.mem_cons_self
          have hgap' : ∀ byte ∈ gap, byte = separator :=
            fun b hb => hgap b (List.mem_cons_of_mem _ hb)
          have hrest := trimLeadingSeparators_gap hgap' htail
          refine ⟨tail, ?_, ⟨[], rfl, List.forall_mem_nil _, fun _ => .inl rfl⟩, htail⟩
          show Except.ok ((path ++ (separator :: (gap ++ tail))).take (0 + path.length),
            trimLeadingSeparators ((path ++ (separator :: (gap ++ tail))).drop (0 + path.length + 1))) = _
          rw [Nat.zero_add, List.take_left, ← List.drop_drop, List.drop_left]
          show Except.ok (path, trimLeadingSeparators (gap ++ tail)) = _
          rw [hrest]
  | some i =>
      rw [hfind] at hsplit
      cases hsplit
      obtain ⟨hlt, hbyte, -⟩ := List.findIdx?_eq_some_iff_getElem.mp hfind
      have hsep : path[i] = separator := by simpa using hbyte
      have hparts : path = path.take i ++ separator :: path.drop (i + 1) := by
        rw [← hsep, List.getElem_cons_drop hlt, List.take_append_drop]
      have hafter : Extends tail (path.drop (i + 1)) (path.drop (i + 1) ++ (gap ++ tail)) := by
        refine ⟨gap, rfl, hgap, fun hempty => ?_⟩
        have hlast := (hend hempty).resolve_left hpath
        by_cases hnone : path.drop (i + 1) = []
        · exact .inl hnone
        · rw [hparts, List.getLast?_append_of_ne_nil _ (List.cons_ne_nil _ _),
            List.getLast?_cons_of_ne_nil hnone] at hlast
          exact .inr hlast
      refine ⟨trimLeadingSeparators (path.drop (i + 1) ++ (gap ++ tail)), ?_, hafter.trim htail⟩
      show Except.ok ((path ++ (gap ++ tail)).take i,
        trimLeadingSeparators ((path ++ (gap ++ tail)).drop (i + 1))) = _
      rw [List.take_append_of_le_length (Nat.le_of_lt hlt), List.drop_append_of_le_length hlt]

/-- **Expanding**: the targets are the same. -/
theorem Follows.join (htail : tail.head? ≠ some separator) (hne : tail ≠ [])
    (h : Follows tail path longer) (target : Bytes) :
    Extends tail (joinTarget target path) (joinTarget target longer)
      ∧ ((joinTarget target path).head? = some separator
        ↔ (joinTarget target longer).head? = some separator) := by
  have hlonger := trimLeadingSeparators_of_head h.trimmed
  by_cases hnone : path = []
  · -- only the target is left of the first path
    subst hnone
    obtain rfl := h.of_nil
    have hfirst : joinTarget target [] = target := rfl
    rw [hfirst]
    unfold joinTarget
    dsimp only
    rw [hlonger, if_neg hne]
    by_cases hgap : target ≠ [] ∧ target.getLast? ≠ some separator
    · rw [if_pos hgap, List.append_assoc]
      refine ⟨⟨[separator], rfl, fun byte hbyte => List.mem_singleton.mp hbyte,
        fun hempty => absurd hempty (List.cons_ne_nil _ _)⟩, ?_⟩
      rw [List.head?_append_of_ne_nil _ hgap.1]
    · rw [if_neg hgap]
      refine ⟨⟨[], rfl, List.forall_mem_nil _, fun _ => ?_⟩, ?_⟩
      · by_cases hempty : target = []
        · exact .inl hempty
        · exact .inr (not_not.mp (fun hlast => hgap ⟨hempty, hlast⟩))
      · cases target with
        | nil => exact ⟨fun habs => (by cases habs), fun habs => absurd habs htail⟩
        | cons byte target => exact Iff.rfl
  · obtain ⟨⟨gap, rfl, hgap, hend⟩, htrimmed⟩ := h
    have hhead : path.head? ≠ some separator := by
      rw [List.head?_append_of_ne_nil _ hnone] at htrimmed
      exact htrimmed
    have hall : path ++ (gap ++ tail) ≠ [] := List.append_ne_nil_of_left_ne_nil hnone _
    -- what is in front of both is the same
    have hfront : ∃ front, joinTarget target path = front ++ path
        ∧ joinTarget target (path ++ (gap ++ tail)) = front ++ (path ++ (gap ++ tail)) := by
      unfold joinTarget
      dsimp only
      rw [trimLeadingSeparators_of_head hhead, hlonger, if_neg hnone, if_neg hall]
      by_cases hsep : target ≠ [] ∧ target.getLast? ≠ some separator
      · exact ⟨target ++ [separator], if_pos hsep, if_pos hsep⟩
      · exact ⟨target, if_neg hsep, if_neg hsep⟩
    obtain ⟨front, hjoin, hjoin'⟩ := hfront
    have hfull : front ++ path ≠ [] := List.append_ne_nil_of_right_ne_nil _ hnone
    rw [hjoin, hjoin', ← List.append_assoc front]
    refine ⟨⟨gap, rfl, hgap, fun hempty => .inr ?_⟩, ?_⟩
    · rw [List.getLast?_append_of_ne_nil _ hnone]
      exact (hend hempty).resolve_left hnone
    · rw [List.head?_append_of_ne_nil _ hfull]

/-- Behind a text the longer path is a text too. -/
theorem Extends.valid (h : Extends tail path longer) (hpath : utf8Valid path = true)
    (htail : utf8Valid tail = true) : utf8Valid longer = true := by
  obtain ⟨gap, rfl, hgap, -⟩ := h
  have hascii : ∀ byte ∈ gap, byte < 0x80 := by
    intro byte hbyte
    rw [hgap byte hbyte]
    decide
  exact utf8Valid_append hpath (utf8Valid_append (utf8Valid_ascii hascii) htail)

/-- What goes on behind a path is not empty. -/
theorem Follows.ne_nil (h : Follows tail path longer) (hne : tail ≠ []) : longer ≠ [] := by
  obtain ⟨⟨gap, rfl, -, -⟩, -⟩ := h
  exact List.append_ne_nil_of_right_ne_nil _ (List.append_ne_nil_of_right_ne_nil _ hne)

end Tail

/-! ## §2. Two runs side by side. -/

/-- In the same directory, one of them with more to go. -/
structure Beside (tail : Bytes) (position longer : Position) : Prop where
  directory : longer.directory = position.directory
  follows   : Follows tail position.remaining longer.remaining

section Runs

variable {volume : Ext4Volume} {levels : Nat} {tail : Bytes}

/-- Two starts in the same directory. -/
theorem Beside.start (htail : tail.head? ≠ some separator) {path longer : Bytes}
    (h : Extends tail path longer)
    (hhead : path.head? = some separator ↔ longer.head? = some separator) (directory : Nat) :
    Beside tail (.start directory path) (.start directory longer) where
  directory := if_congr hhead.symm rfl rfl
  follows := h.trim htail

/-- **The same component is looked at.** -/
theorem Beside.look (htail : tail.head? ≠ some separator) (hne : tail ≠ [])
    {position longer : Position} (h : Beside tail position longer)
    (hmore : position.remaining ≠ []) {move : Resolving}
    (hlook : lookAt volume levels position = .ok move) :
    ∃ rest rest' entered, Follows tail rest rest'
      ∧ move = proceed position.directory rest entered
      ∧ lookAt volume levels longer = .ok (proceed position.directory rest' entered) := by
  obtain ⟨inode, component, rest, entered, hinode, hdir, hsplit, henter, hmove⟩ :=
    (lookAt_ok hmore).mp hlook
  -- the inode and the component are the same, so only the rests differ
  obtain ⟨rest', hsplit', hrest⟩ := h.follows.split htail hmore hsplit
  refine ⟨rest, rest', entered, hrest, hmove.symm, (lookAt_ok (h.follows.ne_nil hne)).mpr ?_⟩
  rw [h.directory]
  exact ⟨inode, component, rest', entered, hinode, hdir, hsplit', henter, rfl⟩

/-- A free step of one is a free step of the other. -/
theorem Beside.free (htail : tail.head? ≠ some separator) (hne : tail ≠ [])
    {position longer next : Position} (h : Beside tail position longer)
    (hlook : lookAt volume levels position = .ok (.free next)) :
    ∃ next', lookAt volume levels longer = .ok (.free next') ∧ Beside tail next next' := by
  have hmore := lookAt_more hlook (fun _ => by simp)
  obtain ⟨rest, rest', entered, hrest, hmove, hlook'⟩ := h.look htail hne hmore hlook
  unfold proceed at hmove hlook'
  cases entered with
  | none =>
      cases hmove
      exact ⟨_, hlook', rfl, hrest⟩
  | some child =>
      dsimp only at hmove hlook'
      by_cases hlink : child.2.isSymlink = true
      · rw [if_pos hlink] at hmove
        cases hmove
      · rw [if_neg hlink] at hmove hlook'
        cases hmove
        exact ⟨_, hlook', rfl, hrest⟩

/-- **A symlink of one is the symlink of the other**, and is expanded beside it, or there is
    no room for the longer path. -/
theorem Beside.paid (htail : tail.head? ≠ some separator) (hne : tail ≠ [])
    (hvalid : utf8Valid tail = true) {position longer next : Position} {link : Link}
    (h : Beside tail position longer) (hlook : lookAt volume levels position = .ok (.paid link))
    (hexpand : expandLink volume levels link = .ok next) :
    ∃ link', lookAt volume levels longer = .ok (.paid link')
      ∧ (expandLink volume levels link' = .error (.error .nameTooLong)
        ∨ ∃ next', expandLink volume levels link' = .ok next' ∧ Beside tail next next') := by
  have hmore := lookAt_more hlook (fun _ => by simp)
  obtain ⟨rest, rest', entered, hrest, hmove, hlook'⟩ := h.look htail hne hmore hlook
  unfold proceed at hmove hlook'
  cases entered with
  | none => cases hmove
  | some child =>
      dsimp only at hmove hlook'
      by_cases hlink : child.2.isSymlink = true
      · rw [if_pos hlink] at hmove hlook'
        cases hmove
        refine ⟨_, hlook', ?_⟩
        -- what the expansion of the first one was made of
        obtain ⟨expanded, hread, hexpand⟩ := bind_eq_ok.mp hexpand
        obtain ⟨text, htext, hexpand⟩ := bind_eq_ok.mp hexpand
        cases hexpand
        obtain ⟨hpath, rfl⟩ := fromUtf8_eq_some.mp (okOr_eq_ok.mp (ended_ok.mp htext))
        rw [readSymlinkPath_eq] at hread
        obtain ⟨target, htarget, hread⟩ := bind_eq_ok.mp hread
        split at hread
        · cases hread
        · cases hread
          obtain ⟨hjoin, hhead⟩ := hrest.join htail hne target
          have hvalid' := hjoin.valid hpath hvalid
          unfold expandLink
          rw [readSymlinkPath_eq]
          dsimp only
          rw [htarget]
          -- the one way the longer path can fail alone: it does not fit in the buffer
          by_cases hroom : trimLeadingSeparators rest' ≠ []
              ∧ ext4PathBytes < (joinTarget target rest').length
          · refine .inl ?_
            show ((if _ then _ else _ : Except Halt Bytes) >>= _) = _
            rw [if_pos hroom]
            rfl
          · refine .inr ⟨.start position.directory (joinTarget target rest'), ?_,
              Beside.start htail hjoin hhead position.directory⟩
            show ((if _ then _ else _ : Except Halt Bytes) >>= _) = _
            rw [if_neg hroom]
            show (ended (okOr (fromUtf8 (joinTarget target rest')) .invalidPath) >>= _) = _
            rw [fromUtf8_eq_some.mpr ⟨hvalid', rfl⟩]
            rfl
      · rw [if_neg hlink] at hmove
        cases hmove

/-- **Composition.**  Where `p1` leads somewhere, to a directory or not, and `p1/p2` fails
    neither with `SymlinkLoop` nor with `NameTooLong`, resolving it is resolving `p2` from
    there: the same value or the same error. -/
theorem resolvePath_append {p1 p2 : Bytes} {directory : Nat} {inode : Ext4Inode}
    (hvalid : utf8Valid p2 = true) (hrelative : p2.head? ≠ some separator) (hne : p2 ≠ [])
    (hp1 : resolvePath volume levels p1 = .ok (directory, inode))
    (hloop : resolvePath volume levels (p1 ++ [separator] ++ p2) ≠ .error (.error .symlinkLoop))
    (hlong : resolvePath volume levels (p1 ++ [separator] ++ p2) ≠ .error (.error .nameTooLong)) :
    resolvePath volume levels (p1 ++ [separator] ++ p2)
      = resolvePathFrom volume levels ext4MaxSymlinkDepth directory p2 := by
  rw [resolvePath_run] at hp1 hloop hlong ⊢
  rw [resolvePathFrom_run]
  have hstart : Beside p2 (.start ext4RootInode p1) (.start ext4RootInode (p1 ++ [separator] ++ p2)) := by
    have hextends : Extends p2 p1 (p1 ++ [separator] ++ p2) := by
      refine ⟨[separator], List.append_assoc _ _ _, fun byte hbyte => List.mem_singleton.mp hbyte, ?_⟩
      exact fun hempty => absurd hempty (List.cons_ne_nil _ _)
    refine ⟨?_, hextends.trim hrelative⟩
    show (if _ then ext4RootInode else ext4RootInode) = (if _ then ext4RootInode else ext4RootInode)
    rw [ite_self, ite_self]
  -- the run of `p1`, and that of the longer path beside it
  obtain ⟨n, position, hn, hsteps, hends⟩ :=
    (resolver volume levels).run_ends ext4MaxSymlinkDepth (.start ext4RootInode p1)
  rw [hp1] at hends
  have hdone : lookAt volume levels position = .ok (.done (directory, inode)) := by
    generalize ext4MaxSymlinkDepth - n = left at hends
    cases hends with
    | done hlook => exact hlook
  have hfollowed := hsteps.followed (fun hR hlook => hR.free hrelative hne hlook)
    (fun hR hlook hpay => hR.paid hrelative hne hvalid hlook hpay) hstart (ext4MaxSymlinkDepth - n)
  rw [Nat.add_sub_cancel' hn] at hfollowed
  obtain ⟨longer, hbeside, hrun⟩ := hfollowed.resolve_left hlong
  -- they are at `p2`
  obtain ⟨hnone, hdirectory⟩ := lookAt_done hdone
  have hat : longer = .start directory p2 := by
    have hfollows := hbeside.follows
    rw [hnone] at hfollows
    have hremaining := hfollows.of_nil
    have hstarts : (Position.start directory p2) = ⟨directory, p2⟩ := by
      unfold Position.start
      rw [if_neg hrelative, trimLeadingSeparators_of_head hrelative]
    rw [hstarts, ← hremaining, show directory = longer.directory from hdirectory.trans hbeside.directory.symm]
  rw [hat] at hrun
  rw [hrun] at hloop ⊢
  exact (Machine.run_of_more hloop (Nat.sub_le _ _)).symm

end Runs

set_option maxRecDepth 20000 in
theorem resolvePath_append_example :
    resolvePath linkedVolume 6 (ascii "//l/" ++ [separator] ++ ascii "./b/")
        = resolvePathFrom linkedVolume 6 ext4MaxSymlinkDepth 3 (ascii "./b/")
      ∧ (resolvePath linkedVolume 6 (ascii "//l/" ++ [separator] ++ ascii "./b/")).isOk = true := by
  have hfile : (resolvePath linkedVolume 6 (ascii "//l/" ++ [separator] ++ ascii "./b/")).isOk = true
      := by decide +kernel
  have hp1 : resolvePath linkedVolume 6 (ascii "//l/")
      = .ok (3, singleFileInode 3 ext4ModeDirectory 1024 ⟨0, 1, 5⟩) := by decide +kernel
  have hnot : ∀ e, resolvePath linkedVolume 6 (ascii "//l/" ++ [separator] ++ ascii "./b/")
      ≠ .error e := by
    intro e h
    rw [h] at hfile
    cases hfile
  exact ⟨resolvePath_append (by decide) (by decide) (by decide) hp1 (hnot _) (hnot _), hfile⟩

end RustFirmware.Ext4
