/-
  RustFirmware.Ext4.Resolution
  ────────────────────────────
  **PATH RESOLUTION AS A MACHINE THAT PAYS FOR SYMLINKS.**

  A component that is consumed makes the rest of the path shorter and is free.  At a
  symlink the path is rebuilt from its target and the rest, which may be longer than
  what there was: that is paid for, and there is a budget of eight.

      §1   the machine, and that `resolve_path_from` is its run
      §2   how an expansion fails
      §3   how resolution ends
      §4   a volume with symlinks
-/
import RustFirmware.Ext4.Failures
import RustFirmware.Ext4.Walk
import RustFirmware.Lib.Budget
import RustFirmware.Lib.Checked

namespace RustFirmware.Ext4

open RustFirmware.Lib

/-! ## §1. The machine. -/

/-- Where resolution stands: the directory it is in, and the rest of the path. -/
structure Position where
  directory : Nat
  remaining : Bytes
  deriving Repr, DecidableEq

/-- Where the resolution of a path starts. -/
def Position.start (directory : Nat) (path : Bytes) : Position where
  directory := if path.head? = some separator then ext4RootInode else directory
  remaining := trimLeadingSeparators path

/-- A symlink that resolution has met: the directory it is in, and the path behind it. -/
structure Link where
  directory : Nat
  inode     : Ext4Inode
  tail      : Bytes
  deriving Repr, DecidableEq

abbrev Resolving : Type := Move Position Link (Nat × Ext4Inode)

/-- The inode that a component names; none for `.`. -/
def enter (volume : Ext4Volume) (levels : Nat) (directory : Ext4Inode) (component : Bytes) :
    Except Halt (Option (Nat × Ext4Inode)) :=
  if component = ascii "." then .ok none
  else if component = ascii ".." then .error (.error .invalidPath)
  else do
    let child ← findDirectoryEntry volume levels directory component
    let childInode ← ended (volume.readInode child)
    .ok (some (child, childInode))

/-- What is done at the inode that was entered. -/
def proceed (directory : Nat) (rest : Bytes) : Option (Nat × Ext4Inode) → Resolving
  | none => .free ⟨directory, rest⟩
  | some (child, childInode) =>
      if childInode.isSymlink then .paid ⟨directory, childInode, rest⟩ else .free ⟨child, rest⟩

/-- One pass of the loop of `resolve_path_from`. -/
def lookAt (volume : Ext4Volume) (levels : Nat) (position : Position) : Except Halt Resolving :=
  if position.remaining = [] then do
    let inode ← ended (volume.readInode position.directory)
    .ok (.done (position.directory, inode))
  else do
    let inode ← ended (volume.readInode position.directory)
    if inode.isDirectory = false then .error (.error .notDirectory)
    else
      let (component, rest) ← ended (splitPathComponent position.remaining)
      let entered ← enter volume levels inode component
      .ok (proceed position.directory rest entered)

/-- The expansion of a symlink. -/
def expandLink (volume : Ext4Volume) (levels : Nat) (link : Link) : Except Halt Position := do
  let expanded ← readSymlinkPath volume levels link.inode link.tail
  let expanded ← ended (okOr (fromUtf8 expanded) .invalidPath)
  .ok (Position.start link.directory expanded)

theorem trimLeadingSeparators_length (path : Bytes) :
    (trimLeadingSeparators path).length ≤ path.length := (List.dropWhile_sublist _).length_le

/-- A component takes at least one byte. -/
theorem splitPathComponent_shorter {path component rest : Bytes}
    (h : splitPathComponent path = .ok (component, rest)) : rest.length < path.length := by
  have htrim := trimLeadingSeparators_length path
  unfold splitPathComponent at h
  dsimp only at h
  split_ifs at h with hnone
  have hpos : 0 < (trimLeadingSeparators path).length := List.length_pos_iff.mpr hnone
  -- without a separator, the component is all that is left
  cases hfind : (trimLeadingSeparators path).findIdx? (· == separator) with
  | none =>
      rw [hfind] at h
      cases h
      rw [List.length_nil]
      omega
  | some i =>
      rw [hfind] at h
      cases h
      have hrest := trimLeadingSeparators_length ((trimLeadingSeparators path).drop (i + 1))
      rw [List.length_drop] at hrest
      omega

section Machine

variable {volume : Ext4Volume} {levels : Nat}

/-- **What a move in the middle of a path is made of.** -/
theorem lookAt_ok {position : Position} {move : Resolving} (hmore : position.remaining ≠ []) :
    lookAt volume levels position = .ok move
      ↔ ∃ inode component rest entered, volume.readInode position.directory = .ok inode
        ∧ inode.isDirectory = true
        ∧ splitPathComponent position.remaining = .ok (component, rest)
        ∧ enter volume levels inode component = .ok entered
        ∧ proceed position.directory rest entered = move := by
  unfold lookAt
  rw [if_neg hmore]
  constructor
  · intro h
    obtain ⟨inode, hinode, h⟩ := bind_eq_ok.mp h
    split at h
    · cases h
    · rename_i hdir
      obtain ⟨⟨component, rest⟩, hsplit, h⟩ := bind_eq_ok.mp h
      obtain ⟨entered, henter, h⟩ := bind_eq_ok.mp h
      have hdirectory : inode.isDirectory = true := by simpa using hdir
      exact ⟨inode, component, rest, entered, ended_ok.mp hinode, hdirectory, ended_ok.mp hsplit,
        henter, Except.ok.inj h⟩
  · rintro ⟨inode, component, rest, entered, hinode, hdir, hsplit, henter, rfl⟩
    rw [hinode]
    show (if inode.isDirectory = false then _ else _) = _
    rw [if_neg (by rw [hdir]; decide), hsplit]
    show (enter volume levels inode component >>= _) = _
    rw [henter]
    rfl

/-- Resolution is only done at the end of the path. -/
theorem lookAt_more {position : Position} {move : Resolving}
    (hlook : lookAt volume levels position = .ok move) (hmove : ∀ result, move ≠ .done result) :
    position.remaining ≠ [] := by
  intro hnone
  unfold lookAt at hlook
  rw [if_pos hnone] at hlook
  obtain ⟨inode, -, hlook⟩ := bind_eq_ok.mp hlook
  exact hmove _ (Except.ok.inj hlook).symm

theorem lookAt_done {position : Position} {result : Nat × Ext4Inode}
    (h : lookAt volume levels position = .ok (.done result)) :
    position.remaining = [] ∧ result.1 = position.directory := by
  by_cases hnone : position.remaining = []
  · unfold lookAt at h
    rw [if_pos hnone] at h
    obtain ⟨inode, -, h⟩ := bind_eq_ok.mp h
    cases h
    exact ⟨hnone, rfl⟩
  · obtain ⟨inode, component, rest, entered, -, -, -, -, hmove⟩ := (lookAt_ok hnone).mp h
    unfold proceed at hmove
    cases entered with
    | none => cases hmove
    | some child =>
        dsimp only at hmove
        split at hmove <;> cases hmove

theorem lookAt_shrinks {position next : Position}
    (h : lookAt volume levels position = .ok (.free next)) :
    next.remaining.length < position.remaining.length := by
  have hmore := lookAt_more h (fun _ => by simp)
  obtain ⟨inode, component, rest, entered, -, -, hsplit, -, hmove⟩ := (lookAt_ok hmore).mp h
  have hshorter := splitPathComponent_shorter hsplit
  unfold proceed at hmove
  cases entered with
  | none =>
      cases hmove
      exact hshorter
  | some child =>
      dsimp only at hmove
      split at hmove
      · cases hmove
      · cases hmove
        exact hshorter

/-- **Path resolution.** -/
def resolver (volume : Ext4Volume) (levels : Nat) : Machine Halt Position Link (Nat × Ext4Inode) where
  look      := lookAt volume levels
  pay       := expandLink volume levels
  exhausted := .error .symlinkLoop
  size      := fun position => position.remaining.length
  shrinks   := lookAt_shrinks

/-- One pass of the loop is a look of the machine. -/
theorem resolveLoop_succ (expand : Expand) (passes current : Nat) (remaining : Bytes) :
    resolveLoop volume levels expand (passes + 1) current remaining
      = lookAt volume levels ⟨current, remaining⟩ >>= fun move =>
          match move with
          | .done result => .ok result
          | .free next   => resolveLoop volume levels expand passes next.directory next.remaining
          | .paid link   => expand link.directory link.inode link.tail := by
  -- both sides make the tests of the pass in one order, and stop at the same one: the cases
  -- are these tests, and each but the last is closed where it stops
  rw [resolveLoop]
  unfold lookAt
  dsimp only
  by_cases hnone : remaining = []
  · rw [if_pos hnone, if_pos hnone]
    cases ended (volume.readInode current) <;> rfl
  · rw [if_neg hnone, if_neg hnone]
    cases ended (volume.readInode current) with
    | error e => rfl
    | ok inode =>
        show (if inode.isDirectory = false then _ else _) = (if inode.isDirectory = false then _ else _) >>= _
        by_cases hdir : inode.isDirectory = false
        · rw [if_pos hdir, if_pos hdir]
          rfl
        · rw [if_neg hdir, if_neg hdir]
          cases ended (splitPathComponent remaining) with
          | error e => rfl
          | ok split =>
              obtain ⟨component, rest⟩ := split
              show (if component = ascii "." then _ else _)
                = (enter volume levels inode component >>= _) >>= _
              unfold enter
              by_cases hdot : component = ascii "."
              · rw [if_pos hdot, if_pos hdot]
                rfl
              · rw [if_neg hdot, if_neg hdot]
                by_cases hparent : component = ascii ".."
                · rw [if_pos hparent, if_pos hparent]
                  rfl
                · rw [if_neg hparent, if_neg hparent]
                  cases findDirectoryEntry volume levels inode component with
                  | error e => rfl
                  | ok child =>
                      show (ended (volume.readInode child) >>= _)
                        = ((ended (volume.readInode child) >>= _) >>= _) >>= _
                      cases ended (volume.readInode child) with
                      | error e => rfl
                      | ok childInode =>
                          by_cases hlink : childInode.isSymlink = true
                          · have hpaid : proceed current rest (some (child, childInode))
                                = .paid ⟨current, childInode, rest⟩ := if_pos hlink
                            show (if childInode.isSymlink = true then _ else _)
                              = Except.ok (proceed current rest (some (child, childInode))) >>= _
                            rw [if_pos hlink, hpaid]
                            rfl
                          · have hfree : proceed current rest (some (child, childInode))
                                = .free ⟨child, rest⟩ := if_neg hlink
                            show (if childInode.isSymlink = true then _ else _)
                              = Except.ok (proceed current rest (some (child, childInode))) >>= _
                            rw [if_neg hlink, hfree]
                            rfl

/-- **The loop is a run of the machine**, if its way on at a symlink is that of the machine. -/
theorem resolveLoop_run {expand : Expand} {budget passes current : Nat} {remaining : Bytes}
    (hexpand : ∀ {position link}, lookAt volume levels position = .ok (.paid link) →
      (resolver volume levels).run budget position = expand link.directory link.inode link.tail)
    (hpasses : remaining.length < passes) :
    resolveLoop volume levels expand passes current remaining
      = (resolver volume levels).run budget ⟨current, remaining⟩ := by
  -- what is free is shorter, so a pass is left for each component
  induction passes generalizing current remaining with
  | zero => exact absurd hpasses (Nat.not_lt_zero _)
  | succ passes ih =>
      rw [resolveLoop_succ]
      cases hlook : lookAt volume levels ⟨current, remaining⟩ with
      | error e => exact (Machine.run_error hlook).symm
      | ok move =>
          cases move with
          | done result => exact (Machine.run_done hlook).symm
          | free next =>
              rw [Machine.run_free hlook]
              have hshorter := lookAt_shrinks hlook
              dsimp only at hshorter
              exact ih (by omega)
          | paid link => exact (hexpand hlook).symm

/-- **`resolve_path_from` is a run with the budget of its depth.** -/
theorem resolvePathFrom_run (expansions start : Nat) (path : Bytes) :
    resolvePathFrom volume levels expansions start path
      = (resolver volume levels).run expansions (.start start path) := by
  -- with no depth left the loop refuses a symlink as the machine does; otherwise its way on
  -- is the run from the path that the expansion leaves
  induction expansions generalizing start path with
  | zero => exact resolveLoop_run (fun hlook => Machine.run_unpaid hlook) (Nat.lt_succ_self _)
  | succ expansions ih =>
      refine resolveLoop_run (fun {position link} hlook => ?_) (Nat.lt_succ_self _)
      rw [Machine.run_paid hlook]
      show (expandLink volume levels link >>= _) = _
      unfold expandLink
      cases readSymlinkPath volume levels link.inode link.tail with
      | error e => rfl
      | ok expanded =>
          show (ended (okOr (fromUtf8 expanded) .invalidPath) >>= _) >>= _
            = ended (okOr (fromUtf8 expanded) .invalidPath) >>= _
          cases ended (okOr (fromUtf8 expanded) .invalidPath) with
          | error e => rfl
          | ok expanded => exact (ih link.directory expanded).symm

end Machine

/-! ## §2. How an expansion fails. -/

/-- A target with the path behind the symlink. -/
def joinTarget (target tail : Bytes) : Bytes :=
  let tail := trimLeadingSeparators tail
  if tail = [] then target
  else if target ≠ [] ∧ target.getLast? ≠ some separator then target ++ [separator] ++ tail
  else target ++ tail

section Expansion

variable {volume : Ext4Volume} {levels : Nat}

/-- **`read_symlink_path` joins, unless there is a tail and no room.** -/
theorem readSymlinkPath_eq (inode : Ext4Inode) (tail : Bytes) :
    readSymlinkPath volume levels inode tail
      = readSymlinkTarget volume levels inode >>= fun target =>
          if trimLeadingSeparators tail ≠ [] ∧ ext4PathBytes < (joinTarget target tail).length then
            .error (.error .nameTooLong)
          else .ok (joinTarget target tail) := by
  unfold readSymlinkPath
  cases readSymlinkTarget volume levels inode with
  | error e => rfl
  | ok target =>
      show (let tail := trimLeadingSeparators tail; if tail = [] then Except.ok target else _)
        = (if trimLeadingSeparators tail ≠ [] ∧ _ then _ else _)
      unfold joinTarget
      dsimp only
      generalize trimLeadingSeparators tail = tail
      by_cases hnone : tail = []
      · rw [if_pos hnone, if_pos hnone, if_neg (fun h => h.1 hnone)]
      · have hpos : 0 < tail.length := List.length_pos_iff.mpr hnone
        rw [if_neg hnone, if_neg hnone]
        by_cases hgap : target ≠ [] ∧ target.getLast? ≠ some separator
        · rw [if_pos hgap, if_pos hgap]
          have hlength : (target ++ [separator] ++ tail).length = target.length + 1 + tail.length := by
            rw [List.length_append, List.length_append]
            rfl
          rw [hlength]
          -- the source looks for room for the separator first, which is less than what the second
          -- test asks for
          by_cases hfull : target.length ≥ ext4PathBytes
          · rw [if_pos hfull, if_pos ⟨hnone, by omega⟩]
          · rw [if_neg hfull]
            exact if_congr ⟨fun h => ⟨hnone, h⟩, fun h => h.2⟩ rfl rfl
        · rw [if_neg hgap, if_neg hgap, List.length_append]
          exact if_congr ⟨fun h => ⟨hnone, h⟩, fun h => h.2⟩ rfl rfl

variable (volume levels) in
/-- The expansion fits in the path buffer: the target by itself, and with the tail. -/
structure Link.Fits (link : Link) : Prop where
  target : link.inode.sizeBytes ≤ ext4PathBytes
  joined : ∀ target, readSymlinkTarget volume levels link.inode = .ok target →
    (joinTarget target link.tail).length ≤ ext4PathBytes

theorem readSymlinkTarget_failsIn {P : Halt → Prop} {inode : Ext4Inode}
    (hlong : ext4PathBytes < inode.sizeBytes → P (.error .nameTooLong))
    (hread : ∀ buffer, FailsIn P (readInodeContents volume levels inode buffer)) :
    FailsIn P (readSymlinkTarget volume levels inode) := by
  unfold readSymlinkTarget
  dsimp only
  by_cases hsize : inode.sizeBytes > ext4PathBytes
  · rw [if_pos hsize]
    exact .error (hlong hsize)
  · rw [if_neg hsize]
    exact .ite (.ok _) ((hread _).bind (fun _ => .ok _))

/-- An expansion fails because it does not fit, as a reader does, or with a path that is
    no text. -/
theorem expandLink_failsIn {P : Halt → Prop} {link : Link}
    (hlong : ¬ link.Fits volume levels → P (.error .nameTooLong)) (hinvalid : P (.error .invalidPath))
    (hread : ∀ buffer, FailsIn P (readInodeContents volume levels link.inode buffer)) :
    FailsIn P (expandLink volume levels link) := by
  unfold expandLink
  rw [readSymlinkPath_eq]
  refine .bind (.bind_of ?_ (fun target htarget => ?_)) (fun expanded => .bind ?_ (fun _ => .ok _))
  · exact readSymlinkTarget_failsIn
      (fun hsize => hlong (fun hfits => absurd hfits.target (Nat.not_le.mpr hsize))) hread
  · by_cases hroom : trimLeadingSeparators link.tail ≠ []
        ∧ ext4PathBytes < (joinTarget target link.tail).length
    · rw [if_pos hroom]
      exact .error (hlong (fun hfits => absurd (hfits.joined target htarget) (Nat.not_le.mpr hroom.2)))
    · rw [if_neg hroom]
      exact .ok _
  · cases fromUtf8 expanded with
    | none => exact .error hinvalid
    | some text => exact .ok text

/-- A look fails as a reader does, or because of the path. -/
theorem lookAt_failsIn {P : Halt → Prop} (hinode : ∀ number, FailsIn P (ended (volume.readInode number)))
    (hentry : ∀ number inode component, volume.readInode number = .ok inode →
      FailsIn P (findDirectoryEntry volume levels inode component))
    (hdirectory : P (.error .notDirectory)) (hinvalid : P (.error .invalidPath))
    (position : Position) : FailsIn P (lookAt volume levels position) := by
  have hsplit : ∀ path, FailsIn P (ended (splitPathComponent path)) := by
    intro path
    unfold splitPathComponent
    dsimp only
    split
    · exact .error hinvalid
    · split
      · exact .ok _
      · exact .ok _
  unfold lookAt
  refine .ite ((hinode _).bind (fun _ => .ok _)) ((hinode _).bind_of (fun inode hread => ?_))
  refine .ite (.error hdirectory) ((hsplit _).bind (fun split => ?_))
  refine .bind (.ite (.ok _) (.ite (.error hinvalid) ?_)) (fun _ => .ok _)
  exact (hentry _ inode split.1 (ended_ok.mp hread)).bind (fun _ => (hinode _).bind (fun _ => .ok _))

/-- The inode of a symlink that is met was read. -/
theorem lookAt_paid {position : Position} {link : Link}
    (h : lookAt volume levels position = .ok (.paid link)) :
    ∃ number, volume.readInode number = .ok link.inode := by
  have hmore := lookAt_more h (fun _ => by simp)
  obtain ⟨inode, component, rest, entered, -, -, -, henter, hmove⟩ := (lookAt_ok hmore).mp h
  cases entered with
  | none => cases hmove
  | some child =>
      unfold enter at henter
      split_ifs at henter
      · cases henter
      · obtain ⟨number, hfound, henter⟩ := bind_eq_ok.mp henter
        obtain ⟨childInode, hread, henter⟩ := bind_eq_ok.mp henter
        cases henter
        unfold proceed at hmove
        dsimp only at hmove
        split at hmove
        · cases hmove
          exact ⟨number, ended_ok.mp hread⟩
        · cases hmove

end Expansion

/-! ## §3. How resolution ends. -/

section Resolve

variable {volume : Ext4Volume} {levels : Nat}

variable (volume levels) in
/-- From one position to another with `expansions` symlinks expanded on the way, each in the
    path buffer. -/
def Resolves (expansions : Nat) (position position' : Position) : Prop :=
  (resolver volume levels).Steps expansions position position'

variable (volume levels) in
/-- The next component is a symlink. -/
def Meets (position : Position) (link : Link) : Prop :=
  lookAt volume levels position = .ok (.paid link)

/-- A look fails with nothing that is about the expansion of symlinks. -/
theorem lookAt_fails (position : Position) : FailsIn Halt.Plain (lookAt volume levels position) :=
  lookAt_failsIn (fun number => ended_fails (readInode_fails volume number))
    (fun _ inode component _ => findDirectoryEntry_fails volume levels inode component) trivial trivial
    position

theorem expandLink_ne_symlinkLoop (link : Link) :
    expandLink volume levels link ≠ .error (.error .symlinkLoop) := by
  have hfails : FailsIn (fun e => e ≠ .error .symlinkLoop) (expandLink volume levels link) := by
    refine expandLink_failsIn (fun _ => by decide) (by decide) (fun buffer => ?_)
    refine (readInodeContents_fails volume levels link.inode buffer).mono ?_
    rintro _ hplain rfl
    exact hplain
  exact fun h => hfails _ h rfl

theorem resolvePath_run (path : Bytes) :
    resolvePath volume levels path
      = (resolver volume levels).run ext4MaxSymlinkDepth (.start ext4RootInode path) :=
  resolvePathFrom_run ext4MaxSymlinkDepth ext4RootInode path

/-- Contents are read to an end where the extents are. -/
theorem readInodeContents_ends {inode : Ext4Inode}
    (hcollect : collectInodeExtents volume levels inode ≠ .error .deeper) (buffer : Bytes) :
    FailsIn (fun e => e ≠ Halt.deeper) (readInodeContents volume levels inode buffer) := by
  have hextents : FailsIn (fun e => e ≠ Halt.deeper) (collectInodeExtents volume levels inode) := by
    rintro _ hfails rfl
    exact hcollect hfails
  refine .ite (.error (by decide)) (.ite (.error (by decide)) (.ite (.ok _) ?_))
  refine hextents.bind (fun _ => .bind ?_ (fun _ => .ok _))
  rintro _ hfails rfl
  exact ended_ne_deeper _ hfails

/-- **Resolution ends by itself**, where the extent trees that it reads do. -/
theorem resolvePath_ne_deeper (hreads : ∀ number inode, volume.readInode number = .ok inode →
    collectInodeExtents volume levels inode ≠ .error .deeper) (path : Bytes) :
    resolvePath volume levels path ≠ .error .deeper := by
  have hended : ∀ {α : Type} (result : Except Ext4Error α),
      FailsIn (fun e => e ≠ Halt.deeper) (ended result) := by
    rintro α result _ hresult rfl
    exact ended_ne_deeper result hresult
  have hextents : ∀ number inode, volume.readInode number = .ok inode →
      FailsIn (fun e => e ≠ Halt.deeper) (collectInodeExtents volume levels inode) := by
    rintro number inode hread _ hcollect rfl
    exact hreads number inode hread hcollect
  have hlook : ∀ position, FailsIn (fun e => e ≠ Halt.deeper) (lookAt volume levels position) :=
    lookAt_failsIn (fun _ => hended _)
      (fun number inode _ hread => (hextents number inode hread).bind (fun _ => hended _))
      (by decide) (by decide)
  intro h
  rw [resolvePath_run] at h
  obtain ⟨n, position, -, -, hends⟩ :=
    Machine.run_ends (m := resolver volume levels) ext4MaxSymlinkDepth (.start ext4RootInode path)
  rw [h] at hends
  -- neither way to end is about what is left of the budget
  generalize ext4MaxSymlinkDepth - n = left at hends
  cases hends with
  | error herror => exact hlook position _ herror rfl
  | @refused _ _ link _ hmeets hrefused =>
      obtain ⟨number, hread⟩ := lookAt_paid hmeets
      have hexpand : FailsIn (fun e => e ≠ Halt.deeper) (expandLink volume levels link) := by
        exact expandLink_failsIn (fun _ => by decide) (by decide)
          (readInodeContents_ends (hreads number _ hread))
      exact hexpand _ hrefused rfl

/-- What a path resolves to was read from the volume. -/
theorem resolvePath_read {path : Bytes} {result : Nat × Ext4Inode}
    (h : resolvePath volume levels path = .ok result) : volume.readInode result.1 = .ok result.2 := by
  rw [resolvePath_run] at h
  obtain ⟨n, position, -, -, hends⟩ :=
    Machine.run_ends (m := resolver volume levels) ext4MaxSymlinkDepth (.start ext4RootInode path)
  rw [h] at hends
  generalize ext4MaxSymlinkDepth - n = left at hends
  cases hends with
  | done hlook =>
      have hlast : lookAt volume levels position = .ok (.done result) := hlook
      have hnone := (lookAt_done hlast).1
      unfold lookAt at hlast
      rw [if_pos hnone] at hlast
      obtain ⟨inode, hread, hlast⟩ := bind_eq_ok.mp hlast
      cases hlast
      exact ended_ok.mp hread

/-- **`SymlinkLoop` is a ninth symlink.** -/
theorem resolvePath_loop_iff (path : Bytes) :
    resolvePath volume levels path = .error (.error .symlinkLoop)
      ↔ ∃ position link, Resolves volume levels ext4MaxSymlinkDepth (.start ext4RootInode path) position
        ∧ Meets volume levels position link := by
  rw [resolvePath_run]
  exact Machine.run_exhausted_iff (fun position h => lookAt_fails position (.error .symlinkLoop) h)
    expandLink_ne_symlinkLoop

/-- **Where all expansions fit, no name is too long.** -/
theorem resolvePath_ne_nameTooLong {path : Bytes}
    (hfits : ∀ n position link, Resolves volume levels n (.start ext4RootInode path) position →
      Meets volume levels position link → link.Fits volume levels) :
    resolvePath volume levels path ≠ .error (.error .nameTooLong) := by
  intro h
  rw [resolvePath_run] at h
  obtain ⟨n, position, -, hsteps, hends⟩ :=
    Machine.run_ends (m := resolver volume levels) ext4MaxSymlinkDepth (.start ext4RootInode path)
  rw [h] at hends
  -- the run may end at a look or at a refused expansion, and both are plain
  generalize ext4MaxSymlinkDepth - n = left at hends
  cases hends with
  | error herror => exact lookAt_fails position _ herror
  | @refused _ _ link _ hmeets hrefused =>
      have hplain := expandLink_failsIn (P := Halt.Plain)
        (fun hnot => absurd (hfits n position link hsteps hmeets) hnot) trivial
        (fun buffer => readInodeContents_fails volume levels link.inode buffer)
      exact hplain _ hrefused

/-- **Resolution and its eight symlinks.**  If the extent trees end within `levels`, then
    resolution ends, after at most eight expansions; it ends with `SymlinkLoop` exactly if it
    meets a symlink after eight; and if it meets none after eight and every expansion fits
    in the buffer, it ends neither with `SymlinkLoop` nor with `NameTooLong`. -/
theorem resolvePath_symlinks (hreads : ∀ number inode, volume.readInode number = .ok inode →
    collectInodeExtents volume levels inode ≠ .error .deeper) (path : Bytes) :
    (resolvePath volume levels path ≠ .error .deeper
      ∧ ∃ n position, n ≤ ext4MaxSymlinkDepth
        ∧ Resolves volume levels n (.start ext4RootInode path) position
        ∧ (resolver volume levels).Ends (ext4MaxSymlinkDepth - n) position
            (resolvePath volume levels path))
    ∧ (resolvePath volume levels path = .error (.error .symlinkLoop)
      ↔ ∃ position link, Resolves volume levels ext4MaxSymlinkDepth (.start ext4RootInode path) position
        ∧ Meets volume levels position link)
    ∧ ((∀ n position link, Resolves volume levels n (.start ext4RootInode path) position →
        Meets volume levels position link → n < ext4MaxSymlinkDepth ∧ link.Fits volume levels) →
      resolvePath volume levels path ≠ .error (.error .symlinkLoop)
      ∧ resolvePath volume levels path ≠ .error (.error .nameTooLong)) := by
  refine ⟨⟨resolvePath_ne_deeper hreads path, ?_⟩, resolvePath_loop_iff path, fun hneeds => ⟨?_, ?_⟩⟩
  · rw [resolvePath_run]
    exact Machine.run_ends ext4MaxSymlinkDepth (Position.start ext4RootInode path)
  · intro hloop
    obtain ⟨position, link, hresolves, hmeets⟩ := (resolvePath_loop_iff path).mp hloop
    exact Nat.lt_irrefl _ (hneeds _ position link hresolves hmeets).1
  · exact resolvePath_ne_nameTooLong
      (fun n position link hresolves hmeets => (hneeds n position link hresolves hmeets).2)

end Resolve

/-! ## §4. A volume with symlinks. -/

/-- What does not begin with the magic of a node is none. -/
theorem extentHeader_of_magic {node : Bytes} (h : node.take 2 ≠ [0x0a, 0xf3]) :
    ∃ e, extentHeader node = .error e := by
  refine ⟨.invalidExtentTree, ?_⟩
  unfold extentHeader
  cases hmagic : readLe16 node 0 with
  | none => rfl
  | some magic =>
      refine if_pos ?_
      rintro rfl
      obtain ⟨word, hword, hvalue⟩ := Option.map_eq_some_iff.mp hmagic
      obtain ⟨-, -, hlength⟩ := slice_bounds hword
      have htake : node.take 2 = word := by
        unfold slice? at hword
        split_ifs at hword
        exact Option.some.inj hword
      rw [htake] at h
      -- the two bytes are the digits of their number in base 256
      match word, hlength with
      | [low, high], _ =>
          have hsum : (0 * 256 + high.toNat) * 256 + low.toNat = 0xf30a := hvalue
          have hlow := low.toNat_lt
          have hhigh := high.toNat_lt
          have hlow' : low = 0x0a := UInt8.toNat_inj.mp (show low.toNat = 0x0a by omega)
          have hhigh' : high = 0xf3 := UInt8.toNat_inj.mp (show high.toNat = 0xf3 by omega)
          rw [hlow', hhigh'] at h
          exact h rfl

/-- Where no block is a node, no extent tree nests more than once. -/
theorem collectInodeExtents_of_noNode {volume : Ext4Volume} (levels : Nat)
    (h : ∀ blockNumber block, volume.readBlock blockNumber = .ok block →
      ∃ e, extentHeader block = .error e) (inode : Ext4Inode) :
    collectInodeExtents volume (levels + 2) inode ≠ .error .deeper := by
  intro hdeeper
  unfold collectInodeExtents at hdeeper
  split_ifs at hdeeper
  · cases hdeeper
  -- too deep by two levels is an index node in the inode with an index node below it
  · have hroom : ([] : List Ext4Extent).length ≤ ext4MaxExtents := Nat.zero_le _
    cases (collectExtentNode_deeper hroom).mp hdeeper with
    | link _ _ _ _ _ _ hnext hbelow =>
        obtain ⟨low, -, hnext⟩ := bind_eq_ok.mp hnext
        obtain ⟨high, -, hnext⟩ := bind_eq_ok.mp hnext
        obtain ⟨e, hnone⟩ := h _ _ hnext
        cases hbelow with
        | link hheader =>
            rw [hnone] at hheader
            cases hheader

/-- The inode of a symlink with its target in it. -/
def symlinkRecord (target : Bytes) : Bytes :=
  leBytes 2 ext4ModeSymlink ++ leBytes 2 0 ++ leBytes 4 target.length ++ List.replicate 32 0
    ++ target ++ List.replicate (88 - target.length) 0

/-- A volume with a directory `d`, a symlink `l` to it and a symlink `s` to itself; in the
    directory a file `a` and a symlink `b` back through `l` to the file. -/
def linkedVolume : Ext4Volume := volumeOf (fun lba =>
  if lba = 4 then List.replicate 8 0 ++ leBytes 4 3
  else if lba = 6 then
    List.replicate 128 0 ++ inodeRecord ext4ModeDirectory 1024 ⟨0, 1, 4⟩
      ++ inodeRecord ext4ModeDirectory 1024 ⟨0, 1, 5⟩ ++ symlinkRecord (ascii "d/")
  else if lba = 7 then
    inodeRecord ext4ModeRegular 5 ⟨0, 1, 6⟩ ++ symlinkRecord (ascii "/l/a")
      ++ symlinkRecord (ascii "./s")
  else if lba = 8 then
    recordBytes 3 12 (ascii "d") ++ recordBytes 4 12 (ascii "l") ++ recordBytes 7 1000 (ascii "s")
  else if lba = 10 then recordBytes 5 12 (ascii "a") ++ recordBytes 6 1012 (ascii "b")
  else [])

theorem linkedVolume_noNode (blockNumber : Nat) (block : Bytes)
    (h : linkedVolume.readBlock blockNumber = .ok block) : ∃ e, extentHeader block = .error e := by
  have hsector : ∀ lba, (linkedVolume.device.sector lba).take 2 ≠ [0x0a, 0xf3] := by
    intro lba
    unfold linkedVolume volumeOf
    dsimp only
    split_ifs <;> decide +kernel
  refine extentHeader_of_magic ?_
  have hsectors : ∀ lba, linkedVolume.device.sectors lba 2
      = linkedVolume.device.sector (lba % 2 ^ 64) ++ linkedVolume.device.sectors (lba + 1) 1 :=
    fun _ => rfl
  have hlength := linkedVolume.device.sector_length
  rw [linkedVolume.readBlock_ok h]
  show (linkedVolume.device.sectors _ 2).take 2 ≠ _
  rw [hsectors, List.take_append_of_le_length (by rw [hlength]; decide)]
  exact hsector _

set_option maxRecDepth 20000 in
theorem resolvePath_symlinks_example :
    resolvePath linkedVolume 6 (ascii "/s") = .error (.error .symlinkLoop)
    ∧ ∃ position link, Resolves linkedVolume 6 8 (.start ext4RootInode (ascii "/s")) position
        ∧ Meets linkedVolume 6 position link := by
  have hloop : resolvePath linkedVolume 6 (ascii "/s") = .error (.error .symlinkLoop) := by
    decide +kernel
  have hreads : ∀ number inode, linkedVolume.readInode number = .ok inode →
      collectInodeExtents linkedVolume 6 inode ≠ .error .deeper :=
    fun _ inode _ => collectInodeExtents_of_noNode 4 linkedVolume_noNode inode
  exact ⟨hloop, (resolvePath_symlinks hreads (ascii "/s")).2.1.mp hloop⟩

end RustFirmware.Ext4
