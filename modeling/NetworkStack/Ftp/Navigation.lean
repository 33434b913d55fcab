import NetworkStack.Ftp.FtpUtils
import NetworkStack.Lib.Machine
import NetworkStack.Lib.Prefixes

/-!
# Where a navigation leaves the server

The server has a working directory and grants or refuses each command. The
navigator never asks it where it is: after a refusal, and after a change between
kinds of paths, `_current` can name another directory than the server's.
-/

namespace NetworkStack.Utility

open Path

/-! ### Directories and moves -/

/-- A drive, or none for the POSIX tree, and the components from its root. -/
structure Dir where
  drive : Option Bytes
  comps : List Path
  deriving DecidableEq

def Dir.root : Dir := ⟨none, []⟩

/-- A granted `CWD`: a dot-dot at the root, a dot and an empty name change nothing. -/
def enter (comps : List Path) (name : Path) : List Path :=
  if name = [] ∨ name = dot then comps
  else if name = dotdot then comps.dropLast
  else comps ++ [name]

def Dir.obey (dir : Dir) : Command → Dir
  | .cd name => { dir with comps := enter dir.comps name }
  | .selectDrive drive => ⟨some drive, []⟩

/-- The directory a path names; a relative one starts from `base`. -/
def resolve (base : Dir) (p : Path) : Dir :=
  if hasWindowsDrive p then
    ⟨some (extractWindowsDrive p), (stripWindowsDrive p).names.foldl enter []⟩
  else if p.has_root_directory then ⟨none, p.names.foldl enter []⟩
  else { base with comps := p.names.foldl enter base.comps }

/- What a sequence of commands comes to, wherever it starts: perhaps a drive is
selected, then `up` levels are left, then `names` are entered. -/
structure Move where
  drive : Option Bytes
  up : ℕ
  names : List Path

def Move.stay : Move := ⟨none, 0, []⟩

def Move.extend (m : Move) : Command → Move
  | .selectDrive drive => ⟨some drive, 0, []⟩
  | .cd name =>
    if name = [] ∨ name = dot then m
    else if name = dotdot then
      if m.names = [] then { m with up := m.up + 1 } else { m with names := m.names.dropLast }
    else { m with names := m.names ++ [name] }

def Move.of (cs : List Command) : Move := cs.foldl Move.extend Move.stay

def Move.apply (m : Move) (dir : Dir) : Dir :=
  match m.drive with
  | some drive => ⟨some drive, m.names⟩
  | none => { dir with comps := dir.comps.take (dir.comps.length - m.up) ++ m.names }

def Move.Returns (m : Move) (dir : Dir) : Prop :=
  match m.drive with
  | some drive => dir = ⟨some drive, m.names⟩
  | none => m.names = dir.comps.drop (dir.comps.length - m.up)

theorem Move.apply_stay (dir : Dir) : Move.stay.apply dir = dir := by
  simp [Move.apply, Move.stay]

theorem Move.apply_extend (m : Move) (dir : Dir) (c : Command) :
    (m.extend c).apply dir = (m.apply dir).obey c := by
  cases c with
  | selectDrive drive => rfl
  | cd name =>
    unfold Move.extend
    by_cases hstay : name = [] ∨ name = dot
    · simp only [if_pos hstay, Dir.obey, enter]
    · by_cases hup : name = dotdot
      · simp only [if_neg hstay, if_pos hup, Dir.obey, enter]
        by_cases hnames : m.names = []
        · -- the names are used up: one more level of the old directory is left
          cases hd : m.drive with
          | some drive => simp [Move.apply, hd, hnames]
          | none =>
            simp only [Move.apply, hd, hnames, if_pos, List.append_nil]
            rw [List.dropLast_eq_take, List.take_take, List.length_take]
            congr 2
            omega
        · cases hd : m.drive with
          | some drive => simp [Move.apply, hd, hnames]
          | none => simp [Move.apply, hd, hnames, List.dropLast_append_of_ne_nil]
      · simp only [if_neg hstay, if_neg hup, Dir.obey, enter]
        cases hd : m.drive with
        | some drive => simp [Move.apply, hd]
        | none => simp [Move.apply, hd]

theorem Move.apply_of (cs : List Command) (dir : Dir) :
    (Move.of cs).apply dir = cs.foldl Dir.obey dir := by
  have hfold : ∀ m : Move,
      (cs.foldl Move.extend m).apply dir = cs.foldl Dir.obey (m.apply dir) := by
    induction cs with
    | nil => exact fun _ => rfl
    | cons c cs ih =>
      intro m
      rw [List.foldl_cons, List.foldl_cons, ih, Move.apply_extend]
  rw [Move.of, hfold, Move.apply_stay]

theorem Move.apply_eq_iff (m : Move) (dir : Dir) : m.apply dir = dir ↔ m.Returns dir := by
  unfold Move.apply Move.Returns
  cases m.drive with
  | some drive => exact eq_comm
  | none =>
    have hsplit := List.take_append_drop (dir.comps.length - m.up) dir.comps
    constructor
    · intro h
      have hcomps : dir.comps.take (dir.comps.length - m.up) ++ m.names = dir.comps :=
        congrArg Dir.comps h
      exact List.append_cancel_left (hcomps.trans hsplit.symm)
    · intro h
      simp only [h, hsplit]

instance (m : Move) (dir : Dir) : Decidable (m.Returns dir) :=
  decidable_of_iff (m.apply dir = dir) (m.apply_eq_iff dir)

/-! ### The server -/

/- `answers` holds what each command will be answered, `issued` how many there were. -/
structure DirServer where
  dir : Dir
  answers : ℕ → Except ErrorCode Unit
  issued : ℕ

def DirServer.receive (s : DirServer) (c : Command) : Except ErrorCode Unit × DirServer :=
  match s.answers s.issued with
  | .error ec => (.error ec, { s with issued := s.issued + 1 })
  | .ok _ => (.ok (), { s with dir := s.dir.obey c, issued := s.issued + 1 })

def toServer : Transport ErrorCode DirServer where
  ftpCd dir s := s.receive (.cd dir)
  ftpSelectDrive drive s := s.receive (.selectDrive drive)

/-- How many of the next `n` answers grant, up to the first that refuses. -/
def leadingGrants (answers : ℕ → Except ErrorCode Unit) (i : ℕ) : ℕ → ℕ
  | 0 => 0
  | n + 1 =>
    match answers i with
    | .error _ => 0
    | .ok _ => leadingGrants answers (i + 1) n + 1

def DirServer.granted (s : DirServer) (cs : List Command) : List Command :=
  cs.take (leadingGrants s.answers s.issued cs.length)

theorem toServer_send (c : Command) (s : DirServer) : toServer.send c s = s.receive c := by
  cases c <;> rfl

/-- The server has obeyed what it granted; if nothing was refused, that is everything. -/
theorem issue_toServer (cs : List Command) (s : DirServer) :
    (issue toServer cs s).2.dir = (s.granted cs).foldl Dir.obey s.dir ∧
      ((issue toServer cs s).1 = .ok () → s.granted cs = cs) := by
  induction cs generalizing s with
  | nil => exact ⟨rfl, fun _ => rfl⟩
  | cons c cs ih =>
    simp only [issue, toServer_send, DirServer.granted, DirServer.receive, List.length_cons,
      leadingGrants]
    cases s.answers s.issued with
    | error ec => exact ⟨rfl, fun h => by cases h⟩
    | ok u =>
      obtain ⟨hdir, hall⟩ := ih { s with dir := s.dir.obey c, issued := s.issued + 1 }
      exact ⟨hdir, fun h => congrArg (c :: ·) (hall h)⟩

/-- After a refused navigation `_current` still names the server's directory exactly
when the commands granted before the refusal lead back to it. -/
theorem refused_navigation_names_iff (base : Dir) (nav : SmartDirectoryNavigator DirServer)
    (targetPath : Path) (ec : ErrorCode) (hnames : resolve base nav.current = nav.session.dir)
    (h : (changeDirectory toServer nav targetPath).1 = .error ec) :
    resolve base (changeDirectory toServer nav targetPath).2.current
        = (changeDirectory toServer nav targetPath).2.session.dir ↔
      (Move.of (nav.session.granted (route nav.current (normalize targetPath)))).Returns
        nav.session.dir := by
  obtain ⟨hdir, -⟩ := issue_toServer (route nav.current (normalize targetPath)) nav.session
  rw [changeDirectory_eq] at h ⊢
  cases hissue : issue toServer (route nav.current (normalize targetPath)) nav.session with
  | mk r s =>
    rw [hissue] at h hdir
    cases r with
    | ok u => cases h
    | error ec' =>
      simp only at hdir ⊢
      rw [hnames, hdir, ← Move.apply_of, eq_comm, Move.apply_eq_iff]

def refusing (k i : ℕ) : Except ErrorCode Unit :=
  if i = k then .error (.network .PROTOCOL_ERROR) else .ok ()

/-- From a path with a trailing separator the way to `/a/a/c` leaves `a` and enters it again. -/
theorem refused_navigation_names_back :
    let nav : SmartDirectoryNavigator DirServer :=
      ⟨ascii "/a/", ⟨⟨none, [ascii "a"]⟩, refusing 2, 0⟩⟩
    (changeDirectory toServer nav (ascii "/a/a/c")).1 = .error (.network .PROTOCOL_ERROR) ∧
      resolve Dir.root (changeDirectory toServer nav (ascii "/a/a/c")).2.current
        = (changeDirectory toServer nav (ascii "/a/a/c")).2.session.dir := by
  intro nav
  have herr : (changeDirectory toServer nav (ascii "/a/a/c")).1
      = .error (.network .PROTOCOL_ERROR) := by decide +kernel
  exact ⟨herr, (refused_navigation_names_iff Dir.root nav (ascii "/a/a/c") _ (by decide +kernel)
    herr).mpr (by decide +kernel)⟩

/-- The second command is refused after the first has taken the server to `/a`. -/
theorem refused_navigation_stale :
    let nav : SmartDirectoryNavigator DirServer := ⟨ascii "/", ⟨Dir.root, refusing 1, 0⟩⟩
    resolve Dir.root nav.current = nav.session.dir ∧
      (changeDirectory toServer nav (ascii "/a/b")).1 = .error (.network .PROTOCOL_ERROR) ∧
      (changeDirectory toServer nav (ascii "/a/b")).2.current = ascii "/" ∧
      (changeDirectory toServer nav (ascii "/a/b")).2.session.dir = ⟨none, [ascii "a"]⟩ ∧
      resolve Dir.root (changeDirectory toServer nav (ascii "/a/b")).2.current
        ≠ (changeDirectory toServer nav (ascii "/a/b")).2.session.dir := by
  decide +kernel

/-! ### Entering and leaving -/

theorem foldl_enter_dotdot (comps : List Path) (n : ℕ) :
    (List.replicate n dotdot).foldl enter comps = comps.take (comps.length - n) := by
  induction n generalizing comps with
  | zero => simp
  | succ n ih =>
    have henter : enter comps dotdot = comps.dropLast := rfl
    rw [List.replicate_succ, List.foldl_cons, ih, henter, List.length_dropLast,
      List.dropLast_eq_take, List.take_take]
    congr 1
    omega

theorem foldl_enter_proper {ns : List Path} (h : ∀ n ∈ ns, Proper n) (comps : List Path) :
    ns.foldl enter comps = comps ++ ns.filter (· ≠ []) := by
  induction ns generalizing comps with
  | nil => simp
  | cons n ns ih =>
    obtain ⟨hn, hns⟩ := List.forall_mem_cons.mp h
    rw [List.foldl_cons, ih hns]
    by_cases hempty : n = []
    · simp [enter, hempty]
    · simp [enter, hempty, hn.1, hn.2]

theorem names_filter (p : Path) : p.names.filter (· ≠ []) = p.names := by
  rw [List.filter_eq_self]
  intro n hn
  exact decide_eq_true (isName_of_mem_names hn).1

theorem obey_cds (dirs : List Path) (dir : Dir) :
    (dirs.map Command.cd).foldl Dir.obey dir
      = { dir with comps := dirs.foldl enter dir.comps } := by
  induction dirs generalizing dir with
  | nil => rfl
  | cons d dirs ih => rw [List.map_cons, List.foldl_cons, ih]; rfl

theorem commonParts_eq (xs ys : List Path) : commonParts xs ys = Prefixes.common xs ys := by
  fun_induction commonParts xs ys with
  | case1 x xs ys ih => rw [Prefixes.common, if_pos rfl, ih]
  | case2 x xs y ys hne => rw [Prefixes.common, if_neg hne]
  | case3 xs ys hno =>
    cases xs with
    | nil => rfl
    | cons x xs =>
      cases ys with
      | nil => rfl
      | cons y ys => exact absurd rfl (hno x xs y ys rfl)

theorem commonParts_self (xs : List Path) : commonParts xs xs = xs.length := by
  rw [commonParts_eq, Prefixes.common_self]

/-! ### Absolute paths -/

def parts (p : Path) : List Path := p.names ++ if p.trailing then [[]] else []

theorem parts_proper {p : Path} (h : ∀ n ∈ p.names, Proper n) : ∀ n ∈ parts p, Proper n := by
  intro n hn
  rcases List.mem_append.mp hn with hn | hn
  · exact h n hn
  · split at hn
    · rw [List.mem_singleton.mp hn]
      exact ⟨by decide, by decide⟩
    · cases hn

theorem parts_filter (p : Path) : (parts p).filter (· ≠ []) = p.names := by
  have htail : (if p.trailing then [([] : Path)] else []).filter (· ≠ []) = [] := by
    split <;> simp
  rw [parts, List.filter_append, names_filter, htail, List.append_nil]

theorem parts_head? (p : Path) : (parts p).head? = p.names.head? := by
  unfold parts
  split
  · rename_i htrailing
    have hne : p.names ≠ [] := (of_decide_eq_true htrailing).1
    rw [List.head?_append_of_ne_nil _ hne]
  · rw [List.append_nil]

theorem split_relative_path {p : Path} (h : ∀ n ∈ p.names, Proper n) :
    split p.relative_path = parts p := by
  rw [split, elements_relative_path, ← parts, List.filter_eq_self]
  intro n hn
  exact decide_eq_true (parts_proper h n hn)

theorem isPosixAbsolute_iff {p : Path} :
    isPosixAbsolute p = true ↔ hasWindowsDrive p = false ∧ p.has_root_directory = true := by
  simp [isPosixAbsolute]

/- Names stay, but for a lone backslash; the root and an empty last element go. -/
theorem descentParts_eq (target : Path) :
    descentParts target = (stripWindowsDrive target).names.filter (· ≠ [backslash]) := by
  have hroot : ∀ p : Path, (if p.has_root_directory then [[separator]] else []).filter
      (fun part => part ≠ [separator] ∧ part ≠ [backslash] ∧ part ≠ []) = [] := by
    intro p
    split <;> simp
  have hempty : ∀ p : Path, (if p.trailing then [([] : Path)] else []).filter
      (fun part => part ≠ [separator] ∧ part ≠ [backslash] ∧ part ≠ []) = [] := by
    intro p
    split <;> simp
  rw [descentParts, elements, List.filter_append, hempty, List.append_nil, List.filter_append,
    hroot, List.nil_append]
  apply List.filter_congr
  intro n hn
  obtain ⟨hne, hsep⟩ := isName_of_mem_names hn
  have hroot : n ≠ [separator] := fun h => hsep (by simp [h])
  simp [hne, hroot]

theorem descentParts_absolute {p : Path} (h : isPosixAbsolute p = true) :
    descentParts p = p.names.filter (· ≠ [backslash]) := by
  have hstrip : stripWindowsDrive p = p := by
    simp [stripWindowsDrive, (isPosixAbsolute_iff.mp h).1]
  rw [descentParts_eq, hstrip]

theorem route_absolute {current target : Path} (hc : isPosixAbsolute current = true)
    (ht : isPosixAbsolute target = true) (hcn : ∀ n ∈ current.names, Proper n)
    (htn : ∀ n ∈ target.names, Proper n) :
    route current target =
      (List.replicate ((parts current).length - commonParts (parts current) (parts target)) dotdot
        ++ (parts target).drop (commonParts (parts current) (parts target))).map .cd := by
  have hcd := (isPosixAbsolute_iff.mp hc).1
  have htd := (isPosixAbsolute_iff.mp ht).1
  simp [route, hcd, htd, hc, ht, split_relative_path hcn, split_relative_path htn]

/-- Without a drive to select, an absolute target is entered from where the server is. -/
theorem route_from_elsewhere {current target : Path} (hc : isPosixAbsolute current = false)
    (ht : isPosixAbsolute target = true) :
    route current target = (target.names.filter (· ≠ [backslash])).map .cd := by
  have htd := (isPosixAbsolute_iff.mp ht).1
  have hnone : extractWindowsDrive target = [] := by simp [extractWindowsDrive, htd]
  rw [← descentParts_absolute ht]
  simp only [route, hnone, hc, ht]
  split
  · simp
  · simp

/-! ### Histories -/

def navigate (nav : SmartDirectoryNavigator DirServer) (targetPath : Path) :
    Option (SmartDirectoryNavigator DirServer) :=
  match changeDirectory toServer nav targetPath with
  | (.error _, _) => none
  | (.ok _, nav) => some nav

/-- A POSIX-absolute target is reached from a POSIX-absolute `_current`, which has no
trailing separator unless the two paths coincide or differ in their first name; or the
server is at the root, and no name of the target is a lone backslash. -/
def Straight (nav : SmartDirectoryNavigator DirServer) (targetPath : Path) : Prop :=
  isPosixAbsolute (normalize targetPath) = true →
    (isPosixAbsolute nav.current = true ∧
      (nav.current.trailing = false ∨ normalize targetPath = nav.current ∨
        nav.current.names.head? ≠ (normalize targetPath).names.head?)) ∨
    (isPosixAbsolute nav.current = false ∧ nav.session.dir = Dir.root ∧
      [backslash] ∉ (normalize targetPath).names)

instance (nav : SmartDirectoryNavigator DirServer) (targetPath : Path) :
    Decidable (Straight nav targetPath) :=
  inferInstanceAs (Decidable (_ → _ ∨ _))

def Tracks (nav : SmartDirectoryNavigator DirServer) : Prop :=
  isPosixAbsolute nav.current = true →
    nav.session.dir = ⟨none, nav.current.names⟩ ∧ ∀ n ∈ nav.current.names, Proper n

theorem names_proper {p : Path} (h : isPosixAbsolute (normalize p) = true) :
    ∀ n ∈ (normalize p).names, Proper n :=
  absolute_names_proper (isPosixAbsolute_iff.mp h).2

theorem construct_tracks {base : Dir} {startPath : Path} {server : DirServer}
    (h : resolve base (normalize startPath) = server.dir) :
    Tracks (.construct startPath server) := by
  intro habs
  have hproper := names_proper habs
  obtain ⟨hdrive, hroot⟩ := isPosixAbsolute_iff.mp habs
  refine ⟨?_, hproper⟩
  show server.dir = ⟨none, (normalize startPath).names⟩
  have hdrive' : hasWindowsDrive (normalize startPath) = false := hdrive
  have hroot' : (normalize startPath).has_root_directory = true := hroot
  rw [← h, resolve, hdrive', hroot', foldl_enter_proper hproper, names_filter]
  rfl

theorem navigate_some {nav nav' : SmartDirectoryNavigator DirServer} {targetPath : Path}
    (h : navigate nav targetPath = some nav') :
    nav'.current = normalize targetPath ∧
      nav'.session.dir
        = (route nav.current (normalize targetPath)).foldl Dir.obey nav.session.dir := by
  obtain ⟨hdir, hall⟩ := issue_toServer (route nav.current (normalize targetPath)) nav.session
  rw [navigate, changeDirectory_eq] at h
  cases hissue : issue toServer (route nav.current (normalize targetPath)) nav.session with
  | mk r s =>
    rw [hissue] at h hdir hall
    cases r with
    | error ec => cases h
    | ok u =>
      cases h
      rw [hall rfl] at hdir
      exact ⟨rfl, hdir⟩

theorem commonParts_of_head? {xs ys : List Path} (h : xs.head? ≠ ys.head?) :
    commonParts xs ys = 0 := by
  cases xs with
  | nil => rfl
  | cons x xs =>
    cases ys with
    | nil => rfl
    | cons y ys =>
      have hne : x ≠ y := fun hxy => h (by simp [hxy])
      simp [commonParts, hne]

/-- What the dot-dots of the walk leave of the current directory is shared with the target. -/
theorem walk_leaves {current target : Path}
    (h : current.trailing = false ∨ target = current ∨ current.names.head? ≠ target.names.head?) :
    current.names.take (current.names.length
        - ((parts current).length - commonParts (parts current) (parts target)))
      = ((parts target).take (commonParts (parts current) (parts target))).filter (· ≠ []) := by
  rcases h with h | h | h
  · have hparts : parts current = current.names := by simp [parts, h]
    have hle := (Prefixes.common_le (parts current) (parts target)).1
    rw [commonParts_eq, ← Prefixes.take_common]
    rw [hparts] at hle ⊢
    rw [Nat.sub_sub_self hle, List.filter_eq_self.mpr]
    intro n hn
    exact decide_eq_true (isName_of_mem_names (List.mem_of_mem_take hn)).1
  · rw [h, commonParts_self, List.take_length, Nat.sub_self, Nat.sub_zero, List.take_length,
      parts_filter]
  · have hzero : commonParts (parts current) (parts target) = 0 :=
      commonParts_of_head? (by rwa [parts_head?, parts_head?])
    have hle : current.names.length ≤ (parts current).length := by simp [parts]
    rw [hzero, Nat.sub_zero, Nat.sub_eq_zero_of_le hle]
    rfl

theorem walk_arrives {current target : Path} (ht : ∀ n ∈ target.names, Proper n)
    (h : current.trailing = false ∨ target = current ∨ current.names.head? ≠ target.names.head?) :
    (List.replicate ((parts current).length - commonParts (parts current) (parts target)) dotdot
        ++ (parts target).drop (commonParts (parts current) (parts target))).foldl enter
      current.names = target.names := by
  have hdrop : ∀ n ∈ (parts target).drop (commonParts (parts current) (parts target)), Proper n :=
    fun n hn => parts_proper ht n (List.mem_of_mem_drop hn)
  rw [List.foldl_append, foldl_enter_dotdot, foldl_enter_proper hdrop, walk_leaves h,
    ← List.filter_append, List.take_append_drop, parts_filter]

theorem navigate_tracks {nav nav' : SmartDirectoryNavigator DirServer} {targetPath : Path}
    (hnav : Tracks nav) (hg : Straight nav targetPath) (h : navigate nav targetPath = some nav') :
    Tracks nav' := by
  obtain ⟨hcurrent, hdir⟩ := navigate_some h
  intro habs
  rw [hcurrent] at habs ⊢
  have hproper := names_proper habs
  refine ⟨?_, hproper⟩
  rcases hg habs with ⟨hfrom, hwalk⟩ | ⟨hfrom, hroot, hslash⟩
  · obtain ⟨hat, hfromProper⟩ := hnav hfrom
    rw [hdir, route_absolute hfrom habs hfromProper hproper, obey_cds, hat,
      walk_arrives hproper hwalk]
  · have hkeep : (normalize targetPath).names.filter (· ≠ [backslash])
        = (normalize targetPath).names := by
      rw [List.filter_eq_self]
      intro n hn
      exact decide_eq_true fun hn' => hslash (hn' ▸ hn)
    rw [hdir, route_from_elsewhere hfrom habs, obey_cds, hroot, hkeep, foldl_enter_proper hproper,
      names_filter]
    rfl

/-- Whatever the history: if its absolute targets were all reached straight, an
absolute target in normal form takes the server to its components from the root. -/
theorem straight_history_arrives (base : Dir) (startPath : Path) (server : DirServer)
    (history : List Path) (t : Path) (nav : SmartDirectoryNavigator DirServer)
    (hstart : resolve base (normalize startPath) = server.dir)
    (hg : Machine.Guarded navigate Straight (.construct startPath server) (history ++ [t]))
    (h : Machine.run navigate (.construct startPath server) (history ++ [t]) = some nav)
    (habs : isPosixAbsolute t = true) (hnormal : normalize t = t) :
    nav.session.dir = ⟨none, t.names⟩ := by
  have htracks := Machine.run_invariant (fun _ _ _ hs hg hstep => navigate_tracks hs hg hstep)
    (construct_tracks hstart) hg h
  have hcurrent : nav.current = t := by
    obtain ⟨mid, -, hlast⟩ := Machine.run_concat h
    rw [(navigate_some hlast).1, hnormal]
  rw [← hcurrent] at habs ⊢
  exact (htracks habs).1

def willing : DirServer := ⟨Dir.root, fun _ => .ok (), 0⟩

theorem straight_history_arrives_mixed :
    ∃ nav, Machine.run navigate (.construct (ascii "/") willing)
        ([ascii ".", ascii "/a/b", ascii "/c//"] ++ [ascii "/d/e"]) = some nav ∧
      nav.session.dir = ⟨none, [ascii "d", ascii "e"]⟩ := by
  have hsome : (Machine.run navigate (.construct (ascii "/") willing)
      ([ascii ".", ascii "/a/b", ascii "/c//"] ++ [ascii "/d/e"])).isSome := by decide +kernel
  obtain ⟨nav, hrun⟩ := Option.isSome_iff_exists.mp hsome
  have hdir := straight_history_arrives Dir.root (ascii "/") willing
    [ascii ".", ascii "/a/b", ascii "/c//"] (ascii "/d/e") nav (by decide +kernel)
    (by decide +kernel) hrun (by decide +kernel) (by decide +kernel)
  exact ⟨nav, hrun, hdir⟩

/- From a relative `_current` the target is entered below the server's directory, and
a drive is never left. -/
theorem mixed_history_astray :
    resolve Dir.root (normalize (ascii "/")) = willing.dir ∧
    ((Machine.run navigate (.construct (ascii "/") willing) ([ascii "a"] ++ [ascii "/b"])).map
      fun nav => nav.session.dir) = some ⟨none, [ascii "a", ascii "b"]⟩ ∧
    ((Machine.run navigate (.construct (ascii "/") willing) ([ascii "C:/x"] ++ [ascii "/b"])).map
      fun nav => nav.session.dir) = some ⟨some (ascii "C:"), [ascii "x", ascii "b"]⟩ ∧
    isPosixAbsolute (ascii "/b") = true ∧ normalize (ascii "/b") = ascii "/b" ∧
    names (ascii "/b") = [ascii "b"] := by
  decide +kernel

end NetworkStack.Utility
