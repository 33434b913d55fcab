import NetworkStack.Ftp.Creation
import NetworkStack.Ftp.Placement
import NetworkStack.Lib.FileTree

/-!
# A session as a file system

Over a server that answers its probes truthfully and carries out its orders, the four
operations that transfer nothing are those of a tree of files: whatever the server has
announced, wherever earlier operations have left its working directory and whichever
commands it takes to find out, results and effects are the tree's.
-/

namespace NetworkStack.Ftp

open FtpFileTransfer Hoare Path SocketDetail Utility

/-! ### Files -/

/-- What a client without drives can see of a server. -/
abbrev Files := FileTree Path Kind.directory

/- What a server lets its clients do, beyond what the tree allows by itself. Only an empty
directory is ever removed. -/
structure Policy where
  allows : Verb → Files → List Path → Bool
  empty : ∀ files comps, allows .RMD files comps = true → ∀ n, files.kind (comps ++ [n]) = none

inductive FileCall where
  | createDir (path : Path)
  | exists_ (path : Path)
  | remove (path : Path)
  | isDirectory (path : Path)
  deriving DecidableEq

def FileCall.path : FileCall → Path
  | .createDir path => path
  | .exists_ path => path
  | .remove path => path
  | .isDirectory path => path

namespace Files

variable (policy : Policy)

/-- Something is there already, whatever it is, or a directory is made. -/
def createDir (files : Files) (parent : List Path) (name : Path) :
    Except Exit Unit × Files :=
  if hnew : files.kind (parent ++ [name]) = none then
    if h : files.kind parent = some .directory ∧
        policy.allows .MKD files (parent ++ [name]) = true then
      (.ok (), files.put parent name .directory h.1 hnew)
    else (.error protocolError, files)
  else (.ok (), files)

theorem file_empty {files : Files} {comps : List Path} (h : files.kind comps = some .file)
    (n : Path) : files.kind (comps ++ [n]) = none := by
  refine FileTree.kind_concat_of_ne ?_ n
  rw [h]
  decide

def remove (files : Files) (parent : List Path) (name : Path) :
    Except Exit Unit × Files :=
  if h : files.kind (parent ++ [name]) = some .directory ∧
      policy.allows .RMD files (parent ++ [name]) = true then
    (.ok (), files.erase parent name (policy.empty files _ h.2))
  else if h : files.kind (parent ++ [name]) = some .file ∧
      policy.allows .DELE files (parent ++ [name]) = true then
    (.ok (), files.erase parent name (file_empty h.1))
  else (.error protocolError, files)

def told (kind : Option Kind) : Except Exit (Option Bool) :=
  match kind with
  | none => .error protocolError
  | some kind => .ok (some (decide (kind = .directory)))

def apply (files : Files) (c : FileCall) : Except Exit (Option Bool) × Files :=
  let parent := c.path.parent_path.names
  let name := c.path.filename
  match c with
  | .createDir _ =>
    let (r, next) := files.createDir policy parent name
    (r.map fun _ => none, next)
  | .exists_ _ => (.ok (some (files.kind (parent ++ [name])).isSome), files)
  | .remove _ =>
    let (r, next) := files.remove policy parent name
    (r.map fun _ => none, next)
  | .isDirectory _ => (told (files.kind (parent ++ [name])), files)

def applyAll (files : Files) : List FileCall → List (Except Exit (Option Bool)) × Files
  | [] => ([], files)
  | c :: cs =>
    let (r, next) := files.apply policy c
    let (rs, last) := applyAll next cs
    (r :: rs, last)

/-- Every call is on a plain path in a directory that is there when its turn comes. -/
def Fitting (srv : FileServer) (files : Files) : List FileCall → Prop
  | [] => True
  | c :: cs => (PlainPath srv c.path ∧ c.path.names ≠ [] ∧
      files.kind c.path.parent_path.names = some .directory) ∧
    Fitting srv (files.apply policy c).2 cs

end Files

/-! ### The same calls on a session -/

namespace FileCall

variable {σ : Type} (W : Channel σ)

def run : FileCall → Operation σ (Option Bool)
  | .createDir path => do
    FtpFileTransfer.createDir W path
    pure none
  | .exists_ path => do
    let b ← FtpFileTransfer.exists_ W path
    pure (some b)
  | .remove path => do
    FtpFileTransfer.remove W path
    pure none
  | .isDirectory path => do
    let b ← FtpFileTransfer.isDirectory W path
    pure (some b)

def runAll (s : FtpFileTransfer σ) :
    List FileCall → List (Except Exit (Option Bool)) × FtpFileTransfer σ
  | [] => ([], s)
  | c :: cs =>
    let (r, t) := c.run W s
    let (rs, u) := runAll t cs
    (r :: rs, u)

end FileCall

/-- The files are those of the server outside its drives. -/
def Shows (tree : Tree) (files : Files) : Prop := ∀ comps, tree ⟨none, comps⟩ = files.kind comps

/-- Probes are answered truthfully, a refused `CWD` by 550 and `MLST` with the type, and an
order is carried out when the tree and the policy allow it. -/
structure FileServer.Conforms (srv : FileServer) (policy : Policy) : Prop extends srv.Exact where
  refused : ∀ i tree dir name, (srv.reply i tree dir (ascii "CWD " ++ name)).1.code ≠ 250 →
    (srv.reply i tree dir (ascii "CWD " ++ name)).1.code = 550
  fact : ∀ i tree dir name kind, tree (srv.enters dir name) = some kind →
    typeIsDir (srv.reply i tree dir (ascii "MLST " ++ name)).1.full_msg
      = some (decide (kind = .directory))
  mkd : ∀ i tree files parent name, Shows tree files → name ≠ [] → Proper name →
    ((srv.reply i tree ⟨none, parent⟩ (ascii "MKD " ++ name)).1.code = 257 ↔
      files.kind (parent ++ [name]) = none ∧ files.kind parent = some .directory ∧
        policy.allows .MKD files (parent ++ [name]) = true)
  rmd : ∀ i tree files parent name, Shows tree files → name ≠ [] → Proper name →
    ((srv.reply i tree ⟨none, parent⟩ (ascii "RMD " ++ name)).1.code = 250 ↔
      files.kind (parent ++ [name]) = some .directory ∧
        policy.allows .RMD files (parent ++ [name]) = true)
  dele : ∀ i tree files parent name, Shows tree files → name ≠ [] → Proper name →
    ((srv.reply i tree ⟨none, parent⟩ (ascii "DELE " ++ name)).1.code = 250 ↔
      files.kind (parent ++ [name]) = some .file ∧
        policy.allows .DELE files (parent ++ [name]) = true)

/-- The session stands in a directory of the files and can tell a file from nothing. -/
structure Mirrors (srv : FileServer) (files : Files) (s : FtpFileTransfer Site) : Prop where
  shows : Shows s.session.tree files
  home : ∃ c, PlainPath srv c ∧ At c s ∧ files.kind c.names = some .directory
  able : s.capabilities.mlst = true ∨ s.capabilities.size = true

/-! ### Navigation -/

section Navigation

variable {srv : FileServer} {files : Files} {c d : Path} {s : FtpFileTransfer Site}

theorem ftpCd_granted {name : Path} {u : Site} (hname : CrlfFree name)
    (hcode : (srv.answer u (ascii "CWD " ++ name)).code = 250) :
    srv.channel.ftpCd name u = (.ok (), srv.ask u (ascii "CWD " ++ name)) := by
  have hline : CrlfFree (ascii "CWD " ++ name) := FileServer.crlfFree_command (v := .CWD) hname
  refine (bind_ok (srv.sendAndReceive_eq hline u)).trans ?_
  rw [if_neg (not_not.mpr hcode)]
  rfl

/- Every step of a walk that stays among directories is granted. -/
theorem issue_granted (hexact : srv.Exact) {dirs : List Path}
    (hdirs : ∀ n ∈ dirs, CrlfFree n ∧ srv.isDrive n = false) {comps : List Path} {u : Site}
    (hu : u.dir = ⟨none, comps⟩)
    (htree : ∀ front, front <+: dirs → front ≠ [] →
      u.tree ⟨none, front.foldl enter comps⟩ = some .directory) :
    ∃ v, issue srv.channel.navigator (dirs.map .cd) u = (.ok (), v) := by
  induction dirs generalizing comps u with
  | nil => exact ⟨u, rfl⟩
  | cons n dirs ih =>
    obtain ⟨⟨hline, hdrive⟩, hrest⟩ := List.forall_mem_cons.mp hdirs
    have henters : srv.enters u.dir n = ⟨none, enter comps n⟩ := by
      rw [FileServer.enters, hdrive, hu]
      rfl
    have hcode : (srv.answer u (ascii "CWD " ++ n)).code = 250 := by
      refine (hexact.cwd _ _ _ _).mpr ?_
      rw [henters]
      exact htree [n] ⟨dirs, rfl⟩ (List.cons_ne_nil n [])
    have hftp := ftpCd_granted hline hcode
    obtain ⟨hdir, hkept⟩ := FileServer.ftpCd_channel hline hftp
    obtain ⟨v, hv⟩ := ih hrest (hdir.trans henters) fun front hfront _ => by
      rw [hkept]
      exact htree (n :: front) (List.cons_prefix_cons.mpr ⟨rfl, hfront⟩) (List.cons_ne_nil n front)
    refine ⟨v, ?_⟩
    simp only [List.map_cons, issue, Transport.send, Channel.navigator, hftp]
    exact hv

/- On the way the walk goes up from the one directory and down to the other. -/
theorem walk_between {current target front : List Path} (htarget : ∀ n ∈ target, Proper n)
    (hname : ∀ n ∈ target, n ≠ [])
    (h : front <+: List.replicate (current.length - commonParts current target) dotdot
      ++ target.drop (commonParts current target)) :
    front.foldl enter current <+: current ∨ front.foldl enter current <+: target := by
  have hcommon : current.take (commonParts current target)
      = target.take (commonParts current target) := by
    rw [commonParts_eq]
    exact Prefixes.take_common current target
  have hle : commonParts current target ≤ current.length := by
    rw [commonParts_eq]
    exact (Prefixes.common_le current target).1
  rcases List.prefix_or_prefix_of_prefix h (List.prefix_append _ _) with hup | ⟨rest, rfl⟩
  · refine .inl ?_
    rw [(List.prefix_replicate_iff.mp hup).2, foldl_enter_dotdot]
    exact List.take_prefix _ _
  · refine .inr ?_
    have hrest : rest <+: target.drop (commonParts current target) :=
      (List.prefix_append_right_inj _).mp h
    have hmem : ∀ n ∈ rest, n ∈ target := fun n hn => List.mem_of_mem_drop (hrest.subset hn)
    have hfilter : rest.filter (· ≠ []) = rest :=
      List.filter_eq_self.mpr fun n hn => decide_eq_true (hname n (hmem n hn))
    rw [List.foldl_append, foldl_enter_dotdot, Nat.sub_sub_self hle, hcommon,
      foldl_enter_proper fun n hn => htarget n (hmem n hn), hfilter]
    conv_rhs => rw [← List.take_append_drop (commonParts current target) target]
    exact (List.prefix_append_right_inj _).mpr hrest

/- Between directories of the files a navigation is granted, and changes nothing. -/
theorem changeDirectory_granted (hexact : srv.Exact) (hc : PlainPath srv c)
    (hd : PlainPath srv d) (hs : At c s) (hshows : Shows s.session.tree files)
    (hcdir : files.kind c.names = some .directory) (hddir : files.kind d.names = some .directory) :
    ∃ t, changeDirectory srv.channel d s = (.ok (), t) ∧ At d t ∧
      t.session.tree = s.session.tree ∧ t.capabilities = s.capabilities := by
  have hdirs : ∀ n ∈ List.replicate (c.names.length - commonParts c.names d.names) dotdot
      ++ d.names.drop (commonParts c.names d.names), CrlfFree n ∧ srv.isDrive n = false := by
    intro n hn
    rcases List.mem_append.mp hn with hn | hn
    · rw [List.eq_of_mem_replicate hn]
      exact ⟨by decide, FileServer.isDrive_dotdot⟩
    · exact hd.names_line (List.mem_of_mem_drop hn)
  have hgranted := issue_granted hexact hdirs hs.2 fun front hfront _ => by
    rw [hshows]
    rcases walk_between hd.proper (fun n hn => (isName_of_mem_names hn).1) hfront with hup | hdown
    · exact FileTree.directory_of_prefix hup hcdir
    · exact FileTree.directory_of_prefix hdown hddir
  obtain ⟨v, hv⟩ := hgranted
  rw [← hc.route_eq hd] at hv
  have hrun : changeDirectory srv.channel d s
      = (.ok (), { s with navigator := { s.navigator with current := d, session := v } }) := by
    simp only [FtpFileTransfer.changeDirectory, changeDirectory_eq, hs.1, hd.normal]
    rw [show s.navigator.session = s.session from rfl, hv]
  obtain ⟨-, htree, hcaps, -⟩ := FileServer.changeDirectory_arrives hd.line hrun
  have hat := changeDirectory_logged hd hc hd s ⟨hs, Logged.refl d s.session⟩
  rw [hrun] at hat
  exact ⟨_, hrun, hat.1, htree, hcaps⟩

end Navigation

/-! ### Asking about an entry -/

section Asking

variable {srv : FileServer} {policy : Policy} {p : Path} {s : FtpFileTransfer Site} {u : Site}

/-- What `isDirectory` says of an entry. -/
def kindAnswer : Option Kind → Except ErrorCode Bool
  | none => .error (.network .PROTOCOL_ERROR)
  | some kind => .ok (decide (kind = .directory))

theorem questions_able {c : FtpCapabilities} (h : c.mlst = true ∨ c.size = true)
    (kind : Option Kind) : true ∉ questions c kind ↔ kind = none := by
  rcases h with h | h
  · rcases kind with _ | _ | _ <;> simp [questions, h]
  · rcases kind with _ | _ | _ <;> simp [questions, h]

/-- The server is in the parent directory of the path, which is there. -/
structure Stands (p : Path) (u : Site) : Prop where
  dir : u.dir = ⟨none, p.parent_path.names⟩
  there : u.tree ⟨none, p.parent_path.names⟩ = some .directory

theorem Stands.of_eq {v : Site} (h : Stands p u) (hdir : v.dir = u.dir) (htree : v.tree = u.tree) :
    Stands p v :=
  ⟨hdir.trans h.dir, htree ▸ h.there⟩

section Child

variable (h : Child srv p)

include h

theorem Child.entered : srv.enters ⟨none, p.parent_path.names⟩ p.filename = ⟨none, p.names⟩ := by
  rw [FileServer.enters, h.filename_line.2, h.split]
  simp [enter, h.filename_ne_nil, h.filename_proper.1, h.filename_proper.2]

/- Out of a directory the server is let back to where it was. -/
theorem Child.restored (hexact : srv.Exact) (hu : Stands p u) : srv.Restored p.filename u := by
  intro hcode
  have hback : srv.enters (srv.enters u.dir p.filename) dotdot = u.dir := by
    rw [FileServer.enters_dotdot_eq_iff h.filename_ne_nil, FileServer.Reenters, h.filename_line.2]
    exact .inl h.filename_proper
  refine (hexact.cwd _ _ _ _).mpr ?_
  have hdir := srv.ask_cwd_dir u p.filename
  have htree : (srv.ask u (ascii "CWD " ++ p.filename)).tree = u.tree :=
    srv.ask_tree (l := ⟨.CWD, some p.filename⟩) (by simp) u
  rw [if_pos hcode] at hdir
  rw [hdir, htree, hback, hu.dir]
  exact hu.there

theorem Child.settled (hexact : srv.Exact) {probe : Bool × Site} (hu : Stands p probe.2) :
    (srv.settle p.filename probe).dir = probe.2.dir ∧
      (srv.settle p.filename probe).tree = probe.2.tree :=
  ⟨(FileServer.settle_dir_iff h.filename_ne_nil).mpr fun _ => h.undone (h.restored hexact hu),
    FileServer.settle_tree probe⟩

theorem exists_files (hexact : srv.Exact) {t : FtpFileTransfer Site}
    (hable : t.capabilities.mlst = true ∨ t.capabilities.size = true)
    (hnav : changeDirectory srv.channel p.parent_path s = (.ok (), t)) (ht : Stands p t.session) :
    ∃ v, FtpFileTransfer.exists_ srv.channel p s
        = (.ok (t.session.tree ⟨none, p.names⟩).isSome, t.withSession v) ∧
      v.dir = t.session.dir ∧ v.tree = t.session.tree := by
  obtain ⟨b, hrun, hmissing⟩ := srv.exists_eq h.filename_ne_nil h.plain.line hnav
  have hkind : t.session.tree (srv.enters t.session.dir p.filename)
      = t.session.tree ⟨none, p.names⟩ := by rw [ht.dir, h.entered]
  have hb : b = (t.session.tree ⟨none, p.names⟩).isSome := by
    have hnone := hmissing.trans ((FileServer.existsProbe_missing hexact t.capabilities hkind).trans
      (questions_able hable _))
    cases b with
    | false => rw [hnone.mp rfl]; rfl
    | true =>
      rw [eq_comm, Option.isSome_iff_ne_none]
      exact fun hn => by cases hnone.mpr hn
  have hprobe : Stands p (srv.existsProbe t.capabilities p.filename t.session).2 :=
    ht.of_eq (srv.existsProbe_dir ..) (srv.existsProbe_tree ..)
  obtain ⟨hdir, htree⟩ := h.settled hexact hprobe
  exact ⟨_, hb ▸ hrun, hdir.trans (srv.existsProbe_dir ..), htree.trans (srv.existsProbe_tree ..)⟩

end Child

variable (srv) in
theorem probe_value {cmd : Bytes} (hline : CrlfFree cmd) (yes : ℕ) (no : List ℕ)
    (s : FtpFileTransfer Site) :
    probe srv.channel cmd yes no s
      = (if (srv.answer s.session cmd).code = yes then .ok true
        else if (srv.answer s.session cmd).code ∈ no then .ok false else .error protocolError,
        s.withSession (srv.ask s.session cmd)) := by
  have hrun : probe srv.channel cmd yes no s = _ := bind_ok (srv.command_eq hline s)
  rw [hrun]
  split
  · rfl
  · split
    · rfl
    · rfl

variable (hconf : srv.Conforms policy) (h : Child srv p) (hs : Stands p s.session)

include hconf h hs

/- Entering a file is refused, and then its size tells. -/
theorem isDirectoryCwd_files (hable : s.session.tree ⟨none, p.names⟩ = some .file →
      s.capabilities.size = true) :
    ∃ v, isDirectoryCwd srv.channel p.filename s
        = ((kindAnswer (s.session.tree ⟨none, p.names⟩)).mapError .error, s.withSession v) ∧
      v.dir = s.session.dir ∧ v.tree = s.session.tree := by
  have hline : CrlfFree (ascii "CWD " ++ p.filename) :=
    FileServer.crlfFree_command (v := .CWD) h.filename_line.1
  have hsize : CrlfFree (ascii "SIZE " ++ p.filename) :=
    FileServer.crlfFree_command (v := .SIZE) h.filename_line.1
  let v := srv.ask s.session (ascii "CWD " ++ p.filename)
  have hprobe := probe_value srv hline 250 [550] s
  have htree : v.tree = s.session.tree :=
    srv.ask_tree (l := ⟨.CWD, some p.filename⟩) (by simp) s.session
  have hdir := srv.ask_cwd_dir s.session p.filename
  have hcwd : (srv.answer s.session (ascii "CWD " ++ p.filename)).code = 250 ↔
      s.session.tree ⟨none, p.names⟩ = some .directory := by
    rw [← h.entered, ← hs.dir]
    exact hconf.cwd _ _ _ _
  by_cases hentered : (srv.answer s.session (ascii "CWD " ++ p.filename)).code = 250
  · -- the directory is entered, and left again
    rw [if_pos hentered] at hprobe hdir
    have hback : (srv.answer v (ascii "CWD " ++ dotdot)).code = 250 :=
      h.restored hconf.toExact hs hentered
    have hrestore : hasValue (control (srv.channel.ftpCd dotdot)) (s.withSession v)
        = (.ok (.ok ()), s.withSession (srv.ask v (ascii "CWD " ++ dotdot))) := by
      refine FileServer.hasValue_eq (r := .ok ()) ?_
      have hftp : srv.channel.ftpCd dotdot (s.withSession v).session = _ :=
        ftpCd_granted (by decide) hback
      simp only [FtpFileTransfer.control, zoom, hftp]
      rfl
    refine ⟨srv.ask v (ascii "CWD " ++ dotdot), ?_, ?_, ?_⟩
    · rw [hcwd.mp hentered]
      exact (bind_ok hprobe).trans (bind_ok hrestore)
    · rw [srv.ask_cwd_dir, if_pos hback, hdir]
      rw [FileServer.enters_dotdot_eq_iff h.filename_ne_nil, FileServer.Reenters,
        h.filename_line.2]
      exact .inl h.filename_proper
    · exact (srv.ask_tree (l := ⟨.CWD, some dotdot⟩) (by simp) v).trans htree
  · have hcode : (srv.answer s.session (ascii "CWD " ++ p.filename)).code = 550 :=
      hconf.refused _ _ _ _ hentered
    rw [if_neg hentered, if_pos (by rw [hcode]; decide)] at hprobe
    rw [if_neg hentered] at hdir
    have hcaps : getCapabilities (s.withSession v) = (.ok s.capabilities, s.withSession v) := rfl
    have hrun : isDirectoryCwd srv.channel p.filename s = _ :=
      (bind_ok hprobe).trans (bind_ok hcaps)
    have hnot : s.session.tree ⟨none, p.names⟩ ≠ some .directory := fun hd =>
      hentered (hcwd.mpr hd)
    by_cases hcapable : s.capabilities.size = true
    · -- the size of a file is told
      rw [if_pos hcapable] at hrun
      have hasked : existsSize srv.channel p.filename (s.withSession v)
          = (if (srv.answer v (ascii "SIZE " ++ p.filename)).code = 213 then .ok true
            else if (srv.answer v (ascii "SIZE " ++ p.filename)).code ∈ [550, 500] then .ok false
            else .error protocolError, s.withSession (srv.ask v (ascii "SIZE " ++ p.filename))) :=
        probe_value srv hsize 213 [550, 500] (s.withSession v)
      have hfile : (srv.answer v (ascii "SIZE " ++ p.filename)).code = 213 ↔
          s.session.tree ⟨none, p.names⟩ = some .file := by
        rw [← h.entered, ← hs.dir, ← hdir, ← htree]
        exact hconf.size _ _ _ _
      have hsdir : (srv.ask v (ascii "SIZE " ++ p.filename)).dir = v.dir :=
        (srv.ask_dir v ⟨.SIZE, some p.filename⟩).trans (if_neg fun hc => by cases hc.1)
      have hstree : (srv.ask v (ascii "SIZE " ++ p.filename)).tree = v.tree :=
        srv.ask_tree (l := ⟨.SIZE, some p.filename⟩) (by simp) v
      refine ⟨srv.ask v (ascii "SIZE " ++ p.filename), ?_, hsdir.trans hdir, hstree.trans htree⟩
      rcases hkind : s.session.tree ⟨none, p.names⟩ with _ | _ | _
      · rw [if_neg fun hc => by cases hkind.symm.trans (hfile.mp hc)] at hasked
        by_cases hno : (srv.answer v (ascii "SIZE " ++ p.filename)).code ∈ [550, 500]
        · rw [if_pos hno] at hasked
          exact hrun.trans (bind_ok hasked)
        · rw [if_neg hno] at hasked
          exact hrun.trans (bind_error hasked)
      · rw [if_pos (hfile.mpr hkind)] at hasked
        exact hrun.trans (bind_ok hasked)
      · exact absurd hkind hnot
    · rw [if_neg hcapable] at hrun
      refine ⟨v, ?_, hdir, htree⟩
      rcases hkind : s.session.tree ⟨none, p.names⟩ with _ | _ | _
      · exact hrun
      · exact absurd (hable hkind) hcapable
      · exact absurd hkind hnot

theorem isDirectory_files {s₀ : FtpFileTransfer Site}
    (hable : s.capabilities.mlst = true ∨ s.capabilities.size = true)
    (hnav : changeDirectory srv.channel p.parent_path s₀ = (.ok (), s)) :
    ∃ v, FtpFileTransfer.isDirectory srv.channel p s₀
        = ((kindAnswer (s.session.tree ⟨none, p.names⟩)).mapError .error, s.withSession v) ∧
      v.dir = s.session.dir ∧ v.tree = s.session.tree := by
  have hcaps : getCapabilities s = (.ok s.capabilities, s) := rfl
  rw [isDirectory, if_neg h.filename_ne_nil, bind_ok hnav, bind_ok hcaps]
  by_cases hcapable : s.capabilities.mlst = true
  · rw [if_pos hcapable]
    have hline : CrlfFree (ascii "MLST " ++ p.filename) :=
      FileServer.crlfFree_command (v := .MLST) h.filename_line.1
    let w := srv.ask s.session (ascii "MLST " ++ p.filename)
    have hwdir : w.dir = s.session.dir :=
      (srv.ask_dir s.session ⟨.MLST, some p.filename⟩).trans (if_neg fun hc => by cases hc.1)
    have hwtree : w.tree = s.session.tree :=
      srv.ask_tree (l := ⟨.MLST, some p.filename⟩) (by simp) s.session
    have hcode : (srv.answer s.session (ascii "MLST " ++ p.filename)).code = 250 ↔
        (s.session.tree ⟨none, p.names⟩).isSome = true := by
      rw [← h.entered, ← hs.dir]
      exact hconf.mlst _ _ _ _
    -- one question is enough for an entry that is there
    have hmlst : isDirectoryMlst srv.channel p.filename s
        = ((kindAnswer (s.session.tree ⟨none, p.names⟩)).mapError .error, s.withSession w) := by
      rw [isDirectoryMlst, bind_ok hcaps, if_neg (by rw [hcapable]; decide),
        bind_ok (srv.command_eq hline s)]
      cases hkind : s.session.tree ⟨none, p.names⟩ with
      | none =>
        rw [hkind] at hcode
        rw [if_neg fun hc => by cases hcode.mp hc]
        rfl
      | some kind =>
        have hfact : typeIsDir (srv.answer s.session (ascii "MLST " ++ p.filename)).full_msg
            = some (decide (kind = .directory)) := by
          refine hconf.fact _ _ _ _ kind ?_
          rw [hs.dir, h.entered, hkind]
        rw [hkind] at hcode
        simp only [if_pos (hcode.mpr rfl), hfact]
        rfl
    rw [bind_ok (FileServer.hasValue_eq hmlst)]
    cases hkind : s.session.tree ⟨none, p.names⟩ with
    | some kind => exact ⟨w, rfl, hwdir, hwtree⟩
    | none =>
      have hw : (s.withSession w).session.tree ⟨none, p.names⟩ = none := by
        rw [← hkind, ← hwtree]
        rfl
      obtain ⟨v, hcwd, hvdir, hvtree⟩ := isDirectoryCwd_files (s := s.withSession w) hconf h
        (hs.of_eq hwdir hwtree) fun hfile => by cases hw.symm.trans hfile
      rw [hw] at hcwd
      exact ⟨v, hcwd, hvdir.trans hwdir, hvtree.trans hwtree⟩
  · rw [if_neg hcapable]
    exact isDirectoryCwd_files hconf h hs fun _ => hable.resolve_left hcapable

end Asking

/-! ### Orders -/

theorem Shows.update {tree : Tree} {files next : Files} (h : Shows tree files)
    {comps : List Path} {kind : Option Kind}
    (hnext : next.kind = Function.update files.kind comps kind) :
    Shows (Function.update tree ⟨none, comps⟩ kind) next := by
  intro cs
  rw [hnext]
  by_cases hcs : cs = comps
  · rw [hcs, Function.update_self, Function.update_self]
  · rw [Function.update_of_ne hcs, Function.update_of_ne (by simpa using hcs), h]

section Orders

variable {srv : FileServer} {policy : Policy} {files : Files} {p : Path}
  {t : FtpFileTransfer Site}

variable (srv) in
/- The server after an order, and what the client makes of its answer. -/
theorem perform_value {line : Bytes} (hline : CrlfFree line) (success : ℕ)
    (t : FtpFileTransfer Site) :
    perform srv.channel line success t
      = (if (srv.answer t.session line).code = success then .ok () else .error protocolError,
        t.withSession (srv.ask t.session line)) := by
  rw [perform, bind_ok (srv.command_eq hline t)]
  by_cases hcode : (srv.answer t.session line).code = success
  · rw [if_neg (not_not.mpr hcode), if_pos hcode]
    rfl
  · rw [if_pos hcode, if_neg hcode]
    rfl

/-- The code that grants an order, and what is left of the entry then. -/
def granting : Verb → Option (ℕ × Option Kind)
  | .MKD => some (257, some .directory)
  | .RMD => some (250, none)
  | .DELE => some (250, none)
  | _ => none

theorem Child.ask_tree {v : Verb} {success : ℕ} {kind : Option Kind} (h : Child srv p)
    (hv : granting v = some (success, kind)) {u : Site} (hu : u.dir = ⟨none, p.parent_path.names⟩) :
    (srv.ask u (Line.text ⟨v, some p.filename⟩)).tree
      = if (srv.answer u (Line.text ⟨v, some p.filename⟩)).code = success then
          Function.update u.tree ⟨none, p.names⟩ kind else u.tree := by
  have htarget : ({ u.dir with comps := enter u.dir.comps p.filename } : Dir)
      = ⟨none, p.names⟩ := by
    rw [hu, h.split]
    simp [enter, h.filename_ne_nil, h.filename_proper.1, h.filename_proper.2]
  show FileServer.changed u.tree u.dir (Line.text ⟨v, some p.filename⟩) _ = _
  rw [FileServer.changed, verb_text, argument_text, htarget]
  have hverb : ∀ w : Verb, v.name = w.name ↔ v = w := fun w =>
    ⟨Verb.name_injective, congrArg Verb.name⟩
  simp only [hverb]
  cases v <;> cases hv <;> simp

theorem order_stays {v : Verb} {success : ℕ} {kind : Option Kind}
    (hv : granting v = some (success, kind)) (hat : At p.parent_path t) :
    At p.parent_path
      (t.withSession (srv.ask t.session (Line.text ⟨v, some p.filename⟩))) := by
  have hcwd : v ≠ .CWD := by
    rintro rfl
    cases hv
  exact hat.withSession
    ((srv.ask_dir t.session ⟨v, some p.filename⟩).trans (if_neg fun hc => hcwd hc.1))

section Order

variable {v : Verb} {success : ℕ} {kind : Option Kind} (h : Child srv p)
  (hv : granting v = some (success, kind)) (hat : At p.parent_path t)
  (hshows : Shows t.session.tree files)
  (hparent : files.kind p.parent_path.names = some .directory)
  (hable : t.capabilities.mlst = true ∨ t.capabilities.size = true)

include h hv hat hshows hparent hable

/- The session stays in the parent directory, which is still there. -/
theorem order_granted {next : Files}
    (hnext : next.kind = Function.update files.kind p.names kind)
    (hcode : (srv.answer t.session (Line.text ⟨v, some p.filename⟩)).code = success) :
    ∃ t', perform srv.channel (Line.text ⟨v, some p.filename⟩) success t = (.ok (), t') ∧
      Mirrors srv next t' := by
  have htree := h.ask_tree hv hat.2
  have hbelow : p.parent_path.names ≠ p.names := by
    rw [h.split]
    simp
  have hrun := perform_value srv
    (FileServer.crlfFree_command (v := v) h.filename_line.1) success t
  rw [if_pos hcode] at htree hrun
  refine ⟨_, hrun, ?_, ⟨p.parent_path, h.parent, order_stays hv hat, ?_⟩, hable⟩
  · show Shows (srv.ask t.session _).tree next
    rw [htree]
    exact hshows.update hnext
  · rw [hnext, Function.update_of_ne hbelow]
    exact hparent

theorem order_refused
    (hcode : (srv.answer t.session (Line.text ⟨v, some p.filename⟩)).code ≠ success) :
    ∃ t', perform srv.channel (Line.text ⟨v, some p.filename⟩) success t
        = (.error protocolError, t') ∧ Mirrors srv files t' := by
  have htree := h.ask_tree hv hat.2
  have hrun := perform_value srv
    (FileServer.crlfFree_command (v := v) h.filename_line.1) success t
  rw [if_neg hcode] at htree hrun
  refine ⟨_, hrun, ?_, ⟨p.parent_path, h.parent, order_stays hv hat, hparent⟩, hable⟩
  show Shows (srv.ask t.session _).tree files
  rw [htree]
  exact hshows

end Order

variable (hconf : srv.Conforms policy) (h : Child srv p) (hat : At p.parent_path t)
  (hshows : Shows t.session.tree files)
  (hparent : files.kind p.parent_path.names = some .directory)
  (hable : t.capabilities.mlst = true ∨ t.capabilities.size = true)

include hconf h hat hshows hparent hable

theorem makes_files (hnew : files.kind p.names = none) :
    ∃ t', perform srv.channel (ascii "MKD " ++ p.filename) 257 t
        = ((files.createDir policy p.parent_path.names p.filename).1, t') ∧
      Mirrors srv (files.createDir policy p.parent_path.names p.filename).2 t' := by
  have hcode := hconf.mkd t.session.log.length t.session.tree files p.parent_path.names p.filename
    hshows h.filename_ne_nil h.filename_proper
  rw [← hat.2] at hcode
  rw [h.split] at hnew
  by_cases hallowed : policy.allows .MKD files (p.parent_path.names ++ [p.filename]) = true
  · rw [Files.createDir, dif_pos hnew, dif_pos ⟨hparent, hallowed⟩]
    refine order_granted (v := .MKD) h rfl hat hshows hparent hable ?_
      (hcode.mpr ⟨hnew, hparent, hallowed⟩)
    rw [h.split]
    rfl
  · rw [Files.createDir, dif_pos hnew, dif_neg fun hc => hallowed hc.2]
    exact order_refused (v := .MKD) h rfl hat hshows hparent hable
      fun hc => hallowed (hcode.mp hc).2.2

/- A directory is removed by the one order, a file by the other. -/
theorem removes_files {kind : Kind} (hkind : files.kind p.names = some kind) :
    ∃ t', perform srv.channel ((if decide (kind = .directory) = true then ascii "RMD"
          else ascii "DELE") ++ ascii " " ++ p.filename) 250 t
        = ((files.remove policy p.parent_path.names p.filename).1, t') ∧
      Mirrors srv (files.remove policy p.parent_path.names p.filename).2 t' := by
  rw [h.split] at hkind
  cases kind with
  | directory =>
    have hcode := hconf.rmd t.session.log.length t.session.tree files p.parent_path.names
      p.filename hshows h.filename_ne_nil h.filename_proper
    rw [← hat.2] at hcode
    have hfile : files.kind (p.parent_path.names ++ [p.filename]) ≠ some .file := by
      rw [hkind]
      decide
    by_cases hallowed : policy.allows .RMD files (p.parent_path.names ++ [p.filename]) = true
    · rw [Files.remove, dif_pos ⟨hkind, hallowed⟩]
      refine order_granted (v := .RMD) h rfl hat hshows hparent hable ?_
        (hcode.mpr ⟨hkind, hallowed⟩)
      rw [h.split]
      rfl
    · rw [Files.remove, dif_neg fun hc => hallowed hc.2, dif_neg fun hc => hfile hc.1]
      exact order_refused (v := .RMD) h rfl hat hshows hparent hable
        fun hc => hallowed (hcode.mp hc).2
  | file =>
    have hcode := hconf.dele t.session.log.length t.session.tree files p.parent_path.names
      p.filename hshows h.filename_ne_nil h.filename_proper
    rw [← hat.2] at hcode
    have hdir : files.kind (p.parent_path.names ++ [p.filename]) ≠ some .directory := by
      rw [hkind]
      decide
    by_cases hallowed : policy.allows .DELE files (p.parent_path.names ++ [p.filename]) = true
    · rw [Files.remove, dif_neg fun hc => hdir hc.1, dif_pos ⟨hkind, hallowed⟩]
      refine order_granted (v := .DELE) h rfl hat hshows hparent hable ?_
        (hcode.mpr ⟨hkind, hallowed⟩)
      rw [h.split]
      rfl
    · rw [Files.remove, dif_neg fun hc => hdir hc.1, dif_neg fun hc => hallowed hc.2]
      exact order_refused (v := .DELE) h rfl hat hshows hparent hable
        fun hc => hallowed (hcode.mp hc).2

end Orders

/-! ### Runs -/

section Calls

variable {srv : FileServer} {policy : Policy} {files : Files} {s : FtpFileTransfer Site}

/- Every operation begins with the way to the parent directory. -/
theorem Mirrors.arrive {p : Path} (hm : Mirrors srv files s) (hexact : srv.Exact)
    (h : Child srv p) (hparent : files.kind p.parent_path.names = some .directory) :
    ∃ t, changeDirectory srv.channel p.parent_path s = (.ok (), t) ∧ At p.parent_path t ∧
      Shows t.session.tree files ∧ Stands p t.session ∧
      (t.capabilities.mlst = true ∨ t.capabilities.size = true) := by
  obtain ⟨c, hc, hat, hdir⟩ := hm.home
  obtain ⟨t, hnav, hat', htree, hcaps⟩ :=
    changeDirectory_granted hexact hc h.parent hat hm.shows hdir hparent
  have hshows : Shows t.session.tree files := htree ▸ hm.shows
  exact ⟨t, hnav, hat', hshows, ⟨hat'.2, (hshows _).trans hparent⟩, hcaps ▸ hm.able⟩

/- A question leaves the session in the parent directory. -/
theorem mirrors_asked {p : Path} {t : FtpFileTransfer Site} {v : Site} (h : Child srv p)
    (hparent : files.kind p.parent_path.names = some .directory) (hat : At p.parent_path t)
    (hshows : Shows t.session.tree files)
    (hable : t.capabilities.mlst = true ∨ t.capabilities.size = true)
    (hdir : v.dir = t.session.dir) (htree : v.tree = t.session.tree) :
    At p.parent_path (t.withSession v) ∧ Mirrors srv files (t.withSession v) := by
  have hstays : At p.parent_path (t.withSession v) := hat.withSession hdir
  refine ⟨hstays, ?_, ⟨p.parent_path, h.parent, hstays, hparent⟩, hable⟩
  show Shows v.tree files
  rw [htree]
  exact hshows

variable {p : Path} (hconf : srv.Conforms policy) (hm : Mirrors srv files s) (h : Child srv p)
  (hparent : files.kind p.parent_path.names = some .directory)

include hconf hm h hparent

theorem Mirrors.run_exists :
    ∃ t, FtpFileTransfer.exists_ srv.channel p s = (.ok (files.kind p.names).isSome, t) ∧
      At p.parent_path t ∧ Mirrors srv files t := by
  obtain ⟨t, hnav, hat, hshows, hstands, hable⟩ := hm.arrive hconf.toExact h hparent
  obtain ⟨v, hrun, hdir, htree⟩ := exists_files h hconf.toExact hable hnav hstands
  rw [hshows] at hrun
  exact ⟨_, hrun, mirrors_asked h hparent hat hshows hable hdir htree⟩

theorem Mirrors.run_isDirectory :
    ∃ t, FtpFileTransfer.isDirectory srv.channel p s
        = ((kindAnswer (files.kind p.names)).mapError .error, t) ∧
      At p.parent_path t ∧ Mirrors srv files t := by
  obtain ⟨t, hnav, hat, hshows, hstands, hable⟩ := hm.arrive hconf.toExact h hparent
  obtain ⟨v, hrun, hdir, htree⟩ := isDirectory_files hconf h hstands hable hnav
  rw [hshows] at hrun
  exact ⟨_, hrun, mirrors_asked h hparent hat hshows hable hdir htree⟩

theorem Mirrors.run_createDir :
    ∃ t, FtpFileTransfer.createDir srv.channel p s
        = ((files.createDir policy p.parent_path.names p.filename).1, t) ∧
      Mirrors srv (files.createDir policy p.parent_path.names p.filename).2 t := by
  obtain ⟨t, hrun, hat, hasked⟩ := hm.run_exists hconf h hparent
  rw [FtpFileTransfer.createDir, bind_ok hrun]
  cases hentry : files.kind p.names with
  | none =>
    have hlast : get_last_component p = p.filename := if_neg h.filename_ne_nil
    obtain ⟨t', hperform, hmade⟩ :=
      makes_files hconf h hat hasked.shows hparent hasked.able hentry
    refine ⟨t', (bind_ok (changeDirectory_stays h.parent hat)).trans ?_, hmade⟩
    rw [hlast]
    exact hperform
  | some kind =>
    -- whatever is there is left alone
    rw [h.split] at hentry
    rw [Files.createDir, dif_neg (by rw [hentry]; exact Option.some_ne_none kind)]
    exact ⟨t, rfl, hasked⟩

theorem Mirrors.run_remove :
    ∃ t, FtpFileTransfer.remove srv.channel p s
        = ((files.remove policy p.parent_path.names p.filename).1, t) ∧
      Mirrors srv (files.remove policy p.parent_path.names p.filename).2 t := by
  obtain ⟨t, hrun, hat, hasked⟩ := hm.run_isDirectory hconf h hparent
  rw [FtpFileTransfer.remove]
  cases hentry : files.kind p.names with
  | none =>
    -- what is not there cannot be asked for its kind
    rw [hentry] at hrun
    rw [h.split] at hentry
    have habsent : ∀ kind, files.kind (p.parent_path.names ++ [p.filename]) ≠ some kind := by
      intro kind hkind
      cases hentry.symm.trans hkind
    rw [Files.remove, dif_neg fun hc => habsent _ hc.1, dif_neg fun hc => habsent _ hc.1]
    exact ⟨t, bind_error hrun, hasked⟩
  | some kind =>
    rw [hentry] at hrun
    obtain ⟨t', hperform, hgone⟩ :=
      removes_files hconf h hat hasked.shows hparent hasked.able hentry
    exact ⟨t', (bind_ok hrun).trans
      ((bind_ok (changeDirectory_stays h.parent hat)).trans hperform), hgone⟩

end Calls

section Runs

variable {srv : FileServer} {policy : Policy} {files : Files} {s : FtpFileTransfer Site}

theorem told_eq (kind : Option Kind) :
    ((kindAnswer kind).mapError .error).map some = Files.told kind := by
  cases kind with
  | none => rfl
  | some kind => rfl

theorem Mirrors.run_call (hconf : srv.Conforms policy) (hm : Mirrors srv files s) (c : FileCall)
    (h : Child srv c.path) (hparent : files.kind c.path.parent_path.names = some .directory) :
    (c.run srv.channel s).1 = (files.apply policy c).1 ∧
      Mirrors srv (files.apply policy c).2 (c.run srv.channel s).2 := by
  cases c with
  | createDir p =>
    obtain ⟨t, hrun, hmade⟩ := hm.run_createDir hconf h hparent
    have hcall : (FileCall.createDir p).run srv.channel s
        = ((files.createDir policy p.parent_path.names p.filename).1.map fun _ => none, t) :=
      bind_pure_eq hrun
    rw [hcall]
    exact ⟨rfl, hmade⟩
  | exists_ p =>
    obtain ⟨t, hrun, -, hasked⟩ := hm.run_exists hconf h hparent
    have hcall : (FileCall.exists_ p).run srv.channel s
        = (.ok (some (files.kind p.names).isSome), t) := bind_ok hrun
    replace h : Child srv p := h
    rw [h.split] at hcall
    rw [hcall]
    exact ⟨rfl, hasked⟩
  | remove p =>
    obtain ⟨t, hrun, hgone⟩ := hm.run_remove hconf h hparent
    have hcall : (FileCall.remove p).run srv.channel s
        = ((files.remove policy p.parent_path.names p.filename).1.map fun _ => none, t) :=
      bind_pure_eq hrun
    rw [hcall]
    exact ⟨rfl, hgone⟩
  | isDirectory p =>
    obtain ⟨t, hrun, -, hasked⟩ := hm.run_isDirectory hconf h hparent
    have hcall : (FileCall.isDirectory p).run srv.channel s
        = (Files.told (files.kind p.names), t) := by
      rw [← told_eq]
      exact bind_pure_eq hrun
    replace h : Child srv p := h
    rw [h.split] at hcall
    rw [hcall]
    exact ⟨rfl, hasked⟩

theorem Mirrors.run_calls (hconf : srv.Conforms policy) {calls : List FileCall}
    (hm : Mirrors srv files s) (hfit : Files.Fitting policy srv files calls) :
    (FileCall.runAll srv.channel s calls).1 = (files.applyAll policy calls).1 ∧
      Mirrors srv (files.applyAll policy calls).2 (FileCall.runAll srv.channel s calls).2 := by
  induction calls generalizing files s with
  | nil => exact ⟨rfl, hm⟩
  | cons c cs ih =>
    obtain ⟨⟨hplain, hroot, hparent⟩, hrest⟩ := hfit
    obtain ⟨hfst, hnext⟩ := hm.run_call hconf c (hplain.child hroot) hparent
    obtain ⟨hrs, hlast⟩ := ih hnext hrest
    exact ⟨congrArg₂ List.cons hfst hrs, hlast⟩

/- A new object stands in the root directory. -/
theorem mirrors_construct {tree : Tree} {capabilities : FtpCapabilities}
    (hable : capabilities.mlst = true ∨ capabilities.size = true) (hshows : Shows tree files) :
    Mirrors srv files { FtpFileTransfer.construct (.initial tree) with capabilities } := by
  have hnormal : normalize (ascii "/") = ascii "/" := by decide
  have hnames : names (ascii "/") = [] := by decide
  refine ⟨hshows, ⟨ascii "/", FileServer.plain_root, ⟨hnormal, ?_⟩, ?_⟩, hable⟩
  · rw [hnames]
    rfl
  · rw [hnames]
    exact files.root

end Runs

/-- Over every run of the four operations from a new object, whatever the server has announced
that can tell a file from nothing: the results are those of the tree of files, and in the end
the server has the files of the tree. -/
theorem session_files (srv : FileServer) (policy : Policy) (tree : Tree) (files : Files)
    (capabilities : FtpCapabilities) (calls : List FileCall) (hconf : srv.Conforms policy)
    (hable : capabilities.mlst = true ∨ capabilities.size = true) (hshows : Shows tree files)
    (hfit : Files.Fitting policy srv files calls) :
    let s := { FtpFileTransfer.construct (.initial tree) with capabilities }
    (FileCall.runAll srv.channel s calls).1 = (files.applyAll policy calls).1 ∧
      Shows (FileCall.runAll srv.channel s calls).2.session.tree
        (files.applyAll policy calls).2 := by
  intro s
  have hmirrors : Mirrors srv files s := mirrors_construct hable hshows
  obtain ⟨hresults, hlast⟩ := hmirrors.run_calls hconf hfit
  exact ⟨hresults, hlast.shows⟩

/-! ### A server that keeps its directories -/

def keeping : Policy where
  allows v _ _ := decide (v ≠ .RMD)
  empty _ _ h := absurd rfl (of_decide_eq_true h)

/- The answer to a line that names an entry, from what is there and at the entry. -/
def keepingAnswer (here target : Option Kind) (verb : Bytes) : Answer :=
  if verb = Verb.name .CWD then if target = some .directory then ⟨[], 250⟩ else ⟨[], 550⟩
  else if verb = Verb.name .MLST then
    match target with
    | none => ⟨[], 550⟩
    | some .file => ⟨ascii "250 type=file; \r\n", 250⟩
    | some .directory => ⟨ascii "250 type=dir; \r\n", 250⟩
  else if verb = Verb.name .SIZE then if target = some .file then ⟨[], 213⟩ else ⟨[], 550⟩
  else if verb = Verb.name .MKD then
    if target = none ∧ here = some .directory then ⟨[], 257⟩ else ⟨[], 550⟩
  else if verb = Verb.name .DELE then if target = some .file then ⟨[], 250⟩ else ⟨[], 550⟩
  else ⟨[], 500⟩

def keepingServer : FileServer where
  drives _ := false
  reply _ tree dir line :=
    (keepingAnswer (tree dir) (tree { dir with comps := enter dir.comps (argument line) })
      (verb line), [])
  data _ _ := .error (.network .CONNECTION_LOST)

section Answers

variable (here target : Option Kind)

theorem keepingAnswer_cwd :
    ((keepingAnswer here target (Verb.name .CWD)).code = 250 ↔ target = some .directory) ∧
      ((keepingAnswer here target (Verb.name .CWD)).code ≠ 250 →
        (keepingAnswer here target (Verb.name .CWD)).code = 550) := by
  rcases target with _ | _ | _ <;> simp [keepingAnswer]

theorem keepingAnswer_mlst :
    ((keepingAnswer here target (Verb.name .MLST)).code = 250 ↔ target.isSome = true) ∧
      ∀ kind, target = some kind → typeIsDir (keepingAnswer here target (Verb.name .MLST)).full_msg
        = some (decide (kind = .directory)) := by
  have hverb : Verb.name .MLST ≠ Verb.name .CWD := by decide
  unfold keepingAnswer
  rw [if_neg hverb, if_pos rfl]
  rcases target with _ | _ | _
  · simp
  · refine ⟨by simp, fun kind hkind => ?_⟩
    cases hkind
    decide
  · refine ⟨by simp, fun kind hkind => ?_⟩
    cases hkind
    decide

theorem keepingAnswer_orders :
    ((keepingAnswer here target (Verb.name .SIZE)).code = 213 ↔ target = some .file) ∧
      ((keepingAnswer here target (Verb.name .MKD)).code = 257 ↔
        target = none ∧ here = some .directory) ∧
      ((keepingAnswer here target (Verb.name .RMD)).code ≠ 250) ∧
      ((keepingAnswer here target (Verb.name .DELE)).code = 250 ↔ target = some .file) := by
  rcases here with _ | _ | _ <;> rcases target with _ | _ | _ <;> decide

end Answers

theorem keepingServer_reply (v : Verb) (i : ℕ) (tree : Tree) (dir : Dir) (name : Path) :
    (keepingServer.reply i tree dir (Line.text ⟨v, some name⟩)).1
      = keepingAnswer (tree dir) (tree (keepingServer.enters dir name)) v.name := by
  show keepingAnswer (tree dir)
    (tree { dir with comps := enter dir.comps (argument (Line.text ⟨v, some name⟩)) })
    (verb (Line.text ⟨v, some name⟩)) = _
  rw [argument_text, verb_text]
  rfl

theorem keepingServer_order (v : Verb) (i : ℕ) {tree : Tree} {files : Files}
    (hshows : Shows tree files) (parent : List Path) {name : Path} (hne : name ≠ [])
    (hname : Proper name) :
    (keepingServer.reply i tree ⟨none, parent⟩ (Line.text ⟨v, some name⟩)).1
      = keepingAnswer (files.kind parent) (files.kind (parent ++ [name])) v.name := by
  have henters : keepingServer.enters ⟨none, parent⟩ name = ⟨none, parent ++ [name]⟩ := by
    simp [FileServer.enters, FileServer.isDrive, keepingServer, enter, hne, hname.1, hname.2]
  rw [keepingServer_reply, henters, hshows, hshows]

theorem keepingServer_exact : keepingServer.Exact where
  cwd i tree dir name := by
    have hreply := keepingServer_reply .CWD i tree dir name
    exact (iff_of_eq (congrArg (·.code = 250) hreply)).trans (keepingAnswer_cwd _ _).1
  mlst i tree dir name := by
    have hreply := keepingServer_reply .MLST i tree dir name
    exact (iff_of_eq (congrArg (·.code = 250) hreply)).trans (keepingAnswer_mlst _ _).1
  size i tree dir name := by
    have hreply := keepingServer_reply .SIZE i tree dir name
    exact (iff_of_eq (congrArg (·.code = 213) hreply)).trans (keepingAnswer_orders _ _).1

theorem keepingServer_conforms : keepingServer.Conforms keeping where
  toExact := keepingServer_exact
  refused i tree dir name := by
    have hreply := keepingServer_reply .CWD i tree dir name
    have hcode := (keepingAnswer_cwd (tree dir) (tree (keepingServer.enters dir name))).2
    rwa [← hreply] at hcode
  fact i tree dir name kind hkind := by
    have hreply := keepingServer_reply .MLST i tree dir name
    have hfact :=
      (keepingAnswer_mlst (tree dir) (tree (keepingServer.enters dir name))).2 kind hkind
    rwa [← hreply] at hfact
  mkd i tree files parent name hshows hne hname := by
    have hreply := keepingServer_order .MKD i hshows parent hne hname
    have hcode := (keepingAnswer_orders (files.kind parent) (files.kind (parent ++ [name]))).2.1
    rw [← hreply] at hcode
    exact hcode.trans (and_congr_right fun _ => (and_iff_left rfl).symm)
  rmd i tree files parent name hshows hne hname := by
    have hreply := keepingServer_order .RMD i hshows parent hne hname
    have hcode := (keepingAnswer_orders (files.kind parent) (files.kind (parent ++ [name]))).2.2.1
    rw [← hreply] at hcode
    exact iff_of_false hcode fun h => absurd h.2 Bool.false_ne_true
  dele i tree files parent name hshows hne hname := by
    have hreply := keepingServer_order .DELE i hshows parent hne hname
    have hcode := (keepingAnswer_orders (files.kind parent) (files.kind (parent ++ [name]))).2.2.2
    rw [← hreply] at hcode
    exact hcode.trans (and_iff_left rfl).symm

/-- A root directory with one file in it. -/
def fileAtRoot : Files where
  kind comps :=
    if comps = [] then some .directory else if comps = [ascii "a"] then some .file else none
  root := rfl
  rooted comps n h := by
    by_cases heq : comps ++ [n] = [] ++ [ascii "a"]
    · obtain ⟨rfl, -⟩ := List.append_inj' heq rfl
      rfl
    · rw [List.nil_append] at heq
      simp [heq] at h

/- A directory is made beside the file and a file cannot be made into one; the file is
removed, the directory is not. -/
theorem session_files_keeping :
    let s := { FtpFileTransfer.construct (.initial fun dir =>
        if dir.drive = none then fileAtRoot.kind dir.comps else none) with
      capabilities := { FtpCapabilities.default with mlst := true } }
    (FileCall.runAll keepingServer.channel s [.createDir (ascii "/b"), .createDir (ascii "/b/c"),
        .createDir (ascii "/a"), .isDirectory (ascii "/a"), .remove (ascii "/a"),
        .exists_ (ascii "/a"), .remove (ascii "/b/c"), .isDirectory (ascii "/b/c")]).1
      = [.ok none, .ok none, .ok none, .ok (some false), .ok none, .ok (some false),
        .error protocolError, .ok (some true)] := by
  have hplain : ∀ p, PlainPath keepingServer p ↔ isPosixAbsolute p = true ∧ normalize p = p ∧
      p.trailing = false ∧ CrlfFree p := by
    intro p
    refine ⟨fun h => ⟨h.absolute, h.normal, h.untrailed, h.line⟩, fun h => ?_⟩
    exact ⟨h.1, h.2.1, h.2.2.1, h.2.2.2, fun _ _ => rfl⟩
  have hfit : Files.Fitting keeping keepingServer fileAtRoot [.createDir (ascii "/b"),
      .createDir (ascii "/b/c"), .createDir (ascii "/a"), .isDirectory (ascii "/a"),
      .remove (ascii "/a"), .exists_ (ascii "/a"), .remove (ascii "/b/c"),
      .isDirectory (ascii "/b/c")] := by
    simp only [Files.Fitting, hplain]
    decide +kernel
  refine (session_files keepingServer keeping _ fileAtRoot
    { FtpCapabilities.default with mlst := true } _ keepingServer_conforms (.inl rfl)
    (fun comps => rfl) hfit).1.trans ?_
  decide +kernel

end NetworkStack.Ftp
