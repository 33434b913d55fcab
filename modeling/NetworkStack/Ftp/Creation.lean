import NetworkStack.Ftp.Existence

/-!
# What `createDir` leaves behind (protocol/FtpFileTransfer.cpp)

`createDir` sends MKD only when `exists` says no, and takes every yes for a directory:
of an entry, of a file, of a path that ends with a separator.
-/

namespace NetworkStack.Ftp

open FtpFileTransfer Hoare Path SocketDetail Utility

namespace FileServer

variable {srv : FileServer}

/-! ### The server before the order -/

theorem ftpCd_channel {name : Path} {u u' : Site} (hname : CrlfFree name)
    (h : srv.channel.ftpCd name u = (.ok (), u')) :
    u'.dir = srv.enters u.dir name ∧ u'.tree = u.tree := by
  have hline : CrlfFree (ascii "CWD " ++ name) := crlfFree_command (v := .CWD) hname
  have hrun : srv.channel.ftpCd name u = _ := bind_ok (srv.sendAndReceive_eq hline u)
  rw [h] at hrun
  split at hrun
  · cases hrun
  · rename_i hcode
    cases hrun
    refine ⟨(srv.ask_cwd_dir u name).trans (if_pos (not_not.mp hcode)), ?_⟩
    exact srv.ask_tree (l := ⟨.CWD, some name⟩) (by simp) u

theorem changeDirectory_arrives {path : Path} {s t : FtpFileTransfer Site}
    (hpath : CrlfFree path) (h : changeDirectory srv.channel path s = (.ok (), t)) :
    t.session.dir = srv.arrives s.navigator.current s.session.dir path ∧
      t.session.tree = s.session.tree ∧ t.capabilities = s.capabilities ∧
      t.navigator.current = normalize path := by
  obtain ⟨hdir, hcaps, hcurrent⟩ := changeDirectory_view (fun u => u.dir) srv.enters
    (fun _ _ _ hfree hrun => (ftpCd_channel hfree hrun).1) hpath h
  obtain ⟨htree, -⟩ := changeDirectory_view (fun u => u.tree) (fun tree _ => tree)
    (fun _ _ _ hfree hrun => (ftpCd_channel hfree hrun).2) hpath h
  exact ⟨hdir, by rw [htree, List.foldl_fixed], hcaps, hcurrent⟩

theorem route_self (p : Path) : route p p = [] := by
  rw [route, if_neg (by simp), if_neg (by simp)]
  simp only [commonParts_self, Nat.sub_self, List.drop_length, List.replicate_zero, List.nil_append,
    List.map_nil]

variable {name : Bytes} {u : Site} {kind : Option Kind}

variable (srv) in
theorem asks_tree {l : Line} (hl : l.verb ∈ [.CWD, .MLST, .SIZE]) (capability : Bool)
    (wanted : Answer → Bool) (u : Site) :
    (srv.asks capability l.text wanted u).2.tree = u.tree := by
  unfold asks
  split
  · exact srv.ask_tree hl u
  · rfl

variable (srv) in
theorem existsProbe_tree (c : FtpCapabilities) (name : Bytes) (u : Site) :
    (srv.existsProbe c name u).2.tree = u.tree := by
  have hmlst := srv.asks_tree (l := ⟨.MLST, some name⟩) (by simp) c.mlst (·.code = 250) u
  unfold existsProbe
  simp only
  split
  · exact hmlst
  · exact (srv.asks_tree (l := ⟨.SIZE, some name⟩) (by simp) c.size (·.code = 213) _).trans hmlst

theorem settle_tree (probe : Bool × Site) : (srv.settle name probe).tree = probe.2.tree := by
  have hcwd : ∀ (name : Bytes) (v : Site), (srv.ask v (ascii "CWD " ++ name)).tree = v.tree :=
    fun name v => srv.ask_tree (l := ⟨.CWD, some name⟩) (by simp) v
  unfold settle bounce
  simp only
  split
  · split
    · rw [hcwd, hcwd]
    · rw [hcwd]
  · rfl

theorem asks_fst (capability : Bool) (line : Bytes) (wanted : Answer → Bool) (u : Site) :
    (srv.asks capability line wanted u).1 = (capability && wanted (srv.answer u line)) := by
  cases capability with
  | false => rfl
  | true => rfl

/- No question of a truthful server's is answered with yes. -/
theorem existsProbe_missing (hexact : srv.Exact) (c : FtpCapabilities)
    (hkind : u.tree (srv.enters u.dir name) = kind) :
    ((srv.existsProbe c name u).1 = true ∧
        (srv.answer (srv.existsProbe c name u).2 (ascii "CWD " ++ name)).code ≠ 250) ↔
      true ∉ questions c kind := by
  have hcwd : (srv.answer (srv.existsProbe c name u).2 (ascii "CWD " ++ name)).code = 250 ↔
      kind = some .directory := by
    rw [← hkind, ← srv.existsProbe_tree c name u, ← srv.existsProbe_dir c name u]
    exact hexact.cwd _ _ _ _
  have hmlst : (srv.asks c.mlst (ascii "MLST " ++ name) (·.code = 250) u).1
      = (c.mlst && kind.isSome) := by
    have hanswer : (srv.answer u (ascii "MLST " ++ name)).code = 250 ↔ kind.isSome = true := by
      rw [← hkind]
      exact hexact.mlst _ _ _ _
    rw [asks_fst, Bool.eq_iff_iff.mpr (decide_eq_true_iff.trans hanswer)]
  have hsize : ∀ v : Site, v.dir = u.dir → v.tree = u.tree →
      (srv.asks c.size (ascii "SIZE " ++ name) (·.code = 213) v).1
        = (c.size && decide (kind = some .file)) := by
    intro v hdir htree
    have hanswer : (srv.answer v (ascii "SIZE " ++ name)).code = 213 ↔ kind = some .file := by
      rw [← hkind, ← htree, ← hdir]
      exact hexact.size _ _ _ _
    rw [asks_fst, decide_eq_decide.mpr hanswer]
  have hprobe : (srv.existsProbe c name u).1
      = (!(c.mlst && kind.isSome) && !(c.size && decide (kind = some .file))) := by
    unfold existsProbe
    simp only
    have hdir := srv.asks_dir c.mlst ⟨.MLST, some name⟩ (by simp) (·.code = 250) u
    have htree := srv.asks_tree (l := ⟨.MLST, some name⟩) (by simp) c.mlst (·.code = 250) u
    rw [hmlst]
    cases c.mlst && kind.isSome with
    | true => rfl
    | false =>
      rw [if_neg Bool.false_ne_true]
      exact congrArg (!·) (hsize _ hdir htree)
  rw [hprobe, Ne, hcwd, questions]
  cases c.mlst <;> cases c.size <;> rcases kind with _ | _ | _ <;> decide

/-! ### The order -/

theorem perform_ok {s s' : FtpFileTransfer Site} (hname : CrlfFree name)
    (h : perform srv.channel (ascii "MKD " ++ name) 257 s = (.ok (), s')) :
    s'.session.tree = Function.update s.session.tree
      { s.session.dir with comps := enter s.session.dir.comps name } (some .directory) := by
  have hline : CrlfFree (ascii "MKD " ++ name) := crlfFree_command (v := .MKD) hname
  have hrun : perform srv.channel (ascii "MKD " ++ name) 257 s = _ :=
    bind_ok (srv.command_eq hline s)
  rw [h] at hrun
  split at hrun
  · cases hrun
  · rename_i hcode
    cases hrun
    show changed s.session.tree s.session.dir (Line.text ⟨.MKD, some name⟩) _ = _
    have hremoves : ¬((Verb.name .MKD = Verb.name .DELE ∨ Verb.name .MKD = Verb.name .RMD) ∧
        (srv.answer s.session (ascii "MKD " ++ name)).code = 250) := fun h => absurd h.1 (by decide)
    rw [changed, verb_text, argument_text]
    simp only
    rw [if_neg hremoves, if_pos ⟨trivial, not_not.mp hcode⟩]

variable {path : Path} {s t s' : FtpFileTransfer Site}

/- Behind a missing name the navigation to the same directory has nothing to do. -/
theorem createDir_missing (hname : path.filename ≠ []) (hpath : CrlfFree path)
    (hnav : changeDirectory srv.channel path.parent_path s = (.ok (), t)) {v : Site}
    (hexists : exists_ srv.channel path s = (.ok false, t.withSession v))
    (hdir : v.dir = t.session.dir) (hok : createDir srv.channel path s = (.ok (), s')) :
    s'.session.tree = Function.update v.tree
      { t.session.dir with comps := enter t.session.dir.comps path.filename }
      (some .directory) := by
  obtain ⟨exists_result, mid, hrun, hrest⟩ := bind_eq_ok hok
  rw [hexists] at hrun
  cases hrun
  obtain ⟨_, w, hagain, hperform⟩ := bind_eq_ok hrest
  obtain ⟨-, -, -, hcurrent⟩ := changeDirectory_arrives (crlfFree_parent_path hpath) hnav
  obtain ⟨hdir', htree', -⟩ := changeDirectory_arrives (crlfFree_parent_path hpath) hagain
  have hstays : srv.arrives (t.withSession v).navigator.current (t.withSession v).session.dir
      path.parent_path = v.dir := by
    show srv.arrives t.navigator.current v.dir path.parent_path = v.dir
    rw [arrives, hcurrent, route_self]
    rfl
  have hlast : get_last_component path = path.filename := if_neg hname
  rw [hlast] at hperform
  rw [perform_ok (hpath.of_isInfix (filename_isInfix path)) hperform, htree', hdir', hstays, hdir]
  rfl

theorem createDir_found (hexists : exists_ srv.channel path s = (.ok true, t))
    (hok : createDir srv.channel path s = (.ok (), s')) : s' = t := by
  obtain ⟨exists_result, mid, hrun, hrest⟩ := bind_eq_ok hok
  rw [hexists] at hrun
  cases hrun
  cases hrest
  rfl

end FileServer

/-- Where the server is once it has been sent to the parent directory of the path. -/
def FileServer.parent (srv : FileServer) (s : FtpFileTransfer Site) (path : Path) : Dir :=
  srv.arrives s.navigator.current s.session.dir path.parent_path

/-- After a `createDir` that succeeded the path is a directory exactly when it was one before,
or it has a last name, no question finds it, and the order is given in its parent directory. -/
theorem createDir_makes_iff (srv : FileServer) (base : Dir) (path : Path)
    (s s' : FtpFileTransfer Site) (hexact : srv.Exact) (hpath : CrlfFree path)
    (hok : createDir srv.channel path s = (.ok (), s')) :
    s'.session.tree (srv.entry base path) = some .directory ↔
      s.session.tree (srv.entry base path) = some .directory ∨
        (path.filename ≠ [] ∧
          true ∉ questions s.capabilities
            (s.session.tree (srv.enters (srv.parent s path) path.filename)) ∧
          srv.entry base path
            = { srv.parent s path with
                comps := enter (srv.parent s path).comps path.filename }) := by
  by_cases hname : path.filename = []
  · have hexists : exists_ srv.channel path s = (.ok true, s) := by
      rw [exists_, if_pos hname]
      rfl
    rw [FileServer.createDir_found hexists hok]
    simp [hname]
  · cases hnav : changeDirectory srv.channel path.parent_path s with
    | mk r t =>
      cases r with
      | error e =>
        have hexists : exists_ srv.channel path s = (.error e, t) := by
          rw [exists_, if_neg hname, bind_error hnav]
        rw [createDir, bind_error hexists] at hok
        cases hok
      | ok _ =>
        obtain ⟨hdir, htree, hcaps, -⟩ :=
          FileServer.changeDirectory_arrives (crlfFree_parent_path hpath) hnav
        rw [← FileServer.parent] at hdir
        obtain ⟨b, hexists, hrefused⟩ := srv.exists_eq hname hpath hnav
        have hb := hrefused.trans (FileServer.existsProbe_missing hexact t.capabilities rfl)
        rw [htree, hdir] at hb
        have hkept : (srv.settle path.filename
            (srv.existsProbe t.capabilities path.filename t.session)).tree = s.session.tree := by
          rw [FileServer.settle_tree, FileServer.existsProbe_tree, htree]
        rw [← hcaps]
        cases b with
        | true =>
          rw [FileServer.createDir_found hexists hok]
          have hsame : (t.withSession (srv.settle path.filename (srv.existsProbe t.capabilities
              path.filename t.session))).session.tree = s.session.tree := hkept
          rw [hsame]
          refine (or_iff_left ?_).symm
          rintro ⟨-, hmissing, -⟩
          cases hb.mpr hmissing
        | false =>
          have hstays : (srv.settle path.filename
              (srv.existsProbe t.capabilities path.filename t.session)).dir = t.session.dir := by
            rw [← srv.existsProbe_dir t.capabilities path.filename t.session]
            exact (FileServer.settle_dir_iff hname).mpr fun _ hcode =>
              absurd hcode (hrefused.mp rfl).2
          rw [FileServer.createDir_missing hname hpath hnav hexists hstays hok, hkept, hdir]
          simp only [Function.update_apply]
          split
          · rename_i hown
            exact iff_of_true rfl (.inr ⟨hname, hb.mp rfl, hown⟩)
          · rename_i hown
            exact (or_iff_left fun h => hown h.2.2).symm

/-- An object at the root of a server that has nothing but the file `/a`. -/
def besideFile (mlst : Bool) : FtpFileTransfer Site :=
  { FtpFileTransfer.construct (.initial fun dir =>
      if dir = Dir.root then some .directory
      else if dir = ⟨none, [ascii "a"]⟩ then some .file else none) with
    capabilities := { FtpCapabilities.default with mlst := mlst } }

theorem createDir_makes_new :
    ∃ s', createDir fileServer.channel (ascii "/b") (besideFile true) = (.ok (), s') ∧
      s'.session.tree (fileServer.entry Dir.root (ascii "/b")) = some .directory := by
  have hok : createDir fileServer.channel (ascii "/b") (besideFile true)
      = (.ok (), (createDir fileServer.channel (ascii "/b") (besideFile true)).2) :=
    Prod.ext (by decide +kernel) rfl
  refine ⟨_, hok, (createDir_makes_iff fileServer Dir.root (ascii "/b") _ _ fileServer_exact
    (by decide) hok).mpr (.inr ?_)⟩
  decide +kernel

/- A file is taken for the directory, and a trailing separator for its existence. -/
theorem createDir_makes_nothing :
    fileServer.Exact ∧
    (∃ s', createDir fileServer.channel (ascii "/a") (besideFile true) = (.ok (), s') ∧
      s'.session.tree (fileServer.entry Dir.root (ascii "/a")) = some .file) ∧
    ∃ s', createDir fileServer.channel (ascii "/b/") (besideFile true) = (.ok (), s') ∧
      s'.session.tree (fileServer.entry Dir.root (ascii "/b/")) = none := by
  refine ⟨fileServer_exact, ⟨(createDir fileServer.channel (ascii "/a") (besideFile true)).2,
      Prod.ext (by decide +kernel) rfl, by decide +kernel⟩,
    ⟨(createDir fileServer.channel (ascii "/b/") (besideFile true)).2,
      Prod.ext (by decide +kernel) rfl, by decide +kernel⟩⟩

end NetworkStack.Ftp
