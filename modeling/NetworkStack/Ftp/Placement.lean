import NetworkStack.Ftp.Probes

/-!
# Which directory a command acts in

The commands that act on a file take its last name and rely on the server's working
directory for the rest. Over any run of operations on plain absolute paths the
navigator and the server agree, as long as the server goes where it is sent.
-/

namespace NetworkStack.Ftp

open FtpFileTransfer Hoare Path SocketDetail Utility

/-- Absolute, in normal form, without a trailing separator, of one line and without a name
that the server takes for a drive. -/
structure PlainPath (srv : FileServer) (p : Path) : Prop where
  absolute : isPosixAbsolute p = true
  normal : normalize p = p
  untrailed : p.trailing = false
  line : CrlfFree p
  driveless : ∀ n ∈ p.names, srv.isDrive n = false

/-- A command that acts on an entry of the working directory is meant for `p`, and a
listing is one of `p`. -/
def Placed (p : Path) (e : Entry) : Prop :=
  (∀ v ∈ [Verb.DELE, .RMD, .MKD, .RETR, .STOR], verb e.line = v.name →
    ∃ parent last, p.names = parent ++ [last] ∧ e.dir = ⟨none, parent⟩ ∧
      e.line = Line.text ⟨v, some last⟩) ∧
  (verb e.line = Verb.name .LIST → e.dir = ⟨none, p.names⟩)

/-- Everything heard since `start` was placed, and no entry but `p` has changed. -/
def Logged (p : Path) (start u : Site) : Prop :=
  ∃ new, u.log = start.log ++ new ∧ (∀ e ∈ new, Placed p e) ∧
    ∀ q, q ≠ ⟨none, p.names⟩ → u.tree q = start.tree q

/-- The navigator and the server are both in `d`. -/
def At (d : Path) (s : FtpFileTransfer Site) : Prop :=
  s.navigator.current = d ∧ s.session.dir = ⟨none, d.names⟩

/-! ### One command -/

section Command

variable {srv : FileServer} {p : Path} {start u : Site}

theorem PlainPath.proper (h : PlainPath srv p) : ∀ n ∈ p.names, Proper n := by
  have hproper := names_proper (p := p) (by rw [h.normal]; exact h.absolute)
  rwa [h.normal] at hproper

theorem Logged.refl (p : Path) (u : Site) : Logged p u u :=
  ⟨[], (List.append_nil _).symm, fun _ he => (List.not_mem_nil he).elim, fun _ _ => rfl⟩

/- A line that acts on nothing stands anywhere. -/
theorem placed_other {l : Line} (h : l.verb ∉ [.DELE, .RMD, .MKD, .RETR, .STOR, .LIST])
    (dir : Dir) (code : ℕ) : Placed p ⟨dir, l.text, code⟩ := by
  refine ⟨fun v hv hverb => ?_, fun hverb => ?_⟩
  · rw [verb_text] at hverb
    rw [← Verb.name_injective hverb] at hv
    exact absurd (by simp only [List.mem_cons] at hv ⊢; tauto) h
  · rw [verb_text] at hverb
    exact absurd (by rw [Verb.name_injective hverb]; simp) h

theorem changed_placed (hp : PlainPath srv p) {tree : Tree} {e : Entry} (h : Placed p e) {q : Dir}
    (hq : q ≠ ⟨none, p.names⟩) : FileServer.changed tree e.dir e.line e.code q = tree q := by
  have htarget : ∀ v ∈ [Verb.DELE, .RMD, .MKD, .RETR, .STOR], verb e.line = v.name →
      q ≠ { e.dir with comps := enter e.dir.comps (argument e.line) } := by
    intro v hv hverb
    obtain ⟨parent, last, hnames, hdir, hline⟩ := h.1 v hv hverb
    have hmem : last ∈ p.names := by simp [hnames]
    have hlast := hp.proper last hmem
    have hne := (isName_of_mem_names hmem).1
    rw [hline, argument_text, hdir]
    simpa [enter, hne, hlast.1, hlast.2, ← hnames] using hq
  unfold FileServer.changed
  split
  · rename_i hverb
    rcases hverb.1 with hverb | hverb
    · exact Function.update_of_ne (htarget .DELE (by simp) hverb) ..
    · exact Function.update_of_ne (htarget .RMD (by simp) hverb) ..
  · split
    · rename_i hverb
      exact Function.update_of_ne (htarget .MKD (by simp) hverb.1) ..
    · split
      · rename_i hverb
        exact Function.update_of_ne (htarget .STOR (by simp) hverb.1) ..
      · rfl

theorem Logged.ask (hp : PlainPath srv p) (h : Logged p start u) {line : Bytes}
    (hplaced : Placed p ⟨u.dir, line, (srv.answer u line).code⟩) :
    Logged p start (srv.ask u line) := by
  obtain ⟨new, hlog, hnew, htree⟩ := h
  refine ⟨new ++ [⟨u.dir, line, (srv.answer u line).code⟩], ?_, ?_, ?_⟩
  · rw [srv.ask_log, hlog, List.append_assoc]
  · intro e he
    rcases List.mem_append.mp he with he | he
    · exact hnew e he
    · rw [List.mem_singleton.mp he]
      exact hplaced
  · intro q hq
    exact (changed_placed hp hplaced hq).trans (htree q hq)

end Command

/-! ### Navigation -/

section Navigate

variable {srv : FileServer} {p c d : Path} {start : Site}

theorem ftpCd_logged (hp : PlainPath srv p) {name : Path} (hline : CrlfFree name)
    (hdrive : srv.isDrive name = false) (comps : List Path) :
    Triple (fun u => u.dir = ⟨none, comps⟩ ∧ Logged p start u) (srv.channel.ftpCd name)
      (fun _ u => u.dir = ⟨none, enter comps name⟩ ∧ Logged p start u)
      fun _ u => Logged p start u := by
  rintro u ⟨hdir, hlog⟩
  have hcd : CrlfFree (ascii "CWD " ++ name) := FileServer.crlfFree_command (v := .CWD) hline
  have hlog' : Logged p start (srv.ask u (ascii "CWD " ++ name)) :=
    hlog.ask hp (placed_other (l := ⟨.CWD, some name⟩) (by simp) _ _)
  have hmoved := srv.ask_cwd_dir u name
  have hrun : srv.channel.ftpCd name u = _ := bind_ok (srv.sendAndReceive_eq hcd u)
  rw [hrun]
  by_cases hcode : (srv.answer u (ascii "CWD " ++ name)).code ≠ 250
  · rw [if_pos hcode]
    exact hlog'
  · rw [if_neg hcode]
    refine ⟨?_, hlog'⟩
    rw [if_pos (not_not.mp hcode), FileServer.enters, hdrive, hdir] at hmoved
    exact hmoved

theorem issue_logged (hp : PlainPath srv p) {dirs : List Path}
    (hdirs : ∀ n ∈ dirs, CrlfFree n ∧ srv.isDrive n = false) (comps : List Path) :
    Triple (fun u => u.dir = ⟨none, comps⟩ ∧ Logged p start u)
      (issue srv.channel.navigator (dirs.map .cd))
      (fun _ u => u.dir = ⟨none, dirs.foldl enter comps⟩ ∧ Logged p start u)
      fun _ u => Logged p start u := by
  induction dirs generalizing comps with
  | nil => exact fun u hu => hu
  | cons n dirs ih =>
    obtain ⟨⟨hline, hdrive⟩, hrest⟩ := List.forall_mem_cons.mp hdirs
    intro u hu
    have hstep := ftpCd_logged hp hline hdrive comps u hu
    simp only [List.map_cons, issue, Transport.send, Channel.navigator]
    cases hcd : srv.channel.ftpCd n u with
    | mk r v =>
      rw [hcd] at hstep
      cases r with
      | error e => exact hstep
      | ok _ => exact ih hrest (enter comps n) v hstep

theorem PlainPath.names_line (h : PlainPath srv p) {n : Path} (hn : n ∈ p.names) :
    CrlfFree n ∧ srv.isDrive n = false :=
  ⟨h.line.of_isInfix (mem_names_isInfix hn), h.driveless n hn⟩

theorem PlainPath.parts_eq (h : PlainPath srv p) : parts p = p.names := by
  simp [parts, h.untrailed]

theorem PlainPath.route_eq (hc : PlainPath srv c) (hd : PlainPath srv d) :
    route c d = (List.replicate (c.names.length - commonParts c.names d.names) dotdot
      ++ d.names.drop (commonParts c.names d.names)).map .cd := by
  rw [route_absolute hc.absolute hd.absolute hc.proper hd.proper, hc.parts_eq, hd.parts_eq]

/- Between plain paths the walk ends where the target is. -/
theorem changeDirectory_logged (hp : PlainPath srv p) (hc : PlainPath srv c)
    (hd : PlainPath srv d) :
    Triple (fun s => At c s ∧ Logged p start s.session) (changeDirectory srv.channel d)
      (fun _ s => At d s ∧ Logged p start s.session) fun _ s => Logged p start s.session := by
  rintro s ⟨⟨hcurrent, hdir⟩, hlog⟩
  have hdirs : ∀ n ∈ List.replicate (c.names.length - commonParts c.names d.names) dotdot
      ++ d.names.drop (commonParts c.names d.names), CrlfFree n ∧ srv.isDrive n = false := by
    intro n hn
    rcases List.mem_append.mp hn with hn | hn
    · rw [List.eq_of_mem_replicate hn]
      exact ⟨by decide, FileServer.isDrive_dotdot⟩
    · exact hd.names_line (List.mem_of_mem_drop hn)
  have hwalk := walk_arrives hd.proper (.inl hc.untrailed)
  rw [hc.parts_eq, hd.parts_eq] at hwalk
  have hissue := issue_logged hp hdirs c.names s.session ⟨hdir, hlog⟩
  rw [hwalk, ← hc.route_eq hd] at hissue
  simp only [FtpFileTransfer.changeDirectory, changeDirectory_eq, hcurrent, hd.normal]
  cases hrun : issue srv.channel.navigator (route c d) s.navigator.session with
  | mk r u =>
    rw [show s.session = s.navigator.session from rfl, hrun] at hissue
    cases r with
    | error e => exact hissue
    | ok _ => exact ⟨⟨rfl, hissue.1⟩, hissue.2⟩

/- The server is already there. -/
theorem changeDirectory_stays (hd : PlainPath srv d) {s : FtpFileTransfer Site} (hs : At d s) :
    changeDirectory srv.channel d s = (.ok (), s) := by
  have hroute : route s.navigator.current (normalize d) = [] := by
    rw [hs.1, hd.normal, hd.route_eq hd, commonParts_self, Nat.sub_self, List.drop_length]
    rfl
  have hcurrent : normalize d = s.navigator.current := hd.normal.trans hs.1.symm
  simp only [FtpFileTransfer.changeDirectory, changeDirectory_eq, hroute, issue]
  rw [hcurrent]

end Navigate

/-! ### Parents -/

theorem PlainPath.ofNames {srv : FileServer} {ns : List Path} (hname : ∀ n ∈ ns, IsName n)
    (hproper : ∀ n ∈ ns, Proper n) (hline : CrlfFree (Path.ofNames ns))
    (hdrive : ∀ n ∈ ns, srv.isDrive n = false) : PlainPath srv (Path.ofNames ns) := by
  have hposix : hasWindowsDrive (Path.ofNames ns) = false := by
    rw [ofNames_eq]
    cases [separator].intercalate ns with
    | nil => rfl
    | cons b bs => simp [hasWindowsDrive, isAlpha, separator]
  refine ⟨isPosixAbsolute_iff.mpr ⟨hposix, has_root_ofNames ns⟩,
    lexically_normal_ofNames hname hproper, trailing_ofNames hname, hline, ?_⟩
  rwa [names_ofNames hname]

/-- A plain path that is not the root, split at its last name. -/
structure Child (srv : FileServer) (p : Path) : Prop where
  plain : PlainPath srv p
  split : p.names = p.parent_path.names ++ [p.filename]
  parent : PlainPath srv p.parent_path

theorem PlainPath.child {srv : FileServer} {p : Path} (h : PlainPath srv p) (hne : p.names ≠ []) :
    Child srv p := by
  obtain ⟨init, last, hsplit⟩ : ∃ init last, p.names = init ++ [last] := by
    rcases List.eq_nil_or_concat' p.names with hnil | hconcat
    · exact absurd hnil hne
    · exact hconcat
  have hroot := (isPosixAbsolute_iff.mp h.absolute).2
  have hform : p = Path.ofNames (init ++ [last]) := by
    rw [← hsplit]
    exact eq_ofNames hroot h.normal h.untrailed
  have hmem : ∀ n ∈ init, n ∈ p.names := fun n hn => by simp [hsplit, hn]
  have hname : ∀ n ∈ init, IsName n := fun n hn => isName_of_mem_names (hmem n hn)
  have hlast : IsName last := isName_of_mem_names (p := p) (by simp [hsplit])
  have hparent : p.parent_path = Path.ofNames init := by
    conv_lhs => rw [hform]
    exact parent_path_ofNames hname hlast
  have hfile : p.filename = last := by
    conv_lhs => rw [hform]
    exact filename_ofNames init hlast
  have hline := crlfFree_parent_path h.line
  rw [hparent] at hline
  refine ⟨h, ?_, ?_⟩
  · rw [hparent, names_ofNames hname, hfile, hsplit]
  · rw [hparent]
    exact .ofNames hname (fun n hn => h.proper n (hmem n hn)) hline
      fun n hn => h.driveless n (hmem n hn)

namespace Child

variable {srv : FileServer} {p : Path} (h : Child srv p)

include h

theorem filename_mem : p.filename ∈ p.names := by simp [h.split]

theorem filename_ne_nil : p.filename ≠ [] := (isName_of_mem_names h.filename_mem).1

theorem filename_proper : Proper p.filename := h.plain.proper _ h.filename_mem

theorem filename_line : CrlfFree p.filename ∧ srv.isDrive p.filename = false :=
  h.plain.names_line h.filename_mem

/- In the parent directory a command with the last name is meant for the path. -/
theorem placed {v : Verb} (hv : v ≠ .LIST) (code : ℕ) :
    Placed p ⟨⟨none, p.parent_path.names⟩, Line.text ⟨v, some p.filename⟩, code⟩ := by
  refine ⟨fun w _ hverb => ⟨_, _, h.split, rfl, ?_⟩, fun hverb => ?_⟩
  · rw [verb_text] at hverb
    obtain rfl : v = w := Verb.name_injective hverb
    rfl
  · rw [verb_text] at hverb
    exact absurd (Verb.name_injective hverb) hv

end Child

/-! ### Probes -/

/-- Every `CWD ..` since `start` was granted. -/
def Granted (start u : Site) : Prop :=
  ∀ e ∈ u.log.drop start.log.length, e.line = ascii "CWD .." → e.code = 250

instance (start u : Site) : Decidable (Granted start u) :=
  inferInstanceAs (Decidable (∀ e ∈ _, _))

section Probe

variable {srv : FileServer} {p : Path} {start u : Site}

theorem Granted.of_ask {line : Bytes} (hlog : Logged p start u)
    (h : Granted start (srv.ask u line)) : Granted start u := by
  obtain ⟨new, hnew, -, -⟩ := hlog
  intro e he
  refine h e ?_
  rw [hnew, List.drop_left] at he
  rw [srv.ask_log, hnew, List.append_assoc, List.drop_left]
  exact List.mem_append_left _ he

/- A refused `CWD ..` would stand in the log. -/
theorem restored_of_granted {name : Bytes} (hlog : Logged p start u)
    (h : Granted start (srv.bounce name u)) : srv.Restored name u := by
  obtain ⟨new, hnew, -, -⟩ := hlog
  intro hcode
  have hbounce : srv.bounce name u
      = srv.ask (srv.ask u (ascii "CWD " ++ name)) (ascii "CWD " ++ dotdot) := by
    rw [FileServer.bounce, if_pos hcode]
  rw [hbounce] at h
  refine h ⟨(srv.ask u (ascii "CWD " ++ name)).dir, ascii "CWD " ++ dotdot, _⟩ ?_ rfl
  rw [srv.ask_log, srv.ask_log, hnew, List.append_assoc, List.append_assoc, List.drop_left]
  simp

theorem Logged.asks (hp : PlainPath srv p) (h : Logged p start u) {l : Line}
    (hl : l.verb ∉ [.DELE, .RMD, .MKD, .RETR, .STOR, .LIST]) (capability : Bool)
    (wanted : Answer → Bool) : Logged p start (srv.asks capability l.text wanted u).2 := by
  unfold FileServer.asks
  split
  · exact h.ask hp (placed_other hl _ _)
  · exact h

theorem Logged.existsProbe (hp : PlainPath srv p) (h : Logged p start u) (c : FtpCapabilities)
    (name : Bytes) : Logged p start (srv.existsProbe c name u).2 := by
  have hmlst := h.asks hp (l := ⟨.MLST, some name⟩) (by simp) c.mlst (·.code = 250)
  unfold FileServer.existsProbe
  simp only
  split
  · exact hmlst
  · exact hmlst.asks hp (l := ⟨.SIZE, some name⟩) (by simp) c.size (·.code = 213)

theorem Logged.isDirectoryProbe (hp : PlainPath srv p) (h : Logged p start u)
    (c : FtpCapabilities) (name : Bytes) : Logged p start (srv.isDirectoryProbe c name u).2 :=
  h.asks hp (l := ⟨.MLST, some name⟩) (by simp) c.mlst _

theorem Logged.bounce (hp : PlainPath srv p) (h : Logged p start u) (name : Bytes) :
    Logged p start (srv.bounce name u) := by
  have hentered : Logged p start (srv.ask u (ascii "CWD " ++ name)) :=
    h.ask hp (placed_other (l := ⟨.CWD, some name⟩) (by simp) _ _)
  unfold FileServer.bounce
  simp only
  split
  · exact hentered.ask hp (placed_other (l := ⟨.CWD, some dotdot⟩) (by simp) _ _)
  · exact hentered

theorem Logged.settle (hp : PlainPath srv p) {probe : Bool × Site} (h : Logged p start probe.2)
    (name : Bytes) : Logged p start (srv.settle name probe) := by
  unfold FileServer.settle
  split
  · exact h.bounce hp name
  · exact h

/- A name of a plain path is entered and left again. -/
theorem Child.undone (h : Child srv p) (hrestored : srv.Restored p.filename u) :
    srv.Undone p.filename u := by
  intro hcode
  rw [if_pos (hrestored hcode), FileServer.Reenters, h.filename_line.2]
  exact .inl h.filename_proper

theorem Child.settle_dir (h : Child srv p) {probe : Bool × Site} (hlog : Logged p start probe.2)
    (hgranted : Granted start (srv.settle p.filename probe)) :
    (srv.settle p.filename probe).dir = probe.2.dir := by
  refine (FileServer.settle_dir_iff h.filename_ne_nil).mpr fun hsent => h.undone ?_
  rw [FileServer.settle, if_pos hsent] at hgranted
  exact restored_of_granted hlog hgranted

end Probe

/-! ### Operations that transfer nothing -/

section Operations

variable {srv : FileServer} {p : Path} {start : Site} {s t : FtpFileTransfer Site}

theorem At.withSession {d : Path} (h : At d t) {v : Site} (hv : v.dir = t.session.dir) :
    At d (t.withSession v) :=
  ⟨h.1, hv.trans h.2⟩

theorem exists_placed (h : Child srv p)
    (hnav : changeDirectory srv.channel p.parent_path s = (.ok (), t))
    (hlog : Logged p start t.session) :
    ∃ b v, exists_ srv.channel p s = (.ok b, t.withSession v) ∧ Logged p start v ∧
      (Granted start v → v.dir = t.session.dir) ∧ (b = false → v.dir = t.session.dir) := by
  obtain ⟨b, hrun, hmissing⟩ := srv.exists_eq h.filename_ne_nil h.plain.line hnav
  have hprobe := hlog.existsProbe h.plain t.capabilities p.filename
  have hdir := srv.existsProbe_dir t.capabilities p.filename t.session
  refine ⟨b, _, hrun, hprobe.settle h.plain p.filename, fun hgranted => ?_, fun hb => ?_⟩
  · exact (h.settle_dir hprobe hgranted).trans hdir
  · have hrefused := (hmissing.mp hb).2
    refine Eq.trans ?_ hdir
    exact (FileServer.settle_dir_iff h.filename_ne_nil).mpr fun _ hcode => absurd hcode hrefused

theorem isDirectory_placed (h : Child srv p)
    (hnav : changeDirectory srv.channel p.parent_path s = (.ok (), t))
    (hlog : Logged p start t.session) :
    ∃ (r : Except ErrorCode Bool) (v : Site),
      isDirectory srv.channel p s = (r.mapError .error, t.withSession v) ∧ Logged p start v ∧
      (Granted start v → v.dir = t.session.dir) ∧ (∀ b, r = .ok b → v.dir = t.session.dir) := by
  obtain ⟨r, v, hrun, hv, hrestored⟩ := srv.isDirectory_eq h.filename_ne_nil h.plain.line hnav
  have hprobe := hlog.isDirectoryProbe h.plain t.capabilities p.filename
  have hdir := srv.isDirectoryProbe_dir t.capabilities p.filename t.session
  have hsettled := hprobe.settle h.plain p.filename
  have hback : ∀ b, r = .ok b → (srv.settle p.filename
      (srv.isDirectoryProbe t.capabilities p.filename t.session)).dir = t.session.dir := by
    intro b hb
    refine Eq.trans ?_ hdir
    exact (FileServer.settle_dir_iff h.filename_ne_nil).mpr fun hsent =>
      h.undone (hrestored b hb hsent)
  rcases hv with rfl | rfl
  · exact ⟨r, _, hrun, hsettled, fun hgranted => (h.settle_dir hprobe hgranted).trans hdir, hback⟩
  · have hsize : ∀ u, (srv.ask u (ascii "SIZE " ++ p.filename)).dir = u.dir := fun u =>
      (srv.ask_dir u ⟨.SIZE, some p.filename⟩).trans (if_neg fun h => by cases h.1)
    refine ⟨r, _, hrun, hsettled.ask h.plain ?_, fun hgranted => ?_, fun b hb => ?_⟩
    · exact placed_other (l := ⟨.SIZE, some p.filename⟩) (by simp) _ _
    · rw [hsize]
      exact (h.settle_dir hprobe (hgranted.of_ask hsettled)).trans hdir
    · rw [hsize]
      exact hback b hb

/- The command at the end of an operation. -/
theorem perform_placed (h : Child srv p) {v : Verb} (hv : v ∉ [.CWD, .LIST])
    (hat : At p.parent_path t) (hlog : Logged p start t.session) (success : ℕ) :
    ∃ u, (perform srv.channel (Line.text ⟨v, some p.filename⟩) success t).2 = t.withSession u ∧
      Logged p start u ∧ u.dir = t.session.dir := by
  have hline : CrlfFree (Line.text ⟨v, some p.filename⟩) :=
    FileServer.crlfFree_command h.filename_line.1
  simp only [List.mem_cons, List.not_mem_nil, or_false, not_or] at hv
  have hplaced := h.placed hv.2 (srv.answer t.session (Line.text ⟨v, some p.filename⟩)).code
  rw [← hat.2] at hplaced
  refine ⟨srv.ask t.session (Line.text ⟨v, some p.filename⟩), ?_, hlog.ask h.plain hplaced, ?_⟩
  · have hrun : perform srv.channel (Line.text ⟨v, some p.filename⟩) success t = _ :=
      bind_ok (srv.command_eq hline t)
    rw [hrun]
    split <;> rfl
  · exact (srv.ask_dir _ _).trans (if_neg fun hc => hv.1 hc.1)

/-- What the operation on `p` does: everything is placed, and if the navigation to `d` and
the `CWD ..` are granted, it ends there. -/
def Lands (srv : FileServer) (p d : Path) (s t : FtpFileTransfer Site) : Prop :=
  Logged p s.session t.session ∧
    ((changeDirectory srv.channel d s).1 = .ok () → Granted s.session t.session → At d t)

/- Nothing else is sent when the navigation fails. -/
theorem refused_navigation {e : Exit} (h : Child srv p)
    (hnav : changeDirectory srv.channel p.parent_path s = (.error e, t)) :
    exists_ srv.channel p s = (.error e, t) ∧ isDirectory srv.channel p s = (.error e, t) := by
  refine ⟨?_, ?_⟩
  · rw [exists_, if_neg h.filename_ne_nil]
    exact bind_error hnav
  · rw [isDirectory, if_neg h.filename_ne_nil]
    exact bind_error hnav

theorem probing_lands {α : Type} {m : Operation Site α} {c : Path} (h : Child srv p)
    (hc : PlainPath srv c) (hs : At c s)
    (hrefused : ∀ e t, changeDirectory srv.channel p.parent_path s = (.error e, t) → (m s).2 = t)
    (harrived : ∀ t, changeDirectory srv.channel p.parent_path s = (.ok (), t) →
      At p.parent_path t → Logged p s.session t.session → Lands srv p p.parent_path s (m s).2) :
    Lands srv p p.parent_path s (m s).2 := by
  have hrun := changeDirectory_logged h.plain hc h.parent s ⟨hs, Logged.refl p s.session⟩
  cases hnav : changeDirectory srv.channel p.parent_path s with
  | mk r t =>
    rw [hnav] at hrun
    cases r with
    | ok _ => exact harrived t hnav hrun.1 hrun.2
    | error e =>
      rw [hrefused e t hnav]
      refine ⟨hrun, fun hok => ?_⟩
      rw [hnav] at hok
      cases hok

section Landing

variable {c : Path} (h : Child srv p) (hc : PlainPath srv c) (hs : At c s)

include h hc hs

theorem exists_lands : Lands srv p p.parent_path s (exists_ srv.channel p s).2 := by
  refine probing_lands h hc hs (fun e t hnav => ?_) fun t hnav hat hlog => ?_
  · rw [(refused_navigation h hnav).1]
  · obtain ⟨b, v, hrun, hv, hgranted, -⟩ := exists_placed h hnav hlog
    rw [hrun]
    exact ⟨hv, fun _ hg => hat.withSession (hgranted hg)⟩

theorem isDirectory_lands : Lands srv p p.parent_path s (isDirectory srv.channel p s).2 := by
  refine probing_lands h hc hs (fun e t hnav => ?_) fun t hnav hat hlog => ?_
  · rw [(refused_navigation h hnav).2]
  · obtain ⟨r, v, hrun, hv, hgranted, -⟩ := isDirectory_placed h hnav hlog
    rw [hrun]
    exact ⟨hv, fun _ hg => hat.withSession (hgranted hg)⟩

/- If the name is missing, the server has not left the parent. -/
theorem createDir_lands : Lands srv p p.parent_path s (createDir srv.channel p s).2 := by
  refine probing_lands h hc hs (fun e t hnav => ?_) fun t hnav hat hlog => ?_
  · rw [createDir, bind_error (refused_navigation h hnav).1]
  · obtain ⟨b, v, hrun, hv, hgranted, hmissing⟩ := exists_placed h hnav hlog
    cases b with
    | true =>
      have hend : createDir srv.channel p s = _ := bind_ok hrun
      rw [hend]
      exact ⟨hv, fun _ hg => hat.withSession (hgranted hg)⟩
    | false =>
      have hback := hat.withSession (hmissing rfl)
      have hlast : get_last_component p = p.filename := if_neg h.filename_ne_nil
      obtain ⟨u, hperform, hu, hdir⟩ := perform_placed (v := .MKD) h (by simp) hback hv 257
      have hend : createDir srv.channel p s = perform srv.channel
          (ascii "MKD " ++ get_last_component p) 257 (t.withSession v) := by
        refine (bind_ok hrun).trans ?_
        exact bind_ok (changeDirectory_stays h.parent hback)
      rw [hend, hlast]
      exact hperform ▸ ⟨hu, fun _ _ => hback.withSession hdir⟩

theorem remove_lands : Lands srv p p.parent_path s (remove srv.channel p s).2 := by
  refine probing_lands h hc hs (fun e t hnav => ?_) fun t hnav hat hlog => ?_
  · rw [remove, bind_error (refused_navigation h hnav).2]
  · obtain ⟨r, v, hrun, hv, hgranted, hvalue⟩ := isDirectory_placed h hnav hlog
    cases r with
    | error ec =>
      have hend : remove srv.channel p s = _ := bind_error hrun
      rw [hend]
      exact ⟨hv, fun _ hg => hat.withSession (hgranted hg)⟩
    | ok is_dir =>
      have hback := hat.withSession (hvalue is_dir rfl)
      have hverb : ∃ w : Verb, w ∉ [.CWD, .LIST] ∧ (if is_dir then ascii "RMD" else ascii "DELE")
          ++ ascii " " ++ p.filename = Line.text ⟨w, some p.filename⟩ := by
        cases is_dir with
        | true => exact ⟨.RMD, by simp, rfl⟩
        | false => exact ⟨.DELE, by simp, rfl⟩
      obtain ⟨w, hw, htext⟩ := hverb
      obtain ⟨u, hperform, hu, hdir⟩ := perform_placed h hw hback hv 250
      have hend : remove srv.channel p s = perform srv.channel
          (Line.text ⟨w, some p.filename⟩) 250 (t.withSession v) := by
        rw [← htext]
        refine (bind_ok hrun).trans ?_
        exact bind_ok (changeDirectory_stays h.parent hback)
      rw [hend]
      exact hperform ▸ ⟨hu, fun _ _ => hback.withSession hdir⟩

end Landing

end Operations

/-! ### Transfers -/

section Transfer

variable {srv : FileServer} {p d : Path} {start : Site} {α β : Type}

/-- The navigator and the server are in `d`, and everything was placed. -/
def Working (p d : Path) (start : Site) (s : FtpFileTransfer Site) : Prop :=
  At d s ∧ Logged p start s.session

theorem working_control {m : Act Site Exit α}
    (h : ∀ u, Logged p start u → u.dir = ⟨none, d.names⟩ →
      (m u).2.dir = u.dir ∧ Logged p start (m u).2) :
    Keeps (Working p d start) (control m) := by
  refine keeps_iff.mpr fun s hs => ?_
  obtain ⟨hdir, hlog⟩ := h s.session hs.2 hs.1.2
  exact ⟨⟨hs.1.1, hdir.trans hs.1.2⟩, hlog⟩

theorem working_command (hp : PlainPath srv p) {l : Line} (hline : CrlfFree l.text)
    (hl : l.verb ≠ .CWD) (hplaced : ∀ code, Placed p ⟨⟨none, d.names⟩, l.text, code⟩) :
    Keeps (Working p d start) (control (srv.channel.sendAndReceiveResponse l.text)) := by
  refine working_control fun u hlog hdir => ?_
  rw [srv.sendAndReceive_eq hline]
  refine ⟨(srv.ask_dir u l).trans (if_neg fun h => hl h.1), hlog.ask hp ?_⟩
  rw [hdir]
  exact hplaced _

theorem working_receive : Keeps (Working p d start) (control srv.channel.receiveResponse) := by
  refine working_control fun u hlog _ => ?_
  simp only [FileServer.channel]
  cases u.outstanding with
  | nil => exact ⟨rfl, hlog⟩
  | cons a rest => exact ⟨rfl, hlog⟩

theorem working_connect (endpoint : Endpoint) :
    Keeps (Working p d start) (control (srv.channel.connectData endpoint)) := by
  refine working_control fun u hlog _ => ?_
  simp only [FileServer.channel]
  cases srv.data u.connects endpoint with
  | error ec => exact ⟨rfl, hlog⟩
  | ok socket => exact ⟨rfl, hlog⟩

theorem working_openData (hp : PlainPath srv p) :
    Keeps (Working p d start) (openDataConnection srv.channel) := by
  have hpasv : Keeps (Working p d start)
      (control (srv.channel.sendAndReceiveResponse (ascii "PASV"))) :=
    working_command (l := ⟨.PASV, none⟩) hp (by decide) (by decide) fun _ =>
      placed_other (by decide) _ _
  refine hpasv.bind fun a => .ite (keeps_stop _) ?_
  cases parsePasvResponse a.full_msg with
  | none => exact keeps_stop _
  | some endpoint => exact working_connect endpoint

theorem working_completion : Keeps (Working p d start) (completion srv.channel) :=
  working_receive.bind fun _ => .ite (keeps_stop _) (keeps_pure _)

/- The navigation, and then everything in the directory it leads to. -/
theorem transfer_lands {c : Path} {s : FtpFileTransfer Site} {l : Line}
    {phase : Socket → Option (Except ErrorCode α × Socket)} {finish : α → Operation Site β}
    (hp : PlainPath srv p) (hc : PlainPath srv c) (hd : PlainPath srv d) (hs : At c s)
    (hline : CrlfFree l.text) (hl : l.verb ≠ .CWD)
    (hplaced : ∀ code, Placed p ⟨⟨none, d.names⟩, l.text, code⟩)
    (hfinish : ∀ a, Keeps (Working p d s.session) (finish a)) :
    Lands srv p d s (transfer srv.channel d l.text phase finish s).2 := by
  let landed := fun t : FtpFileTransfer Site => Logged p s.session t.session ∧
    ((changeDirectory srv.channel d s).1 = .ok () → At d t)
  have hkeep : ∀ {α : Type} {m : Operation Site α}, Keeps (Working p d s.session) m →
      Triple (Working p d s.session) m (fun _ => Working p d s.session) fun _ => landed :=
    fun hm => hm.mono (fun _ hu => hu) (fun _ _ hu => hu) fun _ _ hu => ⟨hu.2, fun _ => hu.1⟩
  have hnav : Triple (fun t => t = s) (changeDirectory srv.channel d)
      (fun _ => Working p d s.session) fun _ => landed := by
    intro t ht
    have hrun := changeDirectory_logged hp hc hd s ⟨hs, Logged.refl p s.session⟩
    rw [ht]
    cases hn : changeDirectory srv.channel d s with
    | mk r t =>
      rw [hn] at hrun
      cases r with
      | ok _ => exact hrun
      | error e => exact ⟨hrun, fun h => by cases hn ▸ h⟩
  have hopen : Triple (fun t => t = s) (openTransfer srv.channel d l.text)
      (fun _ => Working p d s.session) fun _ => landed := by
    refine (hnav.bind fun _ => hkeep (working_openData hp)).bind fun data => hkeep ?_
    exact (working_command hp hline hl hplaced).bind fun _ => .ite (keeps_stop _) (keeps_pure _)
  have hdata : ∀ data, Keeps (Working p d s.session) (onData srv.channel (phase data)) :=
    fun data => keeps_onData (fun _ _ hu => hu) (phase data)
  have hall := hopen.bind fun data => (hkeep (hdata data)).bind fun a => hkeep (hfinish a)
  have hlanded : landed (transfer srv.channel d l.text phase finish s).2 :=
    (hall.mono (fun _ hu => hu) (fun _ _ hu => ⟨hu.2, fun _ => hu.1⟩) fun _ _ hu => hu).final rfl
  exact ⟨hlanded.1, fun hok _ => hlanded.2 hok⟩

end Transfer

/-! ### Runs -/

variable {γ : Type}

namespace Request

/-- The directory the request navigates to. -/
def target : Request γ → Path
  | .list path => path
  | r => r.path.parent_path

/-- A request on a plain path, which is the root only in a listing. -/
def Plain (srv : FileServer) : Request γ → Prop
  | .list path => PlainPath srv path
  | r => PlainPath srv r.path ∧ r.path.names ≠ []

variable {srv : FileServer} {c : Path} {s : FtpFileTransfer Site}

theorem lands {r : Request γ} (clock : Clock) (hc : PlainPath srv c) (hs : At c s)
    (hr : r.Plain srv) : Lands srv r.path r.target s (r.run srv.channel clock s).2 := by
  have htransfer : ∀ {α β : Type} {v : Verb}
      {phase : Socket → Option (Except ErrorCode α × Socket)}
      {finish : α → Operation Site β}, Child srv r.path → v ∉ [.CWD, .LIST] →
      (∀ a, Keeps (Working r.path r.path.parent_path s.session) (finish a)) →
      Lands srv r.path r.path.parent_path s (transfer srv.channel r.path.parent_path
        (Line.text ⟨v, some r.path.filename⟩) phase finish s).2 := by
    intro α β v phase finish h hv hfinish
    simp only [List.mem_cons, List.not_mem_nil, or_false, not_or] at hv
    exact transfer_lands h.plain hc h.parent hs (FileServer.crlfFree_command h.filename_line.1)
      hv.1 (h.placed hv.2) hfinish
  have hdone : ∀ {β : Type} (b : β), Keeps (Working r.path r.path.parent_path s.session)
      (do completion srv.channel; pure b : Operation Site β) := fun b =>
    working_completion.bind fun _ => keeps_pure b
  cases r with
  | list path =>
    rw [run, discard_final]
    refine transfer_lands (l := ⟨.LIST, none⟩) hr hc hr hs (by decide) (by decide) ?_ fun text => ?_
    · intro code
      refine ⟨fun v hv hverb => ?_, fun _ => rfl⟩
      rw [verb_text] at hverb
      rw [← Verb.name_injective hverb] at hv
      exact absurd hv (by decide)
    · split
      · exact keeps_stop _
      · exact working_receive.bind fun _ => keeps_pure _
  | createDir path => exact createDir_lands (hr.1.child hr.2) hc hs
  | exists_ path =>
    rw [run, discard_final]
    exact exists_lands (hr.1.child hr.2) hc hs
  | remove path => exact remove_lands (hr.1.child hr.2) hc hs
  | isDirectory path =>
    rw [run, discard_final]
    exact isDirectory_lands (hr.1.child hr.2) hc hs
  | read path =>
    rw [run, discard_final]
    exact htransfer (v := .RETR) (hr.1.child hr.2) (by simp) fun _ => hdone _
  | readCallback path callback g =>
    rw [run, discard_final]
    exact htransfer (v := .RETR) (hr.1.child hr.2) (by simp) fun _ => hdone _
  | write path data =>
    rw [run, discard_final]
    exact htransfer (v := .STOR) (hr.1.child hr.2) (by simp) fun _ => hdone _
  | writeCallback path next =>
    rw [run, discard_final]
    exact htransfer (v := .STOR) (hr.1.child hr.2) (by simp) fun _ => hdone _

theorem plain_target {r : Request γ} (h : r.Plain srv) : PlainPath srv r.target := by
  cases r with
  | list path => exact h
  | createDir path => exact (h.1.child h.2).parent
  | exists_ path => exact (h.1.child h.2).parent
  | remove path => exact (h.1.child h.2).parent
  | isDirectory path => exact (h.1.child h.2).parent
  | read path => exact (h.1.child h.2).parent
  | readCallback path callback g => exact (h.1.child h.2).parent
  | write path data => exact (h.1.child h.2).parent
  | writeCallback path next => exact (h.1.child h.2).parent

end Request

namespace FileServer

variable (srv : FileServer)

/-- The next operation, if the last one has returned. -/
def step (s : FtpFileTransfer Site) (l : Request γ × Clock) : Option (FtpFileTransfer Site) :=
  match l.1.run srv.channel l.2 s with
  | (.error .blocked, _) => none
  | (.error .undefined, _) => none
  | (_, t) => some t

/-- A request on a plain path for which every `CWD` of the navigator is answered 250: those
that lead to its directory, and the `CWD ..` that undoes a probe. -/
def Guided (s : FtpFileTransfer Site) (l : Request γ × Clock) : Prop :=
  l.1.Plain srv ∧ (changeDirectory srv.channel l.1.target s).1 = .ok () ∧
    Granted s.session (l.1.run srv.channel l.2 s).2.session

variable {srv}

theorem step_eq_some {s t : FtpFileTransfer Site} {l : Request γ × Clock}
    (h : srv.step s l = some t) : (l.1.run srv.channel l.2 s).2 = t := by
  unfold step at h
  split at h
  · cases h
  · cases h
  · rename_i r u _ _ hrun
    rw [hrun]
    exact Option.some.inj h

theorem step_of_ok {s : FtpFileTransfer Site} {l : Request γ × Clock}
    (h : (l.1.run srv.channel l.2 s).1 = .ok ()) :
    srv.step s l = some (l.1.run srv.channel l.2 s).2 := by
  unfold step
  cases hrun : l.1.run srv.channel l.2 s with
  | mk r t =>
    rw [hrun] at h
    cases h
    rfl

theorem step_home {s t : FtpFileTransfer Site} {l : Request γ × Clock}
    (hs : ∃ c, PlainPath srv c ∧ At c s) (hg : srv.Guided s l) (h : srv.step s l = some t) :
    ∃ c, PlainPath srv c ∧ At c t := by
  obtain ⟨c, hc, hat⟩ := hs
  obtain ⟨hplain, hnav, hgranted⟩ := hg
  have hlands := Request.lands l.2 hc hat hplain
  rw [step_eq_some h] at hlands hgranted
  exact ⟨l.1.target, Request.plain_target hplain, hlands.2 hnav hgranted⟩

theorem plain_root : PlainPath srv (ascii "/") := by
  have hnames : Path.names (ascii "/") = [] := by decide
  refine ⟨by decide, by decide, by decide, by decide, ?_⟩
  rw [hnames]
  exact fun n hn => by cases hn

end FileServer

/- Over every run, with any capability flags: each command that acts on an entry is meant
for the path of its operation, and no operation changes any other entry. -/
theorem commands_placed (srv : FileServer) (tree : Tree) (capabilities : FtpCapabilities)
    (history : List (Request γ × Clock)) (r : Request γ) (clock : Clock) (s : FtpFileTransfer Site)
    (hguided : Machine.Guarded srv.step srv.Guided
      { FtpFileTransfer.construct (.initial tree) with capabilities := capabilities } history)
    (hrun : Machine.run srv.step
      { FtpFileTransfer.construct (.initial tree) with capabilities := capabilities } history
        = some s)
    (hr : r.Plain srv) :
    ∃ new, (r.run srv.channel clock s).2.session.log = s.session.log ++ new ∧
      (∀ e ∈ new, Placed r.path e) ∧
      ∀ q, q ≠ ⟨none, r.path.names⟩ →
        (r.run srv.channel clock s).2.session.tree q = s.session.tree q := by
  let home := fun s : FtpFileTransfer Site => ∃ c, PlainPath srv c ∧ At c s
  have hnormal : normalize (ascii "/") = ascii "/" := by decide
  have hnames : (⟨none, names (ascii "/")⟩ : Dir) = Dir.root := by decide
  have hinitial : home
      { FtpFileTransfer.construct (.initial tree) with capabilities := capabilities } :=
    ⟨ascii "/", FileServer.plain_root, hnormal, hnames.symm⟩
  obtain ⟨c, hc, hat⟩ : home s :=
    Machine.run_invariant (fun _ _ _ hs hg h => FileServer.step_home hs hg h) hinitial hguided hrun
  exact (Request.lands clock hc hat hr).1

/-- Knows what there is, and removes it. -/
def factServer : FileServer where
  drives _ := false
  reply _ tree dir line :=
    let kind := tree { dir with comps := enter dir.comps (argument line) }
    if kind = none then (⟨ascii "550 Absent\r\n", 550⟩, [])
    else if verb line = Verb.name .MLST then
      if kind = some .directory then (⟨ascii "250 type=dir; it\r\n", 250⟩, [])
      else (⟨ascii "250 type=file; it\r\n", 250⟩, [])
    else if verb line = Verb.name .SIZE then
      if kind = some .file then (⟨ascii "213 0\r\n", 213⟩, [])
      else (⟨ascii "550 Directory\r\n", 550⟩, [])
    else if verb line = Verb.name .CWD ∧ kind = some .file then (⟨ascii "550 File\r\n", 550⟩, [])
    else (⟨ascii "250 Done\r\n", 250⟩, [])
  data _ _ := .error (.network .CONNECTION_LOST)

def announcing : FtpCapabilities := { FtpCapabilities.default with mlst := true, size := true }

/- After a probe of `/a`, the directory is removed; both are told by `MLST`. -/
theorem commands_placed_remove :
    let start : FtpFileTransfer Site := { atRoot with capabilities := announcing }
    let s := (exists_ factServer.channel (ascii "/a") start).2
    let t := (remove factServer.channel (ascii "/a") s).2
    s.session.log = [⟨Dir.root, ascii "MLST a", 250⟩] ∧
      t.session.log.drop s.session.log.length
        = [⟨Dir.root, ascii "MLST a", 250⟩, ⟨Dir.root, ascii "RMD a", 250⟩] ∧
      ∀ e ∈ t.session.log.drop s.session.log.length, Placed (ascii "/a") e := by
  intro start s t
  let clock : Clock := ⟨0, 0, fun _ => none⟩
  have hplain : PlainPath factServer (ascii "/a") := by
    have hnames : Path.names (ascii "/a") = [ascii "a"] := by decide
    refine ⟨by decide, by decide, by decide, by decide, ?_⟩
    rw [hnames]
    exact List.forall_mem_singleton.mpr rfl
  have hroot : Path.names (ascii "/a") ≠ [] := by decide
  have hguided : Machine.Guarded factServer.step factServer.Guided start
      [((.exists_ (ascii "/a") : Request Unit), clock)] :=
    ⟨⟨⟨hplain, hroot⟩, by decide +kernel, by decide +kernel⟩, fun _ _ => trivial⟩
  have hrun : Machine.run factServer.step start
      [((.exists_ (ascii "/a") : Request Unit), clock)] = some s := by
    rw [Machine.run, FileServer.step_of_ok (by decide +kernel), Option.bind_some, Machine.run,
      Request.run, discard_final]
  obtain ⟨new, hlog, hnew, -⟩ := commands_placed factServer oneDirectory announcing
    [((.exists_ (ascii "/a") : Request Unit), clock)] (.remove (ascii "/a")) clock s hguided hrun
    ⟨hplain, hroot⟩
  rw [Request.run] at hlog
  have hdrop : t.session.log.drop s.session.log.length = new := by rw [hlog, List.drop_left]
  refine ⟨by decide +kernel, by decide +kernel, ?_⟩
  rw [hdrop]
  exact hnew

end NetworkStack.Ftp
