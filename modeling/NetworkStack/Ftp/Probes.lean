import NetworkStack.Ftp.FileServer

/-!
# Where a probe leaves the server

`exists` and `isDirectory` go to the parent directory and ask about the name there.
When nothing else tells, they enter the name by `CWD` and leave it again by `CWD ..`.
-/

namespace NetworkStack.Ftp

open FtpFileTransfer Hoare Path SocketDetail Utility

namespace FileServer

variable (srv : FileServer)

/-! ### The server during a probe -/

def bounce (name : Bytes) (u : Site) : Site :=
  let v := srv.ask u (ascii "CWD " ++ name)
  if (srv.answer u (ascii "CWD " ++ name)).code = 250 then srv.ask v (ascii "CWD " ++ dotdot) else v

/-- A question that is only asked of a capable server: is the answer the wanted one? -/
def asks (capability : Bool) (line : Bytes) (wanted : Answer → Bool) (u : Site) : Bool × Site :=
  if capability then (wanted (srv.answer u line), srv.ask u line) else (false, u)

/-- Is the name entered, and where does the server stand then? -/
def existsProbe (c : FtpCapabilities) (name : Bytes) (u : Site) : Bool × Site :=
  let mlst := srv.asks c.mlst (ascii "MLST " ++ name) (·.code = 250) u
  if mlst.1 then (false, mlst.2)
  else
    let size := srv.asks c.size (ascii "SIZE " ++ name) (·.code = 213) mlst.2
    (!size.1, size.2)

/-- The site after the probe. -/
def settle (name : Bytes) (probe : Bool × Site) : Site :=
  if probe.1 then srv.bounce name probe.2 else probe.2

def isDirectoryProbe (c : FtpCapabilities) (name : Bytes) (u : Site) : Bool × Site :=
  let mlst := srv.asks c.mlst (ascii "MLST " ++ name)
    (fun a => decide (a.code = 250) && (typeIsDir a.full_msg).isSome) u
  (!mlst.1, mlst.2)

/-- If the name is entered, the server gets back to where it was. -/
def Undone (name : Bytes) (u : Site) : Prop :=
  (srv.answer u (ascii "CWD " ++ name)).code = 250 →
    if (srv.answer (srv.ask u (ascii "CWD " ++ name)) (ascii "CWD " ++ dotdot)).code = 250 then
      srv.Reenters u.dir name
    else srv.Remains u.dir name

theorem ask_cwd_dir (u : Site) (name : Bytes) :
    (srv.ask u (ascii "CWD " ++ name)).dir
      = if (srv.answer u (ascii "CWD " ++ name)).code = 250 then srv.enters u.dir name
        else u.dir := by
  have hdir := srv.ask_dir u ⟨.CWD, some name⟩
  rw [argument_text] at hdir
  simp only [true_and] at hdir
  exact hdir

theorem asks_dir (capability : Bool) (l : Line) (hl : l.verb ≠ .CWD) (wanted : Answer → Bool)
    (u : Site) : (srv.asks capability l.text wanted u).2.dir = u.dir := by
  unfold asks
  split
  · show (srv.ask u l.text).dir = u.dir
    rw [ask_dir, if_neg fun h => hl h.1]
  · rfl

/-- If the name is entered, the `CWD ..` is granted. -/
def Restored (name : Bytes) (u : Site) : Prop :=
  (srv.answer u (ascii "CWD " ++ name)).code = 250 →
    (srv.answer (srv.ask u (ascii "CWD " ++ name)) (ascii "CWD " ++ dotdot)).code = 250

variable {srv} {name : Bytes} {u : Site}

theorem bounce_dir_iff (hname : name ≠ []) :
    (srv.bounce name u).dir = u.dir ↔ srv.Undone name u := by
  have henter := srv.ask_cwd_dir u name
  have hleave := srv.ask_cwd_dir (srv.ask u (ascii "CWD " ++ name)) dotdot
  by_cases hcode : (srv.answer u (ascii "CWD " ++ name)).code = 250
  · rw [if_pos hcode] at henter
    rw [henter] at hleave
    have hbounce : (srv.bounce name u).dir
        = (srv.ask (srv.ask u (ascii "CWD " ++ name)) (ascii "CWD " ++ dotdot)).dir := by
      rw [bounce, if_pos hcode]
    rw [hbounce, hleave, Undone, imp_iff_right hcode]
    split
    · exact enters_dotdot_eq_iff hname
    · exact enters_eq_iff hname
  · rw [if_neg hcode] at henter
    have hbounce : (srv.bounce name u).dir = u.dir := by
      rw [bounce, if_neg hcode, henter]
    exact ⟨fun _ h => absurd h hcode, fun _ => hbounce⟩

theorem existsProbe_dir (c : FtpCapabilities) (name : Bytes) (u : Site) :
    (srv.existsProbe c name u).2.dir = u.dir := by
  have hmlst := srv.asks_dir c.mlst ⟨.MLST, some name⟩ (by simp) (·.code = 250) u
  unfold existsProbe
  simp only
  split
  · exact hmlst
  · exact (srv.asks_dir c.size ⟨.SIZE, some name⟩ (by simp) (·.code = 213) _).trans hmlst

theorem settle_dir_iff {probe : Bool × Site} (hname : name ≠ []) :
    (srv.settle name probe).dir = probe.2.dir ↔ (probe.1 = true → srv.Undone name probe.2) := by
  unfold settle
  split
  · rename_i hsent
    rw [bounce_dir_iff hname, imp_iff_right hsent]
  · rename_i hsent
    exact ⟨fun _ h => absurd h hsent, fun _ => rfl⟩

theorem isDirectoryProbe_dir (c : FtpCapabilities) (name : Bytes) (u : Site) :
    (srv.isDirectoryProbe c name u).2.dir = u.dir :=
  srv.asks_dir c.mlst ⟨.MLST, some name⟩ (by simp) _ u

/-! ### The operations on the server -/

variable {s t : FtpFileTransfer Site} {α : Type}

/- An error code is a result. -/
theorem hasValue_eq {σ : Type} {m : Operation σ α} {s t : FtpFileTransfer σ}
    {r : Except ErrorCode α} (h : m s = (r.mapError .error, t)) : hasValue m s = (.ok r, t) := by
  cases r with
  | ok a => simp only [hasValue, attempt, h, Except.mapError]
  | error ec => simp only [hasValue, attempt, h, Except.mapError]

/-- On any channel, once the navigation has worked: the answer is that of the first question
that says yes, and otherwise that of the last one. -/
theorem exists_run {σ : Type} {W : Channel σ} {path : Path} {s t u v w : FtpFileTransfer σ}
    {mlst size result : Except ErrorCode Bool} (hname : path.filename ≠ [])
    (hnav : changeDirectory W path.parent_path s = (.ok (), t))
    (hmlst : ifCapable t.capabilities.mlst (existsMlst W path.filename) t = (.ok mlst, u))
    (hsize : ifCapable t.capabilities.size (existsSize W path.filename) u = (.ok size, v))
    (hcwd : existsCwd W path.filename v = (result.mapError .error, w)) :
    exists_ W path s =
      if mlst.toOption = some true then (.ok true, u)
      else if size.toOption = some true then (.ok true, v)
      else (.ok (result.toOption.getD false), w) := by
  have hcaps : getCapabilities t = (.ok t.capabilities, t) := rfl
  rw [exists_, if_neg hname]
  refine (bind_ok hnav).trans ((bind_ok hcaps).trans ((bind_ok hmlst).trans ?_))
  by_cases hfound : mlst.toOption = some true
  · rw [if_pos hfound, if_pos hfound]
    rfl
  · rw [if_neg hfound, if_neg hfound]
    refine (bind_ok hsize).trans ?_
    by_cases hfile : size.toOption = some true
    · rw [if_pos hfile, if_pos hfile]
      rfl
    · rw [if_neg hfile, if_neg hfile]
      exact bind_ok (hasValue_eq hcwd)

theorem probe_eq {cmd : Bytes} (h : CrlfFree cmd) (yes : ℕ) (no : List ℕ)
    (s : FtpFileTransfer Site) :
    ∃ r : Except ErrorCode Bool,
      probe srv.channel cmd yes no s
        = (r.mapError .error, s.withSession (srv.ask s.session cmd)) ∧
      (r = .ok true ↔ (srv.answer s.session cmd).code = yes) := by
  have hrun : probe srv.channel cmd yes no s = _ := bind_ok (srv.command_eq h s)
  by_cases hyes : (srv.answer s.session cmd).code = yes
  · refine ⟨.ok true, hrun.trans ?_, by simp [hyes]⟩
    rw [if_pos hyes]
    rfl
  · by_cases hno : (srv.answer s.session cmd).code ∈ no
    · refine ⟨.ok false, hrun.trans ?_, by simp [hyes]⟩
      rw [if_neg hyes, if_pos hno]
      rfl
    · refine ⟨.error (.network .PROTOCOL_ERROR), hrun.trans ?_, by simp [hyes]⟩
      rw [if_neg hyes, if_neg hno]
      rfl

/- Whatever the server says to the `CWD ..`. -/
theorem restore_eq (s : FtpFileTransfer Site) :
    ∃ r, hasValue (control (srv.channel.ftpCd dotdot)) s
        = (.ok r, s.withSession (srv.ask s.session (ascii "CWD " ++ dotdot))) ∧
      (r = .ok () → (srv.answer s.session (ascii "CWD " ++ dotdot)).code = 250) := by
  have hline : CrlfFree (ascii "CWD " ++ dotdot) := by decide
  have hrun : srv.channel.ftpCd dotdot s.session = _ :=
    bind_ok (srv.sendAndReceive_eq hline s.session)
  by_cases hcode : (srv.answer s.session (ascii "CWD " ++ dotdot)).code ≠ 250
  · refine ⟨.error (.network .PROTOCOL_ERROR), hasValue_eq ?_, fun hr => by cases hr⟩
    simp only [FtpFileTransfer.control, zoom, hrun, if_pos hcode]
    rfl
  · refine ⟨.ok (), hasValue_eq ?_, fun _ => not_not.mp hcode⟩
    simp only [FtpFileTransfer.control, zoom, hrun, if_neg hcode]
    rfl

theorem crlfFree_command {v : Verb} {name : Bytes} (h : CrlfFree name) :
    CrlfFree (Line.text ⟨v, some name⟩) :=
  crlfFree_line fun _ ha => Option.some.inj ha ▸ h

section Cwd

variable (h : CrlfFree name) (s : FtpFileTransfer Site)

include h

theorem existsCwd_eq :
    ∃ r : Except ErrorCode Bool,
      existsCwd srv.channel name s
        = (r.mapError .error, s.withSession (srv.bounce name s.session)) ∧
      (r = .ok true ↔ (srv.answer s.session (ascii "CWD " ++ name)).code = 250) := by
  have hline : CrlfFree (ascii "CWD " ++ name) := crlfFree_command (v := .CWD) h
  obtain ⟨r, hprobe, hr⟩ := srv.probe_eq hline 250 [550] s
  cases r with
  | error ec =>
    refine ⟨.error ec, ?_, hr⟩
    have hcode : ¬(srv.answer s.session (ascii "CWD " ++ name)).code = 250 := by simpa using hr
    rw [bounce, if_neg hcode]
    exact bind_error hprobe
  | ok entered =>
    cases entered with
    | false =>
      refine ⟨.ok false, ?_, hr⟩
      have hcode : ¬(srv.answer s.session (ascii "CWD " ++ name)).code = 250 := by simpa using hr
      rw [bounce, if_neg hcode]
      exact bind_ok hprobe
    | true =>
      refine ⟨.ok true, ?_, hr⟩
      have hcode : (srv.answer s.session (ascii "CWD " ++ name)).code = 250 := by simpa using hr
      obtain ⟨r, hrestore, -⟩ :=
        srv.restore_eq (s.withSession (srv.ask s.session (ascii "CWD " ++ name)))
      rw [bounce, if_pos hcode]
      exact (bind_ok hprobe).trans (bind_ok hrestore)

/- The name is not entered, and may be a file's. -/
theorem isDirectoryCwd_refused
    (hcode : ¬(srv.answer s.session (ascii "CWD " ++ name)).code = 250) :
    ∃ (r : Except ErrorCode Bool) (v : Site),
      isDirectoryCwd srv.channel name s = (r.mapError .error, s.withSession v) ∧
      (v = srv.ask s.session (ascii "CWD " ++ name) ∨
        v = srv.ask (srv.ask s.session (ascii "CWD " ++ name)) (ascii "SIZE " ++ name)) := by
  have hline : CrlfFree (ascii "CWD " ++ name) := crlfFree_command (v := .CWD) h
  have hsize : CrlfFree (ascii "SIZE " ++ name) := crlfFree_command (v := .SIZE) h
  obtain ⟨r, hprobe, hr⟩ := srv.probe_eq hline 250 [550] s
  cases r with
  | error ec => exact ⟨.error ec, _, bind_error hprobe, .inl rfl⟩
  | ok entered =>
    obtain rfl : entered = false := by
      cases entered with
      | false => rfl
      | true => exact absurd (hr.mp rfl) hcode
    have hcaps : getCapabilities (s.withSession (srv.ask s.session (ascii "CWD " ++ name)))
        = (.ok s.capabilities, s.withSession (srv.ask s.session (ascii "CWD " ++ name))) := rfl
    have hrun : isDirectoryCwd srv.channel name s = _ := (bind_ok hprobe).trans (bind_ok hcaps)
    cases hcapable : s.capabilities.size with
    | false =>
      rw [hcapable] at hrun
      exact ⟨.error (.network .PROTOCOL_ERROR), _, hrun, .inl rfl⟩
    | true =>
      rw [hcapable] at hrun
      obtain ⟨r, hask, -⟩ := srv.probe_eq hsize 213 [550, 500]
        (s.withSession (srv.ask s.session (ascii "CWD " ++ name)))
      cases r with
      | error ec => exact ⟨.error ec, _, hrun.trans (bind_error hask), .inr rfl⟩
      | ok isFile =>
        cases isFile with
        | true => exact ⟨.ok false, _, hrun.trans (bind_ok hask), .inr rfl⟩
        | false =>
          exact ⟨.error (.network .PROTOCOL_ERROR), _, hrun.trans (bind_ok hask), .inr rfl⟩

/- A value means that the `CWD ..` was granted, if there was one. -/
theorem isDirectoryCwd_eq :
    ∃ (r : Except ErrorCode Bool) (v : Site),
      isDirectoryCwd srv.channel name s = (r.mapError .error, s.withSession v) ∧
      (v = srv.bounce name s.session ∨
        v = srv.ask (srv.bounce name s.session) (ascii "SIZE " ++ name)) ∧
      (∀ b, r = .ok b → srv.Restored name s.session) := by
  have hline : CrlfFree (ascii "CWD " ++ name) := crlfFree_command (v := .CWD) h
  obtain ⟨r, hprobe, hr⟩ := srv.probe_eq hline 250 [550] s
  by_cases hcode : (srv.answer s.session (ascii "CWD " ++ name)).code = 250
  · obtain rfl : r = .ok true := hr.mpr hcode
    obtain ⟨restored, hrestore, hgranted⟩ :=
      srv.restore_eq (s.withSession (srv.ask s.session (ascii "CWD " ++ name)))
    have hbounce : srv.bounce name s.session
        = srv.ask (srv.ask s.session (ascii "CWD " ++ name)) (ascii "CWD " ++ dotdot) := by
      rw [bounce, if_pos hcode]
    rw [hbounce]
    cases restored with
    | error ec =>
      refine ⟨.error (.network .PROTOCOL_ERROR), _, ?_, .inl rfl, fun b hb => by cases hb⟩
      exact (bind_ok hprobe).trans (bind_ok hrestore)
    | ok _ =>
      refine ⟨.ok true, _, ?_, .inl rfl, fun _ _ _ => hgranted rfl⟩
      exact (bind_ok hprobe).trans (bind_ok hrestore)
  · have hbounce : srv.bounce name s.session = srv.ask s.session (ascii "CWD " ++ name) := by
      rw [bounce, if_neg hcode]
    rw [hbounce]
    obtain ⟨r, v, hrun, hv⟩ := isDirectoryCwd_refused h s hcode
    exact ⟨r, v, hrun, hv, fun _ _ hcode' => absurd hcode' hcode⟩

end Cwd

theorem ifCapable_eq {m : Operation Site Bool} {capability : Bool} {line : Bytes}
    (wanted : Answer → Bool)
    (hm : capability = true → ∃ r : Except ErrorCode Bool,
      m s = (r.mapError .error, s.withSession (srv.ask s.session line)) ∧
      (r = .ok true ↔ wanted (srv.answer s.session line) = true)) :
    ∃ r, ifCapable capability m s
        = (.ok r, s.withSession (srv.asks capability line wanted s.session).2) ∧
      (r.toOption = some true ↔ (srv.asks capability line wanted s.session).1 = true) := by
  cases capability with
  | false => exact ⟨.ok false, rfl, by simp [asks, Except.toOption]⟩
  | true =>
    obtain ⟨r, hrun, hr⟩ := hm rfl
    refine ⟨r, hasValue_eq hrun, ?_⟩
    simp only [asks, if_true, ← hr]
    cases r <;> simp [Except.toOption]

variable (srv) in
theorem existsMlst_eq (h : CrlfFree name) (s : FtpFileTransfer Site)
    (hcapable : s.capabilities.mlst = true) :
    ∃ r : Except ErrorCode Bool,
      existsMlst srv.channel name s
        = (r.mapError .error, s.withSession (srv.ask s.session (ascii "MLST " ++ name))) ∧
      (r = .ok true ↔
        decide ((srv.answer s.session (ascii "MLST " ++ name)).code = 250) = true) := by
  obtain ⟨r, hrun, hr⟩ := srv.probe_eq (crlfFree_command (v := .MLST) h) 250 [550] s
  refine ⟨r, Eq.trans ?_ hrun, hr.trans decide_eq_true_iff.symm⟩
  have hcaps : getCapabilities s = (.ok s.capabilities, s) := rfl
  refine (bind_ok hcaps).trans ?_
  rw [hcapable]
  rfl

variable (srv) in
theorem existsSize_eq (h : CrlfFree name) (s : FtpFileTransfer Site) :
    ∃ r : Except ErrorCode Bool,
      existsSize srv.channel name s
        = (r.mapError .error, s.withSession (srv.ask s.session (ascii "SIZE " ++ name))) ∧
      (r = .ok true ↔
        decide ((srv.answer s.session (ascii "SIZE " ++ name)).code = 213) = true) := by
  obtain ⟨r, hrun, hr⟩ := srv.probe_eq (crlfFree_command (v := .SIZE) h) 213 [550, 500] s
  exact ⟨r, hrun, hr.trans decide_eq_true_iff.symm⟩

variable (srv) in
theorem isDirectoryMlst_eq (h : CrlfFree name) (s : FtpFileTransfer Site)
    (hcapable : s.capabilities.mlst = true) :
    ∃ r : Except ErrorCode Bool,
      isDirectoryMlst srv.channel name s
        = (r.mapError .error, s.withSession (srv.ask s.session (ascii "MLST " ++ name))) ∧
      r.toOption.isSome
        = (decide ((srv.answer s.session (ascii "MLST " ++ name)).code = 250)
          && (typeIsDir (srv.answer s.session (ascii "MLST " ++ name)).full_msg).isSome) := by
  have hcaps : getCapabilities s = (.ok s.capabilities, s) := rfl
  have hline : CrlfFree (ascii "MLST " ++ name) := crlfFree_command (v := .MLST) h
  have hrun : isDirectoryMlst srv.channel name s = _ := bind_ok hcaps
  rw [hcapable, if_neg (by decide)] at hrun
  by_cases hcode : (srv.answer s.session (ascii "MLST " ++ name)).code = 250
  · cases hfact : typeIsDir (srv.answer s.session (ascii "MLST " ++ name)).full_msg with
    | none =>
      refine ⟨.error (.network .PROTOCOL_ERROR), ?_, by simp [Except.toOption]⟩
      refine hrun.trans ((bind_ok (srv.command_eq hline s)).trans ?_)
      simp only [if_pos hcode, hfact]
      rfl
    | some isDir =>
      refine ⟨.ok isDir, ?_, by simp [Except.toOption, hcode]⟩
      refine hrun.trans ((bind_ok (srv.command_eq hline s)).trans ?_)
      simp only [if_pos hcode, hfact]
      rfl
  · refine ⟨.error (.network .PROTOCOL_ERROR), ?_, by simp [Except.toOption, hcode]⟩
    refine hrun.trans ((bind_ok (srv.command_eq hline s)).trans ?_)
    rw [if_neg hcode]
    rfl

section Probing

variable {path : Path} (hname : path.filename ≠ []) (hpath : CrlfFree path)
  (hnav : changeDirectory srv.channel path.parent_path s = (.ok (), t))

include hname hpath hnav

/- The name is reported missing exactly when it was to be entered and was not. -/
theorem exists_eq :
    ∃ b, exists_ srv.channel path s = (.ok b, t.withSession
        (srv.settle path.filename (srv.existsProbe t.capabilities path.filename t.session))) ∧
      (b = false ↔ (srv.existsProbe t.capabilities path.filename t.session).1 = true ∧
        (srv.answer (srv.existsProbe t.capabilities path.filename t.session).2
          (ascii "CWD " ++ path.filename)).code ≠ 250) := by
  have hfree : CrlfFree path.filename := hpath.of_isInfix (filename_isInfix path)
  obtain ⟨mlst, hfirst, hmlst⟩ := ifCapable_eq (fun a => a.code = 250)
    (srv.existsMlst_eq hfree t)
  let u := (srv.asks t.capabilities.mlst (ascii "MLST " ++ path.filename)
    (fun a => decide (a.code = 250)) t.session).2
  obtain ⟨size, hsecond, hsize⟩ := ifCapable_eq (fun a => a.code = 213)
    fun _ : t.capabilities.size = true => srv.existsSize_eq hfree (t.withSession u)
  let v := (srv.asks t.capabilities.size (ascii "SIZE " ++ path.filename)
    (fun a => decide (a.code = 213)) u).2
  obtain ⟨r, hcwd, hr⟩ := srv.existsCwd_eq hfree (t.withSession v)
  rw [exists_run hname hnav hfirst hsecond hcwd]
  by_cases hfound : mlst.toOption = some true
  · have hprobe : srv.existsProbe t.capabilities path.filename t.session = (false, u) := by
      rw [existsProbe, if_pos (hmlst.mp hfound)]
    refine ⟨true, ?_, by simp [hprobe]⟩
    rw [if_pos hfound, hprobe]
    rfl
  · have hprobe : ∀ b, (size.toOption = some true ↔ b = true) →
        srv.existsProbe t.capabilities path.filename t.session = (!b, v) := by
      intro b hb
      rw [existsProbe, if_neg fun h => hfound (hmlst.mpr h),
        Bool.eq_iff_iff.mpr (hb.symm.trans hsize)]
      rfl
    rw [if_neg hfound]
    by_cases hfile : size.toOption = some true
    · rw [hprobe true (iff_of_true hfile rfl)]
      refine ⟨true, ?_, by simp⟩
      rw [if_pos hfile]
      rfl
    · rw [hprobe false (iff_of_false hfile Bool.false_ne_true)]
      have hrefused : r.toOption.getD false = false ↔ r ≠ .ok true := by
        cases r <;> simp [Except.toOption]
      refine ⟨r.toOption.getD false, ?_, ?_⟩
      · rw [if_neg hfile]
        rfl
      · rw [hrefused, Ne, hr]
        exact (and_iff_right rfl).symm

theorem isDirectory_eq :
    ∃ (r : Except ErrorCode Bool) (v : Site),
      isDirectory srv.channel path s = (r.mapError .error, t.withSession v) ∧
      (v = srv.settle path.filename (srv.isDirectoryProbe t.capabilities path.filename t.session) ∨
        v = srv.ask (srv.settle path.filename
            (srv.isDirectoryProbe t.capabilities path.filename t.session))
          (ascii "SIZE " ++ path.filename)) ∧
      (∀ b, r = .ok b → (srv.isDirectoryProbe t.capabilities path.filename t.session).1 = true →
        srv.Restored path.filename
          (srv.isDirectoryProbe t.capabilities path.filename t.session).2) := by
  have hfree : CrlfFree path.filename := hpath.of_isInfix (filename_isInfix path)
  have hcaps : getCapabilities t = (.ok t.capabilities, t) := rfl
  rw [isDirectory, if_neg hname]
  cases hcapable : t.capabilities.mlst with
  | false =>
    have hprobe : srv.isDirectoryProbe t.capabilities path.filename t.session
        = (true, t.session) := by
      rw [isDirectoryProbe, hcapable]
      rfl
    rw [hprobe]
    obtain ⟨r, v, hcwd, hv, hr⟩ := srv.isDirectoryCwd_eq hfree t
    refine ⟨r, v, ?_, hv, fun b hb _ => hr b hb⟩
    refine (bind_ok hnav).trans ((bind_ok hcaps).trans ?_)
    rw [hcapable]
    exact hcwd
  | true =>
    obtain ⟨told, hmlst, htold⟩ := srv.isDirectoryMlst_eq hfree t hcapable
    have hprobe : srv.isDirectoryProbe t.capabilities path.filename t.session
        = (!told.toOption.isSome, srv.ask t.session (ascii "MLST " ++ path.filename)) := by
      rw [isDirectoryProbe, hcapable, htold]
      rfl
    rw [hprobe]
    cases told with
    | ok isDir =>
      refine ⟨.ok isDir, _, ?_, .inl rfl, fun _ _ h => by cases h⟩
      refine (bind_ok hnav).trans ((bind_ok hcaps).trans ?_)
      rw [hcapable]
      exact bind_ok (hasValue_eq hmlst)
    | error ec =>
      obtain ⟨r, v, hcwd, hv, hr⟩ := srv.isDirectoryCwd_eq hfree
        (t.withSession (srv.ask t.session (ascii "MLST " ++ path.filename)))
      refine ⟨r, v, ?_, hv, fun b hb _ => hr b hb⟩
      refine (bind_ok hnav).trans ((bind_ok hcaps).trans ?_)
      rw [hcapable]
      exact (bind_ok (hasValue_eq hmlst)).trans hcwd

end Probing

end FileServer

/-! ### Back again -/

/-- The tracked directory is the server's; a relative one starts from `base`. -/
def InSync (base : Dir) (s : FtpFileTransfer Site) : Prop :=
  resolve base s.navigator.current = s.session.dir

instance (base : Dir) (s : FtpFileTransfer Site) : Decidable (InSync base s) :=
  inferInstanceAs (Decidable (_ = _))

theorem probes_restore_iff (srv : FileServer) (base : Dir) (s t : FtpFileTransfer Site)
    (path : Path) (hpath : CrlfFree path) (hsync : InSync base s)
    (hnav : changeDirectory srv.channel path.parent_path s = (.ok (), t))
    (harrived : InSync base t) :
    (InSync base (exists_ srv.channel path s).2 ↔
      (path.filename ≠ [] → (srv.existsProbe t.capabilities path.filename t.session).1 = true →
        srv.Undone path.filename (srv.existsProbe t.capabilities path.filename t.session).2)) ∧
    (InSync base (isDirectory srv.channel path s).2 ↔
      (path.filename ≠ [] → (srv.isDirectoryProbe t.capabilities path.filename t.session).1 = true →
        srv.Undone path.filename
          (srv.isDirectoryProbe t.capabilities path.filename t.session).2)) := by
  by_cases hname : path.filename = []
  · have hexists : (exists_ srv.channel path s).2 = s := by
      rw [exists_, if_pos hname]
      rfl
    have hisDirectory : (isDirectory srv.channel path s).2 = s := by
      rw [isDirectory, if_pos hname]
      rfl
    rw [hexists, hisDirectory]
    exact ⟨⟨fun _ h => absurd hname h, fun _ => hsync⟩, ⟨fun _ h => absurd hname h, fun _ => hsync⟩⟩
  · have hstays : ∀ v : Site, InSync base (t.withSession v) ↔ v.dir = t.session.dir := by
      intro v
      show resolve base t.navigator.current = v.dir ↔ _
      rw [harrived, eq_comm]
    rw [imp_iff_right hname, imp_iff_right hname]
    refine ⟨?_, ?_⟩
    · obtain ⟨b, hrun, -⟩ := srv.exists_eq hname hpath hnav
      rw [hrun, hstays, ← srv.existsProbe_dir t.capabilities path.filename t.session]
      exact srv.settle_dir_iff hname
    · obtain ⟨r, v, hrun, hv, -⟩ := srv.isDirectory_eq hname hpath hnav
      have hdir : v.dir = (srv.settle path.filename
          (srv.isDirectoryProbe t.capabilities path.filename t.session)).dir := by
        rcases hv with rfl | rfl
        · rfl
        · exact (srv.ask_dir _ ⟨.SIZE, some path.filename⟩).trans (if_neg fun h => by cases h.1)
      rw [hrun, hstays, hdir, ← srv.isDirectoryProbe_dir t.capabilities path.filename t.session]
      exact srv.settle_dir_iff hname

/-! ### One directory -/

/-- The root and `/a`. -/
def oneDirectory : Tree := fun dir =>
  if dir = Dir.root ∨ dir = ⟨none, [ascii "a"]⟩ then some .directory else none

/-- Grants `CWD` to every directory and knows no other command. -/
def cwdServer : FileServer where
  drives _ := false
  reply _ tree dir line :=
    if verb line = Verb.name .CWD then
      if tree { dir with comps := enter dir.comps (argument line) } = some .directory then
        (⟨ascii "250 Moved\r\n", 250⟩, [])
      else (⟨ascii "550 Absent\r\n", 550⟩, [])
    else (⟨ascii "500 Unknown\r\n", 500⟩, [])
  data _ _ := .error (.network .CONNECTION_LOST)

theorem cwdServer_truthful : cwdServer.Truthful := by
  have hunknown : ∀ v : Verb, v ≠ .CWD → ∀ i tree dir name,
      (cwdServer.reply i tree dir (Line.text ⟨v, some name⟩)).1.code = 500 := by
    intro v hv i tree dir name
    have hverb : verb (Line.text ⟨v, some name⟩) ≠ Verb.name .CWD := by
      rw [verb_text]
      exact fun h => hv (Verb.name_injective h)
    simp only [cwdServer, if_neg hverb]
  refine ⟨fun i tree dir name h => ?_, fun i tree dir name h => ?_, fun i tree dir name h => ?_⟩
  · have hverb : verb (ascii "CWD " ++ name) = Verb.name .CWD := verb_text ⟨.CWD, some name⟩
    have hargument : argument (ascii "CWD " ++ name) = name := argument_text .CWD name
    simp only [cwdServer, if_pos hverb, hargument] at h
    split at h
    · assumption
    · cases h
  · cases (hunknown .MLST (by decide) i tree dir name).symm.trans h
  · cases (hunknown .SIZE (by decide) i tree dir name).symm.trans h

def atRoot : FtpFileTransfer Site := .construct (.initial oneDirectory)

/- The directory is entered and left again. -/
theorem probes_restore_entered :
    InSync Dir.root (exists_ cwdServer.channel (ascii "/a") atRoot).2 ∧
      InSync Dir.root (isDirectory cwdServer.channel (ascii "/a") atRoot).2 := by
  have hnav : changeDirectory cwdServer.channel (parent_path (ascii "/a")) atRoot
      = (.ok (), atRoot) := rfl
  have hundone : cwdServer.Undone (ascii "a") atRoot.session := by
    intro _
    rw [if_pos (by decide +kernel), FileServer.Reenters, if_neg (by decide)]
    exact .inl ⟨by decide, by decide⟩
  obtain ⟨hexists, hisDirectory⟩ := probes_restore_iff cwdServer Dir.root atRoot atRoot
    (ascii "/a") (by decide) (by decide) hnav (by decide)
  exact ⟨hexists.mpr fun _ _ => hundone, hisDirectory.mpr fun _ _ => hundone⟩

/- In `/a` the name `.` is entered, and left by going up to the root. -/
theorem dot_probe_strands :
    let t := (changeDirectory cwdServer.channel (parent_path (ascii "/a/.")) atRoot).2
    let u := (exists_ cwdServer.channel (ascii "/a/.") atRoot).2
    cwdServer.Truthful ∧ InSync Dir.root atRoot ∧
      (changeDirectory cwdServer.channel (parent_path (ascii "/a/.")) atRoot).1 = .ok () ∧
      InSync Dir.root t ∧ u.navigator.current = ascii "/a" ∧ u.session.dir = Dir.root ∧
      ¬InSync Dir.root u := by
  refine ⟨cwdServer_truthful, ?_⟩
  decide +kernel

end NetworkStack.Ftp
