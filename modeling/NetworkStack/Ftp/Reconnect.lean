import NetworkStack.Ftp.Session

/-!
# What a reconnect leaves behind

An object that has been used before is connected again, next to a new one that gets
the same replies. `connect` replaces the socket; the tracked directory, the
capabilities and the options are carried over.
-/

namespace NetworkStack.Ftp

open FtpFileTransfer Hoare SocketDetail Utility

/-! ### Capability flags -/

inductive Feature where
  | mlst | nlst | list_cmd | size | mdtm | rename | epsv | pasv | feat
  deriving DecidableEq

def FtpCapabilities.has (c : FtpCapabilities) : Feature → Bool
  | .mlst => c.mlst
  | .nlst => c.nlst
  | .list_cmd => c.list_cmd
  | .size => c.size
  | .mdtm => c.mdtm
  | .rename => c.rename
  | .epsv => c.epsv
  | .pasv => c.pasv
  | .feat => c.feat

theorem FtpCapabilities.ext_has {c d : FtpCapabilities} (h : ∀ f, c.has f = d.has f) : c = d := by
  obtain ⟨_, _, _, _, _, _, _, _, _⟩ := c
  obtain ⟨_, _, _, _, _, _, _, _, _⟩ := d
  simp only [FtpCapabilities.mk.injEq]
  exact ⟨h .mlst, h .nlst, h .list_cmd, h .size, h .mdtm, h .rename, h .epsv, h .pasv, h .feat⟩

/-- The flag a line of the FEAT reply sets. -/
def keyword (line : Bytes) : Option Feature :=
  if ascii "MLST" <+: line then some .mlst
  else if ascii "NLST" <+: line then some .nlst
  else if ascii "SIZE" <+: line then some .size
  else if ascii "MDTM" <+: line then some .mdtm
  else if ascii "RENAME" <+: line then some .rename
  else if ascii "PASV" <+: line then some .pasv
  else if ascii "FEAT" <+: line then some .feat
  else none

def announces (feat_response : Bytes) (f : Feature) : Bool :=
  (featureLines feat_response).any fun line => keyword line = some f

/-- The features of the reply a connection has seen last. -/
def announced (transcript : List Traffic) (f : Feature) : Bool :=
  match transcript.getLast? with
  | some (.answer a) => a.code = 211 && announces a.full_msg f
  | _ => false

theorem announce_has (c : FtpCapabilities) (line : Bytes) (f : Feature) :
    (c.announce line).has f = (c.has f || decide (keyword line = some f)) := by
  unfold FtpCapabilities.announce keyword
  split_ifs <;> cases f <;> simp [FtpCapabilities.has]

/- No line clears a flag. -/
theorem parseFeatures_has (c : FtpCapabilities) (feat_response : Bytes) (f : Feature) :
    (parseFeatures c feat_response).has f = (c.has f || announces feat_response f) := by
  unfold parseFeatures announces
  induction featureLines feat_response generalizing c with
  | nil => simp
  | cons line lines ih =>
    rw [List.foldl_cons, ih, announce_has, List.any_cons, Bool.or_assoc]

/-! ### What `connect` does to the rest of the object -/

/-- What the last exchange left in the transcript. -/
theorem exchange_last (net : Network) (cmd : Bytes) :
    Triple (fun _ => True) ((Control.channel net).sendAndReceiveResponse cmd)
      (fun a c => c.transcript.getLast? = some (.answer a))
      fun e c => ∀ ec, e = .error ec → c.transcript.getLast? = some (.command cmd) := by
  have hsend : Triple (fun _ => True) ((Control.channel net).sendCommand cmd)
      (fun _ c => c.transcript.getLast? = some (.command cmd))
      fun e c => ∀ ec, e = .error ec → c.transcript.getLast? = some (.command cmd) := by
    intro c _
    cases hsock : c.socket with
    | none =>
      rw [Control.sendCommand_none cmd hsock]
      exact fun ec hec => by cases hec
    | some sock =>
      rw [Control.sendCommand_some cmd hsock]
      cases asyncWriteAllCommon sock (cmd ++ crlf) with
      | mk r t => cases r <;> simp [Control.log, Except.map, Except.mapError]
  refine Triple.bind hsend fun _ c hc => ?_
  cases hsock : c.socket with
  | none =>
    rw [Control.receiveResponse_none hsock]
    exact fun ec hec => by cases hec
  | some sock =>
    rw [Control.receiveResponse_some hsock]
    cases receiveResponse sock with
    | none => exact fun ec hec => by cases hec
    | some x =>
      obtain ⟨r, t⟩ := x
      cases r with
      | ok a => simp [Control.log, Except.toOption]
      | error e => simpa [Control.log, Except.toOption] using fun _ _ => hc

/-- The object still tracks `p` and has the flags `c`. -/
def Tracks (p : Path) (c : FtpCapabilities) (s : FtpFileTransfer Control) : Prop :=
  s.navigator.current = p ∧ s.capabilities = c

section Frame

variable {p : Path} {c : FtpCapabilities} {α : Type}

/- Nothing that only uses the control channel touches them. -/
theorem tracks_control {m : Act Control Exit α} {Q : α → Control → Prop}
    {E : Exit → Control → Prop} (hm : Triple (fun _ => True) m Q E) :
    Triple (Tracks p c) (control m) (fun a s => Tracks p c s ∧ Q a s.session)
      fun e s => Tracks p c s ∧ E e s.session := by
  intro s hs
  have hrun := hm s.session trivial
  simp only [FtpFileTransfer.control, zoom]
  cases hms : m s.session with
  | mk r t =>
    rw [hms] at hrun
    cases r with
    | ok a => exact ⟨hs, hrun⟩
    | error e => exact ⟨hs, hrun⟩

theorem keeps_tracks_control (m : Act Control Exit α) : Keeps (Tracks p c) (control m) := by
  have htrue : Triple (fun _ => True) m (fun _ _ => True) fun _ _ => True :=
    .of_cases (fun _ _ _ _ _ => trivial) fun _ _ _ _ _ => trivial
  exact Triple.mono (tracks_control htrue) (fun _ hs => hs) (fun _ _ hs => hs.1) fun _ _ hs => hs.1

theorem keeps_tracks_login (net : Network) (cmd : Bytes) (accepted : List ℕ) :
    Keeps (Tracks p c) (login net cmd accepted) := by
  refine (keeps_tracks_control _).attempt.bind fun cmd_result => ?_
  have hfail : ∀ e, Keeps (Tracks p c)
      (do control Control.reset; stop e : Operation Control Unit) := fun e =>
    (keeps_tracks_control _).bind fun _ => keeps_stop e
  cases cmd_result with
  | error ec => exact hfail _
  | ok a => exact .ite (keeps_pure ()) (hfail _)

/- The flags the reply announces come on top of those that are set. -/
theorem feat_tracks (net : Network) :
    Triple (Tracks p c) (feat net)
      (fun _ s => s.navigator.current = p ∧
        ∀ f, s.capabilities.has f = (c.has f || announced s.session.transcript f))
      fun _ _ => True := by
  refine Triple.bind (Triple.mono (Triple.attempt (tracks_control (exchange_last net _)))
    (fun _ hs => hs) (fun _ _ hs => hs) fun _ _ _ => trivial) fun feat_result => ?_
  cases feat_result with
  | error ec =>
    rintro s ⟨e, he, ⟨hcurrent, rfl⟩, hlast⟩
    refine ⟨hcurrent, fun f => ?_⟩
    cases e with
    | error ec' => simp [announced, hlast ec' rfl]
    | threw => cases he
    | undefined => cases he
    | blocked => cases he
  | ok a =>
    refine .ite (fun hcode => ?_) fun hcode => ?_
    · rintro s ⟨⟨hcurrent, rfl⟩, hlast⟩
      refine ⟨hcurrent, fun f => ?_⟩
      have hannounced : announced s.session.transcript f = announces a.full_msg f := by
        simp [announced, hlast, hcode]
      exact (parseFeatures_has _ _ f).trans (congrArg _ hannounced.symm)
    · rintro s ⟨⟨hcurrent, rfl⟩, hlast⟩
      refine ⟨hcurrent, fun f => ?_⟩
      simp [announced, hlast, hcode]

end Frame

theorem connect_tracks {net : Network} {opts : ConnectOptions} {s s' : FtpFileTransfer Control}
    (h : connect net opts s = (.ok (), s')) :
    s'.navigator.current = s.navigator.current ∧
      ∀ f, s'.capabilities.has f = (s.capabilities.has f || announced s'.session.transcript f) := by
  have hcredential : ∀ verb value accepted,
      Triple (Tracks s.navigator.current s.capabilities) (credential net verb value accepted)
        (fun _ => Tracks s.navigator.current s.capabilities) fun _ _ => True := by
    intro verb value accepted
    have hkeeps : Keeps (Tracks s.navigator.current s.capabilities)
        (credential net verb value accepted) :=
      .ite (keeps_tracks_login net _ _) (keeps_pure ())
    exact hkeeps.mono (fun _ hs => hs) (fun _ _ hs => hs) fun _ _ _ => trivial
  have hcontrol : ∀ m : Act Control Exit Unit,
      Triple (Tracks s.navigator.current s.capabilities) (control m)
        (fun _ => Tracks s.navigator.current s.capabilities) fun _ _ => True := fun m =>
    (keeps_tracks_control m).mono (fun _ hs => hs) (fun _ _ hs => hs) fun _ _ _ => trivial
  have hconnect := (hcontrol (Control.dial net)).bind fun _ =>
    (hcontrol Control.greeting).bind fun _ =>
      (hcredential (ascii "USER ") opts.username [331, 230]).bind fun _ =>
      (hcredential (ascii "PASS ") opts.password [230, 231]).bind fun _ => feat_tracks net
  exact hconnect.ok ⟨rfl, rfl⟩ h

/-! ### Options -/

variable {γ : Type}

/- Nothing assigns `_options`. -/
theorem call_options (net : Network) (c : Call γ) (s : FtpFileTransfer Control) :
    (c.run net s).2.session.options = s.session.options := by
  let I := fun c : Control => c.options = s.session.options
  have hkeeps : ∀ allowed, ChannelKeeps (Control.channel net) I allowed := fun allowed =>
    channelKeeps_of (fun _ _ hc => hc) (fun _ _ _ _ _ _ hc _ _ => hc) (fun _ _ _ _ _ hc _ => hc)
      (fun _ hc => hc) fun _ hc => hc
  have hstart : I s.session := rfl
  cases c with
  | connect opts =>
    exact (connect_spec (hkeeps fun _ => True) (fun _ hc => hc) (fun _ hc => hc)
      (fun _ _ => trivial) (keeps_greeting (fun _ _ hc => hc) fun _ _ _ _ hc _ => hc)
      (fun _ _ hc _ => hc) fun _ hc => hc).final hstart
  | request r clock => exact ((hkeeps r.Sends).request clock).final hstart

theorem run_options {net : Network} {calls : List (Call γ)} {s t : FtpFileTransfer Control}
    (h : Machine.run (Call.step net) s calls = some t) :
    t.session.options = s.session.options := by
  let inv := fun u : FtpFileTransfer Control => u.session.options = s.session.options
  show inv t
  have hstep : ∀ u (c : Call γ) v, inv u → True → c.step net u = some v → inv v := by
    intro u c v hu _ hv
    rw [← Call.step_eq_some hv]
    exact (call_options net c u).trans hu
  have hguard : Machine.Guarded (Call.step net) (fun _ (_ : Call γ) => True) s calls :=
    Machine.guarded_of_forall fun _ _ _ => trivial
  exact Machine.run_invariant hstep rfl hguard h

/-! ### Waits -/

def ConnectOptions.Gives (opts : ConnectOptions) (w : Wait) : Prop :=
  w = .control (some opts.timeout) ∨ w = .data (opts.data_timeout.getD opts.timeout)

/-- The waits since `base` have been given the timeouts of the options `opts`. -/
def Control.Waited (opts : ConnectOptions) (base : List Wait) (c : Control) : Prop :=
  c.options = opts ∧ ∃ waits, c.waits = base ++ waits ∧ ∀ w ∈ waits, opts.Gives w

theorem Control.Waited.more {opts : ConnectOptions} {base : List Wait} {c d : Control} {w : Wait}
    (h : c.Waited opts base) (hoptions : d.options = c.options) (hwaits : d.waits = c.waits ++ [w])
    (hw : opts.Gives w) : d.Waited opts base := by
  obtain ⟨hopts, waits, hbase, hall⟩ := h
  refine ⟨hoptions.trans hopts, waits ++ [w], by rw [hwaits, hbase, List.append_assoc], ?_⟩
  exact List.forall_mem_append.mpr ⟨hall, List.forall_mem_singleton.mpr hw⟩

theorem channelKeeps_waited (net : Network) (opts : ConnectOptions) (base : List Wait)
    (allowed : Line → Prop) :
    ChannelKeeps (Control.channel net) (Control.Waited opts base) allowed := by
  have hcontrol : ∀ {c : Control} (sock : Socket) (entries : List Traffic), c.Waited opts base →
      (c.log (some c.options.timeout) sock entries).Waited opts base := by
    intro c sock entries hc
    exact hc.more (w := .control (some c.options.timeout)) rfl rfl (.inl (by rw [hc.1]))
  have hdata : ∀ c : Control, c.Waited opts base → c.waitOnData.Waited opts base := by
    intro c hc
    exact hc.more (w := .data c.getDataTimeout) rfl rfl
      (.inr (by rw [Control.getDataTimeout, hc.1]))
  exact channelKeeps_of (fun _ _ hc => hc) (fun c _ _ _ t _ hc _ _ => hcontrol t _ hc)
    (fun c _ _ t _ hc _ => hcontrol t _ hc) (fun _ hc => hc) hdata

/- Requests add waits with the timeouts of the options they find. -/
theorem run_waited {net : Network} {later : List (Call γ)} {s t : FtpFileTransfer Control}
    (hlater : ∀ c ∈ later, ∀ opts, c ≠ .connect opts)
    (h : Machine.run (Call.step net) s later = some t) :
    t.session.Waited s.session.options s.session.waits := by
  let inv := fun u : FtpFileTransfer Control =>
    u.session.Waited s.session.options s.session.waits
  show inv t
  have hstep : ∀ u (c : Call γ) v, inv u → (∀ opts, c ≠ .connect opts) →
      c.step net u = some v → inv v := by
    intro u c v hu hc hv
    rw [← Call.step_eq_some hv]
    cases c with
    | connect opts => exact absurd rfl (hc opts)
    | request r clock =>
      exact ((channelKeeps_waited net _ _ r.Sends).request clock).final hu
  have hguard : Machine.Guarded (Call.step net) (fun _ (c : Call γ) => ∀ opts, c ≠ .connect opts)
      s later := Machine.guarded_of_forall fun c hc _ => hlater c hc
  have hstart : inv s := ⟨rfl, [], (List.append_nil _).symm, List.forall_mem_nil _⟩
  exact Machine.run_invariant hstep hstart hguard h

/-! ### Two objects -/

/-- The session state a `connect` with these options should give, on a server that starts
in `initial`: later waits are given these timeouts, and so is the one that would come next. -/
structure Negotiated (γ : Type) (net : Network) (opts : ConnectOptions) (initial : Path)
    (s : FtpFileTransfer Control) : Prop where
  current : s.navigator.current = initial
  capabilities : ∀ f, s.capabilities.has f
    = (FtpCapabilities.default.has f || announced s.session.transcript f)
  timeout : ∀ (later : List (Call γ)) t, (∀ c ∈ later, ∀ opts, c ≠ .connect opts) →
    Machine.run (Call.step net) s later = some t → t.session.options.timeout = opts.timeout
  data_timeout : ∀ (later : List (Call γ)) t, (∀ c ∈ later, ∀ opts, c ≠ .connect opts) →
    Machine.run (Call.step net) s later = some t →
      t.session.getDataTimeout = opts.data_timeout.getD opts.timeout
  waits : ∀ (later : List (Call γ)) t, (∀ c ∈ later, ∀ opts, c ≠ .connect opts) →
    Machine.run (Call.step net) s later = some t →
      ∃ waits, t.session.waits = s.session.waits ++ waits ∧ ∀ w ∈ waits, opts.Gives w

/-- The default timeouts, and no stale directory or flag. -/
def Fresh (opts : ConnectOptions) (initial : Path) (transcript : List Traffic)
    (s : FtpFileTransfer Control) : Prop :=
  s.navigator.current = initial ∧
    (∀ f, announced transcript f = false → s.capabilities.has f = FtpCapabilities.default.has f) ∧
    opts.timeout = 10000 ∧ opts.data_timeout.getD opts.timeout = 10000

theorem negotiated_iff {net : Network} {opts : ConnectOptions} {history : List (Call γ)}
    {s s' : FtpFileTransfer Control} (initial : Path)
    (hrun : Machine.run (Call.step net) constructed history = some s)
    (h : connect net opts s = (.ok (), s')) :
    Negotiated γ net opts initial s' ↔ Fresh opts initial s'.session.transcript s := by
  obtain ⟨hcurrent, hcapabilities⟩ := connect_tracks h
  have hoptions : s'.session.options = .default := by
    have hcall := call_options net (.connect opts : Call γ) s
    rw [Call.run, h] at hcall
    exact hcall.trans (run_options hrun)
  refine ⟨?_, ?_⟩
  · intro hn
    refine ⟨hcurrent.symm.trans hn.current, fun f hf => ?_, ?_, ?_⟩
    · have hsame := (hcapabilities f).symm.trans (hn.capabilities f)
      simpa only [hf, Bool.or_false] using hsame
    · have hwait := hn.timeout [] s' (fun _ hc => by cases hc) rfl
      rw [← hwait, hoptions]
      rfl
    · have hwait := hn.data_timeout [] s' (fun _ hc => by cases hc) rfl
      rw [← hwait, Control.getDataTimeout, hoptions]
      rfl
  · rintro ⟨hstart, hflags, htimeout, hdata⟩
    refine ⟨hcurrent.trans hstart, fun f => ?_, ?_, ?_, ?_⟩
    · rw [hcapabilities f]
      cases hf : announced s'.session.transcript f with
      | false => rw [hflags f hf]
      | true => rw [Bool.or_true, Bool.or_true]
    · intro later t _ hlater
      rw [run_options hlater, hoptions, htimeout]
      rfl
    · intro later t _ hlater
      rw [Control.getDataTimeout, run_options hlater, hoptions, hdata]
      rfl
    · intro later t hrequests hlater
      obtain ⟨-, waits, hwaits, hall⟩ := run_waited hrequests hlater
      refine ⟨waits, hwaits, fun w hw => ?_⟩
      have hgives := hall w hw
      rw [hoptions] at hgives
      rw [ConnectOptions.Gives, hdata, htimeout]
      exact hgives

/-- What two objects have in common when their sessions are alike. -/
structure SameSession (s t : FtpFileTransfer Control) : Prop where
  current : s.navigator.current = t.navigator.current
  capabilities : s.capabilities = t.capabilities
  options : s.session.options = t.session.options

theorem reconnect_negotiated_iff (net net' : Network) (opts : ConnectOptions) (initial : Path)
    (history : List (Call γ)) (s s' t : FtpFileTransfer Control)
    (hrun : Machine.run (Call.step net) constructed history = some s)
    (h : connect net opts s = (.ok (), s')) (hnew : connect net' opts constructed = (.ok (), t))
    (hreplies : s'.session.transcript = t.session.transcript) :
    (SameSession s' t ∧ Negotiated γ net opts initial s' ∧ Negotiated γ net' opts initial t) ↔
      s.navigator.current = ascii "/" ∧ initial = ascii "/" ∧
      (∀ f, announced s'.session.transcript f = false →
        s.capabilities.has f = FtpCapabilities.default.has f) ∧
      opts.timeout = 10000 ∧ opts.data_timeout.getD opts.timeout = 10000 := by
  rw [negotiated_iff initial hrun h,
    negotiated_iff initial (rfl : Machine.run (Call.step net') constructed ([] : List (Call γ)) = _)
      hnew]
  obtain ⟨hcurrent, hcapabilities⟩ := connect_tracks h
  obtain ⟨hcurrent', hcapabilities'⟩ := connect_tracks hnew
  refine ⟨?_, ?_⟩
  · rintro ⟨-, ⟨hstart, hflags, htimeouts⟩, ⟨hstart', -, -⟩⟩
    have hroot : initial = ascii "/" := hstart'.symm.trans (by decide)
    exact ⟨hstart.trans hroot, hroot, hflags, htimeouts⟩
  · rintro ⟨hstart, rfl, hflags, htimeouts⟩
    refine ⟨⟨?_, FtpCapabilities.ext_has fun f => ?_, ?_⟩, ⟨hstart, hflags, htimeouts⟩,
      ⟨by decide, fun _ _ => rfl, htimeouts⟩⟩
    · rw [hcurrent, hstart, hcurrent']
      decide
    · rw [hcapabilities f, hcapabilities' f, ← hreplies]
      cases hf : announced s'.session.transcript f with
      | false => rw [hflags f hf]; rfl
      | true => rw [Bool.or_true, Bool.or_true]
    · have hcall := call_options net (.connect opts : Call γ) s
      have hcall' := call_options net' (.connect opts : Call γ) constructed
      rw [Call.run, h] at hcall
      rw [Call.run, hnew] at hcall'
      rw [hcall, hcall', run_options hrun]

/- The second connection of an object that has only been connected. -/
theorem reconnect_negotiated_twice :
    let net := networkOf (friendly nobody [])
    ∃ s s' t, Call.step net constructed (.connect nobody : Call Unit) = some s ∧
      connect net nobody s = (.ok (), s') ∧ connect net nobody constructed = (.ok (), t) ∧
      SameSession s' t ∧ Negotiated Unit net nobody (ascii "/") s' := by
  intro net
  obtain ⟨s, hs, -, hlog⟩ := connect_friendly net constructed nobody [] rfl
  obtain ⟨s', hs', -, hlog'⟩ := connect_friendly net s nobody [] rfl
  obtain ⟨hcurrent, hcapabilities⟩ := connect_tracks hs
  have hstep : Call.step net constructed (.connect nobody : Call Unit) = some s := by
    simp only [Call.step, Call.run, hs]
  have hrun : Machine.run (Call.step net) constructed [(.connect nobody : Call Unit)] = some s := by
    simp only [Machine.run, hstep, Option.bind_some]
  have hflags : ∀ f, s.capabilities.has f = FtpCapabilities.default.has f := by
    intro f
    rw [hcapabilities f, hlog]
    exact Bool.or_false _
  obtain ⟨hsame, hnegotiated, -⟩ := (reconnect_negotiated_iff net net nobody (ascii "/")
    [(.connect nobody : Call Unit)] s s' s hrun hs' hs (by rw [hlog, hlog'])).mpr
      ⟨hcurrent.trans (by decide), rfl, fun f _ => hflags f, by decide, by decide⟩
  exact ⟨s, s', s, hstep, hs', hs, hsame, hnegotiated⟩

/-! ### A stale directory -/

def moved : Reply := .single (ascii "250") (ascii "Moved")

def absent : Reply := .single (ascii "550") (ascii "Absent")

section Probe

variable {net : Network} {s : FtpFileTransfer Control} {r : Reply} {replies : List Reply}
  (hr : r.WellFormed 1024) (hready : s.session.Ready (r :: replies))

include hr hready

theorem command_ready (cmd : Bytes) :
    ∃ t, control ((Control.channel net).sendAndReceiveResponse cmd) s = (.ok r.answer, t) ∧
      t.session.Ready replies ∧ Tracks s.navigator.current s.capabilities t := by
  obtain ⟨c, hrun, hready', -⟩ := hready.exchange hr net cmd
  refine ⟨s.withSession c, ?_, hready', rfl, rfl⟩
  simp only [FtpFileTransfer.control, zoom, hrun]

/- One step of navigation that is granted. -/
theorem changeDirectory_ready {path dir : Path} (hcode : r.answer.code = 250)
    (hroute : route s.navigator.current (normalize path) = [.cd dir]) :
    ∃ t, changeDirectory (Control.channel net) path s = (.ok (), t) ∧
      t.session.Ready replies ∧ Tracks (normalize path) s.capabilities t := by
  obtain ⟨c, hrun, hready', -⟩ := hready.exchange hr net (ascii "CWD " ++ dir)
  have hcd : (Control.channel net).ftpCd dir s.navigator.session = (.ok (), c) := by
    refine (bind_ok hrun).trans ?_
    simp only [hcode, ne_eq, not_true, if_false]
    rfl
  refine ⟨⟨⟨normalize path, c⟩, s.capabilities, s.transfers⟩, ?_, hready', rfl, rfl⟩
  simp only [FtpFileTransfer.changeDirectory, changeDirectory_eq, hroute, issue, Transport.send,
    Channel.navigator, hcd]

theorem existsCwd_ready (name : Bytes) (hcode : r.answer.code = 550) :
    ∃ t, hasValue (existsCwd (Control.channel net) name) s = (.ok (.ok false), t) ∧
      Tracks s.navigator.current s.capabilities t := by
  obtain ⟨t, hrun, -, ht⟩ := command_ready hr hready (ascii "CWD " ++ name)
  have hprobe : probe (Control.channel net) (ascii "CWD " ++ name) 250 [550] s
      = (.ok false, t) := by
    refine (bind_ok hrun).trans ?_
    simp only [hcode, List.mem_singleton, if_true, if_neg (by decide : ¬550 = 250)]
    rfl
  have hcwd : existsCwd (Control.channel net) name s = (.ok false, t) := bind_ok hprobe
  exact ⟨t, by simp only [hasValue, attempt, hcwd], ht⟩

end Probe

/- The navigation is granted, the probe refused. -/
theorem exists_moves (net : Network) {s : FtpFileTransfer Control}
    (hcurrent : s.navigator.current = ascii "/") (hmlst : s.capabilities.mlst = false)
    (hsize : s.capabilities.size = false) (hready : s.session.Ready [moved, absent]) :
    ∃ t, exists_ (Control.channel net) (ascii "/a/b") s = (.ok false, t) ∧
      t.navigator.current = ascii "/a" := by
  have hroute : route s.navigator.current (normalize (Path.parent_path (ascii "/a/b")))
      = [.cd (ascii "a")] := by
    rw [hcurrent]
    decide
  obtain ⟨t, hchange, hready', hcurrent', hcapabilities⟩ := changeDirectory_ready
    ⟨by decide, by decide, by decide, by decide⟩ hready (by decide) hroute
  obtain ⟨u, hcwd, hu, -⟩ := existsCwd_ready ⟨by decide, by decide, by decide, by decide⟩ hready'
    (ascii "b") (by decide)
  have hname : Path.filename (ascii "/a/b") = ascii "b" := by decide
  refine ⟨u, ?_, hu.trans (hcurrent'.trans (by decide))⟩
  simp only [exists_, hname, if_neg (by decide : ¬ascii "b" = [])]
  rw [bind_ok hchange, bind_ok (rfl : getCapabilities t = (.ok t.capabilities, t)), hcapabilities]
  simp only [ifCapable, hmlst, hsize, Bool.false_eq_true, if_false]
  exact bind_ok hcwd

/- The object looks for `/a/b` in its first session, and keeps `/a` into the second. -/
theorem reconnect_stale_directory :
    let net := networkOf (friendly nobody [moved, absent])
    ∃ s s' t, Machine.run (Call.step net) constructed
        [(.connect nobody : Call Unit), .request (.exists_ (ascii "/a/b")) someClock] = some s ∧
      connect net nobody s = (.ok (), s') ∧ connect net nobody constructed = (.ok (), t) ∧
      s'.session.transcript = t.session.transcript ∧
      s'.navigator.current = ascii "/a" ∧ t.navigator.current = ascii "/" ∧
      ¬(SameSession s' t ∧ Negotiated Unit net nobody (ascii "/") s' ∧
        Negotiated Unit net nobody (ascii "/") t) := by
  intro net
  obtain ⟨t, hfirst, hready, hlog⟩ := connect_friendly net constructed nobody [moved, absent] rfl
  obtain ⟨hcurrent, hcapabilities⟩ := connect_tracks hfirst
  have hroot : t.navigator.current = ascii "/" := hcurrent.trans (by decide)
  have hflags : ∀ f, t.capabilities.has f = FtpCapabilities.default.has f := by
    intro f
    rw [hcapabilities f, hlog]
    exact Bool.or_false _
  obtain ⟨s, hexists, hstale⟩ := exists_moves net hroot (hflags .mlst) (hflags .size)
    hready
  obtain ⟨s', hsecond, -, hlog'⟩ := connect_friendly net s nobody [moved, absent] rfl
  obtain ⟨hkept, -⟩ := connect_tracks hsecond
  have hrequest : (Request.exists_ (ascii "/a/b") : Request Unit).run (Control.channel net)
      someClock t = (.ok (), s) := bind_ok hexists
  have hrun : Machine.run (Call.step net) constructed
      [(.connect nobody : Call Unit), .request (.exists_ (ascii "/a/b")) someClock] = some s := by
    simp only [Machine.run, Call.step, Call.run, hfirst, hrequest, Option.bind_some]
  refine ⟨s, s', t, hrun, hsecond, hfirst, hlog'.trans hlog.symm, hkept.trans hstale, hroot, ?_⟩
  rintro ⟨-, hnegotiated, -⟩
  have hwrong := hnegotiated.current
  rw [hkept, hstale] at hwrong
  exact absurd hwrong (by decide)

end NetworkStack.Ftp
