import NetworkStack.Ftp.Login

/-!
# Whether `connect` has logged in (protocol/FtpFileTransfer.cpp)

Which login steps `connect` takes depends on the options it was given. Whether the
server has let the user in depends on its answers: USER may be enough, and after a 331
only PASS completes the login.
-/

namespace NetworkStack.Ftp

open Hoare SocketDetail Utility

/-- The server's answer to a command, in the traffic of a connection. -/
def AnswerTo (cmd : Bytes) (log : List Traffic) (a : Answer) : Prop :=
  [.command cmd, .answer a] <:+: log

/-- The server has answered USER with 230, or PASS with 230 or 231. -/
def LoggedIn (opts : ConnectOptions) (log : List Traffic) : Prop :=
  (∃ a, AnswerTo (ascii "USER " ++ opts.username) log a ∧ a.code = 230) ∨
    ∃ a, AnswerTo (ascii "PASS " ++ opts.password) log a ∧ a.code ∈ [230, 231]

/-- The answer to USER on a connection just opened: what stands behind the greeting. -/
def userAnswer (username : Bytes) (sock : Socket) : Option Answer :=
  match asyncReadUntilCommon sock (List.replicate 512 0) crlf with
  | some ⟨.ok _, _, sock⟩ =>
    match receiveResponse (asyncWriteAllCommon sock (ascii "USER " ++ username ++ crlf)).2 with
    | some (.ok a, _) => some a
    | _ => none
  | _ => none

namespace FtpFileTransfer

variable {net : Network}

/-! ### What a step that succeeds has done -/

theorem exchange_eq_ok {c c' : Control} {cmd : Bytes} {a : Answer}
    (h : (Control.channel net).sendAndReceiveResponse cmd c = (.ok a, c')) :
    ∃ sock t, c.socket = some sock ∧
      receiveResponse (asyncWriteAllCommon sock (cmd ++ crlf)).2 = some (.ok a, t) ∧
      c'.transcript = c.transcript ++ [.command cmd, .answer a] := by
  obtain ⟨u, mid, hsend, hreceive⟩ := bind_eq_ok h
  cases hsock : c.socket with
  | none =>
    rw [Control.sendCommand_none cmd hsock] at hsend
    cases hsend
  | some sock =>
    rw [Control.sendCommand_some cmd hsock] at hsend
    obtain ⟨-, rfl⟩ := Prod.mk.inj hsend
    rw [Control.receiveResponse_some rfl] at hreceive
    cases hcall : receiveResponse (asyncWriteAllCommon sock (cmd ++ crlf)).2 with
    | none =>
      rw [hcall] at hreceive
      cases hreceive
    | some x =>
      obtain ⟨r, t⟩ := x
      rw [hcall] at hreceive
      obtain ⟨rfl, rfl⟩ := Prod.mk.inj hreceive
      exact ⟨sock, t, rfl, hcall, List.append_assoc ..⟩

theorem login_eq_ok {s s' : FtpFileTransfer Control} {cmd : Bytes} {accepted : List ℕ}
    (h : login net cmd accepted s = (.ok (), s')) :
    ∃ sock t a, s.session.socket = some sock ∧
      receiveResponse (asyncWriteAllCommon sock (cmd ++ crlf)).2 = some (.ok a, t) ∧
      a.code ∈ accepted ∧
      s'.session.transcript = s.session.transcript ++ [.command cmd, .answer a] := by
  obtain ⟨cmd_result, mid, hsend, hrest⟩ := bind_eq_ok h
  cases cmd_result with
  | error ec =>
    obtain ⟨_, _, _, hstop⟩ := bind_eq_ok hrest
    cases hstop
  | ok a =>
    cases hrun : (Control.channel net).sendAndReceiveResponse cmd s.session with
    | mk r c =>
      simp only [hasValue, attempt, control, zoom, hrun] at hsend
      cases r with
      | error e => cases e <;> cases hsend
      | ok a' =>
        cases hsend
        obtain ⟨sock, t, hsock, hcall, hlog⟩ := exchange_eq_ok hrun
        simp only at hrest
        split at hrest
        · cases hrest
          exact ⟨sock, t, a, hsock, hcall, ‹_›, hlog⟩
        · obtain ⟨_, _, _, hstop⟩ := bind_eq_ok hrest
          cases hstop

/- Whatever FEAT comes to, nothing else is sent. -/
theorem feat_eq {s s' : FtpFileTransfer Control} {r : Except Exit Unit}
    (h : feat net s = (r, s')) :
    ∃ tail, s'.session.transcript = s.session.transcript ++ tail ∧
      ∀ cmd, .command cmd ∈ tail → cmd = ascii "FEAT" := by
  have hkeeps : ChannelKeeps (Control.channel net) (fun c =>
      ∃ tail, c.transcript = s.session.transcript ++ tail ∧
        ∀ cmd, .command cmd ∈ tail → cmd = ascii "FEAT") (· = ⟨.FEAT, none⟩) := by
    refine channelKeeps_of (fun _ _ hc => hc) ?_ ?_ (fun _ hc => hc) fun _ hc => hc
    · rintro c sock l r t - ⟨tail, hlog, htail⟩ rfl -
      refine ⟨tail ++ [.command (ascii "FEAT")], ?_, fun cmd hcmd => ?_⟩
      · rw [← List.append_assoc, ← hlog]
        rfl
      · rcases List.mem_append.mp hcmd with hcmd | hcmd
        · exact htail cmd hcmd
        · exact Traffic.command.inj (List.mem_singleton.mp hcmd)
    · rintro c sock r t - ⟨tail, hlog, htail⟩ -
      refine ⟨tail ++ r.toOption.toList.map .answer, ?_, fun cmd hcmd => ?_⟩
      · rw [← List.append_assoc, ← hlog]
        rfl
      · rcases List.mem_append.mp hcmd with hcmd | hcmd
        · exact htail cmd hcmd
        · obtain ⟨a, -, ha⟩ := List.mem_map.mp hcmd
          cases ha
  have hfinal := (keeps_feat hkeeps rfl).final (s := s)
    ⟨[], (List.append_nil _).symm, fun cmd hcmd => absurd hcmd List.not_mem_nil⟩
  rwa [h] at hfinal

theorem greeting_eq_ok {c c' : Control} (h : Control.greeting c = (.ok (), c')) :
    ∃ sock n buffer t, c.socket = some sock ∧
      asyncReadUntilCommon sock (List.replicate 512 0) crlf = some ⟨.ok n, buffer, t⟩ ∧
      c'.socket = some t ∧ c'.transcript = c.transcript ++ [.greeting (buffer.take n)] := by
  unfold Control.greeting Control.onSocket at h
  cases hsock : c.socket with
  | none =>
    rw [hsock] at h
    cases h
  | some sock =>
    rw [hsock] at h
    simp only at h
    cases hcall : asyncReadUntilCommon sock (List.replicate 512 0) crlf with
    | none =>
      rw [hcall] at h
      cases h
    | some call =>
      obtain ⟨r, buffer, t⟩ := call
      rw [hcall] at h
      cases r with
      | error ec => cases h
      | ok n =>
        cases h
        exact ⟨sock, n, buffer, t, rfl, hcall, rfl, rfl⟩

theorem dial_eq_ok {c c' : Control} (h : Control.dial net c = (.ok (), c')) :
    ∃ sock, net.control c.dials = .ok sock ∧ c'.socket = some sock ∧ c'.transcript = [] := by
  unfold Control.dial at h
  cases hsock : net.control c.dials with
  | error ec =>
    rw [hsock] at h
    cases h
  | ok sock =>
    rw [hsock] at h
    cases h
    exact ⟨sock, rfl, rfl, rfl⟩

theorem control_eq_ok {m : Act Control Exit Unit} {s s' : FtpFileTransfer Control}
    (h : control m s = (.ok (), s')) : m s.session = (.ok (), s'.session) := by
  cases hrun : m s.session with
  | mk r c =>
    simp only [control, zoom, hrun] at h
    cases h
    rfl

theorem credential_eq_ok {s s' : FtpFileTransfer Control} {verb value : Bytes}
    {accepted : List ℕ} (h : credential net verb value accepted s = (.ok (), s')) :
    ∃ said, s'.session.transcript = s.session.transcript ++ said ∧
      if value ≠ [] then
        ∃ a, said = [.command (verb ++ value), .answer a] ∧ a.code ∈ accepted
      else said = [] := by
  unfold credential at h
  split at h
  · rename_i hne
    obtain ⟨sock, t, a, -, -, hcode, hlog⟩ := login_eq_ok h
    refine ⟨_, hlog, ?_⟩
    rw [if_pos hne]
    exact ⟨a, rfl, hcode⟩
  · rename_i hne
    cases h
    refine ⟨[], (List.append_nil _).symm, ?_⟩
    rw [if_neg hne]

/- The traffic of a connection that was opened with a user name: the greeting, USER with its
answer, PASS with its answer if there is a password, and FEAT. -/
theorem connect_transcript {opts : ConnectOptions} {s s' : FtpFileTransfer Control}
    (huser : opts.username ≠ []) (h : connect net opts s = (.ok (), s')) :
    ∃ sock g a pass tail, net.control s.session.dials = .ok sock ∧
      userAnswer opts.username sock = some a ∧ a.code ∈ [331, 230] ∧
      s'.session.transcript
        = .greeting g :: .command (ascii "USER " ++ opts.username) :: .answer a :: (pass ++ tail) ∧
      (if opts.password ≠ [] then
          ∃ b, pass = [.command (ascii "PASS " ++ opts.password), .answer b] ∧ b.code ∈ [230, 231]
        else pass = []) ∧
      ∀ cmd, .command cmd ∈ tail → cmd = ascii "FEAT" := by
  obtain ⟨_, s₁, hdial, hrest⟩ := bind_eq_ok h
  obtain ⟨_, s₂, hgreeting, hrest⟩ := bind_eq_ok hrest
  obtain ⟨_, s₃, huserRun, hrest⟩ := bind_eq_ok hrest
  obtain ⟨_, s₄, hpassRun, hfeat⟩ := bind_eq_ok hrest
  obtain ⟨sock, hcontrol, hsock, hempty⟩ := dial_eq_ok (control_eq_ok hdial)
  obtain ⟨sock', n, buffer, t, hsock', hread, hleft, hlogGreeting⟩ :=
    greeting_eq_ok (control_eq_ok hgreeting)
  obtain rfl := Option.some.inj (hsock.symm.trans hsock')
  rw [credential, if_pos huser] at huserRun
  obtain ⟨t', u, a, ht', hanswer, hcode, hlogUser⟩ := login_eq_ok huserRun
  obtain rfl := Option.some.inj (hleft.symm.trans ht')
  obtain ⟨pass, hlogPass, hpass⟩ := credential_eq_ok hpassRun
  obtain ⟨tail, hlogFeat, htail⟩ := feat_eq hfeat
  have huserAnswer : userAnswer opts.username sock = some a := by
    simp only [userAnswer, hread, hanswer]
  refine ⟨sock, buffer.take n, a, pass, tail, hcontrol, huserAnswer, hcode, ?_, hpass, htail⟩
  rw [hlogFeat, hlogPass, hlogUser, hlogGreeting, hempty]
  simp

/-! ### Logging in -/

/- Such traffic logs in with the password, or with the answer to USER alone. -/
theorem loggedIn_iff {opts : ConnectOptions} {g : Bytes} {a : Answer} (pass tail : List Traffic)
    (hpass : if opts.password ≠ [] then
        ∃ b, pass = [.command (ascii "PASS " ++ opts.password), .answer b] ∧ b.code ∈ [230, 231]
      else pass = [])
    (htail : ∀ cmd, .command cmd ∈ tail → cmd = ascii "FEAT") :
    LoggedIn opts
        (.greeting g :: .command (ascii "USER " ++ opts.username) :: .answer a :: (pass ++ tail)) ↔
      opts.password ≠ [] ∨ a.code = 230 := by
  by_cases hpassword : opts.password ≠ []
  · rw [if_pos hpassword] at hpass
    obtain ⟨b, rfl, hb⟩ := hpass
    refine iff_of_true (.inr ⟨b, ?_, hb⟩) (.inl hpassword)
    exact ⟨[.greeting g, .command (ascii "USER " ++ opts.username), .answer a], tail, by simp⟩
  · rw [if_neg hpassword] at hpass
    subst hpass
    have honly : ∀ {cmd b}, cmd ≠ ascii "FEAT" →
        AnswerTo cmd (.greeting g :: .command (ascii "USER " ++ opts.username)
          :: .answer a :: ([] ++ tail)) b →
        cmd = ascii "USER " ++ opts.username ∧ b = a := by
      intro cmd b hcmd hinfix
      have hlater : ¬[.command cmd, .answer b] <:+: tail :=
        fun h => hcmd (htail cmd (h.subset (List.mem_cons_self ..)))
      simpa [AnswerTo, List.infix_cons_iff, hlater] using hinfix
    refine ⟨fun h => ?_, fun h => ?_⟩
    · rcases h with ⟨b, hb, hcode⟩ | ⟨b, hb, -⟩
      · obtain ⟨-, rfl⟩ := honly (fun heq => by cases congrArg List.head? heq) hb
        exact .inr hcode
      · obtain ⟨heq, -⟩ := honly (fun heq => by cases congrArg List.head? heq) hb
        cases congrArg List.head? heq
    · exact .inl ⟨a, ⟨[.greeting g], tail, rfl⟩, h.resolve_left hpassword⟩

/-- A connection that was opened with a user name is logged in exactly when a password was
given or USER was answered with 230. -/
theorem connect_loggedIn_iff (net : Network) (opts : ConnectOptions)
    (s s' : FtpFileTransfer Control) (huser : opts.username ≠ [])
    (hok : connect net opts s = (.ok (), s')) :
    LoggedIn opts s'.session.transcript ↔
      opts.password ≠ [] ∨ ∃ sock a, net.control s.session.dials = .ok sock ∧
        userAnswer opts.username sock = some a ∧ a.code = 230 := by
  obtain ⟨sock, g, a, pass, tail, hcontrol, hanswer, -, hlog, hpass, htail⟩ :=
    connect_transcript huser hok
  rw [hlog, loggedIn_iff pass tail hpass htail]
  refine or_congr_right' fun _ => ⟨fun hcode => ⟨sock, a, hcontrol, hanswer, hcode⟩, ?_⟩
  rintro ⟨sock', b, hcontrol', hanswer', hcode⟩
  obtain rfl := Except.ok.inj (hcontrol.symm.trans hcontrol')
  obtain rfl := Option.some.inj (hanswer.symm.trans hanswer')
  exact hcode

/-! ### Two servers -/

/-- The connection of a server that greets with 220 and then sends the given replies. -/
def greeted (replies : List Reply) : Socket :=
  Socket.fresh (Chunked.ofChunks
    [((Reply.single (ascii "220") (ascii "Ready")) :: replies).flatMap Reply.bytes])

theorem greeted_dialled (replies : List Reply) :
    Dialled (networkOf (greeted replies)) (.construct .initial) (greeted replies) ∧
      unread (greeted replies)
        = (Reply.single (ascii "220") (ascii "Ready")).bytes ++ replies.flatMap Reply.bytes := by
  refine ⟨⟨rfl, ⟨rfl, by simp [greeted, Socket.fresh]⟩, ?_⟩, ?_⟩
  · refine Chunked.steady_ofChunks fun c hc => ?_
    rw [List.mem_singleton.mp hc, List.flatMap_cons]
    exact List.append_ne_nil_of_left_ne_nil (by decide) _
  · exact (Chunked.arriving_ofChunks _).trans (by simp)

theorem connect_loggedIn_anonymous :
    let sock := greeted [.single (ascii "230") (ascii "Hello"),
      .single (ascii "230") (ascii "Hello"), .single (ascii "230") (ascii "Hello")]
    ∃ s', connect (networkOf sock) .default (.construct .initial) = (.ok (), s') ∧
      LoggedIn .default s'.session.transcript := by
  intro sock
  obtain ⟨hdialled, hstream⟩ := greeted_dialled [.single (ascii "230") (ascii "Hello"),
    .single (ascii "230") (ascii "Hello"), .single (ascii "230") (ascii "Hello")]
  have hreplies : ∀ e ∈ ConnectOptions.default.commands.map
      fun cmd => (cmd, Reply.single (ascii "230") (ascii "Hello")),
      e.2.WellFormed 1024 ∧ e.2.answer.code = 230 := by
    intro e he
    have hhello : (Reply.single (ascii "230") (ascii "Hello")).WellFormed 1024 :=
      ⟨by decide, by decide, by decide, by decide⟩
    obtain ⟨cmd, -, rfl⟩ := List.mem_map.mp he
    exact ⟨hhello, rfl⟩
  have hcommands : (ConnectOptions.default.commands.map
      fun cmd => (cmd, Reply.single (ascii "230") (ascii "Hello"))).map Prod.fst
        = ConnectOptions.default.commands := by decide
  have hready : (Reply.single (ascii "220") (ascii "Ready")).WellFormed 512 :=
    ⟨by decide, by decide, by decide, by decide⟩
  have hnothing : unread sock = (Reply.single (ascii "220") (ascii "Ready")).bytes
      ++ ((ConnectOptions.default.commands.map
        fun cmd => (cmd, Reply.single (ascii "230") (ascii "Hello"))).map Prod.snd
          ++ []).flatMap Reply.bytes := hstream
  obtain ⟨s', hok, -, -⟩ := connect_ok _ hdialled hready hcommands
    (fun e he => (hreplies e he).1) (fun e he => (hreplies e he).2) hnothing
  exact ⟨s', hok, (connect_loggedIn_iff _ _ _ s' (by decide) hok).mpr (.inl (by decide))⟩

/- Without a password the 331 is taken for the login. -/
theorem connect_password_missing :
    let opts : ConnectOptions := { ConnectOptions.default with password := [] }
    let sock := greeted [.single (ascii "331") (ascii "Password"),
      .single (ascii "530") (ascii "Log in first")]
    ∃ s', connect (networkOf sock) opts (.construct .initial) = (.ok (), s') ∧
      ¬LoggedIn opts s'.session.transcript := by
  intro opts sock
  obtain ⟨hdialled, hstream⟩ := greeted_dialled [.single (ascii "331") (ascii "Password"),
    .single (ascii "530") (ascii "Log in first")]
  obtain ⟨t, s₁, hgreeting, hsock, hw, hst, hrest, hlog⟩ :=
    greeting_single hdialled ⟨by decide, by decide, by decide, by decide⟩ hstream
  obtain ⟨result, s₂, huser, hlogUser, ⟨rfl, hready⟩ | ⟨-, hcode⟩⟩ :=
    login_ready (networkOf sock) (r := .single (ascii "331") (ascii "Password"))
      ⟨by decide, by decide, by decide, by decide⟩ ⟨t, hsock, hw, hst, hrest⟩
      (ascii "USER " ++ opts.username) [331, 230]
  · obtain ⟨s₃, hfeat, -, hlogFeat⟩ :=
      feat_ready (networkOf sock) ⟨by decide, by decide, by decide, by decide⟩ hready
    refine ⟨s₃, ?_, ?_⟩
    · have huser' : credential (networkOf sock) (ascii "USER ") opts.username [331, 230] s₁
          = (.ok (), s₂) := by rw [credential, if_pos (by decide), huser]
      have hpass : credential (networkOf sock) (ascii "PASS ") opts.password [230, 231] s₂
          = (.ok (), s₂) := by rw [credential, if_neg (by decide)]; rfl
      rw [connect_eq opts hgreeting, negotiate, bind_ok huser', bind_ok hpass, hfeat]
    · rw [hlogFeat, hlogUser, hlog]
      refine fun h => absurd ((loggedIn_iff [] _ ?_ ?_).mp h) (by decide)
      · rw [if_neg (by decide)]
      · intro cmd hcmd
        simpa using hcmd
  · exact absurd (by decide) hcode

end FtpFileTransfer

end NetworkStack.Ftp
