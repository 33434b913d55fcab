import NetworkStack.Ftp.Connect

/-!
# Whose replies `connect` takes

The server sends its greeting and one reply for each line it hears. `connect` reads
the greeting as one line, and every reply after it as the multi-line text it may be.
-/

namespace NetworkStack.Ftp

open Hoare SocketDetail Utility

/-! ### The server's side -/

/-- The commands of `connect`, as far as it gets. -/
def ConnectOptions.commands (opts : ConnectOptions) : List Bytes :=
  (if opts.username ≠ [] then [ascii "USER " ++ opts.username] else [])
    ++ (if opts.password ≠ [] then [ascii "PASS " ++ opts.password] else [])
    ++ [ascii "FEAT"]

structure ControlServer where
  greeting : Reply
  reply : ℕ → Bytes → Reply

namespace ControlServer

variable (srv : ControlServer)

def exchanges (lines : List Bytes) : List (Bytes × Reply) :=
  lines.zipIdx.map fun (line, i) => (line, srv.reply i line)

/-- What the server sends when `connect` sends all of its commands. -/
def stream (opts : ConnectOptions) : Bytes :=
  srv.greeting.bytes
    ++ (srv.exchanges (takeLines (opts.commands.flatMap (· ++ crlf))).1).flatMap (·.2.bytes)

end ControlServer

def traffic (exchanges : List (Bytes × Reply)) : List Traffic :=
  exchanges.flatMap fun e => [.command e.1, .answer e.2.answer]

/-- If an answer was taken, the connection has seen the greeting as a whole and then
commands each with the server's own reply, and if `connect` returns Ok nothing is left
unread. -/
def TakesOwnReplies (srv : ControlServer) (opts : ConnectOptions)
    (result : Except Exit Unit × FtpFileTransfer Control) : Prop :=
  ((∃ a, .answer a ∈ result.2.session.transcript) →
    result.2.session.transcript
      <+: .greeting srv.greeting.bytes :: traffic (srv.exchanges opts.commands)) ∧
  (result.1 = .ok () → ∃ sock, result.2.session.socket = some sock ∧ unread sock = [])

/-! ### One command -/

/-- The replies the server has for the client stand whole on the control connection. -/
def Control.Ready (c : Control) (replies : List Reply) : Prop :=
  ∃ sock, c.socket = some sock ∧ Writable sock ∧ Chunked.Steady sock.incoming ∧
    unread sock = replies.flatMap Reply.bytes

theorem Control.Ready.exchange {c : Control} {r : Reply} {replies : List Reply}
    (hr : r.WellFormed 1024) (h : c.Ready (r :: replies)) (net : Network) (cmd : Bytes) :
    ∃ c', (channel net).sendAndReceiveResponse cmd c = (.ok r.answer, c') ∧ c'.Ready replies ∧
      c'.transcript = c.transcript ++ [.command cmd, .answer r.answer] := by
  obtain ⟨sock, hsock, hw, hst, hstream⟩ := h
  obtain ⟨t, hwrite, hwrote, hw'⟩ := writeAll_writable (cmd ++ crlf) hw
  have hsame : unread t = r.bytes ++ replies.flatMap Reply.bytes := by
    rw [← List.flatMap_cons, ← hstream, hwrote]
    rfl
  have hst' : Chunked.Steady t.incoming := by
    rw [hwrote]
    exact hst
  obtain ⟨u, hread, hst'', -, hrest⟩ := receiveResponse_reply hr hw'.1 hst' hsame
  have hsend : (channel net).sendCommand cmd c
      = (.ok (), c.log (some c.options.timeout) t [.command cmd]) := by
    rw [sendCommand_some cmd hsock, hwrite]
    rfl
  refine ⟨(c.log (some c.options.timeout) t [.command cmd]).log (some c.options.timeout) u
    [.answer r.answer], ?_, ?_, ?_⟩
  · rw [Channel.sendAndReceiveResponse, bind_ok hsend, receiveResponse_some rfl, hread]
    rfl
  · exact ⟨u, rfl, hw'.of_readOnly (receiveResponse_readOnly hread), hst'', hrest⟩
  · simp [log]

namespace FtpFileTransfer

variable (net : Network)

theorem hasValue_control_ok {σ α : Type} {m : Act σ Exit α} {s : FtpFileTransfer σ} {a : α} {c : σ}
    (h : m s.session = (.ok a, c)) : hasValue (control m) s = (.ok (.ok a), s.withSession c) := by
  simp only [hasValue, attempt, control, zoom, h]

/- A login command with its reply: accepted, or the socket is gone. -/
theorem login_ready {s : FtpFileTransfer Control} {r : Reply} {replies : List Reply}
    (hr : r.WellFormed 1024) (h : s.session.Ready (r :: replies)) (cmd : Bytes)
    (accepted : List ℕ) :
    ∃ result s', login net cmd accepted s = (result, s') ∧
      s'.session.transcript = s.session.transcript ++ [.command cmd, .answer r.answer] ∧
      ((result = .ok () ∧ s'.session.Ready replies) ∨
        ((∃ e, result = .error e) ∧ r.answer.code ∉ accepted)) := by
  obtain ⟨c, hrun, hready, hlog⟩ := h.exchange hr net cmd
  rw [login, bind_ok (hasValue_control_ok hrun)]
  simp only
  by_cases hcode : r.answer.code ∈ accepted
  · rw [if_pos hcode]
    exact ⟨_, _, rfl, hlog, .inl ⟨rfl, hready⟩⟩
  · rw [if_neg hcode]
    exact ⟨_, _, rfl, hlog, .inr ⟨⟨_, rfl⟩, hcode⟩⟩

theorem feat_ready {s : FtpFileTransfer Control} {r : Reply} {replies : List Reply}
    (hr : r.WellFormed 1024) (h : s.session.Ready (r :: replies)) :
    ∃ s', feat net s = (.ok (), s') ∧ s'.session.Ready replies ∧
      s'.session.transcript
        = s.session.transcript ++ [.command (ascii "FEAT"), .answer r.answer] := by
  obtain ⟨c, hrun, hready, hlog⟩ := h.exchange hr net (ascii "FEAT")
  rw [feat, bind_ok (hasValue_control_ok hrun)]
  simp only
  by_cases hcode : r.answer.code = 211
  · rw [if_pos hcode]
    exact ⟨_, rfl, hready, hlog⟩
  · rw [if_neg hcode]
    exact ⟨_, rfl, hready, hlog⟩

/-! ### The greeting -/

variable {net}

/-- The socket `connect` gets, on a network that answers its attempt. -/
structure Dialled (net : Network) (s : FtpFileTransfer Control) (sock : Socket) : Prop where
  control : net.control s.session.dials = .ok sock
  writable : Writable sock
  steady : Chunked.Steady sock.incoming

theorem greeting_line {s : FtpFileTransfer Control} {sock : Socket} {line rest : Bytes}
    (h : Dialled net s sock) (hcr : cr ∉ line) (hlen : line.length + 2 ≤ 512)
    (hstream : unread sock = line ++ crlf ++ rest) :
    ∃ t s', (do control (Control.dial net); control Control.greeting : Operation Control Unit) s
        = (.ok (), s') ∧
      s'.session.socket = some t ∧ Writable t ∧ Chunked.Steady t.incoming ∧ unread t = rest ∧
      s'.session.transcript = [.greeting (line ++ crlf)] := by
  obtain ⟨out, t, hread, hfront, hst, -, hrest⟩ :=
    readUntil_line (List.replicate 512 0) h.writable.1 h.steady hcr
      (by rwa [List.length_replicate]) hstream
  have hdial : control (Control.dial net) s = (.ok (), s.withSession
      { s.session.drop with
        socket := some sock, dials := s.session.dials + 1, transcript := [] }) := by
    simp only [control, zoom, Control.dial, h.control]
  refine ⟨t, s.withSession ({ s.session.drop with
      socket := some sock, dials := s.session.dials + 1, transcript := [] }.log none t
        [.greeting (line ++ crlf)]), ?_, rfl, ?_, hst, hrest, rfl⟩
  · rw [bind_ok hdial]
    simp only [control, zoom, Control.greeting, Control.onSocket, session, withSession, hread,
      hfront]
  · exact h.writable.of_readOnly
      (@ReadOp.run_readOnly _ (.readUntil (List.replicate 512 0) crlf) _ hread)

theorem greeting_single {s : FtpFileTransfer Control} {sock : Socket} {digits text rest : Bytes}
    (h : Dialled net s sock) (hwf : (Reply.single digits text).WellFormed 512)
    (hstream : unread sock = (Reply.single digits text).bytes ++ rest) :
    ∃ t s', (do control (Control.dial net); control Control.greeting : Operation Control Unit) s
        = (.ok (), s') ∧
      s'.session.socket = some t ∧ Writable t ∧ Chunked.Steady t.incoming ∧ unread t = rest ∧
      s'.session.transcript = [.greeting (Reply.single digits text).bytes] := by
  have hline : (Reply.single digits text).bytes = digits ++ 32 :: text ++ crlf := by
    simp [Reply.bytes, Reply.lines]
  have hmem : digits ++ 32 :: text ∈ (Reply.single digits text).lines :=
    List.mem_singleton_self _
  rw [hline] at hstream ⊢
  exact greeting_line h (hwf.clean _ hmem).1 (hwf.short _ hmem) hstream

theorem connect_eq {s s' : FtpFileTransfer Control} (opts : ConnectOptions)
    (h : (do control (Control.dial net); control Control.greeting : Operation Control Unit) s
      = (.ok (), s')) : connect net opts s = negotiate net opts s' := by
  obtain ⟨u, mid, hdial, hgreeting⟩ := bind_eq_ok h
  rw [connect, bind_ok hdial, bind_ok hgreeting]

/-! ### All commands in turn -/

variable (net)

theorem credential_ready {s : FtpFileTransfer Control} {verb value : Bytes} (accepted : List ℕ)
    {front : List (Bytes × Reply)} {rest : List Reply}
    (hfront : front.map Prod.fst = if value ≠ [] then [verb ++ value] else [])
    (hwf : ∀ e ∈ front, e.2.WellFormed 1024)
    (h : s.session.Ready (front.map Prod.snd ++ rest)) :
    ∃ result s', credential net verb value accepted s = (result, s') ∧
      s'.session.transcript = s.session.transcript ++ traffic front ∧
      ((result = .ok () ∧ s'.session.Ready rest) ∨
        ((∃ e, result = .error e) ∧ ∃ e ∈ front, e.2.answer.code ∉ accepted)) := by
  by_cases hne : value ≠ []
  · rw [if_pos hne] at hfront
    obtain ⟨e, rfl, he⟩ := List.map_eq_singleton_iff.mp hfront
    obtain ⟨result, s', hrun, hlog, hend⟩ :=
      login_ready net (hwf e (List.mem_singleton_self e)) h (verb ++ value) accepted
    refine ⟨result, s', ?_, ?_, ?_⟩
    · rw [credential, if_pos hne, hrun]
    · rw [hlog, ← he]
      simp [traffic]
    · exact hend.imp_right fun hno => ⟨hno.1, e, List.mem_singleton_self e, hno.2⟩
  · rw [if_neg hne, List.map_eq_nil_iff] at hfront
    subst hfront
    refine ⟨.ok (), s, ?_, by simp [traffic], .inl ⟨rfl, h⟩⟩
    rw [credential, if_neg hne]
    rfl

/- As far as `negotiate` gets, every command finds its own reply. A login reply it does
not accept is not 230. -/
theorem negotiate_ready {s : FtpFileTransfer Control} {opts : ConnectOptions}
    {exchanges : List (Bytes × Reply)} {later : List Reply}
    (hcommands : exchanges.map Prod.fst = opts.commands)
    (hwf : ∀ e ∈ exchanges, e.2.WellFormed 1024)
    (h : s.session.Ready (exchanges.map Prod.snd ++ later)) :
    ∃ result s' done, negotiate net opts s = (result, s') ∧ done <+: exchanges ∧
      s'.session.transcript = s.session.transcript ++ traffic done ∧
      ((result = .ok () ∧ done = exchanges ∧ s'.session.Ready later) ∨
        ((∃ e, result = .error e) ∧ ∃ e ∈ exchanges, e.2.answer.code ≠ 230)) := by
  obtain ⟨front, last, rfl, hfront, hlast⟩ := List.map_eq_append_iff.mp hcommands
  obtain ⟨user, pass, rfl, huser, hpass⟩ := List.map_eq_append_iff.mp hfront
  obtain ⟨e, rfl, he⟩ := List.map_eq_singleton_iff.mp hlast
  have hwfUser : ∀ x ∈ user, x.2.WellFormed 1024 := fun x hx => hwf x (by simp [hx])
  have hwfPass : ∀ x ∈ pass, x.2.WellFormed 1024 := fun x hx => hwf x (by simp [hx])
  simp only [List.map_append, List.append_assoc] at h
  obtain ⟨result, s₁, hrun, hlog, ⟨rfl, hready⟩ | ⟨⟨ec, rfl⟩, x, hx, hcode⟩⟩ :=
    credential_ready net [331, 230] huser hwfUser h
  · obtain ⟨result, s₂, hrun', hlog', ⟨rfl, hready'⟩ | ⟨⟨ec, rfl⟩, x, hx, hcode⟩⟩ :=
      credential_ready net [230, 231] hpass hwfPass hready
    · obtain ⟨s₃, hfeat, hend, hlog''⟩ := feat_ready net (hwf e (by simp)) hready'
      refine ⟨.ok (), s₃, user ++ pass ++ [e], ?_, List.prefix_rfl, ?_, .inl ⟨rfl, rfl, hend⟩⟩
      · rw [negotiate, bind_ok hrun, bind_ok hrun', hfeat]
      · rw [hlog'', hlog', hlog, ← he]
        simp [traffic]
    · refine ⟨.error ec, s₂, user ++ pass, ?_, List.prefix_append .., ?_,
        .inr ⟨⟨ec, rfl⟩, x, by simp [hx], fun h => hcode (by simp [h])⟩⟩
      · rw [negotiate, bind_ok hrun, bind_error hrun']
      · rw [hlog', hlog]
        simp [traffic]
  · refine ⟨.error ec, s₁, user, ?_, ?_, hlog,
      .inr ⟨⟨ec, rfl⟩, x, by simp [hx], fun h => hcode (by simp [h])⟩⟩
    · rw [negotiate, bind_error hrun]
    · rw [List.append_assoc]
      exact List.prefix_append ..

/- A server that answers every command with 230 lets `connect` through. -/
theorem connect_ok {s : FtpFileTransfer Control} {opts : ConnectOptions} {sock : Socket}
    {digits text : Bytes} {exchanges : List (Bytes × Reply)} {later : List Reply}
    (hdial : Dialled net s sock) (hgreeting : (Reply.single digits text).WellFormed 512)
    (hcommands : exchanges.map Prod.fst = opts.commands)
    (hwf : ∀ e ∈ exchanges, e.2.WellFormed 1024) (hcodes : ∀ e ∈ exchanges, e.2.answer.code = 230)
    (hstream : unread sock = (Reply.single digits text).bytes
      ++ (exchanges.map Prod.snd ++ later).flatMap Reply.bytes) :
    ∃ s', connect net opts s = (.ok (), s') ∧ s'.session.Ready later ∧
      s'.session.transcript
        = .greeting (Reply.single digits text).bytes :: traffic exchanges := by
  obtain ⟨t, s', hrun, hsock, hw, hst, hrest, hlog⟩ := greeting_single hdial hgreeting hstream
  obtain ⟨result, s'', done, hnegotiate, -, hlog', ⟨rfl, rfl, hend⟩ | ⟨-, e, he, hcode⟩⟩ :=
    negotiate_ready net hcommands hwf ⟨t, hsock, hw, hst, hrest⟩
  · refine ⟨s'', ?_, hend, ?_⟩
    · rw [connect_eq opts hrun, hnegotiate]
    · rw [hlog', hlog]
      rfl
  · exact absurd (hcodes e he) hcode

/-! ### A greeting of several lines -/

variable {net}

/-- What has been said stays said. -/
theorem channelKeeps_transcript {I : List Traffic → Prop} (hI : ∀ l m, I l → I (l ++ m)) :
    ChannelKeeps (Control.channel net) (fun c => I c.transcript) fun _ => True :=
  channelKeeps_of (fun _ _ hc => hc) (fun _ _ _ _ _ _ hc _ _ => hI _ _ hc)
    (fun _ _ _ _ _ hc _ => hI _ _ hc) (fun _ hc => hc) fun _ hc => hc

/-- After `g` an answer has been taken. -/
def Answered (g : Traffic) (c : Control) : Prop :=
  (∃ a, .answer a ∈ c.transcript) ∧ c.transcript.head? = some g

theorem channelKeeps_answered (g : Traffic) :
    ChannelKeeps (Control.channel net) (Answered g) fun _ => True := by
  refine channelKeeps_transcript (I := fun l => (∃ a, .answer a ∈ l) ∧ l.head? = some g) ?_
  rintro l m ⟨⟨a, ha⟩, hhead⟩
  exact ⟨⟨a, List.mem_append_left m ha⟩, by rw [List.head?_append, hhead]; rfl⟩

section First

variable (net) {r : Reply} (replies : List Reply) (g : Traffic)

/-- Nothing has been answered yet and `r` stands first, or something has been answered. -/
def Awaits (r : Reply) (replies : List Reply) (g : Traffic) (c : Control) : Prop :=
  (c.Ready (r :: replies) ∧ c.transcript = [g]) ∨ Answered g c

theorem answered_of_transcript {c : Control} {cmd : Bytes}
    (h : c.transcript = [g] ++ [.command cmd, .answer r.answer]) : Answered g c := by
  rw [Answered, h]
  exact ⟨⟨r.answer, by simp⟩, rfl⟩

variable (hr : r.WellFormed 1024)

include hr

theorem login_awaits (l : Line) (accepted : List ℕ) :
    Triple (fun s => Awaits r replies g s.session) (login net l.text accepted)
      (fun _ s => Answered g s.session) fun _ s => Answered g s.session := by
  refine Triple.or ?_
    (login_spec (channelKeeps_answered g) (fun _ hc => hc) (fun _ hc => hc) trivial _)
  rintro s ⟨hs, hg⟩
  obtain ⟨result, t, hrun, hlog, -⟩ := login_ready net hr hs l.text accepted
  rw [hrun]
  rw [hg] at hlog
  cases result with
  | ok u => exact answered_of_transcript g hlog
  | error e => exact answered_of_transcript g hlog

theorem credential_awaits (l : Line) (value : Bytes) (accepted : List ℕ) :
    Triple (fun s => Awaits r replies g s.session)
      (if value ≠ [] then login net l.text accepted else pure ())
      (fun _ s => Awaits r replies g s.session) fun _ s => Answered g s.session := by
  refine .ite (fun _ => ?_) fun _ => .pure fun _ hs => hs
  exact (login_awaits net replies g hr l accepted).mono (fun _ hs => hs) (fun _ _ hs => .inr hs)
    fun _ _ hs => hs

theorem feat_awaits :
    Triple (fun s => Awaits r replies g s.session) (feat net) (fun _ s => Answered g s.session)
      fun _ s => Answered g s.session := by
  refine Triple.or ?_ (keeps_feat (channelKeeps_answered g) trivial)
  rintro s ⟨hs, hg⟩
  obtain ⟨t, hrun, -, hlog⟩ := feat_ready net hr hs
  rw [hrun]
  rw [hg] at hlog
  exact answered_of_transcript g hlog

/- The reply that stands first is taken by the first command, whichever that is. -/
theorem negotiate_answered {s : FtpFileTransfer Control} (opts : ConnectOptions)
    (h : s.session.Ready (r :: replies)) (hg : s.session.transcript = [g]) :
    Answered g (negotiate net opts s).2.session := by
  have huser := credential_awaits net replies g hr ⟨.USER, some opts.username⟩ opts.username
    [331, 230]
  have hpass := credential_awaits net replies g hr ⟨.PASS, some opts.password⟩ opts.password
    [230, 231]
  have hall := huser.bind fun _ => hpass.bind fun _ => feat_awaits net replies g hr
  exact hall.final (.inl ⟨h, hg⟩)

end First

end FtpFileTransfer

/-! ### The greeting decides -/

/-- Every line of the reply begins with its code, followed by a hyphen on all but the last. -/
def Reply.Coded (r : Reply) : Prop := ∀ l ∈ r.inner, r.digits ++ [45] <+: l

/- What is left of such a reply behind its first line is a reply too. -/
theorem Reply.rest_of_coded {size : ℕ} {digits text last : Bytes} {inner : List Bytes}
    (hwf : (Reply.multi digits text inner last).WellFormed size)
    (hcoded : (Reply.multi digits text inner last).Coded) :
    ∃ r : Reply, r.WellFormed size ∧ r.bytes ≠ [] ∧
      (Reply.multi digits text inner last).bytes = digits ++ 45 :: text ++ crlf ++ r.bytes := by
  have hlines : (Reply.multi digits text inner last).lines
      = (digits ++ 45 :: text) :: (inner ++ [digits ++ 32 :: last]) := rfl
  have hclean := hwf.clean
  have hshort := hwf.short
  rw [hlines] at hclean hshort
  cases inner with
  | nil =>
    refine ⟨.single digits last, ⟨hwf.code, by simp [Reply.inner], ?_, ?_⟩, ?_, ?_⟩
    · exact fun l hl => hclean l (List.mem_cons_of_mem _ hl)
    · exact fun l hl => hshort l (List.mem_cons_of_mem _ hl)
    · simp [Reply.bytes, Reply.lines]
    · simp [Reply.bytes, Reply.lines]
  | cons l inner =>
    obtain ⟨t, rfl⟩ : ∃ t, digits ++ 45 :: t = l := by
      obtain ⟨t, ht⟩ := hcoded l (List.mem_cons_self ..)
      exact ⟨t, by simpa [Reply.digits] using ht⟩
    refine ⟨.multi digits t inner last, ⟨hwf.code, ?_, ?_, ?_⟩, ?_, ?_⟩
    · exact fun l hl => hwf.unended l (List.mem_cons_of_mem _ hl)
    · exact fun l hl => hclean l (List.mem_cons_of_mem _ hl)
    · exact fun l hl => hshort l (List.mem_cons_of_mem _ hl)
    · simp [Reply.bytes, Reply.lines]
    · simp [Reply.bytes, Reply.lines]

theorem Reply.WellFormed.mono {size size' : ℕ} {r : Reply} (h : r.WellFormed size)
    (hle : size ≤ size') : r.WellFormed size' :=
  ⟨h.code, h.unended, h.clean, fun l hl => (h.short l hl).trans hle⟩

/- Without CRLF in the credentials the server hears the commands as they are. -/
theorem ConnectOptions.commands_heard {opts : ConnectOptions} (husername : CrlfFree opts.username)
    (hpassword : CrlfFree opts.password) :
    (takeLines (opts.commands.flatMap (· ++ crlf))).1 = opts.commands := by
  have htexts : ∀ c ∈ opts.commands, CrlfFree c := by
    intro c hc
    simp only [ConnectOptions.commands, List.mem_append, List.mem_singleton] at hc
    rcases hc with (hc | hc) | rfl
    · split at hc
      · rw [List.mem_singleton.mp hc]
        exact crlfFree_argument (by decide) (by decide) husername
      · cases hc
    · split at hc
      · rw [List.mem_singleton.mp hc]
        exact crlfFree_argument (by decide) (by decide) hpassword
      · cases hc
    · decide
  rw [takeLines_flatMap htexts]

theorem ControlServer.exchanges_fst (srv : ControlServer) (lines : List Bytes) :
    (srv.exchanges lines).map Prod.fst = lines := by
  rw [ControlServer.exchanges, List.map_map]
  exact List.zipIdx_map_fst 0 lines

section Greeting

open FtpFileTransfer

variable (srv : ControlServer) (opts : ConnectOptions)

/-- A well-formed server at the other end of the connection, and credentials that are one
line each. -/
structure Served (net : Network) (s : FtpFileTransfer Control) (sock : Socket) : Prop where
  dialled : Dialled net s sock
  stream : unread sock = srv.stream opts
  greeting : srv.greeting.WellFormed 512
  replies : ∀ i line, (srv.reply i line).WellFormed 1024
  username : CrlfFree opts.username
  password : CrlfFree opts.password

variable {srv opts} {net : Network} {s : FtpFileTransfer Control} {sock : Socket}

theorem Served.exchanges (h : Served srv opts net s sock) :
    (∀ e ∈ srv.exchanges opts.commands, e.2.WellFormed 1024) ∧
      unread sock = srv.greeting.bytes
        ++ ((srv.exchanges opts.commands).map Prod.snd).flatMap Reply.bytes := by
  refine ⟨?_, ?_⟩
  · intro e he
    obtain ⟨x, -, rfl⟩ := List.mem_map.mp he
    exact h.replies _ _
  · rw [h.stream, ControlServer.stream,
      ConnectOptions.commands_heard h.username h.password, List.flatMap_map]

theorem connect_single_greeting {digits text : Bytes} (h : Served srv opts net s sock)
    (hg : srv.greeting = .single digits text) :
    TakesOwnReplies srv opts (connect net opts s) := by
  obtain ⟨hwf, hstream⟩ := h.exchanges
  have hgreeting := h.greeting
  rw [hg] at hstream hgreeting
  obtain ⟨t, s', hrun, hsock, hw, hst, hrest, hlog⟩ :=
    greeting_single h.dialled hgreeting hstream
  obtain ⟨result, s'', done, hnegotiate, ⟨later, hlater⟩, hlog', hend⟩ :=
    negotiate_ready net (srv.exchanges_fst opts.commands) hwf
      (show s'.session.Ready (_ ++ []) from ⟨t, hsock, hw, hst, by rw [hrest, List.append_nil]⟩)
  rw [connect_eq opts hrun, hnegotiate, TakesOwnReplies, hg]
  refine ⟨fun _ => ⟨traffic later, ?_⟩, fun hok => ?_⟩
  · simp only [hlog', hlog, ← hlater]
    simp [traffic]
  · rcases hend with ⟨-, -, u, hu, -, -, hempty⟩ | ⟨⟨e, he⟩, -⟩
    · exact ⟨u, hu, hempty⟩
    · cases he.symm.trans hok

theorem connect_multi_greeting {digits text last : Bytes} {inner : List Bytes}
    (h : Served srv opts net s sock) (hcoded : srv.greeting.Coded)
    (hg : srv.greeting = .multi digits text inner last) :
    ¬TakesOwnReplies srv opts (connect net opts s) := by
  intro hown
  obtain ⟨-, hstream⟩ := h.exchanges
  have hgreeting := h.greeting
  rw [hg] at hgreeting hcoded hstream
  have hmem : digits ++ 45 :: text ∈ (Reply.multi digits text inner last).lines :=
    List.mem_cons_self ..
  obtain ⟨r, hr, hne, hbytes⟩ := Reply.rest_of_coded hgreeting hcoded
  rw [hbytes, List.append_assoc] at hstream
  obtain ⟨t, s', hrun, hsock, hw, hst, hrest, hlog⟩ := greeting_line h.dialled
    (hgreeting.clean _ hmem).1 (hgreeting.short _ hmem) hstream
  have hready : s'.session.Ready (r :: (srv.exchanges opts.commands).map Prod.snd) :=
    ⟨t, hsock, hw, hst, by rw [hrest, List.flatMap_cons]⟩
  obtain ⟨hanswer, hhead⟩ := negotiate_answered net _ _ (hr.mono (by omega)) opts hready hlog
  rw [← connect_eq opts hrun] at hanswer hhead
  -- the transcript begins with the first line where the whole greeting should stand
  obtain ⟨later, hlater⟩ := hown.1 hanswer
  have hsame := congrArg List.head? hlater
  rw [List.head?_append, hhead, hg, hbytes] at hsame
  exact absurd (by simpa using hsame) hne

theorem connect_takes_own_replies_iff (srv : ControlServer) (opts : ConnectOptions) (net : Network)
    (s : FtpFileTransfer Control) (sock : Socket) (h : Served srv opts net s sock)
    (hcoded : srv.greeting.Coded) :
    TakesOwnReplies srv opts (connect net opts s) ↔
      ∃ digits text, srv.greeting = .single digits text := by
  refine ⟨fun hown => ?_, fun ⟨digits, text, hg⟩ => connect_single_greeting h hg⟩
  cases hg : srv.greeting with
  | single digits text => exact ⟨digits, text, rfl⟩
  | multi digits text inner last => exact absurd hown (connect_multi_greeting h hcoded hg)

/-! ### Two servers -/

/-- A server with the given greeting that lets everybody in. -/
def openServer (greeting : Reply) : ControlServer where
  greeting := greeting
  reply i _ := match i with
    | 0 => .single (ascii "331") (ascii "Password")
    | 1 => .single (ascii "230") (ascii "Welcome")
    | _ => .multi (ascii "211") (ascii "Features") [ascii " SIZE"] (ascii "End")

def networkOf (sock : Socket) : Network := ⟨fun _ => .ok sock, fun _ _ => .ok sock⟩

theorem openServer_served (greeting : Reply) (opts : ConnectOptions)
    (hgreeting : greeting.WellFormed 512) (husername : CrlfFree opts.username)
    (hpassword : CrlfFree opts.password)
    (hne : (openServer greeting).stream opts ≠ []) :
    let sock := Socket.fresh (Chunked.ofChunks [(openServer greeting).stream opts])
    Served (openServer greeting) opts (networkOf sock) (.construct .initial) sock := by
  intro sock
  refine ⟨⟨rfl, ⟨rfl, by simp [sock, Socket.fresh]⟩, ?_⟩, ?_, hgreeting, ?_, husername, hpassword⟩
  · exact Chunked.steady_ofChunks (by simpa using hne)
  · exact (Chunked.arriving_ofChunks _).trans (by simp)
  · intro i line
    unfold openServer
    simp only
    split
    · exact ⟨by decide, by decide, by decide, by decide⟩
    · exact ⟨by decide, by decide, by decide, by decide⟩
    · exact ⟨by decide, by decide, by decide, by decide⟩

theorem connect_takes_own_replies_anonymous :
    let srv := openServer (.single (ascii "220") (ascii "Ready"))
    let sock := Socket.fresh (Chunked.ofChunks [srv.stream .default])
    TakesOwnReplies srv .default (connect (networkOf sock) .default (.construct .initial)) := by
  intro srv sock
  have hserved := openServer_served (.single (ascii "220") (ascii "Ready")) .default
    ⟨by decide, by decide, by decide, by decide⟩ (by decide) (by decide) (by decide)
  exact (connect_takes_own_replies_iff srv .default _ _ sock hserved fun l hl => by cases hl).mpr
    ⟨_, _, rfl⟩

/- The last line of the greeting is taken for the reply to the first command. -/
theorem connect_two_line_greeting :
    let srv := openServer (.multi (ascii "220") (ascii "Hello") [] (ascii "Ready"))
    let sock := Socket.fresh (Chunked.ofChunks [srv.stream .default])
    ¬TakesOwnReplies srv .default (connect (networkOf sock) .default (.construct .initial)) := by
  intro srv sock
  have hserved := openServer_served (.multi (ascii "220") (ascii "Hello") [] (ascii "Ready"))
    .default ⟨by decide, by decide, by decide, by decide⟩ (by decide) (by decide) (by decide)
  exact connect_multi_greeting hserved (fun l hl => by cases hl) rfl

end Greeting

end NetworkStack.Ftp
