import NetworkStack.Ftp.Login
import NetworkStack.Lib.Machine

/-!
# Runs of public calls

Everything that can be called on one object, in any order, from its construction on.
`isAlive` only looks, so it may stand anywhere in between and is not listed.
-/

namespace NetworkStack.Ftp

open FtpFileTransfer Hoare SocketDetail

variable {γ : Type}

inductive Call (γ : Type) where
  | connect (opts : ConnectOptions)
  | request (r : Request γ) (clock : Clock)

namespace Call

def run (net : Network) : Call γ → Operation Control Unit
  | .connect opts => FtpFileTransfer.connect net opts
  | .request r clock => r.run (Control.channel net) clock

/-- There is no next call after one that has not returned or whose behaviour is undefined. -/
def step (net : Network) (s : FtpFileTransfer Control) (c : Call γ) :
    Option (FtpFileTransfer Control) :=
  match c.run net s with
  | (.error .blocked, _) => none
  | (.error .undefined, _) => none
  | (_, t) => some t

theorem step_eq_some {net : Network} {s t : FtpFileTransfer Control} {c : Call γ}
    (h : c.step net s = some t) : (c.run net s).2 = t := by
  unfold step at h
  split at h
  · cases h
  · cases h
  · rename_i r u _ _ hrun
    rw [hrun]
    exact Option.some.inj h

end Call

def constructed : FtpFileTransfer Control := .construct .initial

/-! ### A friendly server

It greets with one line and answers 230 to whatever comes; the closed examples below
connect to it. -/

def welcome : Reply := .single (ascii "220") (ascii "Ready")

def granted : Reply := .single (ascii "230") (ascii "Done")

/-- A connection to the friendly server, which has some more replies to come. -/
def friendly (opts : ConnectOptions) (later : List Reply) : Socket :=
  Socket.fresh (Chunked.ofChunks [welcome.bytes
    ++ (opts.commands.map (fun _ => granted) ++ later).flatMap Reply.bytes])

/-- Nobody's credentials. -/
def nobody : ConnectOptions := { ConnectOptions.default with username := [], password := [] }

theorem connect_friendly (net : Network) (s : FtpFileTransfer Control) (opts : ConnectOptions)
    (later : List Reply) (hnet : net.control s.session.dials = .ok (friendly opts later)) :
    ∃ s', connect net opts s = (.ok (), s') ∧ s'.session.Ready later ∧
      s'.session.transcript = .greeting welcome.bytes
        :: traffic (opts.commands.map fun c => (c, granted)) := by
  have hstream : unread (friendly opts later) = welcome.bytes
      ++ ((opts.commands.map fun c => (c, granted)).map Prod.snd ++ later).flatMap Reply.bytes := by
    refine (Chunked.arriving_ofChunks _).trans ?_
    simp [Function.comp_def]
  have hne : welcome.bytes ≠ [] := by decide
  have hdial : Dialled net s (friendly opts later) := by
    refine ⟨hnet, ⟨rfl, ?_⟩, Chunked.steady_ofChunks ?_⟩
    · intro e he
      cases he
    · simp [hne]
  have hgranted : ∀ e ∈ opts.commands.map (fun c => (c, granted)), e.2 = granted := by simp
  refine connect_ok net hdial ⟨by decide, by decide, by decide, by decide⟩ ?_ ?_ ?_ hstream
  · simp [Function.comp_def]
  · intro e he
    rw [hgranted e he]
    exact ⟨by decide, by decide, by decide, by decide⟩
  · intro e he
    rw [hgranted e he]
    decide

/-! ### Use of the socket -/

/-- No empty `_socket` was dereferenced, and a request that found no live session returned
an error. -/
def Call.Safe (net : Network) (s : FtpFileTransfer Control) (c : Call γ) : Prop :=
  (c.run net s).2.session.nullSocket = false ∧
    match c with
    | .connect _ => True
    | .request _ _ => s.session.isAlive = false → ∃ ec, (c.run net s).1 = .error (.error ec)

/-- A request is made while there is a socket. -/
def Call.HasSocket (s : FtpFileTransfer Control) : Call γ → Prop
  | .connect _ => True
  | .request _ _ => s.session.socket.isSome

namespace Control

/-- There is a socket, and it is open. -/
def Live (c : Control) : Prop :=
  c.nullSocket = false ∧ ∃ sock, c.socket = some sock ∧ sock.connected = true

/-- If there is a socket, it is open. -/
def Sound (c : Control) : Prop :=
  c.nullSocket = false ∧ ∀ sock, c.socket = some sock → sock.connected = true

theorem Live.sound {c : Control} (h : c.Live) : c.Sound := by
  obtain ⟨hnull, sock, hsock, hconnected⟩ := h
  refine ⟨hnull, fun sock' hsock' => ?_⟩
  rw [hsock] at hsock'
  cases hsock'
  exact hconnected

theorem Sound.drop {c : Control} (h : c.Sound) : c.drop.Sound :=
  ⟨h.1, fun _ hsock => by cases hsock⟩

theorem Sound.live_iff {c : Control} (h : c.Sound) : c.Live ↔ c.socket.isSome := by
  refine ⟨fun hl => ?_, fun hsome => ?_⟩
  · obtain ⟨-, sock, hsock, -⟩ := hl
    rw [hsock]
    rfl
  · obtain ⟨sock, hsock⟩ := Option.isSome_iff_exists.mp hsome
    exact ⟨h.1, sock, hsock, h.2 sock hsock⟩

end Control

theorem writeAll_connected {sock t : Socket} {bytes : Bytes} {r : Except ErrorCode ℕ}
    (h : asyncWriteAllCommon sock bytes = (r, t)) : t.connected = sock.connected := by
  unfold asyncWriteAllCommon at h
  split at h
  · cases h
    rfl
  · split at h <;> cases h <;> rfl

theorem channelKeeps_live (net : Network) (allowed : Line → Prop) :
    ChannelKeeps (Control.channel net) Control.Live allowed := by
  refine channelKeeps_of ?_ ?_ ?_ (fun _ hc => hc) fun _ hc => hc
  · rintro c hnone ⟨-, sock, hsock, -⟩
    rw [hnone] at hsock
    cases hsock
  · rintro c sock l r t hsock ⟨hnull, sock', hsock', hconnected⟩ - hwrite
    rw [hsock] at hsock'
    cases hsock'
    exact ⟨hnull, t, rfl, (writeAll_connected hwrite).trans hconnected⟩
  · rintro c sock r t hsock ⟨hnull, sock', hsock', hconnected⟩ hread
    rw [hsock] at hsock'
    cases hsock'
    exact ⟨hnull, t, rfl, (receiveResponse_readOnly hread).connected.trans hconnected⟩

/- On a network whose sockets are open, `connect` never touches an empty socket. -/
theorem connect_live {net : Network}
    (hnet : ∀ i sock, net.control i = .ok sock → sock.connected = true) (opts : ConnectOptions) :
    Leads Control.Sound Control.Live (fun _ => Control.Sound) (connect net opts) := by
  have hgreeting : Keeps Control.Live Control.greeting := by
    refine keeps_greeting ?_ ?_
    · rintro c hnone ⟨-, sock, hsock, -⟩
      rw [hnone] at hsock
      cases hsock
    · rintro c sock call hsock ⟨hnull, sock', hsock', hconnected⟩ honly
      rw [hsock] at hsock'
      cases hsock'
      exact ⟨hnull, call.socket, rfl, honly.connected.trans hconnected⟩
  exact connect_spec (channelKeeps_live net fun _ => True) (fun _ hc => hc.sound)
    (fun _ hc => hc.sound.drop) (fun _ _ => trivial) hgreeting
    (fun c sock hc hd => ⟨hc.1, sock, rfl, hnet _ _ hd⟩) fun c hc => hc

theorem connect_sound {net : Network}
    (hnet : ∀ i sock, net.control i = .ok sock → sock.connected = true) (opts : ConnectOptions)
    {s : FtpFileTransfer Control} (hs : s.session.Sound) : (connect net opts s).2.session.Sound :=
  (Triple.mono (connect_live hnet opts) (fun _ h => h) (fun _ _ h => h.sound) fun _ _ h => h).final
    hs

/- Without a socket every command is undefined behaviour, so an operation ends that way or
returns without having sent one. -/
theorem exchanges_none (net : Network) (allowed : Line → Prop) :
    Exchanges (Control.channel net) allowed (fun c => c.socket = none) (fun _ => False)
      fun e _ => e = .undefined := by
  refine ⟨fun l _ c hc => ?_, fun _ hc => hc.elim, fun _ _ hc => hc.elim⟩
  rw [Channel.sendAndReceiveResponse, bind_error (Control.sendCommand_none l.text hc)]

theorem request_none (net : Network) (r : Request γ) (clock : Clock) {s : FtpFileTransfer Control}
    (hs : s.session.socket = none) (ec : ErrorCode) :
    (r.run (Control.channel net) clock s).1 ≠ .error (.error ec) := by
  have hrun := Request.leads clock (exchanges_none net r.Sends)
    ⟨fun _ hc => hc.elim, fun _ _ hc => hc.elim, fun _ hc => hc.elim⟩
    (fun _ _ he => by cases he) s hs
  intro hec
  cases hr : r.run (Control.channel net) clock s with
  | mk result t =>
    rw [hr] at hec hrun
    cases hec
    cases hrun

theorem safe_iff_hasSocket {net : Network}
    (hnet : ∀ i sock, net.control i = .ok sock → sock.connected = true)
    {s : FtpFileTransfer Control} (hs : s.session.Sound) (c : Call γ) :
    c.Safe net s ↔ c.HasSocket s := by
  cases c with
  | connect opts =>
    exact ⟨fun _ => trivial, fun _ => ⟨(connect_sound hnet opts hs).1, trivial⟩⟩
  | request r clock =>
    show _ ↔ s.session.socket.isSome = true
    rw [← hs.live_iff]
    refine ⟨fun h => ?_, fun hlive => ?_⟩
    · by_contra hdead
      have hnone : s.session.socket = none := by
        rw [hs.live_iff] at hdead
        simpa using hdead
      obtain ⟨ec, hec⟩ := h.2 (by simp [Control.isAlive, hnone])
      exact request_none net r clock hnone ec hec
    · have hkept : (r.run (Control.channel net) clock s).2.session.Live :=
        ((channelKeeps_live net r.Sends).request clock).final hlive
      refine ⟨hkept.1, fun halive => ?_⟩
      obtain ⟨-, sock, hsock, hconnected⟩ := hlive
      simp [Control.isAlive, hsock, hconnected] at halive

theorem step_sound {net : Network}
    (hnet : ∀ i sock, net.control i = .ok sock → sock.connected = true)
    {s t : FtpFileTransfer Control} {c : Call γ} (hs : s.session.Sound) (hc : c.HasSocket s)
    (h : c.step net s = some t) : t.session.Sound := by
  rw [← Call.step_eq_some h]
  cases c with
  | connect opts => exact connect_sound hnet opts hs
  | request r clock =>
    have hlive : s.session.Live := hs.live_iff.mpr hc
    exact (((channelKeeps_live net r.Sends).request clock).final hlive).sound

theorem calls_safe_iff (net : Network)
    (hnet : ∀ i sock, net.control i = .ok sock → sock.connected = true) (calls : List (Call γ)) :
    Machine.Guarded (Call.step net) (Call.Safe net) constructed calls ↔
      Machine.Guarded (Call.step net) Call.HasSocket constructed calls := by
  have hinitial : constructed.session.Sound := ⟨rfl, fun _ hsock => by cases hsock⟩
  refine Machine.guarded_iff (fun s c hs => safe_iff_hasSocket hnet hs c) ?_ hinitial
  intro s c t hs hc h
  exact step_sound hnet hs ((safe_iff_hasSocket hnet hs c).mp hc) h

def someClock : Clock := ⟨0, 0, fun _ => none⟩

theorem calls_safe_connected :
    let net := networkOf (friendly nobody [])
    Machine.Guarded (Call.step net) (Call.Safe net) constructed
      [(.connect nobody : Call Unit), .request (.exists_ (ascii "/a")) someClock] := by
  intro net
  refine (calls_safe_iff net ?_ _).mpr ⟨trivial, fun t ht => ⟨?_, fun _ _ => trivial⟩⟩
  · intro i sock hsock
    cases hsock
    rfl
  · obtain ⟨s', hrun, ⟨sock, hsock, -⟩, -⟩ := connect_friendly net constructed nobody [] rfl
    have hstep : Call.step net constructed (.connect nobody : Call Unit) = some s' := by
      simp only [Call.step, Call.run, hrun]
    rw [hstep] at ht
    cases ht
    simp [Call.HasSocket, hsock]

/- The first thing done with a new object is to ask for a file. -/
theorem unconnected_exists_unsafe :
    let net := networkOf (friendly nobody [])
    let c : Call Unit := .request (.exists_ (ascii "/a")) someClock
    (c.run net constructed).2.session.nullSocket = true ∧
      ¬Machine.Guarded (Call.step net) (Call.Safe net) constructed [c] := by
  intro net c
  have hnull : (c.run net constructed).2.session.nullSocket = true := by decide +kernel
  refine ⟨hnull, fun h => ?_⟩
  have hsafe := h.1.1
  rw [hnull] at hsafe
  cases hsafe

/-! ### What the server hears -/

def Traffic.command? : Traffic → Option Bytes
  | .command cmd => some cmd
  | _ => none

def commands (transcript : List Traffic) : List Bytes := transcript.filterMap Traffic.command?

/-- What was written to each control connection so far, and its transcript. -/
def Control.connections (c : Control) : List (Bytes × List Traffic) :=
  c.closed ++ c.socket.toList.map fun sock => (sock.sent, c.transcript)

namespace Call

def Sends : Call γ → Line → Prop
  | .connect opts, l => opts.Sends l
  | .request r _, l => r.Sends l

/-- The strings a caller passes that end up in commands. -/
def strings : Call γ → List Bytes
  | .connect opts => [opts.username, opts.password]
  | .request r _ => [r.path]

def CleanStrings (_ : FtpFileTransfer Control) (c : Call γ) : Prop :=
  ∀ str ∈ c.strings, CrlfFree str

theorem crlfFree_sends {s : FtpFileTransfer Control} {c : Call γ} {l : Line}
    (hc : c.CleanStrings s) (h : c.Sends l) : CrlfFree l.text := by
  cases c with
  | connect opts =>
    refine crlfFree_line fun a ha => ?_
    rcases h with ⟨-, rfl⟩ | ⟨-, rfl⟩ | rfl <;> cases ha
    · exact hc opts.username (by simp [strings])
    · exact hc opts.password (by simp [strings])
  | request r clock => exact Request.crlfFree_sends (hc r.path (by simp [strings])) h

end Call

/-- The commands of all connections, in the order they were given. -/
def Control.said (c : Control) : List Bytes := c.connections.flatMap fun conn => commands conn.2

/-- Every connection was sent its commands, each with its CRLF and nothing else, and together
they are `lines`. -/
structure Control.Spoken (lines : List Line) (c : Control) : Prop where
  writable : ∀ sock, c.socket = some sock → Writable sock
  sent : ∀ conn ∈ c.connections, conn.1 = (commands conn.2).flatMap (· ++ crlf)
  said : c.said = lines.map Line.text

/-- Behind `before`, only lines that are allowed. -/
def Control.SpokenOn (before : List Line) (allowed : Line → Prop) (c : Control) : Prop :=
  ∃ lines, (∀ l ∈ lines, allowed l) ∧ c.Spoken (before ++ lines)

namespace Control.Spoken

variable {lines : List Line} {c : Control} {sock t : Socket}

/- The current connection goes on by some entries and what was written for them. -/
theorem log (h : c.Spoken lines) (hsock : c.socket = some sock) {entries : List Traffic}
    {more : List Line} (timeout : Option Int64) (ht : Writable t)
    (hmore : commands entries = more.map Line.text)
    (hsent : t.sent = sock.sent ++ (commands entries).flatMap (· ++ crlf)) :
    (c.log timeout t entries).Spoken (lines ++ more) := by
  have hmem : (sock.sent, c.transcript) ∈ c.connections := by simp [connections, hsock]
  have hcommands : commands (c.transcript ++ entries) = commands c.transcript ++ commands entries :=
    List.filterMap_append
  have hcases : ∀ conn ∈ (c.log timeout t entries).connections,
      conn ∈ c.connections ∨ conn = (t.sent, c.transcript ++ entries) := by
    intro conn hconn
    simp only [connections, Control.log, Option.toList_some, List.map_cons, List.map_nil,
      List.mem_append, List.mem_singleton] at hconn ⊢
    exact hconn.imp_left .inl
  refine ⟨?_, fun conn hconn => ?_, ?_⟩
  · intro u hu
    cases hu
    exact ht
  · rcases hcases conn hconn with hold | rfl
    · exact h.sent conn hold
    · have hbefore : sock.sent = (commands c.transcript).flatMap (· ++ crlf) := h.sent _ hmem
      rw [hsent, hcommands, List.flatMap_append, hbefore]
  · have hsaid : (c.log timeout t entries).said = c.said ++ commands entries := by
      simp [Control.said, connections, Control.log, hsock, hcommands]
    rw [hsaid, h.said, hmore, List.map_append]

theorem drop (h : c.Spoken lines) : c.drop.Spoken lines := by
  have hsame : c.drop.connections = c.connections := by simp [connections, Control.drop]
  refine ⟨?_, hsame ▸ h.sent, ?_⟩
  · intro u hu
    cases hu
  · rw [Control.said, hsame]
    exact h.said

theorem dial (h : c.Spoken lines) (hw : Writable sock) (hsent : sock.sent = []) (n : ℕ) :
    Spoken lines { c.drop with socket := some sock, dials := n, transcript := [] } := by
  have hconns : { c.drop with
      socket := some sock, dials := n, transcript := [] : Control }.connections
        = c.connections ++ [([], [])] := by
    simp [connections, Control.drop, hsent]
  refine ⟨?_, ?_, ?_⟩
  · intro u hu
    cases hu
    exact hw
  · rw [hconns]
    exact List.forall_mem_append.mpr ⟨h.sent, List.forall_mem_singleton.mpr rfl⟩
  · rw [Control.said, hconns, List.flatMap_append, ← Control.said, h.said]
    exact List.append_nil _

end Control.Spoken

section Speaking

variable {net : Network} {before : List Line}

/-- Every control connection starts with nothing sent, and no write to it fails. -/
def Network.TakesWrites (net : Network) : Prop :=
  ∀ i sock, net.control i = .ok sock → Writable sock ∧ sock.sent = []

namespace Control.SpokenOn

variable {allowed : Line → Prop} {c : Control} {sock t : Socket}

/- Only the sockets and the transcripts count. -/
theorem same (h : c.SpokenOn before allowed) {d : Control} (hsocket : d.socket = c.socket)
    (hconns : d.connections = c.connections) : d.SpokenOn before allowed := by
  obtain ⟨lines, hlines, hc⟩ := h
  refine ⟨lines, hlines, hsocket ▸ hc.writable, hconns ▸ hc.sent, ?_⟩
  rw [Control.said, hconns]
  exact hc.said

/- Nothing was written. -/
theorem listen (h : c.SpokenOn before allowed) (hsock : c.socket = some sock)
    {entries : List Traffic} (timeout : Option Int64) (hread : ReadOnly sock t)
    (hnone : commands entries = []) : (c.log timeout t entries).SpokenOn before allowed := by
  obtain ⟨lines, hlines, hc⟩ := h
  refine ⟨lines, hlines, ?_⟩
  have hlog : (c.log timeout t entries).Spoken (before ++ lines ++ []) :=
    hc.log hsock timeout ((hc.writable sock hsock).of_readOnly hread) hnone
      (by rw [hnone, hread.sent]; simp)
  rwa [List.append_nil] at hlog

end Control.SpokenOn

theorem channelKeeps_spoken (net : Network) (allowed : Line → Prop) :
    ChannelKeeps (Control.channel net) (Control.SpokenOn before allowed) allowed := by
  refine channelKeeps_of ?_ ?_ ?_ ?_ ?_
  · exact fun c _ hc => hc.same rfl rfl
  · rintro c sock l r t hsock ⟨lines, hlines, hc⟩ hl hwrite
    obtain ⟨u, hu, hwrote, hw⟩ := writeAll_writable (l.text ++ crlf) (hc.writable sock hsock)
    obtain rfl : u = t := (Prod.mk.inj (hu.symm.trans hwrite)).2
    refine ⟨lines ++ [l], List.forall_mem_append.mpr ⟨hlines, List.forall_mem_singleton.mpr hl⟩, ?_⟩
    rw [← List.append_assoc]
    exact hc.log hsock _ hw rfl (by simp [hwrote.sent, commands, Traffic.command?])
  · intro c sock r t hsock hc hread
    exact hc.listen hsock _ (receiveResponse_readOnly hread) (by cases r.toOption <;> rfl)
  · exact fun c hc => hc.same rfl rfl
  · exact fun c hc => hc.same rfl rfl

theorem connect_spoken (hnet : net.TakesWrites) (opts : ConnectOptions) :
    Leads (Control.SpokenOn before opts.Sends) (Control.SpokenOn before opts.Sends)
      (fun _ => Control.SpokenOn before opts.Sends) (connect net opts) := by
  have hgreeting : Keeps (Control.SpokenOn before opts.Sends) Control.greeting := by
    refine keeps_greeting (fun c _ hc => hc.same rfl rfl) ?_
    intro c sock call hsock hc honly
    exact hc.listen hsock _ honly (by cases call.result.toOption <;> rfl)
  refine connect_spec (channelKeeps_spoken net opts.Sends) (fun _ hc => hc) ?_ (fun _ hl => hl)
    hgreeting ?_ fun c hc => hc.same rfl rfl
  · rintro c ⟨lines, hlines, hc⟩
    exact ⟨lines, hlines, hc.drop⟩
  · rintro c sock ⟨lines, hlines, hc⟩ hd
    exact ⟨lines, hlines, hc.dial (hnet _ _ hd).1 (hnet _ _ hd).2 _⟩

/- A call says nothing but what it is meant to. -/
theorem call_spoken (hnet : net.TakesWrites) (c : Call γ) {s : FtpFileTransfer Control}
    (hs : s.session.Spoken before) : (c.run net s).2.session.SpokenOn before c.Sends := by
  have hstart : s.session.SpokenOn before c.Sends :=
    ⟨[], List.forall_mem_nil _, by rwa [List.append_nil]⟩
  cases c with
  | connect opts => exact (connect_spoken hnet opts).final hstart
  | request r clock => exact ((channelKeeps_spoken net r.Sends).request clock).final hstart

/-- The lines of each call, in the order of the calls. -/
abbrev SaidBy (calls : List (Call γ)) (said : List (List Line)) : Prop :=
  List.Forall₂ (fun call lines => ∀ l ∈ lines, call.Sends l) calls said

theorem SaidBy.concat {calls : List (Call γ)} {c : Call γ} {said : List (List Line)}
    {lines : List Line} (h : SaidBy calls said) (hlines : ∀ l ∈ lines, c.Sends l) :
    SaidBy (calls ++ [c]) (said ++ [lines]) :=
  List.rel_append h (.cons hlines .nil)

theorem SaidBy.mem {calls : List (Call γ)} {said : List (List Line)} (h : SaidBy calls said) :
    ∀ l ∈ said.flatten, ∃ call ∈ calls, call.Sends l := by
  induction h with
  | nil => exact fun l hl => by cases hl
  | @cons call lines calls said hlines _ ih =>
    intro l hl
    rcases List.mem_append.mp hl with hl | hl
    · exact ⟨call, List.mem_cons_self, hlines l hl⟩
    · obtain ⟨call', hcall', hsends⟩ := ih l hl
      exact ⟨call', List.mem_cons_of_mem _ hcall', hsends⟩

theorem spoken_constructed : constructed.session.Spoken [] := by
  refine ⟨?_, ?_, rfl⟩
  · intro sock hsock
    cases hsock
  · intro conn hconn
    cases hconn

theorem run_spoken (hnet : net.TakesWrites) {calls : List (Call γ)} {s : FtpFileTransfer Control}
    (hrun : Machine.run (Call.step net) constructed calls = some s) :
    ∃ said, SaidBy calls said ∧ s.session.Spoken said.flatten := by
  induction calls using List.reverseRecOn generalizing s with
  | nil =>
    cases hrun
    exact ⟨[], .nil, spoken_constructed⟩
  | append_singleton calls c ih =>
    obtain ⟨mid, hmid, hstep⟩ := Machine.run_concat hrun
    obtain ⟨said, hsaid, hspoken⟩ := ih hmid
    obtain ⟨lines, hlines, hafter⟩ := call_spoken hnet c hspoken
    rw [Call.step_eq_some hstep] at hafter
    exact ⟨said ++ [lines], hsaid.concat hlines, by simpa using hafter⟩

end Speaking

/- Whatever is called, and however the last call ends: the server hears the commands of the
client line by line, and these are, call by call, lines the call is meant to send, each with
the argument it was meant to have. -/
theorem commands_heard_as_sent (net : Network) (hnet : net.TakesWrites) (calls : List (Call γ))
    (c : Call γ)
    (hclean : Machine.Guarded (Call.step net) Call.CleanStrings constructed (calls ++ [c]))
    (s : FtpFileTransfer Control)
    (hrun : Machine.run (Call.step net) constructed calls = some s) :
    (∀ conn ∈ (c.run net s).2.session.connections, takeLines conn.1 = (commands conn.2, [])) ∧
    ∃ said, SaidBy (calls ++ [c]) said ∧
      (c.run net s).2.session.said = said.flatten.map Line.text := by
  obtain ⟨hguarded, hlast⟩ := Machine.guarded_concat hclean hrun
  have hcrlf : ∀ call ∈ calls ++ [c], ∀ l, call.Sends l → CrlfFree l.text := by
    intro call hcall l hl
    rcases List.mem_append.mp hcall with hcall | hcall
    · obtain ⟨u, hu⟩ := Machine.guarded_forall hguarded hrun call hcall
      exact Call.crlfFree_sends hu hl
    · rw [List.mem_singleton.mp hcall] at hl
      exact Call.crlfFree_sends hlast hl
  obtain ⟨before, hbefore, hspoken⟩ := run_spoken hnet hrun
  obtain ⟨lines, hlines, hafter⟩ := call_spoken hnet c hspoken
  have hsaid : SaidBy (calls ++ [c]) (before ++ [lines]) := hbefore.concat hlines
  have hall : (c.run net s).2.session.said = (before ++ [lines]).flatten.map Line.text := by
    simpa using hafter.said
  refine ⟨fun conn hconn => ?_, _, hsaid, hall⟩
  rw [hafter.sent conn hconn]
  refine takeLines_flatMap fun cmd hcmd => ?_
  have hmem : cmd ∈ (c.run net s).2.session.said := List.mem_flatMap.mpr ⟨conn, hconn, hcmd⟩
  rw [hall] at hmem
  obtain ⟨l, hl, rfl⟩ := List.mem_map.mp hmem
  obtain ⟨call, hcall, hsends⟩ := hsaid.mem l hl
  exact hcrlf call hcall l hsends

theorem friendly_takesWrites (opts : ConnectOptions) (later : List Reply) :
    (networkOf (friendly opts later)).TakesWrites := by
  intro i sock hsock
  cases hsock
  refine ⟨⟨rfl, ?_⟩, rfl⟩
  intro e he
  cases he

theorem commands_heard_as_sent_anna :
    let opts : ConnectOptions := { nobody with username := ascii "anna" }
    let c : Call Unit := .connect opts
    ∃ conn ∈ (c.run (networkOf (friendly opts [])) constructed).2.session.connections,
      takeLines conn.1 = ([ascii "USER anna", ascii "FEAT"], []) := by
  intro opts c
  obtain ⟨s', hrun, ⟨sock, hsock, -⟩, hlog⟩ := connect_friendly
    (networkOf (friendly opts [])) constructed opts [] rfl
  have hend : (c.run (networkOf (friendly opts [])) constructed).2 = s' := by
    simp only [c, Call.run, hrun]
  have hmem : (sock.sent, s'.session.transcript)
      ∈ (c.run (networkOf (friendly opts [])) constructed).2.session.connections := by
    simp [hend, Control.connections, hsock]
  have hclean : c.CleanStrings constructed := by
    simp only [Call.CleanStrings, c, Call.strings, List.forall_mem_cons]
    exact ⟨by decide, by decide, by simp⟩
  obtain ⟨htake, -⟩ := commands_heard_as_sent (networkOf (friendly opts []))
    (friendly_takesWrites opts []) [] c ⟨hclean, fun _ _ => trivial⟩ constructed rfl
  refine ⟨_, hmem, (htake _ hmem).trans ?_⟩
  rw [hlog]
  rfl

/- A user name with a line of its own: the client has sent two commands, and the server
hears three. -/
theorem username_adds_command :
    let opts : ConnectOptions := { nobody with username := ascii "a\r\nDELE x" }
    let c : Call Unit := .connect opts
    ∃ conn ∈ (c.run (networkOf (friendly opts [granted])) constructed).2.session.connections,
      (commands conn.2).length = 2 ∧
      takeLines conn.1 = ([ascii "USER a", ascii "DELE x", ascii "FEAT"], []) := by
  intro opts c
  obtain ⟨s', hrun, ⟨sock, hsock, -⟩, hlog⟩ := connect_friendly
    (networkOf (friendly opts [granted])) constructed opts [granted] rfl
  have hend : (c.run (networkOf (friendly opts [granted])) constructed).2 = s' := by
    simp only [c, Call.run, hrun]
  have hmem : (sock.sent, s'.session.transcript)
      ∈ (c.run (networkOf (friendly opts [granted])) constructed).2.session.connections := by
    simp [hend, Control.connections, hsock]
  obtain ⟨lines, -, hspoken⟩ :=
    call_spoken (friendly_takesWrites opts [granted]) c spoken_constructed
  have hsent : sock.sent = (commands s'.session.transcript).flatMap (· ++ crlf) :=
    hspoken.sent _ hmem
  rw [hlog] at hsent
  refine ⟨_, hmem, ?_, ?_⟩
  · rw [hlog]
    rfl
  · show takeLines sock.sent = _
    rw [hsent]
    decide

end NetworkStack.Ftp
