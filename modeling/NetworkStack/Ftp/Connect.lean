import NetworkStack.Ftp.Requests
import NetworkStack.Ftp.Responses

/-!
# Connecting (protocol/FtpFileTransfer.cpp)

The control channel as the class has it: a socket that may be missing, and the
options. `Client` is a parameter, a network that gives the outcome of each
connection attempt. `connect` reads the greeting, logs in and asks for the features.
-/

namespace NetworkStack.Ftp

open Hoare SocketDetail Utility

/-- The timeouts are counts of milliseconds. -/
structure ConnectOptions where
  username : Bytes
  password : Bytes
  timeout : Int64
  data_timeout : Option Int64
  use_passive : Bool

def ConnectOptions.default : ConnectOptions :=
  ⟨ascii "anonymous", ascii "anonymous@", 10000, none, false⟩

/-- What went over a control connection: the line taken for the greeting, the texts
handed to `sendCommand`, the answers `receiveResponse` returned. -/
inductive Traffic where
  | greeting (text : Bytes)
  | command (cmd : Bytes)
  | answer (a : Answer)
  deriving DecidableEq

/-- The timeout that was given to a call on the control socket, or to the connection attempt
or the calls of a data socket. -/
inductive Wait where
  | control (timeout : Option Int64)
  | data (timeout : Int64)
  deriving DecidableEq

/- `dials` and `dataDials` count the connection attempts. `transcript` logs the traffic
of the connection opened last, `closed` what was written to each connection that is gone
and its traffic, `nullSocket` whether an empty `_socket` has been dereferenced, and `waits`
the timeouts; no function looks at these four. -/
structure Control where
  socket : Option Socket
  options : ConnectOptions
  dials : ℕ
  dataDials : ℕ
  transcript : List Traffic
  closed : List (Bytes × List Traffic)
  nullSocket : Bool
  waits : List Wait

def Control.initial : Control := ⟨none, .default, 0, 0, [], [], false, []⟩

/-- The outcome of each attempt to open a control connection and a data connection. -/
structure Network where
  control : ℕ → Except ErrorCode Socket
  data : ℕ → Endpoint → Except ErrorCode Socket

namespace Control

def getDataTimeout (c : Control) : Int64 := c.options.data_timeout.getD c.options.timeout

def isAlive (c : Control) : Bool := c.socket.any (·.connected)

/-- A call with this timeout leaves the socket so. -/
def log (c : Control) (timeout : Option Int64) (sock : Socket) (entries : List Traffic) : Control :=
  { c with
    socket := some sock
    transcript := c.transcript ++ entries
    waits := c.waits ++ [.control timeout] }

/-- Uses `*_socket`. -/
def onSocket {α : Type} (f : Socket → Act Control Exit α) : Act Control Exit α := fun c =>
  match c.socket with
  | none => (.error .undefined, { c with nullSocket := true })
  | some sock => f sock c

/-- What is written is a command and its CRLF. -/
def writeAll (bytes : Bytes) : Act Control Exit Unit := onSocket fun sock c =>
  let entry := .command (bytes.take (bytes.length - 2))
  match asyncWriteAllCommon sock bytes with
  | (.error ec, sock) => (.error (.error ec), c.log (some c.options.timeout) sock [entry])
  | (.ok _, sock) => (.ok (), c.log (some c.options.timeout) sock [entry])

def receiveResponse : Act Control Exit Answer := onSocket fun sock c =>
  match Ftp.receiveResponse sock with
  | none => (.error .blocked, c)
  | some (.error e, sock) => (.error e, c.log (some c.options.timeout) sock [])
  | some (.ok a, sock) => (.ok a, c.log (some c.options.timeout) sock [.answer a])

def waitOnData (c : Control) : Control :=
  { c with waits := c.waits ++ [.data c.getDataTimeout] }

def connectData (net : Network) (endpoint : Endpoint) : Act Control Exit Socket := fun c =>
  match net.data c.dataDials endpoint with
  | .error ec => (.error (.error ec), { c.waitOnData with dataDials := c.dataDials + 1 })
  | .ok socket => (.ok socket, { c.waitOnData with dataDials := c.dataDials + 1 })

def channel (net : Network) : Channel Control :=
  ⟨writeAll, receiveResponse, connectData net, waitOnData⟩

section Equations

variable {net : Network} {c : Control} {sock : Socket}

theorem sendCommand_none (cmd : Bytes) (h : c.socket = none) :
    (channel net).sendCommand cmd c = (.error .undefined, { c with nullSocket := true }) := by
  simp only [Channel.sendCommand, channel, writeAll, onSocket, h]

theorem sendCommand_some (cmd : Bytes) (h : c.socket = some sock) :
    (channel net).sendCommand cmd c =
      ((asyncWriteAllCommon sock (cmd ++ crlf)).1.map (fun _ => ()) |>.mapError .error,
        c.log (some c.options.timeout) (asyncWriteAllCommon sock (cmd ++ crlf)).2
          [.command cmd]) := by
  have hcmd : (cmd ++ crlf).take ((cmd ++ crlf).length - 2) = cmd := by simp [crlf]
  simp only [Channel.sendCommand, channel, writeAll, onSocket, h, hcmd]
  cases asyncWriteAllCommon sock (cmd ++ crlf) with
  | mk r t => cases r <;> rfl

theorem receiveResponse_none (h : c.socket = none) :
    (channel net).receiveResponse c = (.error .undefined, { c with nullSocket := true }) := by
  simp only [channel, receiveResponse, onSocket, h]

theorem receiveResponse_some (h : c.socket = some sock) :
    (channel net).receiveResponse c =
      match Ftp.receiveResponse sock with
      | none => (.error .blocked, c)
      | some (r, t) => (r, c.log (some c.options.timeout) t (r.toOption.toList.map .answer)) := by
  simp only [channel, receiveResponse, onSocket, h]
  cases Ftp.receiveResponse sock with
  | none => rfl
  | some x =>
    obtain ⟨r, t⟩ := x
    cases r <;> rfl

end Equations

/-! ### The steps of `connect` -/

/-- The socket is destroyed. -/
def drop (c : Control) : Control :=
  { c with
    socket := none
    closed := c.closed ++ c.socket.toList.map fun sock => (sock.sent, c.transcript) }

def dial (net : Network) : Act Control Exit Unit := fun c =>
  match net.control c.dials with
  | .error ec => (.error (.error ec), { c with dials := c.dials + 1 })
  | .ok sock =>
    (.ok (), { c.drop with socket := some sock, dials := c.dials + 1, transcript := [] })

/-- One line into 512 bytes, without a timeout; that it does not begin with 220 is only
reported. -/
def greeting : Act Control Exit Unit := onSocket fun sock c =>
  match asyncReadUntilCommon sock (List.replicate 512 0) crlf with
  | none => (.error .blocked, c)
  | some ⟨.error ec, _, sock⟩ => (.error (.error ec), c.log none sock [])
  | some ⟨.ok n, buffer, sock⟩ => (.ok (), c.log none sock [.greeting (buffer.take n)])

def reset : Act Control Exit Unit := fun c => (.ok (), c.drop)

end Control

/-! ### Features -/

def FtpCapabilities.announce (c : FtpCapabilities) (feature : Bytes) : FtpCapabilities :=
  if ascii "MLST" <+: feature then { c with mlst := true }
  else if ascii "NLST" <+: feature then { c with nlst := true }
  else if ascii "SIZE" <+: feature then { c with size := true }
  else if ascii "MDTM" <+: feature then { c with mdtm := true }
  else if ascii "RENAME" <+: feature then { c with rename := true }
  else if ascii "PASV" <+: feature then { c with pasv := true }
  else if ascii "FEAT" <+: feature then { c with feat := true }
  else c

/-- The lines of a reply that name features, less the leading blank and the trailing ones. -/
def featureLines (feat_response : Bytes) : List Bytes :=
  (splitLines feat_response).filterMap fun line =>
    match line with
    | 32 :: b :: rest =>
      some ((b :: rest).reverse.dropWhile fun b => b = 32 ∨ b = cr ∨ b = lf).reverse
    | _ => none

def parseFeatures (c : FtpCapabilities) (feat_response : Bytes) : FtpCapabilities :=
  (featureLines feat_response).foldl FtpCapabilities.announce c

namespace FtpFileTransfer

variable (net : Network)

/-- A login command; the socket goes when it fails, by an error or by its code. -/
def login (cmd : Bytes) (accepted : List ℕ) : Operation Control Unit := do
  let cmd_result ← hasValue (control ((Control.channel net).sendAndReceiveResponse cmd))
  match cmd_result with
  | .error ec => do
    control Control.reset
    stop (.error ec)
  | .ok a =>
    if a.code ∈ accepted then pure ()
    else do
      control Control.reset
      stop protocolError

def setCapabilities (f : FtpCapabilities → FtpCapabilities) : Operation Control Unit := fun s =>
  (.ok (), { s with capabilities := f s.capabilities })

def feat : Operation Control Unit := do
  let feat_result ← hasValue (control ((Control.channel net).sendAndReceiveResponse (ascii "FEAT")))
  match feat_result with
  | .error _ => pure ()
  | .ok a =>
    if a.code = 211 then setCapabilities (parseFeatures · a.full_msg) else pure ()

/-- A credential that is empty is not sent. -/
def credential (verb value : Bytes) (accepted : List ℕ) : Operation Control Unit :=
  if value ≠ [] then login net (verb ++ value) accepted else pure ()

/-- The part of `connect` behind the greeting. -/
def negotiate (opts : ConnectOptions) : Operation Control Unit := do
  credential net (ascii "USER ") opts.username [331, 230]
  credential net (ascii "PASS ") opts.password [230, 231]
  feat net

def connect (opts : ConnectOptions) : Operation Control Unit := do
  control (Control.dial net)
  control Control.greeting
  negotiate net opts

end FtpFileTransfer

/-! ### What `connect` sends, and what it keeps -/

def ConnectOptions.Sends (opts : ConnectOptions) (l : Line) : Prop :=
  (opts.username ≠ [] ∧ l = ⟨.USER, some opts.username⟩) ∨
    (opts.password ≠ [] ∧ l = ⟨.PASS, some opts.password⟩) ∨ l = ⟨.FEAT, none⟩

namespace FtpFileTransfer

variable {net : Network} {I E : Control → Prop} {allowed : Line → Prop}

/- Everything a use of the control channel can do to the session. -/
theorem channelKeeps_of
    (hnull : ∀ c : Control, c.socket = none → I c → I { c with nullSocket := true })
    (hwrite : ∀ (c : Control) sock l r t, c.socket = some sock → I c → allowed l →
      asyncWriteAllCommon sock (l.text ++ crlf) = (r, t) →
        I (c.log (some c.options.timeout) t [.command l.text]))
    (hread : ∀ (c : Control) sock r t, c.socket = some sock → I c →
      receiveResponse sock = some (r, t) →
        I (c.log (some c.options.timeout) t (r.toOption.toList.map .answer)))
    (hdial : ∀ c : Control, I c → I { c with dataDials := c.dataDials + 1 })
    (hwait : ∀ c : Control, I c → I c.waitOnData) :
    ChannelKeeps (Control.channel net) I allowed := by
  refine ⟨fun l hl => keeps_iff.mpr fun c hc => ?_, keeps_iff.mpr fun c hc => ?_,
    fun endpoint => keeps_iff.mpr fun c hc => ?_, hwait⟩
  · cases hsock : c.socket with
    | none =>
      rw [Control.sendCommand_none _ hsock]
      exact hnull c hsock hc
    | some sock =>
      rw [Control.sendCommand_some _ hsock]
      exact hwrite c sock l _ _ hsock hc hl rfl
  · cases hsock : c.socket with
    | none =>
      rw [Control.receiveResponse_none hsock]
      exact hnull c hsock hc
    | some sock =>
      rw [Control.receiveResponse_some hsock]
      cases hcall : receiveResponse sock with
      | none => exact hc
      | some x => exact hread c sock x.1 x.2 hsock hc hcall
  · simp only [Control.channel, Control.connectData]
    cases net.data c.dataDials endpoint with
    | error ec => exact hdial _ (hwait c hc)
    | ok sock => exact hdial _ (hwait c hc)

/- The greeting is one read. -/
theorem keeps_greeting
    (hnull : ∀ c : Control, c.socket = none → I c → I { c with nullSocket := true })
    (hread : ∀ (c : Control) sock (call : ReadCall), c.socket = some sock → I c →
      ReadOnly sock call.socket → I (c.log none call.socket
        (call.result.toOption.toList.map fun n => .greeting (call.out.take n)))) :
    Keeps I Control.greeting := by
  refine keeps_iff.mpr fun c hc => ?_
  cases hsock : c.socket with
  | none =>
    have hrun : Control.greeting c = (.error .undefined, { c with nullSocket := true }) := by
      simp only [Control.greeting, Control.onSocket, hsock]
    rw [hrun]
    exact hnull c hsock hc
  | some sock =>
    cases hcall : asyncReadUntilCommon sock (List.replicate 512 0) crlf with
    | none =>
      have hrun : Control.greeting c = (.error .blocked, c) := by
        simp only [Control.greeting, Control.onSocket, hsock, hcall]
      rw [hrun]
      exact hc
    | some call =>
      have hrun : (Control.greeting c).2 = c.log none call.socket
          (call.result.toOption.toList.map fun n => .greeting (call.out.take n)) := by
        obtain ⟨r, out, t⟩ := call
        simp only [Control.greeting, Control.onSocket, hsock, hcall]
        cases r <;> rfl
      rw [hrun]
      exact hread c sock call hsock hc
        (@ReadOp.run_readOnly _ (.readUntil (List.replicate 512 0) crlf) _ hcall)

section Specs

variable (h : ChannelKeeps (Control.channel net) I allowed) (hE : ∀ c, I c → E c)
  (hdrop : ∀ c, I c → E c.drop)

include h hE hdrop

/- The exit may find the socket gone. -/
theorem login_spec {l : Line} (hl : allowed l) (accepted : List ℕ) :
    Leads I I (fun _ => E) (login net l.text accepted) := by
  have hsend : Leads I I (fun _ => E)
      (hasValue (control ((Control.channel net).sendAndReceiveResponse l.text))) :=
    Triple.mono ((h.exchanges.command hl).hasValue fun _ _ hs => hs) (fun _ hs => hs)
      (fun _ _ hs => hs) fun _ _ hs => hE _ hs
  have hfail : ∀ e, Leads I I (fun _ => E)
      (do control Control.reset; stop e : Operation Control Unit) := fun e s hs => hdrop _ hs
  refine Triple.bind hsend fun cmd_result => ?_
  cases cmd_result with
  | error ec => exact hfail _
  | ok a => exact .ite (fun _ => leads_pure _) fun _ => hfail _

omit hdrop hE in
theorem keeps_feat (hl : allowed ⟨.FEAT, none⟩) : Leads I I (fun _ => I) (feat net) := by
  refine Triple.bind ((h.exchanges.command hl).hasValue fun _ _ hs => hs) fun feat_result => ?_
  cases feat_result with
  | error ec => exact leads_pure _
  | ok a => exact .ite (fun _ _ hs => hs) fun _ => leads_pure _

theorem negotiate_spec {opts : ConnectOptions} (hsend : ∀ l, opts.Sends l → allowed l) :
    Leads I I (fun _ => E) (negotiate net opts) := by
  refine Triple.bind (.ite (fun hne => ?_) fun _ => leads_pure _) fun _ =>
    Triple.bind (.ite (fun hne => ?_) fun _ => leads_pure _) fun _ => ?_
  · exact login_spec h hE hdrop (hsend ⟨.USER, some opts.username⟩ (.inl ⟨hne, rfl⟩)) _
  · exact login_spec h hE hdrop (hsend ⟨.PASS, some opts.password⟩ (.inr (.inl ⟨hne, rfl⟩))) _
  · exact Triple.mono (keeps_feat h (hsend ⟨.FEAT, none⟩ (.inr (.inr rfl)))) (fun _ hs => hs)
      (fun _ _ hs => hs) fun _ s hs => hE _ hs

/- `I` holds while there is a connection, `E` before it and after it is gone. -/
theorem connect_spec {opts : ConnectOptions} (hsend : ∀ l, opts.Sends l → allowed l)
    (hgreeting : Keeps I Control.greeting)
    (hdial : ∀ c sock, E c → net.control c.dials = .ok sock →
      I { c.drop with socket := some sock, dials := c.dials + 1, transcript := [] })
    (hfail : ∀ c, E c → E { c with dials := c.dials + 1 }) :
    Leads E I (fun _ => E) (connect net opts) := by
  have hfirst : Leads E I (fun _ => E) (control (Control.dial net)) := by
    refine leads_control fun c hc => ?_
    simp only [Control.dial]
    cases hd : net.control c.dials with
    | error ec => exact hfail c hc
    | ok sock => exact hdial c sock hc hd
  have hsecond : Leads I I (fun _ => E) (control Control.greeting) :=
    Triple.mono (leads_control hgreeting) (fun _ hs => hs) (fun _ _ hs => hs) fun _ _ hs => hE _ hs
  exact Triple.bind hfirst fun _ =>
    Triple.bind hsecond fun _ => negotiate_spec h hE hdrop hsend

end Specs

end FtpFileTransfer

end NetworkStack.Ftp
