import NetworkStack.Core.ErrorCodes
import NetworkStack.Lib.Machine

/-!
# Listening servers (server/Server.cpp, ServerBase.cpp)

One call of `asyncListen` or `asyncListenTls` on a new server, one call of `stop`
and the detached coroutines of the accepted connections, step by step in any
order. What the system calls bring about comes with the steps.
-/

namespace NetworkStack

/-! ### Options of an accepted socket -/

/- The members of `TcpOptions` that `applyPreConnectTcpOptions` reads. -/
structure TcpOptions where
  nodelay : Bool
  keepalive_idle : Option Int64
  keepalive_interval : Option Int64
  keepalive_count : Option Int64
  send_buf_size : Option UInt64
  recv_buf_size : Option UInt64
  linger_timeout : Option Int64

def TcpOptions.default : TcpOptions := ⟨true, none, none, none, none, none, none⟩

inductive SocketOption where
  | no_delay
  | keep_alive
  | send_buffer_size (n : Int32)
  | receive_buffer_size (n : Int32)
  | linger (seconds : Int32)
  deriving DecidableEq, Repr

def makeSocketCreateError (_ : ErrorCode) : ErrorCode := .network .SOCKET_CREATE_FAILED

/-- `makeServerError(ec, "accept")`. -/
def makeAcceptError (_ : ErrorCode) : ErrorCode := .network .SERVER_ACCEPT_FAILED

def makeOptionError (_ : ErrorCode) : ErrorCode := .network .OPTION_ERROR

/-- The options are set in turn; the first that cannot be set ends it. -/
def setOptions (setOption : SocketOption → Option ErrorCode) :
    List (Option SocketOption) → Option ErrorCode
  | [] => none
  | none :: rest => setOptions setOption rest
  | some o :: rest =>
    match setOption o with
    | some ec => some (makeOptionError ec)
    | none => setOptions setOption rest

namespace TcpOptions

/-- A linger timeout is cut to whole seconds. -/
def inOrder (opts : TcpOptions) : List (Option SocketOption) :=
  [if opts.nodelay then some .no_delay else none,
    if opts.keepalive_idle.isSome || opts.keepalive_interval.isSome || opts.keepalive_count.isSome
      then some .keep_alive else none,
    opts.send_buf_size.map fun n => .send_buffer_size n.toUInt32.toInt32,
    opts.recv_buf_size.map fun n => .receive_buffer_size n.toUInt32.toInt32,
    opts.linger_timeout.map fun ms => .linger (ms / 1000).toInt32]

end TcpOptions

def applyPreConnectTcpOptions (setOption : SocketOption → Option ErrorCode) (opts : TcpOptions) :
    Option ErrorCode :=
  setOptions setOption opts.inOrder

theorem setOptions_eq_none {setOption : SocketOption → Option ErrorCode}
    {options : List (Option SocketOption)} :
    setOptions setOption options = none ↔ ∀ o, some o ∈ options → setOption o = none := by
  induction options with
  | nil => simp [setOptions]
  | cons head rest ih =>
    cases head with
    | none => simp [setOptions, ih]
    | some o =>
      cases ho : setOption o with
      | none => simp [setOptions, ho, ih]
      | some ec => simp [setOptions, ho]

/-! ### The server -/

/- A client and what becomes of it: how its socket takes each option, what
`applyPreConnectTlsOptions` returns for it and how its handshake ends (a handshake that
timed out ends with an error too). -/
structure Connection where
  setOption : SocketOption → Option ErrorCode
  tlsOptions : Option ErrorCode
  handshake : Option ErrorCode

/- Where the coroutine of an accepted connection stands. -/
inductive ConnectionStage where
  | spawned
  | handshaking
  | handing
  | handled
  | dropped
  deriving DecidableEq, Repr

inductive ListenStage where
  | notBegun
  | opening
  | settingOption
  | binding
  | listening
  | creatingContext
  | checking
  | accepting
  | configuring (c : Connection)
  | returned (r : Except ErrorCode Unit)

/- `stop` up to the step named. -/
inductive StopStage where
  | notCalled
  | stored
  | baseDone
  | cancelled
  | over
  deriving DecidableEq, Repr

/- `beganStopped` (the listen call began after `stop` was over), `accepted` and `handled`
(the connections given to the client handler, by number) are logs. -/
structure Server where
  acceptorOpen : Bool
  stopRequested : Bool
  listen : ListenStage
  stop : StopStage
  connections : List (Connection × ConnectionStage)
  beganStopped : Bool
  accepted : List Connection
  handled : List ℕ

structure ListenCall where
  tls : Bool
  tcp_opts : TcpOptions

inductive ServerStep where
  | begin
  | openAcceptor (ec : Option ErrorCode)
  | setOption (ec : Option ErrorCode)
  | bind (ec : Option ErrorCode)
  | listen (ec : Option ErrorCode)
  | createTlsContext (ec : Option ErrorCode)
  | isStopped
  | accept (r : Except ErrorCode Connection)
  | configure
  | coroutine (i : ℕ)
  | store
  | cancelBase (ec : Option ErrorCode)
  | cancel (throws : Bool)
  | close

def bad_descriptor : ErrorCode := .other 0 9

def already_open : ErrorCode := .other 1 1

namespace Server

def fresh : Server := ⟨false, false, .notBegun, .notCalled, [], false, [], []⟩

def finish (s : Server) (r : Except ErrorCode Unit) : Server := { s with listen := .returned r }

/-- Go on if the system call succeeded; none succeeds on a closed acceptor. -/
def setup (s : Server) (ec : Option ErrorCode) (next : ListenStage) : Server :=
  match if s.acceptorOpen then ec else some bad_descriptor with
  | some ec => s.finish (.error (makeSocketCreateError ec))
  | none => { s with listen := next }

def openAcceptor (s : Server) (ec : Option ErrorCode) : Server :=
  match if s.acceptorOpen then some already_open else ec with
  | some ec => s.finish (.error (makeSocketCreateError ec))
  | none => { s with acceptorOpen := true, listen := .settingOption }

/-- A pending accept may still bring a connection after the acceptor has been closed. -/
def acceptOne (s : Server) : Except ErrorCode Connection → Server
  | .error ec =>
    if ec = .asio .operation_aborted ∨ ec = bad_descriptor then s.finish (.ok ())
    else s.finish (.error (makeAcceptError ec))
  | .ok c => { s with listen := .configuring c, accepted := s.accepted ++ [c] }

def configure (call : ListenCall) (s : Server) (c : Connection) : Server :=
  match applyPreConnectTcpOptions c.setOption call.tcp_opts with
  | some ec => s.finish (.error ec)
  | none => { s with listen := .checking, connections := s.connections ++ [(c, .spawned)] }

def move (s : Server) (i : ℕ) (c : Connection) (stage : ConnectionStage) : Server :=
  { s with connections := s.connections.set i (c, stage) }

/-- The handler is called with the connection. -/
def hand (s : Server) (i : ℕ) (c : Connection) : Server :=
  { s.move i c .handled with handled := s.handled ++ [i] }

def hasReturned (s : Server) : Bool :=
  match s.listen with
  | .returned _ => true
  | _ => false

/-- `acceptPlainSocket`, `acceptTlsSocket` and the coroutine that each of them spawns for
the handler. `acceptTlsSocket` starts with references into the frame of `asyncListenTls`:
there is no step once that is gone. -/
def advance (call : ListenCall) (s : Server) (i : ℕ) (c : Connection) :
    ConnectionStage → Option Server
  | .spawned =>
    if call.tls then
      if s.hasReturned then none
      else
        match c.tlsOptions with
        | some _ => some (s.move i c .dropped)
        | none => some (s.move i c .handshaking)
    else some (s.move i c .handing)
  | .handshaking =>
    match c.handshake with
    | some _ => some (s.move i c .dropped)
    | none => some (s.move i c .handing)
  | .handing => some (s.hand i c)
  | .handled => none
  | .dropped => none

def step (call : ListenCall) (s : Server) : ServerStep → Option Server
  | .begin =>
    match s.listen with
    | .notBegun => some { s with listen := .opening, beganStopped := s.stop = .over }
    | _ => none
  | .openAcceptor ec =>
    match s.listen with
    | .opening => some (s.openAcceptor ec)
    | _ => none
  | .setOption ec =>
    match s.listen with
    | .settingOption => some (s.setup ec .binding)
    | _ => none
  | .bind ec =>
    match s.listen with
    | .binding => some (s.setup ec .listening)
    | _ => none
  | .listen ec =>
    match s.listen with
    | .listening => some (s.setup ec (if call.tls then .creatingContext else .checking))
    | _ => none
  | .createTlsContext ec =>
    match s.listen, ec with
    | .creatingContext, none => some { s with listen := .checking }
    | .creatingContext, some ec => some (s.finish (.error ec))
    | _, _ => none
  | .isStopped =>
    match s.listen with
    | .checking =>
      some (if s.stopRequested then s.finish (.ok ()) else { s with listen := .accepting })
    | _ => none
  | .accept r =>
    match s.listen with
    | .accepting => some (s.acceptOne r)
    | _ => none
  | .configure =>
    match s.listen with
    | .configuring c => some (s.configure call c)
    | _ => none
  | .coroutine i =>
    match s.connections[i]? with
    | some (c, stage) => s.advance call i c stage
    | none => none
  | .store =>
    match s.stop with
    | .notCalled => some { s with stopRequested := true, stop := .stored }
    | _ => none
  | .cancelBase _ =>
    match s.stop with
    | .stored => some { s with stop := .baseDone }
    | _ => none
  -- an exception of `acceptor.cancel()` leaves `stop`
  | .cancel throws =>
    match s.stop with
    | .baseDone => some { s with stop := if throws then .over else .cancelled }
    | _ => none
  | .close =>
    match s.stop with
    | .cancelled => some { s with acceptorOpen := false, stop := .over }
    | _ => none

/-- The call has not yet come to `acceptor.open`. -/
def BeforeOpen (s : Server) : Prop := s.listen = .notBegun ∨ s.listen = .opening

/-! ### What a step can do -/

variable {call : ListenCall} {s t : Server}

/- Each step, by the stage in which it is taken and the state it leads to. -/
theorem step_taken {l : ServerStep} (h : step call s l = some t) :
    match l with
    | .begin => s.listen = .notBegun ∧
        t = { s with listen := .opening, beganStopped := s.stop = .over }
    | .openAcceptor ec => s.listen = .opening ∧ t = s.openAcceptor ec
    | .setOption ec => s.listen = .settingOption ∧ t = s.setup ec .binding
    | .bind ec => s.listen = .binding ∧ t = s.setup ec .listening
    | .listen ec => s.listen = .listening ∧
        t = s.setup ec (if call.tls then .creatingContext else .checking)
    | .createTlsContext ec => s.listen = .creatingContext ∧
        (ec = none ∧ t = { s with listen := .checking } ∨
          ∃ e, ec = some e ∧ t = s.finish (.error e))
    | .isStopped => s.listen = .checking ∧
        t = if s.stopRequested then s.finish (.ok ()) else { s with listen := .accepting }
    | .accept r => s.listen = .accepting ∧ t = s.acceptOne r
    | .configure => ∃ c, s.listen = .configuring c ∧ t = s.configure call c
    | .coroutine i => ∃ c stage, s.connections[i]? = some (c, stage) ∧
        s.advance call i c stage = some t
    | .store => s.stop = .notCalled ∧ t = { s with stopRequested := true, stop := .stored }
    | .cancelBase _ => s.stop = .stored ∧ t = { s with stop := .baseDone }
    | .cancel throws => s.stop = .baseDone ∧
        t = { s with stop := if throws then .over else .cancelled }
    | .close => s.stop = .cancelled ∧ t = { s with acceptorOpen := false, stop := .over } := by
  cases l with
  | createTlsContext ec =>
    cases hs : s.listen with
    | creatingContext =>
      simp only [step, hs] at h
      cases ec with
      | none => exact ⟨rfl, .inl ⟨rfl, (Option.some.inj h).symm⟩⟩
      | some e => exact ⟨rfl, .inr ⟨e, rfl, (Option.some.inj h).symm⟩⟩
    | _ =>
      simp only [step, hs] at h
      cases h
  | configure =>
    simp only [step] at h
    split at h
    · rename_i c hs
      exact ⟨c, hs, (Option.some.inj h).symm⟩
    · cases h
  | coroutine i =>
    simp only [step] at h
    split at h
    · rename_i c stage hi
      exact ⟨c, stage, hi, h⟩
    · cases h
  | _ =>
    simp only [step] at h
    split at h
    · rename_i hs
      exact ⟨hs, (Option.some.inj h).symm⟩
    · cases h

/- A coroutine touches its own connection, and what the handler has been given. -/
theorem advance_frame {i : ℕ} {c : Connection} {stage : ConnectionStage}
    (h : s.advance call i c stage = some t) :
    ∃ next handled, t = { s with
      connections := s.connections.set i (c, next), handled := handled } := by
  cases stage with
  | spawned =>
    simp only [advance] at h
    split at h
    · split at h
      · cases h
      · split at h
        · exact ⟨.dropped, s.handled, (Option.some.inj h).symm⟩
        · exact ⟨.handshaking, s.handled, (Option.some.inj h).symm⟩
    · exact ⟨.handing, s.handled, (Option.some.inj h).symm⟩
  | handshaking =>
    simp only [advance] at h
    split at h
    · exact ⟨.dropped, s.handled, (Option.some.inj h).symm⟩
    · exact ⟨.handing, s.handled, (Option.some.inj h).symm⟩
  | handing => exact ⟨.handled, s.handled ++ [i], (Option.some.inj h).symm⟩
  | handled => cases h
  | dropped => cases h

/- The stages behind `acceptor.open` in which the call has not returned. -/
structure Underway (stage : ListenStage) : Prop where
  begun : stage ≠ .notBegun ∧ stage ≠ .opening
  returned : ∀ r, stage ≠ .returned r

theorem not_beforeOpen {stage : ListenStage} (hs : s.listen = stage)
    (hstage : stage ≠ .notBegun ∧ stage ≠ .opening) : ¬ s.BeforeOpen := by
  rintro (hb | hb)
  · exact hstage.1 (hs.symm.trans hb)
  · exact hstage.2 (hs.symm.trans hb)

end Server

end NetworkStack
