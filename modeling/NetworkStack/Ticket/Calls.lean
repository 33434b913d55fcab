import NetworkStack.Lib.Hoare
import NetworkStack.Ticket.Cancel

/-!
# The calls of a controller (protocol/TicketController.cpp, TicketPeer.cpp, TicketFrame.h)

All entry points of a controller over the frames of its peer. Besides the socket, the state
has the frame operations with the time limits they were given, the tickets handshakes
were begun with, and what the caller's progress callback works on. The coroutines have the
text of the blocking functions around the frame functions of their own.
-/

namespace NetworkStack

open Hoare SocketDetail

/-- The blocking frame functions, or the awaited ones. -/
inductive Variant where
  | sync
  | async
  deriving DecidableEq

namespace TicketFrame

/-- The default arguments of `writeFrame` and `asyncWriteFrame`. -/
def writeTimeout : Variant → Int64
  | .sync => 30000
  | .async => 30000

/-- The default arguments of `readFrame` and `asyncReadFrame`. -/
def readTimeout : Variant → Int64
  | .sync => 30000
  | .async => 30000

end TicketFrame

/-- A frame operation with its time limit. -/
inductive FrameCall where
  | write (timeout : Int64)
  | read (timeout : Int64)
  deriving DecidableEq

def FrameCall.timeout : FrameCall → Int64
  | .write timeout => timeout
  | .read timeout => timeout

/- How a call ends other than by returning a value: with an error code, with an exception,
not at all because a read waits, or not within the polls it was followed for. -/
inductive CallExit where
  | error (ec : ErrorCode)
  | threw
  | waiting
  | polling
  deriving DecidableEq

def ioError : CallExit := .error (.errc .io_error)

def protocolError : CallExit := .error (.errc .protocol_error)

/-! ### The peer -/

structure PeerState where
  socket : Socket
  frames : List FrameCall

namespace PeerState

variable (S : TicketSerializer)

def writeFrame (frame : Bytes) (timeout : Int64) : Act PeerState CallExit ℕ := fun p =>
  let frames := p.frames ++ [.write timeout]
  match TicketFrame.writeFrame p.socket frame with
  | (.error ec, socket) => (.error (.error ec), ⟨socket, frames⟩)
  | (.ok n, socket) => (.ok n, ⟨socket, frames⟩)

def readFrame (timeout : Int64) : Act PeerState CallExit Bytes := fun p =>
  let frames := p.frames ++ [.read timeout]
  match TicketFrame.readFrame p.socket with
  | none => (.error .waiting, ⟨p.socket, frames⟩)
  | some (.error ec, socket) => (.error (.error ec), ⟨socket, frames⟩)
  | some (.ok frame, socket) => (.ok frame, ⟨socket, frames⟩)

/-- The frame functions are called without a limit of the caller's. -/
def sendFrame (v : Variant) (ticket : TicketInfo) : Act PeerState CallExit ℕ :=
  match S.serialize ticket with
  | none => stop .threw
  | some serialized =>
    if serialized = [] then stop (.error (.errc .invalid_argument))
    else writeFrame serialized (TicketFrame.writeTimeout v)

def receiveFrame (v : Variant) : Act PeerState CallExit TicketInfo := do
  let frame ← readFrame (TicketFrame.readTimeout v)
  match S.deserialize frame with
  | .error ec => stop (.error ec)
  | .ok ticket => pure ticket

def handshake (v : Variant) (request : TicketInfo) : Act PeerState CallExit TicketInfo := do
  let _ ← sendFrame S v request
  receiveFrame S v

/-! What the two halves of a handshake do to the socket, and the operations they log. -/

/-- Only a ticket with a serialization is written. -/
def writes (v : Variant) (ticket : TicketInfo) : List FrameCall :=
  match S.serialize ticket with
  | none => []
  | some serialized => if serialized = [] then [] else [.write (TicketFrame.writeTimeout v)]

theorem sendFrame_eq (v : Variant) (ticket : TicketInfo) (p : PeerState) :
    sendFrame S v ticket p =
      match TicketPeer.sendFrame S p.socket ticket with
      | (.threw, socket) => (.error .threw, ⟨socket, p.frames ++ writes S v ticket⟩)
      | (.returned r, socket) =>
        (r.mapError .error, ⟨socket, p.frames ++ writes S v ticket⟩) := by
  unfold sendFrame TicketPeer.sendFrame writes
  cases S.serialize ticket with
  | none => simp [stop]
  | some serialized =>
    by_cases hempty : serialized = []
    · simp [hempty, stop, Except.mapError]
    · simp only [if_neg hempty, writeFrame]
      cases TicketFrame.writeFrame p.socket serialized with
      | mk r socket =>
        cases r with
        | error ec => rfl
        | ok n => rfl

theorem receiveFrame_eq (v : Variant) (p : PeerState) :
    receiveFrame S v p =
      match TicketPeer.receiveFrame S p.socket with
      | none => (.error .waiting, ⟨p.socket, p.frames ++ [.read (TicketFrame.readTimeout v)]⟩)
      | some (r, socket) =>
        (r.mapError .error, ⟨socket, p.frames ++ [.read (TicketFrame.readTimeout v)]⟩) := by
  unfold receiveFrame TicketPeer.receiveFrame
  cases hread : TicketFrame.readFrame p.socket with
  | none =>
    rw [bind_error (by simp only [readFrame, hread]; rfl)]
  | some x =>
    obtain ⟨frame, socket⟩ := x
    cases frame with
    | error ec =>
      rw [bind_error (by simp only [readFrame, hread]; rfl)]
      rfl
    | ok frame =>
      rw [bind_ok (by simp only [readFrame, hread]; rfl)]
      simp only
      cases S.deserialize frame with
      | error ec => rfl
      | ok ticket => rfl

theorem sendFrame_frames (v : Variant) (ticket : TicketInfo) (p : PeerState) :
    (sendFrame S v ticket p).2.frames = p.frames ++ writes S v ticket := by
  rw [sendFrame_eq]
  cases TicketPeer.sendFrame S p.socket ticket with
  | mk r socket =>
    cases r with
    | threw => rfl
    | returned r => rfl

theorem receiveFrame_frames (v : Variant) (p : PeerState) :
    (receiveFrame S v p).2.frames = p.frames ++ [.read (TicketFrame.readTimeout v)] := by
  rw [receiveFrame_eq]
  cases TicketPeer.receiveFrame S p.socket with
  | none => rfl
  | some x => rfl

end PeerState

/-! ### The controller -/

variable {τ : Type}

/- A controller and its caller: `user` is what a progress callback reads and changes. -/
structure Client (τ : Type) where
  peer : PeerState
  ticketCounter : UInt64
  socketId : Bytes
  user : τ
  requests : List TicketInfo

namespace Client

variable (S : TicketSerializer)

def controller (s : Client τ) : TicketController := ⟨s.peer.socket, s.ticketCounter, s.socketId⟩

abbrev Call (τ α : Type) := Act (Client τ) CallExit α

def generateTicketId (draws : Draws) : Call τ Bytes := fun s =>
  (.ok (TicketController.ticketIdText s.socketId s.ticketCounter draws),
    { s with ticketCounter := s.ticketCounter + 1 })

theorem generateTicketId_run (draws : Draws) (s : Client τ) :
    generateTicketId draws s = (.ok (s.controller.generateTicketId draws).1,
      { s with ticketCounter := s.ticketCounter + 1 }) := rfl

def handshake (v : Variant) (request : TicketInfo) : Call τ TicketInfo := fun s =>
  let (r, peer) := PeerState.handshake S v request s.peer
  (r, { s with peer := peer, requests := s.requests ++ [request] })

/-- A null `std::function` is not called. -/
def progress (onProgress : Option (TicketInfo → τ → τ)) (response : TicketInfo) :
    Call τ Unit := fun s =>
  match onProgress with
  | none => (.ok (), s)
  | some f => (.ok (), { s with user := f response s.user })

def sendWith (v : Variant) (args : SendArgs) (draws : Draws) : Call τ Bytes := do
  let ticket_id ← generateTicketId draws
  let response ← handshake S v (TicketController.requestTicket ticket_id args)
  if response.status = .FAILED then stop ioError
  else
    match response.result with
    | none => stop protocolError
    | some result => pure result

def pollTicket (ticketId : Bytes) (timeout : Int64) : TicketInfo :=
  { ticket_id := ticketId
    type := .SHORT
    status := .PENDING
    command := ascii "poll"
    metadata := ⟨StringMap.empty⟩
    timeout := timeout
    progress_percent := none
    progress_msg := none
    payload := none
    result := none
    error := none }

def pollWith (v : Variant) (ticketId : Bytes) (timeout : Int64) : Call τ TicketInfo := do
  let response ← handshake S v (pollTicket ticketId timeout)
  if response.status = .FAILED then stop ioError else pure response

/-- The loop of `sendLong`, for at most `fuel` polls. -/
def whileRunning (v : Variant) (onProgress : Option (TicketInfo → τ → τ)) (timeout : Int64) :
    (fuel : ℕ) → TicketInfo → Call τ TicketInfo
  | 0, response => if response.status = .RUNNING then stop .polling else pure response
  | fuel + 1, response =>
    if response.status = .RUNNING then do
      progress onProgress response
      let pollResult ← pollWith S v response.ticket_id timeout
      whileRunning v onProgress timeout fuel pollResult
    else pure response

def longTicket (ticket_id : Bytes) (args : SendArgs) : TicketInfo :=
  { TicketController.requestTicket ticket_id args with type := .LONG }

def sendLongWith (v : Variant) (args : SendArgs) (onProgress : Option (TicketInfo → τ → τ))
    (draws : Draws) (fuel : ℕ) : Call τ TicketInfo := do
  let ticket_id ← generateTicketId draws
  let response ← handshake S v (longTicket ticket_id args)
  if response.status = .FAILED then stop ioError
  else if response.status = .COMPLETED then pure response
  else if response.status = .CANCELLED then pure response
  else
    let response ← whileRunning S v onProgress args.timeout fuel response
    if response.status = .COMPLETED then pure response
    else if response.status = .CANCELLED then pure response
    else if response.status = .FAILED then stop ioError
    else stop protocolError

def send (args : SendArgs) (draws : Draws) : Call τ Bytes := sendWith S .sync args draws

def sendAsync (args : SendArgs) (draws : Draws) : Call τ Bytes := sendWith S .async args draws

def sendLong (args : SendArgs) (onProgress : Option (TicketInfo → τ → τ)) (draws : Draws)
    (fuel : ℕ) : Call τ TicketInfo := sendLongWith S .sync args onProgress draws fuel

def sendLongAsync (args : SendArgs) (onProgress : Option (TicketInfo → τ → τ)) (draws : Draws)
    (fuel : ℕ) : Call τ TicketInfo := sendLongWith S .async args onProgress draws fuel

def poll (ticketId : Bytes) (timeout : Int64) : Call τ TicketInfo :=
  pollWith S .sync ticketId timeout

def pollAsync (ticketId : Bytes) (timeout : Int64) : Call τ TicketInfo :=
  pollWith S .async ticketId timeout

def cancel (ticketId : Bytes) (timeout : Int64) : Call τ Unit := do
  let response ← handshake S .sync (TicketController.cancelTicket ticketId timeout)
  if response.status ≠ .CANCELLED then stop ioError else pure ()

/-! ### Calls without their logs -/

variable {S : TicketSerializer} {α β : Type}

/-- The result of a call and the controller it leaves. -/
def outcome : Except CallExit α × Client τ → Option (Outcome α × TicketController)
  | (.ok a, t) => some (.returned (.ok a), t.controller)
  | (.error (.error ec), t) => some (.returned (.error ec), t.controller)
  | (.error .threw, t) => some (.threw, t.controller)
  | (.error .waiting, _) => none
  | (.error .polling, _) => none

theorem outcome_handshake (v : Variant) (request : TicketInfo) (s : Client τ) :
    outcome (handshake S v request s) =
      match TicketPeer.sendFrame S s.peer.socket request with
      | (.threw, socket) => some (.threw, { s.controller with socket := socket })
      | (.returned (.error ec), socket) =>
        some (.returned (.error ec), { s.controller with socket := socket })
      | (.returned (.ok _), socket) =>
        (TicketPeer.receiveFrame S socket).map fun (r, socket) =>
          (.returned r, { s.controller with socket := socket }) := by
  have hwrote := PeerState.sendFrame_eq S v request s.peer
  unfold handshake PeerState.handshake
  cases hsend : TicketPeer.sendFrame S s.peer.socket request with
  | mk r socket =>
    rw [hsend] at hwrote
    cases r with
    | threw =>
      rw [bind_error hwrote]
      rfl
    | returned r =>
      cases r with
      | error ec =>
        rw [bind_error hwrote]
        rfl
      | ok n =>
        rw [bind_ok hwrote, PeerState.receiveFrame_eq]
        simp only
        cases TicketPeer.receiveFrame S socket with
        | none => rfl
        | some x =>
          obtain ⟨r, socket'⟩ := x
          cases r with
          | error ec => rfl
          | ok response => rfl

/-- What a call makes of the response, if there is one. -/
def answered (g : α → Except ErrorCode β) : Outcome α → Outcome β
  | .threw => .threw
  | .returned (.error ec) => .returned (.error ec)
  | .returned (.ok a) => .returned (g a)

/- The rest of a call that leaves the controller alone. -/
theorem outcome_bind {m : Call τ α} {f : α → Call τ β} {g : α → Except ErrorCode β}
    (hf : ∀ a t, f a t = ((g a).mapError .error, t)) (s : Client τ) :
    outcome ((m >>= f) s) = (outcome (m s)).map fun x => (answered g x.1, x.2) := by
  cases hm : m s with
  | mk r t =>
    cases r with
    | ok a =>
      rw [bind_ok hm, hf]
      cases hg : g a with
      | ok b => simp [outcome, answered, hg, Except.mapError]
      | error ec => simp [outcome, answered, hg, Except.mapError]
    | error e =>
      rw [bind_error hm]
      cases e with
      | error ec => rfl
      | threw => rfl
      | waiting => rfl
      | polling => rfl

/-- In either variant a send is the one of the controller. -/
theorem outcome_sendWith (v : Variant) (args : SendArgs) (draws : Draws) (s : Client τ) :
    outcome (sendWith S v args draws s) = TicketController.send S s.controller draws args := by
  rw [sendWith, bind_ok (generateTicketId_run draws s),
    outcome_bind (g := TicketController.responseResult), outcome_handshake, TicketController.send,
    TicketController.startSend]
  · simp only [controller, TicketController.generateTicketId]
    generalize TicketController.requestTicket _ args = request
    cases TicketPeer.sendFrame S s.peer.socket request with
    | mk r socket =>
      cases r with
      | threw => rfl
      | returned r =>
        cases r with
        | error ec => rfl
        | ok n =>
          simp only [TicketController.finishSend]
          cases TicketPeer.receiveFrame S socket with
          | none => rfl
          | some x =>
            obtain ⟨r, socket'⟩ := x
            cases r with
            | error ec => rfl
            | ok response => rfl
  · intro response t
    unfold TicketController.responseResult
    by_cases hfailed : response.status = .FAILED
    · rw [if_pos hfailed, if_pos hfailed]
      rfl
    · rw [if_neg hfailed, if_neg hfailed]
      cases response.result with
      | none => rfl
      | some result => rfl

theorem outcome_cancel (ticketId : Bytes) (timeout : Int64) (s : Client τ) :
    outcome (cancel S ticketId timeout s)
      = (outcome (handshake S .sync (TicketController.cancelTicket ticketId timeout) s)).map
        fun x => (TicketController.cancelResult x.1, x.2) := by
  let g : TicketInfo → Except ErrorCode Unit := fun response =>
    if response.status ≠ .CANCELLED then .error (.errc .io_error) else .ok ()
  have hresult : TicketController.cancelResult = answered g := by
    funext r
    cases r with
    | threw => rfl
    | returned r =>
      cases r with
      | error ec => rfl
      | ok response =>
        simp only [TicketController.cancelResult, answered, g]
        split
        · rfl
        · rfl
  rw [hresult]
  refine outcome_bind (fun response t => ?_) s
  simp only [g]
  split
  · rfl
  · rfl

end Client

end NetworkStack
