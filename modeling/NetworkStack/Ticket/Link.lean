import Mathlib.Logic.Function.Basic
import NetworkStack.Lib.Machine
import NetworkStack.Ticket.Json
import NetworkStack.Ticket.Peer

/-!
# Interleaved sends on one connection

Any number of `sendAsync` coroutines share one controller. Each runs in five
pieces between its suspension points: it builds and serializes its ticket, writes
the prefix, writes the body, reads a prefix and reads a body. A blocking `send` has
the same pieces and lets no other call of its controller run between them. The
worker handles one ticket in a step. The events of a read are part of its label:
they bring bytes in transit, cut anywhere, and may end in a failure while the
connection stays open.
-/

namespace NetworkStack

open SocketDetail TicketFrame

structure Request where
  ticket : TicketInfo
  frame : Bytes
  deriving DecidableEq

/-- Where a call stands. A call that `threw` left with the serializer's exception. -/
inductive Call where
  | idle
  | created (rq : Request)
  | prefixWritten (rq : Request)
  | bodyWritten (rq : Request)
  | prefixRead (rq : Request) (lenBuf : Bytes)
  | finished (rq : Request) (r : Except ErrorCode Bytes)
  | threw (ticket : TicketInfo)
  deriving DecidableEq

def Call.isOver : Call → Bool
  | .idle | .finished .. | .threw _ => true
  | _ => false

def Call.isFinished : Call → Bool
  | .finished .. => true
  | _ => false

def Call.owesBody : Call → Bool
  | .prefixWritten _ => true
  | _ => false

/-- Calls are numbered as they start; `up` and `down` are in transit. `wrote` logs the
calls in the order in which they wrote their prefix. The flags record a failed read on
either side, and for the worker also a ticket it did not answer. -/
structure TicketLink (σ : Type) where
  controller : TicketController
  calls : ℕ → Call
  started : ℕ
  worker : TicketWorker σ
  up : Bytes
  down : Bytes
  wrote : List (ℕ × Request)
  controllerFailed : Bool
  workerFailed : Bool

inductive LinkStep where
  | start (args : SendArgs) (draws : Draws)
  | writePrefix (i : ℕ)
  | writeBody (i : ℕ)
  | readPrefix (i : ℕ) (incoming : List ReadEvent)
  | readBody (i : ℕ) (incoming : List ReadEvent)
  | work (incoming : List ReadEvent)

variable {σ : Type}

namespace TicketLink

def set (s : TicketLink σ) (i : ℕ) (c : Call) : TicketLink σ :=
  { s with calls := Function.update s.calls i c }

/-- A fresh connection; `id` is the controller socket's `getId()`. -/
def connect (id : ℕ) (handlers : List (Bytes × TicketHandler σ))
    (longHandlers : List (Bytes × TicketLongHandler σ)) (state : σ) : TicketLink σ :=
  { controller := ⟨Socket.fresh [], 0, ascii (toString id)⟩
    calls := fun _ => .idle
    started := 0
    worker := ⟨Socket.fresh [], handlers, longHandlers, state, [], []⟩
    up := []
    down := []
    wrote := []
    controllerFailed := false
    workerFailed := false }

variable (S : TicketSerializer) (message : ErrorCode → Bytes)

/-- The part of `sendFrameAsync` up to its first suspension point. -/
def serialize (ticket : TicketInfo) : Call :=
  match S.serialize ticket with
  | none => .threw ticket
  | some frame =>
    if frame = [] then .finished ⟨ticket, frame⟩ (.error (.errc .invalid_argument))
    else .created ⟨ticket, frame⟩

def start (s : TicketLink σ) (args : SendArgs) (draws : Draws) : TicketLink σ :=
  let (ticket_id, controller) := s.controller.generateTicketId draws
  { s.set s.started (serialize S (TicketController.requestTicket ticket_id args)) with
    controller := controller
    started := s.started + 1 }

/-- One of the two writes of `asyncWriteFrame`; `next` is where the call goes on. -/
def write (s : TicketLink σ) (i : ℕ) (rq : Request) (buffer : Bytes) (next : Call) :
    TicketLink σ :=
  let (result, socket) := asyncWriteAllCommon s.controller.socket buffer
  let put := socket.sent.drop s.controller.socket.sent.length
  let s := { s with controller := { s.controller with socket := socket }, up := s.up ++ put }
  match result with
  | .error ec => s.set i (.finished rq (.error ec))
  | .ok _ => s.set i next

def writePrefix (s : TicketLink σ) (i : ℕ) : Option (TicketLink σ) :=
  match s.calls i with
  | .created rq =>
    some { s.write i rq (framePrefix rq.frame) (.prefixWritten rq) with
      wrote := s.wrote ++ [(i, rq)] }
  | _ => none

def writeBody (s : TicketLink σ) (i : ℕ) : Option (TicketLink σ) :=
  match s.calls i with
  | .prefixWritten rq => some (s.write i rq rq.frame (.bodyWritten rq))
  | _ => none

/-- The controller's socket with these events, unless they bring bytes not in transit. -/
def arrive (s : TicketLink σ) (incoming : List ReadEvent) : Option Socket :=
  if Chunked.arriving incoming <+: s.down then
    some { s.controller.socket with incoming := incoming }
  else none

def settle (s : TicketLink σ) (incoming : List ReadEvent) (socket : Socket) : TicketLink σ :=
  { s with
    controller := { s.controller with socket := socket }
    down := Chunked.arriving socket.incoming ++ s.down.drop (Chunked.arriving incoming).length }

def readPrefix (s : TicketLink σ) (i : ℕ) (incoming : List ReadEvent) : Option (TicketLink σ) :=
  match s.calls i, s.arrive incoming with
  | .bodyWritten rq, some socket =>
    match readLengthPrefixSync socket with
    | none => none
    | some (.error ec, socket) =>
      some { (s.settle incoming socket).set i (.finished rq (.error ec)) with
        controllerFailed := true }
    | some (.ok lenBuf, socket) => some ((s.settle incoming socket).set i (.prefixRead rq lenBuf))
  | _, _ => none

def readBody (s : TicketLink σ) (i : ℕ) (incoming : List ReadEvent) : Option (TicketLink σ) :=
  match s.calls i, s.arrive incoming with
  | .prefixRead rq lenBuf, some socket =>
    match TicketFrame.readBody socket lenBuf with
    | none => none
    | some (.error ec, socket) =>
      some { (s.settle incoming socket).set i (.finished rq (.error ec)) with
        controllerFailed := true }
    | some (.ok frame, socket) =>
      match S.deserialize frame with
      | .error ec => some ((s.settle incoming socket).set i (.finished rq (.error ec)))
      | .ok response =>
        some ((s.settle incoming socket).set i
          (.finished rq (TicketController.responseResult response)))
  | _, _ => none

def work (s : TicketLink σ) (incoming : List ReadEvent) : Option (TicketLink σ) :=
  if Chunked.arriving incoming <+: s.up then
    let socket := { s.worker.socket with incoming := incoming }
    match TicketWorker.handleNext S message { s.worker with socket := socket } with
    | none => none
    | some (outcome, worker) =>
      some { s with
        worker := worker
        up := Chunked.arriving worker.socket.incoming
          ++ s.up.drop (Chunked.arriving incoming).length
        down := s.down ++ worker.socket.sent.drop s.worker.socket.sent.length
        workerFailed := s.workerFailed || !outcome.isOk }
  else none

def step (s : TicketLink σ) : LinkStep → Option (TicketLink σ)
  | .start args draws => some (s.start S args draws)
  | .writePrefix i => s.writePrefix i
  | .writeBody i => s.writeBody i
  | .readPrefix i incoming => s.readPrefix i incoming
  | .readBody i incoming => s.readBody S i incoming
  | .work incoming => s.work S message incoming

/-! ### What a step can do -/

variable {S message} {s t : TicketLink σ} {i : ℕ} {incoming : List ReadEvent}

theorem write_calls (rq : Request) (buffer : Bytes) (next : Call) :
    ∃ c, (s.write i rq buffer next).calls = Function.update s.calls i c := by
  unfold write
  simp only
  split
  · exact ⟨_, rfl⟩
  · exact ⟨_, rfl⟩

theorem writePrefix_taken (h : s.writePrefix i = some t) :
    ∃ rq, s.calls i = .created rq ∧
      t = { s.write i rq (framePrefix rq.frame) (.prefixWritten rq) with
        wrote := s.wrote ++ [(i, rq)] } := by
  unfold writePrefix at h
  split at h
  · rename_i rq hcall
    exact ⟨rq, hcall, (Option.some.inj h).symm⟩
  · cases h

theorem writeBody_taken (h : s.writeBody i = some t) :
    ∃ rq, s.calls i = .prefixWritten rq ∧ t = s.write i rq rq.frame (.bodyWritten rq) := by
  unfold writeBody at h
  split at h
  · rename_i rq hcall
    exact ⟨rq, hcall, (Option.some.inj h).symm⟩
  · cases h

/- A read that fails ends its call. -/
theorem readPrefix_taken (h : s.readPrefix i incoming = some t) :
    ∃ rq socket mid, s.calls i = .bodyWritten rq ∧ s.arrive incoming = some socket ∧
      ((∃ ec, readLengthPrefixSync socket = some (.error ec, mid) ∧
          t = { (s.settle incoming mid).set i (.finished rq (.error ec)) with
            controllerFailed := true }) ∨
        ∃ lenBuf, readLengthPrefixSync socket = some (.ok lenBuf, mid) ∧
          t = (s.settle incoming mid).set i (.prefixRead rq lenBuf)) := by
  unfold readPrefix at h
  split at h
  · rename_i rq socket hcall harrive
    split at h
    · cases h
    · rename_i ec mid hread
      exact ⟨rq, socket, mid, hcall, harrive, .inl ⟨ec, hread, (Option.some.inj h).symm⟩⟩
    · rename_i lenBuf mid hread
      exact ⟨rq, socket, mid, hcall, harrive, .inr ⟨lenBuf, hread, (Option.some.inj h).symm⟩⟩
  · cases h

theorem readBody_taken (h : s.readBody S i incoming = some t) :
    ∃ rq lenBuf socket mid, s.calls i = .prefixRead rq lenBuf ∧
      s.arrive incoming = some socket ∧
      ((∃ ec, TicketFrame.readBody socket lenBuf = some (.error ec, mid) ∧
          t = { (s.settle incoming mid).set i (.finished rq (.error ec)) with
            controllerFailed := true }) ∨
        ∃ frame, TicketFrame.readBody socket lenBuf = some (.ok frame, mid) ∧
          t = (s.settle incoming mid).set i
            (.finished rq ((S.deserialize frame).bind TicketController.responseResult))) := by
  unfold readBody at h
  split at h
  · rename_i rq lenBuf socket hcall harrive
    split at h
    · cases h
    · rename_i ec mid hread
      exact ⟨rq, lenBuf, socket, mid, hcall, harrive,
        .inl ⟨ec, hread, (Option.some.inj h).symm⟩⟩
    · rename_i frame mid hread
      refine ⟨rq, lenBuf, socket, mid, hcall, harrive, .inr ⟨frame, hread, ?_⟩⟩
      cases hdes : S.deserialize frame with
      | error ec =>
        rw [hdes] at h
        exact (Option.some.inj h).symm
      | ok response =>
        rw [hdes] at h
        exact (Option.some.inj h).symm
  · cases h

/- What the worker has not been given stays in transit behind what its socket keeps. -/
theorem work_taken (h : s.work S message incoming = some t) :
    ∃ left outcome worker, Chunked.arriving incoming ++ left = s.up ∧
      TicketWorker.handleNext S message
        { s.worker with socket := { s.worker.socket with incoming := incoming } }
          = some (outcome, worker) ∧
      t = { s with
        worker := worker
        up := Chunked.arriving worker.socket.incoming ++ left
        down := s.down ++ worker.socket.sent.drop s.worker.socket.sent.length
        workerFailed := s.workerFailed || !outcome.isOk } := by
  unfold work at h
  split at h
  · rename_i hin
    obtain ⟨left, hleft⟩ := hin
    have hdrop : s.up.drop (Chunked.arriving incoming).length = left := by
      rw [← hleft, List.drop_left]
    simp only [hdrop] at h
    split at h
    · cases h
    · rename_i outcome worker hturn
      exact ⟨left, outcome, worker, hleft, hturn, (Option.some.inj h).symm⟩
  · cases h

end TicketLink

end NetworkStack
