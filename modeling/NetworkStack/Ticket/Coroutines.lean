import NetworkStack.Lib.Pool
import NetworkStack.Ticket.Exchange

/-!
# Workers on a thread pool (protocol/TicketWorker.cpp, socket/TcpSocket.cpp)

`handleNextAsync` as the pool sees it: where it gives its thread back (`co_await`) and
where it keeps it for a coroutine that it has queued (`writeAll`, which is `co_spawn` and
`future.get()`). A reply is awaited, but an error reply is sent with the blocking calls.
-/

namespace NetworkStack

open Pool

variable {σ : Type}

/- How often the transport operations of one coroutine suspend it, and whether its write
of the length prefix succeeds. -/
structure Transport where
  reads : ℕ
  prefixWaits : ℕ
  bodyWaits : ℕ
  prefixWritten : Bool

namespace Transport

/-- Two times `writeAll`. -/
def writeFrame (io : Transport) : List Action :=
  .call io.prefixWaits :: if io.prefixWritten then [.call io.bodyWaits] else []

/-- Two times `asyncWriteAll`. -/
def asyncWriteFrame (io : Transport) : List Action :=
  List.replicate io.prefixWaits .await ++
    if io.prefixWritten then List.replicate io.bodyWaits .await else []

end Transport

/- A coroutine of `handleNextAsync`: its worker, the ticket that its read brings (`none` for
an error) and what its socket does. -/
structure Coroutine (σ : Type) where
  worker : TicketWorker σ
  received : Option TicketInfo
  io : Transport

namespace Coroutine

variable (S : TicketSerializer) (message : ErrorCode → Bytes)

/- `TicketPeer::sendFrame` and `sendFrameAsync`, around the one or the other write. -/
def sendFrame (ticket : TicketInfo) (write : List Action) : List Action :=
  match S.serialize ticket with
  | none => []
  | some serialized => if serialized = [] then [] else write

def sendErrorResponse (io : Transport) (ticket : TicketInfo) (error : Bytes) : List Action :=
  sendFrame S (TicketWorker.errorResponse ticket.ticket_id error ticket.type ticket.command
    ticket.timeout) io.writeFrame

def sendResponseAsync (io : Transport) (response : TicketInfo) : List Action :=
  sendFrame S response io.asyncWriteFrame

def processTicketAsync (w : TicketWorker σ) (io : Transport) (ticket : TicketInfo) :
    List Action :=
  match w.longHandlers.lookup ticket.command with
  | some _ => sendErrorResponse S io ticket (ascii "long handlers not implemented")
  | none =>
    match w.handlers.lookup ticket.command with
    | none => sendErrorResponse S io ticket (ascii "unknown command")
    | some handler =>
      match (handler (TicketWorker.contextOf ticket) w.state).1 with
      | .error ec => sendErrorResponse S io ticket (message ec)
      | .ok result => sendResponseAsync S io (TicketWorker.completedResponse ticket result)

def handleNextAsync (c : Coroutine σ) : List Action :=
  List.replicate c.io.reads .await ++
    match c.received with
    | none => []
    | some ticket => processTicketAsync S message c.worker c.io ticket

/-- The coroutine receives a ticket for a long handler, for no handler or for one that
fails, and the error reply to it can be serialized. -/
def errorReply (c : Coroutine σ) : Bool :=
  match c.received with
  | none => false
  | some ticket =>
    let response := (TicketWorker.answer message c.worker ticket).1
    response.status = .FAILED &&
      match S.serialize response with
      | none => false
      | some serialized => serialized ≠ []

variable {S : TicketSerializer} {message : ErrorCode → Bytes}

theorem blocking_append (p q : List Action) : blocking (p ++ q) = (blocking p || blocking q) :=
  List.any_append

theorem blocking_asyncWriteFrame (io : Transport) : blocking io.asyncWriteFrame = false := by
  rw [Transport.asyncWriteFrame, blocking_append, blocking_replicate, Bool.false_or]
  split
  · exact blocking_replicate _
  · rfl

theorem blocking_sendFrame (ticket : TicketInfo) (write : List Action) :
    blocking (sendFrame S ticket write)
      = (blocking write && match S.serialize ticket with
        | none => false
        | some serialized => serialized ≠ []) := by
  unfold sendFrame
  cases S.serialize ticket with
  | none => simp [blocking]
  | some serialized =>
    by_cases h : serialized = []
    · simp [h, blocking]
    · simp [h]

/-- The response of the worker goes out in blocking writes if it reports a failure. -/
theorem processTicketAsync_eq (w : TicketWorker σ) (io : Transport) (ticket : TicketInfo) :
    processTicketAsync S message w io ticket
      = sendFrame S (TicketWorker.answer message w ticket).1
          (if (TicketWorker.answer message w ticket).1.status = .FAILED then io.writeFrame
            else io.asyncWriteFrame) := by
  unfold processTicketAsync TicketWorker.answer
  cases w.longHandlers.lookup ticket.command with
  | some handler => rfl
  | none =>
    cases w.handlers.lookup ticket.command with
    | none => rfl
    | some handler =>
      cases hr : (handler (TicketWorker.contextOf ticket) w.state).1 with
      | error ec =>
        simp only [hr]
        rfl
      | ok result =>
        simp only [hr]
        rfl

theorem blocking_handleNextAsync (c : Coroutine σ) :
    blocking (c.handleNextAsync S message) = c.errorReply S message := by
  rw [handleNextAsync, blocking_append, blocking_replicate, Bool.false_or, errorReply]
  cases c.received with
  | none => rfl
  | some ticket =>
    simp only [processTicketAsync_eq, blocking_sendFrame]
    by_cases hfailed : (TicketWorker.answer message c.worker ticket).1.status = .FAILED
    · rw [if_pos hfailed, decide_eq_true hfailed]
      rfl
    · rw [if_neg hfailed, decide_eq_false hfailed, blocking_asyncWriteFrame]

end Coroutine

/-- On a pool of `n` threads, whatever the coroutines receive: no run brings the pool to a
standstill if and only if fewer than `n` of them have to send an error reply. -/
theorem pool_never_deadlocks_iff (S : TicketSerializer) (message : ErrorCode → Bytes) (n : ℕ)
    (coroutines : List (Coroutine σ)) :
    (∀ ls t, Machine.run (step n)
        (start (coroutines.map fun c => c.handleNextAsync S message)) ls = some t →
      ¬ Deadlocked n t) ↔
      coroutines.countP (fun c => c.errorReply S message) < n := by
  have hcount : (coroutines.map fun c => c.handleNextAsync S message).countP blocking
      = coroutines.countP fun c => c.errorReply S message := by
    rw [List.countP_map]
    exact List.countP_congr fun c _ => by simp [Coroutine.blocking_handleNextAsync]
  rw [← hcount, ← Nat.not_le, ← deadlock_reachable_iff]
  constructor
  · rintro h ⟨ls, t, hrun, ht⟩
    exact h ls t hrun ht
  · exact fun h ls t hrun ht => h ⟨ls, t, hrun, ht⟩

/-! ### Four unknown commands -/

def unknownRequest : TicketInfo :=
  TicketController.requestTicket (ascii "t") ⟨ascii "nope", [], [], 0⟩

def unknownReply : TicketInfo :=
  TicketWorker.errorResponse (ascii "t") (ascii "unknown command") .SHORT (ascii "nope") 0

/- A worker without handlers, whose request has to be waited for. -/
def unknownCoroutine : Coroutine Unit :=
  ⟨(Session.init 7 ()).worker, some unknownRequest, ⟨1, 1, 1, true⟩⟩

/- Every thread takes the oldest task: all four wait for their requests, all four requests
come in, and all four threads go on to the first write of a reply. -/
def fourAtOnce : List Label :=
  [.take 0, .run 0, .take 1, .run 1, .take 2, .run 2, .take 3, .run 3,
    .resume 0, .resume 1, .resume 2, .resume 3, .take 0, .take 1, .take 2, .take 3,
    .run 0, .run 1, .run 2, .run 3]

theorem four_error_replies_deadlock :
    ∃ t, Machine.run (step 4) (start ((List.replicate 4 unknownCoroutine).map fun c =>
        c.handleNextAsync (TicketJson.serializer (TicketJson.plain [unknownReply])) fun _ => []))
      fourAtOnce = some t ∧ Deadlocked 4 t := by
  refine ⟨_, rfl, ?_⟩
  decide +kernel

end NetworkStack
