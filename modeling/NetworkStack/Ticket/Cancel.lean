import NetworkStack.Ticket.Exchange

/-!
# Cancelling a ticket (protocol/TicketController.cpp, TicketWorker.cpp)

`cancel` is a handshake: one ticket out, one ticket back. The controller takes the
status CANCELLED for success; a worker answers COMPLETED or FAILED.
-/

namespace NetworkStack

open SocketDetail TicketFrame

variable {σ : Type}

namespace TicketController

def cancelTicket (ticketId : Bytes) (timeout : Int64) : TicketInfo :=
  { ticket_id := ticketId
    type := .SHORT
    status := .CANCELLED
    command := ascii "cancel"
    metadata := ⟨StringMap.empty⟩
    timeout := timeout
    progress_percent := none
    progress_msg := none
    payload := none
    result := none
    error := none }

def cancelResult : Outcome TicketInfo → Outcome Unit
  | .threw => .threw
  | .returned (.error ec) => .returned (.error ec)
  | .returned (.ok response) =>
    if response.status ≠ .CANCELLED then .returned (.error (.errc .io_error))
    else .returned (.ok ())

end TicketController

namespace Session

variable (S : TicketSerializer) (message : ErrorCode → Bytes)

/- The peer's `handshake`: between its two halves the worker takes its turn. -/
def handshake (s : Session σ) (request : TicketInfo) (there back : Cutting) :
    Option (Outcome TicketInfo × Session σ) :=
  let sent := fun (socket : Socket) => { s.controller with socket := socket }
  match TicketPeer.sendFrame S s.controller.socket request with
  | (.threw, socket) => some (.threw, { s with controller := sent socket })
  | (.returned (.error ec), socket) =>
    some (.returned (.error ec), { s with controller := sent socket })
  | (.returned (.ok _), socket) =>
    let written := socket.sent.drop s.controller.socket.sent.length
    let w := { s.worker with socket := deliver s.worker.socket (there.cut written) }
    match TicketWorker.handleNext S message w with
    | none => none
    | some (_, w) =>
      let reply := w.socket.sent.drop s.worker.socket.sent.length
      match TicketPeer.receiveFrame S (deliver socket (back.cut reply)) with
      | none => none
      | some (result, socket) => some (.returned result, ⟨sent socket, w⟩)

def cancel (s : Session σ) (ticketId : Bytes) (timeout : Int64) (there back : Cutting) :
    Option (Outcome Unit × Session σ) :=
  (s.handshake S message (TicketController.cancelTicket ticketId timeout) there back).map
    fun (response, s) => (TicketController.cancelResult response, s)

end Session

/-! ### The status of a response -/

theorem TicketWorker.answer_status (message : ErrorCode → Bytes) (w : TicketWorker σ)
    (ticket : TicketInfo) :
    (answer message w ticket).1.status = .COMPLETED ∨
      (answer message w ticket).1.status = .FAILED := by
  unfold answer
  cases w.longHandlers.lookup ticket.command with
  | some handler => exact .inr rfl
  | none =>
    cases w.handlers.lookup ticket.command with
    | none => exact .inr rfl
    | some handler =>
      cases hr : (handler (contextOf ticket) w.state).1 with
      | error ec =>
        simp only [hr]
        exact .inr rfl
      | ok r =>
        simp only [hr]
        exact .inl rfl

/- Some handler registered for the ticket's command, short or long, makes a success
of it, or does not. -/
def TicketWorker.Verdict (w : TicketWorker σ) (ticket : TicketInfo) (ok : Bool) : Prop :=
  (∃ handler, w.handlers.lookup ticket.command = some handler ∧
    (handler (contextOf ticket) w.state).1.isOk = ok) ∨
  (∃ handler, w.longHandlers.lookup ticket.command = some handler ∧
    (handler (contextOf ticket) w.state).1.isOk = ok)

section Exchange

variable {S : TicketSerializer} {message : ErrorCode → Bytes} {s : Session σ}

/-- What the worker has to answer to the request on the wire. -/
def Session.answer (message : ErrorCode → Bytes) (s : Session σ) (request : TicketInfo) :
    TicketInfo :=
  (TicketWorker.answer message s.worker request.wire).1

variable (s message) in
/- The request goes out and the worker reads it; what is left is to send the answer and to
wait for it. -/
theorem Session.handshake_turn (hcontroller : Idle s.controller.socket)
    (hworker : Idle s.worker.socket) (hS : TicketPeer.RoundTrips S) {request : TicketInfo}
    {q : Bytes} (hq : S.serialize request = some q) (hqfits : Fits q) (there back : Cutting) :
    ∃ cs ws, Idle cs ∧ Idle ws ∧ ws.sent = s.worker.socket.sent ∧
      ∀ {r ws'}, TicketPeer.sendFrame S ws (s.answer message request) = (r, ws') →
        ∃ w, s.handshake S message request there back
          = (TicketPeer.receiveFrame S
              (deliver cs (back.cut (ws'.sent.drop s.worker.socket.sent.length)))).map
            fun x => (.returned x.1, ⟨{ s.controller with socket := x.2 }, w⟩) := by
  obtain ⟨n, cs, ws, hsend, hcsent, hcidle, hwrecv, hwsent, hwidle⟩ :=
    hcontroller.crosses hworker hS hq hqfits there
  refine ⟨cs, ws, hcidle, hwidle, hwsent, fun {r ws'} hreply => ?_⟩
  have hrequest : cs.sent.drop s.controller.socket.sent.length = encodeFrame q := by
    rw [hcsent, List.drop_left]
  have hanswer := TicketWorker.answer_socket message s.worker ws request.wire
  obtain ⟨-, hsocket, -⟩ :=
    TicketWorker.answer_frame message { s.worker with socket := ws } request.wire
  rw [Session.answer, ← hanswer] at hreply
  obtain ⟨result, w, hworked, hw⟩ : ∃ result w, TicketWorker.handleNext S message
      { s.worker with socket := deliver s.worker.socket (there.cut (encodeFrame q)) }
        = some (result, w) ∧ w.socket = ws' := by
    simp only [TicketWorker.handleNext, hwrecv, TicketWorker.processTicket_eq,
      TicketWorker.sendResponse, hsocket, hreply]
    cases r with
    | threw => exact ⟨_, _, rfl, rfl⟩
    | returned sent => cases sent <;> exact ⟨_, _, rfl, rfl⟩
  refine ⟨w, ?_⟩
  simp only [Session.handshake, hsend, hrequest, hworked, hw]
  cases TicketPeer.receiveFrame S
      (deliver cs (back.cut (ws'.sent.drop s.worker.socket.sent.length))) with
  | none => rfl
  | some x => rfl

/-- Over an idle connection the response is what the worker has to answer. -/
theorem Session.handshake_eq (hcontroller : Idle s.controller.socket)
    (hworker : Idle s.worker.socket) (hS : TicketPeer.RoundTrips S) {request : TicketInfo}
    {q p : Bytes} (hq : S.serialize request = some q) (hqfits : Fits q)
    (hp : S.serialize (s.answer message request) = some p) (hpfits : Fits p)
    (there back : Cutting) :
    ∃ t, s.handshake S message request there back
      = some (.returned (.ok (s.answer message request).wire), t) := by
  obtain ⟨cs, ws, hcidle, hwidle, hwsent, hturn⟩ := s.handshake_turn message
    hcontroller hworker hS hq hqfits there back
  obtain ⟨m, ws', cs', hreply, hwsent', -, hcrecv, -, -⟩ :=
    hwidle.crosses hcidle hS hp hpfits back
  have hreplied : ws'.sent.drop s.worker.socket.sent.length = encodeFrame p := by
    rw [hwsent', hwsent, List.drop_left]
  obtain ⟨w, hw⟩ := hturn hreply
  rw [hw, hreplied, hcrecv, Option.map_some]
  exact ⟨_, rfl⟩

/- A request the serializer does not take leaves as an exception. -/
variable (message) in
theorem Session.handshake_threw {request : TicketInfo} (hq : S.serialize request = none)
    (there back : Cutting) :
    ∃ t, s.handshake S message request there back = some (.threw, t) := by
  simp only [Session.handshake, TicketPeer.sendFrame, hq]
  exact ⟨_, rfl⟩

/- A response the serializer does not take is never sent, and the call goes on waiting. -/
theorem Session.handshake_waits (hcontroller : Idle s.controller.socket)
    (hworker : Idle s.worker.socket) (hS : TicketPeer.RoundTrips S) {request : TicketInfo}
    {q : Bytes} (hq : S.serialize request = some q) (hqfits : Fits q)
    (hp : S.serialize (s.answer message request) = none) (there back : Cutting) :
    s.handshake S message request there back = none := by
  obtain ⟨cs, ws, hcidle, -, hwsent, hturn⟩ := s.handshake_turn message
    hcontroller hworker hS hq hqfits there back
  have hthrows : TicketPeer.sendFrame S ws (s.answer message request) = (.threw, ws) := by
    simp only [TicketPeer.sendFrame, hp]
  obtain ⟨w, hw⟩ := hturn hthrows
  have hnothing : ws.sent.drop s.worker.socket.sent.length = [] := by
    rw [hwsent, List.drop_length]
  obtain ⟨hready, hst, hun⟩ := hcidle.deliver back []
  rw [hw, hnothing, TicketPeer.receiveFrame, readFrame_silent hready.1 hst hun]
  rfl

end Exchange

/-! ### The handler's verdict and the caller's result -/

section Cancel

variable {S : TicketSerializer} {message : ErrorCode → Bytes} {s : Session σ}

/-- What `cancel` returns is a success if and only if the handler's result is one. -/
def Session.CancelAgrees (S : TicketSerializer) (message : ErrorCode → Bytes) (s : Session σ)
    (ticketId : Bytes) (timeout : Int64) (there back : Cutting) : Prop :=
  ∀ ok, s.worker.Verdict (TicketController.cancelTicket ticketId timeout).wire ok →
    ∃ result t, s.cancel S message ticketId timeout there back = some (.returned result, t) ∧
      result.isOk = ok

theorem cancelResult_answer (message : ErrorCode → Bytes) (s : Session σ) (request : TicketInfo) :
    TicketController.cancelResult (.returned (.ok (s.answer message request).wire))
      = .returned (.error (.errc .io_error)) := by
  have hstatus : (s.answer message request).wire.status ≠ .CANCELLED := by
    rcases TicketWorker.answer_status message s.worker request.wire with h | h
    · exact fun hc => by cases h.symm.trans hc
    · exact fun hc => by cases h.symm.trans hc
  rw [TicketController.cancelResult, if_pos hstatus]

/-- Whatever the handler made of the cancel ticket, a response that arrives is not a
success: the caller and the handler agree on errors only. -/
theorem cancel_agrees_iff (hcontroller : Idle s.controller.socket)
    (hworker : Idle s.worker.socket) (hS : TicketPeer.RoundTrips S) (ticketId : Bytes)
    (timeout : Int64) (there back : Cutting)
    (hqfits : ∀ q, S.serialize (TicketController.cancelTicket ticketId timeout) = some q → Fits q)
    (hpfits : ∀ p, S.serialize
      (s.answer message (TicketController.cancelTicket ticketId timeout)) = some p → Fits p)
    (hregistered : ∃ ok,
      s.worker.Verdict (TicketController.cancelTicket ticketId timeout).wire ok) :
    s.CancelAgrees S message ticketId timeout there back ↔
      ¬ s.worker.Verdict (TicketController.cancelTicket ticketId timeout).wire true ∧
        (S.serialize (TicketController.cancelTicket ticketId timeout)).isSome ∧
        (S.serialize
          (s.answer message (TicketController.cancelTicket ticketId timeout))).isSome := by
  obtain ⟨ok, hok⟩ := hregistered
  unfold Session.CancelAgrees Session.cancel
  generalize TicketController.cancelTicket ticketId timeout = request at *
  cases hq : S.serialize request with
  | none =>
    obtain ⟨t, ht⟩ := s.handshake_threw message hq there back
    rw [ht]
    refine iff_of_false (fun h => ?_) (fun h => Bool.noConfusion h.2.1)
    obtain ⟨result, u, hthrew, -⟩ := h ok hok
    cases hthrew
  | some q =>
    cases hp : S.serialize (s.answer message request) with
    | none =>
      rw [Session.handshake_waits hcontroller hworker hS hq (hqfits q hq) hp there back]
      refine iff_of_false (fun h => ?_) (fun h => Bool.noConfusion h.2.2)
      obtain ⟨result, u, hwaits, -⟩ := h ok hok
      cases hwaits
    | some p =>
      obtain ⟨t, ht⟩ := Session.handshake_eq hcontroller hworker hS hq (hqfits q hq) hp
        (hpfits p hp) there back
      simp only [ht, Option.map_some, cancelResult_answer]
      constructor
      · refine fun h => ⟨fun htrue => ?_, rfl, rfl⟩
        obtain ⟨result, u, herror, hresult⟩ := h true htrue
        cases herror
        cases hresult
      · rintro ⟨hfalse, -, -⟩ verdict hverdict
        refine ⟨_, t, rfl, ?_⟩
        cases verdict with
        | false => rfl
        | true => exact absurd hverdict hfalse

/- A session whose worker answers `cancel` with the given result. -/
def cancelSession (result : Except ErrorCode Bytes) : Session Unit :=
  { Session.init 7 () with
    worker :=
      ((Session.init 7 ()).worker.registerHandler (ascii "cancel") fun _ s => (result, s)) }

def cancelTickets (result : Except ErrorCode Bytes) : List TicketInfo :=
  let request := TicketController.cancelTicket (ascii "t") 0
  [request, (cancelSession result).answer (fun _ => ascii "no") request]

def cancelSerializer (result : Except ErrorCode Bytes) : TicketSerializer :=
  TicketJson.serializer (TicketJson.plain (cancelTickets result))

theorem cancel_agrees_refused :
    (cancelSession (.error (.errc .invalid_argument))).CancelAgrees
      (cancelSerializer (.error (.errc .invalid_argument))) (fun _ => ascii "no") (ascii "t") 0
      .bytewise .bytewise := by
  have hidle : Idle (Socket.fresh []) := (Session.init_refines 7 ()).workerIdle
  have hfits : ∀ ticket ∈ cancelTickets (.error (.errc .invalid_argument)),
      Fits (TicketJson.render (TicketJson.to_json ticket)) := by decide +kernel
  refine (cancel_agrees_iff hidle hidle
    (fun _ _ => TicketJson.deserialize_serialize (TicketJson.plain_lawful (by decide +kernel)))
    (ascii "t") 0 .bytewise .bytewise ?_ ?_ ?_).mpr ⟨?_, ?_, ?_⟩
  · intro q hq
    exact TicketJson.plain_serialize hq ▸ hfits _ (List.mem_cons_self ..)
  · intro p hp
    exact TicketJson.plain_serialize hp ▸ hfits _ (List.mem_cons_of_mem _ (List.mem_cons_self ..))
  · exact ⟨false, .inl ⟨_, rfl, rfl⟩⟩
  · rintro (⟨handler, hlookup, hok⟩ | ⟨handler, hlookup, -⟩)
    · cases hlookup
      cases hok
    · cases hlookup
  · decide +kernel
  · decide +kernel

theorem cancel_of_success_fails :
    ¬ (cancelSession (.ok (ascii "done"))).CancelAgrees (cancelSerializer (.ok (ascii "done")))
      (fun _ => ascii "no") (ascii "t") 0 .bytewise .bytewise := by
  intro h
  obtain ⟨result, t, hcancel, hok⟩ := h true (.inl ⟨_, rfl, rfl⟩)
  have hidle : Idle (Socket.fresh []) := (Session.init_refines 7 ()).workerIdle
  have hS : TicketPeer.RoundTrips (cancelSerializer (.ok (ascii "done"))) := fun _ _ =>
    TicketJson.deserialize_serialize (TicketJson.plain_lawful (by decide +kernel))
  have hfits : ∀ ticket ∈ cancelTickets (.ok (ascii "done")),
      Fits (TicketJson.render (TicketJson.to_json ticket)) := by decide +kernel
  have hsome : ∀ ticket ∈ cancelTickets (.ok (ascii "done")),
      ((cancelSerializer (.ok (ascii "done"))).serialize ticket).isSome := by decide +kernel
  obtain ⟨q, hq⟩ := Option.isSome_iff_exists.mp (hsome _ (List.mem_cons_self ..))
  obtain ⟨p, hp⟩ := Option.isSome_iff_exists.mp
    (hsome _ (List.mem_cons_of_mem _ (List.mem_cons_self ..)))
  -- the response comes back, and it says COMPLETED
  obtain ⟨u, hu⟩ := Session.handshake_eq (s := cancelSession (.ok (ascii "done"))) hidle hidle hS
    hq (TicketJson.plain_serialize hq ▸ hfits _ (List.mem_cons_self ..)) hp
    (TicketJson.plain_serialize hp ▸
      hfits _ (List.mem_cons_of_mem _ (List.mem_cons_self ..))) .bytewise .bytewise
  simp only [Session.cancel, hu, Option.map_some, cancelResult_answer] at hcancel
  cases hcancel
  cases hok

end Cancel

end NetworkStack
