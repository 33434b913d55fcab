import NetworkStack.Ticket.Frame
import NetworkStack.Ticket.Info

/-!
# Controller and worker (protocol/TicketPeer.cpp, TicketController.cpp, TicketWorker.cpp)

Both ends own a peer: a socket and a serializer. The synchronous functions and
the coroutines have the same text. Here are the short requests and what a worker
does with any request.
-/

namespace NetworkStack

open SocketDetail TicketFrame

inductive Outcome (α : Type) where
  | returned (r : Except ErrorCode α)
  | threw

def Outcome.isOk {α : Type} : Outcome α → Bool
  | .returned (.ok _) => true
  | _ => false

variable (S : TicketSerializer)

namespace TicketPeer

def sendFrame (socket : Socket) (ticket : TicketInfo) : Outcome ℕ × Socket :=
  match S.serialize ticket with
  | none => (.threw, socket)
  | some serialized =>
    if serialized = [] then (.returned (.error (.errc .invalid_argument)), socket)
    else
      let (result, socket) := writeFrame socket serialized
      (.returned result, socket)

def receiveFrame (socket : Socket) : Option (Except ErrorCode TicketInfo × Socket) :=
  match readFrame socket with
  | none => none
  | some (.error ec, socket) => some (.error ec, socket)
  | some (.ok frame, socket) => some (S.deserialize frame, socket)

/- What a serializer has to do for its tickets to arrive: tickets it serializes come
back, with the timeout as an `int`. -/
def RoundTrips : Prop :=
  ∀ ticket bytes, S.serialize ticket = some bytes →
    bytes ≠ [] ∧ S.deserialize bytes = .ok ticket.wire

variable {S}

theorem sendFrame_writable {s : Socket} {ticket : TicketInfo} {bytes : Bytes} (hs : Writable s)
    (hser : S.serialize ticket = some bytes) (hne : bytes ≠ []) :
    ∃ n t, sendFrame S s ticket = (.returned (.ok n), t) ∧ Wrote s (encodeFrame bytes) t ∧
      Writable t := by
  obtain ⟨t, hw, hwrote, ht⟩ := writeFrame_writable bytes hs
  exact ⟨length_prefix_size + bytes.length, t, by simp only [sendFrame, hser, if_neg hne, hw],
    hwrote, ht⟩

theorem receiveFrame_steady {s : Socket} {bytes rest : Bytes} (hs : s.connected = true)
    (hst : Chunked.Steady s.incoming) (hfits : Fits bytes)
    (hstream : unread s = encodeFrame bytes ++ rest) :
    ∃ t, receiveFrame S s = some (S.deserialize bytes, t) ∧ Chunked.Steady t.incoming ∧
      ReadOnly s t ∧ unread t = rest := by
  obtain ⟨t, hr, ht, honly, hrest⟩ := readFrame_steady hs hst hfits hstream
  exact ⟨t, by simp only [receiveFrame, hr], ht, honly, hrest⟩

theorem receiveFrame_readOnly {s t : Socket} {r : Except ErrorCode TicketInfo}
    (h : receiveFrame S s = some (r, t)) : ReadOnly s t := by
  unfold receiveFrame at h
  cases hread : readFrame s with
  | none => rw [hread] at h; cases h
  | some x =>
    obtain ⟨frame, socket⟩ := x
    have hsocket : socket = t := by
      rw [hread] at h
      cases frame with
      | error ec => exact (Prod.mk.inj (Option.some.inj h)).2
      | ok frame => exact (Prod.mk.inj (Option.some.inj h)).2
    exact readFrame_readOnly (hsocket ▸ hread)

end TicketPeer

/-! ### Requests -/

/-- What the random generators give: one draw for each position, one for the variant digit. -/
structure Draws where
  dist : ℕ → Fin 16
  dist2 : Fin 4

def generate_uuid (draws : Draws) : Bytes :=
  let hex := (ascii "0123456789abcdef").toArray
  (List.range 36).map fun i =>
    if i = 8 ∨ i = 13 ∨ i = 18 ∨ i = 23 then 45
    else if i = 12 then 52
    else if i = 16 then hex.getD (8 + draws.dist2) 0
    else hex.getD (draws.dist i) 0

structure TicketController where
  socket : Socket
  ticketCounter : UInt64
  socketId : Bytes

structure SendArgs where
  command : Bytes
  payload : Bytes
  metadata : Bytes
  timeout : Int64

namespace TicketController

def ticketIdText (socketId : Bytes) (ticketCounter : UInt64) (draws : Draws) : Bytes :=
  generate_uuid draws ++ ascii "/" ++ socketId ++ ascii "#" ++ ascii (toString ticketCounter.toNat)

def generateTicketId (c : TicketController) (draws : Draws) : Bytes × TicketController :=
  (ticketIdText c.socketId c.ticketCounter draws, { c with ticketCounter := c.ticketCounter + 1 })

def requestTicket (ticket_id : Bytes) (args : SendArgs) : TicketInfo :=
  { ticket_id := ticket_id
    type := .SHORT
    status := .PENDING
    command := args.command
    metadata := ⟨if args.metadata = [] then StringMap.empty
      else StringMap.empty.insert (ascii "metadata") args.metadata⟩
    timeout := args.timeout
    progress_percent := none
    progress_msg := none
    payload := some args.payload
    result := none
    error := none }

def responseResult (response : TicketInfo) : Except ErrorCode Bytes :=
  if response.status = .FAILED then .error (.errc .io_error)
  else
    match response.result with
    | none => .error (.errc .protocol_error)
    | some result => .ok result

/-- The part of `send` up to the end of `sendFrame`. -/
def startSend (c : TicketController) (draws : Draws) (args : SendArgs) :
    TicketInfo × Outcome ℕ × TicketController :=
  let (ticket_id, c) := c.generateTicketId draws
  let ticket := requestTicket ticket_id args
  let (result, socket) := TicketPeer.sendFrame S c.socket ticket
  (ticket, result, { c with socket := socket })

/-- The part of `send` from `receiveFrame` on. -/
def finishSend (c : TicketController) : Option (Except ErrorCode Bytes × TicketController) :=
  match TicketPeer.receiveFrame S c.socket with
  | none => none
  | some (.error ec, socket) => some (.error ec, { c with socket := socket })
  | some (.ok response, socket) => some (responseResult response, { c with socket := socket })

def send (c : TicketController) (draws : Draws) (args : SendArgs) :
    Option (Outcome Bytes × TicketController) :=
  match startSend S c draws args with
  | (_, .threw, c) => some (.threw, c)
  | (_, .returned (.error ec), c) => some (.returned (.error ec), c)
  | (_, .returned (.ok _), c) =>
    (finishSend S c).map fun (r, c) => (.returned r, c)

end TicketController

/-! ### Replies -/

variable {σ : Type}

/-- A handler reads and changes whatever state it shares with the others. -/
abbrev TicketHandler (σ : Type) := TicketContext → σ → Except ErrorCode Bytes × σ

abbrev TicketLongHandler (σ : Type) := TicketContext → σ → Except ErrorCode TicketInfo × σ

/- `invocations` logs the contexts short handlers were called with, `responses` the
responses that went out. -/
structure TicketWorker (σ : Type) where
  socket : Socket
  handlers : List (Bytes × TicketHandler σ)
  longHandlers : List (Bytes × TicketLongHandler σ)
  state : σ
  invocations : List TicketContext
  responses : List TicketInfo

namespace TicketWorker

def registerHandler (w : TicketWorker σ) (command : Bytes) (handler : TicketHandler σ) :
    TicketWorker σ :=
  { w with handlers := SortedAssoc.insert command handler w.handlers }

def registerLongHandler (w : TicketWorker σ) (command : Bytes) (handler : TicketLongHandler σ) :
    TicketWorker σ :=
  { w with longHandlers := SortedAssoc.insert command handler w.longHandlers }

def sendResponse (w : TicketWorker σ) (response : TicketInfo) : Outcome ℕ × TicketWorker σ :=
  match TicketPeer.sendFrame S w.socket response with
  | (.returned (.ok n), socket) =>
    (.returned (.ok n), { w with socket := socket, responses := w.responses ++ [response] })
  | (result, socket) => (result, { w with socket := socket })

def errorResponse (ticketId error : Bytes) (type : TicketType) (command : Bytes)
    (timeout : Int64) : TicketInfo :=
  { ticket_id := ticketId
    type := type
    status := .FAILED
    command := command
    metadata := ⟨StringMap.empty⟩
    timeout := timeout
    progress_percent := none
    progress_msg := none
    payload := none
    result := none
    error := some error }

def sendErrorResponse (w : TicketWorker σ) (ticket : TicketInfo) (error : Bytes) :
    Outcome ℕ × TicketWorker σ :=
  sendResponse S w (errorResponse ticket.ticket_id error ticket.type ticket.command ticket.timeout)

def contextOf (ticket : TicketInfo) : TicketContext :=
  { ticket_id := ticket.ticket_id
    type := ticket.type
    command := ticket.command
    payload := ticket.payload.getD []
    metadata := ticket.metadata.data
    timeout := ticket.timeout }

def completedResponse (ticket : TicketInfo) (result : Bytes) : TicketInfo :=
  { ticket_id := ticket.ticket_id
    type := ticket.type
    status := .COMPLETED
    command := ticket.command
    metadata := ⟨StringMap.empty⟩
    timeout := ticket.timeout
    progress_percent := none
    progress_msg := none
    payload := none
    result := some result
    error := none }

variable (message : ErrorCode → Bytes)

/-- What became of the response is ignored, except for an exception. -/
def processTicket (w : TicketWorker σ) (ticket : TicketInfo) : Outcome ℕ × TicketWorker σ :=
  match w.longHandlers.lookup ticket.command with
  | some _ => sendErrorResponse S w ticket (ascii "long handlers not implemented")
  | none =>
    match w.handlers.lookup ticket.command with
    | none => sendErrorResponse S w ticket (ascii "unknown command")
    | some handler =>
      let ctx := contextOf ticket
      let (result, state) := handler ctx w.state
      let w := { w with state := state, invocations := w.invocations ++ [ctx] }
      match result with
      | .error ec => sendErrorResponse S w ticket (message ec)
      | .ok result => sendResponse S w (completedResponse ticket result)

def handleNext (w : TicketWorker σ) : Option (Outcome Unit × TicketWorker σ) :=
  match TicketPeer.receiveFrame S w.socket with
  | none => none
  | some (.error ec, socket) => some (.returned (.error ec), { w with socket := socket })
  | some (.ok ticket, socket) =>
    match processTicket S message { w with socket := socket } ticket with
    | (.threw, w) => some (.threw, w)
    | (.returned _, w) => some (.returned (.ok ()), w)

/-! ### The response to a ticket -/

/- What a worker does with a ticket before the response goes out. -/
def answer (w : TicketWorker σ) (ticket : TicketInfo) : TicketInfo × TicketWorker σ :=
  let failed := fun error =>
    errorResponse ticket.ticket_id error ticket.type ticket.command ticket.timeout
  match w.longHandlers.lookup ticket.command with
  | some _ => (failed (ascii "long handlers not implemented"), w)
  | none =>
    match w.handlers.lookup ticket.command with
    | none => (failed (ascii "unknown command"), w)
    | some handler =>
      let (result, state) := handler (contextOf ticket) w.state
      let w := { w with state := state, invocations := w.invocations ++ [contextOf ticket] }
      match result with
      | .error ec => (failed (message ec), w)
      | .ok result => (completedResponse ticket result, w)

theorem processTicket_eq (w : TicketWorker σ) (ticket : TicketInfo) :
    processTicket S message w ticket
      = sendResponse S (answer message w ticket).2 (answer message w ticket).1 := by
  unfold processTicket answer
  split
  · rfl
  · split
    · rfl
    · rename_i handler _
      cases hr : (handler (contextOf ticket) w.state).1 with
      | error ec => simp only [hr]; rfl
      | ok result => simp only [hr]

theorem answer_frame (message : ErrorCode → Bytes) (w : TicketWorker σ) (ticket : TicketInfo) :
    (answer message w ticket).1.ticket_id = ticket.ticket_id ∧
      (answer message w ticket).2.socket = w.socket ∧
      (answer message w ticket).2.responses = w.responses := by
  unfold answer
  cases w.longHandlers.lookup ticket.command with
  | some handler => exact ⟨rfl, rfl, rfl⟩
  | none =>
    cases w.handlers.lookup ticket.command with
    | none => exact ⟨rfl, rfl, rfl⟩
    | some handler =>
      cases hr : (handler (contextOf ticket) w.state).1 with
      | error ec => simp only [hr, and_true]; rfl
      | ok r => simp only [hr, and_true]; rfl

theorem answer_socket (message : ErrorCode → Bytes) (w : TicketWorker σ) (socket : Socket)
    (ticket : TicketInfo) :
    (answer message { w with socket := socket } ticket).1
      = (answer message w ticket).1 := by
  unfold answer
  cases w.longHandlers.lookup ticket.command with
  | some handler => rfl
  | none =>
    cases w.handlers.lookup ticket.command with
    | none => rfl
    | some handler =>
      cases hr : (handler (contextOf ticket) w.state).1 with
      | error ec => simp only [hr]
      | ok r => simp only [hr]

end TicketWorker

end NetworkStack
