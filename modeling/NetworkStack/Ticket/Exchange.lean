import NetworkStack.Ticket.Json
import NetworkStack.Ticket.Peer

/-!
# A controller and its worker as remote procedure calls

A session is a controller and a worker at the two ends of one connection; each
send has the worker take its turn between the two halves of `send`, with both
streams cut into chunks in any way. Over it stands what the session is for: a
table of handlers that calls go to directly. Every run of the session has the
results, the handler invocations and the state of the same run of that table.
-/

namespace NetworkStack

open SocketDetail TicketFrame

variable {σ : Type}

/-! ### The session -/

structure Cutting where
  cut : Bytes → List Bytes
  flatten : ∀ bytes, (cut bytes).flatten = bytes
  nonempty : ∀ bytes, ∀ c ∈ cut bytes, c ≠ []

inductive Registration (σ : Type) where
  | short (command : Bytes) (handler : TicketHandler σ)
  | long (command : Bytes) (handler : TicketLongHandler σ)

inductive SessionAction (σ : Type) where
  | register (r : Registration σ)
  | send (args : SendArgs) (draws : Draws) (there back : Cutting)

structure Session (σ : Type) where
  controller : TicketController
  worker : TicketWorker σ

def TicketWorker.register (w : TicketWorker σ) : Registration σ → TicketWorker σ
  | .short command handler => w.registerHandler command handler
  | .long command handler => w.registerLongHandler command handler

def deliver (s : Socket) (chunks : List Bytes) : Socket :=
  { s with incoming := s.incoming ++ Chunked.ofChunks chunks }

namespace Session

variable (S : TicketSerializer) (message : ErrorCode → Bytes)

/-- A fresh connection; `id` is the controller socket's `getId()`. -/
def init (id : ℕ) (state : σ) : Session σ :=
  ⟨⟨Socket.fresh [], 0, ascii (toString id)⟩, ⟨Socket.fresh [], [], [], state, [], []⟩⟩

/- One `send`: what the controller writes reaches the worker, which handles one
ticket; what the worker writes reaches the controller. -/
def exchange (s : Session σ) (args : SendArgs) (draws : Draws) (there back : Cutting) :
    Option (Outcome Bytes × Session σ) :=
  match TicketController.startSend S s.controller draws args with
  | (_, .threw, c) => some (.threw, { s with controller := c })
  | (_, .returned (.error ec), c) => some (.returned (.error ec), { s with controller := c })
  | (_, .returned (.ok _), c) =>
    let request := c.socket.sent.drop s.controller.socket.sent.length
    let w := { s.worker with socket := deliver s.worker.socket (there.cut request) }
    match TicketWorker.handleNext S message w with
    | none => none
    | some (_, w) =>
      let reply := w.socket.sent.drop s.worker.socket.sent.length
      let c := { c with socket := deliver c.socket (back.cut reply) }
      match TicketController.finishSend S c with
      | none => none
      | some (r, c) => some (.returned r, ⟨c, w⟩)

def run (s : Session σ) : List (SessionAction σ) → Option (List (Outcome Bytes) × Session σ)
  | [] => some ([], s)
  | .register r :: actions => run { s with worker := s.worker.register r } actions
  | .send args draws there back :: actions =>
    match exchange S message s args draws there back with
    | none => none
    | some (r, t) => (run t actions).map fun (rs, u) => (r :: rs, u)

end Session

/-! ### Calls to a table of handlers -/

structure CallTable (σ : Type) where
  socketId : Bytes
  ticketCounter : UInt64
  registered : List (Registration σ)
  state : σ
  invocations : List TicketContext

namespace CallTable

def lastShort (registered : List (Registration σ)) (command : Bytes) : Option (TicketHandler σ) :=
  registered.reverse.findSome? fun r => match r with
    | .short c handler => if c = command then some handler else none
    | .long .. => none

def lastLong (registered : List (Registration σ)) (command : Bytes) :
    Option (TicketLongHandler σ) :=
  registered.reverse.findSome? fun r => match r with
    | .short .. => none
    | .long c handler => if c = command then some handler else none

def sendContext (ticket_id : Bytes) (args : SendArgs) : TicketContext :=
  { ticket_id := ticket_id
    type := .SHORT
    command := args.command
    payload := args.payload
    metadata := if args.metadata = [] then StringMap.empty
      else StringMap.ofList [(ascii "metadata", args.metadata)]
    timeout := args.timeout.toInt32.toInt64 }

def call (a : CallTable σ) (ctx : TicketContext) : Except ErrorCode Bytes × CallTable σ :=
  match lastLong a.registered ctx.command, lastShort a.registered ctx.command with
  | none, some handler =>
    let (result, state) := handler ctx a.state
    let a := { a with state := state, invocations := a.invocations ++ [ctx] }
    match result with
    | .ok r => (.ok r, a)
    | .error _ => (.error (.errc .io_error), a)
  | _, _ => (.error (.errc .io_error), a)

def send (a : CallTable σ) (args : SendArgs) (draws : Draws) :
    Except ErrorCode Bytes × CallTable σ :=
  let (result, b) :=
    a.call (sendContext (TicketController.ticketIdText a.socketId a.ticketCounter draws) args)
  (result, { b with ticketCounter := b.ticketCounter + 1 })

def run (a : CallTable σ) : List (SessionAction σ) → List (Except ErrorCode Bytes) × CallTable σ
  | [] => ([], a)
  | .register r :: actions => run { a with registered := a.registered ++ [r] } actions
  | .send args draws _ _ :: actions =>
    let (result, b) := a.send args draws
    let (results, c) := b.run actions
    (result :: results, c)

/- The two tickets that stand for a call on the wire. -/

def request (a : CallTable σ) (args : SendArgs) (draws : Draws) : TicketInfo :=
  TicketController.requestTicket
    (TicketController.ticketIdText a.socketId a.ticketCounter draws) args

variable (message : ErrorCode → Bytes)

def response (a : CallTable σ) (ticket : TicketInfo) : TicketInfo :=
  let failed := fun error => TicketWorker.errorResponse ticket.ticket_id error ticket.type
    ticket.command ticket.timeout
  match lastLong a.registered ticket.command, lastShort a.registered ticket.command with
  | some _, _ => failed (ascii "long handlers not implemented")
  | none, none => failed (ascii "unknown command")
  | none, some handler =>
    match (handler (TicketWorker.contextOf ticket) a.state).1 with
    | .error ec => failed (message ec)
    | .ok result => TicketWorker.completedResponse ticket result

def tickets (a : CallTable σ) : List (SessionAction σ) → List TicketInfo
  | [] => []
  | .register r :: actions => tickets { a with registered := a.registered ++ [r] } actions
  | .send args draws _ _ :: actions =>
    a.request args draws :: a.response message (a.request args draws).wire
      :: (a.send args draws).2.tickets actions

end CallTable

/-! ### The session refines the table -/

/-- Nothing is on its way to the socket and its writes succeed. -/
structure Idle (s : Socket) : Prop where
  writable : Writable s
  steady : Chunked.Steady s.incoming
  empty : unread s = []

structure Session.Refines (s : Session σ) (a : CallTable σ) : Prop where
  controllerIdle : Idle s.controller.socket
  workerIdle : Idle s.worker.socket
  socketId : s.controller.socketId = a.socketId
  ticketCounter : s.controller.ticketCounter = a.ticketCounter
  short : ∀ command, s.worker.handlers.lookup command = CallTable.lastShort a.registered command
  long : ∀ command, s.worker.longHandlers.lookup command = CallTable.lastLong a.registered command
  state : s.worker.state = a.state
  invocations : s.worker.invocations = a.invocations

theorem Idle.deliver {s : Socket} (h : Idle s) (cutting : Cutting) (bytes : Bytes) :
    Writable (deliver s (cutting.cut bytes)) ∧
      Chunked.Steady (deliver s (cutting.cut bytes)).incoming ∧
      unread (deliver s (cutting.cut bytes)) = bytes := by
  refine ⟨h.writable, ?_, ?_⟩
  · intro e he
    rcases List.mem_append.mp he with he | he
    · exact h.steady e he
    · exact Chunked.steady_ofChunks (cutting.nonempty bytes) e he
  · have hempty := h.empty
    rw [unread] at hempty
    rw [unread, NetworkStack.deliver, Chunked.arriving_append, Chunked.arriving_ofChunks,
      cutting.flatten, ← List.append_assoc, hempty, List.nil_append]

theorem contextOf_request (ticket_id : Bytes) (args : SendArgs) :
    TicketWorker.contextOf (TicketController.requestTicket ticket_id args).wire
      = CallTable.sendContext ticket_id args := by
  unfold TicketController.requestTicket CallTable.sendContext
  split <;> rfl

theorem Session.Refines.register {s : Session σ} {a : CallTable σ} (h : s.Refines a)
    (r : Registration σ) :
    Session.Refines { s with worker := s.worker.register r }
      { a with registered := a.registered ++ [r] } := by
  cases r with
  | short command handler =>
    refine ⟨h.controllerIdle, h.workerIdle, h.socketId, h.ticketCounter, ?_, ?_, h.state,
      h.invocations⟩
    · intro c
      simp only [TicketWorker.register, TicketWorker.registerHandler, SortedAssoc.lookup_insert,
        h.short, CallTable.lastShort, List.reverse_append, List.reverse_singleton,
        List.singleton_append, List.findSome?_cons]
      by_cases hc : c = command
      · simp [hc]
      · simp [hc, Ne.symm hc]
    · intro c
      simpa [TicketWorker.register, TicketWorker.registerHandler, CallTable.lastLong] using h.long c
  | long command handler =>
    refine ⟨h.controllerIdle, h.workerIdle, h.socketId, h.ticketCounter, ?_, ?_, h.state,
      h.invocations⟩
    · intro c
      simpa [TicketWorker.register, TicketWorker.registerLongHandler, CallTable.lastShort]
        using h.short c
    · intro c
      simp only [TicketWorker.register, TicketWorker.registerLongHandler,
        SortedAssoc.lookup_insert, h.long, CallTable.lastLong, List.reverse_append,
        List.reverse_singleton, List.singleton_append, List.findSome?_cons]
      by_cases hc : c = command
      · simp [hc]
      · simp [hc, Ne.symm hc]

section Answer

variable (message : ErrorCode → Bytes)

/- The worker answers a ticket with the table's response and changes as the table
does; only its socket is not touched yet. -/
theorem Session.Refines.answer {s : Session σ} {a : CallTable σ} (h : s.Refines a)
    (socket : Socket) (ticket : TicketInfo) :
    TicketWorker.answer message { s.worker with socket := socket } ticket
      = (a.response message ticket,
        { s.worker with
          socket := socket
          state := (a.call (TicketWorker.contextOf ticket)).2.state
          invocations := (a.call (TicketWorker.contextOf ticket)).2.invocations }) := by
  have hcmd : (TicketWorker.contextOf ticket).command = ticket.command := rfl
  simp only [TicketWorker.answer, CallTable.response, CallTable.call, h.long, h.short, hcmd]
  cases CallTable.lastLong a.registered ticket.command with
  | some handler => simp only [← h.state, ← h.invocations]
  | none =>
    cases CallTable.lastShort a.registered ticket.command with
    | none => simp only [← h.state, ← h.invocations]
    | some handler =>
      simp only [h.state, h.invocations]
      cases (handler (TicketWorker.contextOf ticket) a.state).1 with
      | error ec => rfl
      | ok r => rfl

theorem responseResult_response (a : CallTable σ) (ticket : TicketInfo) :
    TicketController.responseResult (a.response message ticket).wire
      = (a.call (TicketWorker.contextOf ticket)).1 := by
  have hcmd : (TicketWorker.contextOf ticket).command = ticket.command := rfl
  simp only [CallTable.response, CallTable.call, hcmd]
  cases CallTable.lastLong a.registered ticket.command with
  | some handler => rfl
  | none =>
    cases CallTable.lastShort a.registered ticket.command with
    | none => rfl
    | some handler =>
      cases hr : (handler (TicketWorker.contextOf ticket) a.state).1 with
      | error ec => simp only [hr]; rfl
      | ok r => simp only [hr]; rfl

end Answer

variable {S : TicketSerializer} {message : ErrorCode → Bytes}

theorem wrote_unread {s t : Socket} {bytes : Bytes} (h : Wrote s bytes t) :
    unread t = unread s ∧ t.incoming = s.incoming := by
  rw [unread, unread, h]
  exact ⟨rfl, rfl⟩

theorem Idle.of_wrote {s t : Socket} {bytes : Bytes} (h : Idle s) (hw : Wrote s bytes t)
    (ht : Writable t) : Idle t := by
  obtain ⟨hunread, hincoming⟩ := wrote_unread hw
  exact ⟨ht, hincoming ▸ h.steady, hunread.trans h.empty⟩

/- The worker's turn, from what its peer receives and what it then sends. -/
theorem Session.Refines.handleNext {s : Session σ} {a : CallTable σ} (h : s.Refines a)
    (message : ErrorCode → Bytes)
    {socket mid out : Socket} {ticket : TicketInfo} {n : ℕ}
    (hrecv : TicketPeer.receiveFrame S socket = some (.ok ticket, mid))
    (hsend : TicketPeer.sendFrame S mid (a.response message ticket) = (.returned (.ok n), out)) :
    TicketWorker.handleNext S message { s.worker with socket := socket }
      = some (.returned (.ok ()), { s.worker with
          socket := out
          state := (a.call (TicketWorker.contextOf ticket)).2.state
          invocations := (a.call (TicketWorker.contextOf ticket)).2.invocations
          responses := s.worker.responses ++ [a.response message ticket] }) := by
  simp only [TicketWorker.handleNext, hrecv, TicketWorker.processTicket_eq,
    h.answer message mid ticket, TicketWorker.sendResponse, hsend]

theorem call_frame (a : CallTable σ) (ctx : TicketContext) :
    (a.call ctx).2.socketId = a.socketId ∧ (a.call ctx).2.ticketCounter = a.ticketCounter ∧
      (a.call ctx).2.registered = a.registered := by
  unfold CallTable.call
  split
  · rename_i handler _ _
    cases hr : (handler ctx a.state).1 <;> simp only [hr, and_self]
  · exact ⟨rfl, rfl, rfl⟩

/-- One ticket crosses: it leaves as one frame and arrives as the other end reads it. -/
theorem Idle.crosses {near far : Socket} (hnear : Idle near) (hfar : Idle far)
    (hS : TicketPeer.RoundTrips S) {ticket : TicketInfo} {bytes : Bytes}
    (hser : S.serialize ticket = some bytes) (hfits : Fits bytes) (cutting : Cutting) :
    ∃ n near' far', TicketPeer.sendFrame S near ticket = (.returned (.ok n), near') ∧
      near'.sent = near.sent ++ encodeFrame bytes ∧ Idle near' ∧
      TicketPeer.receiveFrame S (NetworkStack.deliver far (cutting.cut (encodeFrame bytes)))
        = some (.ok ticket.wire, far') ∧
      far'.sent = far.sent ∧ Idle far' := by
  obtain ⟨hne, hback⟩ := hS _ _ hser
  obtain ⟨n, near', hsend, hwrote, hwritable⟩ :=
    TicketPeer.sendFrame_writable hnear.writable hser hne
  obtain ⟨hw, hst, hun⟩ := hfar.deliver cutting (encodeFrame bytes)
  obtain ⟨far', hrecv, hst', honly, hrest⟩ := TicketPeer.receiveFrame_steady (S := S)
    hw.1 hst hfits (hun.trans (List.append_nil _).symm)
  rw [hback] at hrecv
  exact ⟨n, near', far', hsend, hwrote.sent, hnear.of_wrote hwrote hwritable, hrecv, honly.sent,
    Writable.of_readOnly hw honly, hst', hrest⟩

theorem Session.Refines.exchange {s : Session σ} {a : CallTable σ} (h : s.Refines a)
    (hS : TicketPeer.RoundTrips S) {args : SendArgs} {draws : Draws} {q p : Bytes}
    (hq : S.serialize (a.request args draws) = some q) (hqfits : Fits q)
    (hp : S.serialize (a.response message (a.request args draws).wire) = some p)
    (hpfits : Fits p) (there back : Cutting) :
    ∃ t, s.exchange S message args draws there back = some (.returned (a.send args draws).1, t) ∧
      t.Refines (a.send args draws).2 ∧
      t.worker.socket.sent = s.worker.socket.sent ++ encodeFrame p := by
  -- the request goes out and the worker reads it
  obtain ⟨n, cs, ws, hsend, hcsent, hcidle, hwrecv, hwsent, hwidle⟩ :=
    h.controllerIdle.crosses h.workerIdle hS hq hqfits there
  -- the response comes back
  obtain ⟨m, ws', cs', hreply, hwsent', hwidle', hcrecv, -, hcidle'⟩ :=
    hwidle.crosses hcidle hS hp hpfits back
  have hstart : TicketController.startSend S s.controller draws args
      = (a.request args draws, .returned (.ok n),
        { s.controller with
          socket := cs, ticketCounter := s.controller.ticketCounter + 1 }) := by
    rw [CallTable.request, ← h.socketId, ← h.ticketCounter] at hsend ⊢
    simp only [TicketController.startSend, TicketController.generateTicketId, hsend]
  have hrequest : cs.sent.drop s.controller.socket.sent.length = encodeFrame q := by
    rw [hcsent, List.drop_left]
  have hsent : ws'.sent = s.worker.socket.sent ++ encodeFrame p := by rw [hwsent', hwsent]
  have hctx : TicketWorker.contextOf (a.request args draws).wire = CallTable.sendContext
      (TicketController.ticketIdText a.socketId a.ticketCounter draws) args :=
    contextOf_request ..
  refine ⟨⟨{ s.controller with socket := cs', ticketCounter := s.controller.ticketCounter + 1 },
    (TicketWorker.mk ws' s.worker.handlers s.worker.longHandlers
      (a.send args draws).2.state (a.send args draws).2.invocations
      (s.worker.responses ++ [a.response message (a.request args draws).wire]))⟩, ?_, ?_, hsent⟩
  · have hturn := h.handleNext message hwrecv hreply
    have hreplied : ws'.sent.drop s.worker.socket.sent.length = encodeFrame p := by
      rw [hsent, List.drop_left]
    simp only [Session.exchange, hstart, hrequest, hturn, hreplied, TicketController.finishSend,
      hcrecv, responseResult_response, hctx]
    rfl
  · obtain ⟨hid, hcounter, hreg⟩ := call_frame a
      (CallTable.sendContext (TicketController.ticketIdText a.socketId a.ticketCounter draws) args)
    refine ⟨hcidle', hwidle', h.socketId.trans hid.symm, ?_, ?_, ?_, rfl, rfl⟩
    · simp only [CallTable.send, hcounter, h.ticketCounter]
    · intro command
      simp only [CallTable.send, hreg]
      exact h.short command
    · intro command
      simp only [CallTable.send, hreg]
      exact h.long command

/-! ### Whole runs -/

def CallTable.init (id : ℕ) (state : σ) : CallTable σ := ⟨ascii (toString id), 0, [], state, []⟩

variable {nl : Nlohmann}

/- Along a run the session stays in step with the table, and each send adds one
frame to what the worker has written. -/
theorem Session.Refines.run (hnl : nl.Lawful) {actions : List (SessionAction σ)} {s : Session σ}
    {a : CallTable σ} (h : s.Refines a)
    (hdump : nl.DumpsUtf8 ((a.tickets message actions).map TicketJson.to_json))
    (hvalid : ∀ ticket ∈ a.tickets message actions, ∀ s ∈ ticket.strings, ValidUtf8 s)
    (hfits : ∀ ticket ∈ a.tickets message actions, ∀ bytes,
      (TicketJson.serializer nl).serialize ticket = some bytes → Fits bytes) :
    ∃ (t : Session σ) (frames : List Bytes), s.run (TicketJson.serializer nl) message actions
        = some ((a.run actions).1.map .returned, t) ∧
      t.Refines (a.run actions).2 ∧
      t.worker.socket.sent = s.worker.socket.sent ++ frames.flatMap encodeFrame ∧
      frames.length = (a.run actions).1.length := by
  induction actions generalizing s a with
  | nil => exact ⟨s, [], rfl, h, by simp, rfl⟩
  | cons action actions ih =>
    cases action with
    | register r =>
      have hsocket : (s.worker.register r).socket = s.worker.socket := by cases r <;> rfl
      obtain ⟨t, frames, hrun, ht, hsent, hlen⟩ := ih (h.register r) hdump hvalid hfits
      exact ⟨t, frames, hrun, ht, by rw [hsent, hsocket], hlen⟩
    | send args draws there back =>
      have hmem :
          a.request args draws ∈ a.tickets message (.send args draws there back :: actions) :=
        List.mem_cons_self ..
      have hmem' : a.response message (a.request args draws).wire
          ∈ a.tickets message (.send args draws there back :: actions) :=
        List.mem_cons_of_mem _ (List.mem_cons_self ..)
      have hlater : ∀ ticket ∈ (a.send args draws).2.tickets message actions,
          ticket ∈ a.tickets message (.send args draws there back :: actions) :=
        fun ticket ht => List.mem_cons_of_mem _ (List.mem_cons_of_mem _ ht)
      obtain ⟨q, hq⟩ := TicketJson.serialize_valid hdump hmem (hvalid _ hmem)
      obtain ⟨p, hp⟩ := TicketJson.serialize_valid hdump hmem' (hvalid _ hmem')
      obtain ⟨mid, hex, hmid, hsent⟩ := h.exchange
        (fun _ _ => TicketJson.deserialize_serialize hnl)
        hq (hfits _ hmem q hq) hp (hfits _ hmem' p hp) there back
      obtain ⟨t, frames, hrun, ht, hframes, hlen⟩ := ih hmid
        (fun j hj => hdump j (List.map_subset _ hlater hj))
        (fun x hx => hvalid x (hlater x hx)) (fun x hx => hfits x (hlater x hx))
      refine ⟨t, p :: frames, ?_, ht, ?_, ?_⟩
      · simp only [Session.run, hex, hrun]
        rfl
      · rw [hframes, hsent, List.flatMap_cons, List.append_assoc]
      · rw [List.length_cons, hlen]
        rfl

theorem Session.init_refines (id : ℕ) (state : σ) :
    (Session.init id state).Refines (CallTable.init id state) := by
  have hidle : Idle (Socket.fresh []) :=
    ⟨⟨rfl, by simp [Socket.fresh]⟩, Chunked.steady_nil, rfl⟩
  exact ⟨hidle, hidle, rfl, rfl, fun _ => rfl, fun _ => rfl, rfl, rfl⟩

/-- Whatever handlers are registered and whatever is sent, in any order, and however
both streams are cut: the sends return what calling the table directly returns, the
handlers run that it runs, with the same contexts and in the same order, and every
send is answered by one frame. -/
theorem session_run_refines (hnl : nl.Lawful) (id : ℕ) (state : σ)
    (actions : List (SessionAction σ))
    (hdump : nl.DumpsUtf8
      (((CallTable.init id state).tickets message actions).map TicketJson.to_json))
    (hvalid : ∀ ticket ∈ (CallTable.init id state).tickets message actions,
      ∀ s ∈ ticket.strings, ValidUtf8 s)
    (hfits : ∀ ticket ∈ (CallTable.init id state).tickets message actions, ∀ bytes,
      (TicketJson.serializer nl).serialize ticket = some bytes → Fits bytes) :
    ∃ (t : Session σ) (frames : List Bytes),
      (Session.init id state).run (TicketJson.serializer nl) message actions
        = some (((CallTable.init id state).run actions).1.map .returned, t) ∧
      t.worker.invocations = ((CallTable.init id state).run actions).2.invocations ∧
      t.worker.state = ((CallTable.init id state).run actions).2.state ∧
      t.worker.socket.sent = frames.flatMap encodeFrame ∧
      frames.length = ((CallTable.init id state).run actions).1.length := by
  obtain ⟨t, frames, hrun, ht, hsent, hlen⟩ := (Session.init_refines id state).run hnl
    hdump hvalid hfits
  exact ⟨t, frames, hrun, ht.invocations, ht.state, hsent, hlen⟩

def Cutting.bytewise : Cutting where
  cut bytes := bytes.map fun b => [b]
  flatten bytes := by
    induction bytes with
    | nil => rfl
    | cons b bytes ih => simpa using ih
  nonempty bytes c hc := by
    obtain ⟨b, -, rfl⟩ := List.mem_map.mp hc
    simp

def zeroDraws : Draws := ⟨fun _ => 0, 0⟩

/- An echo handler that counts its calls, asked twice, and a command nobody handles. -/
def echoActions : List (SessionAction ℕ) :=
  [.register (.short (ascii "echo") fun ctx n => (.ok ctx.payload, n + 1)),
    .send ⟨ascii "echo", ascii "hi", ascii "m", 0⟩ zeroDraws .bytewise .bytewise,
    .send ⟨ascii "nope", [], [], 0⟩ zeroDraws .bytewise .bytewise]

theorem session_run_refines_echo :
    let nl := TicketJson.plain ((CallTable.init 7 0).tickets (fun _ => []) echoActions)
    ∃ (t : Session ℕ) (frames : List Bytes),
      (Session.init 7 0).run (TicketJson.serializer nl) (fun _ => []) echoActions
        = some ([.returned (.ok (ascii "hi")), .returned (.error (.errc .io_error))], t) ∧
      t.worker.state = 1 ∧ t.worker.socket.sent = frames.flatMap encodeFrame ∧
      frames.length = 2 := by
  have hfits : ∀ ticket ∈ (CallTable.init 7 0).tickets (fun _ => []) echoActions,
      Fits (TicketJson.render (TicketJson.to_json ticket)) := by decide +kernel
  have hascii : ∀ ticket ∈ (CallTable.init 7 0).tickets (fun _ => []) echoActions,
      ∀ s ∈ ticket.strings, ∀ b ∈ s, b.toNat < 128 := by decide +kernel
  obtain ⟨t, frames, hrun, -, hstate, hsent, hlen⟩ := session_run_refines
    (TicketJson.plain_lawful (by decide +kernel)) 7 0 echoActions
    (TicketJson.plain_dumpsUtf8 ((CallTable.init 7 0).tickets (fun _ => []) echoActions))
    (fun ticket ht s hs => validUtf8_of_lt (hascii ticket ht s hs))
    (fun ticket ht bytes hb => TicketJson.plain_serialize hb ▸ hfits ticket ht)
  have hresults : ((CallTable.init 7 0).run echoActions).1
      = [.ok (ascii "hi"), .error (.errc .io_error)] := by decide +kernel
  have hcount : ((CallTable.init 7 0).run echoActions).2.state = 1 := by decide +kernel
  rw [hresults] at hrun hlen
  exact ⟨t, frames, hrun, hstate.trans hcount, hsent, hlen⟩

end NetworkStack
