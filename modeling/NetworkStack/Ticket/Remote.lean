import NetworkStack.Ticket.Calls

/-!
# All calls of a controller on a worker (protocol/TicketController.cpp, TicketWorker.cpp)

Besides `send` a controller has `sendLong`, `poll` and `cancel`, blocking and as coroutines.
A worker makes no difference between them: each is a call of the table of handlers. So a long
ticket is served at once, without a poll or a report of progress, polling is a call of a
handler named `poll`, and cancelling never succeeds.
-/

namespace NetworkStack

open Hoare SocketDetail TicketFrame

variable {σ τ α : Type}

/-! ### The session -/

/- A controller with its caller, and a worker, at the two ends of one connection. -/
structure Remote (τ σ : Type) where
  client : Client τ
  worker : TicketWorker σ

def Client.hear (c : Client τ) (chunks : List Bytes) : Client τ :=
  { c with peer := { c.peer with socket := deliver c.peer.socket chunks } }

inductive RemoteCall (τ : Type) where
  | send (v : Variant) (args : SendArgs) (draws : Draws)
  | sendLong (v : Variant) (args : SendArgs) (onProgress : Option (TicketInfo → τ → τ))
    (draws : Draws) (fuel : ℕ)
  | poll (v : Variant) (ticketId : Bytes) (timeout : Int64)
  | cancel (ticketId : Bytes) (timeout : Int64)

inductive RemoteResult where
  | result (bytes : Bytes)
  | ticket (response : TicketInfo)
  | done
  deriving DecidableEq

/-- The streams of the rounds of a call, cut into chunks. -/
structure Cuttings where
  there : ℕ → Cutting
  back : ℕ → Cutting

inductive RemoteAction (τ σ : Type) where
  | register (r : Registration σ)
  | call (c : RemoteCall τ) (rounds : ℕ) (cuttings : Cuttings)

namespace RemoteCall

def variant : RemoteCall τ → Variant
  | .send v .. => v
  | .sendLong v .. => v
  | .poll v .. => v
  | .cancel .. => .sync

/-- Only a ticket of its own takes a number. -/
def count : RemoteCall τ → UInt64 → UInt64
  | .send .., n => n + 1
  | .sendLong .., n => n + 1
  | .poll .., n => n
  | .cancel .., n => n

def ticket (socketId : Bytes) (n : UInt64) : RemoteCall τ → TicketInfo
  | .send _ args draws =>
    TicketController.requestTicket (TicketController.ticketIdText socketId n draws) args
  | .sendLong _ args _ draws _ =>
    Client.longTicket (TicketController.ticketIdText socketId n draws) args
  | .poll _ ticketId timeout => Client.pollTicket ticketId timeout
  | .cancel ticketId timeout => TicketController.cancelTicket ticketId timeout

def run (S : TicketSerializer) : RemoteCall τ → Client.Call τ RemoteResult
  | .send v args draws => do
    let bytes ← Client.sendWith S v args draws
    pure (.result bytes)
  | .sendLong v args onProgress draws fuel => do
    let response ← Client.sendLongWith S v args onProgress draws fuel
    pure (.ticket response)
  | .poll v ticketId timeout => do
    let response ← Client.pollWith S v ticketId timeout
    pure (.ticket response)
  | .cancel ticketId timeout => do
    Client.cancel S ticketId timeout
    pure .done

end RemoteCall

namespace Remote

variable (S : TicketSerializer) (message : ErrorCode → Bytes)

def init (id : ℕ) (user : τ) (state : σ) : Remote τ σ :=
  ⟨⟨⟨Socket.fresh [], []⟩, 0, ascii (toString id), user, []⟩,
    ⟨Socket.fresh [], [], [], state, [], []⟩⟩

/- A call that waits has written a request. The worker handles one ticket, and with the reply
on its way the call goes on: a call is a function of what arrives, so it is run again with
more of it. `heard` of the bytes of the controller have reached the worker. -/
def converse (call : Client.Call τ α) (cuttings : Cuttings) :
    (rounds : ℕ) → (heard : ℕ) → Remote τ σ → Option (Except CallExit α × Remote τ σ)
  | 0, _, _ => none
  | rounds + 1, heard, s =>
    match call s.client with
    | (.error .waiting, t) =>
      let request := t.peer.socket.sent.drop heard
      let w := { s.worker with
        socket := deliver s.worker.socket ((cuttings.there rounds).cut request) }
      match TicketWorker.handleNext S message w with
      | none => none
      | some (_, w) =>
        let reply := w.socket.sent.drop s.worker.socket.sent.length
        converse call cuttings rounds t.peer.socket.sent.length
          ⟨s.client.hear ((cuttings.back rounds).cut reply), w⟩
    | (r, t) => some (r, ⟨t, s.worker⟩)

def run (s : Remote τ σ) :
    List (RemoteAction τ σ) → Option (List (Except CallExit RemoteResult) × Remote τ σ)
  | [] => some ([], s)
  | .register r :: actions => run { s with worker := s.worker.register r } actions
  | .call c rounds cuttings :: actions =>
    match converse S message (c.run S) cuttings rounds s.client.peer.socket.sent.length s with
    | none => none
    | some (r, t) => (run t actions).map fun (rs, u) => (r :: rs, u)

end Remote

/-! ### The same calls on the table -/

namespace CallTable

/-- The ticket a call sends. -/
def ticketOf (a : CallTable σ) (c : RemoteCall τ) : TicketInfo :=
  c.ticket a.socketId a.ticketCounter

def serve (a : CallTable σ) (c : RemoteCall τ) : Except CallExit RemoteResult × CallTable σ :=
  let ticket := (a.ticketOf c).wire
  let (result, b) := a.call (TicketWorker.contextOf ticket)
  let completed := fun bytes =>
    RemoteResult.ticket (TicketWorker.completedResponse ticket bytes).wire
  let next := { b with ticketCounter := c.count a.ticketCounter }
  match c with
  | .send .. => ((result.mapError .error).map .result, next)
  | .sendLong .. => ((result.mapError .error).map completed, next)
  | .poll .. => ((result.mapError .error).map completed, next)
  | .cancel .. => (.error ioError, next)

def serveAll (a : CallTable σ) :
    List (RemoteAction τ σ) → List (Except CallExit RemoteResult) × CallTable σ
  | [] => ([], a)
  | .register r :: actions => serveAll { a with registered := a.registered ++ [r] } actions
  | .call c _ _ :: actions =>
    let (r, b) := a.serve c
    let (rs, last) := b.serveAll actions
    (r :: rs, last)

/-- The tickets that cross the connection. -/
def crossing (message : ErrorCode → Bytes) (a : CallTable σ) :
    List (RemoteAction τ σ) → List TicketInfo
  | [] => []
  | .register r :: actions => crossing message { a with registered := a.registered ++ [r] } actions
  | .call c _ _ :: actions =>
    a.ticketOf c :: a.response message (a.ticketOf c).wire :: crossing message (a.serve c).2 actions

end CallTable

/-! ### One handshake -/

section Handshake

variable {S : TicketSerializer} {message : ErrorCode → Bytes}

namespace Client

variable {v : Variant} {request : TicketInfo} {s : Client τ} {socket : Socket} {n : ℕ}

theorem handshake_waiting
    (hsend : TicketPeer.sendFrame S s.peer.socket request = (.returned (.ok n), socket))
    (hrecv : TicketPeer.receiveFrame S socket = none) :
    ∃ t, handshake S v request s = (.error .waiting, t) ∧ t.peer.socket = socket := by
  have hwrote := PeerState.sendFrame_eq S v request s.peer
  rw [hsend] at hwrote
  have hrun : PeerState.handshake S v request s.peer = _ := bind_ok hwrote
  rw [PeerState.receiveFrame_eq, hrecv] at hrun
  simp only [handshake, hrun]
  exact ⟨_, rfl, rfl⟩

theorem handshake_answered {response : TicketInfo} {after : Socket}
    (hsend : TicketPeer.sendFrame S s.peer.socket request = (.returned (.ok n), socket))
    (hrecv : TicketPeer.receiveFrame S socket = some (.ok response, after)) :
    ∃ t, handshake S v request s = (.ok response, t) ∧ t.peer.socket = after ∧
      t.ticketCounter = s.ticketCounter ∧ t.socketId = s.socketId ∧ t.user = s.user := by
  have hwrote := PeerState.sendFrame_eq S v request s.peer
  rw [hsend] at hwrote
  have hrun : PeerState.handshake S v request s.peer = _ := bind_ok hwrote
  rw [PeerState.receiveFrame_eq, hrecv] at hrun
  simp only [handshake, hrun]
  exact ⟨_, rfl, rfl, rfl, rfl, rfl⟩

end Client

/- What is under way to a socket does not keep it from writing. -/
theorem Idle.crosses_back {near : Socket} (hnear : Idle near)
    (hS : TicketPeer.RoundTrips S) {request response : TicketInfo} {q p : Bytes}
    (hq : S.serialize request = some q) (hp : S.serialize response = some p) (hfits : Fits p)
    (cutting : Cutting) :
    ∃ n mid near', TicketPeer.sendFrame S
        (NetworkStack.deliver near (cutting.cut (encodeFrame p))) request
          = (.returned (.ok n), mid) ∧
      TicketPeer.receiveFrame S mid = some (.ok response.wire, near') ∧ Idle near' := by
  obtain ⟨hne, -⟩ := hS _ _ hq
  obtain ⟨-, hback⟩ := hS _ _ hp
  obtain ⟨hw, hst, hun⟩ := hnear.deliver cutting (encodeFrame p)
  obtain ⟨n, mid, hsend, hwrote, hmid⟩ := TicketPeer.sendFrame_writable hw hq hne
  obtain ⟨hunread, hincoming⟩ := wrote_unread hwrote
  obtain ⟨near', hrecv, hst', honly, hrest⟩ := TicketPeer.receiveFrame_steady (S := S) hmid.1
    (hincoming ▸ hst) hfits (hunread.trans (hun.trans (List.append_nil _).symm))
  rw [hback] at hrecv
  exact ⟨n, mid, near', hsend, hrecv, Writable.of_readOnly hmid honly, hst', hrest⟩

end Handshake

/-! ### One call -/

/- A call of one handshake: `request` makes the ticket of the socket's id and the counter,
which may be taken on before it is sent, and `finish` the result of the response. -/
def Client.asking (S : TicketSerializer) (v : Variant) (count : UInt64 → UInt64)
    (request : Bytes → UInt64 → TicketInfo) (finish : TicketInfo → Client.Call τ α) :
    Client.Call τ α :=
  fun s => (do
    let response ← Client.handshake S v (request s.socketId s.ticketCounter)
    finish response) { s with ticketCounter := count s.ticketCounter }

namespace Remote

def session (s : Remote τ σ) : Session σ := ⟨s.client.controller, s.worker⟩

/-- The session is that of the table. -/
def Refines (s : Remote τ σ) (a : CallTable σ) : Prop := s.session.Refines a

section Call

variable {S : TicketSerializer} {message : ErrorCode → Bytes} {s : Remote τ σ} {a : CallTable σ}

theorem converse_ends {call : Client.Call τ α} {t : Client τ} {r : Except CallExit α}
    (hcall : call s.client = (r, t)) (hr : r ≠ .error .waiting) (cuttings : Cuttings)
    (rounds heard : ℕ) :
    Remote.converse S message call cuttings (rounds + 1) heard s = some (r, ⟨t, s.worker⟩) := by
  unfold Remote.converse
  rw [hcall]
  split
  · rename_i hwaiting
    exact absurd (congrArg Prod.fst hwaiting) hr
  · rename_i hreturned
    cases hreturned
    rfl

theorem converse_turn {call : Client.Call τ α} {t : Client τ} {request : Bytes} {heard : ℕ}
    {o : Outcome Unit} {w : TicketWorker σ} {reply : Bytes} (cuttings : Cuttings) {rounds : ℕ}
    (hcall : call s.client = (.error .waiting, t))
    (hrequest : t.peer.socket.sent.drop heard = request)
    (hturn : TicketWorker.handleNext S message { s.worker with
      socket := deliver s.worker.socket ((cuttings.there rounds).cut request) } = some (o, w))
    (hreply : w.socket.sent.drop s.worker.socket.sent.length = reply) :
    Remote.converse S message call cuttings (rounds + 1) heard s
      = Remote.converse S message call cuttings rounds t.peer.socket.sent.length
        ⟨s.client.hear ((cuttings.back rounds).cut reply), w⟩ := by
  conv_lhs => unfold Remote.converse
  simp only [hcall, hrequest, hturn, hreply]

/- The ticket goes out in the first round, and the second one ends with the response. -/
theorem Refines.converse (h : s.Refines a) (hS : TicketPeer.RoundTrips S) (v : Variant)
    (count : UInt64 → UInt64) {request : Bytes → UInt64 → TicketInfo}
    {finish : TicketInfo → Client.Call τ α} {ticket : TicketInfo}
    (hticket : request a.socketId a.ticketCounter = ticket) {q p : Bytes}
    (hq : S.serialize ticket = some q) (hqfits : Fits q)
    (hp : S.serialize (a.response message ticket.wire) = some p) (hpfits : Fits p)
    {r : Except CallExit α} (hr : r ≠ .error .waiting)
    (hfinish : ∀ t, finish (a.response message ticket.wire).wire t = (r, t))
    (cuttings : Cuttings) (rounds : ℕ) :
    ∃ t, Remote.converse S message (Client.asking S v count request finish) cuttings (rounds + 2)
        s.client.peer.socket.sent.length s = some (r, t) ∧
      t.Refines { (a.call (TicketWorker.contextOf ticket.wire)).2 with
        ticketCounter := count a.ticketCounter } ∧
      t.client.user = s.client.user := by
  have hcontroller : Idle s.client.peer.socket := h.controllerIdle
  have hworker : Idle s.worker.socket := h.workerIdle
  have hsocketId : s.client.socketId = a.socketId := h.socketId
  have hcounter : s.client.ticketCounter = a.ticketCounter := h.ticketCounter
  rw [← hsocketId, ← hcounter] at hticket
  -- the request goes out and the worker reads it
  obtain ⟨n, cs, ws, hsend, hcsent, hcidle, hwrecv, hwsent, hwidle⟩ :=
    hcontroller.crosses hworker hS hq hqfits (cuttings.there (rounds + 1))
  have hsilent : TicketPeer.receiveFrame S cs = none := by
    rw [TicketPeer.receiveFrame, readFrame_silent hcidle.writable.1 hcidle.steady hcidle.empty]
  obtain ⟨waiting, hwaiting, hwaits⟩ := Client.handshake_waiting (v := v)
    (s := { s.client with ticketCounter := count s.client.ticketCounter }) hsend hsilent
  have hfirst : Client.asking S v count request finish s.client = (.error .waiting, waiting) := by
    rw [Client.asking, hticket]
    exact bind_error hwaiting
  -- the response goes back
  obtain ⟨m, ws', -, hreply, hwsent', hwidle', -, -, -⟩ :=
    hwidle.crosses hcidle hS hp hpfits (cuttings.back (rounds + 1))
  have hturn := Session.Refines.handleNext h message hwrecv hreply
  obtain ⟨k, mid, after, hagain, hrecv, hafter⟩ :=
    hcontroller.crosses_back hS hq hp hpfits (cuttings.back (rounds + 1))
  obtain ⟨last, hlast, hsocket, hcount, hid, huser⟩ := Client.handshake_answered (v := v)
    (s := { s.client.hear ((cuttings.back (rounds + 1)).cut (encodeFrame p)) with
      ticketCounter := count s.client.ticketCounter }) hagain hrecv
  have hsecond : Client.asking S v count request finish
      (s.client.hear ((cuttings.back (rounds + 1)).cut (encodeFrame p))) = (r, last) := by
    have hrequest : request (s.client.hear ((cuttings.back (rounds + 1)).cut
        (encodeFrame p))).socketId (s.client.hear ((cuttings.back (rounds + 1)).cut
        (encodeFrame p))).ticketCounter = ticket := hticket
    rw [Client.asking, hrequest, ← hfinish last]
    exact bind_ok hlast
  have hrequested : waiting.peer.socket.sent.drop s.client.peer.socket.sent.length
      = encodeFrame q := by
    rw [hwaits, hcsent, List.drop_left]
  have hreplied : ws'.sent.drop s.worker.socket.sent.length = encodeFrame p := by
    rw [hwsent', hwsent, List.drop_left]
  refine ⟨_, (converse_turn cuttings hfirst hrequested hturn hreplied).trans
    (converse_ends hsecond hr cuttings rounds _), ?_, huser⟩
  obtain ⟨hid', -, hreg⟩ := call_frame a (TicketWorker.contextOf ticket.wire)
  have hidle : Idle last.peer.socket := hsocket ▸ hafter
  refine ⟨hidle, hwidle', ?_, ?_, ?_, ?_, rfl, rfl⟩
  · exact hid.trans (hsocketId.trans hid'.symm)
  · exact hcount.trans (congrArg count hcounter)
  · intro command
    rw [hreg]
    exact h.short command
  · intro command
    rw [hreg]
    exact h.long command

end Call

end Remote

/-! ### The table answers every call -/

section Serve

/- What a handler makes of a ticket, and what the worker answers then. -/
theorem response_cases (message : ErrorCode → Bytes) (a : CallTable σ) (ticket : TicketInfo) :
    (∃ bytes, (a.call (TicketWorker.contextOf ticket)).1 = .ok bytes ∧
      a.response message ticket = TicketWorker.completedResponse ticket bytes) ∨
    ((a.call (TicketWorker.contextOf ticket)).1 = .error (.errc .io_error) ∧
      (a.response message ticket).status = .FAILED) := by
  have hcmd : (TicketWorker.contextOf ticket).command = ticket.command := rfl
  simp only [CallTable.response, CallTable.call, hcmd]
  cases CallTable.lastLong a.registered ticket.command with
  | some handler => exact .inr ⟨rfl, rfl⟩
  | none =>
    cases CallTable.lastShort a.registered ticket.command with
    | none => exact .inr ⟨rfl, rfl⟩
    | some handler =>
      simp only
      cases (handler (TicketWorker.contextOf ticket) a.state).1 with
      | error ec => exact .inr ⟨rfl, rfl⟩
      | ok bytes => exact .inl ⟨bytes, rfl, rfl⟩

end Serve

/-! ### Every call is one handshake -/

namespace RemoteCall

variable (S : TicketSerializer)

/- What is left of a call when the response is there. -/

def sendRest (response : TicketInfo) : Client.Call τ Bytes :=
  if response.status = .FAILED then stop ioError
  else
    match response.result with
    | none => stop protocolError
    | some result => pure result

def sendLongRest (v : Variant) (args : SendArgs) (onProgress : Option (TicketInfo → τ → τ))
    (fuel : ℕ) (response : TicketInfo) : Client.Call τ TicketInfo :=
  if response.status = .FAILED then stop ioError
  else if response.status = .COMPLETED then pure response
  else if response.status = .CANCELLED then pure response
  else do
    let response ← Client.whileRunning S v onProgress args.timeout fuel response
    if response.status = .COMPLETED then pure response
    else if response.status = .CANCELLED then pure response
    else if response.status = .FAILED then stop ioError
    else stop protocolError

def pollRest (response : TicketInfo) : Client.Call τ TicketInfo :=
  if response.status = .FAILED then stop ioError else pure response

def cancelRest (response : TicketInfo) : Client.Call τ Unit :=
  if response.status ≠ .CANCELLED then stop ioError else pure ()

def finish : RemoteCall τ → TicketInfo → Client.Call τ RemoteResult
  | .send .., response => do
    let bytes ← sendRest response
    pure (.result bytes)
  | .sendLong v args onProgress _ fuel, response => do
    let response ← sendLongRest S v args onProgress fuel response
    pure (.ticket response)
  | .poll .., response => do
    let response ← pollRest response
    pure (.ticket response)
  | .cancel .., response => do
    cancelRest response
    pure .done

theorem run_eq (c : RemoteCall τ) :
    c.run S = Client.asking S c.variant c.count (fun id n => c.ticket id n) (c.finish S) := by
  funext s
  cases c with
  | send v args draws =>
    rw [run, Client.sendWith, bind_bind, bind_ok (Client.generateTicketId_run draws s), bind_bind]
    rfl
  | sendLong v args onProgress draws fuel =>
    rw [run, Client.sendLongWith, bind_bind, bind_ok (Client.generateTicketId_run draws s),
      bind_bind]
    rfl
  | poll v ticketId timeout =>
    rw [run, Client.pollWith, bind_bind]
    rfl
  | cancel ticketId timeout =>
    rw [run, Client.cancel, bind_bind]
    rfl

variable {S} {message : ErrorCode → Bytes}

/- The response has the table's result, and the call returns it: no handler leaves a ticket
running or cancelled. -/
theorem finish_response (a : CallTable σ) (c : RemoteCall τ) (t : Client τ) :
    c.finish S (a.response message (a.ticketOf c).wire).wire t = ((a.serve c).1, t) := by
  rcases response_cases message a (a.ticketOf c).wire with
    ⟨bytes, hcall, hresponse⟩ | ⟨hcall, hfailed⟩
  · rw [hresponse]
    cases c with
    | send v args draws => simp only [CallTable.serve, hcall]; rfl
    | sendLong v args onProgress draws fuel => simp only [CallTable.serve, hcall]; rfl
    | poll v ticketId timeout => simp only [CallTable.serve, hcall]; rfl
    | cancel ticketId timeout => rfl
  · replace hfailed : (a.response message (a.ticketOf c).wire).wire.status = .FAILED := hfailed
    cases c with
    | send v args draws =>
      refine (bind_error (by rw [sendRest, if_pos hfailed]; rfl)).trans ?_
      simp only [CallTable.serve, hcall]
      rfl
    | sendLong v args onProgress draws fuel =>
      refine (bind_error (by rw [sendLongRest, if_pos hfailed]; rfl)).trans ?_
      simp only [CallTable.serve, hcall]
      rfl
    | poll v ticketId timeout =>
      refine (bind_error (by rw [pollRest, if_pos hfailed]; rfl)).trans ?_
      simp only [CallTable.serve, hcall]
      rfl
    | cancel ticketId timeout =>
      have hrefused : (a.response message (a.ticketOf (.cancel ticketId timeout :
          RemoteCall τ)).wire).wire.status ≠ .CANCELLED := fun hc => by cases hfailed.symm.trans hc
      exact bind_error (by rw [cancelRest, if_pos hrefused]; rfl)

end RemoteCall

/-! ### Runs -/

theorem serve_state (a : CallTable σ) (c : RemoteCall τ) :
    (a.serve c).2 = { (a.call (TicketWorker.contextOf (a.ticketOf c).wire)).2 with
      ticketCounter := c.count a.ticketCounter } := by
  cases c <;> rfl

theorem serve_ne_waiting (a : CallTable σ) (c : RemoteCall τ) :
    (a.serve c).1 ≠ .error .waiting := by
  have hmapped : ∀ (r : Except ErrorCode Bytes) (f : Bytes → RemoteResult),
      (r.mapError CallExit.error).map f ≠ .error .waiting := by
    intro r f
    cases r with
    | error ec => exact fun h => by cases h
    | ok bytes => exact fun h => by cases h
  cases c with
  | cancel ticketId timeout => exact fun h => by cases h
  | _ => exact hmapped _ _

namespace Remote

variable {S : TicketSerializer} {message : ErrorCode → Bytes} {s : Remote τ σ} {a : CallTable σ}

theorem Refines.serve (h : s.Refines a) (hS : TicketPeer.RoundTrips S) (c : RemoteCall τ)
    {q p : Bytes} (hq : S.serialize (a.ticketOf c) = some q) (hqfits : Fits q)
    (hp : S.serialize (a.response message (a.ticketOf c).wire) = some p) (hpfits : Fits p)
    (cuttings : Cuttings) {rounds : ℕ} (hrounds : 2 ≤ rounds) :
    ∃ t, Remote.converse S message (c.run S) cuttings rounds s.client.peer.socket.sent.length s
        = some ((a.serve c).1, t) ∧
      t.Refines (a.serve c).2 ∧ t.client.user = s.client.user := by
  obtain ⟨n, rfl⟩ := Nat.exists_eq_add_of_le' hrounds
  rw [c.run_eq, serve_state]
  exact h.converse hS c.variant c.count rfl hq hqfits hp hpfits (serve_ne_waiting a c)
    (RemoteCall.finish_response a c) cuttings n

theorem Refines.run {nl : Nlohmann} (hnl : nl.Lawful) {actions : List (RemoteAction τ σ)}
    (h : s.Refines a)
    (hrounds : ∀ c rounds cuttings, .call c rounds cuttings ∈ actions → 2 ≤ rounds)
    (hdump : nl.DumpsUtf8 ((a.crossing message actions).map TicketJson.to_json))
    (hvalid : ∀ ticket ∈ a.crossing message actions, ∀ s ∈ ticket.strings, ValidUtf8 s)
    (hfits : ∀ ticket ∈ a.crossing message actions, ∀ bytes,
      (TicketJson.serializer nl).serialize ticket = some bytes → Fits bytes) :
    ∃ t, s.run (TicketJson.serializer nl) message actions = some ((a.serveAll actions).1, t) ∧
      t.Refines (a.serveAll actions).2 ∧ t.client.user = s.client.user := by
  induction actions generalizing s a with
  | nil => exact ⟨s, rfl, h, rfl⟩
  | cons action actions ih =>
    have hlater : ∀ c rounds cuttings, .call c rounds cuttings ∈ actions → 2 ≤ rounds :=
      fun c rounds cuttings hmem => hrounds c rounds cuttings (List.mem_cons_of_mem _ hmem)
    cases action with
    | register r =>
      have hregistered : Refines { s with worker := s.worker.register r }
          { a with registered := a.registered ++ [r] } := Session.Refines.register h r
      exact ih hregistered hlater hdump hvalid hfits
    | call c rounds cuttings =>
      have hcrossing : a.crossing message (.call c rounds cuttings :: actions)
          = a.ticketOf c :: a.response message (a.ticketOf c).wire
            :: (a.serve c).2.crossing message actions := rfl
      rw [hcrossing] at hdump hvalid hfits
      have hsent : a.ticketOf c ∈ a.ticketOf c :: a.response message (a.ticketOf c).wire
          :: (a.serve c).2.crossing message actions := List.mem_cons_self ..
      have hanswer : a.response message (a.ticketOf c).wire ∈ a.ticketOf c
          :: a.response message (a.ticketOf c).wire :: (a.serve c).2.crossing message actions :=
        List.mem_cons_of_mem _ (List.mem_cons_self ..)
      have htail : ∀ ticket ∈ (a.serve c).2.crossing message actions, ticket ∈ a.ticketOf c
          :: a.response message (a.ticketOf c).wire :: (a.serve c).2.crossing message actions :=
        fun ticket ht => List.mem_cons_of_mem _ (List.mem_cons_of_mem _ ht)
      obtain ⟨q, hq⟩ := TicketJson.serialize_valid hdump hsent (hvalid _ hsent)
      obtain ⟨p, hp⟩ := TicketJson.serialize_valid hdump hanswer (hvalid _ hanswer)
      obtain ⟨mid, hcall, hmid, huser⟩ := h.serve
        (fun _ _ => TicketJson.deserialize_serialize hnl) c hq (hfits _ hsent q hq) hp
        (hfits _ hanswer p hp) cuttings (hrounds c rounds cuttings (List.mem_cons_self ..))
      obtain ⟨t, hrun, ht, huser'⟩ := ih hmid hlater
        (fun j hj => hdump j (List.map_subset _ htail hj))
        (fun x hx => hvalid x (htail x hx)) (fun x hx => hfits x (htail x hx))
      refine ⟨t, ?_, ht, huser'.trans huser⟩
      simp only [Remote.run, hcall, hrun]
      rfl

end Remote

/-- Whatever is registered and called, in any order and in either variant, and however the
streams are cut: two rounds are enough for a call, the calls return what the table returns,
the handlers run that it runs, and no progress is ever reported. -/
theorem remote_run_serves {nl : Nlohmann} {message : ErrorCode → Bytes} (hnl : nl.Lawful)
    (id : ℕ) (user : τ) (state : σ) (actions : List (RemoteAction τ σ))
    (hrounds : ∀ c rounds cuttings, .call c rounds cuttings ∈ actions → 2 ≤ rounds)
    (hdump : nl.DumpsUtf8
      (((CallTable.init id state).crossing message actions).map TicketJson.to_json))
    (hvalid : ∀ ticket ∈ (CallTable.init id state).crossing message actions,
      ∀ s ∈ ticket.strings, ValidUtf8 s)
    (hfits : ∀ ticket ∈ (CallTable.init id state).crossing message actions, ∀ bytes,
      (TicketJson.serializer nl).serialize ticket = some bytes → Fits bytes) :
    ∃ t, (Remote.init id user state).run (TicketJson.serializer nl) message actions
        = some (((CallTable.init id state).serveAll actions).1, t) ∧
      t.worker.invocations = ((CallTable.init id state).serveAll actions).2.invocations ∧
      t.worker.state = ((CallTable.init id state).serveAll actions).2.state ∧
      t.client.user = user := by
  have hinit : (Remote.init id user state).Refines (CallTable.init id state) :=
    Session.init_refines id state
  obtain ⟨t, hrun, ht, huser⟩ := hinit.run hnl hrounds hdump hvalid hfits
  exact ⟨t, hrun, ht.invocations, ht.state, huser⟩

def bytewiseRounds : Cuttings := ⟨fun _ => .bytewise, fun _ => .bytewise⟩

/- A long ticket for a short handler, a poll that nobody handles, a cancellation that a
handler carries out, and a poll with a handler. -/
def remoteActions : List (RemoteAction ℕ ℕ) :=
  [.register (.short (ascii "echo") fun ctx n => (.ok ctx.payload, n + 1)),
    .register (.short (ascii "cancel") fun _ n => (.ok [], n + 10)),
    .call (.sendLong .async ⟨ascii "echo", ascii "hi", [], 0⟩ (some fun _ k => k + 1) zeroDraws 5)
      2 bytewiseRounds,
    .call (.poll .sync (ascii "id") 0) 2 bytewiseRounds,
    .call (.cancel (ascii "id") 0) 2 bytewiseRounds,
    .register (.short (ascii "poll") fun ctx n => (.ok ctx.ticket_id, n)),
    .call (.poll .async (ascii "id") 0) 3 bytewiseRounds]

theorem remote_run_serves_cancelled :
    let nl := TicketJson.plain ((CallTable.init 7 0).crossing (fun _ => []) remoteActions)
    ∃ rs t, (Remote.init 7 0 0).run (TicketJson.serializer nl) (fun _ => []) remoteActions
        = some (rs, t) ∧
      rs.map Except.isOk = [true, false, false, true] ∧ t.worker.state = 11 ∧
      t.client.user = 0 := by
  have hfits : ∀ ticket ∈ (CallTable.init 7 0).crossing (fun _ => []) remoteActions,
      Fits (TicketJson.render (TicketJson.to_json ticket)) := by decide +kernel
  have hascii : ∀ ticket ∈ (CallTable.init 7 0).crossing (fun _ => []) remoteActions,
      ∀ s ∈ ticket.strings, ∀ b ∈ s, b.toNat < 128 := by decide +kernel
  have hrounds : ∀ c rounds cuttings, .call c rounds cuttings ∈ remoteActions → 2 ≤ rounds := by
    intro c rounds cuttings hmem
    simp only [remoteActions, List.mem_cons, RemoteAction.call.injEq, reduceCtorEq, false_or,
      List.not_mem_nil, or_false] at hmem
    omega
  obtain ⟨t, hrun, -, hstate, huser⟩ := remote_run_serves
    (TicketJson.plain_lawful (by decide +kernel)) 7 0 0 remoteActions hrounds
    (TicketJson.plain_dumpsUtf8 ((CallTable.init 7 0).crossing (fun _ => []) remoteActions))
    (fun ticket ht s hs => validUtf8_of_lt (hascii ticket ht s hs))
    (fun ticket ht bytes hb => TicketJson.plain_serialize hb ▸ hfits ticket ht)
  exact ⟨_, t, hrun, by decide +kernel, hstate.trans (by decide +kernel), huser⟩

end NetworkStack
