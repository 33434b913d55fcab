import NetworkStack.Ticket.Calls

/-!
# Long tickets (protocol/TicketController.cpp)

`sendLong` polls its ticket until a response has a status other than RUNNING. What it
polls for, what it reports and what it returns are read off the responses alone, however
many there are and wherever the transport fails.
-/

namespace NetworkStack

open Hoare

variable {τ : Type}

/-! ### Tickets on the stream -/

namespace PeerState

variable (S : TicketSerializer)

/-- The frame of a ticket; one without a serialization is not written. -/
def frameOf (ticket : TicketInfo) : Bytes :=
  match S.serialize ticket with
  | none => []
  | some serialized => if serialized = [] then [] else TicketFrame.encodeFrame serialized

theorem sendFrame_sent (v : Variant) (ticket : TicketInfo) (p : PeerState) :
    ∃ part, part <+: frameOf S ticket ∧
      (sendFrame S v ticket p).2.socket.sent = p.socket.sent ++ part ∧
      ∀ n, (sendFrame S v ticket p).1 = .ok n → part = frameOf S ticket := by
  have hnothing : ∀ e, ∃ part, part <+: ([] : Bytes) ∧
      ((stop e : Act PeerState CallExit ℕ) p).2.socket.sent = p.socket.sent ++ part ∧
      ∀ n, ((stop e : Act PeerState CallExit ℕ) p).1 = .ok n → part = [] := fun e =>
    ⟨[], List.prefix_refl _, (List.append_nil _).symm, fun _ _ => rfl⟩
  unfold sendFrame frameOf
  cases S.serialize ticket with
  | none => exact hnothing _
  | some serialized =>
    by_cases hempty : serialized = []
    · simp only [if_pos hempty]
      exact hnothing _
    · obtain ⟨part, hpart, hsent⟩ := TicketFrame.writeFrame_sent p.socket serialized
      simp only [if_neg hempty, writeFrame]
      cases hwrite : TicketFrame.writeFrame p.socket serialized with
      | mk r socket =>
        rw [hwrite] at hsent
        cases r with
        | error ec => exact ⟨part, hpart, hsent, fun n hn => by cases hn⟩
        | ok m =>
          refine ⟨_, List.prefix_refl _, ?_, fun _ _ => rfl⟩
          exact (TicketFrame.writeFrame_ok hwrite).2

theorem receiveFrame_sent (v : Variant) (p : PeerState) :
    (receiveFrame S v p).2.socket.sent = p.socket.sent := by
  rw [receiveFrame_eq]
  cases hread : TicketPeer.receiveFrame S p.socket with
  | none => rfl
  | some x => exact (TicketPeer.receiveFrame_readOnly (r := x.1) (t := x.2) hread).sent

/- A handshake that returns a response has written its ticket whole. -/
theorem handshake_sent (v : Variant) (request : TicketInfo) (p : PeerState) :
    ∃ part, part <+: frameOf S request ∧
      (handshake S v request p).2.socket.sent = p.socket.sent ++ part ∧
      ∀ response, (handshake S v request p).1 = .ok response → part = frameOf S request := by
  obtain ⟨part, hpart, hsent, hwhole⟩ := sendFrame_sent S v request p
  unfold handshake
  cases hrun : sendFrame S v request p with
  | mk r q =>
    rw [hrun] at hsent hwhole
    cases r with
    | error e =>
      rw [bind_error hrun]
      exact ⟨part, hpart, hsent, fun _ h => by cases h⟩
    | ok n =>
      rw [bind_ok hrun]
      exact ⟨part, hpart, (receiveFrame_sent S v q).trans hsent, fun _ _ => hwhole n rfl⟩

end PeerState

namespace Client

/-! ### The course of a call -/

variable (S : TicketSerializer) (v : Variant) (args : SendArgs)
  (onProgress : Option (TicketInfo → τ → τ)) (draws : Draws) (s : Client τ) (r : ℕ → TicketInfo)

/-- The ticket that `sendLong` creates. -/
def created : TicketInfo := longTicket (s.controller.generateTicketId draws).1 args

/-- The tickets of the handshakes when `r` are the responses. -/
def requestAt : ℕ → TicketInfo
  | 0 => created args draws s
  | i + 1 => pollTicket (r i).ticket_id args.timeout

/-- The peer before each of these handshakes. -/
def peerAt : ℕ → PeerState
  | 0 => s.peer
  | i + 1 => (PeerState.handshake S v (requestAt args draws s r i) (peerAt i)).2

/-- What the handshake numbered `i` ends in. -/
def responseAt (i : ℕ) : Except CallExit TicketInfo :=
  (PeerState.handshake S v (requestAt args draws s r i) (peerAt S v args draws s r i)).1

/-- What the callback makes of the caller's state, called with one response after the other. -/
def reported (responses : List TicketInfo) (user : τ) : τ :=
  match onProgress with
  | none => user
  | some f => responses.foldl (fun user response => f response user) user

/-- The tickets of the first `n` polls. -/
def polls (n : ℕ) : List TicketInfo :=
  (List.range n).map fun i => pollTicket (r i).ticket_id args.timeout

/-- After `n` polls: all responses but the last one have been reported. -/
def stateAt (n : ℕ) : Client τ :=
  { peer := peerAt S v args draws s r (n + 1)
    ticketCounter := s.ticketCounter + 1
    socketId := s.socketId
    user := reported onProgress ((List.range n).map r) s.user
    requests := s.requests ++ created args draws s :: polls args r n }

/-- By the status of the response that ends the polling. -/
def longResult (response : TicketInfo) : Except CallExit TicketInfo :=
  match response.status with
  | .COMPLETED | .CANCELLED => .ok response
  | .FAILED => .error ioError
  | .PENDING => .error protocolError
  | .RUNNING => .error .polling

/-! ### One poll -/

variable {S v args onProgress draws s r}

variable (onProgress draws s) in
theorem progress_stateAt (n : ℕ) :
    progress onProgress (r n) (stateAt S v args onProgress draws s r n)
      = (.ok (), { stateAt S v args onProgress draws s r n with
          user := reported onProgress ((List.range (n + 1)).map r) s.user }) := by
  rw [List.range_succ, List.map_append, List.map_singleton]
  cases onProgress with
  | none => rfl
  | some f =>
    simp only [progress, stateAt, reported, List.foldl_append]
    rfl

variable (S v args onProgress draws s r) in
theorem handshake_stateAt (n : ℕ) :
    handshake S v (pollTicket (r n).ticket_id args.timeout)
        { stateAt S v args onProgress draws s r n with
          user := reported onProgress ((List.range (n + 1)).map r) s.user }
      = (responseAt S v args draws s r (n + 1), stateAt S v args onProgress draws s r (n + 1)) := by
  have hpolls : polls args r (n + 1)
      = polls args r n ++ [pollTicket (r n).ticket_id args.timeout] := by
    rw [polls, List.range_succ, List.map_append]
    rfl
  have hrequests : (s.requests ++ created args draws s :: polls args r n)
      ++ [pollTicket (r n).ticket_id args.timeout]
        = s.requests ++ created args draws s :: polls args r (n + 1) := by
    rw [hpolls, List.append_assoc, List.cons_append]
  simp only [stateAt, ← hrequests]
  rfl

variable (S v args onProgress draws s r) in
theorem handshake_created :
    handshake S v (created args draws s) { s with ticketCounter := s.ticketCounter + 1 }
      = (responseAt S v args draws s r 0, stateAt S v args onProgress draws s r 0) := by
  cases onProgress with
  | none => rfl
  | some f => rfl

/-- What a poll makes of its response. -/
def pollResult (response : TicketInfo) : Except CallExit TicketInfo :=
  if response.status = .FAILED then .error ioError else .ok response

variable (S v args onProgress draws s r) in
theorem pollWith_stateAt (n : ℕ) :
    pollWith S v (r n).ticket_id args.timeout
        { stateAt S v args onProgress draws s r n with
          user := reported onProgress ((List.range (n + 1)).map r) s.user }
      = ((responseAt S v args draws s r (n + 1)).bind pollResult,
        stateAt S v args onProgress draws s r (n + 1)) := by
  have hpoll := handshake_stateAt S v args onProgress draws s r n
  rw [pollWith]
  cases hresponse : responseAt S v args draws s r (n + 1) with
  | error e =>
    rw [hresponse] at hpoll
    exact bind_error hpoll
  | ok response =>
    rw [hresponse] at hpoll
    rw [bind_ok hpoll]
    by_cases hfailed : response.status = .FAILED
    · simp only [Except.bind, pollResult, if_pos hfailed]
      rfl
    · simp only [Except.bind, pollResult, if_neg hfailed]
      rfl

section Step

variable {n fuel : ℕ} (hrunning : (r n).status = .RUNNING)
include hrunning

theorem whileRunning_error {e : CallExit}
    (h : (responseAt S v args draws s r (n + 1)).bind pollResult = .error e) :
    whileRunning S v onProgress args.timeout (fuel + 1) (r n)
        (stateAt S v args onProgress draws s r n)
      = (.error e, stateAt S v args onProgress draws s r (n + 1)) := by
  have hpoll := pollWith_stateAt S v args onProgress draws s r n
  rw [h] at hpoll
  rw [whileRunning, if_pos hrunning, bind_ok (progress_stateAt onProgress draws s n)]
  exact bind_error hpoll

theorem whileRunning_next {response : TicketInfo}
    (h : (responseAt S v args draws s r (n + 1)).bind pollResult = .ok response) :
    whileRunning S v onProgress args.timeout (fuel + 1) (r n)
        (stateAt S v args onProgress draws s r n)
      = whileRunning S v onProgress args.timeout fuel response
        (stateAt S v args onProgress draws s r (n + 1)) := by
  have hpoll := pollWith_stateAt S v args onProgress draws s r n
  rw [h] at hpoll
  rw [whileRunning, if_pos hrunning, bind_ok (progress_stateAt onProgress draws s n)]
  exact bind_ok hpoll

end Step

theorem whileRunning_ended {response : TicketInfo} {fuel : ℕ} {timeout : Int64}
    (h : response.status ≠ .RUNNING) (t : Client τ) :
    whileRunning S v onProgress timeout fuel response t = (.ok response, t) := by
  cases fuel with
  | zero =>
    rw [whileRunning, if_neg h]
    rfl
  | succ fuel =>
    rw [whileRunning, if_neg h]
    rfl

/-! ### All polls -/

/- As long as the responses are running, one poll after the other. -/
theorem whileRunning_running (onProgress : Option (TicketInfo → τ → τ)) {n : ℕ} (fuel : ℕ)
    (hrunning : ∀ i ≤ n, (r i).status = .RUNNING)
    (hresponses : ∀ i ≤ n, responseAt S v args draws s r i = .ok (r i)) :
    whileRunning S v onProgress args.timeout (fuel + n) (r 0)
        (stateAt S v args onProgress draws s r 0)
      = whileRunning S v onProgress args.timeout fuel (r n)
        (stateAt S v args onProgress draws s r n) := by
  induction n generalizing fuel with
  | zero => rfl
  | succ n ih =>
    have hnext : (responseAt S v args draws s r (n + 1)).bind pollResult = .ok (r (n + 1)) := by
      rw [hresponses (n + 1) (Nat.le_refl _)]
      exact if_neg fun h => by rw [hrunning (n + 1) (Nat.le_refl _)] at h; cases h
    rw [Nat.add_comm n 1, ← Nat.add_assoc, ih (fuel + 1)
      (fun i hi => hrunning i (Nat.le_succ_of_le hi))
      (fun i hi => hresponses i (Nat.le_succ_of_le hi)), Nat.add_comm 1 n]
    exact whileRunning_next (hrunning n (Nat.le_succ n)) hnext

/-- What stands behind the loop. -/
def ended (response : TicketInfo) : Call τ TicketInfo :=
  if response.status = .COMPLETED then pure response
  else if response.status = .CANCELLED then pure response
  else if response.status = .FAILED then stop ioError
  else stop protocolError

theorem ended_run {response : TicketInfo} (h : response.status ≠ .RUNNING) (t : Client τ) :
    ended response t = (longResult response, t) := by
  unfold ended longResult
  cases hstatus : response.status with
  | PENDING => rfl
  | RUNNING => exact absurd hstatus h
  | COMPLETED => rfl
  | FAILED => rfl
  | CANCELLED => rfl

variable (S v args onProgress draws s) in
/- The first response is looked at by other code than those to polls, which makes the same
of it as the loop and what stands behind. -/
theorem sendLongWith_eq (fuel : ℕ) :
    sendLongWith S v args onProgress draws fuel s
      = (handshake S v (created args draws s) >>= fun response =>
          whileRunning S v onProgress args.timeout fuel response >>= ended)
        { s with ticketCounter := s.ticketCounter + 1 } := by
  rw [sendLongWith, bind_ok (generateTicketId_run draws s)]
  refine congrFun (congrArg (handshake S v (created args draws s) >>= ·) ?_) _
  funext response t
  have hended : ∀ h : response.status ≠ .RUNNING,
      (whileRunning S v onProgress args.timeout fuel response >>= ended) t
        = (longResult response, t) :=
    fun h => (bind_ok (whileRunning_ended h t)).trans (ended_run h t)
  unfold longResult at hended
  cases hstatus : response.status with
  | PENDING => rfl
  | RUNNING => rfl
  | COMPLETED =>
    rw [hstatus] at hended
    exact (hended (by decide)).symm
  | FAILED =>
    rw [hstatus] at hended
    exact (hended (by decide)).symm
  | CANCELLED =>
    rw [hstatus] at hended
    exact (hended (by decide)).symm

theorem sendLongWith_ends {n fuel : ℕ} (hfuel : n ≤ fuel)
    (hrunning : ∀ i < n, (r i).status = .RUNNING)
    (hresponses : ∀ i < n, responseAt S v args draws s r i = .ok (r i))
    (hends : ∀ response, responseAt S v args draws s r n = .ok response →
      response.status ≠ .RUNNING) :
    sendLongWith S v args onProgress draws fuel s
      = ((responseAt S v args draws s r n).bind longResult,
        stateAt S v args onProgress draws s r n) := by
  have hfirst := handshake_created S v args onProgress draws s r
  rw [sendLongWith_eq]
  cases n with
  | zero =>
    cases hlast : responseAt S v args draws s r 0 with
    | error e =>
      rw [hlast] at hfirst
      exact bind_error hfirst
    | ok response =>
      rw [hlast] at hfirst
      have hended := hends response hlast
      rw [bind_ok hfirst, bind_ok (whileRunning_ended hended _)]
      exact ended_run hended _
  | succ n =>
    rw [hresponses 0 (Nat.succ_pos n)] at hfirst
    obtain ⟨k, rfl⟩ := Nat.exists_eq_add_of_le hfuel
    have hloop := whileRunning_running onProgress (k + 1)
      (fun i hi => hrunning i (Nat.lt_succ_of_le hi))
      (fun i hi => hresponses i (Nat.lt_succ_of_le hi))
    have hn := hrunning n (Nat.lt_succ_self n)
    have hcount : n + 1 + k = k + 1 + n := by omega
    rw [bind_ok hfirst, hcount]
    cases hlast : responseAt S v args draws s r (n + 1) with
    | error e =>
      rw [whileRunning_error hn (by rw [hlast]; rfl)] at hloop
      exact bind_error hloop
    | ok response =>
      have hended := hends response hlast
      by_cases hfailed : response.status = .FAILED
      · rw [whileRunning_error hn (by rw [hlast]; exact if_pos hfailed)] at hloop
        rw [bind_error hloop]
        simp only [Except.bind, longResult, hfailed]
      · rw [whileRunning_next hn (by rw [hlast]; exact if_neg hfailed),
          whileRunning_ended hended] at hloop
        rw [bind_ok hloop]
        exact ended_run hended _

/- A peer that answers under the id it was asked about is asked about one ticket only. -/
theorem requestAt_ticket_id {n : ℕ}
    (hechoes : ∀ i < n, (r i).ticket_id = (requestAt args draws s r i).ticket_id) :
    ∀ i ≤ n, (requestAt args draws s r i).ticket_id = (created args draws s).ticket_id := by
  intro i
  induction i with
  | zero => exact fun _ => rfl
  | succ i ih => exact fun hi => (hechoes i hi).trans (ih (Nat.le_of_succ_le hi))

variable (args draws s r) in
theorem requests_eq (n : ℕ) :
    (List.range (n + 1)).map (requestAt args draws s r)
      = created args draws s :: polls args r n := by
  rw [List.range_succ_eq_map, List.map_cons, List.map_map]
  rfl

/- Every handshake before the one numbered `i` has put its whole ticket on the stream. -/
theorem peerAt_sent {i : ℕ}
    (hresponses : ∀ j < i, responseAt S v args draws s r j = .ok (r j)) :
    (peerAt S v args draws s r i).socket.sent = s.peer.socket.sent
      ++ ((List.range i).map (requestAt args draws s r)).flatMap (PeerState.frameOf S) := by
  induction i with
  | zero => exact (List.append_nil _).symm
  | succ i ih =>
    obtain ⟨part, -, hsent, hwhole⟩ := PeerState.handshake_sent S v
      (requestAt args draws s r i) (peerAt S v args draws s r i)
    rw [peerAt, hsent, hwhole _ (hresponses i (Nat.lt_succ_self i)),
      ih fun j hj => hresponses j (Nat.lt_succ_of_lt hj), List.range_succ, List.map_append,
      List.flatMap_append, List.append_assoc]
    simp

/-- With `r n` the first response that is not running, `sendLong` polls `n` times, reports
`r 0` to `r (n - 1)` and returns by the status of `r n`; on the stream are the frames of the
ticket it created and of the polls. A handshake that fails instead ends it with that error and
has written no more than its own frame. All polls are for the ticket it created if the peer
echoes ids. -/
theorem sendLong_polls (S : TicketSerializer) (args : SendArgs)
    (onProgress : Option (TicketInfo → τ → τ)) (draws : Draws) (s : Client τ)
    (r : ℕ → TicketInfo) (n fuel : ℕ) (hfuel : n ≤ fuel)
    (hrunning : ∀ i < n, responseAt S .sync args draws s r i = .ok (r i) ∧
      (r i).status = .RUNNING) :
    (responseAt S .sync args draws s r n = .ok (r n) → (r n).status ≠ .RUNNING →
      ∃ t, sendLong S args onProgress draws fuel s = (longResult (r n), t) ∧
        t.requests = s.requests ++ created args draws s :: polls args r n ∧
        t.peer.socket.sent = s.peer.socket.sent
          ++ (created args draws s :: polls args r n).flatMap (PeerState.frameOf S) ∧
        t.user = reported onProgress ((List.range n).map r) s.user) ∧
    (∀ e, responseAt S .sync args draws s r n = .error e →
      ∃ t, sendLong S args onProgress draws fuel s = (.error e, t) ∧
        t.requests = s.requests ++ created args draws s :: polls args r n ∧
        (∃ part, part <+: PeerState.frameOf S (requestAt args draws s r n) ∧
          t.peer.socket.sent = s.peer.socket.sent
            ++ ((created args draws s :: polls args r n).take n).flatMap (PeerState.frameOf S)
            ++ part) ∧
        t.user = reported onProgress ((List.range n).map r) s.user) ∧
    ((∀ i < n, (r i).ticket_id = (requestAt args draws s r i).ticket_id) →
      ∀ ticket ∈ polls args r n, ticket.ticket_id = (created args draws s).ticket_id) := by
  have hstatus : ∀ i < n, (r i).status = .RUNNING := fun i hi => (hrunning i hi).2
  have hresponses : ∀ i < n, responseAt S .sync args draws s r i = .ok (r i) := fun i hi =>
    (hrunning i hi).1
  refine ⟨fun hlast hended => ?_, fun e hlast => ?_, fun hechoes ticket hticket => ?_⟩
  · have hends : ∀ response, responseAt S .sync args draws s r n = .ok response →
        response.status ≠ .RUNNING := by
      intro response hresponse
      rw [hlast] at hresponse
      cases hresponse
      exact hended
    have hall : ∀ i < n + 1, responseAt S .sync args draws s r i = .ok (r i) := by
      intro i hi
      rcases Nat.lt_succ_iff_lt_or_eq.mp hi with hlt | rfl
      · exact hresponses i hlt
      · exact hlast
    refine ⟨stateAt S .sync args onProgress draws s r n, ?_, rfl, ?_, rfl⟩
    · rw [sendLong, sendLongWith_ends hfuel hstatus hresponses hends, hlast]
      rfl
    · rw [← requests_eq]
      exact peerAt_sent hall
  · have hends : ∀ response, responseAt S .sync args draws s r n = .ok response →
        response.status ≠ .RUNNING := by
      intro response hresponse
      rw [hlast] at hresponse
      cases hresponse
    obtain ⟨part, hpart, hsent, -⟩ := PeerState.handshake_sent S .sync
      (requestAt args draws s r n) (peerAt S .sync args draws s r n)
    refine ⟨stateAt S .sync args onProgress draws s r n, ?_, rfl, ⟨part, hpart, ?_⟩, rfl⟩
    · rw [sendLong, sendLongWith_ends hfuel hstatus hresponses hends, hlast]
      rfl
    · rw [← requests_eq, ← List.map_take, List.take_range, Nat.min_eq_left (Nat.le_succ n),
        ← peerAt_sent hresponses]
      exact hsent
  · obtain ⟨i, hi, rfl⟩ := List.mem_map.mp hticket
    have hi := List.mem_range.mp hi
    exact (hechoes i hi).trans (requestAt_ticket_id hechoes i (Nat.le_of_lt hi))

/-! ### One poll for a ticket that completes -/

section Example

def longArgs : SendArgs := ⟨ascii "long-task", ascii "data", [], 5000⟩

def longId : Bytes := TicketController.ticketIdText (ascii "7") 0 zeroDraws

/-- RUNNING first, and then COMPLETED. -/
def longResponse (i : ℕ) : TicketInfo :=
  { pollTicket longId 5000 with
    type := .LONG
    status := if i = 0 then .RUNNING else .COMPLETED }

def longSerializer : TicketSerializer :=
  TicketJson.serializer (TicketJson.plain [longTicket longId longArgs, pollTicket longId 5000,
    longResponse 0, longResponse 1])

/-- Both responses wait in the socket. -/
def longClient : Client (List TicketInfo) :=
  { peer :=
      { socket := Socket.fresh ((List.range 2).map fun i =>
          .data (TicketFrame.encodeFrame (TicketJson.render (TicketJson.to_json (longResponse i)))))
        frames := [] }
    ticketCounter := 0
    socketId := ascii "7"
    user := []
    requests := [] }

theorem sendLong_polls_once :
    ∃ t, sendLong longSerializer longArgs (some fun response user => user ++ [response])
        zeroDraws 8 longClient = (.ok (longResponse 1), t) ∧
      t.requests = [longTicket longId longArgs, pollTicket longId 5000] ∧
      t.peer.socket.sent = [longTicket longId longArgs, pollTicket longId 5000].flatMap
        (fun ticket => TicketFrame.encodeFrame (TicketJson.render (TicketJson.to_json ticket))) ∧
      t.user = [longResponse 0] := by
  have hfirst : responseAt longSerializer .sync longArgs zeroDraws longClient longResponse 0
      = .ok (longResponse 0) := by decide +kernel
  have hlast : responseAt longSerializer .sync longArgs zeroDraws longClient longResponse 1
      = .ok (longResponse 1) := by decide +kernel
  obtain ⟨hreturns, -, -⟩ := sendLong_polls longSerializer longArgs
    (some fun response user => user ++ [response]) zeroDraws longClient longResponse 1 8
    (by decide) (fun i hi => by cases Nat.lt_one_iff.mp hi; exact ⟨hfirst, rfl⟩)
  obtain ⟨t, hrun, hrequests, hsent, huser⟩ := hreturns hlast (by decide)
  refine ⟨t, hrun, hrequests, hsent.trans ?_, huser⟩
  decide +kernel

end Example

end Client

end NetworkStack
