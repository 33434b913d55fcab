import NetworkStack.Ticket.Calls

/-!
# The time limit of a call (protocol/TicketController.cpp, TicketPeer.cpp, TicketFrame.h)

The timeout of the options goes into the ticket and no further: `sendFrame` and
`receiveFrame` have no parameter for it, so every frame operation runs with the default of
the frame functions.
-/

namespace NetworkStack

open Hoare

variable {τ : Type}

/-! ### The frame operations of a call -/

/-- Half a minute. -/
def defaultLimit : Int64 := 30000

/-- Since `base` only operations with the default limit have been logged. -/
def Client.Extends (base : List FrameCall) (s : Client τ) : Prop :=
  ∃ rest, s.peer.frames = base ++ rest ∧ ∀ f ∈ rest, f.timeout = defaultLimit

namespace Client

variable {S : TicketSerializer} {base : List FrameCall}

theorem Extends.more {s t : Client τ} (hs : s.Extends base) (rest : List FrameCall)
    (hframes : t.peer.frames = s.peer.frames ++ rest)
    (hrest : ∀ f ∈ rest, f.timeout = defaultLimit) : t.Extends base := by
  obtain ⟨front, hfront, hall⟩ := hs
  refine ⟨front ++ rest, by rw [hframes, hfront, List.append_assoc], fun f hf => ?_⟩
  exact (List.mem_append.mp hf).elim (hall f) (hrest f)

theorem writes_limit (v : Variant) (ticket : TicketInfo) :
    ∀ f ∈ PeerState.writes S v ticket, f.timeout = defaultLimit := by
  unfold PeerState.writes
  cases S.serialize ticket with
  | none => exact List.forall_mem_nil _
  | some serialized =>
    by_cases hempty : serialized = []
    · simp [hempty]
    · simp only [if_neg hempty, List.forall_mem_singleton]
      cases v with
      | sync => rfl
      | async => rfl

theorem sendFrame_unwritten {v : Variant} {ticket : TicketInfo}
    (h : PeerState.writes S v ticket = []) : ∃ e, PeerState.sendFrame S v ticket = stop e := by
  unfold PeerState.writes at h
  unfold PeerState.sendFrame
  cases hser : S.serialize ticket with
  | none => exact ⟨_, rfl⟩
  | some serialized =>
    rw [hser] at h
    by_cases hempty : serialized = []
    · exact ⟨_, if_pos hempty⟩
    · simp only [if_neg hempty] at h
      cases h

/- A handshake writes, and reads when it has written; without a write it has failed. -/
theorem handshake_frames (v : Variant) (request : TicketInfo) (s : Client τ) :
    ∃ reads, (handshake S v request s).2.peer.frames
        = s.peer.frames ++ PeerState.writes S v request ++ reads ∧
      (∀ f ∈ reads, f.timeout = defaultLimit) ∧
      (PeerState.writes S v request = [] →
        reads = [] ∧ ∃ e, (handshake S v request s).1 = .error e) := by
  by_cases hwrites : PeerState.writes S v request = []
  · obtain ⟨e, hsend⟩ := sendFrame_unwritten hwrites
    have hrun : PeerState.handshake S v request s.peer = (.error e, s.peer) := by
      rw [PeerState.handshake, hsend]
      exact bind_error rfl
    refine ⟨[], ?_, List.forall_mem_nil _, fun _ => ⟨rfl, e, ?_⟩⟩
    · simp only [handshake, hrun, hwrites, List.append_nil]
    · simp only [handshake, hrun]
  · have hlimit : TicketFrame.readTimeout v = defaultLimit := by
      cases v with
      | sync => rfl
      | async => rfl
    have hwrite := PeerState.sendFrame_frames S v request s.peer
    unfold handshake PeerState.handshake
    cases hrun : PeerState.sendFrame S v request s.peer with
    | mk r p =>
      rw [hrun] at hwrite
      have hframes : p.frames = s.peer.frames ++ PeerState.writes S v request := hwrite
      cases r with
      | error e =>
        rw [bind_error hrun]
        exact ⟨[], by simp only [hframes, List.append_nil], List.forall_mem_nil _,
          fun hnone => absurd hnone hwrites⟩
      | ok n =>
        rw [bind_ok hrun]
        refine ⟨[.read (TicketFrame.readTimeout v)], ?_, List.forall_mem_singleton.mpr hlimit,
          fun hnone => absurd hnone hwrites⟩
        simp only [PeerState.receiveFrame_frames, hframes]

theorem keeps_handshake (v : Variant) (request : TicketInfo) :
    Keeps (Extends base) (handshake (τ := τ) S v request) := by
  rw [keeps_iff]
  intro s hs
  obtain ⟨reads, hframes, hreads, -⟩ := handshake_frames (S := S) v request s
  refine hs.more (PeerState.writes S v request ++ reads)
    (by rw [hframes, List.append_assoc]) fun f hf => ?_
  exact (List.mem_append.mp hf).elim (writes_limit v request f) (hreads f)

theorem keeps_pollWith (v : Variant) (ticketId : Bytes) (timeout : Int64) :
    Keeps (Extends base) (pollWith (τ := τ) S v ticketId timeout) :=
  .bind (keeps_handshake v _) fun _ => .ite (keeps_stop _) (keeps_pure _)

theorem keeps_progress (onProgress : Option (TicketInfo → τ → τ)) (response : TicketInfo) :
    Keeps (Extends base) (progress onProgress response) := by
  rw [keeps_iff]
  intro s hs
  cases onProgress with
  | none => exact hs
  | some f => exact hs

theorem keeps_whileRunning (v : Variant) (onProgress : Option (TicketInfo → τ → τ))
    (timeout : Int64) (fuel : ℕ) (response : TicketInfo) :
    Keeps (Extends base) (whileRunning S v onProgress timeout fuel response) := by
  induction fuel generalizing response with
  | zero => exact .ite (keeps_stop _) (keeps_pure _)
  | succ fuel ih =>
    refine .ite (.bind (keeps_progress onProgress response) fun _ => ?_) (keeps_pure _)
    exact .bind (keeps_pollWith v _ timeout) fun pollResult => ih pollResult

variable (S) in
/-- What a call logs: the write of its first ticket, if that has a serialization, and then
frame operations with the default limit. -/
def Logs (v : Variant) (request : TicketInfo) (s t : Client τ) : Prop :=
  ∃ rest, t.peer.frames = s.peer.frames ++ PeerState.writes S v request ++ rest ∧
    (∀ f ∈ rest, f.timeout = defaultLimit) ∧ (PeerState.writes S v request = [] → rest = [])

theorem logs_bind {α : Type} {f : TicketInfo → Call τ α} (v : Variant) (request : TicketInfo)
    (hf : ∀ base a, Keeps (Extends base) (f a)) (s : Client τ) :
    Logs S v request s ((handshake S v request >>= f) s).2 := by
  obtain ⟨reads, hframes, hreads, hnone⟩ := handshake_frames (S := S) v request s
  cases hrun : handshake S v request s with
  | mk r t =>
    rw [hrun] at hframes hnone
    cases r with
    | error e =>
      rw [bind_error hrun]
      exact ⟨reads, hframes, hreads, fun hwrites => (hnone hwrites).1⟩
    | ok response =>
      rw [bind_ok hrun]
      have hstart : t.Extends (s.peer.frames ++ PeerState.writes S v request) :=
        ⟨reads, hframes, hreads⟩
      obtain ⟨rest, hrest, hall⟩ := keeps_iff.mp (hf _ response) t hstart
      refine ⟨rest, hrest, hall, fun hwrites => ?_⟩
      obtain ⟨-, e, he⟩ := hnone hwrites
      cases he

end Client

/-! ### The entry points -/

/-- A call of one of the controller's seven functions. -/
inductive Entry (τ : Type) where
  | send (args : SendArgs) (draws : Draws)
  | sendAsync (args : SendArgs) (draws : Draws)
  | sendLong (args : SendArgs) (onProgress : Option (TicketInfo → τ → τ)) (draws : Draws)
    (fuel : ℕ)
  | sendLongAsync (args : SendArgs) (onProgress : Option (TicketInfo → τ → τ)) (draws : Draws)
    (fuel : ℕ)
  | poll (ticketId : Bytes) (timeout : Int64)
  | pollAsync (ticketId : Bytes) (timeout : Int64)
  | cancel (ticketId : Bytes) (timeout : Int64)

namespace Entry

variable (S : TicketSerializer)

/-- `opts.timeout`. -/
def timeout : Entry τ → Int64
  | .send args _ => args.timeout
  | .sendAsync args _ => args.timeout
  | .sendLong args .. => args.timeout
  | .sendLongAsync args .. => args.timeout
  | .poll _ timeout => timeout
  | .pollAsync _ timeout => timeout
  | .cancel _ timeout => timeout

/-- The state a call leaves, however it ends. -/
def final (s : Client τ) : Entry τ → Client τ
  | .send args draws => (Client.send S args draws s).2
  | .sendAsync args draws => (Client.sendAsync S args draws s).2
  | .sendLong args onProgress draws fuel => (Client.sendLong S args onProgress draws fuel s).2
  | .sendLongAsync args onProgress draws fuel =>
    (Client.sendLongAsync S args onProgress draws fuel s).2
  | .poll ticketId timeout => (Client.poll S ticketId timeout s).2
  | .pollAsync ticketId timeout => (Client.pollAsync S ticketId timeout s).2
  | .cancel ticketId timeout => (Client.cancel S ticketId timeout s).2

/-- The ticket a call begins with. -/
def request (s : Client τ) : Entry τ → TicketInfo
  | .send args draws | .sendAsync args draws =>
    TicketController.requestTicket (s.controller.generateTicketId draws).1 args
  | .sendLong args _ draws _ | .sendLongAsync args _ draws _ =>
    Client.longTicket (s.controller.generateTicketId draws).1 args
  | .poll ticketId timeout | .pollAsync ticketId timeout => Client.pollTicket ticketId timeout
  | .cancel ticketId timeout => TicketController.cancelTicket ticketId timeout

/-- Every frame operation of the call has the timeout of the options for its limit. -/
def GivesLimit (s : Client τ) (e : Entry τ) : Prop :=
  ∃ calls, (e.final S s).peer.frames = s.peer.frames ++ calls ∧ ∀ f ∈ calls, f.timeout = e.timeout

variable {S}

theorem logs_sendWith (v : Variant) (args : SendArgs) (draws : Draws) (s : Client τ) :
    Client.Logs S v (TicketController.requestTicket (s.controller.generateTicketId draws).1 args)
      s (Client.sendWith S v args draws s).2 := by
  rw [Client.sendWith, bind_ok (Client.generateTicketId_run draws s)]
  refine Client.logs_bind v _ (fun base response => ?_) _
  refine .ite (keeps_stop _) ?_
  cases response.result with
  | none => exact keeps_stop _
  | some result => exact keeps_pure _

theorem logs_sendLongWith (v : Variant) (args : SendArgs)
    (onProgress : Option (TicketInfo → τ → τ)) (draws : Draws) (fuel : ℕ) (s : Client τ) :
    Client.Logs S v (Client.longTicket (s.controller.generateTicketId draws).1 args)
      s (Client.sendLongWith S v args onProgress draws fuel s).2 := by
  rw [Client.sendLongWith, bind_ok (Client.generateTicketId_run draws s)]
  refine Client.logs_bind v _ (fun base response => ?_) _
  refine .ite (keeps_stop _) (.ite (keeps_pure _) (.ite (keeps_pure _) ?_))
  refine .bind (Client.keeps_whileRunning v onProgress args.timeout fuel response) fun last => ?_
  exact .ite (keeps_pure _) (.ite (keeps_pure _) (.ite (keeps_stop _) (keeps_stop _)))

theorem logs_pollWith (v : Variant) (ticketId : Bytes) (timeout : Int64) (s : Client τ) :
    Client.Logs S v (Client.pollTicket ticketId timeout) s
      (Client.pollWith S v ticketId timeout s).2 :=
  Client.logs_bind v _ (fun _ _ => .ite (keeps_stop _) (keeps_pure _)) s

theorem logs_final (s : Client τ) (e : Entry τ) :
    ∃ v, Client.Logs S v (e.request s) s (e.final S s) := by
  cases e with
  | send args draws => exact ⟨_, logs_sendWith .sync args draws s⟩
  | sendAsync args draws => exact ⟨_, logs_sendWith .async args draws s⟩
  | sendLong args onProgress draws fuel =>
    exact ⟨_, logs_sendLongWith .sync args onProgress draws fuel s⟩
  | sendLongAsync args onProgress draws fuel =>
    exact ⟨_, logs_sendLongWith .async args onProgress draws fuel s⟩
  | poll ticketId timeout => exact ⟨_, logs_pollWith .sync ticketId timeout s⟩
  | pollAsync ticketId timeout => exact ⟨_, logs_pollWith .async ticketId timeout s⟩
  | cancel ticketId timeout =>
    exact ⟨_, Client.logs_bind .sync _ (fun _ _ => .ite (keeps_stop _) (keeps_pure _)) s⟩

theorem writes_eq_nil_iff (v : Variant) (ticket : TicketInfo) :
    PeerState.writes S v ticket = [] ↔
      S.serialize ticket = none ∨ S.serialize ticket = some [] := by
  unfold PeerState.writes
  cases S.serialize ticket with
  | none => simp
  | some serialized => simp

/-- The limit the caller asked for is the one in force if it is the default, or if no frame
is sent at all because the first ticket has no serialization. -/
theorem givesLimit_iff (S : TicketSerializer) (s : Client τ) (e : Entry τ) :
    e.GivesLimit S s ↔
      e.timeout = 30000 ∨ S.serialize (e.request s) = none ∨
        S.serialize (e.request s) = some [] := by
  obtain ⟨v, rest, hframes, hrest, hnone⟩ := logs_final (S := S) s e
  rw [List.append_assoc] at hframes
  rw [← writes_eq_nil_iff v, GivesLimit]
  constructor
  · rintro ⟨calls, hcalls, hall⟩
    obtain rfl := List.append_cancel_left (hcalls.symm.trans hframes)
    cases hwrites : PeerState.writes S v (e.request s) with
    | nil => exact .inr rfl
    | cons f fs =>
      have hmem : f ∈ PeerState.writes S v (e.request s) := hwrites ▸ List.mem_cons_self ..
      exact .inl ((hall f (List.mem_append_left _ hmem)).symm.trans
        (Client.writes_limit v _ f hmem))
  · rintro (htimeout | hwrites)
    · refine ⟨_, hframes, fun f hf => ?_⟩
      rw [htimeout]
      exact (List.mem_append.mp hf).elim (Client.writes_limit v _ f) (hrest f)
    · refine ⟨_, hframes, ?_⟩
      rw [hwrites, hnone hwrites]
      exact List.forall_mem_nil _

/-- A caller that has just connected. -/
def newClient : Client Unit := ⟨⟨Socket.fresh [], []⟩, 0, ascii "7", (), []⟩

def slowSend : Entry Unit :=
  .send ⟨ascii "slow-handler", ascii "data", [], 100⟩ zeroDraws

def slowSerializer : TicketSerializer :=
  TicketJson.serializer (TicketJson.plain [slowSend.request newClient])

/- A caller that allows a tenth of a second waits for half a minute. -/
theorem givesLimit_slow_send :
    (slowSend.final slowSerializer newClient).peer.frames = [.write 30000, .read 30000] ∧
      ¬∀ (S : TicketSerializer) (s : Client Unit) (e : Entry Unit), 0 < e.timeout →
        e.GivesLimit S s := by
  have hframes : (slowSend.final slowSerializer newClient).peer.frames
      = [.write 30000, .read 30000] := by decide +kernel
  refine ⟨hframes, fun h => ?_⟩
  obtain ⟨calls, hcalls, hall⟩ := h slowSerializer newClient slowSend (by decide)
  rw [hframes] at hcalls
  obtain rfl : calls = [.write 30000, .read 30000] := hcalls.symm
  exact absurd (hall _ (List.mem_cons_self ..)) (by decide)

end Entry

end NetworkStack
