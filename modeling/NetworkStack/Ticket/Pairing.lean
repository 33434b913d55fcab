import Mathlib.Data.List.Nodup
import NetworkStack.Ticket.Link

/-!
# Which reply a call gets

Requests and replies are paired by position alone. As long as the pieces of the
calls keep an order (one call at a time between its two writes, replies read in the
order of the requests, nothing read after a failed read), each side of the
connection carries whole frames and every call gets the reply to its own ticket.
-/

namespace NetworkStack

open SocketDetail TicketFrame

variable {σ : Type}

namespace TicketLink

/-- The first call, in the order of the requests on the wire, whose reply is not read yet. -/
def firstWaiting (s : TicketLink σ) : Option (ℕ × Request) :=
  s.wrote.find? fun e => !(s.calls e.1).isFinished

section Guards

variable (S : TicketSerializer) (message : ErrorCode → Bytes)

def requestFits (s : TicketLink σ) (args : SendArgs) (draws : Draws) : Bool :=
  match S.serialize
      (TicketController.requestTicket (s.controller.generateTicketId draws).1 args) with
  | some frame => decide (Fits frame)
  | none => true

def responseFits (s : TicketLink σ) (incoming : List ReadEvent) : Bool :=
  match TicketPeer.receiveFrame S { s.worker.socket with incoming := incoming } with
  | some (.ok ticket, _) =>
    match S.serialize (TicketWorker.answer message s.worker ticket).1 with
    | some bytes => decide (Fits bytes)
    | none => true
  | _ => true

/-- A prefix is written only while no other call owes a body, a reply is read only by
the call whose request is the oldest unanswered one, and neither side reads after a
read of its own has failed. -/
def Ordered (s : TicketLink σ) : LinkStep → Prop
  | .start args draws => s.requestFits S args draws = true
  | .writePrefix _ => ∀ j < s.started, (s.calls j).owesBody = false
  | .writeBody _ => True
  | .readPrefix i _ => s.controllerFailed = false ∧ s.firstWaiting.map (·.1) = some i
  | .readBody _ _ => s.controllerFailed = false
  | .work incoming => s.workerFailed = false ∧ s.responseFits S message incoming = true

instance (s : TicketLink σ) : (l : LinkStep) → Decidable (s.Ordered S message l)
  | .start .. => inferInstanceAs (Decidable (_ = true))
  | .writePrefix _ => inferInstanceAs (Decidable (∀ j < s.started, (s.calls j).owesBody = false))
  | .writeBody _ => .isTrue trivial
  | .readPrefix .. => inferInstanceAs (Decidable (_ ∧ _ = _))
  | .readBody .. => inferInstanceAs (Decidable (_ = false))
  | .work _ => inferInstanceAs (Decidable (_ ∧ _ = true))

end Guards

/-! ### The invariant -/

variable (S : TicketSerializer)

def frameOf (ticket : TicketInfo) : Bytes := (S.serialize ticket).getD []

def Sendable (ticket : TicketInfo) : Prop := ∃ bytes, S.serialize ticket = some bytes ∧ Fits bytes

inductive OnWire (c : Call) (rq : Request) : Prop where
  | prefixWritten (h : c = .prefixWritten rq)
  | bodyWritten (h : c = .bodyWritten rq)
  | prefixRead (lenBuf : Bytes) (h : c = .prefixRead rq lenBuf)
  | finished (r : Except ErrorCode Bytes) (h : c = .finished rq r)

inductive Owed (calls : ℕ → Call) : Bytes → Prop where
  | nothing (h : ∀ i rq, calls i ≠ .prefixWritten rq) : Owed calls []
  | body (i : ℕ) (rq : Request) (h : calls i = .prefixWritten rq)
      (only : ∀ j rq', calls j = .prefixWritten rq' → j = i) : Owed calls rq.frame

/-- The prefix the first waiting call has taken off the stream of replies. -/
inductive Taken (calls : ℕ → Call) : List (ℕ × Request) → Bytes → Prop where
  | nothing (waiting : List (ℕ × Request)) (h : ∀ i rq lenBuf, calls i ≠ .prefixRead rq lenBuf) :
      Taken calls waiting []
  | lengthPrefix (i : ℕ) (rq : Request) (lenBuf : Bytes) (rest : List (ℕ × Request))
      (h : calls i = .prefixRead rq lenBuf) (short : lenBuf.length < 2 ^ 32)
      (only : ∀ j rq' lenBuf', calls j = .prefixRead rq' lenBuf' → j = i) :
      Taken calls ((i, rq) :: rest) (makeLengthPrefix (UInt32.ofNat lenBuf.length))

/- Requests: what is on the wire and the body still owed are whole frames, and what
the worker has not read of them are the frames of the requests it has not answered. -/
structure RequestStream (s : TicketLink σ) : Prop where
  stream : ∃ owed, Owed s.calls owed ∧
    s.controller.socket.sent ++ owed = (s.wrote.map fun e => e.2.frame).flatMap encodeFrame ∧
    (s.workerFailed = false → ∃ handled pending, s.wrote = handled ++ pending ∧
      s.worker.responses.map (·.ticket_id) = handled.map (·.2.ticket.ticket_id) ∧
      s.worker.socket.readBuffer ++ s.up ++ owed
        = (pending.map fun e => e.2.frame).flatMap encodeFrame)

/- Replies: the calls finish in the order of their requests, and what the controller
has not read are the frames of the responses nobody has read. -/
structure ReplyStream (s : TicketLink σ) : Prop where
  stream : s.controllerFailed = false → ∃ done waiting taken, s.wrote = done ++ waiting ∧
    (∀ e ∈ done, (s.calls e.1).isFinished = true) ∧
    (∀ e ∈ waiting, (s.calls e.1).isFinished = false) ∧
    Taken s.calls waiting taken ∧ done.length ≤ s.worker.responses.length ∧
    taken ++ s.controller.socket.readBuffer ++ s.down
      = ((s.worker.responses.drop done.length).map (frameOf S)).flatMap encodeFrame

def Answered (s : TicketLink σ) (rq : Request) (r : Bytes) : Prop :=
  ∃ response ∈ s.worker.responses, response.ticket_id = rq.ticket.ticket_id ∧
    response.status ≠ .FAILED ∧ response.result = some r

/- The calls on the wire and the log of their prefixes. -/
structure CallLog (calls : ℕ → Call) (started : ℕ) (wrote : List (ℕ × Request)) : Prop where
  unstarted : ∀ j, started ≤ j → calls j = .idle
  writing : ∀ i rq, calls i = .prefixWritten rq → wrote.getLast? = some (i, rq)
  distinct : (wrote.map (·.1)).Nodup
  onWire : ∀ e ∈ wrote, OnWire (calls e.1) e.2
  logged : ∀ i rq, OnWire (calls i) rq → (calls i).isFinished = false → (i, rq) ∈ wrote
  serialized : ∀ i rq, calls i = .created rq ∨ (i, rq) ∈ wrote →
    S.serialize rq.ticket = some rq.frame ∧ Fits rq.frame

structure Inv (s : TicketLink σ) : Prop where
  controllerOpen : s.controller.socket.connected = true ∧ s.controller.socket.outgoing = []
  workerOpen : s.worker.socket.connected = true ∧ s.worker.socket.outgoing = []
  log : CallLog S s.calls s.started s.wrote
  sendable : ∀ response ∈ s.worker.responses, Sendable S response
  paired : s.worker.responses.map (·.ticket_id) <+: s.wrote.map (·.2.ticket.ticket_id)
  requests : RequestStream s
  replies : ReplyStream S s
  results : ∀ i rq r, s.calls i = .finished rq (.ok r) → s.Answered rq r

/-! ### Changing one call -/

section Update

variable {calls : ℕ → Call} {i : ℕ} {c : Call}

theorem Owed.update {owed : Bytes} (h : Owed calls owed)
    (hold : ∀ rq, calls i ≠ .prefixWritten rq) (hnew : ∀ rq, c ≠ .prefixWritten rq) :
    Owed (Function.update calls i c) owed := by
  have hsame : ∀ j rq,
      Function.update calls i c j = .prefixWritten rq → calls j = .prefixWritten rq := by
    intro j rq hj
    by_cases hji : j = i
    · subst hji
      rw [Function.update_self] at hj
      exact absurd hj (hnew rq)
    · rwa [Function.update_of_ne hji] at hj
  cases h with
  | nothing h => exact .nothing fun j rq hj => h j rq (hsame j rq hj)
  | body j rq h only =>
    have hji : j ≠ i := fun hji => hold rq (hji ▸ h)
    refine .body j rq (by rwa [Function.update_of_ne hji]) ?_
    intro k rq' hk
    exact only k rq' (hsame k rq' hk)

theorem Taken.update {waiting : List (ℕ × Request)} {taken : Bytes} (h : Taken calls waiting taken)
    (hold : ∀ rq lenBuf, calls i ≠ .prefixRead rq lenBuf)
    (hnew : ∀ rq lenBuf, c ≠ .prefixRead rq lenBuf) :
    Taken (Function.update calls i c) waiting taken := by
  have hsame : ∀ j rq lenBuf, Function.update calls i c j = .prefixRead rq lenBuf →
      calls j = .prefixRead rq lenBuf := by
    intro j rq lenBuf hj
    by_cases hji : j = i
    · subst hji
      rw [Function.update_self] at hj
      exact absurd hj (hnew rq lenBuf)
    · rwa [Function.update_of_ne hji] at hj
  cases h with
  | nothing _ h => exact .nothing _ fun j rq lenBuf hj => h j rq lenBuf (hsame j rq lenBuf hj)
  | lengthPrefix j rq lenBuf rest h short only =>
    have hji : j ≠ i := fun hji => hold rq lenBuf (hji ▸ h)
    refine .lengthPrefix j rq lenBuf rest (by rwa [Function.update_of_ne hji]) short ?_
    intro k rq' lenBuf' hk
    exact only k rq' lenBuf' (hsame k rq' lenBuf' hk)

theorem isFinished_update (hold : (calls i).isFinished = false) (hnew : c.isFinished = false)
    (j : ℕ) : (Function.update calls i c j).isFinished = (calls j).isFinished := by
  by_cases hji : j = i
  · subst hji
    rw [Function.update_self, hold, hnew]
  · rw [Function.update_of_ne hji]

end Update

theorem OnWire.ne_idle {c : Call} {rq : Request} (h : OnWire c rq) : c ≠ .idle := by
  cases h <;> simp_all

theorem OnWire.ne_created {c : Call} {rq rq' : Request} (h : OnWire c rq) : c ≠ .created rq' := by
  cases h <;> simp_all

variable {S} {message : ErrorCode → Bytes}

theorem OnWire.unique {c : Call} {rq rq' : Request} (h : OnWire c rq) (h' : OnWire c rq') :
    rq = rq' := by
  cases h <;> cases h' <;> simp_all

theorem update_eq_cases {calls : ℕ → Call} {i j : ℕ} {c c' : Call}
    (h : Function.update calls i c j = c') : (j = i ∧ c = c') ∨ (j ≠ i ∧ calls j = c') := by
  by_cases hji : j = i
  · subst hji
    rw [Function.update_self] at h
    exact .inl ⟨rfl, h⟩
  · rw [Function.update_of_ne hji] at h
    exact .inr ⟨hji, h⟩

section Log

variable {calls : ℕ → Call} {started : ℕ} {wrote : List (ℕ × Request)}

theorem CallLog.ne_of_created (h : CallLog S calls started wrote) {i : ℕ} {rq : Request}
    (hi : calls i = .created rq) : ∀ e ∈ wrote, e.1 ≠ i := by
  intro e he hei
  exact (h.onWire e he).ne_created (hei ▸ hi)

theorem CallLog.start (h : CallLog S calls started wrote) {c : Call}
    (hwire : ∀ rq, OnWire c rq → c.isFinished = true) (howes : ∀ rq, c ≠ .prefixWritten rq)
    (hser : ∀ rq, c = .created rq → S.serialize rq.ticket = some rq.frame ∧ Fits rq.frame) :
    CallLog S (Function.update calls started c) (started + 1) wrote := by
  have hne : ∀ e ∈ wrote, e.1 ≠ started := by
    intro e he hei
    exact (h.onWire e he).ne_idle (h.unstarted e.1 (Nat.le_of_eq hei.symm))
  refine ⟨?_, ?_, h.distinct, ?_, ?_, ?_⟩
  · intro j hj
    rw [Function.update_of_ne (by omega)]
    exact h.unstarted j (by omega)
  · intro i rq hi
    rcases update_eq_cases hi with ⟨-, hc⟩ | ⟨-, hi⟩
    · exact absurd hc (howes rq)
    · exact h.writing i rq hi
  · intro e he
    rw [Function.update_of_ne (hne e he)]
    exact h.onWire e he
  · intro i rq hi hfin
    by_cases his : i = started
    · subst his
      rw [Function.update_self] at hi hfin
      rw [hwire rq hi] at hfin
      cases hfin
    · rw [Function.update_of_ne his] at hi hfin
      exact h.logged i rq hi hfin
  · rintro i rq (hi | hi)
    · rcases update_eq_cases hi with ⟨-, hc⟩ | ⟨-, hi⟩
      · exact hser rq hc
      · exact h.serialized i rq (.inl hi)
    · exact h.serialized i rq (.inr hi)

theorem CallLog.writePrefix (h : CallLog S calls started wrote) {i : ℕ} {rq : Request}
    (hcall : calls i = .created rq) (hnone : ∀ j rq', calls j ≠ .prefixWritten rq') :
    CallLog S (Function.update calls i (.prefixWritten rq)) started (wrote ++ [(i, rq)]) := by
  have hne := h.ne_of_created hcall
  refine ⟨?_, ?_, ?_, ?_, ?_, ?_⟩
  · intro j hj
    have hji : j ≠ i := by
      rintro rfl
      rw [h.unstarted j hj] at hcall
      cases hcall
    rw [Function.update_of_ne hji]
    exact h.unstarted j hj
  · intro j rq' hj
    rcases update_eq_cases hj with ⟨rfl, hc⟩ | ⟨-, hj⟩
    · cases hc
      rw [List.getLast?_append, List.getLast?_singleton, Option.some_or]
    · exact absurd hj (hnone j rq')
  · rw [List.map_append]
    refine List.nodup_append.mpr ⟨h.distinct, List.pairwise_singleton .., ?_⟩
    intro a ha b hb hab
    obtain ⟨e, he, rfl⟩ := List.mem_map.mp ha
    exact hne e he (hab.trans (List.mem_singleton.mp hb))
  · intro e he
    rcases List.mem_append.mp he with he | he
    · rw [Function.update_of_ne (hne e he)]
      exact h.onWire e he
    · obtain rfl := List.mem_singleton.mp he
      exact .prefixWritten (Function.update_self ..)
  · intro j rq' hj hfin
    by_cases hji : j = i
    · subst hji
      rw [Function.update_self] at hj
      obtain rfl := OnWire.unique (.prefixWritten rfl) hj
      exact List.mem_append_right _ (List.mem_singleton_self _)
    · rw [Function.update_of_ne hji] at hj hfin
      exact List.mem_append_left _ (h.logged j rq' hj hfin)
  · rintro j rq' (hj | hj)
    · rcases update_eq_cases hj with ⟨-, hc⟩ | ⟨-, hj⟩
      · cases hc
      · exact h.serialized j rq' (.inl hj)
    · rcases List.mem_append.mp hj with hj | hj
      · exact h.serialized j rq' (.inr hj)
      · cases List.mem_singleton.mp hj
        exact h.serialized i rq (.inl hcall)

theorem CallLog.move (h : CallLog S calls started wrote) {i : ℕ} {rq : Request} {c : Call}
    (hold : OnWire (calls i) rq) (hfin : (calls i).isFinished = false) (hnew : OnWire c rq)
    (howes : ∀ rq', c ≠ .prefixWritten rq') :
    CallLog S (Function.update calls i c) started wrote := by
  refine ⟨?_, ?_, h.distinct, ?_, ?_, ?_⟩
  · intro j hj
    have hji : j ≠ i := by
      rintro rfl
      exact hold.ne_idle (h.unstarted j hj)
    rw [Function.update_of_ne hji]
    exact h.unstarted j hj
  · intro j rq' hj
    rcases update_eq_cases hj with ⟨-, hc⟩ | ⟨-, hj⟩
    · exact absurd hc (howes rq')
    · exact h.writing j rq' hj
  · intro e he
    by_cases hei : e.1 = i
    · have hwire := h.onWire e he
      rw [hei] at hwire ⊢
      rw [Function.update_self, ← hold.unique hwire]
      exact hnew
    · rw [Function.update_of_ne hei]
      exact h.onWire e he
  · intro j rq' hj hjfin
    by_cases hji : j = i
    · subst hji
      rw [Function.update_self] at hj
      rw [← hnew.unique hj]
      exact h.logged j rq hold hfin
    · rw [Function.update_of_ne hji] at hj hjfin
      exact h.logged j rq' hj hjfin
  · rintro j rq' (hj | hj)
    · rcases update_eq_cases hj with ⟨-, hc⟩ | ⟨-, hj⟩
      · exact absurd hc hnew.ne_created
      · exact h.serialized j rq' (.inl hj)
    · exact h.serialized j rq' (.inr hj)

end Log

theorem Inv.results_update {s : TicketLink σ} (hs : Inv S s) {i : ℕ} {c : Call}
    (hnew : ∀ rq r, c ≠ .finished rq (.ok r)) (j : ℕ) (rq : Request) (r : Bytes)
    (hj : Function.update s.calls i c j = .finished rq (.ok r)) : s.Answered rq r := by
  rcases update_eq_cases hj with ⟨-, hc⟩ | ⟨-, hj⟩
  · exact absurd hc (hnew rq r)
  · exact hs.results j rq r hj

theorem connect_inv (id : ℕ) (handlers : List (Bytes × TicketHandler σ))
    (longHandlers : List (Bytes × TicketLongHandler σ)) (state : σ) :
    Inv S (connect id handlers longHandlers state) := by
  have hlog : CallLog S (fun _ => .idle) 0 [] := by
    refine ⟨fun _ _ => rfl, ?_, List.nodup_nil, ?_, ?_, ?_⟩
    · intro i rq h
      cases h
    · intro e he
      cases he
    · intro i rq h
      exact absurd rfl h.ne_idle
    · rintro i rq (h | h) <;> cases h
  refine ⟨⟨rfl, rfl⟩, ⟨rfl, rfl⟩, hlog, ?_, List.prefix_rfl,
    ⟨[], .nothing ?_, rfl, fun _ => ⟨[], [], rfl, rfl, rfl⟩⟩,
    ⟨fun _ => ⟨[], [], [], rfl, ?_, ?_, .nothing _ ?_, Nat.le_refl _, rfl⟩⟩, ?_⟩
  · intro r hr
    cases hr
  · intro i rq h
    cases h
  · intro e he
    cases he
  · intro e he
    cases he
  · intro i rq lenBuf h
    cases h
  · intro i rq r h
    cases h

/-! ### Starting and writing -/

theorem serialize_cases {ticket : TicketInfo}
    (hfits : ∀ frame, S.serialize ticket = some frame → Fits frame) :
    (serialize S ticket = .threw ticket) ∨
      (∃ rq ec, serialize S ticket = .finished rq (.error ec)) ∨
      ∃ rq, serialize S ticket = .created rq ∧ S.serialize rq.ticket = some rq.frame ∧
        Fits rq.frame := by
  unfold serialize
  cases hser : S.serialize ticket with
  | none => exact .inl rfl
  | some frame =>
    by_cases hempty : frame = []
    · exact .inr (.inl ⟨⟨ticket, frame⟩, _, if_pos hempty⟩)
    · exact .inr (.inr ⟨⟨ticket, frame⟩, if_neg hempty, hser, hfits frame hser⟩)

theorem start_inv {s : TicketLink σ} {args : SendArgs} {draws : Draws} (hs : Inv S s)
    (hfits : s.requestFits S args draws = true) : Inv S (s.start S args draws) := by
  have hrequest : ∀ frame, S.serialize (TicketController.requestTicket
      (s.controller.generateTicketId draws).1 args) = some frame → Fits frame := by
    intro frame hser
    simpa only [requestFits, hser, decide_eq_true_eq] using hfits
  have hcases := serialize_cases hrequest
  have hstart : s.start S args draws = { s.set s.started (serialize S
      (TicketController.requestTicket (s.controller.generateTicketId draws).1 args)) with
        controller := (s.controller.generateTicketId draws).2
        started := s.started + 1 } := rfl
  generalize serialize S
    (TicketController.requestTicket (s.controller.generateTicketId draws).1 args) = c
    at hcases hstart
  have hidle := hs.log.unstarted s.started (Nat.le_refl _)
  have hother : ∀ e ∈ s.wrote, Function.update s.calls s.started c e.1 = s.calls e.1 := by
    intro e he
    refine Function.update_of_ne (fun hei => ?_) ..
    exact (hs.log.onWire e he).ne_idle (hei ▸ hidle)
  rw [hstart]
  refine ⟨hs.controllerOpen, hs.workerOpen, hs.log.start ?_ ?_ ?_, hs.sendable, hs.paired, ⟨?_⟩,
    ⟨?_⟩, hs.results_update ?_⟩
  · rintro rq hwire
    rcases hcases with rfl | ⟨rq', ec, rfl⟩ | ⟨rq', rfl, -⟩
    · cases hwire <;> simp_all
    · rfl
    · exact absurd rfl hwire.ne_created
  · rintro rq rfl
    rcases hcases with h | ⟨rq', ec, h⟩ | ⟨rq', h, -⟩ <;> cases h
  · rintro rq rfl
    rcases hcases with h | ⟨rq', ec, h⟩ | ⟨rq', h, hser⟩ <;> cases h
    exact hser
  · obtain ⟨owed, howed, hrest⟩ := hs.requests.stream
    refine ⟨owed, howed.update (by simp [hidle]) ?_, hrest⟩
    rintro rq rfl
    rcases hcases with h | ⟨rq', ec, h⟩ | ⟨rq', h, -⟩ <;> cases h
  · intro hf
    obtain ⟨done, waiting, taken, hsplit, hdone, hwait, htaken, hrest⟩ := hs.replies.stream hf
    refine ⟨done, waiting, taken, hsplit, ?_, ?_, htaken.update (by simp [hidle]) ?_, hrest⟩
    · intro e he
      simpa only [set, hother e (hsplit ▸ List.mem_append_left _ he)] using hdone e he
    · intro e he
      simpa only [set, hother e (hsplit ▸ List.mem_append_right _ he)] using hwait e he
    · rintro rq lenBuf rfl
      rcases hcases with h | ⟨rq', ec, h⟩ | ⟨rq', h, -⟩ <;> cases h
  · rintro rq r rfl
    rcases hcases with h | ⟨rq', ec, h⟩ | ⟨rq', h, -⟩ <;> cases h

theorem write_open {s : TicketLink σ} {i : ℕ} {rq : Request} {buffer : Bytes} {next : Call}
    (h : s.controller.socket.connected = true ∧ s.controller.socket.outgoing = []) :
    s.write i rq buffer next = { s with
      controller := { s.controller with
        socket := { s.controller.socket with sent := s.controller.socket.sent ++ buffer } }
      up := s.up ++ buffer
      calls := Function.update s.calls i next } := by
  simp [write, asyncWriteAllCommon, h.1, h.2, set]

theorem Taken.append {calls : ℕ → Call} {waiting : List (ℕ × Request)} {taken : Bytes}
    (h : Taken calls waiting taken) (e : ℕ × Request) : Taken calls (waiting ++ [e]) taken := by
  cases h with
  | nothing _ h => exact .nothing _ h
  | lengthPrefix i rq lenBuf rest h short only =>
    exact .lengthPrefix i rq lenBuf (rest ++ [e]) h short only

theorem Inv.none_owes {s : TicketLink σ} (hs : Inv S s)
    (h : ∀ j < s.started, (s.calls j).owesBody = false) (j : ℕ) (rq : Request) :
    s.calls j ≠ .prefixWritten rq := by
  intro hj
  rcases Nat.lt_or_ge j s.started with hlt | hge
  · have := h j hlt
    rw [hj] at this
    cases this
  · rw [hs.log.unstarted j hge] at hj
    cases hj

theorem writePrefix_inv {s t : TicketLink σ} {i : ℕ} (hs : Inv S s)
    (hfree : ∀ j < s.started, (s.calls j).owesBody = false) (h : s.writePrefix i = some t) :
    Inv S t := by
  obtain ⟨rq, hcall, rfl⟩ := writePrefix_taken h
  rw [write_open hs.controllerOpen]
  have hnone := hs.none_owes hfree
  have hother : ∀ e ∈ s.wrote,
      Function.update s.calls i (.prefixWritten rq) e.1 = s.calls e.1 :=
    fun e he => Function.update_of_ne (hs.log.ne_of_created hcall e he) ..
  refine ⟨hs.controllerOpen, hs.workerOpen, hs.log.writePrefix hcall hnone, hs.sendable, ?_,
    ⟨?_⟩, ⟨?_⟩, hs.results_update (by simp)⟩
  · rw [List.map_append]
    exact hs.paired.trans (List.prefix_append ..)
  · obtain ⟨owed, howed, hsent, hup⟩ := hs.requests.stream
    obtain rfl : owed = [] := by
      cases howed with
      | nothing h => rfl
      | body j rq' h only => exact absurd h (hnone j rq')
    refine ⟨rq.frame, .body i rq (Function.update_self ..) ?_, ?_, ?_⟩
    · intro j rq' hj
      rcases update_eq_cases hj with ⟨hji, -⟩ | ⟨-, hj⟩
      · exact hji
      · exact absurd hj (hnone j rq')
    · simp only [List.map_append, List.flatMap_append, List.map_cons, List.map_nil,
        List.flatMap_cons, List.flatMap_nil, List.append_nil] at hsent ⊢
      rw [hsent, encodeFrame, List.append_assoc]
    · intro hf
      obtain ⟨handled, pending, hsplit, hids, hstream⟩ := hup hf
      refine ⟨handled, pending ++ [(i, rq)], by rw [hsplit, List.append_assoc], hids, ?_⟩
      simp only [List.map_append, List.flatMap_append, List.map_cons, List.map_nil,
        List.flatMap_cons, List.flatMap_nil, List.append_nil] at hstream ⊢
      rw [← hstream, encodeFrame]
      simp only [List.append_assoc]
  · intro hf
    obtain ⟨done, waiting, taken, hsplit, hdone, hwait, htaken, hrest⟩ := hs.replies.stream hf
    refine ⟨done, waiting ++ [(i, rq)], taken, by rw [hsplit, List.append_assoc], ?_, ?_,
      (htaken.update (by simp [hcall]) (by simp)).append _, hrest⟩
    · intro e he
      simpa only [hother e (hsplit ▸ List.mem_append_left _ he)] using hdone e he
    · intro e he
      rcases List.mem_append.mp he with he | he
      · simpa only [hother e (hsplit ▸ List.mem_append_right _ he)] using hwait e he
      · obtain rfl := List.mem_singleton.mp he
        simp [Function.update_self, Call.isFinished]

theorem writeBody_inv {s t : TicketLink σ} {i : ℕ} (hs : Inv S s) (h : s.writeBody i = some t) :
    Inv S t := by
  obtain ⟨rq, hcall, rfl⟩ := writeBody_taken h
  rw [write_open hs.controllerOpen]
  have hfin : (s.calls i).isFinished = false := by rw [hcall]; rfl
  refine ⟨hs.controllerOpen, hs.workerOpen,
    hs.log.move (.prefixWritten hcall) hfin (.bodyWritten rfl) (by simp), hs.sendable,
    hs.paired, ⟨?_⟩, ⟨?_⟩, hs.results_update (by simp)⟩
  · obtain ⟨owed, howed, hsent, hup⟩ := hs.requests.stream
    -- the call that owes a body is this one
    cases howed with
    | nothing h => exact absurd hcall (h i rq)
    | body j rq' h only =>
      obtain rfl := only i rq hcall
      obtain rfl : rq = rq' := by
        rw [hcall] at h
        cases h
        rfl
      refine ⟨[], .nothing ?_, ?_, ?_⟩
      · intro j rq' hj
        rcases update_eq_cases hj with ⟨-, hc⟩ | ⟨hji, hj⟩
        · cases hc
        · exact hji (only j rq' hj)
      · rw [List.append_nil]
        exact hsent
      · intro hf
        obtain ⟨handled, pending, hsplit, hids, hstream⟩ := hup hf
        refine ⟨handled, pending, hsplit, hids, ?_⟩
        rw [List.append_nil, ← List.append_assoc]
        exact hstream
  · intro hf
    obtain ⟨done, waiting, taken, hsplit, hdone, hwait, htaken, hrest⟩ := hs.replies.stream hf
    refine ⟨done, waiting, taken, hsplit, ?_, ?_,
      htaken.update (by simp [hcall]) (by simp), hrest⟩
    · intro e he
      simpa only [isFinished_update hfin (c := .bodyWritten rq) rfl] using hdone e he
    · intro e he
      simpa only [isFinished_update hfin (c := .bodyWritten rq) rfl] using hwait e he

/-! ### Reading replies -/

theorem arrive_some {s : TicketLink σ} {incoming : List ReadEvent} {socket : Socket}
    (h : s.arrive incoming = some socket) :
    socket = { s.controller.socket with incoming := incoming } ∧
      s.down = Chunked.arriving incoming ++ s.down.drop (Chunked.arriving incoming).length := by
  unfold arrive at h
  split at h
  · rename_i hin
    cases h
    obtain ⟨rest, hrest⟩ := hin
    exact ⟨rfl, by rw [← hrest, List.drop_left]⟩
  · cases h

/- Bytes a read took are gone from the front of the controller's stream. -/
theorem settle_stream {s : TicketLink σ} {incoming : List ReadEvent} {socket mid : Socket}
    {bytes : Bytes} (h : s.arrive incoming = some socket) (htook : Took socket bytes mid) :
    s.controller.socket.readBuffer ++ s.down
      = bytes ++ (mid.readBuffer ++ (s.settle incoming mid).down) := by
  obtain ⟨rfl, hdown⟩ := arrive_some h
  have hstream := htook.stream
  simp only [unread] at hstream
  rw [hdown, settle, ← List.append_assoc, hstream]
  simp only [List.append_assoc]

/- The requests do not change when a call that owes nothing moves on in a read. -/
theorem Inv.requests_read {s : TicketLink σ} (hs : Inv S s) {i : ℕ} {c : Call} {failed : Bool}
    {incoming : List ReadEvent} {mid : Socket} (hold : ∀ rq, s.calls i ≠ .prefixWritten rq)
    (hnew : ∀ rq, c ≠ .prefixWritten rq)
    (honly : ReadOnly { s.controller.socket with incoming := incoming } mid) :
    RequestStream { (s.settle incoming mid).set i c with controllerFailed := failed } := by
  obtain ⟨owed, howed, hsent, hup⟩ := hs.requests.stream
  refine ⟨owed, howed.update hold hnew, ?_, hup⟩
  show mid.sent ++ owed = _
  rw [honly.sent]
  exact hsent

/- A failed read ends its call; nothing is said about the replies any more. -/
theorem Inv.readFailed {s : TicketLink σ} (hs : Inv S s) {i : ℕ} {rq : Request} {ec : ErrorCode}
    {incoming : List ReadEvent} {mid : Socket} (hold : OnWire (s.calls i) rq)
    (hfin : (s.calls i).isFinished = false) (howes : ∀ rq', s.calls i ≠ .prefixWritten rq')
    (honly : ReadOnly { s.controller.socket with incoming := incoming } mid) :
    Inv S { (s.settle incoming mid).set i (.finished rq (.error ec)) with
      controllerFailed := true } :=
  ⟨⟨honly.connected.trans hs.controllerOpen.1, honly.outgoing.trans hs.controllerOpen.2⟩,
    hs.workerOpen, hs.log.move hold hfin (.finished _ rfl) (by simp), hs.sendable, hs.paired,
    hs.requests_read howes (by simp) honly, ⟨fun hf => by cases hf⟩, hs.results_update (by simp)⟩

theorem firstWaiting_eq {s : TicketLink σ} {done waiting : List (ℕ × Request)}
    (hsplit : s.wrote = done ++ waiting) (hdone : ∀ e ∈ done, (s.calls e.1).isFinished = true)
    (hwait : ∀ e ∈ waiting, (s.calls e.1).isFinished = false) :
    s.firstWaiting = waiting.head? := by
  have hnone : done.find? (fun e => !(s.calls e.1).isFinished) = none := by
    simpa using hdone
  rw [firstWaiting, hsplit, List.find?_append, hnone, Option.none_or]
  cases waiting with
  | nil => rfl
  | cons e rest => simp [hwait e (List.mem_cons_self ..)]

theorem readPrefix_inv {s t : TicketLink σ} {i : ℕ} {incoming : List ReadEvent} (hs : Inv S s)
    (hok : s.controllerFailed = false) (hturn : s.firstWaiting.map (·.1) = some i)
    (h : s.readPrefix i incoming = some t) : Inv S t := by
  obtain ⟨rq, socket, mid, hcall, harrive, hread⟩ := readPrefix_taken h
  have hopen : socket.connected = true := by
    rw [(arrive_some harrive).1]
    exact hs.controllerOpen.1
  have hfin : (s.calls i).isFinished = false := by rw [hcall]; rfl
  rcases hread with ⟨ec, hread, rfl⟩ | ⟨lenBuf, hread, rfl⟩
  · exact hs.readFailed (.bodyWritten hcall) hfin (by simp [hcall])
      ((arrive_some harrive).1 ▸ readLengthPrefix_readOnly hread)
  · obtain ⟨buf, hbuf, rfl, htook⟩ := readLengthPrefix_ok hopen hread
    have hstream := settle_stream harrive htook
    have honly := htook.state
    rw [(arrive_some harrive).1] at honly
    refine ⟨⟨honly.connected.trans hs.controllerOpen.1,
      honly.outgoing.trans hs.controllerOpen.2⟩, hs.workerOpen,
      hs.log.move (.bodyWritten hcall) hfin (.prefixRead _ rfl) (by simp), hs.sendable, hs.paired,
      hs.requests_read (by simp [hcall]) (by simp) honly, ⟨?_⟩, hs.results_update (by simp)⟩
    intro _
    obtain ⟨done, waiting, taken, hsplit, hdone, hwait, htaken, hlen, hreplies⟩ :=
      hs.replies.stream hok
    -- the oldest unanswered call is this one
    rw [firstWaiting_eq hsplit hdone hwait] at hturn
    obtain ⟨⟨i', rq'⟩, hhead, hi⟩ := Option.map_eq_some_iff.mp hturn
    obtain rfl : i' = i := hi
    obtain ⟨rest, rfl⟩ := List.head?_eq_some_iff.mp hhead
    obtain rfl : rq = rq' := by
      refine OnWire.unique (.bodyWritten hcall) (hs.log.onWire (i', rq') ?_)
      rw [hsplit]
      exact List.mem_append_right _ (List.mem_cons_self ..)
    obtain ⟨rfl, hnoread⟩ : taken = [] ∧ ∀ j rq' l, s.calls j ≠ .prefixRead rq' l := by
      cases htaken with
      | nothing _ h => exact ⟨rfl, h⟩
      | lengthPrefix _ _ lenBuf _ h short only => rw [hcall] at h; cases h
    have hpre : makeLengthPrefix (UInt32.ofNat
        (List.replicate (shiftIn buf).toNat (0 : Byte)).length) = buf := by
      rw [List.length_replicate, UInt32.ofNat_toNat, makeLengthPrefix_shiftIn hbuf]
    have htaken' : Taken (Function.update s.calls i'
        (.prefixRead rq (List.replicate (shiftIn buf).toNat 0))) ((i', rq) :: rest)
        (makeLengthPrefix (UInt32.ofNat
          (List.replicate (shiftIn buf).toNat (0 : Byte)).length)) := by
      refine .lengthPrefix i' rq _ rest (Function.update_self ..) ?_ ?_
      · rw [List.length_replicate]
        exact (shiftIn buf).toNat_lt
      · intro j rq' l hj
        by_contra hji
        rw [Function.update_of_ne hji] at hj
        exact hnoread j rq' l hj
    rw [hpre] at htaken'
    refine ⟨done, (i', rq) :: rest, buf, hsplit, ?_, ?_, htaken', hlen, ?_⟩
    · intro e he
      simpa only [set, settle, isFinished_update hfin
        (c := .prefixRead rq (List.replicate (shiftIn buf).toNat 0)) rfl] using hdone e he
    · intro e he
      simpa only [set, settle, isFinished_update hfin
        (c := .prefixRead rq (List.replicate (shiftIn buf).toNat 0)) rfl] using hwait e he
    · rw [List.append_assoc]
      exact hstream.symm.trans hreplies

theorem responseResult_ok {response : TicketInfo} {r : Bytes}
    (h : TicketController.responseResult response = .ok r) :
    response.status ≠ .FAILED ∧ response.result = some r := by
  unfold TicketController.responseResult at h
  split at h
  · cases h
  · rename_i hstatus
    split at h
    · cases h
    · rename_i result hresult
      cases h
      exact ⟨hstatus, hresult⟩

/- The reply at the position of a request carries its ticket id. -/
theorem paired_at {responses : List TicketInfo} {wrote done rest : List (ℕ × Request)}
    {e : ℕ × Request} {response : TicketInfo} {later : List TicketInfo}
    (h : responses.map (·.ticket_id) <+: wrote.map (·.2.ticket.ticket_id))
    (hwrote : wrote = done ++ e :: rest) (hlen : done.length ≤ responses.length)
    (hdrop : responses.drop done.length = response :: later) :
    response.ticket_id = e.2.ticket.ticket_id := by
  obtain ⟨z, hz⟩ := h
  have hresp : responses = responses.take done.length ++ response :: later := by
    rw [← hdrop, List.take_append_drop]
  rw [hresp, hwrote] at hz
  simp only [List.map_append, List.map_cons, List.append_assoc, List.cons_append] at hz
  have htail := (List.append_inj hz (by simp [hlen])).2
  exact (List.cons.inj htail).1

theorem frameOf_eq {ticket : TicketInfo} (h : Sendable S ticket) :
    S.serialize ticket = some (frameOf S ticket) ∧ Fits (frameOf S ticket) := by
  obtain ⟨bytes, hser, hfits⟩ := h
  simp only [frameOf, hser, Option.getD_some]
  exact ⟨trivial, hfits⟩

/- A whole frame at the front of the stream of replies is the next response. -/
theorem next_response {responses : List TicketInfo} (hsend : ∀ r ∈ responses, Sendable S r)
    {frame x : Bytes} (hfits : Fits frame)
    (h : encodeFrame frame ++ x = (responses.map (frameOf S)).flatMap encodeFrame) :
    ∃ response later, responses = response :: later ∧ S.serialize response = some frame ∧
      x = (later.map (frameOf S)).flatMap encodeFrame := by
  have hall : ∀ f ∈ responses.map (frameOf S), Fits f := by
    intro f hf
    obtain ⟨r, hr, rfl⟩ := List.mem_map.mp hf
    exact (frameOf_eq (hsend r hr)).2
  obtain ⟨frames, hframes, hx⟩ := encodeFrame_front hfits hall h
  obtain ⟨response, later, rfl, rfl, rfl⟩ := List.map_eq_cons_iff.mp hframes
  exact ⟨response, later, rfl, (frameOf_eq (hsend response (List.mem_cons_self ..))).1, hx⟩

/- The call that has taken a prefix off the stream of replies is the first that waits. -/
theorem Inv.prefixRead_first {s : TicketLink σ} (hs : Inv S s) (hok : s.controllerFailed = false)
    {i : ℕ} {rq : Request} {lenBuf : Bytes} (hcall : s.calls i = .prefixRead rq lenBuf) :
    ∃ done rest, s.wrote = done ++ (i, rq) :: rest ∧
      (∀ e ∈ done, (s.calls e.1).isFinished = true) ∧
      (∀ e ∈ rest, (s.calls e.1).isFinished = false) ∧ lenBuf.length < 2 ^ 32 ∧
      (∀ j rq' l, s.calls j = .prefixRead rq' l → j = i) ∧
      done.length ≤ s.worker.responses.length ∧
      makeLengthPrefix (UInt32.ofNat lenBuf.length)
          ++ (s.controller.socket.readBuffer ++ s.down)
        = ((s.worker.responses.drop done.length).map (frameOf S)).flatMap encodeFrame := by
  obtain ⟨done, waiting, taken, hsplit, hdone, hwait, htaken, hlen, hreplies⟩ :=
    hs.replies.stream hok
  cases htaken with
  | nothing _ hno => exact absurd hcall (hno i rq lenBuf)
  | lengthPrefix j rq' lenBuf' rest hj short only =>
    obtain rfl := only i rq lenBuf hcall
    rw [hcall] at hj
    cases hj
    rw [List.append_assoc] at hreplies
    exact ⟨done, rest, hsplit, hdone, fun e he => hwait e (List.mem_cons_of_mem _ he), short,
      only, hlen, hreplies⟩

theorem CallLog.ne_of_split {calls : ℕ → Call} {started : ℕ} {wrote done rest : List (ℕ × Request)}
    (h : CallLog S calls started wrote) {i : ℕ} {rq : Request}
    (hsplit : wrote = done ++ (i, rq) :: rest) : ∀ e ∈ done ++ rest, e.1 ≠ i := by
  have hnodup := h.distinct
  rw [hsplit, List.map_append, List.map_cons, List.nodup_middle] at hnodup
  intro e he hei
  refine (List.nodup_cons.mp hnodup).1 ?_
  rw [← List.map_append]
  exact List.mem_map.mpr ⟨e, he, hei⟩

/- The first waiting call takes the first response that is left. -/
theorem Inv.replies_finish {s : TicketLink σ} (hs : Inv S s) {i : ℕ} {rq : Request}
    {r : Except ErrorCode Bytes} {incoming : List ReadEvent} {mid : Socket}
    {done rest : List (ℕ × Request)} {response : TicketInfo} {later : List TicketInfo}
    (hsplit : s.wrote = done ++ (i, rq) :: rest)
    (hdone : ∀ e ∈ done, (s.calls e.1).isFinished = true)
    (hrest : ∀ e ∈ rest, (s.calls e.1).isFinished = false)
    (only : ∀ j rq' l, s.calls j = .prefixRead rq' l → j = i)
    (hdrop : s.worker.responses.drop done.length = response :: later)
    (hlater : mid.readBuffer ++ (s.settle incoming mid).down
      = (later.map (frameOf S)).flatMap encodeFrame) :
    ReplyStream S ((s.settle incoming mid).set i (.finished rq r)) := by
  have hne := hs.log.ne_of_split hsplit
  have hlength : (done ++ [(i, rq)]).length = done.length + 1 := by simp
  refine ⟨fun _ => ⟨done ++ [(i, rq)], rest, [], by rw [List.append_assoc]; exact hsplit, ?_, ?_,
    .nothing _ ?_, ?_, ?_⟩⟩
  · intro e he
    rcases List.mem_append.mp he with he | he
    · simpa only [set, settle,
        Function.update_of_ne (hne e (List.mem_append_left _ he))] using hdone e he
    · obtain rfl := List.mem_singleton.mp he
      simp [set, Function.update_self, Call.isFinished]
  · intro e he
    simpa only [set, settle, Function.update_of_ne (hne e (List.mem_append_right _ he))]
      using hrest e he
  · intro k rq' l hk
    by_cases hki : k = i
    · subst hki
      simp [set, Function.update_self] at hk
    · simp only [set, settle, Function.update_of_ne hki] at hk
      exact hki (only k rq' l hk)
  · have hpos : 0 < (s.worker.responses.drop done.length).length := by
      rw [hdrop]
      simp
    rw [List.length_drop] at hpos
    rw [hlength]
    show done.length + 1 ≤ s.worker.responses.length
    omega
  · have hnext : s.worker.responses.drop (done ++ [(i, rq)]).length = later := by
      rw [hlength, ← List.drop_drop, hdrop]
      rfl
    show [] ++ mid.readBuffer ++ (s.settle incoming mid).down
      = ((s.worker.responses.drop (done ++ [(i, rq)]).length).map (frameOf S)).flatMap _
    rw [hnext, ← hlater]
    rfl

theorem readBody_inv {s t : TicketLink σ} {i : ℕ} {incoming : List ReadEvent}
    (hS : TicketPeer.RoundTrips S) (hs : Inv S s) (hok : s.controllerFailed = false)
    (h : s.readBody S i incoming = some t) : Inv S t := by
  obtain ⟨rq, lenBuf, socket, mid, hcall, harrive, hread⟩ := readBody_taken h
  have hopen : socket.connected = true := by
    rw [(arrive_some harrive).1]
    exact hs.controllerOpen.1
  have hfin : (s.calls i).isFinished = false := by rw [hcall]; rfl
  rcases hread with ⟨ec, hread, rfl⟩ | ⟨frame, hread, rfl⟩
  · exact hs.readFailed (.prefixRead _ hcall) hfin (by simp [hcall])
      ((arrive_some harrive).1 ▸ readBody_readOnly hread)
  · obtain ⟨hframe, htook⟩ := readBody_ok hopen hread
    have hstream := settle_stream harrive htook
    have honly := htook.state
    rw [(arrive_some harrive).1] at honly
    obtain ⟨done, rest, hsplit, hdone, hrest, short, only, hlen, hreplies⟩ :=
      hs.prefixRead_first hok hcall
    have hfits : Fits frame := by rw [Fits, hframe]; exact short
    have hnext : encodeFrame frame ++ (mid.readBuffer ++ (s.settle incoming mid).down)
        = ((s.worker.responses.drop done.length).map (frameOf S)).flatMap encodeFrame := by
      rw [← hreplies, hstream, encodeFrame, framePrefix, hframe, List.append_assoc]
    obtain ⟨response, later, hdrop, hser, hlater⟩ := next_response
      (fun r hr => hs.sendable r (List.mem_of_mem_drop hr)) hfits hnext
    rw [(hS response frame hser).2]
    refine ⟨⟨honly.connected.trans hs.controllerOpen.1,
      honly.outgoing.trans hs.controllerOpen.2⟩, hs.workerOpen,
      hs.log.move (.prefixRead _ hcall) hfin (.finished _ rfl) (by simp), hs.sendable,
      hs.paired, hs.requests_read (by simp [hcall]) (by simp) honly,
      hs.replies_finish hsplit hdone hrest only hdrop hlater, ?_⟩
    intro k rq' r hk
    by_cases hki : k = i
    · subst hki
      simp only [set, Function.update_self, Call.finished.injEq] at hk
      obtain ⟨rfl, hr⟩ := hk
      obtain ⟨hstatus, hresult⟩ := responseResult_ok hr
      exact ⟨response, List.mem_of_mem_drop (hdrop ▸ List.mem_cons_self ..),
        paired_at hs.paired hsplit hlen hdrop, hstatus, hresult⟩
    · simp only [set, settle, Function.update_of_ne hki] at hk
      exact hs.results k rq' r hk

/-! ### The worker's turn -/

/- `handleNext` on an open socket: it fails or throws without writing, or it answers
the ticket it has read with one whole frame. -/
theorem handleNext_cases {w w' : TicketWorker σ} {outcome : Outcome Unit}
    (hS : TicketPeer.RoundTrips S)
    (hopen : w.socket.connected = true ∧ w.socket.outgoing = [])
    (h : TicketWorker.handleNext S message w = some (outcome, w')) :
    (ReadOnly w.socket w'.socket ∧ w'.responses = w.responses ∧ outcome.isOk = false) ∨
    (∃ frame ticket mid bytes, readFrame w.socket = some (.ok frame, mid) ∧
      S.deserialize frame = .ok ticket ∧
      S.serialize (TicketWorker.answer message w ticket).1 = some bytes ∧
      outcome = .returned (.ok ()) ∧
      w'.socket = { mid with sent := mid.sent ++ encodeFrame bytes } ∧
      w'.responses = w.responses ++ [(TicketWorker.answer message w ticket).1]) := by
  unfold TicketWorker.handleNext TicketPeer.receiveFrame at h
  cases hread : readFrame w.socket with
  | none => simp [hread] at h
  | some p =>
    obtain ⟨r, mid⟩ := p
    have honly := readFrame_readOnly hread
    cases r with
    | error ec =>
      simp only [hread, Option.some.injEq, Prod.mk.injEq] at h
      obtain ⟨rfl, rfl⟩ := h
      exact .inl ⟨honly, rfl, rfl⟩
    | ok frame =>
      cases hdes : S.deserialize frame with
      | error ec =>
        simp only [hread, hdes, Option.some.injEq, Prod.mk.injEq] at h
        obtain ⟨rfl, rfl⟩ := h
        exact .inl ⟨honly, rfl, rfl⟩
      | ok ticket =>
        obtain ⟨-, hsock, hresp⟩ :=
          TicketWorker.answer_frame message { w with socket := mid } ticket
        simp only [hread, hdes, TicketWorker.processTicket_eq, TicketWorker.sendResponse,
          TicketPeer.sendFrame, TicketWorker.answer_socket, hsock, hresp] at h
        cases hser : S.serialize (TicketWorker.answer message w ticket).1 with
        | none =>
          simp only [hser, Option.some.injEq, Prod.mk.injEq] at h
          obtain ⟨rfl, rfl⟩ := h
          exact .inl ⟨honly, rfl, rfl⟩
        | some bytes =>
          have hne := (hS _ _ hser).1
          have hconn : mid.connected = true := honly.connected.trans hopen.1
          have hout : mid.outgoing = [] := honly.outgoing.trans hopen.2
          simp only [hser, if_neg hne, writeFrame, asyncWriteAllCommon, hconn, hout, if_false,
            Bool.true_eq_false, Option.some.injEq, Prod.mk.injEq] at h
          obtain ⟨rfl, rfl⟩ := h
          refine .inr ⟨frame, ticket, mid, bytes, rfl, hdes, hser, rfl, ?_, rfl⟩
          simp [encodeFrame, hconn, hout]

/- What the worker reads is the oldest request it has not answered. -/
theorem Inv.next_request {s : TicketLink σ} (hs : Inv S s) (hok : s.workerFailed = false)
    {frame left : Bytes} {incoming : List ReadEvent} {mid : Socket}
    (hleft : Chunked.arriving incoming ++ left = s.up)
    (hread : readFrame { s.worker.socket with incoming := incoming } = some (.ok frame, mid)) :
    ∃ owed handled e rest, Owed s.calls owed ∧
      s.controller.socket.sent ++ owed = (s.wrote.map fun e => e.2.frame).flatMap encodeFrame ∧
      s.wrote = handled ++ e :: rest ∧
      s.worker.responses.map (·.ticket_id) = handled.map (·.2.ticket.ticket_id) ∧
      e.2.frame = frame ∧
      unread mid ++ left ++ owed = (rest.map fun e => e.2.frame).flatMap encodeFrame := by
  obtain ⟨hframe, htook⟩ := readFrame_ok (by exact hs.workerOpen.1) hread
  obtain ⟨owed, howed, hsent, hup⟩ := hs.requests.stream
  obtain ⟨handled, pending, hsplit, hids, hstream⟩ := hup hok
  have hfront : encodeFrame frame ++ (unread mid ++ left ++ owed)
      = (pending.map fun e => e.2.frame).flatMap encodeFrame := by
    have htaken := htook.stream
    rw [← hstream, ← hleft]
    simp only [unread] at htaken ⊢
    simp only [← List.append_assoc] at htaken ⊢
    rw [← htaken]
  have hall : ∀ f ∈ pending.map fun e => e.2.frame, Fits f := by
    intro f hf
    obtain ⟨e, he, rfl⟩ := List.mem_map.mp hf
    exact (hs.log.serialized e.1 e.2 (.inr (hsplit ▸ List.mem_append_right _ he))).2
  obtain ⟨later, hlater, hrest⟩ := encodeFrame_front hframe hall hfront
  obtain ⟨e, rest, rfl, rfl, rfl⟩ := List.map_eq_cons_iff.mp hlater
  exact ⟨owed, handled, e, rest, howed, hsent, hsplit, hids, rfl, hrest⟩

/- A worker that has answered nothing has written nothing, and it has failed. -/
theorem Inv.workFailed {s : TicketLink σ} (hs : Inv S s) {worker : TicketWorker σ}
    {incoming : List ReadEvent} {up : Bytes} {failed : Bool} (hfailed : failed = true)
    (honly : ReadOnly { s.worker.socket with incoming := incoming } worker.socket)
    (hresp : worker.responses = s.worker.responses) :
    Inv S { s with
      worker := worker
      up := up
      down := s.down ++ worker.socket.sent.drop s.worker.socket.sent.length
      workerFailed := failed } := by
  have hsame : worker.socket.sent.drop s.worker.socket.sent.length = [] := by
    rw [honly.sent]
    exact List.drop_length
  refine ⟨hs.controllerOpen, ⟨honly.connected.trans hs.workerOpen.1,
    honly.outgoing.trans hs.workerOpen.2⟩, hs.log, by simpa only [hresp] using hs.sendable,
    by simpa only [hresp] using hs.paired, ⟨?_⟩, ⟨?_⟩, ?_⟩
  · obtain ⟨owed, howed, hsent, -⟩ := hs.requests.stream
    refine ⟨owed, howed, hsent, fun hf => ?_⟩
    rw [hfailed] at hf
    cases hf
  · simpa only [hresp, hsame, List.append_nil] using hs.replies.stream
  · intro i rq r hi
    simpa only [Answered, hresp] using hs.results i rq r hi

/- One more response, on the stream of replies as a whole frame. -/
theorem ReplyStream.respond {s : TicketLink σ} (h : ReplyStream S s) {worker : TicketWorker σ}
    {response : TicketInfo} {bytes up : Bytes} {failed : Bool}
    (hser : S.serialize response = some bytes)
    (hresp : worker.responses = s.worker.responses ++ [response]) :
    ReplyStream S { s with
      worker := worker, up := up, down := s.down ++ encodeFrame bytes,
      workerFailed := failed } := by
  refine ⟨fun hf => ?_⟩
  obtain ⟨done, waiting, taken, hsplit, hdone, hwait, htaken, hlen, hreplies⟩ := h.stream hf
  refine ⟨done, waiting, taken, hsplit, hdone, hwait, htaken, ?_, ?_⟩
  · simp only [hresp, List.length_append]
    omega
  · have hframe : frameOf S response = bytes := by
      rw [frameOf, hser, Option.getD_some]
    simp only [hresp, List.drop_append_of_le_length hlen, List.map_append, List.map_cons,
      List.map_nil, List.flatMap_append, List.flatMap_cons, List.flatMap_nil, List.append_nil,
      hframe, ← hreplies, List.append_assoc]

theorem work_inv {s t : TicketLink σ} {incoming : List ReadEvent}
    (hS : TicketPeer.RoundTrips S) (hs : Inv S s) (hok : s.workerFailed = false)
    (hfits : s.responseFits S message incoming = true) (h : s.work S message incoming = some t) :
    Inv S t := by
  obtain ⟨left, outcome, worker, hleft, hturn, rfl⟩ := work_taken h
  rcases handleNext_cases hS (by exact hs.workerOpen) hturn with
    ⟨honly, hresp, hout⟩ | ⟨frame, ticket, mid, bytes, hread, hdes, hser, rfl, hsock, hresp⟩
  · exact hs.workFailed (by simp [hout]) honly hresp
  · obtain ⟨owed, handled, e, rest, howed, hsent, hsplit, hids, rfl, hrest⟩ :=
      hs.next_request hok hleft hread
    have honly := (readFrame_ok (by exact hs.workerOpen.1) hread).2.state
    have hewrote : (e.1, e.2) ∈ s.wrote :=
      hsplit ▸ List.mem_append_right _ (List.mem_cons_self ..)
    have heser := (hs.log.serialized e.1 e.2 (.inr hewrote)).1
    obtain rfl : e.2.ticket.wire = ticket := by
      rw [(hS _ _ heser).2] at hdes
      exact Except.ok.inj hdes
    have hid := (TicketWorker.answer_frame message
      { s.worker with socket := { s.worker.socket with incoming := incoming } }
      e.2.ticket.wire).1
    have hbytes : Fits bytes := by
      rw [TicketWorker.answer_socket] at hser
      simpa only [responseFits, TicketPeer.receiveFrame, hread, hdes, hser,
        decide_eq_true_eq] using hfits
    have hput : worker.socket.sent.drop s.worker.socket.sent.length = encodeFrame bytes := by
      rw [hsock]
      show (mid.sent ++ encodeFrame bytes).drop s.worker.socket.sent.length = _
      rw [honly.sent]
      exact List.drop_left
    generalize TicketWorker.answer message
      { s.worker with socket := { s.worker.socket with incoming := incoming } }
      e.2.ticket.wire = answer at hser hid hresp
    change worker.responses = s.worker.responses ++ [answer.1] at hresp
    refine ⟨hs.controllerOpen, ?_, hs.log, ?_, ?_,
      ⟨⟨owed, howed, hsent, fun _ => ⟨handled ++ [e], rest, ?_, ?_, ?_⟩⟩⟩,
      hput ▸ hs.replies.respond hser hresp, ?_⟩
    · simp only [hsock]
      exact ⟨honly.connected.trans hs.workerOpen.1, honly.outgoing.trans hs.workerOpen.2⟩
    · intro r hr
      rw [hresp] at hr
      rcases List.mem_append.mp hr with hr | hr
      · exact hs.sendable r hr
      · exact List.mem_singleton.mp hr ▸ ⟨bytes, hser, hbytes⟩
    · refine ⟨rest.map (·.2.ticket.ticket_id), ?_⟩
      simp only [hresp, List.map_append, List.map_cons, List.map_nil, hids, hid, hsplit,
        List.append_assoc, List.cons_append, List.nil_append, TicketInfo.wire]
    · simp only [hsplit, List.append_assoc, List.cons_append, List.nil_append]
    · simp only [hresp, List.map_append, List.map_cons, List.map_nil, hids, hid,
        TicketInfo.wire]
    · simp only [hsock, ← hrest, unread, List.append_assoc]
    · intro i rq r hi
      obtain ⟨response, hmem, hgood⟩ := hs.results i rq r hi
      refine ⟨response, ?_, hgood⟩
      simp only [hresp]
      exact List.mem_append_left _ hmem

/-! ### Whole runs -/

theorem step_inv {s t : TicketLink σ} {l : LinkStep} (hS : TicketPeer.RoundTrips S)
    (hs : Inv S s) (hg : s.Ordered S message l) (h : s.step S message l = some t) : Inv S t := by
  cases l with
  | start args draws =>
    cases h
    exact start_inv hs hg
  | writePrefix i => exact writePrefix_inv hs hg h
  | writeBody i => exact writeBody_inv hs h
  | readPrefix i incoming => exact readPrefix_inv hs hg.1 hg.2 h
  | readBody i incoming => exact readBody_inv hS hs hg h
  | work incoming => exact work_inv hS hs hg.1 hg.2 h

end TicketLink

end NetworkStack
