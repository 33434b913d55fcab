import NetworkStack.Ticket.Exchange
import NetworkStack.Ticket.Pairing

/-!
# Concurrent and blocking sends

What the pairing of requests and replies by position gives the callers of
`sendAsync` and of `send`, and the runs in which it fails them.
-/

namespace NetworkStack

open SocketDetail TicketFrame

variable {σ : Type}

namespace TicketLink

/- The bytes written are whole frames and at most the prefix of a call that still
has to write its body. -/
def WholeFrames (s : TicketLink σ) : Prop :=
  ∃ frames : List Bytes, s.controller.socket.sent = frames.flatMap encodeFrame ∨
    ∃ i rq, s.calls i = .prefixWritten rq ∧
      s.controller.socket.sent = frames.flatMap encodeFrame ++ framePrefix rq.frame

variable {S : TicketSerializer} {message : ErrorCode → Bytes}

theorem Inv.wholeFrames {s : TicketLink σ} (hs : Inv S s) : s.WholeFrames := by
  obtain ⟨owed, howed, hsent, -⟩ := hs.requests.stream
  cases howed with
  | nothing _ => exact ⟨_, .inl (by simpa only [List.append_nil] using hsent)⟩
  | body i rq hcall _ =>
    -- the call that owes a body wrote the last prefix of the log
    obtain ⟨log, hlog⟩ := List.getLast?_eq_some_iff.mp (hs.log.writing i rq hcall)
    refine ⟨log.map fun e => e.2.frame, .inr ⟨i, rq, hcall, ?_⟩⟩
    have hframes : s.controller.socket.sent ++ rq.frame
        = (log.map fun e => e.2.frame).flatMap encodeFrame ++ framePrefix rq.frame ++ rq.frame := by
      rw [hsent, hlog]
      simp [encodeFrame]
    exact List.append_cancel_right hframes

/-- However many `sendAsync` calls share a connection: while their pieces keep the
order, the wire carries whole frames and a call that returns a result returns that of
its own ticket. -/
theorem ordered_sends_answered {nl : Nlohmann} (hnl : nl.Lawful) (message : ErrorCode → Bytes)
    (id : ℕ) (handlers : List (Bytes × TicketHandler σ))
    (longHandlers : List (Bytes × TicketLongHandler σ)) (state : σ) (ls : List LinkStep)
    (t : TicketLink σ)
    (hg : Machine.Guarded (step (TicketJson.serializer nl) message)
      (Ordered (TicketJson.serializer nl) message) (connect id handlers longHandlers state) ls)
    (h : Machine.run (step (TicketJson.serializer nl) message)
      (connect id handlers longHandlers state) ls = some t) :
    t.WholeFrames ∧ ∀ i rq r, t.calls i = .finished rq (.ok r) → t.Answered rq r := by
  have hS : TicketPeer.RoundTrips (TicketJson.serializer nl) :=
    fun _ _ hser => TicketJson.deserialize_serialize hnl hser
  have ht := Machine.run_invariant (fun _ _ _ hs hg hstep => step_inv hS hs hg hstep)
    (connect_inv id handlers longHandlers state) hg h
  exact ⟨ht.wholeFrames, ht.results⟩

/-! ### Two echoes -/

section Echo

def echoSend (i : ℕ) : SendArgs := ⟨ascii "echo", ascii (toString i), [], 0⟩

def echoRequest (i : ℕ) : TicketInfo :=
  TicketController.requestTicket
    (TicketController.ticketIdText (ascii "7") (UInt64.ofNat i) zeroDraws) (echoSend i)

def echoReply (i : ℕ) : TicketInfo :=
  TicketWorker.completedResponse (echoRequest i) (ascii (toString i))

def echoTickets : List TicketInfo := (List.range 3).map echoRequest ++ (List.range 3).map echoReply

def echoSerializer : TicketSerializer := TicketJson.serializer (TicketJson.plain echoTickets)

def echoLink : TicketLink Unit :=
  connect 7 [(ascii "echo", fun ctx s => (.ok ctx.payload, s))] [] ()

def echoFrame (ticket : TicketInfo) : Bytes := TicketJson.render (TicketJson.to_json ticket)

def arrives (ticket : TicketInfo) : List ReadEvent := [.data (encodeFrame (echoFrame ticket))]

def echoRun (ls : List LinkStep) : Option (TicketLink Unit) :=
  Machine.run (step echoSerializer fun _ => []) echoLink ls

def startEcho (i : ℕ) : LinkStep := .start (echoSend i) zeroDraws

instance (s : TicketLink σ) (rq : Request) (r : Bytes) : Decidable (s.Answered rq r) :=
  inferInstanceAs (Decidable (∃ response ∈ _, _))

theorem echo_lawful : (TicketJson.plain echoTickets).Lawful :=
  TicketJson.plain_lawful (by decide +kernel)

def orderedEchoes : List LinkStep :=
  [startEcho 0, startEcho 1, .writePrefix 0, .writeBody 0, .writePrefix 1,
    .work (arrives (echoRequest 0)), .writeBody 1, .readPrefix 0 (arrives (echoReply 0)),
    .work (arrives (echoRequest 1)), .readBody 0 [.data (echoFrame (echoReply 0))],
    .readPrefix 1 (arrives (echoReply 1)), .readBody 1 [.data (echoFrame (echoReply 1))]]

theorem ordered_sends_answered_echo :
    ∃ t, echoRun orderedEchoes = some t ∧
      t.calls 0 = .finished ⟨echoRequest 0, echoFrame (echoRequest 0)⟩ (.ok (ascii "0")) ∧
      t.calls 1 = .finished ⟨echoRequest 1, echoFrame (echoRequest 1)⟩ (.ok (ascii "1")) ∧
      t.WholeFrames ∧ ∀ i rq r, t.calls i = .finished rq (.ok r) → t.Answered rq r := by
  have hcalls : (echoRun orderedEchoes).map (fun t => (t.calls 0, t.calls 1))
      = some (.finished ⟨echoRequest 0, echoFrame (echoRequest 0)⟩ (.ok (ascii "0")),
        .finished ⟨echoRequest 1, echoFrame (echoRequest 1)⟩ (.ok (ascii "1"))) := by
    decide +kernel
  obtain ⟨t, hrun, ht⟩ := Option.map_eq_some_iff.mp hcalls
  obtain ⟨h0, h1⟩ := Prod.mk.inj ht
  exact ⟨t, hrun, h0, h1, ordered_sends_answered echo_lawful (fun _ => []) 7
    [(ascii "echo", fun ctx s => (.ok ctx.payload, s))] [] () orderedEchoes t
    (by decide +kernel) hrun⟩

/- The front of a stream of whole frames: the first four bytes are the length of a
frame that the stream holds, and the rest is such a stream again. -/
theorem flatMap_encodeFrame_front {frames : List Bytes} {tail bytes : Bytes}
    (h : frames.flatMap encodeFrame ++ tail = bytes) (htail : tail.length ≤ length_prefix_size)
    (hlong : length_prefix_size < bytes.length) (hshort : bytes.length < 2 ^ 32) :
    length_prefix_size + (shiftIn (bytes.take length_prefix_size)).toNat ≤ bytes.length ∧
      ∃ frames' : List Bytes, frames'.flatMap encodeFrame ++ tail
        = bytes.drop (length_prefix_size + (shiftIn (bytes.take length_prefix_size)).toNat) := by
  cases frames with
  | nil =>
    have hsame : tail = bytes := h
    rw [hsame] at htail
    omega
  | cons frame frames =>
    have hbytes : framePrefix frame ++ (frame ++ (frames.flatMap encodeFrame ++ tail)) = bytes := by
      rw [← h, List.flatMap_cons, encodeFrame, List.append_assoc, List.append_assoc]
    have hlen : length_prefix_size + (frame.length + (frames.flatMap encodeFrame ++ tail).length)
        = bytes.length := by
      rw [← hbytes]
      simp only [List.length_append, length_framePrefix]
    have hfits : Fits frame := by
      unfold Fits
      omega
    have htake : bytes.take length_prefix_size = framePrefix frame := by
      rw [← hbytes, ← length_framePrefix frame, List.take_left]
    rw [htake, shiftIn_framePrefix hfits]
    refine ⟨by omega, frames, ?_⟩
    rw [← hbytes, ← List.append_assoc, List.drop_left' (by simp)]

/-- The two requests are written prefix, prefix, body, body. -/
def interleavedWrites : List LinkStep :=
  [startEcho 0, startEcho 1, .writePrefix 0, .writePrefix 1, .writeBody 0, .writeBody 1]

def swappedReads : List LinkStep :=
  [startEcho 0, startEcho 1, .writePrefix 0, .writeBody 0, .writePrefix 1, .writeBody 1,
    .work (arrives (echoRequest 0)), .work (arrives (echoRequest 1)),
    .readPrefix 1 (arrives (echoReply 0)), .readBody 1 [.data (echoFrame (echoReply 0))]]

theorem interleaved_sends_mixed :
    (∃ t, echoRun interleavedWrites = some t ∧ ¬t.WholeFrames) ∧
    ∃ t, echoRun swappedReads = some t ∧
      t.calls 1 = .finished ⟨echoRequest 1, echoFrame (echoRequest 1)⟩ (.ok (ascii "0")) ∧
      ¬t.Answered ⟨echoRequest 1, echoFrame (echoRequest 1)⟩ (ascii "0") := by
  have hwrites : (echoRun interleavedWrites).map (fun t => t.controller.socket.sent)
      = some (framePrefix (echoFrame (echoRequest 0)) ++ framePrefix (echoFrame (echoRequest 1))
        ++ echoFrame (echoRequest 0) ++ echoFrame (echoRequest 1)) := by
    decide +kernel
  have hreads : (echoRun swappedReads).map (fun t => (t.calls 1,
      decide (t.Answered ⟨echoRequest 1, echoFrame (echoRequest 1)⟩ (ascii "0"))))
      = some (.finished ⟨echoRequest 1, echoFrame (echoRequest 1)⟩ (.ok (ascii "0")), false) := by
    decide +kernel
  obtain ⟨t, hrun, ht⟩ := Option.map_eq_some_iff.mp hwrites
  obtain ⟨u, hrun', hu⟩ := Option.map_eq_some_iff.mp hreads
  obtain ⟨hcall, hans⟩ := Prod.mk.inj hu
  refine ⟨⟨t, hrun, ?_⟩, u, hrun', hcall, of_decide_eq_false hans⟩
  -- read as frames, the stream's second prefix lies inside the first body
  have hno : ∀ (frames : List Bytes) (tail : Bytes), tail.length ≤ length_prefix_size →
      frames.flatMap encodeFrame ++ tail ≠ t.controller.socket.sent := by
    intro frames tail htail h
    rw [ht] at h
    obtain ⟨-, frames', h'⟩ :=
      flatMap_encodeFrame_front h htail (by decide +kernel) (by decide +kernel)
    obtain ⟨hle, -⟩ := flatMap_encodeFrame_front h' htail (by decide +kernel) (by decide +kernel)
    exact absurd hle (by decide +kernel)
  rintro ⟨frames, h | ⟨i, rq, -, h⟩⟩
  · exact hno frames [] (Nat.zero_le _) (by rw [h, List.append_nil])
  · exact hno frames (framePrefix rq.frame) (Nat.le_of_eq (length_framePrefix _)) h.symm

end Echo

/-! ### Blocking sends -/

/-- A `send` begins when the one before it has returned. -/
def Blocking (s : TicketLink σ) : LinkStep → Prop
  | .start .. => ∀ j < s.started, (s.calls j).isOver = true
  | _ => True

instance (s : TicketLink σ) : (l : LinkStep) → Decidable (s.Blocking l)
  | .start .. => inferInstanceAs (Decidable (∀ j < s.started, (s.calls j).isOver = true))
  | .writePrefix .. | .writeBody .. | .readPrefix .. | .readBody .. | .work .. => .isTrue trivial

section Undisturbed

variable (S : TicketSerializer) (message : ErrorCode → Bytes)

/-- Neither side reads after a read of its own has failed, and every length fits its
prefix. -/
def Undisturbed (s : TicketLink σ) : LinkStep → Prop
  | .start args draws => s.requestFits S args draws = true
  | .writePrefix _ | .writeBody _ => True
  | .readPrefix .. | .readBody .. => s.controllerFailed = false
  | .work incoming => s.workerFailed = false ∧ s.responseFits S message incoming = true

instance (s : TicketLink σ) : (l : LinkStep) → Decidable (s.Undisturbed S message l)
  | .start .. => inferInstanceAs (Decidable (_ = true))
  | .writePrefix _ | .writeBody _ => .isTrue trivial
  | .readPrefix .. | .readBody .. => inferInstanceAs (Decidable (_ = false))
  | .work _ => inferInstanceAs (Decidable (_ ∧ _ = true))

end Undisturbed

def OneCall (s : TicketLink σ) : Prop :=
  ∀ i j, (s.calls i).isOver = false → (s.calls j).isOver = false → i = j

/-- What a step does to the calls: it starts one, moves one that is under way, or none. -/
theorem step_calls {s t : TicketLink σ} {l : LinkStep} (h : s.step S message l = some t) :
    (∃ args draws c, l = .start args draws ∧ t.calls = Function.update s.calls s.started c) ∨
    (∃ i c, (s.calls i).isOver = false ∧ t.calls = Function.update s.calls i c) ∨
    t.calls = s.calls := by
  cases l with
  | start args draws =>
    cases h
    exact .inl ⟨args, draws, _, rfl, rfl⟩
  | writePrefix i =>
    obtain ⟨rq, hcall, rfl⟩ := writePrefix_taken h
    obtain ⟨c, hc⟩ := write_calls (s := s) (i := i) rq (framePrefix rq.frame) (.prefixWritten rq)
    exact .inr (.inl ⟨i, c, by rw [hcall]; rfl, hc⟩)
  | writeBody i =>
    obtain ⟨rq, hcall, rfl⟩ := writeBody_taken h
    obtain ⟨c, hc⟩ := write_calls (s := s) (i := i) rq rq.frame (.bodyWritten rq)
    exact .inr (.inl ⟨i, c, by rw [hcall]; rfl, hc⟩)
  | readPrefix i incoming =>
    obtain ⟨rq, socket, mid, hcall, -, ⟨ec, -, rfl⟩ | ⟨lenBuf, -, rfl⟩⟩ := readPrefix_taken h
    · exact .inr (.inl ⟨i, _, by rw [hcall]; rfl, rfl⟩)
    · exact .inr (.inl ⟨i, _, by rw [hcall]; rfl, rfl⟩)
  | readBody i incoming =>
    obtain ⟨rq, lenBuf, socket, mid, hcall, -, ⟨ec, -, rfl⟩ | ⟨frame, -, rfl⟩⟩ :=
      readBody_taken h
    · exact .inr (.inl ⟨i, _, by rw [hcall]; rfl, rfl⟩)
    · exact .inr (.inl ⟨i, _, by rw [hcall]; rfl, rfl⟩)
  | work incoming =>
    obtain ⟨left, outcome, worker, -, -, rfl⟩ := work_taken h
    exact .inr (.inr rfl)

theorem step_oneCall {s t : TicketLink σ} {l : LinkStep} (hs : Inv S s) (hone : s.OneCall)
    (hblock : s.Blocking l) (h : s.step S message l = some t) : t.OneCall := by
  -- after a change of call `i`, only `i` can be under way if nobody else was
  have hupdate : ∀ i c, (∀ j, j ≠ i → (s.calls j).isOver = true) →
      t.calls = Function.update s.calls i c → t.OneCall := by
    intro i c hover hcalls
    have hi : ∀ j, (t.calls j).isOver = false → j = i := by
      intro j hj
      by_contra hne
      rw [hcalls, Function.update_of_ne hne, hover j hne] at hj
      cases hj
    intro j k hj hk
    rw [hi j hj, hi k hk]
  rcases step_calls h with ⟨args, draws, c, rfl, hcalls⟩ | ⟨i, c, hi, hcalls⟩ | hcalls
  · refine hupdate s.started c ?_ hcalls
    intro j _
    by_cases hj : j < s.started
    · exact hblock j hj
    · rw [hs.log.unstarted j (by omega)]
      rfl
  · refine hupdate i c ?_ hcalls
    intro j hne
    by_contra hj
    exact hne (hone j i (Bool.eq_false_iff.mpr hj) hi)
  · intro j k hj hk
    rw [hcalls] at hj hk
    exact hone j k hj hk

theorem OneCall.firstWaiting {s : TicketLink σ} (hs : Inv S s) (hone : s.OneCall) {i : ℕ}
    {rq : Request} (hcall : s.calls i = .bodyWritten rq) :
    s.firstWaiting.map (·.1) = some i := by
  have hmem : (i, rq) ∈ s.wrote := hs.log.logged i rq (.bodyWritten hcall) (by rw [hcall]; rfl)
  cases hfind : s.firstWaiting with
  | none =>
    have hfinished := List.find?_eq_none.mp hfind (i, rq) hmem
    simp [hcall, Call.isFinished] at hfinished
  | some e =>
    have hwaits : (s.calls e.1).isFinished = false := by simpa using List.find?_some hfind
    have hover : (s.calls e.1).isOver = false := by
      cases hs.log.onWire e (List.mem_of_find?_eq_some hfind) with
      | prefixWritten h => rw [h]; rfl
      | bodyWritten h => rw [h]; rfl
      | prefixRead lenBuf h => rw [h]; rfl
      | finished r h =>
        rw [h] at hwaits
        cases hwaits
    exact congrArg some (hone e.1 i hover (by rw [hcall]; rfl))

theorem ordered_of_blocking {s t : TicketLink σ} {l : LinkStep} (hs : Inv S s) (hone : s.OneCall)
    (hg : s.Undisturbed S message l) (h : s.step S message l = some t) :
    s.Ordered S message l := by
  cases l with
  | start args draws => exact hg
  | writePrefix i =>
    intro j _
    obtain ⟨rq, hcall, -⟩ := writePrefix_taken h
    cases hj : s.calls j with
    | prefixWritten rq' =>
      have hji : j = i := hone j i (by rw [hj]; rfl) (by rw [hcall]; rfl)
      rw [hji, hcall] at hj
      cases hj
    | _ => rfl
  | writeBody i => trivial
  | readPrefix i incoming =>
    obtain ⟨rq, socket, mid, hcall, -⟩ := readPrefix_taken h
    exact ⟨hg, hone.firstWaiting hs hcall⟩
  | readBody i incoming => exact hg
  | work incoming => exact hg

/-- Blocking sends on one connection, with the worker's replies and failed reads
anywhere between: while nobody reads after a failed read, a `send` that returns a
result returns what the worker produced for its ticket. -/
theorem blocking_sends_answered {nl : Nlohmann} (hnl : nl.Lawful) (message : ErrorCode → Bytes)
    (id : ℕ) (handlers : List (Bytes × TicketHandler σ))
    (longHandlers : List (Bytes × TicketLongHandler σ)) (state : σ) (ls : List LinkStep)
    (t : TicketLink σ)
    (hg : Machine.Guarded (step (TicketJson.serializer nl) message)
      (fun s l => s.Blocking l ∧ s.Undisturbed (TicketJson.serializer nl) message l)
      (connect id handlers longHandlers state) ls)
    (h : Machine.run (step (TicketJson.serializer nl) message)
      (connect id handlers longHandlers state) ls = some t) :
    ∀ i rq r, t.calls i = .finished rq (.ok r) → t.Answered rq r := by
  have hS : TicketPeer.RoundTrips (TicketJson.serializer nl) :=
    fun _ _ hser => TicketJson.deserialize_serialize hnl hser
  have hinit : (connect id handlers longHandlers state).OneCall := by
    intro i j hi
    cases hi
  have hstep : ∀ (s : TicketLink σ) l t, Inv (TicketJson.serializer nl) s ∧ s.OneCall →
      s.Blocking l ∧ s.Undisturbed (TicketJson.serializer nl) message l →
      step (TicketJson.serializer nl) message s l = some t →
      Inv (TicketJson.serializer nl) t ∧ t.OneCall := by
    rintro s l t ⟨hs, hone⟩ ⟨hblock, hund⟩ hst
    exact ⟨step_inv hS hs (ordered_of_blocking hs hone hund hst) hst,
      step_oneCall hs hone hblock hst⟩
  exact (Machine.run_invariant hstep ⟨connect_inv id handlers longHandlers state, hinit⟩
    hg h).1.results

/-- The second send times out while its request is in transit; it is the last one. -/
def blockingEchoes : List LinkStep :=
  [startEcho 0, .writePrefix 0, .writeBody 0, .work (arrives (echoRequest 0)),
    .readPrefix 0 (arrives (echoReply 0)), .readBody 0 [.data (echoFrame (echoReply 0))],
    startEcho 1, .writePrefix 1, .writeBody 1, .readPrefix 1 [.fail timeoutFault],
    .work (arrives (echoRequest 1))]

theorem blocking_sends_answered_echo :
    ∃ t, echoRun blockingEchoes = some t ∧
      t.calls 0 = .finished ⟨echoRequest 0, echoFrame (echoRequest 0)⟩ (.ok (ascii "0")) ∧
      ∀ i rq r, t.calls i = .finished rq (.ok r) → t.Answered rq r := by
  have hcalls : (echoRun blockingEchoes).map (fun t => t.calls 0)
      = some (.finished ⟨echoRequest 0, echoFrame (echoRequest 0)⟩ (.ok (ascii "0"))) := by
    decide +kernel
  obtain ⟨t, hrun, ht⟩ := Option.map_eq_some_iff.mp hcalls
  exact ⟨t, hrun, ht, blocking_sends_answered echo_lawful (fun _ => []) 7
    [(ascii "echo", fun ctx s => (.ok ctx.payload, s))] [] () blockingEchoes t
    (by decide +kernel) hrun⟩

/- The first send times out on an idle connection and its reply comes late. The zero
bytes the failed read left are an empty frame for the second send; the third reads the
late reply. -/
def lateReply : List LinkStep :=
  [startEcho 0, .writePrefix 0, .writeBody 0, .readPrefix 0 [.fail timeoutFault],
    .work (arrives (echoRequest 0)),
    startEcho 1, .writePrefix 1, .writeBody 1, .readPrefix 1 [], .readBody 1 [],
    startEcho 2, .writePrefix 2, .writeBody 2, .readPrefix 2 (arrives (echoReply 0)),
    .readBody 2 [.data (echoFrame (echoReply 0))]]

theorem late_reply_misattributed :
    Machine.Guarded (step echoSerializer fun _ => []) Blocking echoLink lateReply ∧
    ∃ t, echoRun lateReply = some t ∧
      t.calls 2 = .finished ⟨echoRequest 2, echoFrame (echoRequest 2)⟩ (.ok (ascii "0")) ∧
      ¬t.Answered ⟨echoRequest 2, echoFrame (echoRequest 2)⟩ (ascii "0") := by
  have hreads : (echoRun lateReply).map (fun t => (t.calls 2,
      decide (t.Answered ⟨echoRequest 2, echoFrame (echoRequest 2)⟩ (ascii "0"))))
      = some (.finished ⟨echoRequest 2, echoFrame (echoRequest 2)⟩ (.ok (ascii "0")), false) := by
    decide +kernel
  obtain ⟨t, hrun, ht⟩ := Option.map_eq_some_iff.mp hreads
  obtain ⟨hcall, hans⟩ := Prod.mk.inj ht
  exact ⟨by decide +kernel, t, hrun, hcall, of_decide_eq_false hans⟩

end TicketLink

end NetworkStack
