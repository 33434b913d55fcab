import NetworkStack.Socket.Timers

/-!
# What the time limits guarantee, and what they do not

A call ends by its own timer, unless the handler is through with its cancellation before the
operation starts: nothing limits the operation then. And a handler that was queued when its
call resumed stores into a frame that is gone, and cancels whatever call is under way by then.
-/

namespace NetworkStack

open Machine

namespace TimedStep

/-- A step of the timer or the frame of call `i`, nothing the transport does by itself. -/
def Watches (i : ℕ) (l : TimedStep) : Prop :=
  l = .start i ∨ l = .expire i ∨ l = .handler i ∨ l = .cancel i ∨ l = .resume i

end TimedStep

/-- What a read of the socket model meets when this is its transport operation. -/
def TimedCall.event (c : TimedCall) : Option ReadEvent :=
  match c.transport with
  | .idle => none
  | .pending => none
  | .completed (.ok bytes) => some (.data bytes)
  | .completed (.error ec) => some (.fail ⟨ec, c.timed_out⟩)

namespace TimedSocket

open TimedCall

variable {s t : TimedSocket} {l : TimedStep} {ls : List TimedStep} {i j : ℕ} {c d : TimedCall}

/-! ### Every call ends -/

/- `Ends`: the timer and the frame of call `i` by themselves bring it to return `r`. -/
def Ends (i : ℕ) (r : Except ErrorCode Bytes) (s : TimedSocket) : Prop :=
  CanReach step (TimedStep.Watches i)
    (fun t => ∃ c, t.calls[i]? = some c ∧ c.result = some r) s

/-- The call a step is one of, before and after it. -/
theorem step_moves (h : step s l = some t) (hof : l.Of i) :
    ∃ c d, s.calls[i]? = some c ∧ t.calls[i]? = some d ∧ Moves s.isOpen i l c d := by
  obtain ⟨-, -, hlen⟩ := step_frame h
  have hi : i < t.calls.length := hlen i (.inr hof)
  rcases step_call h (List.getElem?_eq_getElem hi) with ⟨rfl, -⟩ | ⟨c, hc, hm⟩
  · rcases hof with hl | ⟨r, hl⟩ | hl | hl | hl | hl <;> cases hl
  · exact ⟨c, _, hc, List.getElem?_eq_getElem hi, hm⟩

theorem update_eq (hi : s.calls[i]? = some c) {f : TimedCall → Option TimedCall}
    (hf : f c = some d) : s.update i f = some { s with calls := s.calls.set i d } := by
  simp only [update, hi, hf]

theorem getElem?_set_call (hi : s.calls[i]? = some c) : (s.calls.set i d)[i]? = some d :=
  List.getElem?_set_self (List.getElem?_eq_some_iff.mp hi).1

theorem ends_completed (hi : s.calls[i]? = some c) {r : Except ErrorCode Bytes}
    (hr : c.transport = .completed r) (hrunning : c.result = none) :
    Ends i (returned c.timed_out r) s := by
  have hresume : c.resume = some { c with
      timer := if c.timer = .waiting then .cancelled else c.timer
      result := some (returned c.timed_out r) } := by
    simp only [TimedCall.resume, hr, hrunning]
  refine canReach_step (l := .resume i) (update_eq hi hresume) (.inr (.inr (.inr (.inr rfl))))
    (canReach_refl ⟨_, getElem?_set_call hi, rfl⟩)

theorem ends_cancelling (hopen : s.isOpen = true) (hi : s.calls[i]? = some c)
    (hpending : c.transport = .pending) (hrunning : c.result = none)
    (htimer : c.timer = .cancelling) (htimed : c.timed_out = true) :
    Ends i (.error SocketDetail.makeTimeoutError) s := by
  have hcancel : c.cancel = some { c with timer := .done } := by
    simp only [TimedCall.cancel, htimer, if_true]
  let u : TimedSocket := { s with calls := s.calls.set i { c with timer := .done } }
  have hstep : step s (.cancel i) = some u.cancelSocket := by
    simp only [step, update_eq hi hcancel, Option.map_some, u]
  refine canReach_step hstep (.inr (.inr (.inr (.inl rfl)))) ?_
  have hmid : u.cancelSocket.calls[i]? = some { c with
      timer := .done
      transport := .completed (.error (.asio .operation_aborted)) } := by
    rw [calls_cancelSocket]
    simp only [u, getElem?_set_call hi, Option.map_some, hopen, abortIf, if_true, abort, hpending]
  have hreturned : returned c.timed_out (.error (.asio .operation_aborted))
      = .error SocketDetail.makeTimeoutError := by
    rw [returned_aborted, htimed]
    rfl
  exact hreturned ▸ ends_completed hmid rfl hrunning

theorem ends_expired (hopen : s.isOpen = true) (hi : s.calls[i]? = some c)
    (hpending : c.transport = .pending) (hrunning : c.result = none)
    (htimer : c.timer = .expired) : Ends i (.error SocketDetail.makeTimeoutError) s := by
  have hhandler : c.handler = some { c with
      timer := .cancelling
      timed_out := c.timed_out || c.result.isNone } := by
    simp only [TimedCall.handler, htimer]
  have hstep : step s (.handler i) = some { s with
      calls := s.calls.set i { c with
        timer := .cancelling
        timed_out := c.timed_out || c.result.isNone }
      stray := if s.strays i then s.stray ++ [i] else s.stray } := by
    simp only [step, update_eq hi hhandler, Option.map_some]
  refine canReach_step hstep (.inr (.inr (.inl rfl)))
    (ends_cancelling hopen (getElem?_set_call hi) hpending hrunning rfl ?_)
  simp [hrunning]

theorem ends_waiting (hopen : s.isOpen = true) (hi : s.calls[i]? = some c)
    (hpending : c.transport = .pending) (hrunning : c.result = none)
    (htimer : c.timer = .waiting) : Ends i (.error SocketDetail.makeTimeoutError) s := by
  have hexpire : c.expire = some { c with timer := .expired } := by
    simp only [TimedCall.expire, htimer, if_true]
  exact canReach_step (l := .expire i) (update_eq hi hexpire) (.inr (.inl rfl))
    (ends_expired hopen (getElem?_set_call hi) hpending hrunning rfl)

/- The timer of a call that has not resumed has something left to do. -/
theorem ends_pending (hopen : s.isOpen = true) (hi : s.calls[i]? = some c)
    (hpending : c.transport = .pending) (hrunning : c.result = none)
    (htiming : Timing ls i c) (hdone : c.timer ≠ .done) :
    Ends i (.error SocketDetail.makeTimeoutError) s := by
  cases htimer : c.timer with
  | waiting => exact ends_waiting hopen hi hpending hrunning htimer
  | expired => exact ends_expired hopen hi hpending hrunning htimer
  | cancelled => exact absurd hrunning (htiming.cancelled htimer)
  | cancelling =>
    exact ends_cancelling hopen hi hpending hrunning htimer
      (htiming.flag.mpr (.inl ⟨hrunning, htiming.cancelling htimer⟩))
  | done => exact absurd htimer hdone

theorem ends_idle (hi : s.calls[i]? = some c) (hidle : c.transport = .idle)
    (hrunning : c.result = none) (htiming : Timing ls i c)
    (hdone : s.isOpen = true → c.timer ≠ .done) : ∃ r, Ends i r s := by
  have hstart : TimedCall.start s.isOpen c = some { c with transport := started s.isOpen } :=
    if_pos hidle
  have hstep : step s (.start i)
      = some { s with calls := s.calls.set i { c with transport := started s.isOpen } } :=
    update_eq hi hstart
  by_cases hopen : s.isOpen = true
  · have hpending : started s.isOpen = .pending := if_pos hopen
    have hstarts : Moves s.isOpen i (.start i) c { c with transport := started s.isOpen } :=
      .starts hidle
    have hmoved : Timing (ls ++ [.start i]) i { c with transport := started s.isOpen } :=
      htiming.moves hstarts
    exact ⟨_, canReach_step hstep (.inl rfl)
      (ends_pending hopen (getElem?_set_call hi) hpending hrunning hmoved (hdone hopen))⟩
  · have hclosed : started s.isOpen = .completed (.error badDescriptor) := if_neg hopen
    exact ⟨_, canReach_step hstep (.inl rfl)
      (ends_completed (c := { c with transport := started s.isOpen })
        (getElem?_set_call hi) hclosed hrunning)⟩

/- The handler of call `i` is through and its operation is not over: starting it is all that
is left. -/
def Unwatched (i : ℕ) (s : TimedSocket) : Prop :=
  s.isOpen = true ∧ ∃ c, s.calls[i]? = some c ∧ (∀ q, c.transport ≠ .completed q) ∧
    c.timer = .done ∧ c.result = none

theorem not_ends (hopen : s.isOpen = true) (hi : s.calls[i]? = some c)
    (htransport : ∀ q, c.transport ≠ .completed q) (htimer : c.timer = .done)
    (hrunning : c.result = none) (r : Except ErrorCode Bytes) : ¬ Ends i r s := by
  have hunwatched : Unwatched i s := ⟨hopen, c, hi, htransport, htimer, hrunning⟩
  refine not_canReach ?_ ?_ hunwatched
  · rintro s l t ⟨hopen, c, hi, htransport, htimer, hrunning⟩ hl hstep
    have hof : l.Of i := by
      rcases hl with rfl | rfl | rfl | rfl | rfl <;> simp [TimedStep.Of]
    obtain ⟨c', d, hi', hd, hm⟩ := step_moves hstep hof
    obtain rfl : c = c' := Option.some.inj (hi.symm.trans hi')
    obtain ⟨hstill, -, -⟩ := step_frame hstep
    refine ⟨?_, d, hd, ?_⟩
    · rcases hl with rfl | rfl | rfl | rfl | rfl <;> simp [hstill, hopen]
    cases hm with
    | starts hidle =>
      refine ⟨fun q hq => ?_, htimer, hrunning⟩
      simp only [started, hopen, if_true] at hq
      cases hq
    | completes q hpending hq => simp [TimedStep.Watches] at hl
    | expires hwaiting => simp [htimer] at hwaiting
    | stores hexpired => simp [htimer] at hexpired
    | drops hcancelled => simp [htimer] at hcancelled
    | cancels hcancelling => simp [htimer] at hcancelling
    | resumes q hcompleted hnone => exact absurd hcompleted (htransport q)
    | aborts hcancels hne => exact absurd hof hne
    | stays hcancels hne harm => exact absurd hof hne
  · rintro t ⟨-, c, hc, -, -, hnone⟩ ⟨d, hd, hr⟩
    obtain rfl : c = d := Option.some.inj (hc.symm.trans hd)
    rw [hnone] at hr
    cases hr

/- The own cancellation of call `i` came before its start, and nothing since has cancelled the
socket, closed it or completed the operation. -/
structure Vain (ls : List TimedStep) (i : ℕ) : Prop where
  cancelled : .cancel i ∈ ls
  still : ∀ k : TimedStep, k.Cancels → ¬ Precedes (.start i) k ls
  isOpen : .closeSocket ∉ ls
  incomplete : ∀ r, .complete i r ∉ ls

theorem Vain.unended (hvain : Vain ls i) (hrec : Recorded ls s) (hi : s.calls[i]? = some c)
    (hrunning : c.result = none) (r : Except ErrorCode Bytes) : ¬ Ends i r s := by
  have htransfer := hrec.transfer i c hi
  refine not_ends (hrec.opened.mpr hvain.isOpen) hi ?_ (htransfer.done hvain.cancelled) hrunning r
  intro q hq
  rcases htransfer.origin q hq with hdata | ⟨hclosed, -⟩ | ⟨-, -, k, hk, hstart, -⟩
  · exact hvain.incomplete q hdata
  · exact hvain.isOpen hclosed.mem
  · exact hvain.still k hk hstart

/- A call that is not over and whose handler is through has been cancelled in vain. -/
theorem vain_of_done (hrec : Recorded ls s) (hi : s.calls[i]? = some c)
    (hopen : s.isOpen = true) (htransport : ∀ q, c.transport ≠ .completed q)
    (htimer : c.timer = .done) : Vain ls i := by
  have htransfer := hrec.transfer i c hi
  refine ⟨htransfer.cancelled htimer (htransfer.unreturned htransport), ?_,
    hrec.opened.mp hopen, fun q hq => htransport q (htransfer.completed q hq).1⟩
  intro k hk hpre
  cases hstage : c.transport with
  | idle => exact htransfer.idle.mp hstage hpre.mem
  | pending => exact (htransfer.pending hstage).2 k hk hpre
  | completed q => exact htransport q hstage

/- What the run ended by before its call had an operation that completed is the time limit. -/
theorem ends_timeout (h : run step fresh ls = some s) (hi : s.calls[i]? = some c)
    (hopen : s.isOpen = true) (htransport : ∀ q, c.transport ≠ .completed q)
    {r : Except ErrorCode Bytes} (hends : Ends i r s) :
    r = .error SocketDetail.makeTimeoutError := by
  obtain ⟨ms, t, hms, hrun, d, hd, hr⟩ := hends
  have hrec := recorded_run h
  have htransfer := hrec.transfer i c hi
  have hwhole : run step fresh (ls ++ ms) = some t := by rw [run_append, h, Option.bind_some, hrun]
  have hverdict := returned_verdict hwhole hd hr
  have hstarted : ∀ k : TimedStep, k.Cancels → ¬ Precedes (.start i) k ls := fun k hk hpre => by
    cases hstage : c.transport with
    | idle => exact htransfer.idle.mp hstage hpre.mem
    | pending => exact (htransfer.pending hstage).2 k hk hpre
    | completed q => exact htransport q hstage
  have hnone : ∀ q, .complete i q ∉ ls ++ ms := fun q hq => by
    rcases List.mem_append.mp hq with hq | hq
    · exact htransport q (htransfer.completed q hq).1
    · simpa [TimedStep.Watches] using hms _ hq
  have hclosed : ¬ Precedes .closeSocket (.start i) (ls ++ ms) := fun hpre => by
    rcases List.mem_append.mp hpre.mem with hclose | hclose
    · exact hrec.opened.mp hopen hclose
    · simpa [TimedStep.Watches] using hms _ hclose
  by_cases hran : Precedes (.handler i) (.resume i) (ls ++ ms)
  · exact (hverdict.timeout hnone hclosed hran).1
  · obtain ⟨-, k, hk, hki, hstart, -⟩ := hverdict.aborted hnone hclosed hran
    refine absurd (hstart.of_append fun hkm => ?_) (hstarted k hk)
    rcases hms k hkm with rfl | rfl | rfl | rfl | rfl
    · exact hk
    · exact hk
    · exact hk
    · exact hki rfl
    · exact hk

/-- Wherever a run has come to, the timer and the handlers of a call that has not returned
can end it, except when its own cancellation came before its start; and when they end a call
whose operation is not over on an open socket, they end it as a timeout. -/
theorem running_ends_iff (h : run step fresh ls = some s) (hi : s.calls[i]? = some c)
    (hrunning : c.result = none) :
    ((∃ r, Ends i r s) ↔ ¬ Vain ls i) ∧
      (s.isOpen = true → (∀ q, c.transport ≠ .completed q) →
        ∀ r, Ends i r s → r = .error SocketDetail.makeTimeoutError) := by
  have hrec := recorded_run h
  have htiming := hrec.timing i c hi
  refine ⟨⟨?_, fun hvain => ?_⟩, fun hopen htransport r => ends_timeout h hi hopen htransport⟩
  · rintro ⟨r, hends⟩ hvain
    exact hvain.unended hrec hi hrunning r hends
  · cases hstage : c.transport with
    | completed q => exact ⟨_, ends_completed hi hstage hrunning⟩
    | pending =>
      have hopen := ((hrec.transfer i c hi).pending hstage).1
      refine ⟨_, ends_pending hopen hi hstage hrunning htiming fun htimer => hvain ?_⟩
      exact vain_of_done hrec hi hopen (fun q hq => by rw [hstage] at hq; cases hq) htimer
    | idle =>
      refine ends_idle hi hstage hrunning htiming fun hopen htimer => hvain ?_
      exact vain_of_done hrec hi hopen (fun q hq => by rw [hstage] at hq; cases hq) htimer

/- The time runs out between the timer and the start. -/
def earlySteps : List TimedStep := [.arm 0, .expire 0, .handler 0, .cancel 0]

/- Once the cancellation is still to come when the operation starts, once it is over. -/
theorem running_ends_iff_early :
    (∃ r, Ends 0 r ⟨true, [⟨.pending, .cancelling, true, none⟩], []⟩) ∧
      ¬ ∃ r, Ends 0 r ⟨true, [⟨.pending, .done, true, none⟩], []⟩ := by
  have hbehind : run step fresh [.arm 0, .expire 0, .handler 0, .start 0]
      = some ⟨true, [⟨.pending, .cancelling, true, none⟩], []⟩ := by decide
  have hbefore : run step fresh (earlySteps ++ [.start 0])
      = some ⟨true, [⟨.pending, .done, true, none⟩], []⟩ := by decide
  refine ⟨(running_ends_iff hbehind (i := 0) rfl rfl).1.mpr fun hvain => ?_, fun hends => ?_⟩
  · simpa using hvain.cancelled
  · refine (running_ends_iff hbefore (i := 0) rfl rfl).1.mp hends
      ⟨by simp [earlySteps], ?_, by simp [earlySteps], by simp [earlySteps]⟩
    intro k hk hpre
    rcases precedes_concat.mp hpre with hpre | ⟨-, rfl⟩
    · simpa [earlySteps] using hpre.mem
    · exact hk

/-! ### Calls one after the other -/

/-- A call begins when those before it have returned, and nobody cancels the socket but the
timers. -/
def Sequential (s : TimedSocket) : TimedStep → Prop
  | .arm _ => ∀ c ∈ s.calls, c.result ≠ none
  | .cancelSocket => False
  | .closeSocket => False
  | _ => True

instance decidableSequential (s : TimedSocket) (l : TimedStep) : Decidable (Sequential s l) := by
  cases l with
  | arm i => exact List.decidableBAll (fun c => c.result ≠ none) s.calls
  | cancelSocket => exact .isFalse id
  | closeSocket => exact .isFalse id
  | _ => exact .isTrue trivial

/- The handler of call `j` was queued when `j` returned, and cancelled the socket while call
`i` was under way. -/
structure Stale (ls : List TimedStep) (j i : ℕ) : Prop where
  queued : Precedes (.expire j) (.resume j) ls
  late : Precedes (.resume j) (.cancel j) ls
  started : Precedes (.start i) (.cancel j) ls
  returned : Precedes (.cancel j) (.resume i) ls

theorem step_cancel (h : step s (.cancel i) = some t) :
    ∃ c, s.calls[i]? = some c ∧ c.timer = .cancelling := by
  obtain ⟨c, d, hc, -, hm⟩ := step_moves (i := i) h (by simp [TimedStep.Of])
  refine ⟨c, hc, ?_⟩
  cases hm with
  | cancels htimer => exact htimer
  | aborts hl hne => exact absurd (by simp [TimedStep.Of]) hne
  | stays hl hne harm => exact absurd trivial hl

theorem step_resume (h : step s (.resume i) = some t) :
    ∃ c, s.calls[i]? = some c ∧ c.result = none := by
  obtain ⟨c, d, hc, -, hm⟩ := step_moves (i := i) h (by simp [TimedStep.Of])
  refine ⟨c, hc, ?_⟩
  cases hm with
  | resumes r hcompleted hrunning => exact hrunning
  | aborts hl hne => exact absurd hl id
  | stays hl hne harm => exact absurd (by simp [TimedStep.Of]) hne

theorem result_moves {isOpen : Bool} (hm : Moves isOpen i l c d) (h : c.result ≠ none) :
    d.result ≠ none := by
  cases hm with
  | cancels htimer => grind [abortIf, abort]
  | resumes r hcompleted hrunning => exact absurd hrunning h
  | aborts hl hne => grind [abortIf, abort]
  | _ => exact h

/- A run of calls one after the other. -/
structure InTurn (ls : List TimedStep) (s : TimedSocket) : Prop where
  recorded : Recorded ls s
  earlier : ∀ j c, s.calls[j]? = some c → j + 1 < s.calls.length → c.result ≠ none
  before : ∀ i j, j < i → Precedes (.start i) (.cancel j) ls →
    Precedes (.resume j) (.cancel j) ls ∧ Precedes (.expire j) (.resume j) ls
  after : ∀ i j, i < j → ¬ Precedes (.cancel j) (.resume i) ls
  onlyTimers : .cancelSocket ∉ ls ∧ .closeSocket ∉ ls

theorem InTurn.step (h : InTurn ls s) (hg : Sequential s l) (hstep : step s l = some t) :
    InTurn (ls ++ [l]) t := by
  refine ⟨h.recorded.step hstep, ?_, ?_, ?_, ?_⟩
  · intro j d hj hlast
    rcases step_call hstep hj with ⟨-, hlen, -⟩ | ⟨c, hc, hm⟩
    · rcases step_call hstep (List.getElem?_eq_getElem hlast) with ⟨-, hlen', -⟩ | ⟨e, he, -⟩
      · omega
      · have := (List.getElem?_eq_some_iff.mp he).1
        omega
    · refine result_moves hm ?_
      rcases step_call hstep (List.getElem?_eq_getElem hlast) with ⟨rfl, -⟩ | ⟨e, he, -⟩
      · exact hg c (List.mem_of_getElem? hc)
      · exact h.earlier j c hc (List.getElem?_eq_some_iff.mp he).1
  · intro i j hji hpre
    rcases precedes_concat.mp hpre with hpre | ⟨hstart, rfl⟩
    · obtain ⟨hlate, hqueued⟩ := h.before i j hji hpre
      exact ⟨precedes_concat.mpr (.inl hlate), precedes_concat.mpr (.inl hqueued)⟩
    · obtain ⟨c, hc, htimer⟩ := step_cancel hstep
      have hi := h.recorded.numbered _ hstart i (by simp [TimedStep.Of])
      have hreturned : c.result ≠ none := h.earlier j c hc (by omega)
      have htiming := h.recorded.timing j c hc
      have hresume : .resume j ∈ ls := by
        by_contra hnot
        exact hreturned (htiming.running.mpr hnot)
      exact ⟨precedes_concat.mpr (.inr ⟨hresume, rfl⟩),
        precedes_concat.mpr (.inl ((htiming.expired (.inr htimer)).2 hreturned))⟩
  · intro i j hij hpre
    rcases precedes_concat.mp hpre with hpre | ⟨hcancel, rfl⟩
    · exact h.after i j hij hpre
    · obtain ⟨c, hc, hrunning⟩ := step_resume hstep
      have hj := h.recorded.numbered _ hcancel j (by simp [TimedStep.Of])
      exact h.earlier i c hc (by omega) hrunning
  · obtain ⟨hcancel, hclose⟩ := h.onlyTimers
    constructor
    · intro hmem
      rcases List.mem_append.mp hmem with hmem | hmem
      · exact hcancel hmem
      · obtain rfl := List.mem_singleton.mp hmem
        exact hg
    · intro hmem
      rcases List.mem_append.mp hmem with hmem | hmem
      · exact hclose hmem
      · obtain rfl := List.mem_singleton.mp hmem
        exact hg

theorem inTurn_run (h : run step fresh ls = some s) (hg : Guarded step Sequential fresh ls) :
    InTurn ls s := by
  induction ls using List.reverseRecOn generalizing s with
  | nil =>
    have hs := recorded_run h
    cases h
    refine ⟨hs, ?_, ?_, ?_, by simp⟩
    · intro j c hj
      cases hj
    · intro i j _ hpre
      exact absurd hpre.mem List.not_mem_nil
    · intro i j _ hpre
      exact absurd hpre.mem List.not_mem_nil
  | append_singleton ls l ih =>
    obtain ⟨mid, hmid, hl⟩ := run_concat h
    obtain ⟨hls, hguard⟩ := guarded_concat hg hmid
    exact (ih hmid hls).step hguard hl

/-- When calls follow one another and nobody cancels the socket, a call that reports
`operation_aborted` was cancelled by the stale handler of an earlier call: the timer of that
one ran out while its result was already on its way. -/
theorem aborted_stale (h : run step fresh ls = some s) (hg : Guarded step Sequential fresh ls)
    (hi : s.calls[i]? = some c) (hr : c.result = some (.error (.asio .operation_aborted))) :
    ∃ j, j < i ∧ Stale ls j i := by
  have hturn := inTurn_run h hg
  have hverdict := hturn.recorded.verdict hi hr
  have hnone : ∀ q, .complete i q ∉ ls := by
    intro q hq
    exact ((hturn.recorded.transfer i c hi).completed q hq).2 (hverdict.transferred q hq).symm
  have hopen : ¬ Precedes .closeSocket (.start i) ls := fun hclosed =>
    hturn.onlyTimers.2 hclosed.mem
  have hran : ¬ Precedes (.handler i) (.resume i) ls := by
    intro hran
    have := (hverdict.timeout hnone hopen hran).1
    cases this
  obtain ⟨-, k, hk, hki, hstart, hresume⟩ := hverdict.aborted hnone hopen hran
  cases k with
  | cancel j =>
    have hne : j ≠ i := fun hji => hki (hji ▸ rfl)
    rcases Nat.lt_or_gt_of_ne hne with hji | hij
    · obtain ⟨hlate, hqueued⟩ := hturn.before i j hji hstart
      exact ⟨j, hji, hqueued, hlate, hstart, hresume⟩
    · exact absurd hresume (hturn.after i j hij)
  | cancelSocket => exact absurd hresume.mem hturn.onlyTimers.1
  | closeSocket => exact absurd hresume.mem hturn.onlyTimers.2
  | _ => exact absurd hk id

theorem aborted_stale_second : ∃ j, j < 1 ∧ Stale staleSteps j 1 :=
  aborted_stale (s := staleSocket) (by decide) (by decide) rfl rfl

/-! ### Frames that are gone -/

theorem mem_stray_step (h : step s l = some t) (j : ℕ) :
    j ∈ t.stray ↔ j ∈ s.stray ∨ (l = .handler j ∧ s.strays j = true) := by
  have hupdate : ∀ {f : TimedCall → Option TimedCall} {i : ℕ} {u : TimedSocket},
      s.update i f = some u → u.stray = s.stray := by
    intro f i u hu
    obtain ⟨c, d, hc, -, rfl⟩ := update_some hu
    rfl
  have hcancel : ∀ u : TimedSocket, u.cancelSocket.stray = u.stray := by
    intro u
    unfold cancelSocket
    split
    · rfl
    · rfl
  cases l with
  | arm i =>
    simp only [step] at h
    split at h
    · cases h
      simp
    · cases h
  | start i => simp [hupdate h]
  | complete i r => simp [hupdate h]
  | expire i => simp [hupdate h]
  | handler i =>
    obtain ⟨u, hu, rfl⟩ := Option.map_eq_some_iff.mp h
    by_cases hs : s.strays i = true
    · simp only [hs, if_true, List.mem_append, List.mem_singleton, TimedStep.handler.injEq]
      refine or_congr_right ⟨fun hji => ⟨hji.symm, hji ▸ hs⟩, fun hji => hji.1.symm⟩
    · simp only [hs, TimedStep.handler.injEq]
      refine ⟨.inl, fun hj => hj.resolve_right ?_⟩
      rintro ⟨rfl, hj⟩
      exact hs hj
  | cancel i =>
    obtain ⟨u, hu, rfl⟩ := Option.map_eq_some_iff.mp h
    simp [hcancel, hupdate hu]
  | resume i => simp [hupdate h]
  | cancelSocket =>
    cases h
    simp [hcancel]
  | closeSocket =>
    cases h
    simp [closeSocket, hcancel]

/- The handlers that store into a frame that is gone, told from the steps. -/
def Orphaned (ls : List TimedStep) (j : ℕ) : Prop :=
  Precedes (.expire j) (.resume j) ls ∧ Precedes (.resume j) (.handler j) ls

theorem strays_iff (hs : Recorded ls s) (h : step s (.handler j) = some t) :
    s.strays j = true ↔ Precedes (.expire j) (.resume j) ls := by
  obtain ⟨c, d, hc, -, hm⟩ := step_moves (i := j) h (by simp [TimedStep.Of])
  have htiming := hs.timing j c hc
  simp only [strays, hc, Bool.and_eq_true, decide_eq_true_eq, Option.isSome_iff_ne_none]
  constructor
  · rintro ⟨hexpired, hreturned⟩
    exact (htiming.expired (.inl hexpired)).2 hreturned
  · intro hpre
    have hreturned : c.result ≠ none := fun hrunning =>
      htiming.running.mp hrunning hpre.mem_right
    refine ⟨?_, hreturned⟩
    cases hm with
    | stores htimer => exact htimer
    | drops htimer => exact absurd hpre.mem (htiming.unexpired (.inr htimer))
    | aborts hl hne => exact absurd (by simp [TimedStep.Of]) hne
    | stays hl hne harm => exact absurd (by simp [TimedStep.Of]) hne

theorem orphaned_step (hs : Recorded ls s) (h : step s l = some t) :
    Orphaned (ls ++ [l]) j ↔ Orphaned ls j ∨ (l = .handler j ∧ s.strays j = true) := by
  simp only [Orphaned, precedes_concat]
  constructor
  · rintro ⟨hexpired | ⟨hexpired, rfl⟩, hran | ⟨hresumed, hl⟩⟩
    · exact .inl ⟨hexpired, hran⟩
    · subst hl
      exact .inr ⟨rfl, (strays_iff hs h).mpr hexpired⟩
    · -- a call resumes once
      obtain ⟨c, hc, hrunning⟩ := step_resume h
      exact absurd hran.mem ((hs.timing j c hc).running.mp hrunning)
    · cases hl
  · rintro (⟨hexpired, hran⟩ | ⟨rfl, hstrays⟩)
    · exact ⟨.inl hexpired, .inl hran⟩
    · have hexpired := (strays_iff hs h).mp hstrays
      exact ⟨.inl hexpired, .inr ⟨hexpired.mem_right, rfl⟩⟩

/-- In every run a timer handler stores into the frame of a call that is gone exactly when the
time ran out before the call resumed and the handler ran after it. -/
theorem stray_iff (h : run step fresh ls = some s) (j : ℕ) : j ∈ s.stray ↔ Orphaned ls j := by
  induction ls using List.reverseRecOn generalizing s with
  | nil =>
    cases h
    simp only [fresh, List.not_mem_nil, false_iff]
    exact fun ho => absurd ho.1.mem List.not_mem_nil
  | append_singleton ls l ih =>
    obtain ⟨mid, hmid, hstep⟩ := run_concat h
    rw [mem_stray_step hstep, orphaned_step (recorded_run hmid) hstep, ih hmid]

theorem stray_iff_second : 0 ∈ staleSocket.stray ↔ Orphaned staleSteps 0 :=
  stray_iff (by decide) 0

/-! ### The reads of a socket -/

/- `asyncReadWithTimeout` of the socket model, on the event of a call that has returned,
returns what the call does. A read of no bytes meets no event. -/
theorem asyncReadWithTimeout_event (h : run step fresh ls = some s) (hi : s.calls[i]? = some c)
    {r : Except ErrorCode Bytes} (hr : c.result = some r) {n : ℕ} (hn : 0 < n)
    (hfits : ∀ bytes, r = .ok bytes → bytes.length ≤ n) (socket : Socket) (size : ℕ)
    (rest : List ReadEvent) :
    ∃ e t, TimedCall.event c = some e ∧
      SocketDetail.asyncReadWithTimeout { socket with incoming := e :: rest } size n
        = some (r.map List.length, t) ∧ t.incoming = rest := by
  obtain ⟨q, hq, rfl⟩ := ((recorded_run h).transfer i c hi).result r hr
  cases q with
  | ok bytes =>
    have hread : Chunked.read n (.data bytes :: rest : List ReadEvent)
        = some (.ok bytes, rest) := by
      rw [Chunked.read_pos hn, Chunked.next, if_pos (hfits bytes rfl)]
    refine ⟨.data bytes, { socket with
      incoming := rest
      readBuffer := SocketDetail.overwrite socket.readBuffer size bytes
      reads := socket.reads ++ [.ok bytes] }, by simp only [TimedCall.event, hq], ?_, rfl⟩
    simp only [SocketDetail.asyncReadWithTimeout, hread]
    rfl
  | error ec =>
    have hread : Chunked.read n (.fail ⟨ec, c.timed_out⟩ :: rest : List ReadEvent)
        = some (.error ⟨ec, c.timed_out⟩, rest) := Chunked.read_pos hn _
    refine ⟨.fail ⟨ec, c.timed_out⟩, { socket with
      incoming := rest
      reads := socket.reads ++ [.error (SocketDetail.faultCode ⟨ec, c.timed_out⟩)] },
      by simp only [TimedCall.event, hq], ?_, rfl⟩
    simp only [SocketDetail.asyncReadWithTimeout, hread]
    rfl

end TimedSocket

end NetworkStack
