import NetworkStack.Server.Listen

/-!
# Stopping a server

When a listen call has returned: the acceptor is closed if it never opened, or if
`stop` came to its `close` after it had opened. No exit of the call itself closes it.
-/

namespace NetworkStack

open Machine

/-- The steps that neither open nor close the acceptor nor begin the call. -/
structure ServerStep.Quiet (l : ServerStep) : Prop where
  begin : l ≠ .begin
  openAcceptor : ∀ ec, l ≠ .openAcceptor ec
  close : l ≠ .close

namespace Server

/-- The acceptor is closed, and a call that began after `stop` was over failed. -/
def LeftClosed (s : Server) (r : Except ErrorCode Unit) : Prop :=
  s.acceptorOpen = false ∧ (s.beganStopped = true → ∃ ec, r = .error ec)

def OpenFails (ls : List ServerStep) : Prop := ∃ ec, .openAcceptor (some ec) ∈ ls

/- What such a step leaves alone. -/
structure Untouched (s t : Server) : Prop where
  acceptorOpen : t.acceptorOpen = s.acceptorOpen
  beganStopped : t.beganStopped = s.beganStopped
  stop : s.stop = .over → t.stop = .over
  before : t.BeforeOpen ↔ s.BeforeOpen
  notBegun : t.listen = .notBegun → s.listen = .notBegun
  returned : ∀ r, s.listen = .returned r → t.listen = .returned r

/- What the steps taken say about the state. -/
structure Traced (ls : List ServerStep) (s : Server) : Prop where
  before : s.BeforeOpen → s.acceptorOpen = false ∧ ∀ ec, .openAcceptor ec ∉ ls
  after : ¬ s.BeforeOpen → ∃ ec, .openAcceptor ec ∈ ls
  failed : OpenFails ls → s.acceptorOpen = false ∧ ∃ ec, s.listen = .returned (.error ec)
  opened : .openAcceptor none ∈ ls →
    (s.acceptorOpen = false ↔ Precedes (.openAcceptor none) .close ls)
  notBegun : s.listen = .notBegun → s.beganStopped = false
  stopped : s.beganStopped = true → s.stop = .over
  kept : s.beganStopped = true → .openAcceptor none ∈ ls → s.acceptorOpen = true

variable {call : ListenCall} {ls : List ServerStep} {l : ServerStep} {s t : Server}

/-! ### What a step can do -/

theorem Untouched.of_listen {stage next : ListenStage} (hs : s.listen = stage)
    (hstage : Underway stage) (h : t.listen = next) (hnext : next ≠ .notBegun ∧ next ≠ .opening)
    (hopen : t.acceptorOpen = s.acceptorOpen) (hbegan : t.beganStopped = s.beganStopped)
    (hstop : t.stop = s.stop) : Untouched s t := by
  refine ⟨hopen, hbegan, fun ho => hstop.trans ho, ?_, ?_, ?_⟩
  · exact iff_of_false (not_beforeOpen h hnext) (not_beforeOpen hs hstage.begun)
  · exact fun hn => absurd (h.symm.trans hn) hnext.1
  · exact fun r hreturned => absurd (hs.symm.trans hreturned) (hstage.returned r)

theorem Untouched.of_same (hlisten : t.listen = s.listen)
    (hopen : t.acceptorOpen = s.acceptorOpen) (hbegan : t.beganStopped = s.beganStopped)
    (hstop : s.stop = .over → t.stop = .over) : Untouched s t := by
  refine ⟨hopen, hbegan, hstop, ?_, fun h => hlisten ▸ h, fun r h => hlisten.trans h⟩
  rw [BeforeOpen, BeforeOpen, hlisten]

theorem finish_untouched (r : Except ErrorCode Unit) {stage : ListenStage}
    (hs : s.listen = stage) (hstage : Underway stage) : Untouched s (s.finish r) :=
  .of_listen hs hstage rfl ⟨ListenStage.noConfusion, ListenStage.noConfusion⟩ rfl rfl rfl

theorem setup_untouched {ec : Option ErrorCode} {stage next : ListenStage}
    (hs : s.listen = stage) (hstage : Underway stage)
    (hnext : next ≠ .notBegun ∧ next ≠ .opening) : Untouched s (s.setup ec next) := by
  unfold setup
  split
  · exact finish_untouched _ hs hstage
  · exact .of_listen hs hstage rfl hnext rfl rfl rfl

theorem quiet_untouched (hl : l.Quiet) (h : step call s l = some t) : Untouched s t := by
  cases l with
  | begin => exact absurd rfl hl.begin
  | openAcceptor ec => exact absurd rfl (hl.openAcceptor ec)
  | close => exact absurd rfl hl.close
  | setOption ec =>
    obtain ⟨hs, rfl⟩ := step_taken h
    exact setup_untouched hs ⟨by simp, by simp⟩ (by simp)
  | bind ec =>
    obtain ⟨hs, rfl⟩ := step_taken h
    exact setup_untouched hs ⟨by simp, by simp⟩ (by simp)
  | listen ec =>
    obtain ⟨hs, rfl⟩ := step_taken h
    refine setup_untouched hs ⟨by simp, by simp⟩ ?_
    cases call.tls <;> simp
  | createTlsContext ec =>
    obtain ⟨hs, ⟨-, rfl⟩ | ⟨e, -, rfl⟩⟩ := step_taken h
    · exact .of_listen hs ⟨by simp, by simp⟩ rfl (by simp) rfl rfl rfl
    · exact finish_untouched _ hs ⟨by simp, by simp⟩
  | isStopped =>
    obtain ⟨hs, rfl⟩ := step_taken h
    split
    · exact finish_untouched _ hs ⟨by simp, by simp⟩
    · exact .of_listen hs ⟨by simp, by simp⟩ rfl (by simp) rfl rfl rfl
  | accept r =>
    obtain ⟨hs, rfl⟩ := step_taken h
    cases r with
    | ok c =>
      have hlisten : (s.acceptOne (.ok c)).listen = .configuring c := rfl
      exact .of_listen hs ⟨by simp, by simp⟩ hlisten (by simp) rfl rfl rfl
    | error ec =>
      simp only [acceptOne]
      split
      · exact finish_untouched _ hs ⟨by simp, by simp⟩
      · exact finish_untouched _ hs ⟨by simp, by simp⟩
  | configure =>
    obtain ⟨c, hs, rfl⟩ := step_taken h
    unfold configure
    split
    · exact finish_untouched _ hs ⟨by simp, by simp⟩
    · exact .of_listen hs ⟨by simp, by simp⟩ rfl (by simp) rfl rfl rfl
  | coroutine i =>
    obtain ⟨c, stage, -, hadvance⟩ := step_taken h
    obtain ⟨next, handled, rfl⟩ := advance_frame hadvance
    exact .of_same rfl rfl rfl id
  | store =>
    obtain ⟨hs, rfl⟩ := step_taken h
    exact .of_same rfl rfl rfl fun ho => by cases hs.symm.trans ho
  | cancelBase ec =>
    obtain ⟨hs, rfl⟩ := step_taken h
    exact .of_same rfl rfl rfl fun ho => by cases hs.symm.trans ho
  | cancel throws =>
    obtain ⟨hs, rfl⟩ := step_taken h
    exact .of_same rfl rfl rfl fun ho => by cases hs.symm.trans ho

/-- Three steps concern the acceptor or the beginning of the call; the others leave both alone. -/
theorem step_cases (h : step call s l = some t) :
    (l = .begin ∧ s.listen = .notBegun ∧
      t = { s with listen := .opening, beganStopped := s.stop = .over }) ∨
    (∃ ec, l = .openAcceptor ec ∧ s.listen = .opening ∧ t = s.openAcceptor ec) ∨
    (l = .close ∧ s.stop = .cancelled ∧ t = { s with acceptorOpen := false, stop := .over }) ∨
    (l.Quiet ∧ Untouched s t) := by
  cases l with
  | begin => exact .inl ⟨rfl, step_taken h⟩
  | openAcceptor ec => exact .inr (.inl ⟨ec, rfl, step_taken h⟩)
  | close => exact .inr (.inr (.inl ⟨rfl, step_taken h⟩))
  | _ =>
    refine .inr (.inr (.inr ((fun hl : ServerStep.Quiet _ => ⟨hl, quiet_untouched hl h⟩) ?_)))
    exact ⟨ServerStep.noConfusion, fun _ => ServerStep.noConfusion, ServerStep.noConfusion⟩

/-! ### The acceptor along a run -/

theorem fresh_traced : Traced [] fresh := by
  have hnothing : ∀ l : ServerStep, l ∉ ([] : List ServerStep) := fun _ => List.not_mem_nil
  refine ⟨fun _ => ⟨rfl, fun _ => hnothing _⟩, fun h => absurd (.inl rfl) h, ?_, ?_, fun _ => rfl,
    ?_, ?_⟩
  · rintro ⟨ec, h⟩
    exact absurd h (hnothing _)
  · exact fun h => absurd h (hnothing _)
  · exact fun h => Bool.noConfusion h
  · exact fun h => Bool.noConfusion h

theorem mem_concat_of_ne {a : ServerStep} (h : l ≠ a) : a ∈ ls ++ [l] ↔ a ∈ ls := by
  simp [Ne.symm h]

theorem Traced.untouched (h : Traced ls s) (hl : l.Quiet) (hu : Untouched s t) :
    Traced (ls ++ [l]) t := by
  have hmem : ∀ ec, .openAcceptor ec ∈ ls ++ [l] ↔ .openAcceptor ec ∈ ls :=
    fun ec => mem_concat_of_ne (hl.openAcceptor ec)
  have hprecedes : Precedes (.openAcceptor none) .close (ls ++ [l])
      ↔ Precedes (.openAcceptor none) .close ls := by
    rw [precedes_concat, or_iff_left fun hclose => hl.close hclose.2]
  refine ⟨fun hb => ?_, fun hb => ?_, ?_, fun ho => ?_, fun hn => ?_, fun hs => ?_, fun hs ho => ?_⟩
  · obtain ⟨hclosed, hnone⟩ := h.before (hu.before.mp hb)
    exact ⟨hu.acceptorOpen.trans hclosed, fun ec ho => hnone ec ((hmem ec).mp ho)⟩
  · obtain ⟨ec, hec⟩ := h.after fun hs => hb (hu.before.mpr hs)
    exact ⟨ec, (hmem ec).mpr hec⟩
  · rintro ⟨ec, hec⟩
    obtain ⟨hclosed, e, he⟩ := h.failed ⟨ec, (hmem _).mp hec⟩
    exact ⟨hu.acceptorOpen.trans hclosed, e, hu.returned _ he⟩
  · rw [hu.acceptorOpen, hprecedes]
    exact h.opened ((hmem none).mp ho)
  · exact hu.beganStopped.trans (h.notBegun (hu.notBegun hn))
  · exact hu.stop (h.stopped (hu.beganStopped.symm.trans hs))
  · exact hu.acceptorOpen.trans
      (h.kept (hu.beganStopped.symm.trans hs) ((hmem none).mp ho))

theorem Traced.begin (h : Traced ls s) (hs : s.listen = .notBegun) :
    Traced (ls ++ [.begin]) { s with listen := .opening, beganStopped := s.stop = .over } := by
  obtain ⟨hclosed, hnone⟩ := h.before (.inl hs)
  have hmem : ∀ ec, .openAcceptor ec ∉ ls ++ [.begin] :=
    fun ec ho => hnone ec ((mem_concat_of_ne ServerStep.noConfusion).mp ho)
  refine ⟨fun _ => ⟨hclosed, hmem⟩, fun hb => absurd (.inr rfl) hb, ?_, ?_, ?_, ?_, ?_⟩
  · rintro ⟨ec, hec⟩
    exact absurd hec (hmem _)
  · exact fun ho => absurd ho (hmem _)
  · exact fun hn => ListenStage.noConfusion hn
  · exact fun hb => of_decide_eq_true hb
  · exact fun _ ho => absurd ho (hmem _)

theorem Traced.openAcceptor (h : Traced ls s) (hs : s.listen = .opening)
    (ec : Option ErrorCode) : Traced (ls ++ [.openAcceptor ec]) (s.openAcceptor ec) := by
  obtain ⟨hclosed, hnone⟩ := h.before (.inr hs)
  have hself : .openAcceptor ec ∈ ls ++ [.openAcceptor ec] :=
    List.mem_append_right _ (List.mem_singleton_self _)
  have hmem : ∀ e, .openAcceptor e ∈ ls ++ [.openAcceptor ec] → e = ec := by
    intro e he
    rcases List.mem_append.mp he with he | he
    · exact absurd he (hnone e)
    · exact ServerStep.openAcceptor.inj (List.mem_singleton.mp he)
  have hprecedes : ¬ Precedes (.openAcceptor none) .close (ls ++ [.openAcceptor ec]) := by
    rw [precedes_concat]
    rintro (hp | ⟨ho, -⟩)
    · exact hnone _ hp.mem
    · exact hnone _ ho
  cases ec with
  | some ec =>
    have ht : s.openAcceptor (some ec) = s.finish (.error (makeSocketCreateError ec)) := by
      simp only [Server.openAcceptor, hclosed, Bool.false_eq_true, if_false]
    rw [ht]
    refine ⟨fun hb => ?_, fun _ => ⟨_, hself⟩, fun _ => ⟨hclosed, _, rfl⟩, fun ho => ?_,
      fun hn => ?_, h.stopped, fun _ ho => ?_⟩
    · rcases hb with hb | hb <;> cases hb
    · cases hmem none ho
    · cases hn
    · cases hmem none ho
  | none =>
    have ht : s.openAcceptor none = { s with acceptorOpen := true, listen := .settingOption } := by
      simp only [Server.openAcceptor, hclosed, Bool.false_eq_true, if_false]
    rw [ht]
    refine ⟨fun hb => ?_, fun _ => ⟨_, hself⟩, ?_, fun _ => ?_, fun hn => ?_, h.stopped,
      fun _ _ => rfl⟩
    · rcases hb with hb | hb <;> cases hb
    · rintro ⟨e, he⟩
      cases hmem _ he
    · exact iff_of_false Bool.noConfusion hprecedes
    · cases hn

theorem Traced.close (h : Traced ls s) (hs : s.stop = .cancelled) :
    Traced (ls ++ [.close]) { s with acceptorOpen := false, stop := .over } := by
  have hmem : ∀ ec, .openAcceptor ec ∈ ls ++ [.close] ↔ .openAcceptor ec ∈ ls :=
    fun ec => mem_concat_of_ne ServerStep.noConfusion
  have hbegan : s.beganStopped ≠ true := fun hb => by cases hs.symm.trans (h.stopped hb)
  refine ⟨fun hb => ⟨rfl, fun ec ho => (h.before hb).2 ec ((hmem ec).mp ho)⟩, fun hb => ?_, ?_,
    fun ho => ?_, h.notBegun, fun _ => rfl, fun hb => absurd hb hbegan⟩
  · obtain ⟨ec, hec⟩ := h.after hb
    exact ⟨ec, (hmem ec).mpr hec⟩
  · rintro ⟨ec, hec⟩
    exact ⟨rfl, (h.failed ⟨ec, (hmem _).mp hec⟩).2⟩
  · rw [precedes_concat]
    exact iff_of_true rfl (.inr ⟨(hmem none).mp ho, rfl⟩)

theorem Traced.step (h : Traced ls s) (ht : step call s l = some t) : Traced (ls ++ [l]) t := by
  rcases step_cases ht with ⟨rfl, hs, rfl⟩ | ⟨ec, rfl, hs, rfl⟩ | ⟨rfl, hs, rfl⟩ | ⟨hl, hu⟩
  · exact h.begin hs
  · exact h.openAcceptor hs ec
  · exact h.close hs
  · exact h.untouched hl hu

/-- In every run in which the listen call has returned, the acceptor is closed (and a call
that began after `stop` failed) if and only if it never opened or `stop` closed it later. -/
theorem listen_leaves_closed_iff (call : ListenCall) (ls : List ServerStep) (t : Server)
    (h : run (Server.step call) fresh ls = some t) (r : Except ErrorCode Unit)
    (hr : t.listen = .returned r) :
    t.LeftClosed r ↔ OpenFails ls ∨ Precedes (.openAcceptor none) .close ls := by
  have ht : Traced ls t := run_trace fresh_traced (fun _ _ _ _ hs hstep => hs.step hstep) h
  have hafter : ¬ t.BeforeOpen := not_beforeOpen hr (by simp)
  constructor
  · rintro ⟨hclosed, -⟩
    obtain ⟨ec, hec⟩ := ht.after hafter
    cases ec with
    | some ec => exact .inl ⟨ec, hec⟩
    | none => exact .inr ((ht.opened hec).mp hclosed)
  · rintro (hfails | hprecedes)
    · obtain ⟨hclosed, ec, hec⟩ := ht.failed hfails
      exact ⟨hclosed, fun _ => ⟨ec, ListenStage.returned.inj (hr.symm.trans hec)⟩⟩
    · have hclosed := (ht.opened hprecedes.mem).mpr hprecedes
      refine ⟨hclosed, fun hb => ?_⟩
      rw [ht.kept hb hprecedes.mem] at hclosed
      cases hclosed

def plainListen : ListenCall := ⟨false, .default⟩

/- `stop` while the call waits for a client. -/
def stopWhileWaiting : List ServerStep :=
  [.begin, .openAcceptor none, .setOption none, .bind none, .listen none, .isStopped, .store,
    .cancelBase none, .cancel false, .close, .accept (.error (.asio .operation_aborted))]

theorem listen_leaves_closed_stopped :
    ∃ t, run (Server.step plainListen) fresh stopWhileWaiting = some t ∧
      t.listen = .returned (.ok ()) ∧ t.LeftClosed (.ok ()) := by
  let t : Server := ⟨false, true, .returned (.ok ()), .over, [], false, [], []⟩
  have hrun : run (Server.step plainListen) fresh stopWhileWaiting = some t := rfl
  refine ⟨t, hrun, rfl, (listen_leaves_closed_iff plainListen stopWhileWaiting t hrun _ rfl).mpr
    (.inr ⟨[.begin, .openAcceptor none], _, rfl, ?_, ?_⟩)⟩
  · simp
  · simp

/- The port is in use. -/
def bindFails : List ServerStep :=
  [.begin, .openAcceptor none, .setOption none, .bind (some (.other 0 98))]

/- `stop` throws on an acceptor that is not open. -/
def listenAfterStop : List ServerStep :=
  [.store, .cancelBase (some bad_descriptor), .cancel true, .begin, .openAcceptor none,
    .setOption none, .bind none, .listen none, .isStopped]

theorem listen_leaves_open :
    (∃ t r, run (Server.step plainListen) fresh bindFails = some t ∧ t.listen = .returned r ∧
      ¬ t.LeftClosed r) ∧
    ∃ t, run (Server.step plainListen) fresh listenAfterStop = some t ∧ t.beganStopped = true ∧
      t.listen = .returned (.ok ()) ∧ t.acceptorOpen = true := by
  refine ⟨⟨⟨true, false, .returned (.error (.network .SOCKET_CREATE_FAILED)), .notCalled, [], false,
    [], []⟩, _, rfl, rfl, fun h => Bool.noConfusion h.1⟩,
    ⟨true, true, .returned (.ok ()), .over, [], true, [], []⟩, rfl, rfl, rfl, rfl⟩

end Server

end NetworkStack
