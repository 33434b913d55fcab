import NetworkStack.Socket.Timers

/-!
# The handshake of a client and its time limit (client/Client.cpp)

A TLS handshake takes several transfers, one after the other. The handler of its timer
cancels the transport, which aborts the transfer that is pending; between two of them there
is none, and the handshake goes on.
-/

namespace NetworkStack

open Machine

inductive HandshakeStage where
  /-- The library is at work, or what was transferred is queued for it. -/
  | running
  | waiting
  /-- The completion is queued. -/
  | ended (hs_ec : Option ErrorCode)
  deriving DecidableEq

/- `passed` when the coroutine has gone on; `stray` when the timer's handler stored into its
frame after that. -/
structure Handshake where
  transport : HandshakeStage
  timer : TimerStage
  hs_timed_out : Bool
  passed : Bool
  stray : Bool
  deriving DecidableEq

inductive HandshakeStep where
  | wait
  | arrive (ec : Option ErrorCode)
  | finish (ec : Option ErrorCode)
  | expire
  | handler
  | cancel
  | resume
  deriving DecidableEq

namespace Handshake

def begun : Handshake := ⟨.running, .waiting, false, false, false⟩

def step (h : Handshake) : HandshakeStep → Option Handshake
  | .wait => if h.transport = .running then some { h with transport := .waiting } else none
  | .arrive ec =>
    if h.transport = .waiting ∧ ec ≠ some (.asio .operation_aborted) then
      some { h with transport := if ec = none then .running else .ended ec }
    else none
  | .finish ec =>
    if h.transport = .running ∧ ec ≠ some (.asio .operation_aborted) then
      some { h with transport := .ended ec }
    else none
  | .expire => if h.timer = .waiting then some { h with timer := .expired } else none
  | .handler =>
    match h.timer with
    | .expired =>
      some { h with
        timer := .cancelling
        hs_timed_out := h.hs_timed_out || !h.passed
        stray := h.stray || h.passed }
    | .cancelled => some { h with timer := .done }
    | _ => none
  | .cancel =>
    if h.timer = .cancelling then
      some { h with
        timer := .done
        transport :=
          if h.transport = .waiting then .ended (some (.asio .operation_aborted))
          else h.transport }
    else none
  | .resume =>
    match h.transport, h.passed with
    | .ended _, false =>
      some { h with timer := if h.timer = .waiting then .cancelled else h.timer, passed := true }
    | _, _ => none

end Handshake

/-! ### The order of its steps -/

namespace HandshakeStep

/-- After these steps a transfer is pending. -/
def InFlight (ls : List HandshakeStep) : Prop :=
  Since (fun l => l ≠ .cancel ∧ ∀ ec, l ≠ .arrive ec) (fun l => l = .wait) ls

/-- The timer's handler cancelled the transport while a transfer was pending. -/
def Interrupted (ls : List HandshakeStep) : Prop := TakenWhen InFlight .cancel ls

/- The steps that end a handshake. -/
def Ends (ls : List HandshakeStep) (hs_ec : Option ErrorCode) : Prop :=
  .finish hs_ec ∈ ls ∨ (hs_ec ≠ none ∧ .arrive hs_ec ∈ ls) ∨
    (hs_ec = some (.asio .operation_aborted) ∧ Interrupted ls)

variable {ls : List HandshakeStep} {l : HandshakeStep} {hs_ec : Option ErrorCode}

theorem inFlight_concat :
    InFlight (ls ++ [l]) ↔ l = .wait ∨ (l ≠ .cancel ∧ ∀ ec, l ≠ .arrive ec) ∧ InFlight ls :=
  since_concat

theorem interrupted_concat :
    Interrupted (ls ++ [l]) ↔ Interrupted ls ∨ l = .cancel ∧ InFlight ls :=
  takenWhen_concat

theorem ends_concat :
    Ends (ls ++ [l]) hs_ec ↔ Ends ls hs_ec ∨ l = .finish hs_ec ∨
      (hs_ec ≠ none ∧ l = .arrive hs_ec) ∨
      (hs_ec = some (.asio .operation_aborted) ∧ l = .cancel ∧ InFlight ls) := by
  simp only [Ends, List.mem_append, List.mem_singleton, interrupted_concat]
  grind

end HandshakeStep

namespace Handshake

open HandshakeStep

/- A handshake before and after a step. -/
inductive Moves : HandshakeStep → Handshake → Handshake → Prop where
  | waits {h : Handshake} (hrunning : h.transport = .running) :
      Moves .wait h { h with transport := .waiting }
  | arrives {h : Handshake} (hwaiting : h.transport = .waiting) :
      Moves (.arrive none) h { h with transport := .running }
  | breaks {h : Handshake} {hs_ec : ErrorCode} (hwaiting : h.transport = .waiting)
      (hec : hs_ec ≠ .asio .operation_aborted) :
      Moves (.arrive (some hs_ec)) h { h with transport := .ended (some hs_ec) }
  | finishes {h : Handshake} {hs_ec : Option ErrorCode} (hrunning : h.transport = .running)
      (hec : hs_ec ≠ some (.asio .operation_aborted)) :
      Moves (.finish hs_ec) h { h with transport := .ended hs_ec }
  | expires {h : Handshake} (htimer : h.timer = .waiting) :
      Moves .expire h { h with timer := .expired }
  | stores {h : Handshake} (htimer : h.timer = .expired) :
      Moves .handler h { h with
        timer := .cancelling
        hs_timed_out := h.hs_timed_out || !h.passed
        stray := h.stray || h.passed }
  | drops {h : Handshake} (htimer : h.timer = .cancelled) :
      Moves .handler h { h with timer := .done }
  | interrupts {h : Handshake} (htimer : h.timer = .cancelling)
      (hwaiting : h.transport = .waiting) :
      Moves .cancel h { h with
        timer := .done
        transport := .ended (some (.asio .operation_aborted)) }
  | misses {h : Handshake} (htimer : h.timer = .cancelling) (hidle : h.transport ≠ .waiting) :
      Moves .cancel h { h with timer := .done }
  | resumes {h : Handshake} {hs_ec : Option ErrorCode} (hended : h.transport = .ended hs_ec)
      (hover : h.passed = false) :
      Moves .resume h { h with
        timer := if h.timer = .waiting then .cancelled else h.timer
        passed := true }

variable {h t : Handshake} {ls : List HandshakeStep} {l : HandshakeStep}

theorem step_moves (hstep : h.step l = some t) : Moves l h t := by
  cases l with
  | wait =>
    obtain ⟨hrunning, ⟨⟩⟩ := Option.ite_none_right_eq_some.mp hstep
    exact .waits hrunning
  | arrive ec =>
    obtain ⟨⟨hwaiting, hec⟩, ⟨⟩⟩ := Option.ite_none_right_eq_some.mp hstep
    cases ec with
    | none => exact .arrives hwaiting
    | some hs_ec => exact .breaks hwaiting fun habort => hec (congrArg some habort)
  | finish ec =>
    obtain ⟨⟨hrunning, hec⟩, ⟨⟩⟩ := Option.ite_none_right_eq_some.mp hstep
    exact .finishes hrunning hec
  | expire =>
    obtain ⟨htimer, ⟨⟩⟩ := Option.ite_none_right_eq_some.mp hstep
    exact .expires htimer
  | handler =>
    simp only [step] at hstep
    split at hstep
    · rename_i htimer
      cases hstep
      exact .stores htimer
    · rename_i htimer
      cases hstep
      exact .drops htimer
    · cases hstep
  | cancel =>
    obtain ⟨htimer, ⟨⟩⟩ := Option.ite_none_right_eq_some.mp hstep
    by_cases hwaiting : h.transport = .waiting
    · rw [if_pos hwaiting]
      exact .interrupts htimer hwaiting
    · rw [if_neg hwaiting]
      exact .misses htimer hwaiting
  | resume =>
    simp only [step] at hstep
    split at hstep
    · rename_i hended hover
      cases hstep
      exact .resumes hended hover
    · cases hstep

/- Nothing that comes after the coroutine has gone on changes what it has read. -/
theorem Moves.kept (hm : Moves l h t) (hover : h.passed = true) {hs_ec : Option ErrorCode}
    (hended : h.transport = .ended hs_ec) :
    t.passed = true ∧ t.transport = .ended hs_ec ∧ t.hs_timed_out = h.hs_timed_out := by
  cases hm <;> grind

theorem Moves.passed (hm : Moves l h t) (hl : l ≠ .resume) : t.passed = h.passed := by
  cases hm with
  | resumes hended hover => exact absurd rfl hl
  | _ => rfl

/- What the steps `ls` have led to. -/
structure Transferred (ls : List HandshakeStep) (h : Handshake) : Prop where
  waiting : h.transport = .waiting ↔ InFlight ls
  ended : ∀ hs_ec, h.transport = .ended hs_ec ↔ Ends ls hs_ec
  resumed : h.passed = true → ∃ hs_ec, h.transport = .ended hs_ec
  own : .finish (some (.asio .operation_aborted)) ∉ ls ∧
    .arrive (some (.asio .operation_aborted)) ∉ ls

structure Recorded (ls : List HandshakeStep) (h : Handshake) : Prop extends
    Transferred ls h where
  passed : h.passed = true ↔ .resume ∈ ls
  unexpired : h.timer = .waiting ∨ h.timer = .cancelled → .expire ∉ ls
  running : h.timer = .waiting → h.passed = false
  cancelled : h.timer = .cancelled → h.passed = true
  cancelling : h.passed = false → h.timer = .cancelling → h.hs_timed_out = true
  done : h.passed = false → (h.timer = .done ↔ .cancel ∈ ls)
  aborted : h.transport = .ended (some (.asio .operation_aborted)) → h.hs_timed_out = true
  expired : h.timer = .expired →
    .expire ∈ ls ∧ (h.passed = true → Precedes .expire .resume ls)
  stray : h.stray = true ↔ Precedes .expire .resume ls ∧ Precedes .resume .handler ls

theorem Transferred.moves (hr : Transferred ls h) (hm : Moves l h t) :
    Transferred (ls ++ [l]) t := by
  obtain ⟨hwaiting, hended, hresumed, hown⟩ := hr
  cases hm <;> constructor <;> grind -ring -linarith [inFlight_concat, ends_concat]

theorem Recorded.moves (hr : Recorded ls h) (hm : Moves l h t) : Recorded (ls ++ [l]) t := by
  constructor
  · exact hr.toTransferred.moves hm
  all_goals
    obtain ⟨⟨-, -, hresumed, -⟩, hover, hunexpired, hrunning, hcancelled, hcancelling, hdone,
      haborted, hexpired, hstray⟩ := hr
    cases hm <;> grind -ring -linarith [precedes_concat, Precedes.mem]

theorem recorded_run (h : run step begun ls = some t) : Recorded ls t := by
  refine run_trace ?_ (fun _ _ _ _ hr hstep => hr.moves (step_moves hstep)) h
  constructor
  · constructor <;> simp [begun, Ends, InFlight, Interrupted, Since, TakenWhen]
  all_goals simp [begun, Precedes]

/-! ### The time limit -/

/-- The step needs nothing from the server. -/
def Local (l : HandshakeStep) : Prop := l = .wait ∨ l = .expire ∨ l = .handler ∨ l = .cancel

def CanEnd (h : Handshake) : Prop :=
  CanReach step Local (fun t => ∃ hs_ec, t.transport = .ended hs_ec) h

theorem canEnd_cancelling (hwaiting : h.transport = .waiting) (htimer : h.timer = .cancelling) :
    CanEnd h := by
  have hstep : step h .cancel = some { h with
      timer := .done
      transport := .ended (some (.asio .operation_aborted)) } := by
    simp only [step, htimer, hwaiting, if_true]
  exact canReach_step hstep (.inr (.inr (.inr rfl))) (canReach_refl ⟨_, rfl⟩)

theorem canEnd_expired (hwaiting : h.transport = .waiting) (htimer : h.timer = .expired) :
    CanEnd h := by
  have hstep : step h .handler = some { h with
      timer := .cancelling
      hs_timed_out := h.hs_timed_out || !h.passed
      stray := h.stray || h.passed } := by
    simp only [step, htimer]
  exact canReach_step hstep (.inr (.inr (.inl rfl))) (canEnd_cancelling hwaiting rfl)

theorem canEnd_waiting (hwaiting : h.transport = .waiting) (htimer : h.timer = .waiting) :
    CanEnd h := by
  have hstep : step h .expire = some { h with timer := .expired } := by
    simp only [step, htimer, if_true]
  exact canReach_step hstep (.inr (.inl rfl)) (canEnd_expired hwaiting rfl)

/-- A timer that has not cancelled the transport yet ends the handshake. -/
theorem canEnd_of_timer (hr : Recorded ls h) (hover : h.passed = false) (hdone : h.timer ≠ .done)
    (hwaiting : h.transport = .waiting) : CanEnd h := by
  cases htimer : h.timer with
  | waiting => exact canEnd_waiting hwaiting htimer
  | expired => exact canEnd_expired hwaiting htimer
  | cancelling => exact canEnd_cancelling hwaiting htimer
  | cancelled => cases hover.symm.trans (hr.cancelled htimer)
  | done => exact absurd htimer hdone

theorem Local.ne_resume (hl : Local l) : l ≠ .resume := by
  rintro rfl
  rcases hl with hl | hl | hl | hl <;> cases hl

theorem passed_run (hls : ∀ l ∈ ls, Local l) (hrun : run step h ls = some t) :
    t.passed = h.passed := by
  induction ls generalizing h with
  | nil =>
    cases hrun
    rfl
  | cons l ls ih =>
    obtain ⟨hl, hls⟩ := List.forall_mem_cons.mp hls
    obtain ⟨mid, hstep, hrest⟩ := run_cons hrun
    exact (ih hls hrest).trans ((step_moves hstep).passed hl.ne_resume)

/-- The timer's handler has cancelled the transport, and the handshake goes on. -/
def Missed (ls : List HandshakeStep) : Prop := .cancel ∈ ls ∧ ∀ hs_ec, ¬ Ends ls hs_ec

def Spent (h : Handshake) : Prop := h.timer = .done ∧ ∀ hs_ec, h.transport ≠ .ended hs_ec

theorem spent_moves (hspent : Spent h) (hl : Local l) (hm : Moves l h t) : Spent t := by
  obtain ⟨htimer, hended⟩ := hspent
  cases hm with
  | waits hrunning => exact ⟨htimer, fun _ => HandshakeStage.noConfusion⟩
  | expires hwaiting => cases htimer.symm.trans hwaiting
  | stores hexpired => cases htimer.symm.trans hexpired
  | drops hcancelled => cases htimer.symm.trans hcancelled
  | interrupts hcancelling hwaiting => cases htimer.symm.trans hcancelling
  | misses hcancelling hidle => cases htimer.symm.trans hcancelling
  | _ => rcases hl with hl | hl | hl | hl <;> cases hl

theorem Recorded.spent_iff (hr : Recorded ls h) (hover : h.passed = false) :
    Spent h ↔ Missed ls := by
  simp only [Spent, Missed, hr.done hover, ← hr.ended, ne_eq]

theorem not_canEnd (hspent : Spent h) : ¬ CanEnd h := by
  refine not_canReach (fun h l t hspent hl hstep => ?_) (fun h hspent hc => ?_) hspent
  · exact spent_moves hspent hl (step_moves hstep)
  · obtain ⟨ec, hec⟩ := hc
    exact hspent.2 ec hec

theorem canEnd_iff (hr : Recorded ls h) (hover : h.passed = false) : CanEnd h ↔ ¬ Missed ls := by
  rw [← hr.spent_iff hover]
  constructor
  · exact fun hend hspent => not_canEnd hspent hend
  · intro hspent
    cases htransport : h.transport with
    | ended ec => exact canReach_refl ⟨ec, htransport⟩
    | waiting =>
      refine canEnd_of_timer hr hover (fun hdone => hspent ⟨hdone, fun ec hec => ?_⟩) htransport
      cases htransport.symm.trans hec
    | running =>
      -- the library asks for a transfer first
      have hstep : step h .wait = some { h with transport := .waiting } := if_pos htransport
      refine canReach_step hstep (.inl rfl)
        (canEnd_of_timer (hr.moves (step_moves hstep)) hover (fun hdone => ?_) rfl)
      refine hspent ⟨hdone, fun ec hec => ?_⟩
      cases htransport.symm.trans hec

end Handshake

end NetworkStack
