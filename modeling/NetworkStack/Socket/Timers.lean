import NetworkStack.Lib.Machine
import NetworkStack.Socket.SocketBase

/-!
# Time limits at work (socket/details/SocketBaseDetail.h, socket/TcpSocket.cpp)

`asyncReadWithTimeout` and `asyncWriteAllCommon` arm a timer whose handler sets the frame's
`timed_out` and cancels the socket, and then start a transport operation. Threads of the pool
run what is queued in any order, so the steps of any number of operations on one socket
interleave, also with what stands between the timer and the start. `timer.cancel()` does not
call back a handler that is queued already, and cancelling the socket aborts every operation
that is pending on it, but none that has not been started.

A handler is two steps: it stores the flag, then it cancels. A whole write is one transport
operation here, and one that finds the socket closed beforehand is not a call.
-/

namespace NetworkStack

open Machine

/- asio reports an operation on a closed socket as `bad_descriptor`. -/
def badDescriptor : ErrorCode := .other 0 9

/-- The transport operation: not started, under way, or its completion handler is queued. -/
inductive TransportStage where
  | idle
  | pending
  | completed (r : Except ErrorCode Bytes)
  deriving DecidableEq

inductive TimerStage where
  | waiting
  /-- The time is over and the handler is queued without an error. -/
  | expired
  /-- The handler is queued with `operation_aborted`. -/
  | cancelled
  /-- The handler has stored the flag and goes on to cancel the socket. -/
  | cancelling
  | done
  deriving DecidableEq

/- A call and its frame; the frame is gone when there is a result. -/
structure TimedCall where
  transport : TransportStage
  timer : TimerStage
  timed_out : Bool
  result : Option (Except ErrorCode Bytes)
  deriving DecidableEq

namespace TimedCall

/-- The timer waits, and nothing has been started. -/
def armed : TimedCall := ⟨.idle, .waiting, false, none⟩

def started (isOpen : Bool) : TransportStage :=
  if isOpen then .pending else .completed (.error badDescriptor)

def start (isOpen : Bool) (c : TimedCall) : Option TimedCall :=
  if c.transport = .idle then some { c with transport := started isOpen } else none

/-- Bytes were transferred, or `abort` before that. -/
def complete (r : Except ErrorCode Bytes) (c : TimedCall) : Option TimedCall :=
  if c.transport = .pending ∧ r ≠ .error (.asio .operation_aborted) then
    some { c with transport := .completed r }
  else none

def abort (c : TimedCall) : TimedCall :=
  match c.transport with
  | .pending => { c with transport := .completed (.error (.asio .operation_aborted)) }
  | _ => c

def expire (c : TimedCall) : Option TimedCall :=
  if c.timer = .waiting then some { c with timer := .expired } else none

/- The flag stands in the frame: without it the store goes elsewhere. -/
def handler (c : TimedCall) : Option TimedCall :=
  match c.timer with
  | .expired => some { c with timer := .cancelling, timed_out := c.timed_out || c.result.isNone }
  | .cancelled => some { c with timer := .done }
  | _ => none

def cancel (c : TimedCall) : Option TimedCall :=
  if c.timer = .cancelling then some { c with timer := .done } else none

def returned (timed_out : Bool) : Except ErrorCode Bytes → Except ErrorCode Bytes
  | .ok bytes => .ok bytes
  | .error ec => .error (SocketDetail.faultCode ⟨ec, timed_out⟩)

/-- From the completion of the transport operation to the `co_return`. -/
def resume (c : TimedCall) : Option TimedCall :=
  match c.transport, c.result with
  | .completed r, none =>
    some { c with
      timer := if c.timer = .waiting then .cancelled else c.timer
      result := some (returned c.timed_out r) }
  | _, _ => none

end TimedCall

/- `stray` lists the calls whose handler stored into a frame that was gone. -/
structure TimedSocket where
  isOpen : Bool
  calls : List TimedCall
  stray : List ℕ
  deriving DecidableEq

inductive TimedStep where
  | arm (i : ℕ)
  | start (i : ℕ)
  | complete (i : ℕ) (r : Except ErrorCode Bytes)
  | expire (i : ℕ)
  | handler (i : ℕ)
  | cancel (i : ℕ)
  | resume (i : ℕ)
  | cancelSocket
  | closeSocket
  deriving DecidableEq

namespace TimedSocket

def fresh : TimedSocket := ⟨true, [], []⟩

def cancelSocket (s : TimedSocket) : TimedSocket :=
  if s.isOpen then { s with calls := s.calls.map TimedCall.abort } else s

def closeSocket (s : TimedSocket) : TimedSocket := { s.cancelSocket with isOpen := false }

def update (s : TimedSocket) (i : ℕ) (f : TimedCall → Option TimedCall) : Option TimedSocket :=
  match s.calls[i]? with
  | none => none
  | some c =>
    match f c with
    | none => none
    | some d => some { s with calls := s.calls.set i d }

/-- The handler of call `i` would store into a frame that is gone. -/
def strays (s : TimedSocket) (i : ℕ) : Bool :=
  match s.calls[i]? with
  | none => false
  | some c => c.timer = .expired && c.result.isSome

def step (s : TimedSocket) : TimedStep → Option TimedSocket
  | .arm i =>
    if i = s.calls.length then some { s with calls := s.calls ++ [TimedCall.armed] } else none
  | .start i => s.update i (TimedCall.start s.isOpen)
  | .complete i r => s.update i (TimedCall.complete r)
  | .expire i => s.update i TimedCall.expire
  | .handler i =>
    (s.update i TimedCall.handler).map fun t =>
      { t with stray := if s.strays i then s.stray ++ [i] else s.stray }
  | .cancel i => (s.update i TimedCall.cancel).map cancelSocket
  | .resume i => s.update i TimedCall.resume
  | .cancelSocket => some s.cancelSocket
  | .closeSocket => some s.closeSocket

end TimedSocket

/-! ### What a step does to one call -/

namespace TimedStep

/-- The step cancels the socket. -/
def Cancels : TimedStep → Prop
  | .cancel _ => True
  | .cancelSocket => True
  | .closeSocket => True
  | _ => False

/-- The step is one of call `i`, which has been armed. -/
def Of (i : ℕ) (l : TimedStep) : Prop :=
  l = .start i ∨ (∃ r, l = .complete i r) ∨ l = .expire i ∨ l = .handler i ∨ l = .cancel i ∨
    l = .resume i

end TimedStep

namespace TimedCall

def abortIf (isOpen : Bool) (c : TimedCall) : TimedCall := if isOpen then c.abort else c

/- Call `i` of a socket, before and after a step. -/
inductive Moves (isOpen : Bool) (i : ℕ) : TimedStep → TimedCall → TimedCall → Prop where
  | starts {c : TimedCall} (hidle : c.transport = .idle) :
      Moves isOpen i (.start i) c { c with transport := started isOpen }
  | completes {c : TimedCall} (r : Except ErrorCode Bytes) (hpending : c.transport = .pending)
      (hr : r ≠ .error (.asio .operation_aborted)) :
      Moves isOpen i (.complete i r) c { c with transport := .completed r }
  | expires {c : TimedCall} (htimer : c.timer = .waiting) :
      Moves isOpen i (.expire i) c { c with timer := .expired }
  | stores {c : TimedCall} (htimer : c.timer = .expired) :
      Moves isOpen i (.handler i) c
        { c with timer := .cancelling, timed_out := c.timed_out || c.result.isNone }
  | drops {c : TimedCall} (htimer : c.timer = .cancelled) :
      Moves isOpen i (.handler i) c { c with timer := .done }
  | cancels {c : TimedCall} (htimer : c.timer = .cancelling) :
      Moves isOpen i (.cancel i) c (abortIf isOpen { c with timer := .done })
  | resumes {c : TimedCall} (r : Except ErrorCode Bytes) (hcompleted : c.transport = .completed r)
      (hrunning : c.result = none) :
      Moves isOpen i (.resume i) c { c with
        timer := if c.timer = .waiting then .cancelled else c.timer
        result := some (returned c.timed_out r) }
  | aborts {l : TimedStep} {c : TimedCall} (hl : l.Cancels) (hne : ¬ l.Of i) :
      Moves isOpen i l c (abortIf isOpen c)
  | stays {l : TimedStep} {c : TimedCall} (hl : ¬ l.Cancels) (hne : ¬ l.Of i)
      (harm : l ≠ .arm i) : Moves isOpen i l c c

end TimedCall

namespace TimedSocket

open TimedCall

variable {s t : TimedSocket} {l : TimedStep} {i : ℕ} {c d : TimedCall}

theorem update_some {f : TimedCall → Option TimedCall} (h : s.update i f = some t) :
    ∃ c d, s.calls[i]? = some c ∧ f c = some d ∧ t = { s with calls := s.calls.set i d } := by
  unfold update at h
  split at h
  · cases h
  · rename_i c hc
    split at h
    · cases h
    · rename_i d hd
      exact ⟨c, d, hc, hd, (Option.some.inj h).symm⟩

theorem calls_cancelSocket (s : TimedSocket) (i : ℕ) :
    s.cancelSocket.calls[i]? = (s.calls[i]?).map (abortIf s.isOpen) := by
  unfold cancelSocket abortIf
  cases hopen : s.isOpen with
  | true => simp
  | false => simp

theorem getElem?_set_cases (hi : s.calls[i]? = some c) {j : ℕ} {e : TimedCall}
    (h : (s.calls.set i d)[j]? = some e) :
    (j = i ∧ e = d) ∨ (j ≠ i ∧ s.calls[j]? = some e) := by
  by_cases hji : j = i
  · subst hji
    rw [List.getElem?_set_self (List.getElem?_eq_some_iff.mp hi).1] at h
    exact .inl ⟨rfl, (Option.some.inj h).symm⟩
  · rw [List.getElem?_set_ne (Ne.symm hji)] at h
    exact .inr ⟨hji, h⟩

/- Only call `i` of the socket moves. -/
theorem update_moves {f : TimedCall → Option TimedCall} (h : s.update i f = some t)
    (hf : ∀ c d, f c = some d → Moves s.isOpen i l c d) (hl : ¬ l.Cancels)
    (hne : ∀ j, j ≠ i → ¬ l.Of j ∧ l ≠ .arm j) {j : ℕ} (hj : t.calls[j]? = some d) :
    ∃ c, s.calls[j]? = some c ∧ Moves s.isOpen j l c d := by
  obtain ⟨c, e, hc, he, rfl⟩ := update_some h
  rcases getElem?_set_cases hc hj with ⟨rfl, rfl⟩ | ⟨hji, hd⟩
  · exact ⟨c, hc, hf c d he⟩
  · exact ⟨d, hd, .stays hl (hne j hji).1 (hne j hji).2⟩

theorem moves_start {isOpen : Bool} (h : TimedCall.start isOpen c = some d) :
    Moves isOpen i (.start i) c d := by
  unfold TimedCall.start at h
  split at h
  · rename_i hidle
    cases h
    exact .starts hidle
  · cases h

theorem moves_complete {isOpen : Bool} {r : Except ErrorCode Bytes}
    (h : TimedCall.complete r c = some d) : Moves isOpen i (.complete i r) c d := by
  unfold TimedCall.complete at h
  split at h
  · rename_i hc
    cases h
    exact .completes r hc.1 hc.2
  · cases h

theorem moves_expire {isOpen : Bool} (h : TimedCall.expire c = some d) :
    Moves isOpen i (.expire i) c d := by
  unfold TimedCall.expire at h
  split at h
  · rename_i hc
    cases h
    exact .expires hc
  · cases h

theorem moves_handler {isOpen : Bool} (h : TimedCall.handler c = some d) :
    Moves isOpen i (.handler i) c d := by
  unfold TimedCall.handler at h
  split at h
  · rename_i hc
    cases h
    exact .stores hc
  · rename_i hc
    cases h
    exact .drops hc
  · cases h

theorem moves_resume {isOpen : Bool} (h : TimedCall.resume c = some d) :
    Moves isOpen i (.resume i) c d := by
  unfold TimedCall.resume at h
  split at h
  · rename_i r hr hnone
    cases h
    exact .resumes r hr hnone
  · cases h

theorem moves_cancelSocket (hl : l.Cancels) (hne : ¬ l.Of i)
    (h : s.cancelSocket.calls[i]? = some d) :
    ∃ c, s.calls[i]? = some c ∧ Moves s.isOpen i l c d := by
  rw [calls_cancelSocket] at h
  obtain ⟨c, hc, rfl⟩ := Option.map_eq_some_iff.mp h
  exact ⟨c, hc, .aborts hl hne⟩

/-- A call of the socket after a step has just been armed, or it has moved. -/
theorem step_call (h : step s l = some t) {j : ℕ} (hj : t.calls[j]? = some d) :
    (l = .arm j ∧ j = s.calls.length ∧ d = armed) ∨
      ∃ c, s.calls[j]? = some c ∧ Moves s.isOpen j l c d := by
  cases l with
  | arm i =>
    simp only [step] at h
    split at h
    · rename_i hi
      cases h
      by_cases hlt : j < s.calls.length
      · rw [List.getElem?_append_left hlt] at hj
        refine .inr ⟨d, hj, .stays (fun hc => hc) (by simp [TimedStep.Of]) ?_⟩
        intro harm
        cases harm
        omega
      · have hlen := (List.getElem?_eq_some_iff.mp hj).1
        rw [List.length_append, List.length_singleton] at hlen
        obtain rfl : j = s.calls.length := by omega
        rw [List.getElem?_concat_length] at hj
        cases hj
        exact .inl ⟨by rw [hi], rfl, rfl⟩
    · cases h
  | start i =>
    refine .inr (update_moves h (fun _ _ => moves_start) (fun hc => hc) (fun k hk => ?_) hj)
    simp [TimedStep.Of, Ne.symm hk]
  | complete i r =>
    refine .inr (update_moves h (fun _ _ => moves_complete) (fun hc => hc) (fun k hk => ?_) hj)
    simp [TimedStep.Of, Ne.symm hk]
  | expire i =>
    refine .inr (update_moves h (fun _ _ => moves_expire) (fun hc => hc) (fun k hk => ?_) hj)
    simp [TimedStep.Of, Ne.symm hk]
  | handler i =>
    obtain ⟨u, hu, rfl⟩ := Option.map_eq_some_iff.mp h
    refine .inr (update_moves hu (fun _ _ => moves_handler) (fun hc => hc) (fun k hk => ?_) hj)
    simp [TimedStep.Of, Ne.symm hk]
  | cancel i =>
    obtain ⟨u, hu, rfl⟩ := Option.map_eq_some_iff.mp h
    obtain ⟨c, e, hc, he, rfl⟩ := update_some hu
    rw [calls_cancelSocket] at hj
    obtain ⟨e', he', rfl⟩ := Option.map_eq_some_iff.mp hj
    rcases getElem?_set_cases hc he' with ⟨rfl, rfl⟩ | ⟨hji, hd⟩
    · refine .inr ⟨c, hc, ?_⟩
      unfold TimedCall.cancel at he
      split at he
      · rename_i htimer
        cases he
        exact .cancels htimer
      · cases he
    · exact .inr ⟨e', hd, .aborts trivial (by simp [TimedStep.Of, Ne.symm hji])⟩
  | resume i =>
    refine .inr (update_moves h (fun _ _ => moves_resume) (fun hc => hc) (fun k hk => ?_) hj)
    simp [TimedStep.Of, Ne.symm hk]
  | cancelSocket =>
    cases h
    exact .inr (moves_cancelSocket trivial (by simp [TimedStep.Of]) hj)
  | closeSocket =>
    cases h
    exact .inr (moves_cancelSocket trivial (by simp [TimedStep.Of]) hj)

end TimedSocket

/-! ### What the steps so far say of a call -/

namespace TimedCall

/- The timer, the flag and the result of call `i` after the steps `ls`. -/
structure Timing (ls : List TimedStep) (i : ℕ) (c : TimedCall) : Prop where
  running : c.result = none ↔ .resume i ∉ ls
  waiting : c.timer = .waiting → c.result = none
  cancelled : c.timer = .cancelled → c.result ≠ none
  unexpired : c.timer = .waiting ∨ c.timer = .cancelled → .expire i ∉ ls
  expired : c.timer = .expired ∨ c.timer = .cancelling →
    .expire i ∈ ls ∧ (c.result ≠ none → Precedes (.expire i) (.resume i) ls)
  cancelling : c.timer = .cancelling → .handler i ∈ ls
  flag : c.timed_out = true ↔
    (c.result = none ∧ .handler i ∈ ls) ∨ Precedes (.handler i) (.resume i) ls
  late : c.timed_out = true → Precedes (.expire i) (.handler i) ls

variable {ls : List TimedStep} {isOpen : Bool} {i : ℕ} {l : TimedStep} {c d : TimedCall}

/- Aborting the transport operation changes nothing else. -/
theorem abortIf_frame (isOpen : Bool) (c : TimedCall) :
    (abortIf isOpen c).timer = c.timer ∧ (abortIf isOpen c).timed_out = c.timed_out ∧
      (abortIf isOpen c).result = c.result := by
  unfold abortIf abort
  split
  · split
    · exact ⟨rfl, rfl, rfl⟩
    · exact ⟨rfl, rfl, rfl⟩
  · exact ⟨rfl, rfl, rfl⟩

theorem Timing.aborted (h : Timing ls i c) (isOpen : Bool) : Timing ls i (abortIf isOpen c) := by
  obtain ⟨htimer, hflag, hresult⟩ := abortIf_frame isOpen c
  constructor
  · rw [hresult]
    exact h.running
  · rw [htimer, hresult]
    exact h.waiting
  · rw [htimer, hresult]
    exact h.cancelled
  · rw [htimer]
    exact h.unexpired
  · rw [htimer, hresult]
    exact h.expired
  · rw [htimer]
    exact h.cancelling
  · rw [hflag, hresult]
    exact h.flag
  · rw [hflag]
    exact h.late

theorem Timing.stays (h : Timing ls i c) (hne : ¬ l.Of i) : Timing (ls ++ [l]) i c := by
  obtain ⟨hrunning, hwaiting, hcancelled, hunexpired, hexpired, hcancelling, hflag, hlate⟩ := h
  constructor <;> grind -ring -linarith [precedes_concat, TimedStep.Of]

theorem Timing.moves (h : Timing ls i c) (hm : Moves isOpen i l c d) : Timing (ls ++ [l]) i d := by
  cases hm with
  | cancels htimer =>
    refine Timing.aborted ?_ isOpen
    obtain ⟨hrunning, hwaiting, hcancelled, hunexpired, hexpired, hcancelling, hflag, hlate⟩ := h
    constructor <;> grind -ring -linarith [precedes_concat]
  | aborts hl hne => exact (h.stays hne).aborted isOpen
  | stays hl hne harm => exact h.stays hne
  | starts hidle =>
    obtain ⟨hrunning, hwaiting, hcancelled, hunexpired, hexpired, hcancelling, hflag, hlate⟩ := h
    constructor <;> grind -ring -linarith [precedes_concat]
  | completes r hpending hr =>
    obtain ⟨hrunning, hwaiting, hcancelled, hunexpired, hexpired, hcancelling, hflag, hlate⟩ := h
    constructor <;> grind -ring -linarith [precedes_concat]
  | expires htimer =>
    obtain ⟨hrunning, hwaiting, hcancelled, hunexpired, hexpired, hcancelling, hflag, hlate⟩ := h
    constructor <;> grind -ring -linarith [precedes_concat]
  | stores htimer =>
    obtain ⟨hrunning, hwaiting, hcancelled, hunexpired, hexpired, hcancelling, hflag, hlate⟩ := h
    constructor <;> grind -ring -linarith [precedes_concat, Option.isNone_iff_eq_none]
  | drops htimer =>
    obtain ⟨hrunning, hwaiting, hcancelled, hunexpired, hexpired, hcancelling, hflag, hlate⟩ := h
    constructor <;> grind -ring -linarith [precedes_concat]
  | resumes r hcompleted hnone =>
    obtain ⟨hrunning, hwaiting, hcancelled, hunexpired, hexpired, hcancelling, hflag, hlate⟩ := h
    constructor <;> grind -ring -linarith [precedes_concat, Precedes.mem]

/- The transport operation of call `i` after the steps `ls`. What aborted it came behind its
start; its own handler had set the flag by then. -/
structure Transfer (ls : List TimedStep) (isOpen : Bool) (i : ℕ) (c : TimedCall) : Prop where
  idle : c.transport = .idle ↔ .start i ∉ ls
  unreturned : (∀ r, c.transport ≠ .completed r) → c.result = none
  pending : c.transport = .pending →
    isOpen = true ∧ ∀ k : TimedStep, k.Cancels → ¬ Precedes (.start i) k ls
  completed : ∀ r, .complete i r ∈ ls →
    c.transport = .completed r ∧ r ≠ .error (.asio .operation_aborted)
  closed : Precedes .closeSocket (.start i) ls → c.transport = .completed (.error badDescriptor)
  origin : ∀ r, c.transport = .completed r → .complete i r ∈ ls ∨
    (Precedes .closeSocket (.start i) ls ∧ r = .error badDescriptor) ∨
    (¬ Precedes .closeSocket (.start i) ls ∧ r = .error (.asio .operation_aborted) ∧
      ∃ k : TimedStep, k.Cancels ∧ Precedes (.start i) k ls ∧
        (c.result ≠ none → Precedes k (.resume i) ls) ∧ (k = .cancel i → c.timed_out = true))
  result : ∀ r, c.result = some r → ∃ q, c.transport = .completed q ∧ r = returned c.timed_out q
  done : .cancel i ∈ ls → c.timer = .done
  cancelled : c.timer = .done → c.result = none → .cancel i ∈ ls

theorem Transfer.moves (h : Transfer ls isOpen i c) (ht : Timing ls i c)
    (hclosed : isOpen = true ↔ .closeSocket ∉ ls) (hm : Moves isOpen i l c d) :
    Transfer (ls ++ [l]) (isOpen && l ≠ .closeSocket) i d := by
  obtain ⟨hidle, hunreturned, hpend, hcompl, hclose, horigin, hresult, hdone, hcancelled⟩ := h
  cases hm with
  | starts hnone =>
    have hrunning := hunreturned (fun r hr => by rw [hnone] at hr; cases hr)
    constructor <;>
      grind -ring -linarith [precedes_concat, Precedes.mem, Precedes.mem_right, started,
        TimedStep.Cancels]
  | completes r hpending hr =>
    constructor <;> grind -ring -linarith [precedes_concat, TimedStep.Cancels]
  | expires htimer =>
    constructor <;> grind -ring -linarith [precedes_concat, TimedStep.Cancels]
  | stores htimer =>
    constructor <;>
      grind -ring -linarith [precedes_concat, Option.isNone_iff_eq_none, TimedStep.Cancels]
  | drops htimer =>
    have hreturned := ht.cancelled htimer
    constructor <;> grind -ring -linarith [precedes_concat, TimedStep.Cancels]
  | cancels htimer =>
    have hran := ht.cancelling htimer
    have hflag := ht.flag
    have hown : TimedStep.Cancels (.cancel i) := trivial
    constructor <;> grind -ring -linarith [precedes_concat, Precedes.mem, abortIf, abort]
  | resumes r hcompleted hnone =>
    constructor <;> grind -ring -linarith [precedes_concat, Precedes.mem, Precedes.mem_right]
  | aborts hl hne =>
    constructor <;>
      grind -ring -linarith [precedes_concat, Precedes.mem, abortIf, abort, TimedStep.Of]
  | stays hl hne harm =>
    constructor <;> grind -ring -linarith [precedes_concat, TimedStep.Of, TimedStep.Cancels]

end TimedCall

namespace TimedSocket

open TimedCall

variable {s t : TimedSocket} {l : TimedStep} {ls : List TimedStep} {i : ℕ} {c : TimedCall}

/- What the steps `ls` from a fresh socket on have led to. -/
structure Recorded (ls : List TimedStep) (s : TimedSocket) : Prop where
  opened : s.isOpen = true ↔ .closeSocket ∉ ls
  numbered : ∀ l ∈ ls, ∀ i, l = .arm i ∨ l.Of i → i < s.calls.length
  timing : ∀ i c, s.calls[i]? = some c → Timing ls i c
  transfer : ∀ i c, s.calls[i]? = some c → Transfer ls s.isOpen i c

theorem length_cancelSocket (s : TimedSocket) : s.cancelSocket.calls.length = s.calls.length := by
  unfold cancelSocket
  split
  · exact List.length_map ..
  · rfl

theorem isOpen_cancelSocket (s : TimedSocket) : s.cancelSocket.isOpen = s.isOpen := by
  unfold cancelSocket
  split
  · rfl
  · rfl

/- The frame of a step. -/
theorem step_frame (h : step s l = some t) :
    t.isOpen = (s.isOpen && l ≠ .closeSocket) ∧ s.calls.length ≤ t.calls.length ∧
      ∀ i, l = .arm i ∨ l.Of i → i < t.calls.length := by
  have hupdate : ∀ {f : TimedCall → Option TimedCall} {i : ℕ} {u : TimedSocket},
      s.update i f = some u →
      u.isOpen = s.isOpen ∧ u.calls.length = s.calls.length ∧ i < u.calls.length := by
    intro f i u hu
    obtain ⟨c, d, hc, -, rfl⟩ := update_some hu
    refine ⟨rfl, List.length_set, ?_⟩
    rw [List.length_set]
    exact (List.getElem?_eq_some_iff.mp hc).1
  cases l with
  | arm i =>
    simp only [step] at h
    split at h
    · rename_i hi
      cases h
      simp [TimedStep.Of, hi]
    · cases h
  | start i =>
    obtain ⟨hopen, hlen, hi⟩ := hupdate h
    simpa [TimedStep.Of, hopen, hlen] using hlen ▸ hi
  | complete i r =>
    obtain ⟨hopen, hlen, hi⟩ := hupdate h
    simpa [TimedStep.Of, hopen, hlen] using hlen ▸ hi
  | expire i =>
    obtain ⟨hopen, hlen, hi⟩ := hupdate h
    simpa [TimedStep.Of, hopen, hlen] using hlen ▸ hi
  | handler i =>
    obtain ⟨u, hu, rfl⟩ := Option.map_eq_some_iff.mp h
    obtain ⟨hopen, hlen, hi⟩ := hupdate hu
    simpa [TimedStep.Of, hopen, hlen] using hlen ▸ hi
  | cancel i =>
    obtain ⟨u, hu, rfl⟩ := Option.map_eq_some_iff.mp h
    obtain ⟨hopen, hlen, hi⟩ := hupdate hu
    simpa [TimedStep.Of, isOpen_cancelSocket, length_cancelSocket, hopen, hlen] using hlen ▸ hi
  | resume i =>
    obtain ⟨hopen, hlen, hi⟩ := hupdate h
    simpa [TimedStep.Of, hopen, hlen] using hlen ▸ hi
  | cancelSocket =>
    cases h
    simp [TimedStep.Of, isOpen_cancelSocket, length_cancelSocket]
  | closeSocket =>
    cases h
    simp [TimedStep.Of, closeSocket, length_cancelSocket]

theorem Recorded.step (h : Recorded ls s) (hstep : step s l = some t) :
    Recorded (ls ++ [l]) t := by
  obtain ⟨hopen, hlen, hnumbered⟩ := step_frame hstep
  refine ⟨?_, ?_, ?_, ?_⟩
  · have := h.opened
    grind
  · intro k hk i hi
    rcases List.mem_append.mp hk with hk | hk
    · exact Nat.lt_of_lt_of_le (h.numbered k hk i hi) hlen
    · exact hnumbered i (List.mem_singleton.mp hk ▸ hi)
  · intro j d hj
    rcases step_call hstep hj with ⟨rfl, hlast, rfl⟩ | ⟨c, hc, hm⟩
    · have hnew : ∀ l ∈ ls, ¬ (l = .arm j ∨ l.Of j) :=
        fun l hl hof => by have := h.numbered l hl j hof; omega
      constructor <;> grind [precedes_concat, Precedes.mem, Precedes.mem_right, TimedCall.armed,
        TimedStep.Of]
    · exact (h.timing j c hc).moves hm
  · intro j d hj
    rw [hopen]
    rcases step_call hstep hj with ⟨rfl, hlast, rfl⟩ | ⟨c, hc, hm⟩
    · have hnew : ∀ l ∈ ls, ¬ (l = .arm j ∨ l.Of j) :=
        fun l hl hof => by have := h.numbered l hl j hof; omega
      have hstart : .start j ∉ ls := fun hl => hnew _ hl (.inr (.inl rfl))
      constructor <;> grind [precedes_concat, Precedes.mem_right, TimedCall.armed, TimedStep.Of]
    · exact (h.transfer j c hc).moves (h.timing j c hc) h.opened hm

theorem recorded_run (h : run step fresh ls = some s) : Recorded ls s := by
  refine run_trace ⟨by simp [fresh], by simp, ?_, ?_⟩ (fun _ _ _ _ hs => hs.step) h
  · intro i c hc
    cases hc
  · intro i c hc
    cases hc

/-! ### What a call returns -/

/- The result of call `i` told from the steps: what the transport did, and which of the
steps that end the call came first. -/
structure Verdict (ls : List TimedStep) (i : ℕ) (r : Except ErrorCode Bytes) : Prop where
  transferred : ∀ q, .complete i q ∈ ls → r = q
  closed : Precedes .closeSocket (.start i) ls → r = .error badDescriptor
  timeout : (∀ q, .complete i q ∉ ls) → ¬ Precedes .closeSocket (.start i) ls →
    Precedes (.handler i) (.resume i) ls →
      r = .error SocketDetail.makeTimeoutError ∧ Precedes (.expire i) (.handler i) ls
  aborted : (∀ q, .complete i q ∉ ls) → ¬ Precedes .closeSocket (.start i) ls →
    ¬ Precedes (.handler i) (.resume i) ls →
      r = .error (.asio .operation_aborted) ∧ ∃ k : TimedStep, k.Cancels ∧ k ≠ .cancel i ∧
        Precedes (.start i) k ls ∧ Precedes k (.resume i) ls

theorem returned_eq {q : Except ErrorCode Bytes} (hq : q ≠ .error (.asio .operation_aborted))
    (timed_out : Bool) : returned timed_out q = q := by
  cases q with
  | ok bytes => rfl
  | error ec =>
    rw [returned, SocketDetail.faultCode, if_neg]
    rintro ⟨rfl, -⟩
    exact hq rfl

theorem returned_aborted (timed_out : Bool) :
    returned timed_out (.error (.asio .operation_aborted))
      = .error (if timed_out then SocketDetail.makeTimeoutError else .asio .operation_aborted) := by
  cases timed_out with
  | true => rfl
  | false => rfl

theorem Recorded.verdict (hrec : Recorded ls s) (hi : s.calls[i]? = some c)
    {r : Except ErrorCode Bytes} (hr : c.result = some r) : Verdict ls i r := by
  have htransfer := hrec.transfer i c hi
  have hflag := (hrec.timing i c hi).flag
  have hresult : c.result ≠ none := by rw [hr]; exact Option.some_ne_none r
  obtain ⟨q, hq, hrq⟩ := htransfer.result r hr
  rw [hrq]
  -- an operation that neither the transport completed nor a closed socket was aborted
  have haborted : (∀ p, .complete i p ∉ ls) → ¬ Precedes .closeSocket (.start i) ls →
      q = .error (.asio .operation_aborted) ∧ ∃ k : TimedStep, k.Cancels ∧
        (k = .cancel i → c.timed_out = true) ∧ Precedes (.start i) k ls ∧
        Precedes k (.resume i) ls := by
    intro hnone hopen
    rcases htransfer.origin q hq with
      hdata | ⟨hclosed, -⟩ | ⟨-, habort, k, hk, hstart, hresume, hki⟩
    · exact absurd hdata (hnone q)
    · exact absurd hclosed hopen
    · exact ⟨habort, k, hk, hki, hstart, hresume hresult⟩
  refine ⟨fun p hp => ?_, fun hclosed => ?_, fun hnone hopen hran => ?_, fun hnone hopen hran => ?_⟩
  · obtain ⟨hpq, hne⟩ := htransfer.completed p hp
    obtain rfl : q = p := by simpa [hq] using hpq
    exact returned_eq hne _
  · have := htransfer.closed hclosed
    obtain rfl : q = .error badDescriptor := by simpa [hq] using this
    exact returned_eq (by decide) _
  · have htimed : c.timed_out = true := hflag.mpr (.inr hran)
    rw [(haborted hnone hopen).1, returned_aborted, htimed]
    exact ⟨rfl, (hrec.timing i c hi).late htimed⟩
  · have htimed : c.timed_out ≠ true := by
      rw [ne_eq, hflag]
      rintro (⟨hrunning, -⟩ | hbefore)
      · exact hresult hrunning
      · exact hran hbefore
    obtain ⟨rfl, k, hk, hki, hstart, hresume⟩ := haborted hnone hopen
    rw [returned_aborted, if_neg htimed]
    exact ⟨rfl, k, hk, fun hown => htimed (hki hown), hstart, hresume⟩

/-- On any number of calls on one socket, in whatever order their steps are taken: what the
transport completed is returned whatever the timers did; an aborted call returns a timeout
exactly when its own handler ran before it resumed, and otherwise something else has
cancelled the socket while it was under way. -/
theorem returned_verdict (h : run step fresh ls = some s) {r : Except ErrorCode Bytes}
    (hi : s.calls[i]? = some c) (hr : c.result = some r) : Verdict ls i r :=
  (recorded_run h).verdict hi hr

/- The first call gets its data and resumes with its expired handler still queued; the
second one is cancelled by it. -/
def staleSteps : List TimedStep :=
  [.arm 0, .start 0, .complete 0 (.ok [104]), .expire 0, .resume 0, .arm 1, .start 1, .handler 0,
    .cancel 0, .resume 1]

def staleSocket : TimedSocket :=
  ⟨true, [⟨.completed (.ok [104]), .done, false, some (.ok [104])⟩,
    ⟨.completed (.error (.asio .operation_aborted)), .cancelled, false,
      some (.error (.asio .operation_aborted))⟩], [0]⟩

theorem returned_verdict_stale :
    Verdict staleSteps 0 (.ok [104]) ∧
      Verdict staleSteps 1 (.error (.asio .operation_aborted)) := by
  have hrun : run step fresh staleSteps = some staleSocket := by decide
  exact ⟨returned_verdict hrun rfl rfl, returned_verdict hrun rfl rfl⟩

end TimedSocket

end NetworkStack
