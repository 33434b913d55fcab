import NetworkStack.Client.Handshake
import NetworkStack.Core.ErrorTranslation
import NetworkStack.Lib.ParallelGroup
import NetworkStack.Server.Listen

/-!
# Connecting (client/Client.cpp)

One call of `asyncConnect` or `asyncConnectTls`, step by step: the resolver, the parallel
group of the connection and its timer, the options, and the handshake with a timer of its
own. What the system and the TLS library do comes with the steps and with the call.
-/

namespace NetworkStack

open Machine ParallelGroup

/-! ### Options -/

/- The members of `TlsOptions` that a client's `applyPreConnectTlsOptions` reads. -/
structure TlsOptions where
  cipher_suites : List Bytes
  ecdh_curves : List Bytes
  enable_session_tickets : Bool
  verify_peer : Bool
  verify_depth : Int32

def TlsOptions.default : TlsOptions := ⟨[], [ascii "x25519", ascii "secp256r1"], true, false, 5⟩

/- What is set on a stream; `no_ticket` is `SSL_OP_NO_TICKET`. -/
structure TlsStream where
  cipher_list : Option Bytes
  curves_list : Option Bytes
  verify_peer : Bool
  verify_depth : Int32
  no_ticket : Bool
  deriving DecidableEq

/- Which lists the library takes. -/
structure TlsLibrary where
  set_cipher_list : Bytes → Bool
  set1_curves_list : Bytes → Bool

def joinColons (names : List Bytes) : Bytes := [58].intercalate names

/-- A list that is refused leaves the stream as it is, and the rest is set all the same. -/
def applyPreConnectTlsOptions (lib : TlsLibrary) (stream : TlsStream) (opts : TlsOptions) :
    Option ErrorCode × TlsStream :=
  let option_error := makeOptionError (.network .OPTION_ERROR)
  let (ec, stream) :=
    if opts.cipher_suites = [] then (none, stream)
    else if lib.set_cipher_list (joinColons opts.cipher_suites) then
      (none, { stream with cipher_list := some (joinColons opts.cipher_suites) })
    else (some option_error, stream)
  let (ec, stream) :=
    if opts.ecdh_curves = [] then (ec, stream)
    else if lib.set1_curves_list (joinColons opts.ecdh_curves) then
      (ec, { stream with curves_list := some (joinColons opts.ecdh_curves) })
    else (some option_error, stream)
  let stream := { stream with verify_peer := opts.verify_peer, verify_depth := opts.verify_depth }
  -- the flag is cleared either way
  let stream :=
    if opts.enable_session_tickets then
      { { stream with no_ticket := true } with no_ticket := false }
    else { stream with no_ticket := false }
  (ec, stream)

/-! ### The call -/

/- What is asked for, and what the connected socket and the library make of it; `stream` is
a stream of the new context, which a client always gets. -/
structure ConnectCall where
  tls : Bool
  tcp_opts : TcpOptions
  tls_opts : TlsOptions
  setOption : SocketOption → Option ErrorCode
  library : TlsLibrary
  stream : TlsStream

inductive ClientSocket where
  | tcp
  | tls (stream : TlsStream)
  deriving DecidableEq

abbrev ConnectResult := Except ErrorCode ClientSocket

/-! ### The coroutine -/

inductive ConnectStage where
  | resolving
  | racing
  | handshaking (stream : TlsStream)
  | returned (r : ConnectResult)
  deriving DecidableEq

/- `race` has the connection as operation 0 and the timer as operation 1. -/
structure Attempt where
  stage : ConnectStage
  race : Operations (Option ErrorCode)
  handshake : Handshake
  deriving DecidableEq

inductive ConnectStep where
  | resolve (ec : Option ErrorCode)
  | race (l : GroupStep (Option ErrorCode))
  | resume
  | handshake (l : HandshakeStep)
  deriving DecidableEq

/- Nobody but the call has the socket: the connection is aborted only by the group, and the
timer ends without an error. -/
def ConnectStep.Fits : GroupStep (Option ErrorCode) → Bool
  | .complete 0 ec => ec ≠ some (.asio .operation_aborted)
  | .complete _ ec => ec = none
  | .handle _ => true

namespace Attempt

def begun : Attempt := ⟨.resolving, start 2, .begun⟩

/- What the coroutine does when the group is over; the error of the connection is `ec1`. -/
def afterRace (call : ConnectCall) (order : List ℕ) (ec1 : Option ErrorCode) : ConnectStage :=
  if order.head? = some 1 then .returned (.error SocketDetail.makeTimeoutError)
  else
    match ec1 with
    | some ec => .returned (.error (makeConnectionError (some ec)))
    | none =>
      match applyPreConnectTcpOptions call.setOption call.tcp_opts with
      | some ec => .returned (.error ec)
      | none =>
        if call.tls then
          match applyPreConnectTlsOptions call.library call.stream call.tls_opts with
          | (some ec, _) => .returned (.error ec)
          | (none, stream) => .handshaking stream
        else .returned (.ok .tcp)

def afterHandshake (stream : TlsStream) (hs_timed_out : Bool) : Option ErrorCode → ConnectResult
  | none => .ok (.tls stream)
  | some hs_ec =>
    if hs_ec = .asio .operation_aborted ∧ hs_timed_out then .error SocketDetail.makeTimeoutError
    else .error (makeTlsError (some hs_ec))

/-- The coroutine goes on when the handshake has ended. -/
def onHandshake (stream : TlsStream) (h : Handshake) (l : HandshakeStep) : ConnectStage :=
  match l, h.transport with
  | .resume, .ended hs_ec => .returned (afterHandshake stream h.hs_timed_out hs_ec)
  | _, _ => .handshaking stream

def step (call : ConnectCall) (s : Attempt) : ConnectStep → Option Attempt
  | .resolve ec =>
    match s.stage, ec with
    | .resolving, some ec => some { s with stage := .returned (.error (makeDnsError (some ec))) }
    | .resolving, none => some { s with stage := .racing }
    | _, _ => none
  | .race l =>
    if s.stage = .racing ∧ ConnectStep.Fits l then
      (ParallelGroup.step (some (.asio .operation_aborted)) s.race l).map fun g =>
        { s with race := g }
    else none
  | .resume =>
    match s.stage, s.race.branches with
    | .racing, [.handled ec1, .handled _] =>
      some { s with stage := afterRace call s.race.order ec1 }
    | _, _ => none
  | .handshake l =>
    match s.stage with
    | .handshaking stream => (s.handshake.step l).map fun h =>
        { s with handshake := h, stage := onHandshake stream s.handshake l }
    | .returned _ =>
      if s.handshake.passed then (s.handshake.step l).map fun h => { s with handshake := h }
      else none
    | _ => none

end Attempt

/-! ### What a run was about -/

namespace ConnectStep

def ofRace : ConnectStep → Option (GroupStep (Option ErrorCode))
  | .race l => some l
  | _ => none

def ofHandshake : ConnectStep → Option HandshakeStep
  | .handshake l => some l
  | _ => none

end ConnectStep

open ConnectStep

/- The connection was there first. -/
def Connected (rs : List (GroupStep (Option ErrorCode))) : Prop :=
  (handledIn rs).head? = some 0 ∧ .complete 0 none ∈ rs

/- What a race that is over leads to, told from its steps. -/
inductive Raced (call : ConnectCall) (rs : List (GroupStep (Option ErrorCode))) :
    ConnectStage → Prop where
  | late (hfirst : (handledIn rs).head? = some 1) :
      Raced call rs (.returned (.error SocketDetail.makeTimeoutError))
  | refused {ec : ErrorCode} (hfirst : (handledIn rs).head? = some 0)
      (hfailed : .complete 0 (some ec) ∈ rs) :
      Raced call rs (.returned (.error (makeConnectionError (some ec))))
  | unset {ec : ErrorCode} (hconnected : Connected rs)
      (htcp : applyPreConnectTcpOptions call.setOption call.tcp_opts = some ec) :
      Raced call rs (.returned (.error ec))
  | plain (hconnected : Connected rs)
      (htcp : applyPreConnectTcpOptions call.setOption call.tcp_opts = none)
      (hplain : call.tls = false) : Raced call rs (.returned (.ok .tcp))
  | untaken {ec : ErrorCode} {stream : TlsStream} (hconnected : Connected rs)
      (htcp : applyPreConnectTcpOptions call.setOption call.tcp_opts = none)
      (htls : call.tls = true)
      (hopts : applyPreConnectTlsOptions call.library call.stream call.tls_opts
        = (some ec, stream)) : Raced call rs (.returned (.error ec))
  | secured {stream : TlsStream} (hconnected : Connected rs)
      (htcp : applyPreConnectTcpOptions call.setOption call.tcp_opts = none)
      (htls : call.tls = true)
      (hopts : applyPreConnectTlsOptions call.library call.stream call.tls_opts
        = (none, stream)) : Raced call rs (.handshaking stream)

/- What a handshake that is over leads to. -/
inductive Shaken (stream : TlsStream) (hs : List HandshakeStep) : ConnectResult → Prop where
  | finished (hfinish : .finish none ∈ hs) : Shaken stream hs (.ok (.tls stream))
  | failed {ec : ErrorCode} (hfail : .finish (some ec) ∈ hs ∨ .arrive (some ec) ∈ hs) :
      Shaken stream hs (.error (makeTlsError (some ec)))
  | interrupted (hcancel : HandshakeStep.Interrupted hs) :
      Shaken stream hs (.error SocketDetail.makeTimeoutError)

/- The result of a call told from the steps `ls`. -/
inductive ConnectOutcome (call : ConnectCall) (ls : List ConnectStep) : ConnectResult → Prop where
  | unresolved {ec : ErrorCode} (hresolve : .resolve (some ec) ∈ ls) :
      ConnectOutcome call ls (.error (makeDnsError (some ec)))
  | raced {r : ConnectResult} (hraced : Raced call (ls.filterMap ofRace) (.returned r)) :
      ConnectOutcome call ls r
  | shaken {stream : TlsStream} {r : ConnectResult}
      (hraced : Raced call (ls.filterMap ofRace) (.handshaking stream))
      (hshaken : Shaken stream (ls.filterMap ofHandshake) r) : ConnectOutcome call ls r

namespace Attempt

variable {call : ConnectCall} {s t : Attempt} {l : ConnectStep} {ls : List ConnectStep}

/-! ### The race -/

section Race

variable {rs : List (GroupStep (Option ErrorCode))} {g : Operations (Option ErrorCode)}
  {ec1 ec2 : Option ErrorCode} {x : ConnectStage}

theorem raced_afterRace (h : ParallelGroup.Recorded (some (.asio .operation_aborted)) 2 rs g)
    (hover : g.branches = [.handled ec1, .handled ec2]) :
    Raced call rs (afterRace call g.order ec1) := by
  have hmem : 0 ∈ g.order := (h.handled 0).mpr ⟨ec1, by rw [hover]; rfl⟩
  obtain ⟨i, hi⟩ : ∃ i, g.order.head? = some i := by
    cases horder : g.order with
    | nil =>
      rw [horder] at hmem
      cases hmem
    | cons i is => exact ⟨i, rfl⟩
  have hfirst : (handledIn rs).head? = some i := h.order ▸ hi
  obtain ⟨r, hr, hcomplete⟩ := h.first hfirst
  have hlt : i < 2 := h.length ▸ (List.getElem?_eq_some_iff.mp hr).1
  rw [hover] at hr
  rcases Nat.lt_succ_iff_lt_or_eq.mp hlt with hlt | rfl
  · -- the connection was first, and has ended by itself
    obtain rfl : i = 0 := Nat.lt_one_iff.mp hlt
    obtain rfl : ec1 = r := by simpa using hr
    unfold afterRace
    rw [hi, if_neg (by decide)]
    cases ec1 with
    | some ec => exact .refused hfirst hcomplete
    | none =>
      cases htcp : applyPreConnectTcpOptions call.setOption call.tcp_opts with
      | some ec => exact .unset ⟨hfirst, hcomplete⟩ htcp
      | none =>
        cases htls : call.tls with
        | false => exact .plain ⟨hfirst, hcomplete⟩ htcp htls
        | true =>
          obtain ⟨ec, stream, hopts⟩ :
              ∃ ec stream, applyPreConnectTlsOptions call.library call.stream call.tls_opts
                = (ec, stream) := ⟨_, _, rfl⟩
          simp only [if_true, hopts]
          cases ec with
          | some ec => exact .untaken ⟨hfirst, hcomplete⟩ htcp htls hopts
          | none => exact .secured ⟨hfirst, hcomplete⟩ htcp htls hopts
  · unfold afterRace
    rw [hi, if_pos rfl]
    exact .late hfirst

theorem raced_unique (h : ParallelGroup.Recorded (some (.asio .operation_aborted)) 2 rs g)
    (hover : g.branches = [.handled ec1, .handled ec2]) (hx : Raced call rs x) :
    x = afterRace call g.order ec1 := by
  have hec : ∀ ec, .complete 0 ec ∈ rs → ec1 = ec := by
    intro ec hcomplete
    obtain ⟨b, hb, hresult⟩ := h.completed 0 ec hcomplete
    rw [hover] at hb
    cases hb
    exact Option.some.inj hresult
  have hconnected : Connected rs → g.order.head? ≠ some 1 ∧ ec1 = none := by
    rintro ⟨hfirst, hcomplete⟩
    rw [h.order, hfirst]
    exact ⟨by decide, hec none hcomplete⟩
  unfold afterRace
  cases hx with
  | late hfirst => rw [h.order, hfirst, if_pos rfl]
  | refused hfirst hfailed => rw [h.order, hfirst, if_neg (by decide), hec _ hfailed]
  | unset hrace htcp =>
    obtain ⟨hne, rfl⟩ := hconnected hrace
    rw [if_neg hne, htcp]
  | plain hrace htcp hplain =>
    obtain ⟨hne, rfl⟩ := hconnected hrace
    rw [if_neg hne, htcp, hplain]
    rfl
  | untaken hrace htcp htls hopts =>
    obtain ⟨hne, rfl⟩ := hconnected hrace
    rw [if_neg hne, htcp, htls, hopts]
    rfl
  | secured hrace htcp htls hopts =>
    obtain ⟨hne, rfl⟩ := hconnected hrace
    rw [if_neg hne, htcp, htls, hopts]
    rfl

end Race

/-! ### The handshake -/

section Handshake

variable {hs : List HandshakeStep} {h : Handshake} {hs_ec : Option ErrorCode} {stream : TlsStream}
  {r : ConnectResult}

theorem afterHandshake_failed {ec : ErrorCode} (hec : ec ≠ .asio .operation_aborted)
    (hs_timed_out : Bool) :
    afterHandshake stream hs_timed_out (some ec) = .error (makeTlsError (some ec)) :=
  if_neg fun hc => hec hc.1

theorem shaken_afterHandshake (hr : h.Recorded hs) (hended : h.transport = .ended hs_ec) :
    Shaken stream hs (afterHandshake stream h.hs_timed_out hs_ec) := by
  rcases (hr.ended hs_ec).mp hended with hfinish | ⟨hne, harrive⟩ | ⟨rfl, hcancel⟩
  · cases hs_ec with
    | none => exact .finished hfinish
    | some ec =>
      rw [afterHandshake_failed (by rintro rfl; exact hr.own.1 hfinish)]
      exact .failed (.inl hfinish)
  · obtain ⟨ec, rfl⟩ := Option.ne_none_iff_exists'.mp hne
    rw [afterHandshake_failed (by rintro rfl; exact hr.own.2 harrive)]
    exact .failed (.inr harrive)
  · rw [hr.aborted hended]
    exact .interrupted hcancel

theorem shaken_unique (hr : h.Recorded hs) (hended : h.transport = .ended hs_ec)
    (hx : Shaken stream hs r) : r = afterHandshake stream h.hs_timed_out hs_ec := by
  have hends : ∀ ec, HandshakeStep.Ends hs ec → hs_ec = ec := by
    intro ec hec
    exact HandshakeStage.ended.inj (hended.symm.trans ((hr.ended ec).mpr hec))
  cases hx with
  | finished hfinish =>
    obtain rfl := hends none (.inl hfinish)
    rfl
  | @failed ec hfail =>
    obtain rfl := hends (some ec)
      (hfail.imp_right fun harrive => .inl ⟨Option.some_ne_none ec, harrive⟩)
    refine (afterHandshake_failed ?_ _).symm
    rintro rfl
    exact hfail.elim hr.own.1 hr.own.2
  | interrupted hcancel =>
    obtain rfl := hends _ (.inr (.inr ⟨rfl, hcancel⟩))
    rw [hr.aborted hended]
    rfl

end Handshake

/-! ### The run of a call -/

def Resolved (ls : List ConnectStep) : Prop := ∀ ec, .resolve ec ∈ ls → ec = none

/- Where a call is after the steps `ls`. -/
inductive Reached (call : ConnectCall) : List ConnectStep → Attempt → Prop where
  | resolving : Reached call [] begun
  | unresolved {ec : ErrorCode} :
      Reached call [.resolve (some ec)]
        { begun with stage := .returned (.error (makeDnsError (some ec))) }
  | racing {ls : List ConnectStep} {g : Operations (Option ErrorCode)}
      (hresolve : Resolved ls) :
      Reached call ls ⟨.racing, g, .begun⟩
  | raced {ls : List ConnectStep} {g : Operations (Option ErrorCode)} {r : ConnectResult}
      {ec1 ec2 : Option ErrorCode} (hresolve : Resolved ls)
      (hover : g.branches = [.handled ec1, .handled ec2])
      (hr : afterRace call g.order ec1 = .returned r) :
      Reached call ls ⟨.returned r, g, .begun⟩
  | handshaking {ls : List ConnectStep} {g : Operations (Option ErrorCode)} {h : Handshake}
      {stream : TlsStream} {ec1 ec2 : Option ErrorCode}
      (hresolve : Resolved ls)
      (hover : g.branches = [.handled ec1, .handled ec2])
      (hstream : afterRace call g.order ec1 = .handshaking stream) (hrunning : h.passed = false) :
      Reached call ls ⟨.handshaking stream, g, h⟩
  | shaken {ls : List ConnectStep} {g : Operations (Option ErrorCode)} {h : Handshake}
      {stream : TlsStream} {r : ConnectResult} {ec1 ec2 hs_ec : Option ErrorCode}
      (hresolve : Resolved ls)
      (hover : g.branches = [.handled ec1, .handled ec2])
      (hstream : afterRace call g.order ec1 = .handshaking stream) (hresumed : h.passed = true)
      (hended : h.transport = .ended hs_ec)
      (hr : r = afterHandshake stream h.hs_timed_out hs_ec) : Reached call ls ⟨.returned r, g, h⟩

theorem resolved_concat (h : Resolved ls) (hl : ∀ ec, l ≠ .resolve ec) : Resolved (ls ++ [l]) := by
  intro ec hec
  rcases List.mem_append.mp hec with hec | hec
  · exact h ec hec
  · exact absurd (List.mem_singleton.mp hec).symm (hl ec)

theorem step_resolve {ec : Option ErrorCode} (hstep : step call s (.resolve ec) = some t) :
    s.stage = .resolving := by
  simp only [step] at hstep
  split at hstep
  · assumption
  · assumption
  · cases hstep

theorem step_race {k : GroupStep (Option ErrorCode)} (hstep : step call s (.race k) = some t) :
    s.stage = .racing ∧
      ∃ g, ParallelGroup.step (some (.asio .operation_aborted)) s.race k = some g ∧
        t = { s with race := g } := by
  simp only [step] at hstep
  split at hstep
  · rename_i hrace
    obtain ⟨g, hk, rfl⟩ := Option.map_eq_some_iff.mp hstep
    exact ⟨hrace.1, g, hk, rfl⟩
  · cases hstep

theorem afterRace_cases (call : ConnectCall) (order : List ℕ) (ec1 : Option ErrorCode) :
    (∃ r, afterRace call order ec1 = .returned r) ∨
      ∃ stream, afterRace call order ec1 = .handshaking stream := by
  unfold afterRace
  split
  · exact .inl ⟨_, rfl⟩
  split
  · exact .inl ⟨_, rfl⟩
  split
  · exact .inl ⟨_, rfl⟩
  split
  · split
    · exact .inl ⟨_, rfl⟩
    · exact .inr ⟨_, rfl⟩
  · exact .inl ⟨_, rfl⟩

section Steps

variable {g : Operations (Option ErrorCode)} {h : Handshake} {r : ConnectResult}
  {stream : TlsStream}

theorem step_racing (hstep : step call ⟨.racing, g, h⟩ l = some t) :
    (∃ g', t = ⟨.racing, g', h⟩) ∨ ∃ ec1 ec2, g.branches = [.handled ec1, .handled ec2] ∧
      t = ⟨afterRace call g.order ec1, g, h⟩ := by
  cases l with
  | resolve ec => cases hstep
  | race l =>
    obtain ⟨-, g', -, rfl⟩ := step_race hstep
    exact .inl ⟨g', rfl⟩
  | resume =>
    simp only [step] at hstep
    split at hstep
    · rename_i ec1 ec2 _ hover
      cases hstep
      exact .inr ⟨ec1, ec2, hover, rfl⟩
    · cases hstep
  | handshake l => cases hstep

theorem step_handshaking (hstep : step call ⟨.handshaking stream, g, h⟩ l = some t) :
    ∃ k h', l = .handshake k ∧ h.step k = some h' ∧ t = ⟨onHandshake stream h k, g, h'⟩ := by
  cases l with
  | resolve ec => cases hstep
  | race l =>
    cases (step_race hstep).1
  | resume => cases hstep
  | handshake k =>
    obtain ⟨h', hk, rfl⟩ := Option.map_eq_some_iff.mp hstep
    exact ⟨k, h', rfl, hk, rfl⟩

theorem step_returned (hstep : step call ⟨.returned r, g, h⟩ l = some t) :
    h.passed = true ∧ ∃ k h', l = .handshake k ∧ h.step k = some h' ∧ t = ⟨.returned r, g, h'⟩ := by
  cases l with
  | resolve ec => cases hstep
  | race l =>
    cases (step_race hstep).1
  | resume => cases hstep
  | handshake k =>
    obtain ⟨hover, hstep⟩ := Option.ite_none_right_eq_some.mp hstep
    obtain ⟨h', hk, rfl⟩ := Option.map_eq_some_iff.mp hstep
    exact ⟨hover, k, h', rfl, hk, rfl⟩

end Steps

theorem onHandshake_resume {stream : TlsStream} {h : Handshake} {hs_ec : Option ErrorCode}
    (hended : h.transport = .ended hs_ec) :
    onHandshake stream h .resume = .returned (afterHandshake stream h.hs_timed_out hs_ec) := by
  simp only [onHandshake, hended]

theorem onHandshake_ne {stream : TlsStream} {h : Handshake} {k : HandshakeStep}
    (hk : k ≠ .resume) : onHandshake stream h k = .handshaking stream := by
  cases k with
  | resume => exact absurd rfl hk
  | _ => rfl

theorem Reached.step (hs : Reached call ls s) (hstep : step call s l = some t) :
    Reached call (ls ++ [l]) t := by
  cases hs with
  | resolving =>
    cases l with
    | resolve ec =>
      cases ec with
      | some ec =>
        cases hstep
        exact .unresolved
      | none =>
        cases hstep
        refine .racing fun ec hec => ?_
        cases List.mem_singleton.mp hec
        rfl
    | race l => cases hstep
    | resume => cases hstep
    | handshake l => cases hstep
  | unresolved =>
    obtain ⟨hover, -⟩ := step_returned hstep
    cases hover
  | racing hresolve =>
    have hls : Resolved (ls ++ [l]) := resolved_concat hresolve fun ec hl => by
      subst hl
      cases step_resolve hstep
    rcases step_racing hstep with ⟨g', rfl⟩ | ⟨ec1, ec2, hover, rfl⟩
    · exact .racing hls
    · rcases afterRace_cases call _ ec1 with ⟨r, hr⟩ | ⟨stream, hstream⟩
      · rw [hr]
        exact .raced hls hover hr
      · rw [hstream]
        exact .handshaking hls hover hstream rfl
  | raced hresolve hover hr =>
    obtain ⟨hresumed, -⟩ := step_returned hstep
    cases hresumed
  | @handshaking _ g h stream ec1 ec2 hresolve hover hstream hrunning =>
    obtain ⟨k, h', rfl, hk, rfl⟩ := step_handshaking hstep
    have hls := resolved_concat (l := .handshake k) hresolve fun ec hl => by cases hl
    have hm := Handshake.step_moves hk
    by_cases hresume : k = .resume
    · subst hresume
      cases hm with
      | resumes hended _ =>
        rw [onHandshake_resume hended]
        exact .shaken hls hover hstream rfl hended rfl
    · rw [onHandshake_ne hresume]
      exact .handshaking hls hover hstream ((hm.passed hresume).trans hrunning)
  | @shaken _ g h stream r ec1 ec2 hs_ec hresolve hover hstream hresumed hended hr =>
    obtain ⟨-, k, h', rfl, hk, rfl⟩ := step_returned hstep
    have hls := resolved_concat (l := .handshake k) hresolve fun ec hl => by cases hl
    obtain ⟨hresumed', hended', hflag⟩ := (Handshake.step_moves hk).kept hresumed hended
    exact .shaken hls hover hstream hresumed' hended' (hflag ▸ hr)

/- What is known of a call after the steps `ls`. -/
structure Recorded (call : ConnectCall) (ls : List ConnectStep) (s : Attempt) : Prop where
  reached : Reached call ls s
  race : ParallelGroup.Recorded (some (.asio .operation_aborted)) 2 (ls.filterMap ofRace) s.race
  handshake : s.handshake.Recorded (ls.filterMap ofHandshake)

theorem step_handshake {k : HandshakeStep} (hstep : step call s (.handshake k) = some t) :
    s.handshake.step k = some t.handshake ∧ t.race = s.race := by
  simp only [step] at hstep
  split at hstep
  · obtain ⟨h, hk, rfl⟩ := Option.map_eq_some_iff.mp hstep
    exact ⟨hk, rfl⟩
  · split at hstep
    · obtain ⟨h, hk, rfl⟩ := Option.map_eq_some_iff.mp hstep
      exact ⟨hk, rfl⟩
    · cases hstep
  · cases hstep

/- The frame of a step. -/
theorem step_frame (hstep : step call s l = some t) :
    (ofRace l = none → t.race = s.race) ∧ (ofHandshake l = none → t.handshake = s.handshake) := by
  cases l with
  | resolve ec =>
    simp only [step] at hstep
    split at hstep
    · cases hstep
      exact ⟨fun _ => rfl, fun _ => rfl⟩
    · cases hstep
      exact ⟨fun _ => rfl, fun _ => rfl⟩
    · cases hstep
  | race k =>
    obtain ⟨-, g, -, rfl⟩ := step_race hstep
    exact ⟨(nomatch ·), fun _ => rfl⟩
  | resume =>
    simp only [step] at hstep
    split at hstep
    · cases hstep
      exact ⟨fun _ => rfl, fun _ => rfl⟩
    · cases hstep
  | handshake k => exact ⟨fun _ => (step_handshake hstep).2, (nomatch ·)⟩

theorem run_race (h : run (step call) begun ls = some s) :
    run (ParallelGroup.step (some (.asio .operation_aborted))) (start 2) (ls.filterMap ofRace)
      = some s.race := by
  refine run_component race ofRace (fun s l t hstep => (step_frame hstep).1) ?_ h
  intro s l t k hstep hk
  cases l with
  | race k' =>
    cases hk
    obtain ⟨-, g, hk, rfl⟩ := step_race hstep
    exact hk
  | _ => cases hk

theorem run_handshake (h : run (step call) begun ls = some s) :
    run Handshake.step .begun (ls.filterMap ofHandshake) = some s.handshake := by
  refine run_component handshake ofHandshake (fun s l t hstep => (step_frame hstep).2) ?_ h
  intro s l t k hstep hk
  cases l with
  | handshake k' =>
    cases hk
    exact (step_handshake hstep).1
  | _ => cases hk

theorem recorded_run (h : run (step call) begun ls = some s) : Recorded call ls s :=
  ⟨run_trace .resolving (fun _ _ _ _ => Reached.step) h,
    ParallelGroup.recorded_run (run_race h), Handshake.recorded_run (run_handshake h)⟩

/-! ### The result of a call -/

theorem not_raced_nil {x : ConnectStage} : ¬ Raced call [] x := by
  intro hx
  cases hx with
  | late hfirst => cases hfirst
  | refused hfirst hfailed => cases hfirst
  | unset hconnected htcp => cases hconnected.1
  | plain hconnected htcp hplain => cases hconnected.1
  | untaken hconnected htcp htls hopts => cases hconnected.1
  | secured hconnected htcp htls hopts => cases hconnected.1

/-- However its steps interleave, a call returns what the order of its handlers says: a DNS
error if the name is not resolved; a timeout if the timer's handler is first, even when the
connection is there; else the first error of the connection, the options and the handshake,
where a handshake is a timeout exactly when its own timer cut a pending transfer short. -/
theorem connect_outcome (h : run (step call) begun ls = some s) {r : ConnectResult}
    (hr : s.stage = .returned r) (q : ConnectResult) : ConnectOutcome call ls q ↔ q = r := by
  obtain ⟨hreached, hrace, hhandshake⟩ := recorded_run h
  cases hreached with
  | resolving => cases hr
  | racing hresolve => cases hr
  | handshaking hresolve hover hstream hrunning => cases hr
  | unresolved =>
    cases hr
    constructor
    · intro hq
      cases hq with
      | unresolved hresolve =>
        cases List.mem_singleton.mp hresolve
        rfl
      | raced hraced => exact absurd hraced not_raced_nil
      | shaken hraced hshaken => exact absurd hraced not_raced_nil
    · rintro rfl
      exact .unresolved (List.mem_singleton_self _)
  | raced hresolve hover hafter =>
    cases hr
    constructor
    · intro hq
      cases hq with
      | unresolved hec => cases hresolve _ hec
      | raced hraced =>
        exact ConnectStage.returned.inj ((raced_unique hrace hover hraced).trans hafter)
      | shaken hraced hshaken => cases (raced_unique hrace hover hraced).trans hafter
    · rintro rfl
      exact .raced (hafter ▸ raced_afterRace hrace hover)
  | shaken hresolve hover hstream hresumed hended hafter =>
    cases hr
    constructor
    · intro hq
      cases hq with
      | unresolved hec => cases hresolve _ hec
      | raced hraced => cases (raced_unique hrace hover hraced).trans hstream
      | shaken hraced hshaken =>
        cases (raced_unique hrace hover hraced).trans hstream
        exact (shaken_unique hhandshake hended hshaken).trans hafter.symm
    · rintro rfl
      exact .shaken (hstream ▸ raced_afterRace hrace hover)
        (hafter ▸ shaken_afterHandshake hhandshake hended)

def tlsCall : ConnectCall :=
  ⟨true, .default, .default, fun _ => none, ⟨fun _ => true, fun _ => true⟩,
    ⟨none, none, false, 0, false⟩⟩

/- The stream with the curves and the depth of the default options. -/
def shakenStream : TlsStream := ⟨none, some (ascii "x25519:secp256r1"), false, 5, false⟩

/- The timer of the handshake runs out, and cancels nothing: a transfer has just arrived. -/
def missedSteps : List ConnectStep :=
  [.resolve none, .race (.complete 0 none), .race (.handle 0), .race (.handle 1), .resume,
    .handshake .wait, .handshake .expire, .handshake (.arrive none), .handshake .handler,
    .handshake .cancel]

def missedRace : Operations (Option ErrorCode) :=
  ⟨[.handled none, .handled (some (.asio .operation_aborted))], [0, 1]⟩

theorem connect_outcome_missed :
    ConnectOutcome tlsCall (missedSteps ++ [.handshake (.finish none), .handshake .resume])
      (.ok (.tls shakenStream)) := by
  have hrun : run (step tlsCall) begun
      (missedSteps ++ [.handshake (.finish none), .handshake .resume])
      = some ⟨.returned (.ok (.tls shakenStream)), missedRace,
          ⟨.ended none, .done, true, true, false⟩⟩ := by decide +kernel
  exact (connect_outcome hrun rfl _).mpr rfl

/-! ### How long a call takes -/

/-- The step needs nothing from the resolver and the server. -/
def Own : ConnectStep → Prop
  | .race (.complete i ec) => i = 1 ∧ ec = none
  | .race (.handle _) => True
  | .resume => True
  | .handshake l => l = .resume ∨ Handshake.Local l
  | .resolve _ => False

def CanReturn (call : ConnectCall) (s : Attempt) : Prop :=
  CanReach (step call) Own (fun t => ∃ r, t.stage = .returned r) s

section Steps

variable {g : Operations (Option ErrorCode)} {h : Handshake} {r : ConnectResult}
  {stream : TlsStream}

theorem canReturn_ended {hs_ec : Option ErrorCode} (hrunning : h.passed = false)
    (hended : h.transport = .ended hs_ec) : CanReturn call ⟨.handshaking stream, g, h⟩ := by
  have hstep : step call ⟨.handshaking stream, g, h⟩ (.handshake .resume)
      = some ⟨.returned (afterHandshake stream h.hs_timed_out hs_ec), g, { h with
          timer := if h.timer = .waiting then .cancelled else h.timer
          passed := true }⟩ := by
    simp only [step, Handshake.step, onHandshake, hended, hrunning, Option.map_some]
  exact canReach_step hstep (.inl rfl) (canReach_refl ⟨_, rfl⟩)

theorem canReturn_handshaking (hrunning : h.passed = false) (hend : h.CanEnd) :
    CanReturn call ⟨.handshaking stream, g, h⟩ := by
  obtain ⟨ks, t, hks, hrun, ec, hended⟩ := hend
  have hlift : run (step call) ⟨.handshaking stream, g, h⟩ (ks.map .handshake)
      = some ⟨.handshaking stream, g, t⟩ := by
    refine run_lift (fun h => Attempt.mk (.handshaking stream) g h) ConnectStep.handshake ?_ hks
      hrun
    intro u k v hk hstep
    simp only [step, hstep, onHandshake_ne hk.ne_resume, Option.map_some]
  have howned : ∀ l ∈ ks.map ConnectStep.handshake, Own l :=
    List.forall_mem_map.mpr fun k hk => Or.inr (hks k hk)
  exact canReach_run howned hlift
    (canReturn_ended ((Handshake.passed_run hks hrun).trans hrunning) hended)

theorem canReturn_finished (hfin : g.Finished) (hlen : g.branches.length = 2) :
    CanReturn call ⟨.racing, g, .begun⟩ := by
  obtain ⟨ec1, ec2, hover⟩ := hfin.pair hlen
  have hstep : step call ⟨.racing, g, .begun⟩ .resume
      = some ⟨afterRace call g.order ec1, g, .begun⟩ := by
    simp only [step, hover]
  refine canReach_step hstep trivial ?_
  rcases afterRace_cases call g.order ec1 with ⟨r, hr⟩ | ⟨stream, hstream⟩
  · exact canReach_refl ⟨r, hr⟩
  · rw [hstream]
    have hend := (Handshake.canEnd_iff (Handshake.recorded_run rfl) rfl).mpr
      fun hmissed => List.not_mem_nil hmissed.1
    exact canReturn_handshaking rfl hend

theorem canReturn_ends {rs : List (GroupStep (Option ErrorCode))}
    (hrs : run (ParallelGroup.step (some (.asio .operation_aborted))) (start 2) rs = some g)
    (hends : Ends (some (.asio .operation_aborted)) g) :
    CanReturn call ⟨.racing, g, .begun⟩ := by
  obtain ⟨ks, g', hks, hrun, hfin⟩ := hends
  have hlift : run (step call) ⟨.racing, g, .begun⟩ (ks.map .race)
      = some ⟨.racing, g', .begun⟩ := by
    refine run_lift (fun g => Attempt.mk .racing g .begun) ConnectStep.race ?_ hks hrun
    rintro u _ v ⟨i, rfl⟩ hstep
    simp only [step, hstep, ConnectStep.Fits, and_self, if_true, Option.map_some]
  have hafter : run (ParallelGroup.step (some (.asio .operation_aborted))) (start 2) (rs ++ ks)
      = some g' := by
    rw [run_append, hrs, Option.bind_some, hrun]
  refine canReach_run (List.forall_mem_map.mpr fun k hk => ?_) hlift
    (canReturn_finished hfin (ParallelGroup.recorded_run hafter).length)
  obtain ⟨i, rfl⟩ := hks k hk
  trivial

theorem canReturn_racing {rs : List (GroupStep (Option ErrorCode))}
    (hrs : run (ParallelGroup.step (some (.asio .operation_aborted))) (start 2) rs = some g) :
    CanReturn call ⟨.racing, g, .begun⟩ := by
  have hrec := ParallelGroup.recorded_run hrs
  have hlt : 1 < g.branches.length := hrec.length ▸ Nat.one_lt_two
  have hget := List.getElem?_eq_getElem hlt
  cases hb : g.branches[1] with
  | pending =>
    -- the timer runs out
    have hstep : ParallelGroup.step (some (.asio .operation_aborted)) g (.complete 1 none)
        = some { g with branches := g.branches.set 1 (.ready none) } := by
      simp only [ParallelGroup.step, hget, hb]
    have hrun : run (ParallelGroup.step (some (.asio .operation_aborted))) (start 2)
        (rs ++ [.complete 1 none])
        = some { g with branches := g.branches.set 1 (.ready none) } := by
      rw [run_append, hrs, Option.bind_some, run, hstep]
      rfl
    refine canReach_step (l := .race (.complete 1 none)) ?_ ⟨rfl, rfl⟩ (canReturn_ends hrun
      ((ParallelGroup.recorded_run hrun).ends (List.getElem?_set_self hlt)))
    simp only [step, hstep, ConnectStep.Fits, decide_true, and_self, if_true, Option.map_some]
  | ready ec => exact canReturn_ends hrs (hrec.ends (hget.trans (congrArg some hb)))
  | handled ec =>
    have hmem : 1 ∈ g.order := (hrec.handled 1).mpr ⟨ec, hget.trans (congrArg some hb)⟩
    exact canReturn_ends hrs (hrec.ends_handled (List.ne_nil_of_mem hmem))

end Steps

/- A call that waits for the resolver, or for a server with nothing to stop it. -/
def Stuck (s : Attempt) : Prop :=
  s.stage = .resolving ∨ ∃ stream, s.stage = .handshaking stream ∧ s.handshake.Spent

theorem stuck_step (hs : Stuck s) (hl : Own l) (hstep : step call s l = some t) : Stuck t := by
  obtain ⟨stage, g, h⟩ := s
  rcases hs with hresolving | ⟨stream, hstage, hspent⟩
  · obtain rfl : stage = .resolving := hresolving
    cases l with
    | resolve ec => exact absurd hl id
    | race k => cases (step_race hstep).1
    | resume => cases hstep
    | handshake k => cases hstep
  · obtain rfl : stage = .handshaking stream := hstage
    obtain ⟨k, h', rfl, hk, rfl⟩ := step_handshaking hstep
    have hm := Handshake.step_moves hk
    rcases hl with rfl | hk
    · cases hm with
      | resumes hended _ => exact absurd hended (hspent.2 _)
    · exact .inr ⟨stream, onHandshake_ne hk.ne_resume, Handshake.spent_moves hspent hk hm⟩

theorem not_canReturn (hs : Stuck s) : ¬ CanReturn call s := by
  refine not_canReach (fun s l t hs hl hstep => stuck_step hs hl hstep) (fun s hs hc => ?_) hs
  obtain ⟨r, hr⟩ := hc
  rcases hs with hresolving | ⟨stream, hstage, -⟩
  · cases hr.symm.trans hresolving
  · cases hr.symm.trans hstage

theorem not_missed_begun {hs : List HandshakeStep} (h : Handshake.begun.Recorded hs) :
    ¬ Handshake.Missed hs := by
  intro hmissed
  cases (h.done rfl).mpr hmissed.1

/-- Only two things keep a call waiting for others: the resolver, which has no time limit,
and a handshake whose timer has cancelled the transport between two transfers. From every
other state the timers, the handlers and the coroutine bring it to its end. -/
theorem connect_returns (h : run (step call) begun ls = some s) :
    CanReturn call s ↔ s.stage ≠ .resolving ∧ ¬ Handshake.Missed (ls.filterMap ofHandshake) := by
  obtain ⟨hreached, hrace, hhandshake⟩ := recorded_run h
  have hrun := run_race h
  cases hreached with
  | resolving => exact iff_of_false (not_canReturn (.inl rfl)) fun hc => hc.1 rfl
  | unresolved =>
    exact iff_of_true (canReach_refl ⟨_, rfl⟩)
      ⟨ConnectStage.noConfusion, not_missed_begun hhandshake⟩
  | racing hresolve =>
    exact iff_of_true (canReturn_racing hrun)
      ⟨ConnectStage.noConfusion, not_missed_begun hhandshake⟩
  | raced hresolve hover hafter =>
    exact iff_of_true (canReach_refl ⟨_, rfl⟩)
      ⟨ConnectStage.noConfusion, not_missed_begun hhandshake⟩
  | handshaking hresolve hover hstream hrunning =>
    constructor
    · intro hreturn
      refine ⟨ConnectStage.noConfusion, fun hmissed => ?_⟩
      exact not_canReturn (.inr ⟨_, rfl, (hhandshake.spent_iff hrunning).mpr hmissed⟩) hreturn
    · rintro ⟨-, hmissed⟩
      exact canReturn_handshaking hrunning ((Handshake.canEnd_iff hhandshake hrunning).mpr hmissed)
  | shaken hresolve hover hstream hresumed hended hafter =>
    refine iff_of_true (canReach_refl ⟨_, rfl⟩) ⟨ConnectStage.noConfusion, fun hmissed => ?_⟩
    exact hmissed.2 _ ((hhandshake.ended _).mp hended)

theorem connect_returns_missed :
    ¬ CanReturn tlsCall ⟨.handshaking shakenStream, missedRace,
      ⟨.running, .done, true, false, false⟩⟩ := by
  have hrun : run (step tlsCall) begun missedSteps
      = some ⟨.handshaking shakenStream, missedRace, ⟨.running, .done, true, false, false⟩⟩ := by
    decide +kernel
  intro hreturn
  refine ((connect_returns hrun).mp hreturn).2 ?_
  exact ((recorded_run hrun).handshake.spent_iff rfl).mp ⟨rfl, fun _ => HandshakeStage.noConfusion⟩

/-! ### A frame that is gone -/

theorem ofHandshake_iff (k : HandshakeStep) (l : ConnectStep) :
    ofHandshake l = some k ↔ l = .handshake k := by
  cases l with
  | handshake k' => rw [ofHandshake, Option.some_inj, ConnectStep.handshake.injEq]
  | _ => exact ⟨(nomatch ·), (nomatch ·)⟩

/-- The handler of the handshake's timer stores into the frame of a call that has returned,
and cancels a stream that is not there any more, exactly when the time ran out before the
call went on and the handler came after it. -/
theorem connect_stray (h : run (step call) begun ls = some s) :
    s.handshake.stray = true ↔ Precedes (.handshake .expire) (.handshake .resume) ls ∧
      Precedes (.handshake .resume) (.handshake .handler) ls := by
  rw [(recorded_run h).handshake.stray,
    precedes_filterMap (ofHandshake_iff .expire) (ofHandshake_iff .resume),
    precedes_filterMap (ofHandshake_iff .resume) (ofHandshake_iff .handler)]

/- The handshake is through when its time runs out. -/
def lateSteps : List ConnectStep :=
  missedSteps.take 6 ++ [.handshake (.arrive none), .handshake (.finish none),
    .handshake .expire, .handshake .resume, .handshake .handler]

theorem connect_stray_late :
    Precedes (.handshake .expire) (.handshake .resume) lateSteps ∧
      Precedes (.handshake .resume) (.handshake .handler) lateSteps := by
  have hrun : run (step tlsCall) begun lateSteps
      = some ⟨.returned (.ok (.tls shakenStream)), missedRace,
          ⟨.ended none, .cancelling, false, true, true⟩⟩ := by decide +kernel
  exact (connect_stray hrun).mp rfl

end Attempt

end NetworkStack
