import NetworkStack.Server.Listen

/-!
# Serving clients

As long as nobody stops the server and its acceptor works: what a failure that concerns
one connection does to the others.
-/

namespace NetworkStack

open Machine

/-! ### What is asked of the server -/

/-- The connection does not get through its own coroutine. -/
def Connection.Fails (call : ListenCall) (c : Connection) : Prop :=
  call.tls = true ∧ (c.tlsOptions ≠ none ∨ c.handshake ≠ none)

/-- The socket takes every option that the call sets. -/
def Connection.Configures (call : ListenCall) (c : Connection) : Prop :=
  ∀ o, some o ∈ call.tcp_opts.inOrder → c.setOption o = none

namespace ServerStep

/-- `stop` is not called and the acceptor does what it is told. -/
def Works : ServerStep → Prop
  | .openAcceptor ec => ec = none
  | .setOption ec => ec = none
  | .bind ec => ec = none
  | .listen ec => ec = none
  | .createTlsContext ec => ec = none
  | .accept r => ∃ c, r = .ok c
  | .store => False
  | .cancelBase _ => False
  | .cancel _ => False
  | .close => False
  | _ => True

/-- What the listen call does between two accepted connections. -/
def Own : ServerStep → Prop
  | .accept _ => False
  | .coroutine _ => False
  | l => l.Works

def Of (i : ℕ) (l : ServerStep) : Prop := l = .coroutine i

end ServerStep

namespace Server

variable (call : ListenCall)

def pending (s : Server) : List Connection :=
  match s.listen with
  | .configuring c => [c]
  | _ => []

/-- The call goes on accepting, no connection gets lost, and each that does not fail by
itself is handled once and in time: its own steps lead there. -/
structure Serves (s : Server) : Prop where
  listening : CanReach (step call) ServerStep.Own (fun t => t.listen = .accepting) s
  kept : s.accepted = s.connections.map Prod.fst ++ s.pending
  once : ∀ i, s.handled.count i ≤ 1
  handled : ∀ i c stage, s.connections[i]? = some (c, stage) → ¬ c.Fails call →
    CanReach (step call) (ServerStep.Of i) (fun t => t.handled.count i = 1) s
  dropped : ∀ i c stage, s.connections[i]? = some (c, stage) → c.Fails call →
    s.handled.count i = 0

end Server

/-- The connection belongs where it stands. -/
def ConnectionStage.Fits (call : ListenCall) (c : Connection) : ConnectionStage → Prop
  | .spawned => True
  | .handshaking => call.tls = true ∧ c.tlsOptions = none
  | .handing => ¬ c.Fails call
  | .handled => ¬ c.Fails call
  | .dropped => c.Fails call

namespace Server

variable {call : ListenCall} {s t : Server} {i : ℕ} {c : Connection} {stage : ConnectionStage}

/- The connections, apart from the listen call. -/
structure Sound (call : ListenCall) (s : Server) : Prop where
  stages : ∀ i c stage, s.connections[i]? = some (c, stage) →
    s.handled.count i = (if stage = .handled then 1 else 0) ∧ stage.Fits call c
  numbered : ∀ i ∈ s.handled, i < s.connections.length

/- The listen call, apart from the connections. -/
structure Working (call : ListenCall) (s : Server) : Prop where
  live : ∀ r, s.listen ≠ .returned r
  notStopped : s.stopRequested = false
  acceptor : s.acceptorOpen = true ↔ ¬ s.BeforeOpen
  configures : ∀ c, s.listen = .configuring c → c.Configures call
  kept : s.accepted = s.connections.map Prod.fst ++ s.pending

/-! ### The connections -/

theorem connections_move (s : Server) (i : ℕ) (c : Connection) (stage : ConnectionStage) :
    (s.move i c stage).connections = s.connections.set i (c, stage) := rfl

theorem connections_hand (s : Server) (i : ℕ) (c : Connection) :
    (s.hand i c).connections = s.connections.set i (c, .handled) := rfl

theorem handled_hand (s : Server) (i : ℕ) (c : Connection) :
    (s.hand i c).handled = s.handled ++ [i] := rfl

theorem getElem?_move_self (hi : s.connections[i]? = some (c, stage)) (next : ConnectionStage) :
    (s.move i c next).connections[i]? = some (c, next) :=
  List.getElem?_set_self (List.getElem?_eq_some_iff.mp hi).1

theorem getElem?_move_ne {j : ℕ} (hji : j ≠ i) (next : ConnectionStage) :
    (s.move i c next).connections[j]? = s.connections[j]? :=
  List.getElem?_set_ne hji.symm

theorem Sound.move (h : s.Sound call) (hi : s.connections[i]? = some (c, stage))
    {next : ConnectionStage} (hstage : stage ≠ .handled) (hnext : next ≠ .handled)
    (hfits : next.Fits call c) : (s.move i c next).Sound call := by
  refine ⟨fun j d st hj => ?_, fun j hj => ?_⟩
  · by_cases hji : j = i
    · subst hji
      rw [getElem?_move_self hi] at hj
      cases hj
      rw [if_neg hnext]
      exact ⟨(h.stages j c stage hi).1.trans (if_neg hstage), hfits⟩
    · rw [getElem?_move_ne hji] at hj
      exact h.stages j d st hj
  · rw [connections_move, List.length_set]
    exact h.numbered j hj

theorem Sound.hand (h : s.Sound call) (hi : s.connections[i]? = some (c, .handing)) :
    (s.hand i c).Sound call := by
  obtain ⟨hcount, hfits⟩ := h.stages i c _ hi
  refine ⟨fun j d st hj => ?_, fun j hj => ?_⟩
  · rw [connections_hand, ← connections_move] at hj
    rw [handled_hand, List.count_append, List.count_singleton]
    by_cases hji : j = i
    · subst hji
      rw [getElem?_move_self hi] at hj
      cases hj
      simp only [hcount, beq_self_eq_true, if_true]
      exact ⟨rfl, hfits⟩
    · rw [getElem?_move_ne hji] at hj
      rw [if_neg (by simpa using Ne.symm hji)]
      exact h.stages j d st hj
  · rw [connections_hand, List.length_set]
    rcases List.mem_append.mp hj with hj | hj
    · exact h.numbered j hj
    · exact List.mem_singleton.mp hj ▸ (List.getElem?_eq_some_iff.mp hi).1

theorem Sound.advance (h : s.Sound call) (hi : s.connections[i]? = some (c, stage))
    (ht : s.advance call i c stage = some t) : t.Sound call := by
  have hfits := (h.stages i c stage hi).2
  cases stage with
  | spawned =>
    simp only [Server.advance] at ht
    split at ht
    · rename_i htls
      split at ht
      · cases ht
      · split at ht
        · rename_i ec hec
          cases ht
          exact h.move hi ConnectionStage.noConfusion ConnectionStage.noConfusion
            ⟨htls, .inl (by rw [hec]; exact Option.some_ne_none ec)⟩
        · rename_i hec
          cases ht
          exact h.move hi ConnectionStage.noConfusion ConnectionStage.noConfusion ⟨htls, hec⟩
    · rename_i htls
      cases ht
      exact h.move hi ConnectionStage.noConfusion ConnectionStage.noConfusion
        fun hf => htls hf.1
  | handshaking =>
    simp only [Server.advance] at ht
    split at ht
    · rename_i ec hec
      cases ht
      exact h.move hi ConnectionStage.noConfusion ConnectionStage.noConfusion
        ⟨hfits.1, .inr (by rw [hec]; exact Option.some_ne_none ec)⟩
    · rename_i hec
      cases ht
      refine h.move hi ConnectionStage.noConfusion ConnectionStage.noConfusion ?_
      rintro ⟨-, hf | hf⟩
      · exact hf hfits.2
      · exact hf hec
  | handing =>
    cases ht
    exact h.hand hi
  | handled => cases ht
  | dropped => cases ht

/- A new connection starts where its coroutine does. -/
theorem Sound.spawn (h : s.Sound call) (ht : t.connections = s.connections ++ [(c, .spawned)])
    (hhandled : t.handled = s.handled) : t.Sound call := by
  refine ⟨fun j d st hj => ?_, fun j hj => ?_⟩
  · rw [ht] at hj
    rw [hhandled]
    by_cases hlt : j < s.connections.length
    · rw [List.getElem?_append_left hlt] at hj
      exact h.stages j d st hj
    · have hlen := (List.getElem?_eq_some_iff.mp hj).1
      rw [List.length_append, List.length_singleton] at hlen
      have hjlen : j = s.connections.length := by omega
      rw [hjlen, List.getElem?_concat_length] at hj
      cases hj
      refine ⟨List.count_eq_zero.mpr fun hmem => ?_, trivial⟩
      exact hlt (h.numbered j hmem)
  · rw [ht, List.length_append]
    rw [hhandled] at hj
    exact Nat.lt_of_lt_of_le (h.numbered j hj) (Nat.le_add_right _ _)

/-! ### A connection on its own -/

theorem coroutine_step (hi : s.connections[i]? = some (c, stage)) :
    step call s (.coroutine i) = s.advance call i c stage := by
  simp only [step, hi]

/- `Handles`: the steps of the coroutine of connection `i` bring it to the handler, once. -/
def Handles (call : ListenCall) (i : ℕ) (s : Server) : Prop :=
  CanReach (step call) (ServerStep.Of i) (fun t => t.handled.count i = 1) s

theorem handles_handing (h : s.Sound call) (hi : s.connections[i]? = some (c, .handing)) :
    Handles call i s := by
  refine canReach_step (coroutine_step hi) rfl (canReach_refl ?_)
  rw [handled_hand, List.count_append, (h.stages i c _ hi).1, List.count_singleton_self]
  rfl

theorem handles_handshaking (h : s.Sound call) (hi : s.connections[i]? = some (c, .handshaking))
    (hc : ¬ c.Fails call) : Handles call i s := by
  obtain ⟨htls, -⟩ := (h.stages i c _ hi).2
  have hhandshake : c.handshake = none := by
    by_contra hne
    exact hc ⟨htls, .inr hne⟩
  have hstep : step call s (.coroutine i) = some (s.move i c .handing) := by
    rw [coroutine_step hi]
    simp only [Server.advance, hhandshake]
  refine canReach_step hstep rfl (handles_handing ?_ (getElem?_move_self hi _))
  exact h.move hi ConnectionStage.noConfusion ConnectionStage.noConfusion hc

theorem handles_spawned (h : s.Sound call) (hlive : ∀ r, s.listen ≠ .returned r)
    (hi : s.connections[i]? = some (c, .spawned)) (hc : ¬ c.Fails call) : Handles call i s := by
  have hreturned : s.hasReturned = false := by
    unfold hasReturned
    split
    · rename_i r hr
      exact absurd hr (hlive r)
    · rfl
  by_cases htls : call.tls = true
  · have hoptions : c.tlsOptions = none := by
      by_contra hne
      exact hc ⟨htls, .inl hne⟩
    have hstep : step call s (.coroutine i) = some (s.move i c .handshaking) := by
      rw [coroutine_step hi]
      simp only [Server.advance, htls, hreturned, hoptions, if_true, Bool.false_eq_true, if_false]
    refine canReach_step hstep rfl (handles_handshaking ?_ (getElem?_move_self hi _) hc)
    exact h.move hi ConnectionStage.noConfusion ConnectionStage.noConfusion ⟨htls, hoptions⟩
  · have hstep : step call s (.coroutine i) = some (s.move i c .handing) := by
      rw [coroutine_step hi]
      simp only [Server.advance, htls]
      rfl
    refine canReach_step hstep rfl (handles_handing ?_ (getElem?_move_self hi _))
    exact h.move hi ConnectionStage.noConfusion ConnectionStage.noConfusion hc

theorem Sound.handles (h : s.Sound call) (hlive : ∀ r, s.listen ≠ .returned r)
    (hi : s.connections[i]? = some (c, stage)) (hc : ¬ c.Fails call) : Handles call i s := by
  obtain ⟨hcount, hfits⟩ := h.stages i c stage hi
  cases stage with
  | spawned => exact handles_spawned h hlive hi hc
  | handshaking => exact handles_handshaking h hi hc
  | handing => exact handles_handing h hi
  | handled => exact canReach_refl hcount
  | dropped => exact absurd hfits hc

/-! ### The listen call on its own -/

/- `GoesOn`: the call's own steps bring it to its next accept. -/
def GoesOn (call : ListenCall) (s : Server) : Prop :=
  CanReach (step call) ServerStep.Own (fun t => t.listen = .accepting) s

theorem goesOn_checking (h : s.listen = .checking) (hs : s.stopRequested = false) :
    GoesOn call s := by
  have hstep : step call s .isStopped = some { s with listen := .accepting } := by
    simp only [step, h, hs, Bool.false_eq_true, if_false]
  exact canReach_step hstep trivial (canReach_refl rfl)

theorem goesOn_creatingContext (h : s.listen = .creatingContext) (hs : s.stopRequested = false) :
    GoesOn call s := by
  have hstep : step call s (.createTlsContext none) = some { s with listen := .checking } := by
    simp only [step, h]
  exact canReach_step hstep rfl (goesOn_checking rfl hs)

theorem setup_works (ha : s.acceptorOpen = true) (next : ListenStage) :
    s.setup none next = { s with listen := next } := by
  simp only [setup, ha, if_true]

theorem goesOn_listening (h : s.listen = .listening) (ha : s.acceptorOpen = true)
    (hs : s.stopRequested = false) : GoesOn call s := by
  have hstep : step call s (.listen none)
      = some { s with listen := if call.tls then .creatingContext else .checking } := by
    simp only [step, h, setup_works ha]
  refine canReach_step hstep rfl ?_
  by_cases htls : call.tls = true
  · exact goesOn_creatingContext (if_pos htls) hs
  · exact goesOn_checking (if_neg htls) hs

theorem goesOn_binding (h : s.listen = .binding) (ha : s.acceptorOpen = true)
    (hs : s.stopRequested = false) : GoesOn call s := by
  have hstep : step call s (.bind none) = some { s with listen := .listening } := by
    simp only [step, h, setup_works ha]
  exact canReach_step hstep rfl (goesOn_listening rfl ha hs)

theorem goesOn_settingOption (h : s.listen = .settingOption) (ha : s.acceptorOpen = true)
    (hs : s.stopRequested = false) : GoesOn call s := by
  have hstep : step call s (.setOption none) = some { s with listen := .binding } := by
    simp only [step, h, setup_works ha]
  exact canReach_step hstep rfl (goesOn_binding rfl ha hs)

theorem goesOn_opening (h : s.listen = .opening) (ha : s.acceptorOpen = false)
    (hs : s.stopRequested = false) : GoesOn call s := by
  have hstep : step call s (.openAcceptor none)
      = some { s with acceptorOpen := true, listen := .settingOption } := by
    simp only [step, h, openAcceptor, ha, Bool.false_eq_true, if_false]
  exact canReach_step hstep rfl (goesOn_settingOption rfl rfl hs)

theorem goesOn_notBegun (h : s.listen = .notBegun) (ha : s.acceptorOpen = false)
    (hs : s.stopRequested = false) : GoesOn call s := by
  have hstep : step call s .begin
      = some { s with listen := .opening, beganStopped := s.stop = .over } := by
    simp only [step, h]
  exact canReach_step hstep trivial (goesOn_opening rfl ha hs)

theorem configure_works (hc : c.Configures call) : s.configure call c
    = { s with listen := .checking, connections := s.connections ++ [(c, .spawned)] } := by
  have happly : applyPreConnectTcpOptions c.setOption call.tcp_opts = none :=
    setOptions_eq_none.mpr hc
  simp only [configure, happly]

theorem goesOn_configuring (h : s.listen = .configuring c) (hc : c.Configures call)
    (hs : s.stopRequested = false) : GoesOn call s := by
  have hstep : step call s .configure = some
      { s with listen := .checking, connections := s.connections ++ [(c, .spawned)] } := by
    simp only [step, h, configure_works hc]
  exact canReach_step hstep trivial (goesOn_checking rfl hs)

theorem Working.goesOn (h : s.Working call) : GoesOn call s := by
  have hopen : ¬ s.BeforeOpen → s.acceptorOpen = true := h.acceptor.mpr
  have hclosed : s.BeforeOpen → s.acceptorOpen = false := by
    intro hb
    by_contra hne
    exact h.acceptor.mp (by simpa using hne) hb
  cases hs : s.listen with
  | notBegun => exact goesOn_notBegun hs (hclosed (.inl hs)) h.notStopped
  | opening => exact goesOn_opening hs (hclosed (.inr hs)) h.notStopped
  | settingOption =>
    exact goesOn_settingOption hs (hopen (by simp [BeforeOpen, hs])) h.notStopped
  | binding => exact goesOn_binding hs (hopen (by simp [BeforeOpen, hs])) h.notStopped
  | listening => exact goesOn_listening hs (hopen (by simp [BeforeOpen, hs])) h.notStopped
  | creatingContext => exact goesOn_creatingContext hs h.notStopped
  | checking => exact goesOn_checking hs h.notStopped
  | accepting => exact canReach_refl hs
  | configuring c => exact goesOn_configuring hs (h.configures c hs) h.notStopped
  | returned r => exact absurd hs (h.live r)

/- A socket that does not take an option ends the call, and with it the accepting. -/
theorem not_goesOn (h : s.listen = .configuring c ∨ ∃ r, s.listen = .returned r)
    (hc : ¬ c.Configures call) : ¬ GoesOn call s := by
  have hinv : ∀ s l t, (s.listen = .configuring c ∨ ∃ r, s.listen = .returned r) → l.Own →
      step call s l = some t → t.listen = .configuring c ∨ ∃ r, t.listen = .returned r := by
    intro s l t hs hl hstep
    obtain ⟨ec, hec⟩ := Option.ne_none_iff_exists'.mp fun happly =>
      hc (setOptions_eq_none.mp happly)
    have happly : applyPreConnectTcpOptions c.setOption call.tcp_opts = some ec := hec
    cases l with
    | configure =>
      rcases hs with hs | ⟨r, hs⟩
      · simp only [step, hs, configure, happly, Option.some.injEq] at hstep
        cases hstep
        exact .inr ⟨_, rfl⟩
      · simp only [step, hs] at hstep
        cases hstep
    | accept r => exact absurd hl id
    | coroutine i => exact absurd hl id
    | store => exact absurd hl id
    | cancelBase ec => exact absurd hl id
    | cancel throws => exact absurd hl id
    | close => exact absurd hl id
    | _ =>
      rcases hs with hs | ⟨r, hs⟩
      · simp only [step, hs] at hstep
        cases hstep
      · simp only [step, hs] at hstep
        cases hstep
  refine not_canReach hinv ?_ h
  rintro u (hu | ⟨r, hu⟩) ha
  · cases hu.symm.trans ha
  · cases hu.symm.trans ha

/-! ### A run without `stop` -/

theorem pending_of_ne (h : ∀ c, s.listen ≠ .configuring c) : s.pending = [] := by
  unfold pending
  split
  · rename_i c hc
    exact absurd hc (h c)
  · rfl

/- Of these stages, those without a connection in hand. -/
structure Between (stage : ListenStage) : Prop extends Underway stage where
  unhanded : ∀ c, stage ≠ .configuring c

theorem pending_nil {stage : ListenStage} (hs : s.listen = stage)
    (hunhanded : ∀ c, stage ≠ .configuring c) : s.pending = [] :=
  pending_of_ne fun c hc => hunhanded c (hs.symm.trans hc)

theorem Working.isOpen (h : s.Working call) {stage : ListenStage} (hs : s.listen = stage)
    (hbegun : stage ≠ .notBegun ∧ stage ≠ .opening) : s.acceptorOpen = true :=
  h.acceptor.mpr (not_beforeOpen hs hbegun)

theorem Working.kept_all (h : s.Working call) {stage : ListenStage} (hs : s.listen = stage)
    (hunhanded : ∀ c, stage ≠ .configuring c) : s.accepted = s.connections.map Prod.fst := by
  rw [h.kept, pending_nil hs hunhanded, List.append_nil]

/- The listen call goes on to a stage that is neither its end nor a new connection. -/
theorem Working.proceed (h : s.Working call) {stage next : ListenStage} (hs : s.listen = stage)
    (hstage : Between stage) (hnext : Between next) :
    Working call { s with listen := next } := by
  refine ⟨hnext.returned, h.notStopped,
    iff_of_true (h.isOpen hs hstage.begun) (not_beforeOpen rfl hnext.begun),
    fun c hc => absurd hc (hnext.unhanded c), ?_⟩
  rw [h.kept_all hs hstage.unhanded, pending_nil rfl hnext.unhanded, List.append_nil]

theorem between_settingOption : Between .settingOption := ⟨⟨by simp, by simp⟩, by simp⟩

theorem between_binding : Between .binding := ⟨⟨by simp, by simp⟩, by simp⟩

theorem between_listening : Between .listening := ⟨⟨by simp, by simp⟩, by simp⟩

theorem between_creatingContext : Between .creatingContext := ⟨⟨by simp, by simp⟩, by simp⟩

theorem between_checking : Between .checking := ⟨⟨by simp, by simp⟩, by simp⟩

theorem between_accepting : Between .accepting := ⟨⟨by simp, by simp⟩, by simp⟩

/- The connections do not matter to the listen call, but for their number. -/
theorem Working.of_listen (h : s.Working call) (hlisten : t.listen = s.listen)
    (hopen : t.acceptorOpen = s.acceptorOpen) (hstop : t.stopRequested = s.stopRequested)
    (haccepted : t.accepted = s.accepted)
    (hconnections : t.connections.map Prod.fst = s.connections.map Prod.fst) :
    t.Working call := by
  have hpending : t.pending = s.pending := by simp only [pending, hlisten]
  refine ⟨fun r => hlisten ▸ h.live r, hstop.trans h.notStopped, ?_,
    fun c hc => h.configures c (hlisten ▸ hc), ?_⟩
  · rw [hopen, BeforeOpen, hlisten]
    exact h.acceptor
  · rw [haccepted, hconnections, hpending]
    exact h.kept

theorem map_fst_set {α β : Type} {xs : List (α × β)} {a : α} {b d : β} {i : ℕ}
    (h : xs[i]? = some (a, b)) : (xs.set i (a, d)).map Prod.fst = xs.map Prod.fst := by
  obtain ⟨hlt, hi⟩ := List.getElem?_eq_some_iff.mp h
  have hmap : i < (xs.map Prod.fst).length := by rwa [List.length_map]
  have hfst : (xs.map Prod.fst).get ⟨i, hmap⟩ = a := by simp [hi]
  rw [List.map_set, ← hfst]
  exact List.set_getElem_self hmap

/-- What one step of a server that nobody stops preserves. -/
theorem working_step (h : s.Working call) (hs : s.Sound call) {l : ServerStep} (hl : l.Works)
    (hc : ∀ c, l = .accept (.ok c) → c.Configures call) (ht : step call s l = some t) :
    t.Working call ∧ t.Sound call := by
  cases l with
  | begin =>
    obtain ⟨hstage, rfl⟩ := step_taken ht
    refine ⟨⟨fun _ => ListenStage.noConfusion, h.notStopped, ?_,
      fun _ => ListenStage.noConfusion, ?_⟩, hs.stages, hs.numbered⟩
    · refine iff_of_false ?_ (not_not_intro (.inr rfl))
      exact fun ha => h.acceptor.mp ha (.inl hstage)
    · exact (h.kept_all hstage (by simp)).trans (List.append_nil _).symm
  | openAcceptor ec =>
    obtain ⟨hstage, rfl⟩ := step_taken ht
    obtain rfl : ec = none := hl
    have ha : s.acceptorOpen = false := by
      by_contra hne
      exact h.acceptor.mp (by simpa using hne) (.inr hstage)
    simp only [openAcceptor, ha, Bool.false_eq_true, if_false]
    refine ⟨⟨fun _ => ListenStage.noConfusion, h.notStopped, ?_,
      fun _ => ListenStage.noConfusion, ?_⟩, hs.stages, hs.numbered⟩
    · exact iff_of_true rfl (not_beforeOpen rfl between_settingOption.begun)
    · exact (h.kept_all hstage (by simp)).trans (List.append_nil _).symm
  | setOption ec =>
    obtain ⟨hstage, rfl⟩ := step_taken ht
    obtain rfl : ec = none := hl
    rw [setup_works (h.isOpen hstage between_settingOption.begun)]
    exact ⟨h.proceed hstage between_settingOption between_binding, hs.stages, hs.numbered⟩
  | bind ec =>
    obtain ⟨hstage, rfl⟩ := step_taken ht
    obtain rfl : ec = none := hl
    rw [setup_works (h.isOpen hstage between_binding.begun)]
    exact ⟨h.proceed hstage between_binding between_listening, hs.stages, hs.numbered⟩
  | listen ec =>
    obtain ⟨hstage, rfl⟩ := step_taken ht
    obtain rfl : ec = none := hl
    rw [setup_works (h.isOpen hstage between_listening.begun)]
    refine ⟨h.proceed hstage between_listening ?_, hs.stages, hs.numbered⟩
    cases call.tls with
    | true => exact between_creatingContext
    | false => exact between_checking
  | createTlsContext ec =>
    obtain rfl : ec = none := hl
    obtain ⟨hstage, ⟨-, rfl⟩ | ⟨e, he, -⟩⟩ := step_taken ht
    · exact ⟨h.proceed hstage between_creatingContext between_checking, hs.stages, hs.numbered⟩
    · cases he
  | isStopped =>
    obtain ⟨hstage, rfl⟩ := step_taken ht
    rw [if_neg (by simp [h.notStopped])]
    exact ⟨h.proceed hstage between_checking between_accepting, hs.stages, hs.numbered⟩
  | accept r =>
    obtain ⟨c, rfl⟩ := hl
    obtain ⟨hstage, rfl⟩ := step_taken ht
    have hlisten : (s.acceptOne (.ok c)).listen = .configuring c := rfl
    have haccepted : (s.acceptOne (.ok c)).accepted = s.accepted ++ [c] := rfl
    refine ⟨⟨fun _ => ListenStage.noConfusion, h.notStopped, ?_, ?_, ?_⟩, hs.stages, hs.numbered⟩
    · exact iff_of_true (h.isOpen hstage between_accepting.begun) (not_beforeOpen hlisten (by simp))
    · intro d hd
      cases hd
      exact hc c rfl
    · rw [haccepted, h.kept_all hstage between_accepting.unhanded]
      rfl
  | configure =>
    obtain ⟨c, hstage, rfl⟩ := step_taken ht
    have haccepted : s.accepted = s.connections.map Prod.fst ++ [c] := by
      rw [h.kept, pending, hstage]
    rw [configure_works (h.configures c hstage)]
    refine ⟨⟨fun _ => ListenStage.noConfusion, h.notStopped, ?_,
      fun _ => ListenStage.noConfusion, ?_⟩, hs.spawn rfl rfl⟩
    · exact iff_of_true (h.isOpen hstage (by simp)) (not_beforeOpen rfl between_checking.begun)
    · rw [haccepted]
      simp [pending]
  | coroutine i =>
    obtain ⟨c, stage, hi, hadvance⟩ := step_taken ht
    refine ⟨?_, hs.advance hi hadvance⟩
    obtain ⟨next, handled, rfl⟩ := advance_frame hadvance
    exact h.of_listen rfl rfl rfl rfl (map_fst_set hi)
  | store => exact absurd hl id
  | cancelBase ec => exact absurd hl id
  | cancel throws => exact absurd hl id
  | close => exact absurd hl id

theorem Working.serves (h : s.Working call) (hs : s.Sound call) : s.Serves call := by
  refine ⟨h.goesOn, h.kept, fun i => ?_, fun i c stage hi hc => hs.handles h.live hi hc,
    fun i c stage hi hc => ?_⟩
  · cases hi : s.connections[i]? with
    | none =>
      rw [List.count_eq_zero.mpr fun hmem =>
        Nat.not_lt.mpr (List.getElem?_eq_none_iff.mp hi) (hs.numbered i hmem)]
      exact Nat.zero_le 1
    | some x =>
      obtain ⟨c, stage⟩ := x
      rw [(hs.stages i c stage hi).1]
      split
      · exact Nat.le_refl 1
      · exact Nat.zero_le 1
  · obtain ⟨hcount, hfits⟩ := hs.stages i c stage hi
    rw [hcount, if_neg]
    rintro rfl
    exact hfits hc

theorem fresh_working (call : ListenCall) : fresh.Working call ∧ fresh.Sound call := by
  refine ⟨⟨fun _ => ListenStage.noConfusion, rfl, ?_, fun _ => ListenStage.noConfusion, rfl⟩,
    fun i c stage hi => ?_, fun i hi => ?_⟩
  · exact iff_of_false Bool.noConfusion (not_not_intro (.inl rfl))
  · cases hi
  · cases hi

theorem run_working {ls : List ServerStep} (hworks : ∀ l ∈ ls, l.Works)
    (hc : ∀ c, .accept (.ok c) ∈ ls → c.Configures call)
    (h : run (step call) fresh ls = some t) : t.Working call ∧ t.Sound call := by
  have hstep : ∀ (s : Server) (l : ServerStep) t, s.Working call ∧ s.Sound call →
      (l.Works ∧ ∀ c, l = .accept (.ok c) → c.Configures call) → step call s l = some t →
      t.Working call ∧ t.Sound call :=
    fun s l t hs hl ht => working_step hs.1 hs.2 hl.1 hl.2 ht
  have hboth := run_invariant hstep (fresh_working call)
    (guarded_of_forall fun l hl _ => ⟨hworks l hl, fun c hlc => hc c (hlc ▸ hl)⟩) h
  exact hboth

/-- On a server that nobody stops and whose acceptor works: it serves in every state of the
run if and only if every accepted socket takes the options of the call. Failures of TLS
options and of handshakes cost their own connection only. -/
theorem listen_serves_iff (call : ListenCall) (ls : List ServerStep)
    (hworks : ∀ l ∈ ls, l.Works) (t : Server) (h : run (step call) fresh ls = some t) :
    (∀ xs ys u, ls = xs ++ ys → run (step call) fresh xs = some u → u.Serves call) ↔
      ∀ c, .accept (.ok c) ∈ ls → c.Configures call := by
  constructor
  · intro hserves c hc
    by_contra hno
    obtain ⟨xs, ys, hls⟩ := List.append_of_mem hc
    have hsplit : ls = (xs ++ [.accept (.ok c)]) ++ ys := by rw [hls]; simp
    rw [hsplit, run_append] at h
    obtain ⟨v, hv, -⟩ := Option.bind_eq_some_iff.mp h
    obtain ⟨u, -, hstep⟩ := run_concat hv
    have hlisten : v.listen = .configuring c := by
      obtain ⟨-, rfl⟩ := step_taken hstep
      rfl
    exact not_goesOn (.inl hlisten) hno (hserves _ _ v hsplit hv).listening
  · intro hc xs ys u hls hu
    have hmem : ∀ l ∈ xs, l ∈ ls := fun l hl => hls ▸ List.mem_append_left _ hl
    obtain ⟨hw, hs⟩ := run_working (fun l hl => hworks l (hmem l hl))
      (fun c hl => hc c (hmem _ hl)) hu
    exact hw.serves hs

def tlsListen : ListenCall := ⟨true, .default⟩

def setUp : List ServerStep :=
  [.begin, .openAcceptor none, .setOption none, .bind none, .listen none, .createTlsContext none,
    .isStopped]

def goodClient : Connection := ⟨fun _ => none, none, none⟩

/- Its handshake fails. -/
def rudeClient : Connection := ⟨fun _ => none, none, some (.network .TLS_HANDSHAKE_FAILED)⟩

/- It was reset before `TCP_NODELAY` could be set. -/
def resetClient : Connection := ⟨fun _ => some (.other 0 22), none, none⟩

def servedRun : List ServerStep :=
  setUp ++ [.accept (.ok rudeClient), .configure, .isStopped, .accept (.ok goodClient),
    .coroutine 0, .configure, .coroutine 0, .coroutine 1, .coroutine 1, .coroutine 1]

theorem listen_serves_others :
    ∃ t, run (step tlsListen) fresh servedRun = some t ∧
      ∀ xs ys u, servedRun = xs ++ ys → run (step tlsListen) fresh xs = some u →
        u.Serves tlsListen := by
  let t : Server := ⟨true, false, .checking, .notCalled,
    [(rudeClient, .dropped), (goodClient, .handled)], false, [rudeClient, goodClient], [1]⟩
  refine ⟨t, rfl, (listen_serves_iff tlsListen servedRun ?_ t rfl).mpr ?_⟩
  · simp [servedRun, setUp, ServerStep.Works]
  · intro c hc
    have hclient : c = rudeClient ∨ c = goodClient := by
      simpa [servedRun, setUp] using hc
    rcases hclient with rfl | rfl
    · exact fun _ _ => rfl
    · exact fun _ _ => rfl

theorem reset_client_ends_listen :
    ∃ t, run (step tlsListen) fresh (setUp ++ [.accept (.ok resetClient), .configure]) = some t ∧
      t.listen = .returned (.error (.network .OPTION_ERROR)) ∧ ¬ t.Serves tlsListen := by
  refine ⟨⟨true, false, .returned (.error (.network .OPTION_ERROR)), .notCalled, [], false,
    [resetClient], []⟩, rfl, rfl, fun hserves => ?_⟩
  refine not_goesOn (c := resetClient) (.inr ⟨_, rfl⟩) (fun hc => ?_) hserves.listening
  cases hc .no_delay (by simp [tlsListen, TcpOptions.default, TcpOptions.inOrder])

end Server

end NetworkStack
