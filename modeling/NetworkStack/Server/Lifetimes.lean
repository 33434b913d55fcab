import NetworkStack.Server.Accept

/-!
# Connections that outlive their listen call

`asyncListenTls` spawns `acceptTlsSocket` with references to its own locals and does not
wait for it. In any run, with `stop` or without: which connections still come to an end.
-/

namespace NetworkStack

open Machine

namespace Server

variable {call : ListenCall} {s t : Server} {l : ServerStep} {ls : List ServerStep} {i : ℕ}
  {c : Connection} {stage : ConnectionStage}

/-- The connection has come to its end: the handler has been given it once, or it failed and
the handler has not. -/
def EndOf (call : ListenCall) (i : ℕ) (c : Connection) (s : Server) : Prop :=
  (¬ c.Fails call ∧ s.connections[i]? = some (c, .handled) ∧ s.handled.count i = 1) ∨
    (c.Fails call ∧ s.connections[i]? = some (c, .dropped) ∧ s.handled.count i = 0)

/- What the steps `ls` say of the connections. -/
structure Accounted (call : ListenCall) (ls : List ServerStep) (s : Server) : Prop extends
    Sound call s where
  begun : ∀ i, .coroutine i ∈ ls → i < s.connections.length
  started : ∀ (i : ℕ) (c : Connection) (stage : ConnectionStage),
    s.connections[i]? = some (c, stage) → (stage = .spawned ↔ .coroutine i ∉ ls)

/-! ### What a step does to the connections -/

theorem handled_setup (ec : Option ErrorCode) (next : ListenStage) :
    (s.setup ec next).connections = s.connections ∧ (s.setup ec next).handled = s.handled := by
  unfold setup
  split
  · exact ⟨rfl, rfl⟩
  · exact ⟨rfl, rfl⟩

theorem handled_openAcceptor (ec : Option ErrorCode) :
    (s.openAcceptor ec).connections = s.connections ∧
      (s.openAcceptor ec).handled = s.handled := by
  unfold openAcceptor
  split
  · exact ⟨rfl, rfl⟩
  · exact ⟨rfl, rfl⟩

theorem handled_acceptOne (r : Except ErrorCode Connection) :
    (s.acceptOne r).connections = s.connections ∧ (s.acceptOne r).handled = s.handled := by
  cases r with
  | error ec =>
    simp only [acceptOne]
    split
    · exact ⟨rfl, rfl⟩
    · exact ⟨rfl, rfl⟩
  | ok c => exact ⟨rfl, rfl⟩

theorem handled_configure (c : Connection) : (s.configure call c).handled = s.handled ∧
    ((s.configure call c).connections = s.connections ∨
      (s.configure call c).connections = s.connections ++ [(c, .spawned)]) := by
  unfold configure
  split
  · exact ⟨rfl, .inl rfl⟩
  · exact ⟨rfl, .inr rfl⟩

/- Of the steps that are no coroutine's, only `configure` adds a connection. -/
theorem step_connections (h : step call s l = some t) (hl : ∀ i, l ≠ .coroutine i) :
    t.handled = s.handled ∧ (t.connections = s.connections ∨
      ∃ c, t.connections = s.connections ++ [(c, .spawned)]) := by
  have htaken := step_taken h
  cases l with
  | coroutine i => exact absurd rfl (hl i)
  | configure =>
    obtain ⟨c, -, rfl⟩ := htaken
    exact (handled_configure c).imp_right (Or.imp_right fun hnew => ⟨c, hnew⟩)
  | openAcceptor ec =>
    obtain ⟨-, rfl⟩ := htaken
    exact ⟨(handled_openAcceptor ec).2, .inl (handled_openAcceptor ec).1⟩
  | setOption ec =>
    obtain ⟨-, rfl⟩ := htaken
    exact ⟨(handled_setup ec _).2, .inl (handled_setup ec _).1⟩
  | bind ec =>
    obtain ⟨-, rfl⟩ := htaken
    exact ⟨(handled_setup ec _).2, .inl (handled_setup ec _).1⟩
  | listen ec =>
    obtain ⟨-, rfl⟩ := htaken
    exact ⟨(handled_setup ec _).2, .inl (handled_setup ec _).1⟩
  | createTlsContext ec =>
    obtain ⟨-, ⟨-, rfl⟩ | ⟨e, -, rfl⟩⟩ := htaken
    · exact ⟨rfl, .inl rfl⟩
    · exact ⟨rfl, .inl rfl⟩
  | isStopped =>
    obtain ⟨-, rfl⟩ := htaken
    split
    · exact ⟨rfl, .inl rfl⟩
    · exact ⟨rfl, .inl rfl⟩
  | accept r =>
    obtain ⟨-, rfl⟩ := htaken
    exact ⟨(handled_acceptOne r).2, .inl (handled_acceptOne r).1⟩
  | _ =>
    obtain ⟨-, rfl⟩ := htaken
    exact ⟨rfl, .inl rfl⟩

theorem Sound.of_connections (h : s.Sound call) (hconnections : t.connections = s.connections)
    (hhandled : t.handled = s.handled) : t.Sound call := by
  refine ⟨fun j d st hj => ?_, fun j hj => ?_⟩
  · rw [hhandled]
    exact h.stages j d st (hconnections ▸ hj)
  · rw [hconnections]
    exact h.numbered j (hhandled ▸ hj)

/- A coroutine that takes a step has started. -/
theorem advance_started (h : s.advance call i c stage = some t) :
    ∃ next : ConnectionStage, next ≠ .spawned ∧
      t.connections = s.connections.set i (c, next) := by
  cases stage with
  | spawned =>
    simp only [advance] at h
    split at h
    · split at h
      · cases h
      · split at h
        · cases h
          exact ⟨.dropped, ConnectionStage.noConfusion, rfl⟩
        · cases h
          exact ⟨.handshaking, ConnectionStage.noConfusion, rfl⟩
    · cases h
      exact ⟨.handing, ConnectionStage.noConfusion, rfl⟩
  | handshaking =>
    simp only [advance] at h
    split at h
    · cases h
      exact ⟨.dropped, ConnectionStage.noConfusion, rfl⟩
    · cases h
      exact ⟨.handing, ConnectionStage.noConfusion, rfl⟩
  | handing =>
    cases h
    exact ⟨.handled, ConnectionStage.noConfusion, rfl⟩
  | handled => cases h
  | dropped => cases h

theorem coroutine_mem_concat (j : ℕ) :
    .coroutine j ∈ ls ++ [l] ↔ .coroutine j ∈ ls ∨ l = .coroutine j := by
  rw [List.mem_append, List.mem_singleton, @eq_comm _ l]

theorem Accounted.coroutine (hs : Accounted call ls s) (hi : s.connections[i]? = some (c, stage))
    (h : s.advance call i c stage = some t) : Accounted call (ls ++ [.coroutine i]) t := by
  obtain ⟨next, hnext, hset⟩ := advance_started h
  have hlt : i < s.connections.length := (List.getElem?_eq_some_iff.mp hi).1
  refine ⟨hs.toSound.advance hi h, fun j hj => ?_, fun j d st hj => ?_⟩
  · rw [hset, List.length_set]
    rcases (coroutine_mem_concat j).mp hj with hj | hj
    · exact hs.begun j hj
    · cases hj
      exact hlt
  · rw [coroutine_mem_concat]
    rw [hset] at hj
    by_cases hji : i = j
    · subst hji
      rw [List.getElem?_set_self hlt] at hj
      cases hj
      exact iff_of_false hnext (not_not_intro (.inr rfl))
    · rw [List.getElem?_set_ne hji] at hj
      rw [hs.started j d st hj, or_iff_left fun hc => hji (ServerStep.coroutine.inj hc)]

theorem Accounted.same (hs : Accounted call ls s) (hl : ∀ i, l ≠ .coroutine i)
    (hconnections : t.connections = s.connections) (hhandled : t.handled = s.handled) :
    Accounted call (ls ++ [l]) t := by
  refine ⟨hs.toSound.of_connections hconnections hhandled, fun j hj => ?_, fun j d st hj => ?_⟩
  · rw [hconnections]
    exact hs.begun j (((coroutine_mem_concat j).mp hj).resolve_right (hl j))
  · rw [coroutine_mem_concat, or_iff_left (hl j)]
    exact hs.started j d st (hconnections ▸ hj)

theorem Accounted.spawn (hs : Accounted call ls s) (hl : ∀ i, l ≠ .coroutine i)
    (hconnections : t.connections = s.connections ++ [(c, .spawned)])
    (hhandled : t.handled = s.handled) : Accounted call (ls ++ [l]) t := by
  refine ⟨hs.toSound.spawn hconnections hhandled, fun j hj => ?_, fun j d st hj => ?_⟩
  · rw [hconnections, List.length_append]
    have hj := hs.begun j (((coroutine_mem_concat j).mp hj).resolve_right (hl j))
    exact Nat.lt_add_right _ hj
  · rw [coroutine_mem_concat, or_iff_left (hl j)]
    rw [hconnections] at hj
    by_cases hlt : j < s.connections.length
    · rw [List.getElem?_append_left hlt] at hj
      exact hs.started j d st hj
    · have hlen := (List.getElem?_eq_some_iff.mp hj).1
      rw [List.length_append, List.length_singleton] at hlen
      have hjlen : j = s.connections.length := by omega
      rw [hjlen, List.getElem?_concat_length] at hj
      cases hj
      exact iff_of_true rfl fun hc => hlt (hs.begun j hc)

theorem Accounted.step (hs : Accounted call ls s) (h : step call s l = some t) :
    Accounted call (ls ++ [l]) t := by
  by_cases hl : ∃ i, l = .coroutine i
  · obtain ⟨i, rfl⟩ := hl
    obtain ⟨c, stage, hi, hadvance⟩ := step_taken h
    exact hs.coroutine hi hadvance
  · have hl : ∀ i, l ≠ .coroutine i := fun i hi => hl ⟨i, hi⟩
    obtain ⟨hhandled, hsame | ⟨c, hnew⟩⟩ := step_connections h hl
    · exact hs.same hl hsame hhandled
    · exact hs.spawn hl hnew hhandled

theorem accounted_run (h : run (step call) fresh ls = some s) : Accounted call ls s := by
  refine run_trace ⟨(fresh_working call).2, ?_, ?_⟩ (fun _ _ _ _ hs => hs.step) h
  · intro i hi
    cases hi
  · intro i c stage hi
    cases hi

/-! ### Coming to an end -/

/- `Ends`: by its own steps. -/
def Ends (call : ListenCall) (i : ℕ) (c : Connection) (s : Server) : Prop :=
  CanReach (step call) (ServerStep.Of i) (EndOf call i c) s

theorem Sound.end_handled (h : s.Sound call) (hi : s.connections[i]? = some (c, .handled)) :
    EndOf call i c s := by
  obtain ⟨hcount, hfits⟩ := h.stages i c _ hi
  exact .inl ⟨hfits, hi, hcount⟩

theorem Sound.end_dropped (h : s.Sound call) (hi : s.connections[i]? = some (c, .dropped)) :
    EndOf call i c s := by
  obtain ⟨hcount, hfits⟩ := h.stages i c _ hi
  exact .inr ⟨hfits, hi, hcount⟩

theorem ends_handing (h : s.Sound call) (hi : s.connections[i]? = some (c, .handing)) :
    Ends call i c s :=
  canReach_step (coroutine_step hi) rfl
    (canReach_refl ((h.hand hi).end_handled (getElem?_move_self hi .handled)))

theorem ends_handshaking (h : s.Sound call) (hi : s.connections[i]? = some (c, .handshaking)) :
    Ends call i c s := by
  have hstep := @coroutine_step call s i c _ hi
  cases hshake : c.handshake with
  | none =>
    simp only [advance, hshake] at hstep
    have hsound := h.advance hi ((coroutine_step hi).symm.trans hstep)
    exact canReach_step hstep rfl (ends_handing hsound (getElem?_move_self hi .handing))
  | some ec =>
    simp only [advance, hshake] at hstep
    have hsound := h.advance hi ((coroutine_step hi).symm.trans hstep)
    exact canReach_step hstep rfl
      (canReach_refl (hsound.end_dropped (getElem?_move_self hi .dropped)))

theorem ends_spawned (h : s.Sound call) (hi : s.connections[i]? = some (c, .spawned))
    (hframe : ¬ (call.tls = true ∧ s.hasReturned = true)) : Ends call i c s := by
  have hstep := @coroutine_step call s i c _ hi
  by_cases htls : call.tls = true
  · have hlive : ¬ s.hasReturned = true := fun hreturned => hframe ⟨htls, hreturned⟩
    cases hoptions : c.tlsOptions with
    | none =>
      simp only [advance, htls, hlive, hoptions, if_true] at hstep
      have hsound := h.advance hi ((coroutine_step hi).symm.trans hstep)
      exact canReach_step hstep rfl
        (ends_handshaking hsound (getElem?_move_self hi .handshaking))
    | some ec =>
      simp only [advance, htls, hlive, hoptions, if_true] at hstep
      have hsound := h.advance hi ((coroutine_step hi).symm.trans hstep)
      exact canReach_step hstep rfl
        (canReach_refl (hsound.end_dropped (getElem?_move_self hi .dropped)))
  · simp only [advance, htls] at hstep
    have hsound := h.advance hi ((coroutine_step hi).symm.trans hstep)
    exact canReach_step hstep rfl (ends_handing hsound (getElem?_move_self hi .handing))

/- A coroutine that would start in the frame that is gone takes no step. -/
theorem not_ends_spawned (hi : s.connections[i]? = some (c, .spawned)) (htls : call.tls = true)
    (hreturned : s.hasReturned = true) : ¬ Ends call i c s := by
  refine not_canReach (fun u l v hu hl hstep => ?_) (fun u hu => ?_) (Eq.refl s)
  · obtain rfl : s = u := hu
    obtain rfl : l = .coroutine i := hl
    rw [coroutine_step hi] at hstep
    simp only [advance, htls, hreturned, if_true] at hstep
    cases hstep
  · obtain rfl : s = u := hu
    rintro (⟨-, hend, -⟩ | ⟨-, hend, -⟩)
    · cases hi.symm.trans hend
    · cases hi.symm.trans hend

theorem Sound.ends_iff (h : s.Sound call) (hi : s.connections[i]? = some (c, stage)) :
    Ends call i c s ↔ ¬ (call.tls = true ∧ s.hasReturned = true ∧ stage = .spawned) := by
  cases stage with
  | spawned =>
    refine ⟨?_, fun hframe => ends_spawned h hi fun hgone => hframe ⟨hgone.1, hgone.2, rfl⟩⟩
    rintro hends ⟨htls, hreturned, -⟩
    exact not_ends_spawned hi htls hreturned hends
  | handshaking => exact iff_of_true (ends_handshaking h hi) (by simp)
  | handing => exact iff_of_true (ends_handing h hi) (by simp)
  | handled => exact iff_of_true (canReach_refl (h.end_handled hi)) (by simp)
  | dropped => exact iff_of_true (canReach_refl (h.end_dropped hi)) (by simp)

/-- In every state of every run: its own coroutine still brings a connection to its end,
unless it came over TLS and the listen call returned before the coroutine's first step. -/
theorem connection_ends_iff (call : ListenCall) (ls : List ServerStep) (t : Server) (i : ℕ)
    (c : Connection) (stage : ConnectionStage) (h : run (step call) fresh ls = some t)
    (hi : t.connections[i]? = some (c, stage)) :
    CanReach (step call) (ServerStep.Of i) (EndOf call i c) t ↔
      ¬ (call.tls = true ∧ t.hasReturned = true ∧ .coroutine i ∉ ls) := by
  have hs := accounted_run h
  rw [← hs.started i c stage hi]
  exact hs.toSound.ends_iff hi

/- `stop` comes while the coroutine of the second connection waits for its turn. -/
def stoppedRun : List ServerStep :=
  setUp ++ [.accept (.ok rudeClient), .configure, .isStopped, .coroutine 0,
    .accept (.ok goodClient), .configure, .store, .cancelBase none, .cancel false, .close,
    .isStopped]

theorem connection_ends_iff_stopped :
    ∃ t, run (step tlsListen) fresh stoppedRun = some t ∧ t.hasReturned = true ∧
      CanReach (step tlsListen) (ServerStep.Of 0) (EndOf tlsListen 0 rudeClient) t ∧
      ¬ CanReach (step tlsListen) (ServerStep.Of 1) (EndOf tlsListen 1 goodClient) t := by
  let t : Server := ⟨false, true, .returned (.ok ()), .over,
    [(rudeClient, .handshaking), (goodClient, .spawned)], false, [rudeClient, goodClient], []⟩
  have hrun : run (step tlsListen) fresh stoppedRun = some t := rfl
  refine ⟨t, hrun, rfl, ?_, ?_⟩
  · rw [connection_ends_iff tlsListen stoppedRun t 0 rudeClient .handshaking hrun rfl]
    simp [stoppedRun, setUp]
  · rw [connection_ends_iff tlsListen stoppedRun t 1 goodClient .spawned hrun rfl]
    simp [stoppedRun, setUp, tlsListen, t, hasReturned]

end Server

end NetworkStack
