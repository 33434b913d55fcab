import NetworkStack.Socket.ReadExact

/-!
# Read calls as consumers of one byte stream

First what a failed transport read leaves in `_read_buffer`, then the law of
whole runs: as long as the transport delivers, every byte it brought is either
handed out once, in order, or still buffered.
-/

namespace NetworkStack.SocketDetail

def newReads (s t : Socket) : List (Except ErrorCode Bytes) := t.reads.drop s.reads.length

theorem newReads_of_append {s t : Socket} {rs : List (Except ErrorCode Bytes)}
    (h : t.reads = s.reads ++ rs) : newReads s t = rs := by
  rw [newReads, h, List.drop_left]

theorem delivered_append (xs ys : List (Except ErrorCode Bytes)) :
    delivered (xs ++ ys) = delivered xs ++ delivered ys :=
  List.flatMap_append

theorem delivered_ok (chunks : List Bytes) : delivered (chunks.map .ok) = chunks.flatten := by
  induction chunks with
  | nil => rfl
  | cons c cs ih =>
    rw [List.map_cons, List.flatten_cons, ← ih]
    rfl

theorem delivered_failed {r : Except ErrorCode Bytes} (h : Failed r) : delivered [r] = [] := by
  cases r with
  | error e => rfl
  | ok bytes =>
    have : bytes = [] := h
    subst this
    rfl

theorem Gathered.reads {s t : Socket} {cs : List Bytes} (h : Gathered s cs t) :
    t.reads = s.reads ++ cs.map .ok := by
  rw [h.state]

theorem Gathered.buffer {s t : Socket} {cs : List Bytes} (h : Gathered s cs t) :
    t.readBuffer = s.readBuffer ++ cs.flatten := by
  rw [h.state]

theorem Gathered.not_failed {s t : Socket} {cs : List Bytes} (h : Gathered s cs t) :
    ∀ r ∈ cs.map (Except.ok (ε := ErrorCode)), ¬Failed r := by
  intro r hr
  obtain ⟨c, hc, rfl⟩ := List.mem_map.mp hr
  exact h.nonempty c hc

theorem Handed.reads {s : Socket} {out bytes : Bytes} {c : ReadCall} (h : Handed s out bytes c) :
    c.socket.reads = s.reads := by
  rw [h.state]

theorem Handed.incoming {s : Socket} {out bytes : Bytes} {c : ReadCall}
    (h : Handed s out bytes c) : c.socket.incoming = s.incoming := by
  rw [h.state]

theorem Broken.log {n : ℕ} {s mid t : Socket} {cs : List Bytes} (hg : Gathered s cs mid)
    (hb : Broken n mid t) : ∃ bad, Failed bad ∧ t.reads = s.reads ++ (cs.map .ok ++ [bad]) := by
  obtain ⟨bad, hbad, hst⟩ := hb.state
  refine ⟨bad, hbad, ?_⟩
  rw [hst, hg.reads, List.append_assoc]

theorem Broken.buffer {n : ℕ} {s t : Socket} (hb : Broken n s t) :
    t.readBuffer = s.readBuffer ++ List.replicate n 0 := by
  obtain ⟨bad, -, hst⟩ := hb.state
  rw [hst]

/- A call that fails in the transport leaves the prepared region of its last read
behind: one zero byte for every byte of its output. -/
theorem Effect.failed_buffer {s : Socket} {out : Bytes} {c : ReadCall} (e : Effect s out c)
    (hf : ∃ r ∈ newReads s c.socket, Failed r) :
    c.socket.readBuffer
      = s.readBuffer ++ delivered (newReads s c.socket) ++ List.replicate out.length 0 := by
  obtain ⟨r, hr, hfail⟩ := hf
  cases e with
  | refused cs ec hg hres hout =>
    rw [newReads_of_append hg.reads] at hr
    exact absurd hfail (hg.not_failed r hr)
  | handed cs mid bytes hg hm =>
    rw [newReads_of_append (hm.reads.trans hg.reads)] at hr
    exact absurd hfail (hg.not_failed r hr)
  | broken cs mid ec hg hb hres =>
    obtain ⟨bad, hbad, hlog⟩ := Broken.log hg hb
    rw [newReads_of_append hlog, delivered_append, delivered_ok, delivered_failed hbad,
      List.append_nil, hb.buffer, hg.buffer]

/-- After a failed transport read the buffer is the old one followed by the bytes
delivered before the failure exactly when the call had no room for output. -/
theorem failed_read_keeps_buffer_iff (s : Socket) (op : ReadOp) (c : ReadCall)
    (h : op.run s = some c) (hf : ∃ r ∈ newReads s c.socket, Failed r) :
    c.socket.readBuffer = s.readBuffer ++ delivered (newReads s c.socket) ↔ op.out = [] := by
  rw [(ReadOp.run_effect h).failed_buffer hf]
  constructor
  · intro heq
    have hlen := congrArg List.length heq
    simp only [List.length_append, List.length_replicate] at hlen
    exact List.eq_nil_of_length_eq_zero (by omega)
  · intro hout
    simp [hout]

/- A `readUntil` without room for output asks for no byte and takes the answer for the end
of the stream. -/
theorem failed_readUntil_without_output :
    ∃ c, (ReadOp.readUntil [] [13, 10]).run (Socket.fresh [.data [65, 66]]) = some c ∧
      c.result = .error (.asio .eof) ∧
      (∃ r ∈ newReads (Socket.fresh [.data [65, 66]]) c.socket, Failed r) ∧
      c.socket.readBuffer = (Socket.fresh [.data [65, 66]]).readBuffer
        ++ delivered (newReads (Socket.fresh [.data [65, 66]]) c.socket) := by
  have hrun : (ReadOp.readUntil [] [13, 10]).run (Socket.fresh [.data [65, 66]])
      = some ⟨.error (.asio .eof), [], ⟨true, [], [.data [65, 66]], [.ok []], [], []⟩⟩ := by
    show asyncReadUntilCommon _ _ _ = _
    unfold asyncReadUntilCommon
    rw [pullLoop_pull rfl]
    rfl
  have hfail : ∃ r ∈ newReads (Socket.fresh [.data [65, 66]])
      ⟨true, [], [.data [65, 66]], [.ok []], [], []⟩, Failed r :=
    ⟨.ok [], by simp [newReads, Socket.fresh], rfl⟩
  exact ⟨_, hrun, rfl, hfail, (failed_read_keeps_buffer_iff _ _ _ hrun hfail).mpr rfl⟩

/- `readSome` with room for two bytes times out on an idle connection: the buffer
now holds two zero bytes nobody sent. -/
theorem timed_out_readSome_pads_buffer :
    ∃ c, (ReadOp.readSome [0, 0]).run (Socket.fresh [.fail timeoutFault]) = some c ∧
      c.result = .error (.network .CONNECTION_TIMEOUT) ∧
      (∃ r ∈ newReads (Socket.fresh [.fail timeoutFault]) c.socket, Failed r) ∧
      c.socket.readBuffer = [0, 0] ∧
      c.socket.readBuffer ≠ (Socket.fresh [.fail timeoutFault]).readBuffer
        ++ delivered (newReads (Socket.fresh [.fail timeoutFault]) c.socket) := by
  refine ⟨_, rfl, rfl, ⟨.error makeTimeoutError, ?_, trivial⟩, rfl, ?_⟩
  · simp [newReads, Socket.fresh, timeoutFault, faultCode]
  · decide

/-! ### Runs of calls -/

structure ReadStep where
  op : ReadOp
  before : Socket
  call : ReadCall

/- Calls made one after another on one socket; `none` when one of them never
returns. -/
def runReads : List ReadOp → Socket → Option (List ReadStep × Socket)
  | [], s => some ([], s)
  | op :: ops, s =>
    match op.run s with
    | none => none
    | some c => (runReads ops c.socket).map fun (steps, t) => (⟨op, s, c⟩ :: steps, t)

def ReadStep.handedOut (step : ReadStep) : Bytes :=
  match step.call.result with
  | .ok n => step.call.out.take n
  | .error _ => []

/- What the interface promises of one call besides conservation of the stream. -/
structure ReadStep.Contract (step : ReadStep) : Prop where
  refused : step.call.result = .error (.network .PROTOCOL_ERROR) →
    step.call.out = step.op.out ∧ step.call.socket.readBuffer
      = step.before.readBuffer ++ delivered (newReads step.before step.call.socket)
  exact : ∀ out n, step.op = .readExact out → step.call.result = .ok n → n = out.length
  some : ∀ out n, step.op = .readSome out → out ≠ [] → step.call.result = .ok n →
    1 ≤ n ∧ n ≤ out.length

theorem Effect.log {s : Socket} {out : Bytes} {c : ReadCall} (e : Effect s out c) :
    ∃ rs, c.socket.reads = s.reads ++ rs := by
  cases e with
  | refused cs ec hg hres hout => exact ⟨_, hg.reads⟩
  | handed cs mid bytes hg hm => exact ⟨_, hm.reads.trans hg.reads⟩
  | broken cs mid ec hg hb hres =>
    obtain ⟨bad, -, hlog⟩ := Broken.log hg hb
    exact ⟨_, hlog⟩

/- A call whose transport reads all succeeded conserves the stream. -/
theorem Effect.conserves {op : ReadOp} {s : Socket} {c : ReadCall} (e : Effect s op.out c)
    (hok : ∀ r ∈ newReads s c.socket, ¬Failed r) :
    (ReadStep.mk op s c).handedOut ++ c.socket.readBuffer
        = s.readBuffer ++ delivered (newReads s c.socket) ∧
      delivered (newReads s c.socket) ++ Chunked.arriving c.socket.incoming
        = Chunked.arriving s.incoming := by
  cases e with
  | refused cs ec hg hres hout =>
    rw [newReads_of_append hg.reads, delivered_ok]
    exact ⟨by simp [ReadStep.handedOut, hres, hg.buffer], hg.stream.symm⟩
  | handed cs mid bytes hg hm =>
    rw [newReads_of_append (hm.reads.trans hg.reads), delivered_ok, hm.incoming]
    refine ⟨?_, hg.stream.symm⟩
    simp only [ReadStep.handedOut, hm.result, hm.front]
    rw [← hg.buffer, hm.buffer]
  | broken cs mid ec hg hb hres =>
    obtain ⟨bad, hbad, hlog⟩ := Broken.log hg hb
    rw [newReads_of_append hlog] at hok
    exact absurd hbad (hok bad (by simp))

theorem readExact_size {s : Socket} {out : Bytes} {c : ReadCall} {n : ℕ}
    (h : asyncReadExactCommon s out = some c) (hr : c.result = .ok n) : n = out.length := by
  cases hs : s.connected with
  | false =>
    simp only [asyncReadExactCommon, hs, if_true, Option.some.injEq] at h
    subst h
    cases hr
  | true =>
    rcases readExact_cases hs h with ⟨hok, -⟩ | ⟨ec, cs, mid, herr, -⟩
    · rw [hok] at hr
      cases hr
      rfl
    · rw [herr] at hr
      cases hr

theorem handOut_nonempty {t : Socket} {out : Bytes} {n : ℕ} (hb : t.readBuffer ≠ [])
    (hout : out ≠ []) (hr : (handOut t (zeroFill out) none).result = .ok n) :
    1 ≤ n ∧ n ≤ out.length := by
  have hn : n = min t.readBuffer.length out.length := by
    simpa [handOut, move_data] using hr.symm
  have h1 := List.length_pos_iff.mpr hb
  have h2 := List.length_pos_iff.mpr hout
  omega

theorem readSome_size {s : Socket} {out : Bytes} {c : ReadCall} {n : ℕ}
    (h : asyncReadSomeCommon s out = some c) (hout : out ≠ []) (hr : c.result = .ok n) :
    1 ≤ n ∧ n ≤ out.length := by
  unfold asyncReadSomeCommon at h
  split at h
  · cases h; cases hr
  · simp only at h
    split at h
    · rename_i hz
      have := congrArg List.length hz
      rw [length_zeroFill] at this
      exact absurd (List.eq_nil_of_length_eq_zero this) hout
    · split at h
      · split at h
        · cases h
        · cases h; cases hr
        · rename_i t hp
          cases h
          rcases pull_cases hp with ⟨-, -, bs, -, hg⟩ | ⟨⟨ec, he⟩, -⟩
          · have hbs : bs ≠ [] := hg.nonempty bs (List.mem_singleton_self bs)
            exact handOut_nonempty (by rw [hg.buffer]; simp [hbs]) hout hr
          · cases he
      · rename_i hb
        cases h
        exact handOut_nonempty hb hout hr

theorem ReadStep.contract {op : ReadOp} {s : Socket} {c : ReadCall} (h : op.run s = some c)
    (hok : ∀ r ∈ newReads s c.socket, ¬Failed r) : (ReadStep.mk op s c).Contract := by
  refine ⟨?_, ?_, ?_⟩
  · intro hres
    have hres' : c.result = .error (.network .PROTOCOL_ERROR) := hres
    have hcons := ((ReadOp.run_effect h).conserves hok).1
    cases ReadOp.run_effect h with
    | refused cs ec hg hr hout =>
      exact ⟨hout, by simpa [ReadStep.handedOut, hr] using hcons⟩
    | handed cs mid bytes hg hm => rw [hm.result] at hres'; cases hres'
    | broken cs mid ec hg hb hr =>
      obtain ⟨bad, hbad, hlog⟩ := Broken.log hg hb
      rw [newReads_of_append hlog] at hok
      exact absurd hbad (hok bad (by simp))
  · intro out n hop hr
    have hop' : op = .readExact out := hop
    subst hop'
    exact readExact_size h hr
  · intro out n hop hout hr
    have hop' : op = .readSome out := hop
    subst hop'
    exact readSome_size h hout hr

theorem newReads_trans {s t u : Socket} (h : ∃ rs, t.reads = s.reads ++ rs)
    (k : ∃ rs, u.reads = t.reads ++ rs) : newReads s u = newReads s t ++ newReads t u := by
  obtain ⟨xs, hx⟩ := h
  obtain ⟨ys, hy⟩ := k
  have hu : u.reads = s.reads ++ (xs ++ ys) := by rw [hy, hx, List.append_assoc]
  rw [newReads_of_append hx, newReads_of_append hy, newReads_of_append hu]

theorem runReads_cons {op : ReadOp} {ops : List ReadOp} {s t : Socket} {steps : List ReadStep}
    (h : runReads (op :: ops) s = some (steps, t)) :
    ∃ c rest, op.run s = some c ∧ runReads ops c.socket = some (rest, t) ∧
      steps = ⟨op, s, c⟩ :: rest := by
  simp only [runReads] at h
  split at h
  · cases h
  · rename_i c hc
    obtain ⟨⟨rest, u⟩, hrest, heq⟩ := Option.map_eq_some_iff.mp h
    cases heq
    exact ⟨c, rest, hc, hrest, rfl⟩

theorem runReads_log {ops : List ReadOp} {s t : Socket} {steps : List ReadStep}
    (h : runReads ops s = some (steps, t)) : ∃ rs, t.reads = s.reads ++ rs := by
  induction ops generalizing s steps with
  | nil =>
    cases h
    exact ⟨[], (List.append_nil _).symm⟩
  | cons op ops ih =>
    obtain ⟨c, rest, hc, hrest, -⟩ := runReads_cons h
    obtain ⟨xs, hx⟩ := (ReadOp.run_effect hc).log
    obtain ⟨ys, hy⟩ := ih hrest
    exact ⟨xs ++ ys, by rw [hy, hx, List.append_assoc]⟩

/-- Whatever calls are made, with whatever sizes and delimiters and however the
transport cuts the stream: while its reads succeed, the bytes handed out followed
by the buffer are the bytes delivered, the bytes delivered are the incoming bytes
in order, and every call keeps its own contract. -/
theorem runReads_conserves (ops : List ReadOp) (s t : Socket) (steps : List ReadStep)
    (h : runReads ops s = some (steps, t)) (hok : ∀ r ∈ newReads s t, ¬Failed r) :
    steps.flatMap ReadStep.handedOut ++ t.readBuffer = s.readBuffer ++ delivered (newReads s t) ∧
      delivered (newReads s t) ++ Chunked.arriving t.incoming = Chunked.arriving s.incoming ∧
      ∀ step ∈ steps, step.Contract := by
  induction ops generalizing s steps with
  | nil =>
    cases h
    have hnew : newReads t t = [] := newReads_of_append (List.append_nil _).symm
    rw [hnew]
    exact ⟨by simp [delivered], rfl, by simp⟩
  | cons op ops ih =>
    obtain ⟨c, rest, hc, hrest, rfl⟩ := runReads_cons h
    have he := ReadOp.run_effect hc
    -- the reads of the run are those of the first call, then those of the others
    have hnew : newReads s t = newReads s c.socket ++ newReads c.socket t :=
      newReads_trans he.log (runReads_log hrest)
    have hok1 : ∀ r ∈ newReads s c.socket, ¬Failed r :=
      fun r hr => hok r (hnew ▸ List.mem_append_left _ hr)
    have hok2 : ∀ r ∈ newReads c.socket t, ¬Failed r :=
      fun r hr => hok r (hnew ▸ List.mem_append_right _ hr)
    obtain ⟨hcons, hstream⟩ := he.conserves hok1
    obtain ⟨hcons', hstream', hcontract⟩ := ih c.socket rest hrest hok2
    rw [hnew, delivered_append]
    refine ⟨?_, ?_, ?_⟩
    · rw [List.flatMap_cons, List.append_assoc, hcons', ← List.append_assoc, hcons,
        List.append_assoc]
    · rw [List.append_assoc, hstream', hstream]
    · intro step hstep
      rcases List.mem_cons.mp hstep with rfl | hstep
      · exact ReadStep.contract hc hok1
      · exact hcontract step hstep

/- Two segments, cut across three calls: `readUntil` takes the line, `readExact`
and `readSome` share the rest. -/
theorem runReads_conserves_line :
    ∃ steps t, runReads [.readUntil [0, 0, 0, 0] [13, 10], .readExact [0], .readSome [0, 0]]
        (Socket.fresh [.data [65, 13], .data [10, 66, 67]]) = some (steps, t) ∧
      (∀ r ∈ newReads (Socket.fresh [.data [65, 13], .data [10, 66, 67]]) t, ¬Failed r) ∧
      steps.flatMap ReadStep.handedOut ++ t.readBuffer = [65, 13, 10, 66, 67] := by
  have hreads : (runReads [.readUntil [0, 0, 0, 0] [13, 10], .readExact [0], .readSome [0, 0]]
      (Socket.fresh [.data [65, 13], .data [10, 66, 67]])).map (fun p => p.2.reads)
      = some [.ok [65, 13], .ok [10, 66, 67]] := by decide +kernel
  obtain ⟨⟨steps, t⟩, hrun, hlog⟩ := Option.map_eq_some_iff.mp hreads
  have hlog' : t.reads = [.ok [65, 13], .ok [10, 66, 67]] := hlog
  have hok : ∀ r ∈ newReads (Socket.fresh [.data [65, 13], .data [10, 66, 67]]) t, ¬Failed r := by
    simp [newReads, Socket.fresh, hlog', Failed]
  refine ⟨steps, t, hrun, hok, ?_⟩
  rw [(runReads_conserves _ _ _ _ hrun hok).1, newReads, hlog']
  rfl

end NetworkStack.SocketDetail
