import NetworkStack.Socket.Read

/-!
# Exact reads and the unread stream

What a socket has not handed out yet is its buffer followed by what the
transport still brings. A successful exact read takes its output off the front
of that stream, wherever the segments end, and on a steady transport an exact
read succeeds whenever enough bytes are left.
-/

namespace NetworkStack.SocketDetail

def unread (s : Socket) : Bytes := s.readBuffer ++ Chunked.arriving s.incoming

def ReadOnly (s t : Socket) : Prop :=
  t = { s with readBuffer := t.readBuffer, incoming := t.incoming, reads := t.reads }

theorem ReadOnly.trans {s t u : Socket} (h : ReadOnly s t) (k : ReadOnly t u) : ReadOnly s u := by
  unfold ReadOnly at h k
  rw [h] at k
  exact k

theorem ReadOnly.connected {s t : Socket} (h : ReadOnly s t) : t.connected = s.connected := by
  rw [h]

theorem ReadOnly.sent {s t : Socket} (h : ReadOnly s t) : t.sent = s.sent := by
  rw [h]

theorem ReadOnly.outgoing {s t : Socket} (h : ReadOnly s t) : t.outgoing = s.outgoing := by
  rw [h]

theorem Writable.of_readOnly {s t : Socket} (h : Writable s) (hro : ReadOnly s t) : Writable t :=
  ⟨hro.connected.trans h.1, by rw [hro.outgoing]; exact h.2⟩

/-- The socket `t` is `s` after reads that took `bytes` off the unread stream. -/
structure Took (s : Socket) (bytes : Bytes) (t : Socket) : Prop where
  stream : unread s = bytes ++ unread t
  state : ReadOnly s t

theorem Took.trans {s t u : Socket} {xs ys : Bytes} (h : Took s xs t) (k : Took t ys u) :
    Took s (xs ++ ys) u :=
  ⟨by rw [h.stream, k.stream, List.append_assoc], h.state.trans k.state⟩

theorem Gathered.took {s t : Socket} {cs : List Bytes} (h : Gathered s cs t) : Took s [] t := by
  refine ⟨?_, ?_⟩
  · rw [unread, unread, h.stream, h.state]
    simp
  · rw [ReadOnly, h.state]

theorem Handed.took {s : Socket} {out bytes : Bytes} {c : ReadCall} (h : Handed s out bytes c) :
    Took s bytes c.socket := by
  refine ⟨?_, ?_⟩
  · rw [unread, unread, h.buffer, h.state, List.append_assoc]
  · rw [ReadOnly, h.state]

theorem Broken.readOnly {n : ℕ} {s t : Socket} (h : Broken n s t) : ReadOnly s t := by
  obtain ⟨bad, -, hst⟩ := h.state
  rw [ReadOnly, hst]

theorem ReadOp.run_readOnly {s : Socket} {op : ReadOp} {c : ReadCall} (h : op.run s = some c) :
    ReadOnly s c.socket := by
  cases ReadOp.run_effect h with
  | refused cs ec hg => exact hg.took.state
  | handed cs mid bytes hg hm => exact hg.took.state.trans hm.took.state
  | broken cs mid ec hg hb => exact hg.took.state.trans hb.readOnly

theorem Effect.took {s t : Socket} {out out' : Bytes} {n : ℕ} (h : Effect s out ⟨.ok n, out', t⟩) :
    Took s (out'.take n) t ∧ (out'.take n).length = n := by
  cases h with
  | refused cs ec hg hr => cases hr
  | handed cs mid bytes hg hm =>
    have hn : n = bytes.length := Except.ok.inj hm.result
    have hfront : out'.take n = bytes := hn ▸ hm.front
    rw [hfront]
    exact ⟨hg.took.trans hm.took, hn.symm⟩
  | broken cs mid ec hg hb hr => cases hr

theorem readSome_took {s t : Socket} {out out' : Bytes} {n : ℕ}
    (h : asyncReadSomeCommon s out = some ⟨.ok n, out', t⟩) : Took s (out'.take n) t ∧
      (out'.take n).length = n :=
  (readSome_effect h).took

theorem readUntil_took {s t : Socket} {out out' delim : Bytes} {n : ℕ}
    (h : asyncReadUntilCommon s out delim = some ⟨.ok n, out', t⟩) : Took s (out'.take n) t ∧
      (out'.take n).length = n :=
  (readUntil_effect h).took

/- A returned exact read on an open socket: it filled its output, or it met a
failed transport read. -/
theorem readExact_cases {s : Socket} {out : Bytes} {c : ReadCall} (hs : s.connected = true)
    (h : asyncReadExactCommon s out = some c) :
    (c.result = .ok out.length ∧ c.out.length = out.length ∧ Took s c.out c.socket) ∨
    (∃ ec chunks mid, c.result = .error ec ∧ Gathered s chunks mid ∧
      Broken out.length mid c.socket) := by
  unfold asyncReadExactCommon at h
  rw [if_neg (by simp [hs])] at h
  simp only at h
  split at h
  · cases h
  · rename_i ec t hl
    cases h
    rcases pullLoop_cases hl with ⟨a, cs, hr, -⟩ | ⟨e, cs, mid, -, hg, hb⟩
    · cases hr
    · exact .inr ⟨ec, cs, mid, rfl, hg, by rwa [length_zeroFill] at hb⟩
  · rename_i t hl
    cases h
    rcases pullLoop_cases hl with ⟨a, cs, -, hexit, hg⟩ | ⟨e, cs, mid, hr, -⟩
    · have hlen : out.length ≤ t.readBuffer.length := by simpa using hexit
      have hhand := handOut_handed t (zeroFill out) none
      have hsize : (t.readBuffer.take (move_data t.readBuffer (zeroFill out) none).1).length
          = out.length := by
        simp [move_data, hlen]
      -- all of the output was filled, so it is the bytes taken
      have hout : (handOut t (zeroFill out) none).out
          = t.readBuffer.take (move_data t.readBuffer (zeroFill out) none).1 := by
        rw [← hhand.front, hsize, List.take_of_length_le]
        exact Nat.le_of_eq (hhand.size.trans (length_zeroFill out))
      refine .inl ⟨by rw [hhand.result, hsize], by rw [hout, hsize], ?_⟩
      rw [hout]
      exact hg.took.trans hhand.took
    · cases hr

theorem pull_steady {s : Socket} {n : ℕ} (hn : 0 < n) (hst : Chunked.Steady s.incoming)
    (hne : Chunked.arriving s.incoming ≠ []) :
    ∃ t, pull s n = some (.ok (), t) ∧ Chunked.Steady t.incoming := by
  obtain ⟨bs, es, hread, hbs, hes⟩ := Chunked.read_steady hst hn hne
  have hlen : bs.length ≠ 0 := fun h => hbs (List.eq_nil_of_length_eq_zero h)
  unfold pull asyncReadWithTimeout
  simp only [hread, hlen, if_false]
  exact ⟨_, rfl, hes⟩

theorem pullLoop_steady {ρ : Type} {n : ℕ} {exit : Bytes → Option ρ} {s : Socket} (hn : 0 < n)
    (hst : Chunked.Steady s.incoming)
    (hexit : ∀ t, unread t = unread s → exit t.readBuffer = none →
      Chunked.arriving t.incoming ≠ []) :
    ∃ a t, pullLoop n exit s = some (.ok a, t) ∧ Chunked.Steady t.incoming := by
  induction hb : Chunked.budget s.incoming using Nat.strongRecOn generalizing s with
  | _ k ih =>
    cases he : exit s.readBuffer with
    | some a => exact ⟨a, s, pullLoop_exit he, hst⟩
    | none =>
      obtain ⟨t, hp, hst'⟩ := pull_steady hn hst (hexit s rfl he)
      have hlt := pull_budget hp
      rw [pullLoop_pull he, hp]
      rcases pull_cases hp with ⟨-, -, bs, -, hg⟩ | ⟨⟨ec, hr⟩, -⟩
      · have hsame : unread t = unread s := by simpa using hg.took.stream.symm
        exact ih _ (hb ▸ hlt) hst' (fun u hu => hexit u (hu.trans hsame)) rfl
      · cases hr

/- On a steady transport an exact read returns as soon as the stream holds enough. -/
theorem readExact_steady {s : Socket} {out : Bytes} (hs : s.connected = true)
    (hst : Chunked.Steady s.incoming) (hlen : out.length ≤ (unread s).length) :
    ∃ c, asyncReadExactCommon s out = some c ∧ c.result = .ok out.length ∧
      Chunked.Steady c.socket.incoming := by
  unfold asyncReadExactCommon
  rw [if_neg (by simp [hs])]
  have hloop : ∃ t, pullLoop (zeroFill out).length
      (fun buffer => if buffer.length < (zeroFill out).length then none else some ()) s
      = some (.ok (), t) ∧ Chunked.Steady t.incoming := by
    rcases Nat.eq_zero_or_pos out.length with h0 | hpos
    · refine ⟨s, pullLoop_exit ?_, hst⟩
      simp [h0]
    · have hread : ∃ a t, pullLoop (zeroFill out).length
          (fun buffer => if buffer.length < (zeroFill out).length then none else some ()) s
          = some (.ok a, t) ∧ Chunked.Steady t.incoming := by
        refine pullLoop_steady (by simpa using hpos) hst ?_
        intro t ht hexit harr
        have hshort : t.readBuffer.length < out.length := by simpa using hexit
        rw [← ht, unread, harr, List.append_nil] at hlen
        omega
      obtain ⟨a, t, hl, ht⟩ := hread
      exact ⟨t, hl, ht⟩
  obtain ⟨t, hl, ht⟩ := hloop
  simp only [hl]
  refine ⟨_, rfl, ?_, ht⟩
  have hexit := (pullLoop_cases hl)
  rcases hexit with ⟨a, cs, -, hexit, -⟩ | ⟨e, cs, mid, hr, -⟩
  · have : out.length ≤ t.readBuffer.length := by simpa using hexit
    simp [handOut, move_data, this]
  · cases hr

/- Nothing buffered and nothing under way: the read waits. -/
theorem readExact_silent {s : Socket} {out : Bytes} (hs : s.connected = true)
    (hst : Chunked.Steady s.incoming) (hout : out ≠ []) (h : unread s = []) :
    asyncReadExactCommon s out = none := by
  obtain ⟨hbuffer, harriving⟩ := List.append_eq_nil_iff.mp h
  have hincoming : s.incoming = [] := by
    cases he : s.incoming with
    | nil => rfl
    | cons e es =>
      obtain ⟨bs, hbs, rfl⟩ := hst e (he ▸ List.mem_cons_self ..)
      rw [he, Chunked.arriving] at harriving
      exact absurd (List.append_eq_nil_iff.mp harriving).1 hbs
  have hroom : 0 < (zeroFill out).length := by
    rw [length_zeroFill]
    exact List.length_pos_of_ne_nil hout
  have hpull : pull s (zeroFill out).length = none := by
    simp only [pull, asyncReadWithTimeout, hincoming, Chunked.read_pos hroom, Chunked.next]
  unfold asyncReadExactCommon
  rw [if_neg (by simp [hs])]
  simp only
  rw [pullLoop_pull (by simpa [hbuffer] using hout), hpull]

end NetworkStack.SocketDetail
