import NetworkStack.Socket.ReadExact

/-!
# Lines and other delimited texts (`readUntil`)

What a socket can still bring before its transport fails or ends is its content.
The reads of `readUntil` stop as soon as the buffer holds the first occurrence of
the delimiter in the content; how much is handed out then depends on the delimiter's
length, on the output and on where the last read ended.
-/

namespace NetworkStack

open Search SocketDetail

/-! ### The bytes before the end of the stream -/

def content (s : Socket) : Bytes := s.readBuffer ++ Chunked.beforeEnd s.incoming

theorem content_steady {s : Socket} (hst : Chunked.Steady s.incoming) : content s = unread s := by
  rw [content, Chunked.beforeEnd_steady hst, unread]

theorem pull_ok {s t : Socket} {n : ℕ} (h : pull s n = some (.ok (), t)) :
    ∃ bs, bs ≠ [] ∧ Chunked.read n s.incoming = some (.ok bs, t.incoming) ∧
      t.readBuffer = s.readBuffer ++ bs := by
  unfold pull asyncReadWithTimeout at h
  cases hr : Chunked.read n s.incoming with
  | none => simp [hr] at h
  | some p =>
    obtain ⟨res, es⟩ := p
    cases res with
    | error fault => simp [hr] at h
    | ok bytes =>
      simp only [hr] at h
      by_cases hz : bytes.length = 0
      · simp [hz] at h
      · simp only [hz, if_false, Option.some.injEq, Prod.mk.injEq] at h
        obtain ⟨-, rfl⟩ := h
        exact ⟨bytes, fun h0 => hz (by rw [h0]; rfl), rfl, commit_overwrite ..⟩

theorem pull_content {s t : Socket} {n : ℕ} (h : pull s n = some (.ok (), t)) :
    content t = content s := by
  obtain ⟨bs, hbs, hread, hbuf⟩ := pull_ok h
  rw [content, content, hbuf, Chunked.read_beforeEnd hbs hread, List.append_assoc]

theorem pull_end {s t : Socket} {n : ℕ} {ec : ErrorCode} (hn : 0 < n)
    (h : pull s n = some (.error ec, t)) : Chunked.beforeEnd s.incoming = [] := by
  unfold pull asyncReadWithTimeout at h
  cases hr : Chunked.read n s.incoming with
  | none => simp [hr] at h
  | some p =>
    obtain ⟨res, es⟩ := p
    cases res with
    | error fault => exact Chunked.read_end hn (.inl ⟨fault, hr⟩)
    | ok bytes =>
      simp only [hr] at h
      by_cases hz : bytes.length = 0
      · have hnil := List.eq_nil_of_length_eq_zero hz
        exact Chunked.read_end hn (.inr (hnil ▸ hr))
      · simp [hz] at h

theorem pull_none_iff {s : Socket} {n : ℕ} (hn : 0 < n) :
    pull s n = none ↔ s.incoming = [] := by
  refine ⟨fun h => ?_, fun h => ?_⟩
  · unfold pull asyncReadWithTimeout at h
    cases hread : Chunked.read n s.incoming with
    | none => exact Chunked.read_none hread
    | some p =>
      obtain ⟨r, es⟩ := p
      cases r with
      | error fault => simp [hread] at h
      | ok bytes =>
        simp only [hread] at h
        split at h <;> cases h
  · simp only [pull, asyncReadWithTimeout, h, Chunked.read_pos hn, Chunked.next]

theorem pull_keeps_steady {s t : Socket} {n : ℕ} (h : pull s n = some (.ok (), t))
    (hs : Chunked.Steady s.incoming) : Chunked.Steady t.incoming := by
  obtain ⟨bs, hbs, hread, -⟩ := pull_ok h
  obtain ⟨hlen, hsplit, -⟩ := Chunked.read_ok hread
  have hpos : 0 < n := Nat.lt_of_lt_of_le (List.length_pos_iff.mpr hbs) hlen
  have hsome : Chunked.arriving s.incoming ≠ [] := by
    rw [hsplit]
    exact List.append_ne_nil_of_left_ne_nil hbs _
  obtain ⟨bs', es', hread', -, hsteady⟩ := Chunked.read_steady hs hpos hsome
  rw [hread] at hread'
  cases hread'
  exact hsteady

theorem pull_more {s : Socket} {n : ℕ} (hn : 0 < n) (h : Chunked.beforeEnd s.incoming ≠ []) :
    ∃ t, pull s n = some (.ok (), t) := by
  obtain ⟨bs, es, hread, hbs⟩ := Chunked.read_more hn h
  have hlen : bs.length ≠ 0 := fun h => hbs (List.eq_nil_of_length_eq_zero h)
  unfold pull asyncReadWithTimeout
  simp only [hread, hlen, if_false]
  exact ⟨_, rfl⟩

/- What every successful read keeps, the loop keeps. -/
theorem pullLoop_keeps {ρ : Type} {n : ℕ} {exit : Bytes → Option ρ} {P : Socket → Prop}
    (hpull : ∀ s t, pull s n = some (.ok (), t) → P s → P t) {s t : Socket} {a : ρ}
    (h : pullLoop n exit s = some (.ok a, t)) (hs : P s) : P t := by
  induction hb : Chunked.budget s.incoming using Nat.strongRecOn generalizing s with
  | _ k ih =>
    cases he : exit s.readBuffer with
    | some b =>
      rw [pullLoop_exit he] at h
      cases h
      exact hs
    | none =>
      rw [pullLoop_pull he] at h
      cases hp : pull s n with
      | none => rw [hp] at h; cases h
      | some p =>
        obtain ⟨r, u⟩ := p
        rw [hp] at h
        cases r with
        | error ec => cases h
        | ok _ => exact ih _ (hb ▸ pull_budget hp) h (hpull s u hp hs) rfl

theorem pullLoop_content {ρ : Type} {n : ℕ} {exit : Bytes → Option ρ} {s t : Socket} {a : ρ}
    (h : pullLoop n exit s = some (.ok a, t)) : content t = content s := by
  have hkeeps : ∀ u v, pull u n = some (.ok (), v) → content u = content s →
      content v = content s := fun u v hp hu => (pull_content hp).trans hu
  exact pullLoop_keeps hkeeps h rfl

theorem pullLoop_ends {ρ : Type} {n : ℕ} {exit : Bytes → Option ρ} {s t : Socket} {a : ρ}
    (h : pullLoop n exit s = some (.ok a, t)) :
    Chunked.Ends t.incoming ↔ Chunked.Ends s.incoming := by
  have hkeeps : ∀ u v, pull u n = some (.ok (), v) →
      (Chunked.Ends u.incoming ↔ Chunked.Ends s.incoming) →
      (Chunked.Ends v.incoming ↔ Chunked.Ends s.incoming) := by
    intro u v hp hu
    obtain ⟨bs, hbs, hread, -⟩ := pull_ok hp
    exact (Chunked.ends_read hbs hread).trans hu
  exact pullLoop_keeps hkeeps h Iff.rfl

/-! ### The search for the delimiter -/

section Found

variable {n i : ℕ} {delim : Bytes} {s : Socket}

/- The loop stops with the first occurrence in the content, and its buffer ends right
behind it exactly when one of the reads did. -/
theorem pullLoop_found (hn : 0 < n) (hdelim : delim ≠ [])
    (hfind : search delim (content s) = some i) :
    ∃ t, pullLoop n (search delim) s = some (.ok i, t) ∧
      i + delim.length ≤ t.readBuffer.length ∧
      (t.readBuffer.length = i + delim.length ↔ s.readBuffer.length ≤ i + delim.length ∧
        Chunked.Boundary n s.incoming (i + delim.length - s.readBuffer.length)) := by
  induction hb : Chunked.budget s.incoming using Nat.strongRecOn generalizing s with
  | _ k ih =>
    have hlook := search_front hdelim hfind
    by_cases hlen : i + delim.length ≤ s.readBuffer.length
    · rw [if_pos hlen] at hlook
      refine ⟨s, pullLoop_exit hlook, hlen, fun heq => ?_, fun hle => Nat.le_antisymm hle.1 hlen⟩
      rw [← heq, Nat.sub_self]
      exact ⟨Nat.le_refl _, Chunked.boundary_zero ..⟩
    · rw [if_neg hlen] at hlook
      have hmore : Chunked.beforeEnd s.incoming ≠ [] := by
        intro hend
        rw [content, hend, List.append_nil, hlook] at hfind
        cases hfind
      obtain ⟨u, hpull⟩ := pull_more hn hmore
      obtain ⟨bs, -, hread, hbuf⟩ := pull_ok hpull
      have hfind' : search delim (content u) = some i := by rw [pull_content hpull, hfind]
      obtain ⟨t, hloop, hlong, hend⟩ := ih _ (hb ▸ pull_budget hpull) hfind' rfl
      refine ⟨t, ?_, hlong, hend.trans ?_⟩
      · rw [pullLoop_pull hlook, hpull]
        exact hloop
      · rw [Chunked.boundary_read (by omega) hread, hbuf, List.length_append, Nat.sub_sub]
        refine ⟨fun ⟨hle, hrest⟩ => ⟨by omega, by omega, hrest⟩,
          fun ⟨hle, hle', hrest⟩ => ⟨?_, hrest⟩⟩
        omega

/- Without the delimiter in the content the loop reads up to the end of the stream. -/
theorem pullLoop_lost (hn : 0 < n) (hlost : search delim (content s) = none) :
    (∃ ec t, pullLoop n (search delim) s = some (.error ec, t)) ↔ Chunked.Ends s.incoming := by
  induction hb : Chunked.budget s.incoming using Nat.strongRecOn generalizing s with
  | _ k ih =>
    have hlook : search delim s.readBuffer = none := by
      cases hbuf : search delim s.readBuffer with
      | none => rfl
      | some i =>
        rw [content, search_append hbuf] at hlost
        cases hlost
    rw [pullLoop_pull hlook]
    cases hpull : pull s n with
    | none => simp [(pull_none_iff hn).mp hpull, Chunked.Ends]
    | some p =>
      obtain ⟨r, t⟩ := p
      cases r with
      | ok _ =>
        obtain ⟨bs, hbs, hread, -⟩ := pull_ok hpull
        rw [← Chunked.ends_read hbs hread]
        exact ih _ (hb ▸ pull_budget hpull) (by rw [pull_content hpull, hlost]) rfl
      | error ec =>
        have hsome : s.incoming ≠ [] := by
          intro hempty
          rw [(pull_none_iff hn).mpr hempty] at hpull
          cases hpull
        exact iff_of_true ⟨ec, t, rfl⟩ (Chunked.ends_of_beforeEnd (pull_end hn hpull) hsome)

end Found

/-! ### The call -/

section Call

variable {s : Socket} {out delim : Bytes} {i : ℕ}

theorem readUntil_failed {ec : ErrorCode} {t : Socket} (hs : s.connected = true)
    (h : pullLoop out.length (search delim) s = some (.error ec, t)) :
    asyncReadUntilCommon s out delim = some ⟨.error ec, out, t⟩ := by
  rw [asyncReadUntilCommon, if_neg (by simp [hs]), h]

theorem readUntil_found {t : Socket} (hs : s.connected = true)
    (h : pullLoop out.length (search delim) s = some (.ok i, t)) :
    asyncReadUntilCommon s out delim
      = some (if i + 1 > out.length then ⟨.error (.network .PROTOCOL_ERROR), out, t⟩
          else handOut t out (some (i + 2))) := by
  rw [asyncReadUntilCommon, if_neg (by simp [hs]), h]
  simp only
  split <;> rfl

theorem handOut_result (t : Socket) (out : Bytes) (k : ℕ) :
    (handOut t out (some k)).result = .ok (min k (min t.readBuffer.length out.length)) := rfl

/- A count is only returned by the loop's success and what is handed out then. -/
theorem readUntil_handOut {c : ReadCall} {n : ℕ} (hs : s.connected = true)
    (h : asyncReadUntilCommon s out delim = some c) (hn : c.result = .ok n) :
    ∃ (i : ℕ) (t : Socket), pullLoop out.length (search delim) s = some (.ok i, t) ∧
      i < out.length ∧ c = handOut t out (some (i + 2)) := by
  cases hloop : pullLoop out.length (search delim) s with
  | none =>
    rw [asyncReadUntilCommon, if_neg (by simp [hs]), hloop] at h
    cases h
  | some p =>
    obtain ⟨r, t⟩ := p
    cases r with
    | error ec =>
      rw [readUntil_failed hs hloop] at h
      cases h
      cases hn
    | ok i =>
      rw [readUntil_found hs hloop] at h
      by_cases hle : i + 1 > out.length
      · rw [if_pos hle] at h
        cases h
        cases hn
      · rw [if_neg hle] at h
        exact ⟨i, t, rfl, by omega, (Option.some.inj h).symm⟩

theorem pullLoop_exits {ρ : Type} {exit : Bytes → Option ρ} {n : ℕ} {t : Socket} {a : ρ}
    (h : pullLoop n exit s = some (.ok a, t)) : exit t.readBuffer = some a := by
  obtain ⟨b, cs, hb, hexit, -⟩ | ⟨ec, cs, mid, hr, -⟩ := pullLoop_cases h
  · rwa [Except.ok.inj hb]
  · cases hr

/- A returned count belongs to a delimiter in the content, and is taken off its front. -/
theorem readUntil_content {c : ReadCall} {n : ℕ} (hs : s.connected = true)
    (h : asyncReadUntilCommon s out delim = some c) (hn : c.result = .ok n) :
    ∃ (i : ℕ) (t : Socket), search delim (content s) = some i ∧ search delim t.readBuffer = some i ∧
      i < out.length ∧ n = min (i + 2) (min t.readBuffer.length out.length) ∧
      c.out.take n = (content s).take n ∧ content c.socket = (content s).drop n := by
  obtain ⟨i, t, hloop, hroom, rfl⟩ := readUntil_handOut hs h hn
  have hsame := pullLoop_content hloop
  have hexit := pullLoop_exits hloop
  have hlook : search delim (content s) = some i := by
    rw [← hsame]
    exact search_append hexit _
  rw [handOut_result] at hn
  have hhand := handOut_handed t out (some (i + 2))
  have hlen : (t.readBuffer.take (move_data t.readBuffer out (some (i + 2))).1).length = n :=
    Except.ok.inj (hhand.result.symm.trans hn)
  have hfront := hhand.front
  rw [hlen] at hfront
  have hcut : content s = (handOut t out (some (i + 2))).out.take n
      ++ content (handOut t out (some (i + 2))).socket := by
    rw [← hsame, content, hhand.buffer, List.append_assoc, hfront, content, hhand.state]
  have hsize : ((handOut t out (some (i + 2))).out.take n).length = n := by
    rw [hfront, hlen]
  refine ⟨i, t, hlook, hexit, hroom, (Except.ok.inj hn).symm, ?_, ?_⟩
  · rw [hcut, List.take_left' hsize]
  · rw [hcut, List.drop_left' hsize]

theorem readUntil_ends {c : ReadCall} {n : ℕ} (hs : s.connected = true)
    (h : asyncReadUntilCommon s out delim = some c) (hn : c.result = .ok n) :
    Chunked.Ends c.socket.incoming ↔ Chunked.Ends s.incoming := by
  obtain ⟨i, t, hloop, -, rfl⟩ := readUntil_handOut hs h hn
  have hkept : (handOut t out (some (i + 2))).socket.incoming = t.incoming := rfl
  rw [hkept, pullLoop_ends hloop]

/-- The delimiter comes too late for `size` bytes, or the stream ends before it. -/
def LineFails (size : ℕ) (delim : Bytes) (s : Socket) : Prop :=
  match search delim (content s) with
  | some i => size ≤ i
  | none => Chunked.Ends s.incoming

theorem readUntil_fails_iff (hs : s.connected = true) (hout : out ≠ []) (hdelim : delim ≠ []) :
    (∃ ec bytes t, asyncReadUntilCommon s out delim = some ⟨.error ec, bytes, t⟩) ↔
      LineFails out.length delim s := by
  have hroom := List.length_pos_iff.mpr hout
  unfold LineFails
  cases hfind : search delim (content s) with
  | none =>
    simp only
    rw [← pullLoop_lost hroom hfind]
    refine ⟨fun ⟨ec, bytes, t, hcall⟩ => ?_,
      fun ⟨ec, t, hloop⟩ => ⟨ec, out, t, readUntil_failed hs hloop⟩⟩
    cases hloop : pullLoop out.length (search delim) s with
    | none =>
      rw [asyncReadUntilCommon, if_neg (by simp [hs]), hloop] at hcall
      cases hcall
    | some p =>
      obtain ⟨r, u⟩ := p
      cases r with
      | error ec => exact ⟨ec, u, rfl⟩
      | ok i =>
        rw [← pullLoop_content hloop, content, search_append (pullLoop_exits hloop)] at hfind
        cases hfind
  | some i =>
    obtain ⟨t, hloop, -, -⟩ := pullLoop_found hroom hdelim hfind
    rw [readUntil_found hs hloop]
    by_cases hlate : i + 1 > out.length
    · rw [if_pos hlate]
      exact iff_of_true ⟨_, _, _, rfl⟩ (by omega)
    · rw [if_neg hlate]
      refine iff_of_false ?_ (by omega)
      rintro ⟨ec, bytes, u, hcall⟩
      cases hcall

end Call

/-! ### What `readUntil` promises -/

/-- A count that is returned ends with the first occurrence of the delimiter, and an
output too small for that is refused with nothing consumed. -/
structure ReadsUntil (s : Socket) (out delim : Bytes) : Prop where
  returns : ∀ c n, asyncReadUntilCommon s out delim = some c → c.result = .ok n →
    ∃ i, search delim (unread s) = some i ∧ n = i + delim.length ∧
      c.out.take n = (unread s).take n ∧ unread c.socket = (unread s).drop n
  refuses : ∀ i, search delim (unread s) = some i → out.length < i + delim.length →
    ∃ c, asyncReadUntilCommon s out delim = some c ∧
      c.result = .error (.network .PROTOCOL_ERROR) ∧ unread c.socket = unread s

/-- With the delimiter first found at `i`: an output without room needs it in the buffer
already. Otherwise the output ends before the delimiter's first byte is in, or the delimiter
is two bytes long and fits, or it is one byte long and it fills the output or ends a read. -/
def FoundAsPromised (s : Socket) (out delim : Bytes) (i : ℕ) : Prop :=
  if out = [] then search delim s.readBuffer = some i
  else out.length ≤ i ∨ (delim.length = 2 ∧ i + 2 ≤ out.length) ∨
    (delim.length = 1 ∧ (out.length = i + 1 ∨ (s.readBuffer.length ≤ i + 1 ∧
      Chunked.Boundary out.length s.incoming (i + 1 - s.readBuffer.length))))

instance (s : Socket) (out delim : Bytes) (i : ℕ) : Decidable (FoundAsPromised s out delim i) :=
  inferInstanceAs (Decidable (ite ..))

section Contract

variable {s : Socket} {out delim : Bytes} {i : ℕ}

/- What is handed out is the front of the stream, whatever its length. -/
theorem readsUntil_front {c : ReadCall} {n : ℕ} (h : asyncReadUntilCommon s out delim = some c)
    (hn : c.result = .ok n) :
    c.out.take n = (unread s).take n ∧ unread c.socket = (unread s).drop n := by
  obtain ⟨r, out', t⟩ := c
  obtain rfl : r = .ok n := hn
  obtain ⟨htook, hlen⟩ := readUntil_took h
  rw [htook.stream, List.take_left' hlen, List.drop_left' hlen]
  exact ⟨rfl, rfl⟩

/- A count is only returned when the delimiter is in the stream. -/
theorem readUntil_ok {c : ReadCall} {n : ℕ} (hs : s.connected = true)
    (hst : Chunked.Steady s.incoming) (h : asyncReadUntilCommon s out delim = some c)
    (hn : c.result = .ok n) : ∃ i, search delim (unread s) = some i := by
  obtain ⟨i, t, hfind, -⟩ := readUntil_content hs h hn
  exact ⟨i, by rwa [← content_steady hst]⟩

/- Into an output without room no byte is read, and the read that brings none ends the call. -/
theorem readUntil_noRoom (hs : s.connected = true) (hmissing : search delim s.readBuffer = none)
    {c : ReadCall} (h : asyncReadUntilCommon s [] delim = some c) :
    c.result = .error (.asio .eof) := by
  have hpull : ∃ t, pull s 0 = some (.error (.asio .eof), t) := by
    simp [pull, asyncReadWithTimeout, Chunked.read]
  obtain ⟨t, hpull⟩ := hpull
  have hloop : pullLoop ([] : Bytes).length (search delim) s
      = some (.error (.asio .eof), t) := by
    rw [List.length_nil, pullLoop_pull hmissing, hpull]
  rw [readUntil_failed hs hloop] at h
  cases h
  rfl

/- With room in the output: what the call comes to, and when that is as promised. -/
theorem readUntil_room (hdelim : delim ≠ []) (hs : s.connected = true)
    (hst : Chunked.Steady s.incoming) (hout : out ≠ []) (hfind : search delim (unread s) = some i) :
    ∃ t, unread t = unread s ∧
      asyncReadUntilCommon s out delim
        = some (if i + 1 > out.length then ⟨.error (.network .PROTOCOL_ERROR), out, t⟩
            else handOut t out (some (i + 2))) ∧
      (FoundAsPromised s out delim i ↔ out.length ≤ i ∨
        min (i + 2) (min t.readBuffer.length out.length) = i + delim.length) := by
  have hroom := List.length_pos_iff.mpr hout
  have hlen := List.length_pos_iff.mpr hdelim
  have hfind' : search delim (content s) = some i := by rw [content_steady hst, hfind]
  obtain ⟨t, hloop, hlong, hend⟩ := pullLoop_found hroom hdelim hfind'
  obtain ⟨j, cs, -, -, hg⟩ | ⟨ec, cs, mid, hr, -⟩ := pullLoop_cases hloop
  · refine ⟨t, by simpa using hg.took.stream.symm, readUntil_found hs hloop, ?_⟩
    rw [FoundAsPromised, if_neg hout]
    refine or_congr_right' fun hle => ?_
    by_cases hone : delim.length = 1
    · rw [hone] at hend
      rw [hone, ← hend]
      omega
    · simp only [hone, false_and, or_false]
      omega
  · cases hr

theorem readsUntil_noRoom_iff (hdelim : delim ≠ []) (hs : s.connected = true)
    (hst : Chunked.Steady s.incoming) : ReadsUntil s [] delim ↔
      ∀ i, search delim (unread s) = some i → FoundAsPromised s [] delim i := by
  have hlen := List.length_pos_iff.mpr hdelim
  have hbuffered : ∀ i j, search delim (unread s) = some i → search delim s.readBuffer = some j →
      i = j := by
    intro i j hi hj
    have hj' := search_append hj (Chunked.arriving s.incoming)
    exact Option.some.inj (hi.symm.trans hj')
  refine ⟨fun h i hi => ?_, fun h => ⟨fun c n hc hn => ?_, fun i hi _ => ?_⟩⟩
  · rw [FoundAsPromised, if_pos rfl]
    obtain ⟨c, hc, hres, -⟩ := h.refuses i hi (by rw [List.length_nil]; omega)
    cases hbuf : search delim s.readBuffer with
    | none =>
      rw [readUntil_noRoom hs hbuf hc] at hres
      cases hres
    | some j => rw [hbuffered i j hi hbuf]
  · obtain ⟨i, hi⟩ := readUntil_ok hs hst hc hn
    have hfound := h i hi
    rw [FoundAsPromised, if_pos rfl] at hfound
    rw [readUntil_found hs (pullLoop_exit hfound), List.length_nil, if_pos (by omega)] at hc
    cases hc
    cases hn
  · have hfound := h i hi
    rw [FoundAsPromised, if_pos rfl] at hfound
    refine ⟨_, readUntil_found hs (pullLoop_exit hfound), ?_, ?_⟩
    · rw [List.length_nil, if_pos (by omega)]
    · rw [List.length_nil, if_pos (by omega)]

theorem readsUntil_room_iff (hdelim : delim ≠ []) (hs : s.connected = true)
    (hst : Chunked.Steady s.incoming) (hout : out ≠ []) : ReadsUntil s out delim ↔
      ∀ i, search delim (unread s) = some i → FoundAsPromised s out delim i := by
  refine ⟨fun h i hi => ?_, fun h => ⟨fun c n hc hn => ?_, fun i hi hsmall => ?_⟩⟩
  · obtain ⟨t, -, hcall, hiff⟩ := readUntil_room hdelim hs hst hout hi
    rw [hiff]
    by_cases hle : out.length ≤ i
    · exact .inl hle
    · rw [if_neg (by omega)] at hcall
      obtain ⟨j, hj, hn, -⟩ := h.returns _ _ hcall (handOut_result ..)
      obtain rfl : i = j := Option.some.inj (hi.symm.trans hj)
      exact .inr hn
  · obtain ⟨i, hi⟩ := readUntil_ok hs hst hc hn
    refine ⟨i, hi, ?_, readsUntil_front hc hn⟩
    obtain ⟨t, -, hcall, hiff⟩ := readUntil_room hdelim hs hst hout hi
    rw [hc] at hcall
    rcases hiff.mp (h i hi) with hle | hcount
    · rw [if_pos (by omega)] at hcall
      rw [Option.some.inj hcall] at hn
      cases hn
    · by_cases hle : i + 1 > out.length
      · rw [if_pos hle] at hcall
        rw [Option.some.inj hcall] at hn
        cases hn
      · rw [if_neg hle] at hcall
        rw [Option.some.inj hcall, handOut_result, hcount] at hn
        exact (Except.ok.inj hn).symm
  · obtain ⟨t, hsame, hcall, hiff⟩ := readUntil_room hdelim hs hst hout hi
    have hle : i + 1 > out.length := by
      have := hiff.mp (h i hi)
      omega
    rw [if_pos hle] at hcall
    exact ⟨_, hcall, rfl, hsame⟩

end Contract

/-- `readUntil` keeps its promise exactly when, wherever the delimiter is in the stream, it is
found as promised. -/
theorem readUntil_promise_iff (s : Socket) (out delim : Bytes) (hdelim : delim ≠ [])
    (hs : s.connected = true) (hst : Chunked.Steady s.incoming) :
    ReadsUntil s out delim ↔
      ∀ i, search delim (unread s) = some i → FoundAsPromised s out delim i := by
  by_cases hout : out = []
  · subst hout
    exact readsUntil_noRoom_iff hdelim hs hst
  · exact readsUntil_room_iff hdelim hs hst hout

/- A line end of two bytes, wherever the segments of the stream end. -/
theorem readUntil_promise_crlf :
    ReadsUntil (Socket.fresh [.data [65, 13], .data [10, 66]]) [0, 0, 0] [13, 10] := by
  have hchunks : ∀ c ∈ ([[65, 13], [10, 66]] : List Bytes), c ≠ [] := by decide
  have hsteady : Chunked.Steady (Socket.fresh [.data [65, 13], .data [10, 66]]).incoming :=
    Chunked.steady_ofChunks hchunks
  refine (readUntil_promise_iff _ _ _ (by decide) rfl hsteady).mpr fun i hi => ?_
  have hfirst : search [13, 10] (unread (Socket.fresh [.data [65, 13], .data [10, 66]]))
      = some 1 := by decide
  obtain rfl := Option.some.inj (hfirst.symm.trans hi)
  decide

/- A newline in the middle of a segment: the byte behind it is handed out as well. -/
theorem readUntil_newline_overruns :
    let s := Socket.fresh [.data [65, 10, 66]]
    (∃ c, asyncReadUntilCommon s [0, 0, 0] [10] = some c ∧ c.result = .ok 3 ∧
      c.out = [65, 10, 66] ∧ unread c.socket = []) ∧ ¬ReadsUntil s [0, 0, 0] [10] := by
  intro s
  have hcall : (asyncReadUntilCommon s [0, 0, 0] [10]).map
      (fun c => (c.result, c.out, unread c.socket)) = some (.ok 3, [65, 10, 66], []) := by
    decide +kernel
  obtain ⟨c, hc, hparts⟩ := Option.map_eq_some_iff.mp hcall
  simp only [Prod.mk.injEq] at hparts
  refine ⟨⟨c, hc, hparts⟩, fun h => ?_⟩
  obtain ⟨i, hi, hlen, -⟩ := h.returns c 3 hc hparts.1
  have hfirst : search [10] (unread s) = some 1 := by decide
  obtain rfl := Option.some.inj (hfirst.symm.trans hi)
  cases hlen

end NetworkStack
