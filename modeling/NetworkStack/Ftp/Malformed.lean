import NetworkStack.Ftp.ReplyText

/-!
# Lines that are no reply (protocol/FtpFileTransfer.cpp)

For `receiveResponse` a malformed line and a reply that is not complete yet are the
same: it reads on. The call ends with an error only where the transport does, or
where no line fits the 1024 bytes.
-/

namespace NetworkStack.Ftp

open Search SocketDetail

/-- Three digits and then a blank or a hyphen. -/
def StartsReply (line : Bytes) : Prop :=
  4 ≤ line.length ∧ (∀ d ∈ line.take 3, isdigit d = true) ∧
    ((line.drop 3).head? = some 32 ∨ (line.drop 3).head? = some 45)

instance (line : Bytes) : Decidable (StartsReply line) := inferInstanceAs (Decidable (_ ∧ _))

/-- What `buf` holds when the loop of `receiveResponse` is left, by whatever exit. -/
def receivedText (buf : Bytes) (sock : Socket) : Option Bytes :=
  match _h : asyncReadUntilCommon sock (List.replicate 1024 0) crlf with
  | none => none
  | some ⟨.error _, _, _⟩ => some buf
  | some ⟨.ok n, tmp, next⟩ =>
    if _hn : n = 0 then some buf
    else if isCompleteFtpResponse (splitLines (buf ++ tmp.take n)) then some (buf ++ tmp.take n)
    else receivedText (buf ++ tmp.take n) next
termination_by (unread sock).length
decreasing_by
  obtain ⟨htook, hlen⟩ := readUntil_took _h
  rw [htook.stream, List.length_append, hlen]
  omega

theorem receivedText_ok {buf text : Bytes} {s t : Socket}
    (h : receiveLines buf s = some (.ok text, t)) : receivedText buf s = some text := by
  fun_induction receiveLines buf s with
  | case1 buf s hread => cases h
  | case2 buf s ec out next hread => cases h
  | case3 buf s out next hread => cases h
  | case4 buf s n out next hread hn hcomplete =>
    cases h
    rw [receivedText, hread]
    simp only
    rw [dif_neg hn, if_pos hcomplete]
  | case5 buf s n out next hread hn hcomplete ih =>
    rw [receivedText, hread]
    simp only
    rw [dif_neg hn, if_neg hcomplete, ih h]

/-- The loop ends with a transport error, and `buf` holds `front` then. -/
def FailsWith (buf : Bytes) (s : Socket) (front : Bytes) : Prop :=
  (∃ ec t, receiveLines buf s = some (.error ec, t)) ∧ receivedText buf s = some front

/-! ### One line -/

section Step

variable {s : Socket} (hs : s.connected = true)
include hs

/- A line that does not complete the text is kept, and the reading goes on behind it. -/
theorem failsWith_line (buf front : Bytes) {n : ℕ} (hline : nextLine (content s) = some n) :
    ∃ t, t.connected = true ∧ content t = (content s).drop n ∧
      (Chunked.Ends t.incoming ↔ Chunked.Ends s.incoming) ∧
      (FailsWith buf s front ↔
        isCompleteFtpResponse (splitLines (buf ++ (content s).take n)) = false ∧
          FailsWith (buf ++ (content s).take n) t front) := by
  obtain ⟨⟨r, tmp, t⟩, hread, rfl⟩ := readUntil_of_nextLine hs hline
  obtain ⟨-, hfront, hrest⟩ := readUntil_nextLine hs hread rfl
  have hconnected : t.connected = s.connected :=
    (@ReadOp.run_readOnly _ (.readUntil (List.replicate 1024 0) crlf) _ hread).connected
  refine ⟨t, hconnected.trans hs, hrest, readUntil_ends hs hread rfl, ?_⟩
  have hpos : ¬n = 0 := Nat.pos_iff_ne_zero.mp (nextLine_pos hline).1
  simp only at hfront
  unfold FailsWith
  rw [receiveLines, receivedText, hread]
  simp only
  rw [dif_neg hpos, dif_neg hpos, hfront]
  cases isCompleteFtpResponse (splitLines (buf ++ (content s).take n)) with
  | true => simp
  | false => simp

/- Where no line can be read the call fails at once, or waits. -/
theorem failsWith_stuck (buf front : Bytes) (hline : nextLine (content s) = none) :
    FailsWith buf s front ↔ front = buf ∧ LineFails 1024 crlf s := by
  have hiff := @readUntil_fails_iff s (List.replicate 1024 0) crlf hs (by decide) (by decide)
  rw [List.length_replicate] at hiff
  rw [← hiff]
  unfold FailsWith
  rw [receiveLines, receivedText]
  cases hread : asyncReadUntilCommon s (List.replicate 1024 0) crlf with
  | none => simp
  | some c =>
    obtain ⟨r, tmp, t⟩ := c
    cases r with
    | error ec => simp [eq_comm]
    | ok n =>
      rw [(readUntil_nextLine hs hread rfl).1] at hline
      cases hline

end Step

theorem nextLine_length {stream : Bytes} {n : ℕ} (h : nextLine stream = some n) :
    2 ≤ n ∧ n ≤ stream.length := by
  unfold nextLine at h
  cases hfind : search crlf stream with
  | none => rw [hfind] at h; cases h
  | some i =>
    rw [hfind] at h
    simp only at h
    have hlt := search_lt hfind
    have hpre := (search_isPrefix hfind).length_le
    have htwo : crlf.length = 2 := rfl
    rw [List.length_drop] at hpre
    split at h
    · cases h
      omega
    · cases h

theorem length_grown {stream : Bytes} {n : ℕ} (h : nextLine stream = some n) (buf : Bytes) :
    (buf ++ stream.take n).length = buf.length + n := by
  rw [List.length_append, List.length_take, Nat.min_eq_left (nextLine_length h).2]

/- Every line read makes the text longer by two bytes at least. -/
theorem failsWith_longer {s : Socket} (hs : s.connected = true) {buf front : Bytes}
    (h : FailsWith buf s front) : front = buf ∨ buf.length + 2 ≤ front.length := by
  induction hlen : (content s).length using Nat.strongRecOn generalizing s buf with
  | _ k ih =>
    cases hline : nextLine (content s) with
    | none => exact .inl ((failsWith_stuck hs buf front hline).mp h).1
    | some n =>
      obtain ⟨htwo, hle⟩ := nextLine_length hline
      obtain ⟨t, ht, hrest, -, hiff⟩ := failsWith_line hs buf front hline
      have hgrown := length_grown hline buf
      have hshort : (content t).length < k := by
        rw [hrest, List.length_drop]
        omega
      refine .inr ?_
      rcases ih _ hshort ht (hiff.mp h).2 rfl with rfl | hlonger
      · omega
      · omega

/- After a line of `n` bytes the text is that much longer, or another line was read. -/
theorem failsWith_reads {s : Socket} (hs : s.connected = true) {buf front : Bytes} {n : ℕ}
    (hline : nextLine (content s) = some n) (h : FailsWith buf s front) :
    front.length = buf.length + n ∨ buf.length + n + 2 ≤ front.length := by
  obtain ⟨t, ht, -, -, hiff⟩ := failsWith_line hs buf front hline
  rw [← length_grown hline buf]
  rcases failsWith_longer ht (hiff.mp h).2 with heq | hlonger
  · exact .inl (congrArg List.length heq)
  · exact .inr hlonger

/-! ### Empty lines -/

def emptyLines (k : ℕ) : Bytes := (List.replicate k crlf).flatten

theorem emptyLines_succ (k : ℕ) : emptyLines (k + 1) = crlf ++ emptyLines k := by
  rw [emptyLines, List.replicate_succ, List.flatten_cons]
  rfl

theorem emptyLines_add (j k : ℕ) : emptyLines (j + k) = emptyLines j ++ emptyLines k := by
  rw [emptyLines, List.replicate_add, List.flatten_append]
  rfl

theorem splitLines_emptyLines (k : ℕ) (text : Bytes) :
    splitLines (emptyLines k ++ text) = splitLines text := by
  induction k with
  | zero => rfl
  | succ k ih =>
    have hline := splitLines_cons (List.not_mem_nil) (List.not_mem_nil) (emptyLines k ++ text)
    rw [if_pos rfl, List.nil_append, List.nil_append, ih] at hline
    rw [emptyLines_succ, List.append_assoc, hline]

/- Empty lines are kept in the text and complete nothing. -/
theorem failsWith_emptyLines {s : Socket} (hs : s.connected = true) {k : ℕ} {stream : Bytes}
    (hcontent : content s = emptyLines k ++ stream) (j : ℕ) (front : Bytes) :
    ∃ t, t.connected = true ∧ content t = stream ∧
      (Chunked.Ends t.incoming ↔ Chunked.Ends s.incoming) ∧
      (FailsWith (emptyLines j) s front ↔ FailsWith (emptyLines (j + k)) t front) := by
  induction k generalizing s j with
  | zero => exact ⟨s, hs, hcontent, Iff.rfl, Iff.rfl⟩
  | succ k ih =>
    rw [emptyLines_succ, List.append_assoc] at hcontent
    have hline : nextLine (content s) = some 2 := by
      rw [hcontent]
      rfl
    obtain ⟨t, ht, hrest, hends, hiff⟩ := failsWith_line hs (emptyLines j) front hline
    rw [hcontent] at hrest hiff
    obtain ⟨u, hu, hrest', hends', hiff'⟩ := ih ht hrest (j + 1)
    have htake : emptyLines j ++ (crlf ++ (emptyLines k ++ stream)).take 2
        = emptyLines (j + 1) := by
      rw [emptyLines_add]
      rfl
    have hnone : isCompleteFtpResponse (splitLines (emptyLines (j + 1))) = false := by
      rw [← List.append_nil (emptyLines (j + 1)), splitLines_emptyLines]
      rfl
    refine ⟨u, hu, hrest', hends'.trans hends, hiff.trans ?_⟩
    rw [htake, hnone, hiff', Nat.add_right_comm, Nat.add_assoc]
    simp

/-! ### The malformed line -/

/-- Behind `k` empty lines the channel goes on with a line that is not empty. -/
structure LineAhead (s : Socket) (k : ℕ) (line rest : Bytes) : Prop where
  connected : s.connected = true
  content : content s = emptyLines k ++ (line ++ crlf ++ rest)
  nonempty : line ≠ []
  first : search crlf (line ++ crlf) = some line.length

/-- A line that does not start a reply makes the call fail, and nothing behind it is taken. -/
def RefusesLine (s : Socket) (k : ℕ) (line : Bytes) : Prop :=
  ¬StartsReply line → (∃ ec t, receiveResponse s = some (.error (.error ec), t)) ∧
    receivedText [] s = some (emptyLines k ++ (line ++ crlf))

/-- No further line can be read: the next CRLF comes too late, or the transport ends before. -/
def NoLineBehind (s : Socket) (rest : Bytes) : Prop :=
  match search crlf rest with
  | some i => 1024 ≤ i
  | none => Chunked.Ends s.incoming

/- A complete text is at least three bytes long, so only the loop gives error codes. -/
theorem receiveResponse_failsWith {s : Socket} (hs : s.connected = true) (front : Bytes) :
    (∃ ec t, receiveResponse s = some (.error (.error ec), t)) ∧ receivedText [] s = some front
      ↔ FailsWith [] s front := by
  refine and_congr_left fun _ => ⟨fun ⟨ec, t, hcall⟩ => ?_, fun ⟨ec, t, hlines⟩ => ⟨ec, t, ?_⟩⟩
  · cases hlines : receiveLines [] s with
    | none =>
      rw [receiveResponse, hlines] at hcall
      cases hcall
    | some x =>
      obtain ⟨r, u⟩ := x
      cases r with
      | error ec' => exact ⟨ec', u, rfl⟩
      | ok text =>
        obtain ⟨-, hcomplete⟩ := replyText_front ((receiveLines_iff hs [] text).mp ⟨u, hlines⟩)
        obtain ⟨digits, -, -, hlen, hdigits, -, -, hfront⟩ := complete_front hcomplete
        rw [receiveResponse_complete hlines hlen hdigits hfront] at hcall
        split at hcall <;> cases hcall
  · rw [receiveResponse, hlines]

theorem failsWith_noLineBehind {s t : Socket} {rest : Bytes} (ht : t.connected = true)
    (hrest : content t = rest) (hends : Chunked.Ends t.incoming ↔ Chunked.Ends s.incoming)
    (front : Bytes) : FailsWith front t front ↔ NoLineBehind s rest := by
  have hsame : LineFails 1024 crlf t ↔ NoLineBehind s rest := by
    unfold LineFails NoLineBehind
    rw [hrest]
    cases search crlf rest with
    | none => exact hends
    | some i => exact Iff.rfl
  rw [← hsame]
  cases hline : nextLine (content t) with
  | none => rw [failsWith_stuck ht front front hline, and_iff_right rfl]
  | some n =>
    refine iff_of_false (fun h => ?_) fun h => ?_
    · have htwo := (nextLine_length hline).1
      have hcount := failsWith_reads ht hline h
      omega
    · unfold LineFails at h
      unfold nextLine at hline
      cases hfind : search crlf (content t) with
      | none => rw [hfind] at hline; cases hline
      | some i =>
        rw [hfind] at h hline
        simp only at h hline
        rw [if_neg (by omega)] at hline
        cases hline

/- The text never ends with a line whose CRLF does not fit: of a line that leaves its LF all but
one byte is kept, and no line is that short; a longer one is not read at all. -/
theorem not_failsWith_long {t : Socket} (ht : t.connected = true) {i : ℕ}
    (hfind : search crlf (content t) = some i) (hlong : 1024 < i + 2) {buf front : Bytes}
    (hfront : front.length = buf.length + (i + 2)) : ¬FailsWith buf t front := by
  intro hfails
  by_cases hroom : i < 1024
  · have hline : nextLine (content t) = some 1024 := by
      rw [nextLine, hfind]
      simp only
      rw [if_pos hroom, Nat.min_eq_right (by omega)]
    have hcount := failsWith_reads ht hline hfails
    omega
  · have hline : nextLine (content t) = none := by
      rw [nextLine, hfind]
      simp only
      rw [if_neg hroom]
    have hsame := congrArg List.length ((failsWith_stuck ht buf front hline).mp hfails).1
    omega

/-- A malformed line is refused exactly when it fits the buffer with its CRLF, nothing in it
completes a reply and no line can be read behind it. -/
theorem refusesLine_iff {s : Socket} {k : ℕ} {line rest : Bytes} (h : LineAhead s k line rest) :
    RefusesLine s k line ↔ (¬StartsReply line →
      line.length + 2 ≤ 1024 ∧ isCompleteFtpResponse (splitLines (line ++ crlf)) = false ∧
        NoLineBehind s rest) := by
  refine imp_congr_right fun _ => ?_
  rw [receiveResponse_failsWith h.connected]
  obtain ⟨t, ht, hrest, hends, hiff⟩ := failsWith_emptyLines h.connected h.content 0
    (emptyLines k ++ (line ++ crlf))
  rw [Nat.zero_add] at hiff
  refine hiff.trans ?_
  have hsize : (line ++ crlf).length = line.length + 2 := by
    rw [List.length_append]
    rfl
  have hfind : search crlf (content t) = some line.length := by
    rw [hrest]
    exact search_append h.first rest
  by_cases hfits : line.length + 2 ≤ 1024
  · have hline : nextLine (content t) = some (line.length + 2) := by
      rw [nextLine, hfind]
      simp only
      rw [if_pos (by omega), Nat.min_eq_left hfits]
    obtain ⟨u, hu, hrest', hends', hiff'⟩ :=
      failsWith_line ht (emptyLines k) (emptyLines k ++ (line ++ crlf)) hline
    rw [hrest, List.take_left' hsize, splitLines_emptyLines] at hiff'
    rw [hrest, List.drop_left' hsize] at hrest'
    rw [hiff', failsWith_noLineBehind hu hrest' (hends'.trans hends), and_iff_right hfits]
  · have hlen : (emptyLines k ++ (line ++ crlf)).length
        = (emptyLines k).length + (line.length + 2) := by
      rw [List.length_append, hsize]
    exact iff_of_false (not_failsWith_long ht hfind (Nat.lt_of_not_le hfits) hlen)
      fun hcond => hfits hcond.1

/-- The server closes the connection behind an error text of its own. -/
def junkClosed : Socket :=
  Socket.fresh [.data (ascii "junk" ++ crlf), .fail ⟨.asio .eof, false⟩]

theorem refusesLine_closed :
    ¬StartsReply (ascii "junk") ∧ RefusesLine junkClosed 0 (ascii "junk") :=
  have hahead : LineAhead junkClosed 0 (ascii "junk") [] :=
    ⟨rfl, by decide, by decide, by decide⟩
  ⟨by decide, (refusesLine_iff hahead).mpr fun _ => ⟨by decide, by decide, .inr trivial⟩⟩

/-- A line without a code and behind it the greeting; then the client's timer fires. -/
def junkGreeting : Socket :=
  Socket.fresh [.data (ascii "junk" ++ crlf ++ (ascii "220 Ready" ++ crlf)), .fail timeoutFault]

/- The greeting is swallowed together with the line before it. -/
theorem refusesLine_greeting :
    let line := ascii "junk"
    let greeting := ascii "220 Ready" ++ crlf
    ¬StartsReply line ∧ LineAhead junkGreeting 0 line greeting ∧
      receivedText [] junkGreeting = some (line ++ crlf ++ greeting) ∧
      ¬RefusesLine junkGreeting 0 line := by
  intro line greeting
  have hjunk : ¬StartsReply line := by decide
  have hcontent : content junkGreeting = line ++ crlf ++ greeting := by decide
  have hfails : FailsWith [] junkGreeting (line ++ crlf ++ greeting) := by
    obtain ⟨t, ht, hrest, hends, hiff⟩ := @failsWith_line junkGreeting rfl []
      (line ++ crlf ++ greeting) 6 (by decide)
    rw [hcontent] at hrest hiff
    obtain ⟨u, hu, hrest', hends', hiff'⟩ := failsWith_line ht (line ++ crlf)
      (line ++ crlf ++ greeting) (n := 11) (by rw [hrest]; decide)
    rw [hrest] at hrest' hiff'
    have hlost : search crlf (content u) = none := by
      rw [hrest']
      decide
    have hstuck : nextLine (content u) = none := by rw [nextLine, hlost]
    have hend : LineFails 1024 crlf u := by
      rw [LineFails, hlost]
      exact hends'.mpr (hends.mpr (.inr trivial))
    have hlast := (failsWith_stuck hu (line ++ crlf ++ greeting) _ hstuck).mpr ⟨rfl, hend⟩
    exact hiff.mpr ⟨by decide, hiff'.mpr ⟨by decide, hlast⟩⟩
  refine ⟨hjunk, ⟨rfl, hcontent, by decide, by decide⟩, hfails.2, fun h => ?_⟩
  have htext := (h hjunk).2
  rw [hfails.2] at htext
  exact absurd htext (by decide)

end NetworkStack.Ftp
