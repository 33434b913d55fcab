import Mathlib.Data.List.DropRight
import NetworkStack.Ftp.Responses
import NetworkStack.Socket.ReadUntil

/-!
# The line a reply's code is read from (protocol/FtpFileTransfer.cpp)

Whether a text is a complete reply is decided on its first line that is not empty;
the code is what `std::stoi` makes of its first three bytes. What text a call of
`receiveResponse` looks at depends on the bytes of the control channel alone, not on
how they arrive.
-/

namespace NetworkStack.Ftp

open Search SocketDetail

/-! ### The text at the front of the channel -/

/-- The count of the next read of a line; a line that fills the 1024 bytes leaves its LF. -/
def nextLine (stream : Bytes) : Option ℕ :=
  match search crlf stream with
  | none => none
  | some i => if i < 1024 then some (min (i + 2) 1024) else none

theorem nextLine_pos {stream : Bytes} {n : ℕ} (h : nextLine stream = some n) :
    0 < n ∧ 0 < stream.length := by
  unfold nextLine at h
  cases hfind : search crlf stream with
  | none => rw [hfind] at h; cases h
  | some i =>
    rw [hfind] at h
    simp only at h
    have hlt := search_lt hfind
    split at h
    · cases h
      omega
    · cases h

/-- The lines of the stream behind `buf`, up to the one with which the text is complete. -/
def replyText (buf stream : Bytes) : Option Bytes :=
  match _h : nextLine stream with
  | none => none
  | some n =>
    if isCompleteFtpResponse (splitLines (buf ++ stream.take n)) then some (buf ++ stream.take n)
    else replyText (buf ++ stream.take n) (stream.drop n)
termination_by stream.length
decreasing_by
  have := nextLine_pos _h
  rw [List.length_drop]
  omega

theorem replyText_line (buf : Bytes) {stream : Bytes} {n : ℕ} (h : nextLine stream = some n) :
    replyText buf stream
      = if isCompleteFtpResponse (splitLines (buf ++ stream.take n)) then
          some (buf ++ stream.take n)
        else replyText (buf ++ stream.take n) (stream.drop n) := by
  rw [replyText]
  split
  · rename_i hnone
    rw [h] at hnone
    cases hnone
  · rename_i k hk
    obtain rfl := Option.some.inj (h.symm.trans hk)
    rfl

theorem replyText_stuck (buf : Bytes) {stream : Bytes} (h : nextLine stream = none) :
    replyText buf stream = none := by
  rw [replyText]
  split
  · rfl
  · rename_i k hk
    rw [h] at hk
    cases hk

theorem readUntil_nextLine {s : Socket} {c : ReadCall} {n : ℕ} (hs : s.connected = true)
    (h : asyncReadUntilCommon s (List.replicate 1024 0) crlf = some c) (hn : c.result = .ok n) :
    nextLine (content s) = some n ∧ c.out.take n = (content s).take n ∧
      content c.socket = (content s).drop n := by
  obtain ⟨i, t, hfind, hbuf, hroom, hcount, hfront, hrest⟩ := readUntil_content hs h hn
  have hlong : i + 2 ≤ t.readBuffer.length := by
    have hpre := (search_isPrefix hbuf).length_le
    have hlt := search_lt hbuf
    have htwo : crlf.length = 2 := rfl
    rw [List.length_drop] at hpre
    omega
  rw [List.length_replicate] at hroom hcount
  refine ⟨?_, hfront, hrest⟩
  rw [nextLine, hfind]
  simp only
  rw [if_pos hroom, hcount]
  congr 1
  omega

theorem readUntil_of_nextLine {s : Socket} {n : ℕ} (hs : s.connected = true)
    (h : nextLine (content s) = some n) :
    ∃ c, asyncReadUntilCommon s (List.replicate 1024 0) crlf = some c ∧ c.result = .ok n := by
  unfold nextLine at h
  cases hfind : search crlf (content s) with
  | none => rw [hfind] at h; cases h
  | some i =>
    rw [hfind] at h
    simp only at h
    split at h
    · rename_i hroom
      obtain ⟨t, hloop, hlong, -⟩ := pullLoop_found (n := 1024) (by omega) (by decide) hfind
      have hcall : asyncReadUntilCommon s (List.replicate 1024 0) crlf = _ :=
        readUntil_found hs (by rwa [List.length_replicate])
      refine ⟨_, hcall, ?_⟩
      have htwo : crlf.length = 2 := rfl
      rw [List.length_replicate, if_neg (by omega), handOut_result, List.length_replicate]
      rw [← Option.some.inj h]
      congr 1
      omega
    · cases h

/-- Which text completes a reply is settled by the content of the socket. -/
theorem receiveLines_iff {s : Socket} (hs : s.connected = true) (buf text : Bytes) :
    (∃ t, receiveLines buf s = some (.ok text, t)) ↔ replyText buf (content s) = some text := by
  have hkeeps : ∀ {s : Socket} {c : ReadCall},
      asyncReadUntilCommon s (List.replicate 1024 0) crlf = some c → ReadOnly s c.socket :=
    fun hc => @ReadOp.run_readOnly _ (.readUntil (List.replicate 1024 0) crlf) _ hc
  have hstuck : ∀ {s : Socket}, s.connected = true →
      (∀ c n, asyncReadUntilCommon s (List.replicate 1024 0) crlf = some c → c.result ≠ .ok n) →
      ∀ buf, replyText buf (content s) = none := by
    intro s hs hno buf
    cases hline : nextLine (content s) with
    | none => exact replyText_stuck buf hline
    | some n =>
      obtain ⟨c, hc, hok⟩ := readUntil_of_nextLine hs hline
      exact absurd hok (hno c n hc)
  fun_induction receiveLines buf s with
  | case1 buf s hread =>
    rw [hstuck hs fun c n hc => by rw [hread] at hc; cases hc]
    simp
  | case2 buf s ec out next hread =>
    have hno : ∀ c n, asyncReadUntilCommon s (List.replicate 1024 0) crlf = some c →
        c.result ≠ .ok n := by
      intro c n hc hok
      rw [hread] at hc
      cases hc
      cases hok
    rw [hstuck hs hno]
    simp
  | case3 buf s out next hread =>
    obtain ⟨hline, -, -⟩ := readUntil_nextLine hs hread rfl
    exact absurd (nextLine_pos hline).1 (Nat.lt_irrefl 0)
  | case4 buf s n out next hread hn hcomplete =>
    obtain ⟨hline, hfront, -⟩ := readUntil_nextLine hs hread rfl
    simp only at hfront
    rw [hfront] at hcomplete ⊢
    rw [replyText_line buf hline, if_pos hcomplete]
    simp
  | case5 buf s n out next hread hn hcomplete ih =>
    obtain ⟨hline, hfront, hrest⟩ := readUntil_nextLine hs hread rfl
    simp only at hfront hrest
    have hlater := ih ((hkeeps hread).connected.trans hs)
    rw [hfront] at hcomplete hlater ⊢
    rw [hrest] at hlater
    rw [replyText_line buf hline, if_neg hcomplete]
    exact hlater

theorem replyText_front {buf stream text : Bytes} (h : replyText buf stream = some text) :
    text <+: buf ++ stream ∧ isCompleteFtpResponse (splitLines text) = true := by
  fun_induction replyText buf stream with
  | case1 buf stream hline => cases h
  | case2 buf stream n hline hcomplete =>
    cases h
    exact ⟨(List.prefix_append_right_inj buf).mpr (List.take_prefix n stream), hcomplete⟩
  | case3 buf stream n hline hcomplete ih =>
    obtain ⟨hpre, hlast⟩ := ih h
    rw [List.append_assoc, List.take_append_drop] at hpre
    exact ⟨hpre, hlast⟩

/-! ### The first line that is not empty -/

def isBlank (b : Byte) : Bool := b = cr ∨ b = lf

theorem splitLines_piece {piece : Bytes} (hlf : lf ∉ piece) (rest : Bytes) :
    splitLines (piece ++ lf :: rest)
      = (if piece.rdropWhile isBlank = [] then [] else [piece.rdropWhile isBlank])
        ++ splitLines rest := by
  unfold splitLines
  simp only [List.splitOn_append_cons_self_of_not_mem hlf, List.map_cons, List.filter_cons]
  by_cases hempty : piece.rdropWhile isBlank = []
  · rw [if_pos hempty]
    exact if_neg (by rw [decide_eq_true_eq]; exact not_not_intro hempty)
  · rw [if_neg hempty]
    exact if_pos (by rw [decide_eq_true_eq]; exact hempty)

theorem splitLines_last {piece : Bytes} (hlf : lf ∉ piece) :
    splitLines piece = [piece.rdropWhile isBlank].filter (· ≠ []) := by
  unfold splitLines
  rw [List.splitOn_eq_singleton hlf]
  rfl

/- The first line stands behind the blank bytes at the front of the text, unless it begins
with a CR itself. -/
theorem splitLines_first {text line : Bytes} {b : Byte} {lines : List Bytes} (hb : b ≠ cr)
    (h : splitLines text = (b :: line) :: lines) : b :: line <+: text.dropWhile isBlank := by
  have hpiece : ∀ piece rest : Bytes, lf ∉ piece → piece.rdropWhile isBlank = b :: line →
      b :: line <+: (piece ++ rest).dropWhile isBlank := by
    intro piece rest hlf hkept
    obtain ⟨tail, rfl⟩ : b :: line <+: piece := by
      rw [← hkept]
      exact List.rdropWhile_prefix ..
    have hnotLf : b ≠ lf := fun heq => hlf (heq ▸ List.mem_cons_self ..)
    rw [List.cons_append, List.cons_append,
      List.dropWhile_cons_of_neg (by simp [isBlank, hb, hnotLf])]
    exact ⟨tail ++ rest, by simp⟩
  induction hn : text.length using Nat.strongRecOn generalizing text with
  | _ k ih =>
    by_cases hlf : lf ∈ text
    · obtain ⟨piece, rest, rfl, hno⟩ := List.eq_append_cons_of_mem hlf
      rw [splitLines_piece hno] at h
      by_cases hempty : piece.rdropWhile isBlank = []
      · rw [if_pos hempty, List.nil_append] at h
        have hshort : rest.length < k := by
          rw [← hn, List.length_append, List.length_cons]
          omega
        rw [List.dropWhile_append_of_pos (List.rdropWhile_eq_nil_iff.mp hempty),
          List.dropWhile_cons_of_pos (by decide)]
        exact ih rest.length hshort h rfl
      · rw [if_neg hempty] at h
        exact hpiece piece (lf :: rest) hno (List.cons.inj h).1
    · rw [splitLines_last hlf] at h
      have hmem : b :: line ∈ [text.rdropWhile isBlank].filter (· ≠ []) :=
        h ▸ List.mem_cons_self ..
      have hkept := List.mem_singleton.mp (List.mem_filter.mp hmem).1
      have hfirst := hpiece text [] hlf hkept.symm
      rwa [List.append_nil] at hfirst

/-- A complete text begins with blank bytes and then the three digits of its first line. -/
theorem complete_front {text : Bytes} (h : isCompleteFtpResponse (splitLines text) = true) :
    ∃ digits tail lines, digits.length = 3 ∧ (∀ d ∈ digits, isdigit d = true) ∧ tail ≠ [] ∧
      splitLines text = (digits ++ tail) :: lines ∧
      digits <+: text.dropWhile isBlank := by
  cases hlines : splitLines text with
  | nil =>
    rw [hlines] at h
    cases h
  | cons first lines =>
    rw [hlines] at h
    match first, h with
    | d₁ :: d₂ :: d₃ :: sep :: tail, h =>
      simp only [isCompleteFtpResponse] at h
      split at h
      · cases h
      · rename_i hdigits
        simp only [Bool.not_eq_true', Bool.not_eq_false, Bool.and_eq_true] at hdigits
        have hcr : d₁ ≠ cr := by
          rintro rfl
          exact absurd hdigits.1.1 (by decide)
        refine ⟨[d₁, d₂, d₃], sep :: tail, lines, rfl, by simpa [and_assoc] using hdigits,
          List.cons_ne_nil _ _, rfl, ?_⟩
        exact (List.prefix_append [d₁, d₂, d₃] (sep :: tail)).trans (splitLines_first hcr hlines)

/-! ### The code -/

/-- No blank bytes at the front, or at most two of them and then three zeros. -/
def Fronted (text : Bytes) : Prop :=
  text.takeWhile isBlank = [] ∨
    ((text.takeWhile isBlank).length ≤ 2 ∧ ascii "000" <+: text.dropWhile isBlank)

instance (text : Bytes) : Decidable (Fronted text) := inferInstanceAs (Decidable (_ ∨ _))

theorem stoi_blank {blank : Bytes} (hblank : ∀ b ∈ blank, isBlank b = true) (digits : Bytes) :
    stoi (blank ++ digits) = stoi digits := by
  have hspace : ∀ b ∈ blank, isspace b = true := by
    intro b hb
    have hcase : b = cr ∨ b = lf := by simpa [isBlank] using hblank b hb
    rcases hcase with rfl | rfl <;> decide
  rw [stoi, stoi, List.dropWhile_append_of_pos hspace]

/- Reading fewer than all three digits gives their value only when they are all zeros. -/
theorem decimal_take {digits : Bytes} (hlen : digits.length = 3)
    (hdigits : ∀ d ∈ digits, isdigit d = true) {k : ℕ} (hpos : 0 < k) (hk : k < 3) :
    decimal (digits.take k) = decimal digits ↔ digits = ascii "000" := by
  have hval : ∀ d ∈ digits, 48 ≤ d.toNat := fun d hd =>
    UInt8.le_iff_toNat_le.mp (isDigit_of_isdigit (hdigits d hd)).1
  obtain ⟨d₁, d₂, d₃, rfl⟩ := List.length_eq_three.mp hlen
  have h₁ := hval d₁ (by simp)
  have h₂ := hval d₂ (by simp)
  have h₃ := hval d₃ (by simp)
  have hzero : [d₁, d₂, d₃] = ascii "000" ↔ d₁.toNat = 48 ∧ d₂.toNat = 48 ∧ d₃.toNat = 48 := by
    have hascii : ascii "000" = [48, 48, 48] := by decide
    rw [hascii]
    simp [← UInt8.toNat_inj]
  rw [hzero]
  have hcases : k = 1 ∨ k = 2 := by omega
  rcases hcases with rfl | rfl
  · simp only [List.take_succ_cons, List.take_zero, decimal, List.foldl_cons, List.foldl_nil]
    omega
  · simp only [List.take_succ_cons, List.take_zero, decimal, List.foldl_cons, List.foldl_nil]
    omega

section Front

variable {digits text : Bytes} (hlen : digits.length = 3)
  (hfront : digits <+: text.dropWhile isBlank)
include hlen hfront

/- What `std::stoi` makes of the first three bytes. -/
theorem stoi_front (hdigits : ∀ d ∈ digits, isdigit d = true) :
    stoi (text.take 3) = if (text.takeWhile isBlank).length < 3 then
        some (decimal (digits.take (3 - (text.takeWhile isBlank).length)) : Int)
      else none := by
  have hblank : ∀ b ∈ text.takeWhile isBlank, isBlank b = true :=
    fun b hb => List.mem_takeWhile_imp hb
  have hcut : text.take 3 = (text.takeWhile isBlank).take 3
      ++ digits.take (3 - (text.takeWhile isBlank).length) := by
    obtain ⟨tail, htail⟩ := hfront
    conv_lhs => rw [← List.takeWhile_append_dropWhile (p := isBlank) (l := text), ← htail]
    rw [List.take_append, List.take_append_of_le_length (by omega)]
  rw [hcut, stoi_blank fun b hb => hblank b (List.mem_of_mem_take hb)]
  by_cases hshort : (text.takeWhile isBlank).length < 3
  · rw [if_pos hshort]
    refine stoi_code ?_ ?_ fun d hd => hdigits d (List.mem_of_mem_take hd)
    · rw [← List.length_pos_iff, List.length_take]
      omega
    · rw [List.length_take]
      omega
  · rw [if_neg hshort, Nat.sub_eq_zero_of_le (by omega), List.take_zero]
    rfl

theorem fronted_iff :
    Fronted text ↔ text.takeWhile isBlank = [] ∨
      ((text.takeWhile isBlank).length ≤ 2 ∧ digits = ascii "000") := by
  have hzeros : ascii "000" <+: text.dropWhile isBlank ↔ digits = ascii "000" := by
    refine ⟨fun hpre => ?_, fun heq => heq ▸ hfront⟩
    exact (List.prefix_of_prefix_length_le hfront hpre (by rw [hlen]; decide)).eq_of_length hlen
  rw [Fronted, hzeros]

/- The stream behind a text leaves its front as it is. -/
theorem fronted_append (more : Bytes) : Fronted (text ++ more) ↔ Fronted text := by
  have hlong : (text.dropWhile isBlank).isEmpty = false := by
    obtain ⟨tail, htail⟩ := hfront
    rw [← htail]
    match digits, hlen with
    | _ :: _, _ => rfl
  have hdrop : (text ++ more).dropWhile isBlank = text.dropWhile isBlank ++ more := by
    rw [List.dropWhile_append, hlong]
    rfl
  have htake : (text ++ more).takeWhile isBlank = text.takeWhile isBlank := by
    have hall : text ++ more
        = (text ++ more).takeWhile isBlank ++ (text.dropWhile isBlank ++ more) := by
      rw [← hdrop, List.takeWhile_append_dropWhile]
    rw [← List.append_assoc, List.append_cancel_right_eq] at hall
    have hsame := hall.symm.trans (List.takeWhile_append_dropWhile (p := isBlank) (l := text)).symm
    exact List.append_cancel_right hsame
  rw [fronted_iff hlen (hdrop ▸ hfront.trans (List.prefix_append _ more)), htake,
    ← fronted_iff hlen hfront]

end Front

/-- The call does not throw, and the code of an answer is the value of the three digits at
the front of the first line of its text that is not empty. -/
structure ReadsCode (s : Socket) : Prop where
  returns : ∀ t, receiveResponse s ≠ some (.error .threw, t)
  code : ∀ a t, receiveResponse s = some (.ok a, t) → ∃ first lines,
    splitLines a.full_msg = first :: lines ∧ 3 ≤ first.length ∧
      (∀ d ∈ first.take 3, isdigit d = true) ∧ a.code = decimal (first.take 3)

/- An answer or an exception needs a complete text. -/
theorem receiveResponse_text {s t : Socket} {r : Except Exit Answer}
    (h : receiveResponse s = some (r, t)) (hr : r = .error .threw ∨ ∃ a, r = .ok a) :
    ∃ text, receiveLines [] s = some (.ok text, t) := by
  unfold receiveResponse at h
  cases hlines : receiveLines [] s with
  | none => rw [hlines] at h; cases h
  | some x =>
    obtain ⟨lines, u⟩ := x
    rw [hlines] at h
    cases lines with
    | error ec =>
      cases h
      rcases hr with hr | ⟨a, hr⟩ <;> cases hr
    | ok text =>
      refine ⟨text, ?_⟩
      simp only at h
      split at h
      · exact congrArg (fun u => some (Except.ok text, u)) (Prod.mk.inj (Option.some.inj h)).2
      · split at h
        · exact congrArg (fun u => some (Except.ok text, u)) (Prod.mk.inj (Option.some.inj h)).2
        · exact congrArg (fun u => some (Except.ok text, u)) (Prod.mk.inj (Option.some.inj h)).2

theorem receiveLines_connected {s t : Socket} {buf text : Bytes}
    (h : receiveLines buf s = some (.ok text, t)) : s.connected = true := by
  by_contra hs
  have hread : asyncReadUntilCommon s (List.replicate 1024 0) crlf
      = some ⟨.error (.asio .not_connected), List.replicate 1024 0, s⟩ := by
    rw [asyncReadUntilCommon, if_pos (by simpa using hs)]
  rw [receiveLines, hread] at h
  cases h

section Complete

variable {s t : Socket} {text : Bytes} (hlines : receiveLines [] s = some (.ok text, t))
include hlines

theorem receiveResponse_complete {digits : Bytes} (hlen : digits.length = 3)
    (hdigits : ∀ d ∈ digits, isdigit d = true) (hfront : digits <+: text.dropWhile isBlank) :
    receiveResponse s = some (if (text.takeWhile isBlank).length < 3 then
        .ok ⟨text, decimal (digits.take (3 - (text.takeWhile isBlank).length))⟩
      else .error .threw, t) := by
  have hlong : ¬text.length < 3 := by
    have hle := hfront.length_le
    have hdrop := (List.dropWhile_suffix (l := text) isBlank).length_le
    omega
  rw [receiveResponse, hlines]
  simp only
  rw [if_neg hlong, stoi_front hlen hfront hdigits]
  by_cases hshort : (text.takeWhile isBlank).length < 3
  · rw [if_pos hshort, if_pos hshort]
    rfl
  · rw [if_neg hshort, if_neg hshort]

/- With a complete text all depends on its front. -/
theorem readsCode_complete (hcomplete : isCompleteFtpResponse (splitLines text) = true) :
    ReadsCode s ↔ Fronted text := by
  obtain ⟨digits, tail, lines, hlen, hdigits, htail, hsplit, hfront⟩ := complete_front hcomplete
  have hcall := receiveResponse_complete hlines hlen hdigits hfront
  have hfirst : (digits ++ tail).take 3 = digits := List.take_left' hlen
  rw [fronted_iff hlen hfront]
  by_cases hshort : (text.takeWhile isBlank).length < 3
  · rw [if_pos hshort] at hcall
    have hvalue : ReadsCode s ↔
        decimal (digits.take (3 - (text.takeWhile isBlank).length)) = decimal digits := by
      refine ⟨fun h => ?_, fun hcode => ⟨fun u hu => ?_, fun a u ha => ?_⟩⟩
      · obtain ⟨first, rest, hsplit', -, -, hcode⟩ := h.code _ _ hcall
        obtain rfl : digits ++ tail = first := (List.cons.inj (hsplit.symm.trans hsplit')).1
        rwa [hfirst] at hcode
      · rw [hcall] at hu
        cases hu
      · rw [hcall] at ha
        cases ha
        refine ⟨digits ++ tail, lines, hsplit, ?_, ?_, ?_⟩
        · rw [List.length_append]
          omega
        · rwa [hfirst]
        · rw [hfirst, ← hcode]
    rw [hvalue]
    by_cases hnone : text.takeWhile isBlank = []
    · simp [hnone, ← hlen]
    · have hpos := List.length_pos_iff.mpr hnone
      rw [decimal_take hlen hdigits (by omega) (by omega)]
      simp [hnone, Nat.le_of_lt_succ hshort]
  · rw [if_neg hshort] at hcall
    refine ⟨fun h => absurd hcall (h.returns t), fun h => ?_⟩
    rcases h with hnone | ⟨hle, -⟩
    · rw [hnone] at hshort
      exact absurd (by decide) hshort
    · omega

end Complete

/-- The code is read as promised exactly when the content of the channel holds no complete
reply or begins as it should. -/
theorem readsCode_iff (s : Socket) :
    ReadsCode s ↔
      (s.connected = true → (replyText [] (content s)).isSome → Fronted (content s)) := by
  have hidle : (∀ text t, receiveLines [] s ≠ some (.ok text, t)) → ReadsCode s := by
    refine fun hno => ⟨fun t ht => ?_, fun a t ha => ?_⟩
    · obtain ⟨text, htext⟩ := receiveResponse_text ht (.inl rfl)
      exact hno text t htext
    · obtain ⟨text, htext⟩ := receiveResponse_text ha (.inr ⟨a, rfl⟩)
      exact absurd htext (hno text t)
  by_cases hs : s.connected = true
  · cases htext : replyText [] (content s) with
    | none =>
      refine ⟨fun _ _ hsome => Bool.noConfusion hsome, fun _ => hidle fun text t hlines => ?_⟩
      rw [(receiveLines_iff hs [] text).mp ⟨t, hlines⟩] at htext
      cases htext
    | some text =>
      obtain ⟨t, hlines⟩ := (receiveLines_iff hs [] text).mpr htext
      obtain ⟨⟨more, hmore⟩, hcomplete⟩ := replyText_front htext
      obtain ⟨digits, -, -, hlen, -, -, -, hfront⟩ := complete_front hcomplete
      rw [readsCode_complete hlines hcomplete, ← fronted_append hlen hfront more, hmore,
        List.nil_append]
      exact ⟨fun h _ _ => h, fun h => h hs rfl⟩
  · refine ⟨fun _ h => absurd h hs, fun _ => hidle fun text t hlines => ?_⟩
    exact hs (receiveLines_connected hlines)

/- One empty line before a reply: its code comes out a hundredfold too small. -/
theorem readsCode_emptyLine :
    let s := Socket.fresh [.data (crlf ++ ascii "220 Hi" ++ crlf)]
    (∃ t, receiveResponse s = some (.ok ⟨crlf ++ ascii "220 Hi" ++ crlf, 2⟩, t)) ∧
      ¬ReadsCode s := by
  intro s
  have hcontent : content s = crlf ++ ascii "220 Hi" ++ crlf := by decide
  have htext : replyText [] (content s) = some (crlf ++ ascii "220 Hi" ++ crlf) := by
    rw [hcontent, replyText_line [] (n := 2) (by decide), if_neg (by decide),
      replyText_line _ (n := 8) (by decide), if_pos (by decide)]
    decide
  obtain ⟨t, hlines⟩ := (receiveLines_iff (s := s) rfl [] _).mpr htext
  refine ⟨⟨t, ?_⟩, fun h => ?_⟩
  · have hdigits : ∀ d ∈ ascii "220", isdigit d = true := by decide
    rw [receiveResponse_complete hlines (by decide) hdigits (by decide)]
    rfl
  · exact absurd ((readsCode_complete hlines (by decide)).mp h) (by decide)

end NetworkStack.Ftp
