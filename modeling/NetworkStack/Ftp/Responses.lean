import Mathlib.Data.List.TakeWhile
import NetworkStack.Ftp.FileTransfer
import NetworkStack.Socket.ReadUntil

/-!
# Reading replies off the control channel (protocol/FtpFileTransfer.cpp)

`receiveResponse` reads line by line and looks at everything read so far after
each line, until the text is a complete reply. Well-formed replies come back one
by one, wherever the segments of the stream end.
-/

namespace NetworkStack.Ftp

open Search SocketDetail

/-! ### The reader -/

/-- A line ends the reply when it begins with the code of the first line and a blank. -/
def isCompleteFtpResponse (lines : List Bytes) : Bool :=
  match lines with
  | [] => false
  | first :: _ =>
    match first with
    | d₁ :: d₂ :: d₃ :: sep :: _ =>
      if !(isdigit d₁ && isdigit d₂ && isdigit d₃) then false
      else if sep = 32 then true
      else if sep ≠ 45 then false
      else lines.any fun l => [d₁, d₂, d₃, 32].isPrefixOf l
    | _ => false

def receiveLines (buf : Bytes) (sock : Socket) : Option (Except ErrorCode Bytes × Socket) :=
  match _h : asyncReadUntilCommon sock (List.replicate 1024 0) crlf with
  | none => none
  | some ⟨.error ec, _, next⟩ => some (.error ec, next)
  | some ⟨.ok n, tmp, next⟩ =>
    if _hn : n = 0 then some (.error (.network .CONNECTION_LOST), next)
    else if isCompleteFtpResponse (splitLines (buf ++ tmp.take n)) then
      some (.ok (buf ++ tmp.take n), next)
    else receiveLines (buf ++ tmp.take n) next
termination_by (unread sock).length
decreasing_by
  obtain ⟨htook, hlen⟩ := readUntil_took _h
  rw [htook.stream, List.length_append, hlen]
  omega

/-- The three bytes `std::stoi` sees are digits, or begin with the end of an empty line
and then hold digits at most: no sign can stand among them. -/
def receiveResponse (sock : Socket) : Option (Except Exit Answer × Socket) :=
  match receiveLines [] sock with
  | none => none
  | some (.error ec, next) => some (.error (.error ec), next)
  | some (.ok buf, next) =>
    if buf.length < 3 then some (.error protocolError, next)
    else
      match stoi (buf.take 3) with
      | none => some (.error .threw, next)
      | some code => some (.ok ⟨buf, code.toNat⟩, next)

theorem receiveLines_readOnly {buf : Bytes} {s t : Socket} {r : Except ErrorCode Bytes}
    (h : receiveLines buf s = some (r, t)) : ReadOnly s t := by
  have hcall : ∀ {s : Socket} {c : ReadCall},
      asyncReadUntilCommon s (List.replicate 1024 0) crlf = some c → ReadOnly s c.socket :=
    fun hc => @ReadOp.run_readOnly _ (.readUntil (List.replicate 1024 0) crlf) _ hc
  fun_induction receiveLines buf s with
  | case1 buf s hread => cases h
  | case2 buf s ec out next hread =>
    cases h
    exact hcall hread
  | case3 buf s out next hread =>
    cases h
    exact hcall hread
  | case4 buf s n out next hread hn hcomplete =>
    cases h
    exact hcall hread
  | case5 buf s n out next hread hn hcomplete ih => exact (hcall hread).trans (ih h)

theorem receiveResponse_readOnly {s t : Socket} {r : Except Exit Answer}
    (h : receiveResponse s = some (r, t)) : ReadOnly s t := by
  unfold receiveResponse at h
  cases hlines : receiveLines [] s with
  | none => rw [hlines] at h; cases h
  | some x =>
    obtain ⟨lines, next⟩ := x
    have hnext : next = t := by
      rw [hlines] at h
      cases lines with
      | error ec => exact (Prod.mk.inj (Option.some.inj h)).2
      | ok buf =>
        simp only at h
        split at h
        · exact (Prod.mk.inj (Option.some.inj h)).2
        · split at h <;> exact (Prod.mk.inj (Option.some.inj h)).2
    exact receiveLines_readOnly (hnext ▸ hlines)

/-! ### Replies -/

/-- A reply of one line, or one whose first line has a hyphen after the code and whose
last line has a blank there. -/
inductive Reply where
  | single (digits text : Bytes)
  | multi (digits text : Bytes) (inner : List Bytes) (last : Bytes)

namespace Reply

def digits : Reply → Bytes
  | .single digits _ => digits
  | .multi digits _ _ _ => digits

def inner : Reply → List Bytes
  | .single _ _ => []
  | .multi _ _ inner _ => inner

def lines : Reply → List Bytes
  | .single digits text => [digits ++ 32 :: text]
  | .multi digits text inner last => (digits ++ 45 :: text) :: inner ++ [digits ++ 32 :: last]

def bytes (r : Reply) : Bytes := r.lines.flatMap (· ++ crlf)

def answer (r : Reply) : Answer := ⟨r.bytes, decimal r.digits⟩

/-- The lines hold neither CR nor LF, and with their CRLF they have at most `size` bytes. -/
structure WellFormed (size : ℕ) (r : Reply) : Prop where
  code : r.digits.length = 3 ∧ ∀ b ∈ r.digits, isdigit b = true
  unended : ∀ l ∈ r.inner, ¬r.digits ++ [32] <+: l
  clean : ∀ l ∈ r.lines, cr ∉ l ∧ lf ∉ l
  short : ∀ l ∈ r.lines, l.length + 2 ≤ size

end Reply

/-! ### One line -/

/- On a steady transport `readUntil` takes exactly the next line, if it fits the output. -/
theorem readUntil_line {s : Socket} {line rest : Bytes} (out : Bytes) (hs : s.connected = true)
    (hst : Chunked.Steady s.incoming) (hcr : cr ∉ line) (hlen : line.length + 2 ≤ out.length)
    (hstream : unread s = line ++ crlf ++ rest) :
    ∃ out' t, asyncReadUntilCommon s out crlf = some ⟨.ok (line.length + 2), out', t⟩ ∧
      out'.take (line.length + 2) = line ++ crlf ∧ Chunked.Steady t.incoming ∧
      t.connected = true ∧ unread t = rest := by
  have hfound : search crlf (content s) = some line.length := by
    rw [content_steady hst, hstream]
    exact search_behind hcr rest
  obtain ⟨t, hloop, hlong, -⟩ := @pullLoop_found out.length _ crlf s (by omega) (by decide) hfound
  have htwo : crlf.length = 2 := rfl
  have hcall : asyncReadUntilCommon s out crlf = some (handOut t out (some (line.length + 2))) := by
    rw [readUntil_found hs hloop, if_neg (by omega)]
  have hcount : (handOut t out (some (line.length + 2))).result = .ok (line.length + 2) := by
    rw [handOut_result]
    congr 1
    omega
  obtain ⟨-, -, -, -, -, -, hfront, hrest⟩ := readUntil_content hs hcall hcount
  have hsteady : Chunked.Steady (handOut t out (some (line.length + 2))).socket.incoming := by
    show Chunked.Steady t.incoming
    exact pullLoop_keeps (fun _ _ => pull_keeps_steady) hloop hst
  have hsize : (line ++ crlf).length = line.length + 2 := by
    rw [List.length_append, htwo]
  rw [content_steady hst, hstream, List.take_left' hsize] at hfront
  rw [content_steady hst, hstream, List.drop_left' hsize, content_steady hsteady] at hrest
  have hopen := (@ReadOp.run_readOnly _ (.readUntil out crlf) _ hcall).connected
  refine ⟨_, _, ?_, hfront, hsteady, hopen.trans hs, hrest⟩
  rw [hcall, ← hcount]

theorem receiveLines_line {s : Socket} {line rest : Bytes} (buf : Bytes) (hs : s.connected = true)
    (hst : Chunked.Steady s.incoming) (hcr : cr ∉ line) (hlen : line.length + 2 ≤ 1024)
    (hstream : unread s = line ++ crlf ++ rest) :
    ∃ t, Chunked.Steady t.incoming ∧ t.connected = true ∧ unread t = rest ∧
      receiveLines buf s = if isCompleteFtpResponse (splitLines (buf ++ (line ++ crlf))) then
          some (.ok (buf ++ (line ++ crlf)), t)
        else receiveLines (buf ++ (line ++ crlf)) t := by
  obtain ⟨tmp, t, hread, hfront, hst', hs', hrest⟩ :=
    readUntil_line (List.replicate 1024 0) hs hst hcr
      (by rwa [List.length_replicate]) hstream
  refine ⟨t, hst', hs', hrest, ?_⟩
  rw [receiveLines, hread]
  simp only
  rw [dif_neg (by omega), hfront]

/-! ### The lines read so far -/

theorem splitLines_line {line ending : Bytes} (hending : ending = crlf ∨ ending = [lf])
    (hlf : lf ∉ line) (hback : ∀ b ∈ line.getLast?, b ≠ cr) (rest : Bytes) :
    splitLines (line ++ ending ++ rest)
      = (if line = [] then [] else [line]) ++ splitLines rest := by
  have hnone : (line.reverse.dropWhile fun b => b = cr ∨ b = lf) = line.reverse := by
    cases hrev : line.reverse with
    | nil => rfl
    | cons b bs =>
      have hmem : b ∈ line := List.mem_reverse.mp (hrev ▸ List.mem_cons_self ..)
      have hlast : line.getLast? = some b := by rw [List.getLast?_eq_head?_reverse, hrev]; rfl
      have hb : ¬(b = cr ∨ b = lf) := by
        rintro (rfl | rfl)
        · exact hback _ hlast rfl
        · exact hlf hmem
      rw [List.dropWhile_cons_of_neg (by simpa using hb)]
  -- the piece in front of the line feed, with or without a carriage return
  obtain ⟨tail, hpiece, hno, hstrip⟩ : ∃ tail,
      line ++ ending ++ rest = (line ++ tail) ++ lf :: rest ∧ lf ∉ line ++ tail ∧
      ((line ++ tail).reverse.dropWhile fun b => b = cr ∨ b = lf).reverse = line := by
    rcases hending with rfl | rfl
    · refine ⟨[cr], by simp [crlf], ?_, ?_⟩
      · rw [List.mem_append, not_or]
        exact ⟨hlf, by decide⟩
      · rw [List.reverse_append]
        show ((cr :: line.reverse).dropWhile _).reverse = line
        rw [List.dropWhile_cons_of_pos (by decide), hnone, List.reverse_reverse]
    · refine ⟨[], by simp, by rwa [List.append_nil], ?_⟩
      rw [List.append_nil, hnone, List.reverse_reverse]
  unfold splitLines
  rw [hpiece, List.splitOn_append_cons_self_of_not_mem hno]
  simp only [List.map_cons, List.filter_cons, hstrip]
  by_cases hline : line = []
  · simp [hline]
  · simp [hline]

theorem splitLines_cons {line : Bytes} (hcr : cr ∉ line) (hlf : lf ∉ line) (rest : Bytes) :
    splitLines (line ++ crlf ++ rest)
      = (if line = [] then [] else [line]) ++ splitLines rest :=
  splitLines_line (.inl rfl) hlf (fun _ hb heq => hcr (heq ▸ List.mem_of_getLast? hb)) rest

theorem splitLines_flatMap {lines : List Bytes} (h : ∀ l ∈ lines, cr ∉ l ∧ lf ∉ l) :
    splitLines (lines.flatMap (· ++ crlf)) = lines.filter (· ≠ []) := by
  induction lines with
  | nil => rfl
  | cons l lines ih =>
    obtain ⟨hl, hlines⟩ := List.forall_mem_cons.mp h
    rw [List.flatMap_cons, splitLines_cons hl.1 hl.2, ih hlines]
    by_cases hempty : l = []
    · simp [hempty]
    · simp [hempty]

theorem complete_single {digits : Bytes} (text : Bytes) (hlen : digits.length = 3)
    (hdigits : ∀ b ∈ digits, isdigit b = true) :
    isCompleteFtpResponse [digits ++ 32 :: text] = true := by
  match digits, hlen with
  | [d₁, d₂, d₃], _ =>
    simp only [List.mem_cons, List.not_mem_nil, or_false, forall_eq_or_imp, forall_eq] at hdigits
    simp [isCompleteFtpResponse, hdigits]

/- A reply that began with a hyphen is complete when one of the later lines ends it. -/
theorem complete_multi {digits text : Bytes} (hlen : digits.length = 3)
    (hdigits : ∀ b ∈ digits, isdigit b = true) (seen : List Bytes) :
    isCompleteFtpResponse ((digits ++ 45 :: text) :: seen)
      = seen.any fun l => (digits ++ [32]).isPrefixOf l := by
  match digits, hlen with
  | [d₁, d₂, d₃], _ =>
    simp only [List.mem_cons, List.not_mem_nil, or_false, forall_eq_or_imp, forall_eq] at hdigits
    simp [isCompleteFtpResponse, hdigits]

theorem any_filter_nonempty {pat : Bytes} (hpat : pat ≠ []) (seen : List Bytes) :
    (seen.filter (· ≠ [])).any (fun l => pat.isPrefixOf l)
      = seen.any fun l => pat.isPrefixOf l := by
  rw [List.any_filter]
  congr 1
  funext l
  cases l with
  | nil =>
    cases pat with
    | nil => exact absurd rfl hpat
    | cons b pat => rfl
  | cons b l => simp

/-! ### One reply -/

section Reading

variable {digits text : Bytes} {s : Socket}

theorem complete_seen {seen : List Bytes} (hlen : digits.length = 3)
    (hdigits : ∀ b ∈ digits, isdigit b = true)
    (hclean : ∀ l ∈ (digits ++ 45 :: text) :: seen, cr ∉ l ∧ lf ∉ l) :
    isCompleteFtpResponse (splitLines (((digits ++ 45 :: text) :: seen).flatMap (· ++ crlf)))
      = seen.any fun l => (digits ++ [32]).isPrefixOf l := by
  have hfirst : decide (digits ++ 45 :: text ≠ []) = true := by simp
  rw [splitLines_flatMap hclean, List.filter_cons, if_pos hfirst, complete_multi hlen
    hdigits, any_filter_nonempty (by simp)]

/- The lines of a multi-line reply behind the first, up to the one that ends it. -/
theorem receiveLines_multi {inner : List Bytes} {last rest : Bytes} (seen : List Bytes)
    (hlen : digits.length = 3) (hdigits : ∀ b ∈ digits, isdigit b = true)
    (hopen : ∀ l ∈ seen ++ inner, ¬digits ++ [32] <+: l)
    (hclean : ∀ l ∈ (digits ++ 45 :: text) :: seen ++ inner ++ [digits ++ 32 :: last],
      cr ∉ l ∧ lf ∉ l)
    (hshort : ∀ l ∈ inner ++ [digits ++ 32 :: last], l.length + 2 ≤ 1024)
    (hs : s.connected = true) (hst : Chunked.Steady s.incoming)
    (hstream : unread s = (inner ++ [digits ++ 32 :: last]).flatMap (· ++ crlf) ++ rest) :
    ∃ t, receiveLines (((digits ++ 45 :: text) :: seen).flatMap (· ++ crlf)) s
        = some (.ok (((digits ++ 45 :: text) :: seen ++ inner
            ++ [digits ++ 32 :: last]).flatMap (· ++ crlf)), t) ∧
      Chunked.Steady t.incoming ∧ t.connected = true ∧ unread t = rest := by
  have happend : ∀ (ls : List Bytes) (l : Bytes),
      ls.flatMap (· ++ crlf) ++ (l ++ crlf) = (ls ++ [l]).flatMap (· ++ crlf) := by simp
  induction inner generalizing seen s with
  | nil =>
    simp only [List.nil_append, List.flatMap_cons, List.flatMap_nil, List.append_nil] at hstream
    rw [List.append_nil] at hclean ⊢
    obtain ⟨t, hst', hs', hrest, hread⟩ := receiveLines_line _ hs hst (hclean _ (by simp)).1
      (hshort _ (by simp)) hstream
    refine ⟨t, ?_, hst', hs', hrest⟩
    have hended : (seen ++ [digits ++ 32 :: last]).any
        (fun l => (digits ++ [32]).isPrefixOf l) = true := by
      simp
    have hseen : ∀ l ∈ (digits ++ 45 :: text) :: (seen ++ [digits ++ 32 :: last]),
        cr ∉ l ∧ lf ∉ l := hclean
    rw [hread, happend, List.cons_append, complete_seen hlen hdigits hseen, if_pos hended]
  | cons l inner ih =>
    simp only [List.cons_append, List.flatMap_cons] at hstream
    rw [List.append_assoc] at hstream
    have hseen : ∀ l' ∈ (digits ++ 45 :: text) :: (seen ++ [l]), cr ∉ l' ∧ lf ∉ l' := by
      intro l' hl'
      refine hclean l' ?_
      simp only [List.mem_cons, List.mem_append, List.not_mem_nil, or_false] at hl' ⊢
      tauto
    have hnotyet : (seen ++ [l]).any (fun l => (digits ++ [32]).isPrefixOf l) = false := by
      rw [List.any_eq_false]
      intro l' hl'
      rw [List.isPrefixOf_iff_prefix]
      refine hopen l' ?_
      simp only [List.mem_cons, List.mem_append, List.not_mem_nil, or_false] at hl' ⊢
      tauto
    obtain ⟨t, hst', hs', hrest, hread⟩ := receiveLines_line _ hs hst (hclean l (by simp)).1
      (hshort l (by simp)) hstream
    rw [hread, happend, List.cons_append, complete_seen hlen hdigits hseen, hnotyet]
    obtain ⟨u, hu, hend⟩ := ih (seen ++ [l]) (by simpa using hopen)
      (by simpa using hclean) (fun l' hl' => hshort l' (List.mem_cons_of_mem _ hl')) hs' hst' hrest
    refine ⟨u, ?_, hend⟩
    simpa using hu

end Reading

theorem decimal_lt {digits : Bytes} (hdigits : ∀ b ∈ digits, isdigit b = true)
    (hlen : digits.length ≤ 3) : decimal digits < 1000 :=
  calc decimal digits
      < 10 ^ digits.length := Decimal.value_lt fun b hb => isDigit_of_isdigit (hdigits b hb)
    _ ≤ 10 ^ 3 := Nat.pow_le_pow_right (by decide) hlen

theorem stoi_code {digits : Bytes} (hne : digits ≠ []) (hlen : digits.length ≤ 3)
    (hdigits : ∀ b ∈ digits, isdigit b = true) : stoi digits = some (decimal digits : Int) :=
  stoi_digits hne hdigits (Nat.lt_trans (decimal_lt hdigits hlen) (by decide))

theorem receiveLines_reply {r : Reply} (hr : r.WellFormed 1024) {s : Socket} {rest : Bytes}
    (hs : s.connected = true) (hst : Chunked.Steady s.incoming)
    (hstream : unread s = r.bytes ++ rest) :
    ∃ t, receiveLines [] s = some (.ok r.bytes, t) ∧ Chunked.Steady t.incoming ∧
      t.connected = true ∧ unread t = rest := by
  obtain ⟨⟨hlen, hdigits⟩, hopen, hclean, hshort⟩ := hr
  cases r with
  | single digits text =>
    simp only [Reply.digits, Reply.lines] at hlen hdigits hclean hshort
    have hbytes : (Reply.single digits text).bytes = [digits ++ 32 :: text].flatMap (· ++ crlf) :=
      rfl
    have hline : [digits ++ 32 :: text].flatMap (· ++ crlf) = digits ++ 32 :: text ++ crlf := by
      simp
    rw [hbytes, hline] at hstream
    obtain ⟨t, hst', hs', hrest, hread⟩ := receiveLines_line [] hs hst
      (hclean _ (by simp)).1 (hshort _ (by simp)) hstream
    rw [List.nil_append, ← hline, splitLines_flatMap hclean] at hread
    have hcomplete := complete_single text hlen hdigits
    have hkeep : [digits ++ 32 :: text].filter (· ≠ []) = [digits ++ 32 :: text] := by simp
    rw [hkeep, if_pos hcomplete] at hread
    exact ⟨t, hread, hst', hs', hrest⟩
  | multi digits text inner last =>
    simp only [Reply.digits, Reply.inner, Reply.lines] at hlen hdigits hopen hclean hshort
    have hbytes : (Reply.multi digits text inner last).bytes
        = (digits ++ 45 :: text) ++ crlf
          ++ (inner ++ [digits ++ 32 :: last]).flatMap (· ++ crlf) := by
      simp [Reply.bytes, Reply.lines]
    rw [hbytes, List.append_assoc] at hstream
    have hfirst := hclean (digits ++ 45 :: text) (by simp)
    obtain ⟨t, hst', hs', hrest, hread⟩ := receiveLines_line [] hs hst hfirst.1
      (hshort _ (by simp)) hstream
    have hone : [] ++ (digits ++ 45 :: text ++ crlf)
        = [digits ++ 45 :: text].flatMap (· ++ crlf) := by simp
    rw [hone, complete_seen hlen hdigits (by simpa using hfirst)] at hread
    obtain ⟨u, hu, hend⟩ := receiveLines_multi [] hlen hdigits hopen
      hclean (fun l hl => hshort l (List.mem_cons_of_mem _ hl)) hs' hst' hrest
    refine ⟨u, ?_, hend⟩
    rw [hread]
    exact hu

/-- A well-formed reply at the front of the stream is the next answer. -/
theorem receiveResponse_reply {r : Reply} (hr : r.WellFormed 1024) {s : Socket} {rest : Bytes}
    (hs : s.connected = true) (hst : Chunked.Steady s.incoming)
    (hstream : unread s = r.bytes ++ rest) :
    ∃ t, receiveResponse s = some (.ok r.answer, t) ∧ Chunked.Steady t.incoming ∧
      t.connected = true ∧ unread t = rest := by
  obtain ⟨t, hread, hend⟩ := receiveLines_reply hr hs hst hstream
  have hfront : r.bytes.take 3 = r.digits := by
    have hlen := hr.code.1
    cases r with
    | single digits text => simp [Reply.bytes, Reply.lines, Reply.digits, ← hlen]
    | multi digits text inner last => simp [Reply.bytes, Reply.lines, Reply.digits, ← hlen]
  have hlong : ¬r.bytes.length < 3 := by
    have hle := List.length_take_le' 3 r.bytes
    rw [hfront, hr.code.1] at hle
    omega
  have hne : r.digits ≠ [] := by
    intro hnil
    have hlen := hr.code.1
    rw [hnil] at hlen
    cases hlen
  refine ⟨t, ?_, hend⟩
  rw [receiveResponse, hread]
  simp only
  rw [if_neg hlong, hfront, stoi_code hne (Nat.le_of_eq hr.code.1) hr.code.2]
  rfl

/-! ### Successive replies -/

def receiveResponses : ℕ → Socket → Option (List (Except Exit Answer) × Socket)
  | 0, s => some ([], s)
  | k + 1, s =>
    match receiveResponse s with
    | none => none
    | some (r, t) => (receiveResponses k t).map fun (rs, u) => (r :: rs, u)

/-- Whatever the replies and wherever the segments of the stream end, the first `k` calls
return the first `k` replies and leave the others unread. -/
theorem receiveResponses_replies (replies : List Reply) (hr : ∀ r ∈ replies, r.WellFormed 1024)
    (s : Socket) (hs : s.connected = true) (hst : Chunked.Steady s.incoming)
    (hstream : unread s = replies.flatMap Reply.bytes) (k : ℕ) (hk : k ≤ replies.length) :
    ∃ t, receiveResponses k s = some ((replies.take k).map fun r => .ok r.answer, t) ∧
      unread t = (replies.drop k).flatMap Reply.bytes := by
  induction k generalizing replies s with
  | zero => exact ⟨s, rfl, hstream⟩
  | succ k ih =>
    cases replies with
    | nil => cases hk
    | cons r replies =>
      obtain ⟨hhead, htail⟩ := List.forall_mem_cons.mp hr
      rw [List.flatMap_cons] at hstream
      obtain ⟨t, hread, hst', hs', hrest⟩ := receiveResponse_reply hhead hs hst hstream
      obtain ⟨u, hu, hleft⟩ := ih replies htail t hs' hst' hrest (Nat.le_of_succ_le_succ hk)
      refine ⟨u, ?_, hleft⟩
      rw [receiveResponses, hread]
      simp only [hu, Option.map_some, List.take_succ_cons, List.map_cons]

theorem receiveResponses_replies_help :
    let help := Reply.multi (ascii "214") (ascii "Commands:") [[], ascii " USER PASS"] (ascii "End")
    let done := Reply.single (ascii "226") (ascii "Done")
    let chunks := [help.bytes.take 15, help.bytes.drop 15 ++ done.bytes.take 2, done.bytes.drop 2]
    ∃ t, receiveResponses 1 (Socket.fresh (Chunked.ofChunks chunks)) = some ([.ok help.answer], t) ∧
      unread t = done.bytes := by
  intro help done chunks
  have hhelp : help.WellFormed 1024 := ⟨by decide, by decide, by decide, by decide⟩
  have hdone : done.WellFormed 1024 := ⟨by decide, by decide, by decide, by decide⟩
  have hstream : unread (Socket.fresh (Chunked.ofChunks chunks)) = chunks.flatten :=
    Chunked.arriving_ofChunks chunks
  have hleft := receiveResponses_replies [help, done]
    (List.forall_mem_cons.mpr ⟨hhelp, List.forall_mem_singleton.mpr hdone⟩)
    (Socket.fresh (Chunked.ofChunks chunks)) rfl (Chunked.steady_ofChunks (by decide))
    (hstream.trans (by decide)) 1 (by decide)
  simpa using hleft

end NetworkStack.Ftp
