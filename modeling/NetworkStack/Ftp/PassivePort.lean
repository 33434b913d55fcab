import NetworkStack.Ftp.Login

/-!
# Opening the data connection (protocol/FtpFileTransfer.cpp)

`parsePasvResponse` reads six numbers between the first `(` of a reply and the next
`)`, and rejects every other text by an empty optional. `openDataConnection` uses
the endpoint without looking at whether there is one.
-/

namespace NetworkStack.Ftp

open Hoare SocketDetail

/-! ### Six octets -/

theorem cut_at {b : Byte} {text : Bytes} (h : b ∈ text) :
    ∃ before behind, text = before ++ b :: behind ∧ b ∉ before ∧
      text.takeWhile (· != b) = before ∧ text.dropWhile (· != b) = b :: behind := by
  obtain ⟨before, behind, rfl, hno⟩ := List.eq_append_cons_of_mem h
  exact ⟨before, behind, rfl, hno, Search.span_mark hno behind⟩

/-- Decimal digits behind optional white space, in the range of a byte. -/
def IsOctet (part : Bytes) : Prop :=
  part.dropWhile isspace ≠ [] ∧ (∀ b ∈ part.dropWhile isspace, isdigit b = true) ∧
    decimal (part.dropWhile isspace) ≤ 255

instance (part : Bytes) : Decidable (IsOctet part) := inferInstanceAs (Decidable (_ ∧ _ ∧ _))

theorem parse_uint8_isOk (part : Bytes) :
    (∃ n, parse_uint8 part = .ok n) ↔ IsOctet part := by
  unfold parse_uint8 IsOctet
  generalize part.dropWhile isspace = str
  have hall : (∀ b ∈ str, isdigit b = true) ↔ str.dropWhile isdigit = [] :=
    List.dropWhile_eq_nil_iff.symm
  by_cases hrest : str.dropWhile isdigit = []
  · have htake : str.takeWhile isdigit = str := List.takeWhile_eq_self_iff.mpr (hall.mpr hrest)
    simp only [htake]
    by_cases hempty : str = []
    · simp [hempty]
    · rw [if_neg hempty]
      by_cases hbig : 2 ^ 32 ≤ decimal str
      · rw [if_pos hbig]
        have hrange : ¬decimal str ≤ 255 := by omega
        simp [hrange]
      · rw [if_neg hbig, if_neg (not_not_intro hrest)]
        by_cases hrange : 255 < decimal str
        · simp [hrange, Nat.not_le.mpr hrange]
        · rw [if_neg hrange]
          exact ⟨fun _ => ⟨hempty, hall.mpr hrest, Nat.not_lt.mp hrange⟩, fun _ => ⟨_, rfl⟩⟩
  · have hno : ¬∀ b ∈ str, isdigit b = true := fun h => hrest (hall.mp h)
    simp only [hno, false_and, and_false, iff_false, not_exists]
    intro n
    split
    · simp
    · split
      · simp
      · simp

/-- The parameters begin with `room` octets, with a comma behind each that is not the last. -/
def Octets (room : ℕ) (params : Bytes) : Prop :=
  room ≤ (params.splitOn comma).length ∧ ∀ part ∈ (params.splitOn comma).take room, IsOctet part

instance (room : ℕ) (params : Bytes) : Decidable (Octets room params) :=
  inferInstanceAs (Decidable (_ ∧ _))

theorem splitOn_comma (params : Bytes) :
    params.splitOn comma = params.takeWhile (· != comma) ::
      match params.dropWhile (· != comma) with
      | [] => []
      | _ :: rest => rest.splitOn comma := by
  by_cases hmem : comma ∈ params
  · obtain ⟨part, rest, rfl, hno, htake, hdrop⟩ := cut_at hmem
    rw [List.splitOn_append_cons_self_of_not_mem hno, htake, hdrop]
  · obtain ⟨htake, hdrop⟩ := Search.span_no_mark hmem
    rw [List.splitOn_eq_singleton hmem, htake, hdrop]

/- The loop fills `room` places exactly when there are that many octets. -/
theorem parseParts_full (room : ℕ) (params : Bytes) :
    (∃ parts, parseParts room params = .ok parts ∧ parts.length = room) ↔ Octets room params := by
  induction room generalizing params with
  | zero => simp [parseParts, Octets]
  | succ room ih =>
    cases params with
    | nil =>
      have hnil : ([] : Bytes).splitOn comma = [[]] := rfl
      have hoctet : ¬IsOctet [] := by decide
      simp [parseParts, Octets, hnil, hoctet]
    | cons b params =>
      have hhead := parse_uint8_isOk ((b :: params).takeWhile (· != comma))
      rw [Octets, splitOn_comma, parseParts]
      cases hval : parse_uint8 ((b :: params).takeWhile (· != comma)) with
      | error ec =>
        have hno : ¬IsOctet ((b :: params).takeWhile (· != comma)) := by
          rw [← hhead, hval]
          simp
        simp [hno]
      | ok val =>
        have hyes := hhead.mp ⟨val, hval⟩
        cases hrest : (b :: params).dropWhile (· != comma) with
        | nil =>
          cases room with
          | zero => simp [hyes]
          | succ room => simp
        | cons c rest =>
          have htail := ih rest
          rw [Octets] at htail
          simp only [List.length_cons, Nat.add_le_add_iff_right, List.take_succ_cons,
            List.forall_mem_cons, hyes, true_and]
          rw [← htail]
          cases parseParts room rest with
          | error ec => simp [Except.map]
          | ok tail => simp [Except.map]

theorem endpointOf_isSome (parts : List ℕ) :
    (endpointOf parts).isSome = true ↔ parts.length = 6 := by
  match parts with
  | [] | [_] | [_, _] | [_, _, _] | [_, _, _, _] | [_, _, _, _, _] => simp [endpointOf]
  | [_, _, _, _, _, _] => simp [endpointOf]
  | _ :: _ :: _ :: _ :: _ :: _ :: _ :: _ => simp [endpointOf]

/-! ### The texts that name an endpoint -/

/-- Six octets stand between the first opening parenthesis and the next closing one. -/
def NamesEndpoint (response : Bytes) : Prop :=
  ∃ before params behind, response = before ++ 40 :: (params ++ 41 :: behind) ∧
    40 ∉ before ∧ 41 ∉ params ∧ Octets 6 params

theorem append_cons_inj {b : Byte} {before before' behind behind' : Bytes} (hno : b ∉ before)
    (hno' : b ∉ before') (h : before ++ b :: behind = before' ++ b :: behind') :
    before = before' ∧ behind = behind' := by
  have hsplit := congrArg (List.splitOn b) h
  rw [List.splitOn_append_cons_self_of_not_mem hno,
    List.splitOn_append_cons_self_of_not_mem hno'] at hsplit
  obtain rfl := (List.cons.inj hsplit).1
  exact ⟨rfl, (List.cons.inj (List.append_cancel_left h)).2⟩

theorem parsePasvResponse_isSome (response : Bytes) :
    (parsePasvResponse response).isSome = true ↔ NamesEndpoint response := by
  unfold parsePasvResponse
  by_cases hopen : 40 ∈ response
  · obtain ⟨before, rest, rfl, hbefore, -, hdrop⟩ := cut_at hopen
    rw [hdrop]
    simp only
    by_cases hclose : 41 ∈ rest
    · obtain ⟨params, behind, rfl, hparams, htake, -⟩ := cut_at hclose
      have hnames : NamesEndpoint (before ++ 40 :: (params ++ 41 :: behind)) ↔ Octets 6 params := by
        refine ⟨fun ⟨before', params', behind', heq, hbefore', hparams', hoctets⟩ => ?_,
          fun hoctets => ⟨before, params, behind, rfl, hbefore, hparams, hoctets⟩⟩
        obtain ⟨-, heq⟩ := append_cons_inj hbefore hbefore' heq
        obtain ⟨rfl, -⟩ := append_cons_inj hparams hparams' heq
        exact hoctets
      rw [if_neg (by simp), htake, hnames, ← parseParts_full]
      cases parseParts 6 params with
      | error ec => simp
      | ok parts => simp [endpointOf_isSome]
    · have hno : ¬NamesEndpoint (before ++ 40 :: rest) := by
        rintro ⟨before', params', behind', heq, hbefore', -, -⟩
        obtain ⟨-, rfl⟩ := append_cons_inj hbefore hbefore' heq
        exact hclose (by simp)
      rw [if_pos (by simpa using hclose)]
      simp [hno]
  · have hno : ¬NamesEndpoint response := by
      rintro ⟨before', params', behind', rfl, -, -, -⟩
      exact hopen (by simp)
    have hdrop : response.dropWhile (· != 40) = [] := by
      rw [List.dropWhile_eq_nil_iff]
      intro b hb
      rw [bne_iff_ne]
      rintro rfl
      exact hopen hb
    rw [hdrop]
    simp [hno]

/-! ### Opening -/

namespace FtpFileTransfer

variable {σ : Type}

/-- An endpoint that was parsed is tried, or there is an error; `t` is the state in which
the reply has been received. -/
def OpensSafely (W : Channel σ) (pasv_result : Answer) (s t : FtpFileTransfer σ) : Prop :=
  (∃ endpoint, parsePasvResponse pasv_result.full_msg = some endpoint ∧
    openDataConnection W s = control (W.connectData endpoint) t) ∨
  ∃ ec u, openDataConnection W s = (.error (.error ec), u)

theorem openDataConnection_received {W : Channel σ} {s : FtpFileTransfer σ} {t : σ} {a : Answer}
    (h : W.sendAndReceiveResponse (ascii "PASV") s.session = (.ok a, t)) (hcode : a.code = 227) :
    openDataConnection W s = match parsePasvResponse a.full_msg with
      | none => (.error .undefined, s.withSession t)
      | some endpoint => control (W.connectData endpoint) (s.withSession t) := by
  have hpasv : control (W.sendAndReceiveResponse (ascii "PASV")) s = (.ok a, s.withSession t) := by
    simp only [control, zoom, h]
  rw [openDataConnection, bind_ok hpasv, if_neg (not_not_intro hcode)]
  cases parsePasvResponse a.full_msg with
  | none => rfl
  | some endpoint => rfl

/-- The reply's text decides: without six octets in parentheses an empty endpoint is used. -/
theorem openDataConnection_safe_iff (W : Channel σ) (s : FtpFileTransfer σ) (t : σ) (a : Answer)
    (h : W.sendAndReceiveResponse (ascii "PASV") s.session = (.ok a, t)) (hcode : a.code = 227) :
    OpensSafely W a s (s.withSession t) ↔ NamesEndpoint a.full_msg := by
  have hrun := openDataConnection_received h hcode
  rw [← parsePasvResponse_isSome, OpensSafely]
  cases hparse : parsePasvResponse a.full_msg with
  | none =>
    rw [hparse] at hrun
    simp [hrun]
  | some endpoint =>
    rw [hparse] at hrun
    exact ⟨fun _ => rfl, fun _ => .inl ⟨endpoint, rfl, hrun⟩⟩

/-- A control connection with one reply waiting. -/
def awaiting (r : Reply) : FtpFileTransfer Control :=
  construct { Control.initial with socket := some (Socket.fresh (Chunked.ofChunks [r.bytes])) }

theorem awaiting_ready {r : Reply} (hne : r.bytes ≠ []) : (awaiting r).session.Ready [r] := by
  refine ⟨_, rfl, ⟨rfl, by simp [Socket.fresh]⟩, ?_, ?_⟩
  · exact Chunked.steady_ofChunks (List.forall_mem_singleton.mpr hne)
  · exact (Chunked.arriving_ofChunks _).trans (by simp)

theorem openDataConnection_safe_six :
    let r := Reply.single (ascii "227") (ascii "Entering Passive Mode (127,0,0,1,4,1)")
    let W := Control.channel (networkOf (Socket.fresh []))
    ∃ t, W.sendAndReceiveResponse (ascii "PASV") (awaiting r).session = (.ok r.answer, t) ∧
      OpensSafely W r.answer (awaiting r) ((awaiting r).withSession t) := by
  intro r W
  have hwf : r.WellFormed 1024 := ⟨by decide, by decide, by decide, by decide⟩
  obtain ⟨t, hrun, -⟩ := (awaiting_ready (r := r) (by decide)).exchange hwf
    (networkOf (Socket.fresh [])) (ascii "PASV")
  refine ⟨t, hrun, (openDataConnection_safe_iff W _ t _ hrun (by decide)).mpr ?_⟩
  exact ⟨ascii "227 Entering Passive Mode ", ascii "127,0,0,1,4,1", crlf, by decide, by decide,
    by decide, by decide⟩

/- A reply without parentheses. -/
theorem openDataConnection_plain :
    let r := Reply.single (ascii "227") (ascii "Entering Passive Mode")
    let W := Control.channel (networkOf (Socket.fresh []))
    ∃ t, W.sendAndReceiveResponse (ascii "PASV") (awaiting r).session = (.ok r.answer, t) ∧
      r.answer.code = 227 ∧
      openDataConnection W (awaiting r) = (.error .undefined, (awaiting r).withSession t) ∧
      ¬OpensSafely W r.answer (awaiting r) ((awaiting r).withSession t) := by
  intro r W
  have hwf : r.WellFormed 1024 := ⟨by decide, by decide, by decide, by decide⟩
  obtain ⟨t, hrun, -⟩ := (awaiting_ready (r := r) (by decide)).exchange hwf
    (networkOf (Socket.fresh [])) (ascii "PASV")
  have hparse : parsePasvResponse r.answer.full_msg = none := by decide
  have hopen := openDataConnection_received hrun (by decide)
  rw [hparse] at hopen
  refine ⟨t, hrun, by decide, hopen, ?_⟩
  rintro (⟨endpoint, hsome, -⟩ | ⟨ec, u, herror⟩)
  · rw [hparse] at hsome
    cases hsome
  · rw [hopen] at herror
    cases herror

end FtpFileTransfer

end NetworkStack.Ftp
