import NetworkStack.Ftp.Conversation

/-!
# Which operations read all their replies

A probe or a directory command has one reply for each command and reads it. A
transfer has a second one, which the early returns between the opening reply and
the end of the data leave behind.
-/

namespace NetworkStack.Ftp

open Hoare SocketDetail Utility

namespace FtpFileTransfer

variable {srv : Server} {u : Conversation} {α β : Type}

/-! ### The replies of a transfer -/

def completes (call : Option (Except ErrorCode α × Socket)) : Bool :=
  match call with
  | some (.ok _, _) => true
  | _ => false

/-- If the navigation and the data connection succeed, the server answers the transfer
command with one reply, or with 150 and one more, and what follows on the data channel
comes to its end. -/
def Clean (srv : Server) (s : FtpFileTransfer Conversation) (dir : Path) (cmd : Bytes)
    (done : Socket → Bool) : Prop :=
  ∀ data t, prepareTransfer srv.channel dir s = (.ok data, t) →
    (srv.answers t.session.commands cmd).length = 1 ∨
    ((srv.answers t.session.commands cmd).length = 2 ∧
      (srv.answers t.session.commands cmd).head?.map (·.code) = some 150 ∧ done data = true)

/- A returned operation is quiet exactly when `clean` holds, unless the control channel
has failed since `u`. -/
def Exact (srv : Server) (u : Conversation) (clean : Prop) :
    Except Exit α × FtpFileTransfer Conversation → Prop
  | (.ok _, t) => t.session.failed = false ∧ (t.session.Quiet ↔ clean)
  | (.error (.error _), t) =>
    (t.session.failed = false ∧ (t.session.Quiet ↔ clean)) ∨
      (t.session.failed = true ∧ ¬srv.Undisturbed u t.session)
  | _ => True

def Owes (u : Conversation) (replies : List Answer) (s : FtpFileTransfer Conversation) : Prop :=
  s.session.outstanding = replies ∧ s.session.unparsed = [] ∧ u.Working s.session

theorem Owes.quiet_iff {replies : List Answer} {s : FtpFileTransfer Conversation}
    (h : Owes u replies s) : s.session.Quiet ↔ replies = [] := by
  rw [Conversation.Quiet, h.1, h.2.1]
  exact and_iff_left rfl

/- Only an error code counts; the other exits are not returns. -/
theorem exact_error_iff {clean : Prop} {e : Exit} {s : FtpFileTransfer Conversation} :
    Exact srv u clean ((.error e, s) : Except Exit α × FtpFileTransfer Conversation) ↔
      ∀ ec, e = .error ec → (s.session.failed = false ∧ (s.session.Quiet ↔ clean)) ∨
        (s.session.failed = true ∧ ¬srv.Undisturbed u s.session) := by
  cases e with
  | error ec =>
    refine ⟨fun h ec' he => ?_, fun h => h ec rfl⟩
    cases he
    exact h
  | threw => exact ⟨fun _ _ he => Exit.noConfusion he, fun _ => trivial⟩
  | undefined => exact ⟨fun _ _ he => Exit.noConfusion he, fun _ => trivial⟩
  | blocked => exact ⟨fun _ _ he => Exit.noConfusion he, fun _ => trivial⟩

/-- Reads one reply; an exception may come before it. -/
def ReadsOne (srv : Server) (u : Conversation) (m : Operation Conversation α) : Prop :=
  ∀ replies : List Answer, replies ≠ [] →
    Triple (Owes u replies) m (fun _ => Owes u replies.tail) (fun e s => ∀ ec, e = .error ec →
      Owes u replies.tail s ∨ (s.session.failed = true ∧ ¬srv.Undisturbed u s.session))

theorem ReadsOne.exact {clean : Prop} {m : Operation Conversation α} {replies : List Answer}
    {s : FtpFileTransfer Conversation} (hm : ReadsOne srv u m) (hne : replies ≠ [])
    (hs : Owes u replies s) (hclean : replies.tail = [] ↔ clean) : Exact srv u clean (m s) := by
  have hend := hm replies hne s hs
  cases hrun : m s with
  | mk r t =>
    rw [hrun] at hend
    cases r with
    | ok b => exact ⟨hend.2.2.sound, hend.quiet_iff.trans hclean⟩
    | error e =>
      refine exact_error_iff.mpr fun ec he => (hend ec he).imp_left fun h => ?_
      exact ⟨h.2.2.sound, h.quiet_iff.trans hclean⟩

theorem readsOne_receive {f : Answer → Operation Conversation β}
    (hf : ∀ a s, (∃ b, f a s = (.ok b, s)) ∨ ∃ e, f a s = (.error e, s)) :
    ReadsOne srv u (control srv.channel.receiveResponse >>= f) := by
  intro replies hne
  have hreceive : Triple (Owes u replies) (control srv.channel.receiveResponse)
      (fun a s => a :: s.session.outstanding = replies ∧ s.session.unparsed = [] ∧
        u.Working s.session) (fun e s => srv.Lost u e s.session) :=
    Triple.zoom (fun _ _ => rfl) (Server.receiveResponse_spec hne)
  have hrest : Triple (Owes u replies) (control srv.channel.receiveResponse)
      (fun _ => Owes u replies.tail) (fun e s => ∀ ec, e = .error ec →
        Owes u replies.tail s ∨ (s.session.failed = true ∧ ¬srv.Undisturbed u s.session)) := by
    refine hreceive.mono (fun _ h => h) ?_ fun e s h ec he => .inr (h ec he)
    rintro a s ⟨hout, hpart, hworking⟩
    exact ⟨by rw [← hout]; rfl, hpart, hworking⟩
  refine hrest.bind fun a => ?_
  intro s hs
  rcases hf a s with ⟨b, hb⟩ | ⟨e, he⟩
  · rw [hb]
    exact hs
  · rw [he]
    exact fun _ _ => .inl hs

theorem readsOne_completion {f : Unit → Operation Conversation β}
    (hf : ∀ s, ∃ b, f () s = (.ok b, s)) :
    ReadsOne srv u (completion srv.channel >>= f) := by
  intro replies hne
  have hcompletion : ReadsOne srv u (completion srv.channel) := by
    refine readsOne_receive fun a s => ?_
    split
    · exact .inr ⟨_, rfl⟩
    · exact .inl ⟨_, rfl⟩
  refine (hcompletion replies hne).bind fun _ => ?_
  intro s hs
  obtain ⟨b, hb⟩ := hf s
  rw [hb]
  exact hs

def rest (srv : Server) (cmd : Bytes) (phase : Option (Except ErrorCode α × Socket))
    (finish : α → Operation Conversation β) : Operation Conversation β := do
  let cmd_result ← control (srv.channel.sendAndReceiveResponse cmd)
  if cmd_result.code ≠ 150 then stop protocolError
  else do
    let a ← onData srv.channel phase
    finish a

theorem transfer_rest {s t : FtpFileTransfer Conversation} {dir : Path} {data : Socket}
    (h : prepareTransfer srv.channel dir s = (.ok data, t)) (cmd : Bytes)
    (phase : Socket → Option (Except ErrorCode α × Socket))
    (finish : α → Operation Conversation β) :
    transfer srv.channel dir cmd phase finish s = rest srv cmd (phase data) finish t := by
  cases hsend : control (srv.channel.sendAndReceiveResponse cmd) t with
  | mk r u =>
    cases r with
    | error e =>
      have hopen : openTransfer srv.channel dir cmd s = (.error e, u) :=
        (bind_ok h).trans (bind_error hsend)
      rw [transfer, bind_error hopen, rest, bind_error hsend]
    | ok a =>
      have hopen : openTransfer srv.channel dir cmd s
          = (if a.code ≠ 150 then stop protocolError else pure data : Operation _ _) u :=
        (bind_ok h).trans (bind_ok hsend)
      rw [rest, bind_ok hsend]
      by_cases hcode : a.code ≠ 150
      · rw [if_pos hcode] at hopen ⊢
        rw [transfer, bind_error hopen]
        rfl
      · rw [if_neg hcode] at hopen ⊢
        rw [transfer, bind_ok hopen]

theorem Conforming.more {cmd : Bytes} {a : Answer} {replies : List Answer} {i : ℕ}
    (hconf : srv.Conforming) (htransfer : isTransfer cmd = true)
    (h : a :: replies = srv.answers i cmd) (ha : a.code = 150) : replies ≠ [] := by
  rintro rfl
  obtain ⟨marks, b, hb, -, hfinal⟩ := hconf.transfer i cmd htransfer
  rw [← h] at hb
  have hlen := congrArg List.length hb
  simp only [List.length_append, List.length_cons, List.length_nil] at hlen
  have hmarks : marks = [] := List.eq_nil_of_length_eq_zero (by omega)
  rw [hmarks, List.nil_append] at hb
  rw [← (List.cons.inj hb).1, Answer.Final, ha] at hfinal
  omega

theorem rest_exact (hconf : srv.Conforming) {t : FtpFileTransfer Conversation}
    (ht : u.Good t.session) {cmd : Bytes} (hcmd : CrlfFree cmd)
    (htransfer : isTransfer cmd = true) {phase : Option (Except ErrorCode α × Socket)}
    {finish : α → Operation Conversation β}
    (hfinish : ∀ a, ReadsOne srv u (finish a) ∨ ∀ t, finish a t = (.error .threw, t)) :
    Exact srv u ((srv.answers t.session.commands cmd).length = 1 ∨
        ((srv.answers t.session.commands cmd).length = 2 ∧
          (srv.answers t.session.commands cmd).head?.map (·.code) = some 150 ∧
          completes phase = true))
      (rest srv cmd phase finish t) := by
  have hsent : Triple (fun s => u.Good s.session ∧ s.session.commands = t.session.commands)
      (control (srv.channel.sendAndReceiveResponse cmd))
      (fun a s => a :: s.session.outstanding = srv.answers t.session.commands cmd ∧
        s.session.unparsed = [] ∧ u.Working s.session) (fun e s => srv.Lost u e s.session) :=
    Triple.zoom (fun _ _ => rfl) (Server.sendAndReceive_spec hconf hcmd t.session.commands)
  have h := hsent t ⟨ht, rfl⟩
  cases hsend : control (srv.channel.sendAndReceiveResponse cmd) t with
  | mk r v =>
    rw [hsend] at h
    cases r with
    | error e =>
      rw [rest, bind_error hsend]
      exact exact_error_iff.mpr fun ec he => .inr (h ec he)
    | ok a =>
      obtain ⟨hout, hpart, hworking⟩ := h
      have howes : Owes u v.session.outstanding v := ⟨rfl, hpart, hworking⟩
      rw [rest, bind_ok hsend, ← hout]
      simp only [List.length_cons, List.head?_cons, Option.map_some, Option.some.injEq]
      by_cases hcode : a.code ≠ 150
      · -- an unexpected opening code ends the operation at once
        rw [if_pos hcode]
        refine .inl ⟨hworking.sound, howes.quiet_iff.trans ⟨fun h => .inl (by simp [h]), ?_⟩⟩
        rintro (h | h)
        · exact List.eq_nil_of_length_eq_zero (by omega)
        · exact absurd h.2.1 hcode
      · rw [if_neg hcode]
        have ha : a.code = 150 := not_not.mp hcode
        have hmore := Conforming.more hconf htransfer hout ha
        have hpos : v.session.outstanding.length ≠ 0 := by simpa using hmore
        cases phase with
        | none => exact trivial
        | some x =>
          obtain ⟨result, left⟩ := x
          -- what is left of the data socket is no part of the session
          have hleft : Owes u v.session.outstanding (v.leave srv.channel left) := howes
          cases result with
          | error ec =>
            refine .inl ⟨hworking.sound, hleft.quiet_iff.trans (iff_of_false hmore ?_)⟩
            simp [completes, hpos]
          | ok x =>
            show Exact srv u _ (finish x (v.leave srv.channel left))
            rcases hfinish x with hone | hthrew
            · -- one of the replies that were left is read
              have hclean : v.session.outstanding.tail = [] ↔
                  (v.session.outstanding.length + 1 = 1 ∨ (v.session.outstanding.length + 1 = 2 ∧
                    a.code = 150 ∧
                    completes (some ((.ok x : Except ErrorCode α), left)) = true)) := by
                rw [← List.length_eq_zero_iff, List.length_tail]
                simp only [completes, ha, and_true]
                omega
              exact hone.exact hmore hleft hclean
            · rw [hthrew]
              trivial

/-- How a transfer ends is decided by the replies to its command and by the data phase. -/
theorem transfer_exact (hconf : srv.Conforming) {s : FtpFileTransfer Conversation}
    (hs : u.Good s.session) {dir : Path} (hdir : CrlfFree dir) {cmd : Bytes} (hcmd : CrlfFree cmd)
    (htransfer : isTransfer cmd = true) {phase : Socket → Option (Except ErrorCode α × Socket)}
    {finish : α → Operation Conversation β}
    (hfinish : ∀ a, ReadsOne srv u (finish a) ∨ ∀ t, finish a t = (.error .threw, t)) :
    Exact srv u (Clean srv s dir cmd fun data => completes (phase data))
      (transfer srv.channel dir cmd phase finish s) := by
  have hstep := keepsStep_prepareTransfer hconf hdir s hs
  cases hprep : prepareTransfer srv.channel dir s with
  | mk r t =>
    rw [hprep] at hstep
    cases r with
    | error e =>
      have hrun : transfer srv.channel dir cmd phase finish s = (.error e, t) :=
        bind_error (bind_error hprep)
      have hclean : Clean srv s dir cmd fun data => completes (phase data) := by
        intro data t' h
        rw [hprep] at h
        cases h
      rw [hrun]
      refine exact_error_iff.mpr fun ec he => (hstep ec he).imp_left fun hgood => ?_
      exact ⟨hgood.2.sound, iff_of_true hgood.1 hclean⟩
    | ok data =>
      have hclean : (Clean srv s dir cmd fun data => completes (phase data)) ↔ _ :=
        ⟨fun h => h data t hprep, fun h data' t' h' => by
          rw [hprep] at h'
          cases h'
          exact h⟩
      rw [transfer_rest hprep, hclean]
      exact rest_exact hconf hstep hcmd htransfer hfinish

end FtpFileTransfer

/-! ### Every operation -/

namespace Request

open FtpFileTransfer

variable {γ : Type}

/- For a transfer: the directory it goes to, its command, and whether what it does on a
data socket comes to its end. -/
def transfer? : Request γ → Option (Path × Bytes × (Socket → Bool))
  | .list path => some (path, ascii "LIST", fun data => completes (receiveRawResponse data))
  | .read path => some (path.parent_path, ascii "RETR " ++ path.filename,
      fun data => completes (receiveRawResponse data))
  | .readCallback path callback g => some (path.parent_path, ascii "RETR " ++ path.filename,
      fun data => completes (readAll 16384 (consumeBy callback) (g, 0) data))
  | .write path bytes => some (path.parent_path, ascii "STOR " ++ path.filename,
      fun data => completes (some (asyncWriteAllCommon data bytes)))
  | .writeCallback path next => some (path.parent_path, ascii "STOR " ++ path.filename,
      fun data => completes (writeChunks data 0 next))
  | _ => none

def Clean (srv : Server) (s : FtpFileTransfer Conversation) (request : Request γ) : Prop :=
  match request.transfer? with
  | none => True
  | some (dir, cmd, done) => FtpFileTransfer.Clean srv s dir cmd done

def Returns (srv : Server) (clock : Clock) (s : FtpFileTransfer Conversation)
    (request : Request γ) : Prop :=
  match (request.run srv.channel clock s).1 with
  | .ok _ | .error (.error _) => True
  | _ => False

/-- If the operation returns, and not because the control channel failed, every reply to
its commands has been read. -/
def Settles (srv : Server) (clock : Clock) (s : FtpFileTransfer Conversation)
    (request : Request γ) : Prop :=
  match request.run srv.channel clock s with
  | (.ok _, t) => t.session.Quiet
  | (.error (.error _), t) => t.session.failed = false → t.session.Quiet
  | _ => True

variable {srv : Server} {u : Conversation} {clock : Clock} {s : FtpFileTransfer Conversation}
  {request : Request γ}

theorem exact_discard {α : Type} {clean : Prop} {m : Operation Conversation α}
    (h : Exact srv u clean (m s)) : Exact srv u clean ((m >>= fun _ => pure PUnit.unit) s) := by
  cases hm : m s with
  | mk r t =>
    rw [hm] at h
    cases r with
    | ok a =>
      rw [bind_ok hm]
      exact h
    | error e =>
      rw [bind_error hm]
      exact exact_error_iff.mpr (exact_error_iff.mp h)

theorem run_exact (hconf : srv.Conforming) (hs : u.Good s.session) (hpath : CrlfFree request.path)
    (htransfer : request.transfer?.isSome) :
    Exact srv u (request.Clean srv s) (request.run srv.channel clock s) := by
  have hparent : ∀ {path : Path}, CrlfFree path → CrlfFree path.parent_path := crlfFree_parent_path
  have hname : ∀ {path : Path}, CrlfFree path → CrlfFree path.filename :=
    fun {path} h => h.of_isInfix (filename_isInfix path)
  have hcmd : ∀ {path : Path} {verb : Bytes}, CrlfFree path → CrlfFree verb →
      verb.getLast? = some 32 → CrlfFree (verb ++ path.filename) :=
    fun h hverb hblank => crlfFree_argument hverb hblank (hname h)
  have hretr : ∀ path : Path, isTransfer (ascii "RETR " ++ path.filename) = true :=
    fun path => (Server.isTransfer_argument (by decide) _).trans (by decide)
  have hstor : ∀ path : Path, isTransfer (ascii "STOR " ++ path.filename) = true :=
    fun path => (Server.isTransfer_argument (by decide) _).trans (by decide)
  cases request with
  | list path =>
    refine exact_discard (transfer_exact hconf hs hpath (by decide) (by decide) ?_)
    intro raw
    cases parseListing clock (splitLines raw) with
    | none => exact .inr fun _ => rfl
    | some files => exact .inl (readsOne_receive fun _ _ => .inl ⟨_, rfl⟩)
  | read path =>
    exact exact_discard (transfer_exact hconf hs (hparent hpath)
      (hcmd hpath (by decide) (by decide)) (hretr path)
      fun _ => .inl (readsOne_completion fun _ => ⟨_, rfl⟩))
  | readCallback path callback g =>
    exact exact_discard (transfer_exact hconf hs (hparent hpath)
      (hcmd hpath (by decide) (by decide)) (hretr path)
      fun _ => .inl (readsOne_completion fun _ => ⟨_, rfl⟩))
  | write path bytes =>
    exact exact_discard (transfer_exact hconf hs (hparent hpath)
      (hcmd hpath (by decide) (by decide)) (hstor path)
      fun _ => .inl (readsOne_completion fun _ => ⟨_, rfl⟩))
  | writeCallback path next =>
    exact exact_discard (transfer_exact hconf hs (hparent hpath)
      (hcmd hpath (by decide) (by decide)) (hstor path)
      fun _ => .inl (readsOne_completion fun _ => ⟨_, rfl⟩))
  | createDir path => cases htransfer
  | exists_ path => cases htransfer
  | remove path => cases htransfer
  | isDirectory path => cases htransfer

theorem opensData_of_transfer (hother : request.transfer? = none) : request.opensData = false := by
  cases request with
  | createDir path => rfl
  | exists_ path => rfl
  | remove path => rfl
  | isDirectory path => rfl
  | list path => cases hother
  | read path => cases hother
  | readCallback path callback g => cases hother
  | write path bytes => cases hother
  | writeCallback path next => cases hother

theorem settles_of_exact {clean : Prop} (h : Exact srv u clean (request.run srv.channel clock s))
    (hclean : clean) : request.Settles srv clock s := by
  unfold Settles
  cases hrun : request.run srv.channel clock s with
  | mk r t =>
    rw [hrun] at h
    cases r with
    | ok u => exact h.2.mpr hclean
    | error e =>
      cases e with
      | error ec =>
        intro hfailed
        rcases h with h | h
        · exact h.2.mpr hclean
        · rw [h.1] at hfailed
          cases hfailed
      | threw => trivial
      | undefined => trivial
      | blocked => trivial

theorem clean_of_settles
    (h : Exact srv u (request.Clean srv s) (request.run srv.channel clock s))
    (hcalm : srv.Undisturbed u (request.run srv.channel clock s).2.session)
    (hreturns : request.Returns srv clock s) (hsettles : request.Settles srv clock s) :
    request.Clean srv s := by
  unfold Returns at hreturns
  unfold Settles at hsettles
  cases hrun : request.run srv.channel clock s with
  | mk r t =>
    rw [hrun] at h hcalm hreturns hsettles
    cases r with
    | ok v => exact h.2.mp hsettles
    | error e =>
      cases e with
      | error ec =>
        rcases h with h | h
        · exact h.2.mp (hsettles h.1)
        · exact absurd hcalm h.2
      | threw => cases hreturns
      | undefined => cases hreturns
      | blocked => cases hreturns

theorem settles_of_stepOrFault
    (h : Leads (StepOrFault srv s.session) (StepOrFault srv s.session)
      (fun e t => ∀ ec, e = .error ec → StepOrFault srv s.session t)
      (request.run srv.channel clock)) (hs : InStep s)
    (hcalm : srv.Undisturbed s.session (request.run srv.channel clock s).2.session) :
    request.Settles srv clock s := by
  have hend := h s (.inl hs.good)
  unfold Settles
  cases hrun : request.run srv.channel clock s with
  | mk r t =>
    rw [hrun] at hend hcalm
    have hquiet : StepOrFault srv s.session t.session → t.session.Quiet := fun hstep =>
      (hstep.resolve_right (not_not.mpr hcalm)).1
    cases r with
    | ok v => exact hquiet hend
    | error e =>
      cases e with
      | error ec => exact fun _ => hquiet (hend ec rfl)
      | threw => trivial
      | undefined => trivial
      | blocked => trivial

/-- On a path without CRLF: a transfer that is clean, and every other operation during which
the control channel does not fail, leaves no reply behind; and if the channel does not fail, a
transfer that returns leaves none only if it is clean. -/
theorem replies_consumed (srv : Server) (hconf : srv.Conforming) (clock : Clock)
    (s : FtpFileTransfer Conversation) (hs : InStep s) (request : Request γ)
    (hpath : CrlfFree request.path) :
    ((request.transfer? = none →
          srv.Undisturbed s.session (request.run srv.channel clock s).2.session) ∧
        request.Clean srv s → request.Settles srv clock s) ∧
    (srv.Undisturbed s.session (request.run srv.channel clock s).2.session →
      request.Returns srv clock s → request.Settles srv clock s → request.Clean srv s) := by
  cases htransfer : request.transfer? with
  | none =>
    refine ⟨fun h => settles_of_stepOrFault (stepOrFault_request hconf hpath
      (opensData_of_transfer htransfer) clock) hs (h.1 rfl), ?_⟩
    intro _ _ _
    simp only [Clean, htransfer]
  | some plan =>
    have hexact : Exact srv s.session (request.Clean srv s) (request.run srv.channel clock s) :=
      run_exact hconf hs.good hpath (by rw [htransfer]; rfl)
    exact ⟨fun h => settles_of_exact hexact h.2, fun hcalm => clean_of_settles hexact hcalm⟩

/-! ### One file -/

section OneFile

def oneFile (opening : ℕ) : Server where
  answers _ line :=
    if isTransfer line then [⟨ascii "opening", opening⟩, ⟨ascii "226 done", 226⟩]
    else if verb line = ascii "PASV" then [⟨ascii "227 (127,0,0,1,4,1)", 227⟩]
    else [⟨ascii "250 ok", 250⟩]
  sendFault _ := none
  receiveFault _ := none
  data _ _ := .ok (Socket.fresh [.data [1, 2, 3], .fail ⟨.asio .eof, false⟩])

theorem oneFile_conforming {opening : ℕ} (h : 100 ≤ opening ∧ opening < 200) :
    (oneFile opening).Conforming := by
  refine ⟨fun i line hline => ?_, fun i line hline => ?_⟩
  · simp only [oneFile, hline, Bool.false_eq_true, if_false]
    split
    · exact ⟨_, rfl, by simp [Answer.Final]⟩
    · exact ⟨_, rfl, by simp [Answer.Final]⟩
  · refine ⟨[⟨ascii "opening", opening⟩], ⟨ascii "226 done", 226⟩, by simp [oneFile, hline], ?_, ?_⟩
    · intro m hm
      rw [List.mem_singleton.mp hm]
      exact h
    · simp [Answer.Final]

def connected : FtpFileTransfer Conversation := .construct .fresh

theorem connected_inStep : InStep connected := ⟨⟨rfl, rfl⟩, rfl⟩

def stopped : Clock := ⟨0, 126, fun _ => some 0⟩

def readingAll : Request ℕ := .readCallback (ascii "/readme.txt")
  (fun n bytes => (.ok bytes.length, n + bytes.length)) 0

theorem replies_consumed_one :
    ((readingAll.run (oneFile 150).channel stopped connected).1 = .ok ()) ∧
      readingAll.Settles (oneFile 150) stopped connected := by
  have hclean : readingAll.Clean (oneFile 150) connected := by
    intro data t h
    refine .inr ⟨rfl, rfl, ?_⟩
    have hdone : (match (prepareTransfer (oneFile 150).channel (ascii "/") connected).1 with
      | .ok data => completes (readAll 16384 (consumeBy fun (n : ℕ) (bytes : Bytes) =>
          (.ok bytes.length, n + bytes.length)) (0, 0) data)
      | .error _ => true) = true := by decide +kernel
    have hdir : Path.parent_path (ascii "/readme.txt") = ascii "/" := by decide +kernel
    rw [hdir] at h
    rwa [h] at hdone
  refine ⟨by decide +kernel, ?_⟩
  exact (replies_consumed (oneFile 150) (oneFile_conforming (by decide)) stopped connected
    connected_inStep readingAll (by decide)).1 ⟨fun h => absurd h (by simp [readingAll, transfer?]),
      hclean⟩

/-- It came to a result over a working channel, and replies are left. -/
def leavesReplies : Except Exit Unit × FtpFileTransfer Conversation → Bool
  | (.ok _, t) => !t.session.failed && t.session.outstanding ≠ []
  | (.error (.error _), t) => !t.session.failed && t.session.outstanding ≠ []
  | _ => false

theorem not_settles (h : leavesReplies (request.run srv.channel clock s) = true) :
    ¬request.Settles srv clock s := by
  unfold Settles
  cases hrun : request.run srv.channel clock s with
  | mk r t =>
    rw [hrun] at h
    cases r with
    | ok _ =>
      simp only [leavesReplies, Bool.and_eq_true, decide_eq_true_iff] at h
      exact fun hsettles => h.2 hsettles.1
    | error e =>
      cases e with
      | error ec =>
        simp only [leavesReplies, Bool.and_eq_true, Bool.not_eq_true', decide_eq_true_iff] at h
        exact fun hsettles => h.2 (hsettles h.1).1
      | threw => cases h
      | undefined => cases h
      | blocked => cases h

def refusingChunks : Request ℕ := .readCallback (ascii "/readme.txt")
  (fun n _ => (.error (.network .CONNECTION_LOST), n)) 0

/-- A file name that ends one command and holds another. -/
def twoCommands : Request ℕ := .isDirectory (ascii "/a" ++ crlf ++ ascii "NOOP")

/- The completion reply stays unread after a callback's error and after an opening
reply 125; the second command of a file name has a reply nobody reads. -/
theorem replies_left_unread :
    ((oneFile 150).Conforming ∧ (oneFile 125).Conforming ∧ InStep connected) ∧
    ¬refusingChunks.Settles (oneFile 150) stopped connected ∧
    ¬readingAll.Settles (oneFile 125) stopped connected ∧
    ¬twoCommands.Settles (oneFile 150) stopped connected := by
  refine ⟨⟨oneFile_conforming (by decide), oneFile_conforming (by decide), connected_inStep⟩,
    ?_, ?_, ?_⟩
  · exact not_settles (by decide +kernel)
  · exact not_settles (by decide +kernel)
  · exact not_settles (by decide +kernel)

end OneFile

end Request

end NetworkStack.Ftp
