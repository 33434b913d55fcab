import NetworkStack.Ftp.Requests

/-!
# The conversation on the control channel

The server answers every command line it reads, most with one reply and a transfer
with a preliminary reply and a final one. The client has to take exactly these. The
control channel may fail at any write and at any wait.
-/

namespace NetworkStack.Ftp

open Hoare SocketDetail Utility

/-! ### Servers -/

/- What the server and the network will do: the replies to each command line, by its
number; the writes that fail, after so many bytes; the waits that fail; the data sockets. -/
structure Server where
  answers : ℕ → Bytes → List Answer
  sendFault : ℕ → Option (ErrorCode × ℕ)
  receiveFault : ℕ → Option ErrorCode
  data : ℕ → Endpoint → Except ErrorCode Socket

def upper (b : Byte) : Byte := if 97 ≤ b ∧ b ≤ 122 then b - 32 else b

def verb (line : Bytes) : Bytes := (line.takeWhile (· != 32)).map upper

/-- The commands RFC 959 lets a server answer with a preliminary reply. -/
def isTransfer (line : Bytes) : Bool :=
  verb line ∈ ["APPE", "LIST", "NLST", "REIN", "RETR", "STOR", "STOU"].map ascii

def Answer.Preliminary (a : Answer) : Prop := 100 ≤ a.code ∧ a.code < 200

def Answer.Final (a : Answer) : Prop := 200 ≤ a.code ∧ a.code < 600

structure Server.Conforming (srv : Server) : Prop where
  single : ∀ i line, isTransfer line = false → ∃ a, srv.answers i line = [a] ∧ a.Final
  transfer : ∀ i line, isTransfer line = true → ∃ marks a, srv.answers i line = marks ++ [a] ∧
    (∀ m ∈ marks, m.Preliminary) ∧ a.Final

/- `unparsed` is the beginning of a line, `outstanding` the replies the client has not
read; `failed` records that the control channel has failed. -/
structure Conversation where
  unparsed : Bytes
  outstanding : List Answer
  commands : ℕ
  writes : ℕ
  waits : ℕ
  connects : ℕ
  failed : Bool

def Conversation.fresh : Conversation := ⟨[], [], 0, 0, 0, 0, false⟩

/-- None of the writes and waits from `u` on and before `s` fails. -/
def Server.Undisturbed (srv : Server) (u s : Conversation) : Prop :=
  (∀ i, u.writes ≤ i → i < s.writes → srv.sendFault i = none) ∧
    ∀ i, u.waits ≤ i → i < s.waits → srv.receiveFault i = none

namespace Server

variable (srv : Server)

def hear (s : Conversation) (line : Bytes) : Conversation :=
  { s with
    outstanding := s.outstanding ++ srv.answers s.commands line
    commands := s.commands + 1 }

def deliver (s : Conversation) (bytes : Bytes) : Conversation :=
  let (lines, tail) := takeLines (s.unparsed ++ bytes)
  { lines.foldl srv.hear s with unparsed := tail }

def channel : Channel Conversation where
  writeAll bytes := fun s =>
    match srv.sendFault s.writes with
    | some (ec, written) =>
      (.error (.error ec),
        { srv.deliver s (bytes.take written) with writes := s.writes + 1, failed := true })
    | none => (.ok (), { srv.deliver s bytes with writes := s.writes + 1 })
  receiveResponse := fun s =>
    match srv.receiveFault s.waits, s.outstanding with
    | some ec, _ => (.error (.error ec), { s with waits := s.waits + 1, failed := true })
    | none, [] =>
      (.error (.error makeTimeoutError), { s with waits := s.waits + 1, failed := true })
    | none, a :: rest => (.ok a, { s with waits := s.waits + 1, outstanding := rest })
  connectData endpoint := fun s =>
    match srv.data s.connects endpoint with
    | .error ec => (.error (.error ec), { s with connects := s.connects + 1 })
    | .ok socket => (.ok socket, { s with connects := s.connects + 1 })
  waitOnData := id

end Server

/-! ### One command and its replies -/

def Conversation.Quiet (s : Conversation) : Prop := s.outstanding = [] ∧ s.unparsed = []

/-- The channel has not failed, and the uses of `u` are behind. -/
structure Conversation.Working (u s : Conversation) : Prop where
  sound : s.failed = false
  writes : u.writes ≤ s.writes
  waits : u.waits ≤ s.waits

def Conversation.Good (u s : Conversation) : Prop := s.Quiet ∧ u.Working s

namespace Server

variable {srv : Server} {u : Conversation}

theorem Conforming.answers_ne_nil (h : srv.Conforming) (i : ℕ) (line : Bytes) :
    srv.answers i line ≠ [] := by
  cases ht : isTransfer line with
  | false =>
    obtain ⟨a, ha, -⟩ := h.single i line ht
    simp [ha]
  | true =>
    obtain ⟨marks, a, ha, -⟩ := h.transfer i line ht
    simp [ha]

def Lost (srv : Server) (u : Conversation) (e : Exit) (s : Conversation) : Prop :=
  ∀ ec, e = .error ec → s.failed = true ∧ ¬srv.Undisturbed u s

theorem sendCommand_spec {cmd : Bytes} (hcmd : CrlfFree cmd) (i : ℕ) :
    Triple (fun s => u.Good s ∧ s.commands = i) (srv.channel.sendCommand cmd)
      (fun _ s => s.outstanding = srv.answers i cmd ∧ s.unparsed = [] ∧ u.Working s)
      (srv.Lost u) := by
  rintro s ⟨⟨⟨hout, hpart⟩, hworking⟩, hi⟩
  simp only [Channel.sendCommand, channel]
  cases hfault : srv.sendFault s.writes with
  | some fault =>
    refine fun ec _ => ⟨rfl, fun hcalm => ?_⟩
    rw [hcalm.1 s.writes hworking.writes (Nat.lt_succ_self _)] at hfault
    cases hfault
  | none =>
    simp only [deliver, hpart, List.nil_append, takeLines_crlf hcmd, List.foldl_cons,
      List.foldl_nil, hear, hout, hi, true_and]
    exact ⟨hworking.sound, Nat.le_succ_of_le hworking.writes, hworking.waits⟩

theorem receiveResponse_spec {replies : List Answer} (hne : replies ≠ []) :
    Triple (fun s => s.outstanding = replies ∧ s.unparsed = [] ∧ u.Working s)
      srv.channel.receiveResponse
      (fun a s => a :: s.outstanding = replies ∧ s.unparsed = [] ∧ u.Working s)
      (srv.Lost u) := by
  rintro s ⟨hout, hpart, hworking⟩
  simp only [channel]
  cases hfault : srv.receiveFault s.waits with
  | some ec =>
    refine fun ec' _ => ⟨rfl, fun hcalm => ?_⟩
    rw [hcalm.2 s.waits hworking.waits (Nat.lt_succ_self _)] at hfault
    cases hfault
  | none =>
    cases hs : s.outstanding with
    | nil => exact absurd (hs.symm.trans hout).symm hne
    | cons a rest =>
      exact ⟨hs.symm.trans hout, hpart, hworking.sound, hworking.writes,
        Nat.le_succ_of_le hworking.waits⟩

theorem sendAndReceive_spec (hconf : srv.Conforming) {cmd : Bytes} (hcmd : CrlfFree cmd) (i : ℕ) :
    Triple (fun s => u.Good s ∧ s.commands = i) (srv.channel.sendAndReceiveResponse cmd)
      (fun a s => a :: s.outstanding = srv.answers i cmd ∧ s.unparsed = [] ∧ u.Working s)
      (srv.Lost u) :=
  (sendCommand_spec hcmd i).bind fun _ => receiveResponse_spec (hconf.answers_ne_nil i cmd)

/- How an operation stops that keeps the conversation in step: quietly, or because the
control channel has failed. -/
def Stopped (srv : Server) (u : Conversation) (e : Exit) (s : Conversation) : Prop :=
  ∀ ec, e = .error ec → u.Good s ∨ (s.failed = true ∧ ¬srv.Undisturbed u s)

theorem Lost.stopped {e : Exit} {s : Conversation} (h : srv.Lost u e s) : srv.Stopped u e s :=
  fun ec he => .inr (h ec he)

theorem Stopped.of_good {e : Exit} {s : Conversation} (h : u.Good s) : srv.Stopped u e s :=
  fun _ _ => .inl h

theorem command_spec (hconf : srv.Conforming) {cmd : Bytes} (hcmd : CrlfFree cmd)
    (hsingle : isTransfer cmd = false) :
    Triple u.Good (srv.channel.sendAndReceiveResponse cmd) (fun _ => u.Good)
      (srv.Stopped u) := by
  intro s hs
  have h := sendAndReceive_spec hconf hcmd s.commands s ⟨hs, rfl⟩
  cases hrun : srv.channel.sendAndReceiveResponse cmd s with
  | mk r t =>
    rw [hrun] at h
    cases r with
    | error e => exact h.stopped
    | ok a =>
      obtain ⟨hout, hpart, hworking⟩ := h
      obtain ⟨b, hb, -⟩ := hconf.single s.commands cmd hsingle
      rw [hb] at hout
      exact ⟨⟨(List.cons.inj hout).2, hpart⟩, hworking⟩

theorem isTransfer_argument {cmd : Bytes} (h : 32 ∈ cmd) (arg : Bytes) :
    isTransfer (cmd ++ arg) = isTransfer cmd := by
  have htake : (cmd ++ arg).takeWhile (· != 32) = cmd.takeWhile (· != 32) := by
    induction cmd with
    | nil => cases h
    | cons b cmd ih =>
      by_cases hb : b = 32
      · simp [hb]
      · have hmem : 32 ∈ cmd := (List.mem_cons.mp h).resolve_left fun h => hb h.symm
        simp [hb, ih hmem]
  unfold isTransfer verb
  rw [htake]

end Server

/-! ### Operations in step -/

namespace FtpFileTransfer

/-- The client has read every reply, and the control channel works. -/
def InStep (s : FtpFileTransfer Conversation) : Prop :=
  s.session.Quiet ∧ s.session.failed = false

theorem InStep.good {s : FtpFileTransfer Conversation} (h : InStep s) :
    s.session.Good s.session :=
  ⟨h.1, h.2, Nat.le_refl _, Nat.le_refl _⟩

variable {srv : Server} {u : Conversation}

/- Commands of one line that are no transfers are exchanges that keep step. -/
theorem keepsStep_exchanges (hconf : srv.Conforming) :
    Exchanges srv.channel (fun l => CrlfFree l.text ∧ isTransfer l.text = false)
      u.Good u.Good (srv.Stopped u) :=
  ⟨fun _ hl => srv.command_spec hconf hl.1 hl.2, fun _ hs => hs, fun _ _ hs => .of_good hs⟩

theorem isTransfer_line {l : Line} (h : l.verb ∉ [.LIST, .RETR, .STOR]) :
    isTransfer l.text = false := by
  obtain ⟨verb, argument⟩ := l
  have hverb : isTransfer verb.name = false ∧ isTransfer (verb.name ++ [32]) = false := by
    replace h : verb ∉ [.LIST, .RETR, .STOR] := h
    revert h
    cases verb <;> decide
  cases argument with
  | none => exact hverb.1
  | some a =>
    have htext : (⟨verb, some a⟩ : Line).text = (verb.name ++ [32]) ++ a := by simp [Line.text]
    rw [htext, Server.isTransfer_argument (by simp)]
    exact hverb.2

theorem keepsStep_prepareTransfer (hconf : srv.Conforming) {dir : Path} (hdir : CrlfFree dir) :
    Leads u.Good u.Good (srv.Stopped u) (prepareTransfer srv.channel dir) := by
  refine (keepsStep_exchanges hconf).prepareTransfer ?_ ?_
  · intro endpoint s hs
    have hconnected : u.Good { s with connects := s.connects + 1 } :=
      ⟨hs.1, hs.2.sound, hs.2.writes, hs.2.waits⟩
    simp only [Server.channel]
    cases srv.data s.connects endpoint with
    | error ec => exact .of_good hconnected
    | ok socket => exact hconnected
  · rintro l (hl | rfl)
    · refine ⟨Request.crlfFree_navigates hdir hl, ?_⟩
      obtain ⟨current, c, -, rfl⟩ := hl
      exact isTransfer_line (by simp)
    · exact ⟨by decide, by decide⟩

/-! ### Operations that swallow an error -/

/-- Every reply has been read, or a use of the channel behind `u` has failed. -/
def StepOrFault (srv : Server) (u s : Conversation) : Prop :=
  u.Good s ∨ ¬srv.Undisturbed u s

theorem deliver_uses (srv : Server) (s : Conversation) (bytes : Bytes) :
    (srv.deliver s bytes).writes = s.writes ∧ (srv.deliver s bytes).waits = s.waits := by
  simp only [Server.deliver]
  generalize (takeLines (s.unparsed ++ bytes)).1 = lines
  induction lines generalizing s with
  | nil => exact ⟨rfl, rfl⟩
  | cons line lines ih => exact ih (srv.hear s line)

theorem exchange_uses (cmd : Bytes) :
    Keeps (fun s : Conversation => u.writes ≤ s.writes ∧ u.waits ≤ s.waits)
      (srv.channel.sendAndReceiveResponse cmd) := by
  have hsend : Keeps (fun s : Conversation => u.writes ≤ s.writes ∧ u.waits ≤ s.waits)
      (srv.channel.sendCommand cmd) := by
    intro s hs
    simp only [Channel.sendCommand, Server.channel]
    cases srv.sendFault s.writes with
    | some fault =>
      have huses := deliver_uses srv s ((cmd ++ crlf).take fault.2)
      exact ⟨Nat.le_succ_of_le hs.1, huses.2 ▸ hs.2⟩
    | none =>
      have huses := deliver_uses srv s (cmd ++ crlf)
      exact ⟨Nat.le_succ_of_le hs.1, huses.2 ▸ hs.2⟩
  refine Triple.bind hsend fun _ => ?_
  intro s hs
  simp only [Server.channel]
  cases srv.receiveFault s.waits with
  | some ec => exact ⟨hs.1, Nat.le_succ_of_le hs.2⟩
  | none => cases s.outstanding <;> exact ⟨hs.1, Nat.le_succ_of_le hs.2⟩

/- A fault stays a fault, whatever is exchanged behind it. -/
theorem stepOrFault_exchange (hconf : srv.Conforming) {l : Line} (hline : CrlfFree l.text)
    (hsingle : isTransfer l.text = false) :
    Triple (StepOrFault srv u) (srv.channel.sendAndReceiveResponse l.text)
      (fun _ => StepOrFault srv u) fun e s => ∀ ec, e = .error ec → StepOrFault srv u s := by
  refine Triple.or ?_ ?_
  · exact (srv.command_spec hconf hline hsingle).mono (fun _ hs => hs) (fun _ _ hs => .inl hs)
      fun e s hs ec he => (hs ec he).imp_right And.right
  · intro s hs
    have hmore : ∀ t : Conversation, s.writes ≤ t.writes ∧ s.waits ≤ t.waits →
        StepOrFault srv u t := fun t ht =>
      .inr fun hcalm => hs ⟨fun i hi hlt => hcalm.1 i hi (Nat.lt_of_lt_of_le hlt ht.1),
        fun i hi hlt => hcalm.2 i hi (Nat.lt_of_lt_of_le hlt ht.2)⟩
    exact (exchange_uses l.text).mono (fun _ ht => ht) (fun _ t ht => hmore t ht)
      (fun _ t ht _ _ => hmore t ht) s ⟨Nat.le_refl _, Nat.le_refl _⟩

theorem stepOrFault_request {γ : Type} {request : Request γ} (hconf : srv.Conforming)
    (hpath : CrlfFree request.path) (hother : request.opensData = false) (clock : Clock) :
    Leads (StepOrFault srv u) (StepOrFault srv u)
      (fun e s => ∀ ec, e = .error ec → StepOrFault srv u s) (request.run srv.channel clock) := by
  have hsend : ∀ l, request.Sends l → CrlfFree l.text ∧ isTransfer l.text = false := fun l hl =>
    ⟨Request.crlfFree_sends hpath hl, isTransfer_line (Request.verb_sends hother hl)⟩
  exact Request.leads_probing clock
    ⟨fun l hl => stepOrFault_exchange hconf (hsend l hl).1 (hsend l hl).2, fun _ hs => hs,
      fun _ _ hs _ _ => hs⟩ (fun ec _ hs => hs ec rfl) hother

end FtpFileTransfer

end NetworkStack.Ftp
