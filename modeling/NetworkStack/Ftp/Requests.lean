import NetworkStack.Ftp.CommandLines

/-!
# What a request says to the server

Each operation sends commands of a few kinds: one verb, and for most verbs one
argument that comes from the caller's path. What one such command does to the session
gives what the whole operation does to it: an operation is a sequence of exchanges,
and it stops on its own account only after one of them.
-/

namespace NetworkStack.Ftp

open Hoare SocketDetail Utility

/-! ### Requests -/

inductive Request (γ : Type) where
  | list (path : Path)
  | createDir (path : Path)
  | exists_ (path : Path)
  | remove (path : Path)
  | isDirectory (path : Path)
  | read (path : Path)
  | readCallback (path : Path) (callback : γ → Bytes → Except ErrorCode ℕ × γ) (g : γ)
  | write (path : Path) (data : Bytes)
  | writeCallback (path : Path) (next : List (Except ErrorCode Bytes))

namespace Request

variable {γ σ : Type}

def path : Request γ → Path
  | .list path | .createDir path | .exists_ path | .remove path | .isDirectory path
  | .read path | .readCallback path _ _ | .write path _ | .writeCallback path _ => path

def run (W : Channel σ) (clock : Clock) : Request γ → FtpFileTransfer.Operation σ Unit
  | .list path => do let _ ← FtpFileTransfer.list W clock path
  | .createDir path => FtpFileTransfer.createDir W path
  | .exists_ path => do let _ ← FtpFileTransfer.exists_ W path
  | .remove path => FtpFileTransfer.remove W path
  | .isDirectory path => do let _ ← FtpFileTransfer.isDirectory W path
  | .read path => do let _ ← FtpFileTransfer.read W path
  | .readCallback path callback g => do let _ ← FtpFileTransfer.readCallback W path callback g
  | .write path data => do let _ ← FtpFileTransfer.write W clock path data
  | .writeCallback path next => do let _ ← FtpFileTransfer.writeCallback W clock path next

end Request

/-! ### Lines -/

inductive Verb where
  | USER | PASS | FEAT | CWD | MLST | SIZE | MKD | RMD | DELE | PASV | LIST | RETR | STOR
  deriving DecidableEq

def Verb.name : Verb → Bytes
  | .USER => ascii "USER"
  | .PASS => ascii "PASS"
  | .FEAT => ascii "FEAT"
  | .CWD => ascii "CWD"
  | .MLST => ascii "MLST"
  | .SIZE => ascii "SIZE"
  | .MKD => ascii "MKD"
  | .RMD => ascii "RMD"
  | .DELE => ascii "DELE"
  | .PASV => ascii "PASV"
  | .LIST => ascii "LIST"
  | .RETR => ascii "RETR"
  | .STOR => ascii "STOR"

structure Line where
  verb : Verb
  argument : Option Bytes
  deriving DecidableEq

def Line.text : Line → Bytes
  | ⟨verb, none⟩ => verb.name
  | ⟨verb, some argument⟩ => verb.name ++ 32 :: argument

theorem crlfFree_line {l : Line} (h : ∀ a ∈ l.argument, CrlfFree a) : CrlfFree l.text := by
  obtain ⟨verb, argument⟩ := l
  have hverb : CrlfFree verb.name := by cases verb <;> decide
  cases argument with
  | none => exact hverb
  | some a => exact crlfFree_append_cons (by decide) (by decide) hverb (h a rfl)

namespace Request

variable {γ : Type}

/-- What the navigator may send to get to `path`, wherever it is. -/
def Navigates (path : Path) (l : Line) : Prop :=
  ∃ current, ∃ c ∈ route current (normalize path), l = ⟨.CWD, some (Command.text c)⟩

def Probes (path : Path) (l : Line) : Prop :=
  Navigates path.parent_path l ∨ l ∈ [⟨.MLST, some path.filename⟩, ⟨.SIZE, some path.filename⟩,
    ⟨.CWD, some path.filename⟩, ⟨.CWD, some Path.dotdot⟩]

def Transfers (dir : Path) (command : Line) (l : Line) : Prop :=
  Navigates dir l ∨ l ∈ [⟨.PASV, none⟩, command]

/-- The commands of a request, with the arguments they are meant to have. -/
def Sends : Request γ → Line → Prop
  | .list path, l => Transfers path ⟨.LIST, none⟩ l
  | .createDir path, l =>
    Probes path l ∨ l = ⟨.MKD, some (FtpFileTransfer.get_last_component path)⟩
  | .exists_ path, l => Probes path l
  | .remove path, l =>
    Probes path l ∨ l ∈ [⟨.RMD, some path.filename⟩, ⟨.DELE, some path.filename⟩]
  | .isDirectory path, l => Probes path l
  | .read path, l => Transfers path.parent_path ⟨.RETR, some path.filename⟩ l
  | .readCallback path _ _, l => Transfers path.parent_path ⟨.RETR, some path.filename⟩ l
  | .write path _, l => Transfers path.parent_path ⟨.STOR, some path.filename⟩ l
  | .writeCallback path _, l => Transfers path.parent_path ⟨.STOR, some path.filename⟩ l

theorem crlfFree_navigates {path : Path} {l : Line} (hpath : CrlfFree path)
    (h : Navigates path l) : CrlfFree l.text := by
  obtain ⟨current, c, hc, rfl⟩ := h
  refine crlfFree_line fun a ha => ?_
  cases ha
  exact crlfFree_route current (crlfFree_normalize hpath) c hc

theorem crlfFree_probes {path : Path} {l : Line} (hpath : CrlfFree path) (h : Probes path l) :
    CrlfFree l.text := by
  have hname : CrlfFree path.filename := hpath.of_isInfix (filename_isInfix path)
  rcases h with h | h
  · exact crlfFree_navigates (crlfFree_parent_path hpath) h
  · refine crlfFree_line fun a ha => ?_
    simp only [List.mem_cons, List.not_mem_nil, or_false] at h
    rcases h with rfl | rfl | rfl | rfl <;> cases ha
    · exact hname
    · exact hname
    · exact hname
    · decide

theorem crlfFree_transfers {dir : Path} {command l : Line} (hdir : CrlfFree dir)
    (hcommand : ∀ a ∈ command.argument, CrlfFree a) (h : Transfers dir command l) :
    CrlfFree l.text := by
  rcases h with h | h
  · exact crlfFree_navigates hdir h
  · simp only [List.mem_cons, List.not_mem_nil, or_false] at h
    rcases h with rfl | rfl
    · decide
    · exact crlfFree_line hcommand

/- A path without CRLF gives commands of one line each. -/
theorem crlfFree_sends {r : Request γ} {l : Line} (hpath : CrlfFree r.path) (h : r.Sends l) :
    CrlfFree l.text := by
  have hname : CrlfFree r.path.filename := hpath.of_isInfix (filename_isInfix r.path)
  have hparent : CrlfFree r.path.parent_path := crlfFree_parent_path hpath
  have hlast : CrlfFree (FtpFileTransfer.get_last_component r.path) := by
    unfold FtpFileTransfer.get_last_component
    split
    · exact hparent.of_isInfix (filename_isInfix _)
    · exact hname
  have hargument : ∀ (verb : Verb), ∀ a ∈ (⟨verb, some r.path.filename⟩ : Line).argument,
      CrlfFree a := by
    intro verb a ha
    cases ha
    exact hname
  cases r with
  | list path => exact crlfFree_transfers hpath (fun a ha => by cases ha) h
  | createDir path =>
    rcases h with h | rfl
    · exact crlfFree_probes hpath h
    · refine crlfFree_line fun a ha => ?_
      cases ha
      exact hlast
  | exists_ path => exact crlfFree_probes hpath h
  | remove path =>
    rcases h with h | h
    · exact crlfFree_probes hpath h
    · simp only [List.mem_cons, List.not_mem_nil, or_false] at h
      rcases h with rfl | rfl
      · exact crlfFree_line (hargument .RMD)
      · exact crlfFree_line (hargument .DELE)
  | isDirectory path => exact crlfFree_probes hpath h
  | read path => exact crlfFree_transfers hparent (hargument .RETR) h
  | readCallback path callback g => exact crlfFree_transfers hparent (hargument .RETR) h
  | write path data => exact crlfFree_transfers hparent (hargument .STOR) h
  | writeCallback path next => exact crlfFree_transfers hparent (hargument .STOR) h

end Request

/-! ### Operations as sequences of exchanges -/

theorem issue_spec {ε σ : Type} {T : Transport ε σ} {P : σ → Prop} {E : ε → σ → Prop}
    {cs : List Command} (h : ∀ c ∈ cs, Triple P (T.send c) (fun _ => P) E) :
    Triple P (issue T cs) (fun _ => P) E := by
  induction cs with
  | nil => exact fun _ hs => hs
  | cons c cs ih =>
    obtain ⟨hc, hcs⟩ := List.forall_mem_cons.mp h
    intro s hs
    simp only [issue]
    have hstep := hc s hs
    cases hsend : T.send c s with
    | mk r t =>
      rw [hsend] at hstep
      cases r with
      | error e => exact hstep
      | ok u => exact ih hcs t hstep

namespace FtpFileTransfer

variable {σ α β γ : Type}

/-- What a command does to the session: from `I` it gets to `J`, or it stops in `E`. From
`J` the operation may go on or stop. -/
structure Exchanges (W : Channel σ) (allowed : Line → Prop) (I J : σ → Prop)
    (E : Exit → σ → Prop) : Prop where
  exchange : ∀ l, allowed l → Triple I (W.sendAndReceiveResponse l.text) (fun _ => J) E
  goesOn : ∀ s, J s → I s
  stops : ∀ e s, J s → E e s

/-- The other uses of the channel, which follow an exchange. -/
structure Finishes (W : Channel σ) (J : σ → Prop) (E : Exit → σ → Prop) : Prop where
  receive : Triple J W.receiveResponse (fun _ => J) E
  connect : ∀ endpoint, Triple J (W.connectData endpoint) (fun _ => J) E
  wait : ∀ s, J s → J (W.waitOnData s)

/-- The triple of an operation whose conditions are about the session. -/
def Leads (I J : σ → Prop) (E : Exit → σ → Prop) (m : Operation σ α) : Prop :=
  Triple (fun s => I s.session) m (fun _ s => J s.session) fun e s => E e s.session

section Leading

variable {W : Channel σ} {I J : σ → Prop} {E : Exit → σ → Prop} {allowed : Line → Prop}

theorem leads_control {m : Act σ Exit α} (hm : Triple I m (fun _ => J) E) :
    Leads I J E (control m) :=
  Triple.zoom (fun _ _ => rfl) hm

theorem keeps_onData {P : FtpFileTransfer σ → Prop} (hP : ∀ s data, P s → P (s.leave W data))
    (call : Option (Except ErrorCode α × Socket)) : Keeps P (onData W call) := by
  refine keeps_iff.mpr fun s hs => ?_
  cases call with
  | none => exact hs
  | some x => exact hP s x.2 hs

theorem leads_getCapabilities : Leads I I E (getCapabilities (σ := σ)) := fun _ hs => hs

theorem leads_pure (a : α) : Leads I I E (pure a : Operation σ α) := Triple.pure fun _ hs => hs

theorem Leads.mono {I' J' : σ → Prop} {m : Operation σ α} (h : Leads I J E m)
    (hI : ∀ s, I' s → I s) (hJ : ∀ s, J s → J' s) : Leads I' J' E m :=
  Triple.mono h (fun _ hs => hI _ hs) (fun _ _ hs => hJ _ hs) fun _ _ hs => hs

/-- An error that is swallowed leaves the session as an exchange does. -/
theorem Leads.hasValue {m : Operation σ α} (h : Leads I J E m)
    (hresume : ∀ ec s, E (.error ec) s → J s) : Leads I J E (hasValue m) := by
  refine Triple.mono (Triple.attempt h) (fun _ hs => hs) ?_ fun e s hs => hs.2
  intro r s hr
  cases r with
  | ok a => exact hr
  | error ec =>
    obtain ⟨e, he, hstop⟩ := hr
    cases e with
    | error ec' => exact hresume ec' _ hstop
    | threw => cases he
    | undefined => cases he
    | blocked => cases he

variable (h : Exchanges W allowed I J E)

include h

theorem Exchanges.stop (e : Exit) : Leads J J E (Hoare.stop e : Operation σ α) :=
  Triple.stop fun _ hs => h.stops e _ hs

theorem Exchanges.command {l : Line} (hl : allowed l) :
    Leads I J E (control (W.sendAndReceiveResponse l.text)) :=
  leads_control (h.exchange l hl)

theorem Exchanges.ftpCd {dir : Bytes} (hl : allowed ⟨.CWD, some dir⟩) :
    Triple I (W.ftpCd dir) (fun _ => J) E :=
  Triple.bind (h.exchange _ hl) fun _ =>
    .ite (fun _ => .stop fun s hs => h.stops _ s hs) fun _ => .pure fun _ hs => hs

theorem Exchanges.changeDirectory {path : Path}
    (hsend : ∀ l, Request.Navigates path l → allowed l) :
    Leads I I E (changeDirectory W path) := by
  intro s hs
  have hissue : Triple I (issue W.navigator (route s.navigator.current (normalize path)))
      (fun _ => I) E := by
    apply issue_spec
    intro c hc
    have hcd := (h.ftpCd (hsend _ ⟨s.navigator.current, c, hc, rfl⟩)).mono (fun _ hs => hs)
      (fun _ s hs => h.goesOn s hs) fun _ _ hs => hs
    cases c with
    | cd dir => exact hcd
    | selectDrive drive => exact hcd
  have hrun := hissue s.navigator.session hs
  simp only [FtpFileTransfer.changeDirectory, changeDirectory_eq]
  cases hr : issue W.navigator (route s.navigator.current (normalize path))
      s.navigator.session with
  | mk r t =>
    rw [hr] at hrun
    cases r with
    | error e => exact hrun
    | ok u => exact hrun

theorem Exchanges.probe {l : Line} (hl : allowed l) (yes : ℕ) (no : List ℕ) :
    Leads I J E (probe W l.text yes no) :=
  Triple.bind (h.command hl) fun _ =>
    .ite (fun _ => leads_pure _) fun _ => .ite (fun _ => leads_pure _) fun _ => h.stop _

theorem Exchanges.perform {l : Line} (hl : allowed l) (success : ℕ) :
    Leads I J E (perform W l.text success) :=
  Triple.bind (h.command hl) fun _ => .ite (fun _ => h.stop _) fun _ => leads_pure _

/-! ### Probes -/

section Probes

variable {path : Path} (hsend : ∀ l, Request.Probes path l → allowed l)

include hsend

theorem Exchanges.existsMlst : Leads I I E (existsMlst W path.filename) := by
  have hprobe := h.probe (l := ⟨.MLST, some path.filename⟩) (hsend _ (.inr (by simp)))
  refine Triple.bind leads_getCapabilities fun c => .ite (fun _ => leads_pure _) fun _ => ?_
  exact (hprobe _ _).mono (fun _ hs => hs) h.goesOn

theorem Exchanges.existsSize : Leads I J E (existsSize W path.filename) :=
  h.probe (l := ⟨.SIZE, some path.filename⟩) (hsend _ (.inr (by simp))) _ _

theorem Exchanges.enter (no : List ℕ) :
    Leads I J E (FtpFileTransfer.probe W (ascii "CWD " ++ path.filename) 250 no) :=
  h.probe (l := ⟨.CWD, some path.filename⟩) (hsend _ (.inr (by simp))) _ _

theorem Exchanges.dotdot : Leads I J E (control (W.ftpCd Path.dotdot)) :=
  leads_control (h.ftpCd (hsend _ (.inr (by simp))))

theorem Exchanges.isDirectoryMlst : Leads I I E (isDirectoryMlst W path.filename) := by
  have hcommand := h.command (l := ⟨.MLST, some path.filename⟩) (hsend _ (.inr (by simp)))
  refine Triple.bind leads_getCapabilities fun c => .ite (fun _ => leads_pure _) fun _ => ?_
  refine Leads.mono (J := J) (Triple.bind hcommand fun a => ?_) (fun _ hs => hs) h.goesOn
  refine .ite (fun _ => ?_) fun _ => h.stop _
  cases typeIsDir a.full_msg with
  | none => exact h.stop _
  | some isDir => exact leads_pure _

variable (hresume : ∀ ec s, E (.error ec) s → J s)

include hresume

theorem Exchanges.existsCwd : Leads I J E (existsCwd W path.filename) := by
  refine Triple.bind (h.enter hsend _) fun entered => .ite (fun _ => ?_) fun _ => leads_pure _
  exact Triple.bind (((h.dotdot hsend).hasValue hresume).mono h.goesOn fun _ hs => hs)
    fun _ => leads_pure _

omit hsend in
theorem Exchanges.ifCapable {m : Operation σ Bool} (hm : Leads I I E m) (capability : Bool) :
    Leads I I E (ifCapable capability m) :=
  .ite (fun _ => hm.hasValue fun ec s hs => h.goesOn s (hresume ec s hs)) fun _ => leads_pure _

theorem Exchanges.exists_ : Leads I I E (exists_ W path) := by
  have hsize := (h.existsSize hsend).mono (fun _ hs => hs) h.goesOn
  refine Triple.ite (fun _ => leads_pure _) fun _ => ?_
  refine Triple.bind (h.changeDirectory fun l hl => hsend l (.inl hl)) fun _ => ?_
  refine Triple.bind leads_getCapabilities fun c => ?_
  refine Triple.bind (h.ifCapable hresume (h.existsMlst hsend) _) fun mlst => ?_
  refine .ite (fun _ => leads_pure _) fun _ => ?_
  refine Triple.bind (h.ifCapable hresume hsize _) fun size => ?_
  refine .ite (fun _ => leads_pure _) fun _ => ?_
  exact Triple.bind (((h.existsCwd hsend hresume).hasValue hresume).mono (fun _ hs => hs) h.goesOn)
    fun _ => leads_pure _

theorem Exchanges.isDirectoryCwd : Leads I J E (isDirectoryCwd W path.filename) := by
  refine Triple.bind (h.enter hsend _) fun entered => .ite (fun _ => ?_) fun _ => ?_
  · refine Triple.bind (((h.dotdot hsend).hasValue hresume).mono h.goesOn fun _ hs => hs)
      fun restored => ?_
    cases restored with
    | error ec => exact h.stop _
    | ok u => exact leads_pure _
  · refine Triple.bind leads_getCapabilities fun c => .ite (fun _ => ?_) fun _ => h.stop _
    refine Triple.bind ((h.existsSize hsend).mono h.goesOn fun _ hs => hs) fun isFile => ?_
    exact .ite (fun _ => leads_pure _) fun _ => h.stop _

theorem Exchanges.isDirectory : Leads I I E (isDirectory W path) := by
  have hcwd := (h.isDirectoryCwd hsend hresume).mono (fun _ hs => hs) h.goesOn
  refine Triple.ite (fun _ => leads_pure _) fun _ => ?_
  refine Triple.bind (h.changeDirectory fun l hl => hsend l (.inl hl)) fun _ => ?_
  refine Triple.bind leads_getCapabilities fun c => .ite (fun _ => ?_) fun _ => hcwd
  refine Triple.bind ((h.isDirectoryMlst hsend).hasValue
    fun ec s hs => h.goesOn s (hresume ec s hs)) fun result => ?_
  cases result with
  | error ec => exact hcwd
  | ok isDir => exact leads_pure _

end Probes

/-! ### Transfers -/

section Transfers

theorem Exchanges.prepareTransfer {dir : Path}
    (hconnect : ∀ endpoint, Triple J (W.connectData endpoint) (fun _ => J) E)
    (hsend : ∀ l, Request.Navigates dir l ∨ l = ⟨.PASV, none⟩ → allowed l) :
    Leads I J E (prepareTransfer W dir) := by
  refine Triple.bind (h.changeDirectory fun l hl => hsend l (.inl hl)) fun _ => ?_
  refine Triple.bind (h.command (hsend _ (.inr rfl))) fun a => ?_
  refine .ite (fun _ => h.stop _) fun _ => ?_
  cases parsePasvResponse a.full_msg with
  | none => exact h.stop _
  | some endpoint => exact leads_control (hconnect endpoint)

variable (hfinish : Finishes W J E)

include hfinish

theorem Exchanges.completion : Leads J J E (completion W) :=
  Triple.bind (leads_control hfinish.receive) fun _ =>
    .ite (fun _ => h.stop _) fun _ => leads_pure _

theorem Exchanges.transfer {dir : Path} {c : Line}
    {phase : Socket → Option (Except ErrorCode α × Socket)} {finish : α → Operation σ β}
    (hsend : ∀ l, Request.Transfers dir c l → allowed l)
    (hlast : ∀ a, Leads J J E (finish a)) :
    Leads I J E (transfer W dir c.text phase finish) := by
  have hprepare := (h.prepareTransfer hfinish.connect fun l hl => hsend l
    (hl.imp_right fun hl => by simp [hl])).mono (fun _ hs => hs) h.goesOn
  have hopen : Leads I J E (openTransfer W dir c.text) :=
    Triple.bind hprepare fun data => Triple.bind (h.command (hsend _ (.inr (by simp)))) fun _ =>
      .ite (fun _ => h.stop _) fun _ => leads_pure _
  have hdata : ∀ data, Leads J J E (onData W (phase data)) := by
    intro data s hs
    unfold onData
    cases phase data with
    | none => exact h.stops _ _ hs
    | some x =>
      obtain ⟨r, left⟩ := x
      have hleft : J (s.leave W left).session := hfinish.wait _ hs
      cases r with
      | error ec => exact h.stops _ _ hleft
      | ok a => exact hleft
  exact Triple.bind hopen fun data => Triple.bind (hdata data) hlast

end Transfers

end Leading

end FtpFileTransfer

/-! ### Whole requests -/

open FtpFileTransfer

namespace Request

variable {σ γ : Type} {W : Channel σ} {I J : σ → Prop} {E : Exit → σ → Prop} {r : Request γ}

def opensData : Request γ → Bool
  | .createDir _ | .exists_ _ | .remove _ | .isDirectory _ => false
  | _ => true

theorem verb_sends {r : Request γ} {l : Line} (hr : r.opensData = false) (h : r.Sends l) :
    l.verb ∉ [.LIST, .RETR, .STOR] := by
  have hprobes : ∀ path, Probes path l → l.verb ∉ [.LIST, .RETR, .STOR] := by
    rintro path (⟨current, c, -, rfl⟩ | hl)
    · simp
    · simp only [List.mem_cons, List.not_mem_nil, or_false] at hl
      rcases hl with rfl | rfl | rfl | rfl <;> simp
  cases r with
  | createDir path =>
    rcases h with h | rfl
    · exact hprobes path h
    · simp
  | exists_ path => exact hprobes path h
  | remove path =>
    rcases h with h | h
    · exact hprobes path h
    · simp only [List.mem_cons, List.not_mem_nil, or_false] at h
      rcases h with rfl | rfl <;> simp
  | isDirectory path => exact hprobes path h
  | list path => cases hr
  | read path => cases hr
  | readCallback path callback g => cases hr
  | write path data => cases hr
  | writeCallback path next => cases hr

/- The rule for a request that transfers nothing. -/
theorem leads_probing (clock : Clock) (h : Exchanges W r.Sends I J E)
    (hresume : ∀ ec s, E (.error ec) s → J s) (hr : r.opensData = false) :
    Leads I I E (r.run W clock) := by
  cases r with
  | createDir path =>
    refine Triple.bind (h.exists_ (fun l hl => .inl hl) hresume) fun found =>
      .ite (fun _ => leads_pure _) fun _ => ?_
    refine Triple.bind (h.changeDirectory fun l hl => .inl (.inl hl)) fun _ => ?_
    exact (h.perform (l := ⟨.MKD, some (get_last_component path)⟩) (.inr rfl) _).mono
      (fun _ hs => hs) h.goesOn
  | exists_ path =>
    exact Triple.bind (h.exists_ (fun l hl => hl) hresume) fun _ => leads_pure _
  | remove path =>
    refine Triple.bind (h.isDirectory (fun l hl => .inl hl) hresume) fun is_dir => ?_
    refine Triple.bind (h.changeDirectory fun l hl => .inl (.inl hl)) fun _ => ?_
    cases is_dir with
    | true =>
      exact (h.perform (l := ⟨.RMD, some path.filename⟩) (.inr (by simp)) _).mono
        (fun _ hs => hs) h.goesOn
    | false =>
      exact (h.perform (l := ⟨.DELE, some path.filename⟩) (.inr (by simp)) _).mono
        (fun _ hs => hs) h.goesOn
  | isDirectory path =>
    exact Triple.bind (h.isDirectory (fun l hl => hl) hresume) fun _ => leads_pure _
  | list path => cases hr
  | read path => cases hr
  | readCallback path callback g => cases hr
  | write path data => cases hr
  | writeCallback path next => cases hr

theorem leads_transferring (clock : Clock) (h : Exchanges W r.Sends I J E)
    (hfinish : Finishes W J E) (hr : r.opensData = true) : Leads I J E (r.run W clock) := by
  have hdone : Leads J J E (completion W) := h.completion hfinish
  cases r with
  | list path =>
    refine Triple.bind (h.transfer (c := ⟨.LIST, none⟩) hfinish (fun _ hl => hl) fun text => ?_)
      fun _ => leads_pure _
    split
    · exact h.stop _
    · exact Triple.bind (leads_control hfinish.receive) fun _ => leads_pure _
  | read path =>
    exact Triple.bind (h.transfer (c := ⟨.RETR, some path.filename⟩) hfinish (fun _ hl => hl)
      fun _ => Triple.bind hdone fun _ => leads_pure _) fun _ => leads_pure _
  | readCallback path callback g =>
    exact Triple.bind (h.transfer (c := ⟨.RETR, some path.filename⟩) hfinish (fun _ hl => hl)
      fun _ => Triple.bind hdone fun _ => leads_pure _) fun _ => leads_pure _
  | write path data =>
    exact Triple.bind (h.transfer (c := ⟨.STOR, some path.filename⟩) hfinish (fun _ hl => hl)
      fun _ => Triple.bind hdone fun _ => leads_pure _) fun _ => leads_pure _
  | writeCallback path next =>
    exact Triple.bind (h.transfer (c := ⟨.STOR, some path.filename⟩) hfinish (fun _ hl => hl)
      fun _ => Triple.bind hdone fun _ => leads_pure _) fun _ => leads_pure _
  | createDir path => cases hr
  | exists_ path => cases hr
  | remove path => cases hr
  | isDirectory path => cases hr

theorem leads (clock : Clock) (h : Exchanges W r.Sends I J E) (hfinish : Finishes W J E)
    (hresume : ∀ ec s, E (.error ec) s → J s) : Leads I I E (r.run W clock) := by
  cases hr : r.opensData with
  | false => exact leads_probing clock h hresume hr
  | true => exact (leads_transferring clock h hfinish hr).mono (fun _ hs => hs) h.goesOn

end Request

/-! ### Invariants of the session -/

/-- The channel keeps the invariant of the session as long as it sends allowed lines. -/
structure ChannelKeeps {σ : Type} (W : Channel σ) (I : σ → Prop) (allowed : Line → Prop) :
    Prop where
  send : ∀ l, allowed l → Keeps I (W.sendCommand l.text)
  receive : Keeps I W.receiveResponse
  connect : ∀ endpoint, Keeps I (W.connectData endpoint)
  wait : ∀ s, I s → I (W.waitOnData s)

namespace ChannelKeeps

variable {σ γ : Type} {W : Channel σ} {I : σ → Prop} {allowed : Line → Prop}

theorem exchanges (h : ChannelKeeps W I allowed) : Exchanges W allowed I I fun _ => I :=
  ⟨fun l hl => (h.send l hl).bind fun _ => h.receive, fun _ hs => hs, fun _ _ hs => hs⟩

theorem request {r : Request γ} (h : ChannelKeeps W I r.Sends) (clock : Clock) :
    Leads I I (fun _ => I) (r.run W clock) :=
  Request.leads clock h.exchanges ⟨h.receive, h.connect, h.wait⟩ fun _ _ hs => hs

end ChannelKeeps

end NetworkStack.Ftp
