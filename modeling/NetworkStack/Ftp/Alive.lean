import NetworkStack.Ftp.Login
import NetworkStack.Socket.ReadUntil

/-!
# What a failed `connect` leaves (protocol/FtpFileTransfer.cpp)

`connect` returns an error from the TCP connection, from the greeting and from each
login command. The login commands destroy the socket first; the greeting does not.
-/

namespace NetworkStack.Ftp

open Hoare SocketDetail Utility

namespace FtpFileTransfer

variable {net : Network} {α : Type}

/-- After an error that is returned the object is not alive. -/
def DeadAfterError (net : Network) (opts : ConnectOptions) : Prop :=
  ∀ ec s, connect net opts (.construct .initial) = (.error (.error ec), s) →
    s.session.isAlive = false

/-! ### The login -/

/-- An error that is returned leaves no socket. -/
def Destroys (m : Operation Control α) : Prop :=
  Triple (fun _ => True) m (fun _ _ => True) fun e s =>
    (∃ ec, e = .error ec) → s.session.socket = none

theorem destroys_pure (a : α) : Destroys (pure a : Operation Control α) :=
  .pure fun _ _ => trivial

/- What `hasValue` lets through is no error code. -/
theorem destroys_hasValue (m : Operation Control α) : Destroys (hasValue m) := by
  have hany : Triple (fun _ => True) m (fun _ _ => True) fun _ _ => True :=
    .of_cases (fun _ _ _ _ _ => trivial) fun _ _ _ _ _ => trivial
  refine Triple.mono hany.attempt (fun _ h => h) (fun _ _ _ => trivial) ?_
  rintro e s ⟨huncaught, -⟩ ⟨ec, rfl⟩
  cases huncaught

theorem destroys_login (cmd : Bytes) (accepted : List ℕ) : Destroys (login net cmd accepted) := by
  have hfail : ∀ e, Destroys (do control Control.reset; stop e : Operation Control Unit) :=
    fun _ _ _ _ => rfl
  refine Triple.bind (destroys_hasValue _) fun cmd_result => ?_
  cases cmd_result with
  | error ec => exact hfail _
  | ok a => exact .ite (fun _ => destroys_pure _) fun _ => hfail _

theorem destroys_credential (verb value : Bytes) (accepted : List ℕ) :
    Destroys (credential net verb value accepted) :=
  .ite (fun _ => destroys_login _ _) fun _ => destroys_pure _

theorem destroys_feat : Destroys (feat net) := by
  refine Triple.bind (destroys_hasValue _) fun feat_result => ?_
  cases feat_result with
  | error ec => exact destroys_pure _
  | ok a => exact .ite (fun _ _ _ => trivial) fun _ => destroys_pure _

theorem destroys_negotiate (opts : ConnectOptions) : Destroys (negotiate net opts) :=
  Triple.bind (destroys_credential _ _ _) fun _ =>
    Triple.bind (destroys_credential _ _ _) fun _ => destroys_feat

/-! ### The greeting -/

theorem control_construct (m : Act Control Exit α) (c : Control) :
    control m (.construct c) = ((m c).1, .construct (m c).2) := rfl

theorem dial_initial (net : Network) : Control.dial net .initial =
    match net.control 0 with
    | .error ec => (.error (.error ec), { Control.initial with dials := 1 })
    | .ok sock => (.ok (), { Control.initial with socket := some sock, dials := 1 }) := rfl

section Greeting

variable {sock : Socket} {opts : ConnectOptions} (hdial : net.control 0 = .ok sock)
include hdial

/- The state once the TCP connection is open. -/
theorem connect_dialled : connect net opts (.construct .initial) = (do
    control Control.greeting
    negotiate net opts : Operation Control Unit)
      (.construct { Control.initial with socket := some sock, dials := 1 }) := by
  have hrun : control (Control.dial net) (.construct .initial)
      = (.ok (), .construct { Control.initial with socket := some sock, dials := 1 }) := by
    rw [control_construct, dial_initial, hdial]
  rw [connect, bind_ok hrun]

theorem connect_greetingFails (opts : ConnectOptions) {ec : ErrorCode} {bytes : Bytes} {t : Socket}
    (hread : asyncReadUntilCommon sock (List.replicate 512 0) crlf = some ⟨.error ec, bytes, t⟩) :
    ∃ s, connect net opts (.construct .initial) = (.error (.error ec), s) ∧
      s.session.socket = some t := by
  have hgreeting : control Control.greeting
      (.construct { Control.initial with socket := some sock, dials := 1 })
      = (.error (.error ec), .construct
        ({ Control.initial with socket := some sock, dials := 1 }.log none t [])) := by
    simp only [control_construct, Control.greeting, Control.onSocket, hread]
  exact ⟨_, (connect_dialled hdial).trans (bind_error hgreeting), rfl⟩

/- Any other end of the reading is followed by the login, or the call does not return. -/
theorem connect_greeted {ec : ErrorCode} {s : FtpFileTransfer Control}
    (hread : ∀ ec bytes t, asyncReadUntilCommon sock (List.replicate 512 0) crlf
      ≠ some ⟨.error ec, bytes, t⟩)
    (h : connect net opts (.construct .initial) = (.error (.error ec), s)) :
    s.session.socket = none := by
  rw [connect_dialled hdial] at h
  cases hgreeting : control Control.greeting
      (.construct { Control.initial with socket := some sock, dials := 1 }) with
  | mk r u =>
    cases r with
    | ok _ =>
      rw [bind_ok hgreeting] at h
      exact (destroys_negotiate opts).error trivial h ⟨ec, rfl⟩
    | error e =>
      rw [bind_error hgreeting] at h
      cases h
      simp only [control_construct, Control.greeting, Control.onSocket] at hgreeting
      cases hcall : asyncReadUntilCommon sock (List.replicate 512 0) crlf with
      | none => rw [hcall] at hgreeting; cases hgreeting
      | some c =>
        obtain ⟨result, bytes, t⟩ := c
        cases result with
        | error ec' => exact absurd hcall (hread ec' bytes t)
        | ok n => rw [hcall] at hgreeting; cases hgreeting

end Greeting

theorem greeting_fails_iff {sock : Socket} (hs : sock.connected = true) :
    (∃ ec bytes t, asyncReadUntilCommon sock (List.replicate 512 0) crlf
      = some ⟨.error ec, bytes, t⟩) ↔ LineFails 512 crlf sock := by
  have hiff := @readUntil_fails_iff sock (List.replicate 512 0) crlf hs (by decide) (by decide)
  rwa [List.length_replicate] at hiff

/- A greeting that fails on an open connection leaves it open. -/
theorem connect_greetingFails_alive {net : Network} {sock : Socket} (opts : ConnectOptions)
    (hdial : net.control 0 = .ok sock) (hs : sock.connected = true)
    (hline : LineFails 512 crlf sock) :
    ∃ ec s, connect net opts (.construct .initial) = (.error (.error ec), s) ∧
      s.session.isAlive = true := by
  obtain ⟨ec, bytes, t, hread⟩ := (greeting_fails_iff hs).mpr hline
  obtain ⟨s, hrun, hsock⟩ := connect_greetingFails hdial opts hread
  have hopen : t.connected = sock.connected :=
    (@ReadOp.run_readOnly _ (.readUntil (List.replicate 512 0) crlf) _ hread).connected
  exact ⟨ec, s, hrun, by rw [Control.isAlive, hsock, Option.any_some, hopen, hs]⟩

/-- A new object is dead after every error exactly when its TCP connection, if there is one,
brings the line of the greeting. -/
theorem connect_error_dead_iff (net : Network) (opts : ConnectOptions) :
    DeadAfterError net opts ↔
      ∀ sock, net.control 0 = .ok sock → sock.connected = true → ¬LineFails 512 crlf sock := by
  refine ⟨fun h sock hdial hs hline => ?_, fun h ec s hrun => ?_⟩
  · obtain ⟨ec, s, hrun, halive⟩ := connect_greetingFails_alive opts hdial hs hline
    rw [h ec s hrun] at halive
    cases halive
  · cases hdial : net.control 0 with
    | error ec' =>
      have hfirst : control (Control.dial net) (.construct .initial)
          = (.error (.error ec'), .construct { Control.initial with dials := 1 }) := by
        rw [control_construct, dial_initial, hdial]
      rw [connect, bind_error hfirst] at hrun
      cases hrun
      rfl
    | ok sock =>
      by_cases hs : sock.connected = true
      · have hnone := connect_greeted hdial (fun ec bytes t hread =>
          h sock hdial hs ((greeting_fails_iff hs).mp ⟨ec, bytes, t, hread⟩)) hrun
        rw [Control.isAlive, hnone, Option.any_none]
      · have hread : asyncReadUntilCommon sock (List.replicate 512 0) crlf
            = some ⟨.error (.asio .not_connected), List.replicate 512 0, sock⟩ := by
          rw [asyncReadUntilCommon, if_pos (by simpa using hs)]
        obtain ⟨u, hfail, hsock⟩ := connect_greetingFails hdial opts hread
        rw [hrun] at hfail
        cases hfail
        rw [Control.isAlive, hsock, Option.any_some]
        simpa using hs

/-- A greeting of which the server sends half before it closes. -/
def halfGreeting : Socket := Socket.fresh [.data (ascii "220 Wel"), .fail ⟨.asio .eof, false⟩]

theorem connect_halfGreeting_alive :
    ∃ ec s, connect (networkOf halfGreeting) .default (.construct .initial)
        = (.error (.error ec), s) ∧
      s.session.isAlive = true ∧ ¬DeadAfterError (networkOf halfGreeting) .default := by
  have hline : LineFails 512 crlf halfGreeting := .inr trivial
  obtain ⟨ec, s, hrun, halive⟩ := connect_greetingFails_alive .default
    (show (networkOf halfGreeting).control 0 = .ok halfGreeting from rfl) rfl hline
  refine ⟨ec, s, hrun, halive, fun h => ?_⟩
  rw [h ec s hrun] at halive
  cases halive

end FtpFileTransfer

end NetworkStack.Ftp
