import NetworkStack.Ticket.Exchange

/-!
# Strings that are not UTF-8

`dump()` throws on a string that is not UTF-8, and nothing between
`TicketJson::serialize` and the caller of `sendFrame` or `handleNext` catches it.
-/

namespace NetworkStack

open SocketDetail TicketFrame

/- `dump()` with its default arguments: it throws on the first string that is not
UTF-8, and what it prints is a JSON text. -/
structure Nlohmann.Strict (nl : Nlohmann) : Prop where
  dump_isSome : ∀ j, (nl.dump j).isSome ↔ ∀ s ∈ j.strings, ValidUtf8 s
  dump_nonempty : ∀ j, nl.dump j ≠ some []

namespace TicketJson

/-! ### A ticket's strings are printed -/

theorem strings_ofList {entries : List (Bytes × Json)} {e : Bytes × Json} {s : Bytes}
    (he : e ∈ entries) (hs : s = e.1 ∨ s ∈ e.2.strings) :
    s ∈ (JsonMembers.ofList entries).strings :=
  JsonMembers.strings_toList (by rwa [JsonMembers.toList_ofList]) hs

theorem strings_of_lookup {entries : List (Bytes × Json)} {key s : Bytes} {j : Json}
    (h : (SortedAssoc.ofList entries).lookup key = some j) (hs : s ∈ j.strings) :
    s ∈ (objectOf entries).strings := by
  obtain ⟨l₁, l₂, hsplit, -⟩ := List.lookup_eq_some_iff.mp h
  have hmem : (key, j) ∈ SortedAssoc.ofList entries := by simp [hsplit]
  rw [objectOf, Json.strings]
  exact strings_ofList hmem (.inr hs)

theorem strings_of_optional {entries : List (Bytes × Json)} {key s : Bytes} {field : Option Bytes}
    (h : (SortedAssoc.ofList entries).lookup key = field.map .string) (hs : s ∈ field) :
    s ∈ (objectOf entries).strings := by
  cases hs
  exact strings_of_lookup h (by simp [Json.strings])

theorem strings_metadata {m : StringMap} {e : Bytes × Bytes} {s : Bytes} (he : e ∈ m.entries)
    (hs : s = e.1 ∨ s = e.2) :
    s ∈ (objectOf (m.entries.map fun e => (e.1, Json.string e.2))).strings := by
  have hsorted : SortedAssoc.Sorted (m.entries.map fun e => (e.1, Json.string e.2)) :=
    List.pairwise_map.mpr m.sorted
  rw [objectOf, SortedAssoc.ofList_sorted hsorted, Json.strings]
  exact strings_ofList (List.mem_map_of_mem he) (by simpa [Json.strings] using hs)

theorem strings_to_json {ticket : TicketInfo} {s : Bytes} (h : s ∈ ticket.strings) :
    s ∈ (to_json ticket).strings := by
  obtain ⟨⟨hid, -, -, hcommand, hmeta, -⟩, -, hmsg, hpayload, hresult, herror⟩ :=
    lookup_members ticket
  simp only [TicketInfo.strings, List.mem_append, List.mem_cons, List.not_mem_nil, or_false,
    List.mem_flatMap, Option.mem_toList] at h
  rcases h with ((((h | h) | h) | h) | h) | h
  · rcases h with rfl | rfl
    · exact strings_of_lookup hid (by simp [Json.strings])
    · exact strings_of_lookup hcommand (by simp [Json.strings])
  · obtain ⟨e, he, hs⟩ := h
    exact strings_of_lookup hmeta (strings_metadata he hs)
  · exact strings_of_optional hmsg h
  · exact strings_of_optional hpayload h
  · exact strings_of_optional hresult h
  · exact strings_of_optional herror h

theorem to_json_valid_iff (ticket : TicketInfo) :
    (∀ s ∈ (to_json ticket).strings, ValidUtf8 s) ↔ ∀ s ∈ ticket.strings, ValidUtf8 s :=
  ⟨fun h s hs => h s (strings_to_json hs), to_json_valid⟩

variable {nl : Nlohmann}

theorem serialize_isSome_iff (hnl : nl.Strict) (ticket : TicketInfo) :
    ((serializer nl).serialize ticket).isSome ↔ ∀ s ∈ ticket.strings, ValidUtf8 s :=
  (hnl.dump_isSome _).trans (to_json_valid_iff ticket)

/-! ### Frames that go out -/

theorem sendFrame_returns_iff (hnl : nl.Strict) (socket : Socket) (ticket : TicketInfo) :
    (∃ r, (TicketPeer.sendFrame (serializer nl) socket ticket).1 = .returned r) ↔
      ∀ s ∈ ticket.strings, ValidUtf8 s := by
  rw [← serialize_isSome_iff hnl]
  unfold TicketPeer.sendFrame
  cases hser : (serializer nl).serialize ticket with
  | none => simp
  | some bytes =>
    by_cases hempty : bytes = []
    · simp [hempty]
    · simp [hempty]

end TicketJson

namespace TicketWorker

variable {σ : Type} {nl : Nlohmann}

/-- What the worker is handed to put into its response: the id and the command of the
ticket and, if a short handler is called, its result or the text of its error. -/
def Utf8Answer (message : ErrorCode → Bytes) (w : TicketWorker σ) (ticket : TicketInfo) : Prop :=
  ValidUtf8 ticket.ticket_id ∧ ValidUtf8 ticket.command ∧
    ∀ handler, w.longHandlers.lookup ticket.command = none →
      w.handlers.lookup ticket.command = some handler →
      match (handler (contextOf ticket) w.state).1 with
      | .ok result => ValidUtf8 result
      | .error ec => ValidUtf8 (message ec)

/-- `handleNext` returns Ok and has sent one frame, the response to `ticket`. -/
def SendsOneResponse (S : TicketSerializer) (message : ErrorCode → Bytes) (w : TicketWorker σ)
    (ticket : TicketInfo) : Prop :=
  ∃ w' response bytes, handleNext S message w = some (.returned (.ok ()), w') ∧
    response.ticket_id = ticket.ticket_id ∧ S.serialize response = some bytes ∧
    w'.socket.sent = w.socket.sent ++ encodeFrame bytes ∧
    w'.responses = w.responses ++ [response]

theorem strings_errorResponse (ticketId error : Bytes) (type : TicketType) (command : Bytes)
    (timeout : Int64) :
    (errorResponse ticketId error type command timeout).strings = [ticketId, command, error] := rfl

theorem strings_completedResponse (ticket : TicketInfo) (result : Bytes) :
    (completedResponse ticket result).strings = [ticket.ticket_id, ticket.command, result] := rfl

theorem answer_valid_iff (message : ErrorCode → Bytes) (w : TicketWorker σ)
    (ticket : TicketInfo) :
    (∀ s ∈ (answer message w ticket).1.strings, ValidUtf8 s) ↔ Utf8Answer message w ticket := by
  have hlong : ValidUtf8 (ascii "long handlers not implemented") := validUtf8_ascii (by decide)
  have hunknown : ValidUtf8 (ascii "unknown command") := validUtf8_ascii (by decide)
  unfold answer Utf8Answer
  cases w.longHandlers.lookup ticket.command with
  | some long => simp [strings_errorResponse, hlong]
  | none =>
    cases w.handlers.lookup ticket.command with
    | none => simp [strings_errorResponse, hunknown]
    | some handler =>
      cases hr : (handler (contextOf ticket) w.state).1 with
      | error ec => simp [hr, strings_errorResponse]
      | ok result => simp [hr, strings_completedResponse]

/- The response of a worker whose connection takes writes goes out exactly when it can
be printed. -/
theorem handleNext_sends_iff (hnl : nl.Strict) (message : ErrorCode → Bytes) (w : TicketWorker σ)
    {ticket : TicketInfo} {mid : Socket} (hw : Writable w.socket)
    (hrecv : TicketPeer.receiveFrame (TicketJson.serializer nl) w.socket = some (.ok ticket, mid)) :
    SendsOneResponse (TicketJson.serializer nl) message w ticket ↔ Utf8Answer message w ticket := by
  have hmid : Writable mid ∧ mid.sent = w.socket.sent := by
    have honly := TicketPeer.receiveFrame_readOnly hrecv
    exact ⟨Writable.of_readOnly hw honly, honly.sent⟩
  obtain ⟨hid, hsocket, hresponses⟩ := answer_frame message { w with socket := mid } ticket
  have hlookups : Utf8Answer message { w with socket := mid } ticket
      ↔ Utf8Answer message w ticket := Iff.rfl
  rw [← hlookups, ← answer_valid_iff, ← TicketJson.serialize_isSome_iff hnl]
  unfold SendsOneResponse handleNext
  simp only [hrecv, processTicket_eq]
  set response := (answer message { w with socket := mid } ticket).1 with hresponse
  set v := (answer message { w with socket := mid } ticket).2 with hv
  cases hser : (TicketJson.serializer nl).serialize response with
  | none =>
    have hthrew : sendResponse (TicketJson.serializer nl) v response = (.threw, v) := by
      simp only [sendResponse, TicketPeer.sendFrame, hser]
    simp [hthrew]
  | some bytes =>
    have hne : bytes ≠ [] := by
      rintro rfl
      exact hnl.dump_nonempty _ hser
    obtain ⟨n, t, hsend, hwrote, -⟩ :=
      TicketPeer.sendFrame_writable (s := v.socket) (by rw [hsocket]; exact hmid.1) hser hne
    have hreturned : sendResponse (TicketJson.serializer nl) v response
        = (.returned (.ok n), { v with socket := t, responses := v.responses ++ [response] }) := by
      simp only [sendResponse, hsend]
    simp only [hreturned, Option.isSome_some, iff_true]
    refine ⟨_, response, bytes, rfl, hid, hser, ?_, by rw [hresponses]⟩
    rw [hwrote, hsocket]
    exact congrArg (· ++ encodeFrame bytes) hmid.2

end TicketWorker

open TicketWorker in
theorem frames_sent_iff_utf8 {σ : Type} (nl : Nlohmann) (hnl : nl.Strict)
    (message : ErrorCode → Bytes) :
    (∀ socket ticket,
      (∃ r, (TicketPeer.sendFrame (TicketJson.serializer nl) socket ticket).1 = .returned r) ↔
        ∀ s ∈ ticket.strings, ValidUtf8 s) ∧
    ∀ (w : TicketWorker σ) ticket mid, Writable w.socket →
      TicketPeer.receiveFrame (TicketJson.serializer nl) w.socket = some (.ok ticket, mid) →
      (SendsOneResponse (TicketJson.serializer nl) message w ticket ↔
        Utf8Answer message w ticket) :=
  ⟨TicketJson.sendFrame_returns_iff hnl,
    fun w _ _ hw hrecv => handleNext_sends_iff hnl message w hw hrecv⟩

/-! ### A handler that returns one byte -/

theorem validUtf8_iff (s : Bytes) : ValidUtf8 s ↔ s.toByteArray.IsValidUTF8 := by
  refine ⟨?_, ?_⟩
  · rintro ⟨cs, hcs⟩
    exact ⟨cs, by rw [List.utf8Encode, hcs]⟩
  · rintro ⟨cs, hcs⟩
    exact ⟨cs, List.toByteArray_inj.mp hcs⟩

instance : DecidablePred ValidUtf8 := fun s => decidable_of_iff _ (validUtf8_iff s).symm

namespace TicketJson

/-- Prints every value whose strings are UTF-8 and parses the texts of some tickets. -/
def strict (tickets : List TicketInfo) : Nlohmann where
  dump j := if ∀ s ∈ j.strings, ValidUtf8 s then some (render j) else none
  parse := (plain tickets).parse
  float_to_int _ := 0

theorem render_ne_nil (j : Json) : render j ≠ [] := by
  cases j with
  | boolean b => cases b <;> simp [render, ascii]
  | number_integer i =>
    cases i with
    | ofNat n => simp [render, ascii, Int.repr]
    | negSucc n => simp [render, ascii, Int.repr]
  | null | number_float _ | string _ | array _ | object _ => simp [render, ascii]

theorem strict_strict (tickets : List TicketInfo) : (strict tickets).Strict := by
  refine ⟨fun j => ?_, fun j => ?_⟩
  · by_cases h : ∀ s ∈ j.strings, ValidUtf8 s
    · simp only [strict, if_pos h, Option.isSome_some, true_iff]
      exact h
    · simp only [strict, if_neg h, Option.isSome_none, Bool.false_eq_true, false_iff]
      exact h
  · by_cases h : ∀ s ∈ j.strings, ValidUtf8 s
    · simp [strict, if_pos h, render_ne_nil]
    · simp [strict, if_neg h]

end TicketJson

/- A character of one byte is below 128, and the others have more than one byte. -/
theorem not_validUtf8_ff : ¬ ValidUtf8 [0xff] := by
  rintro ⟨cs, hcs⟩
  cases cs with
  | nil => cases hcs
  | cons c cs =>
    rw [List.flatMap_cons] at hcs
    unfold String.utf8EncodeChar at hcs
    simp only at hcs
    split at hcs
    · have hbyte := congrArg UInt8.toNat (List.cons.inj hcs).1
      rw [UInt8.toNat_ofNat'] at hbyte
      change 255 = c.val.toNat % 256 at hbyte
      omega
    · have hlength := congrArg List.length hcs
      rw [List.length_append] at hlength
      split at hlength
      · simp only [List.length_cons, List.length_nil] at hlength
        omega
      · split at hlength <;>
          · simp only [List.length_cons, List.length_nil] at hlength
            omega

def readTicket : TicketInfo :=
  TicketController.requestTicket (ascii "7") ⟨ascii "read", [], [], 0⟩

/-- A worker that has the ticket on its stream and a handler with the given result. -/
def byteWorker (result : Bytes) : TicketWorker Unit where
  socket := Socket.fresh [.data (encodeFrame (TicketJson.render (TicketJson.to_json readTicket)))]
  handlers := [(ascii "read", fun _ s => (.ok result, s))]
  longHandlers := []
  state := ()
  invocations := []
  responses := []

theorem byteWorker_receives (result : Bytes) :
    ∃ mid, TicketPeer.receiveFrame (TicketJson.serializer (TicketJson.strict [readTicket]))
      (byteWorker result).socket = some (.ok readTicket, mid) := by
  have hsteady : Chunked.Steady (byteWorker result).socket.incoming := by
    intro e he
    exact ⟨_, by decide +kernel, List.mem_singleton.mp he⟩
  have hfits : Fits (TicketJson.render (TicketJson.to_json readTicket)) := by decide +kernel
  have hstream : unread (byteWorker result).socket
      = encodeFrame (TicketJson.render (TicketJson.to_json readTicket)) ++ [] := rfl
  obtain ⟨mid, hrecv, -, -, -⟩ := TicketPeer.receiveFrame_steady
    (S := TicketJson.serializer (TicketJson.strict [readTicket])) rfl hsteady hfits hstream
  have hparse : (TicketJson.serializer (TicketJson.strict [readTicket])).deserialize
      (TicketJson.render (TicketJson.to_json readTicket)) = .ok readTicket := by
    rfl
  exact ⟨mid, hrecv.trans (by rw [hparse])⟩

theorem byteWorker_writable (result : Bytes) : Writable (byteWorker result).socket :=
  ⟨rfl, by simp [byteWorker, Socket.fresh]⟩

theorem byteWorker_answer (result : Bytes) :
    TicketWorker.Utf8Answer (fun _ => []) (byteWorker result) readTicket ↔ ValidUtf8 result := by
  have hid : ValidUtf8 readTicket.ticket_id := validUtf8_ascii (s := "7") (by decide)
  have hcommand : ValidUtf8 readTicket.command := validUtf8_ascii (s := "read") (by decide)
  refine ⟨fun h => h.2.2 _ rfl rfl, fun h => ⟨hid, hcommand, ?_⟩⟩
  intro handler _ hhandler
  cases hhandler
  exact h

/- A result of letters goes out. -/
theorem frames_sent_iff_utf8_letters :
    TicketWorker.SendsOneResponse (TicketJson.serializer (TicketJson.strict [readTicket]))
      (fun _ => []) (byteWorker (ascii "ok")) readTicket := by
  obtain ⟨mid, hrecv⟩ := byteWorker_receives (ascii "ok")
  exact ((frames_sent_iff_utf8 _ (TicketJson.strict_strict [readTicket]) fun _ => []).2 _ _ mid
    (byteWorker_writable _) hrecv).mpr ((byteWorker_answer _).mpr (validUtf8_ascii (by decide)))

/- A result of one byte that no UTF-8 text has leaves as an exception: the ticket was
received and nothing is sent. -/
theorem byte_result_throws :
    let S := TicketJson.serializer (TicketJson.strict [readTicket])
    let w := byteWorker [0xff]
    (∃ mid, TicketPeer.receiveFrame S w.socket = some (.ok readTicket, mid)) ∧
      (TicketPeer.sendFrame S (Socket.fresh [])
        (TicketWorker.completedResponse readTicket [0xff])).1 = .threw ∧
      ¬ TicketWorker.SendsOneResponse S (fun _ => []) w readTicket := by
  intro S w
  refine ⟨byteWorker_receives [0xff], ?_, ?_⟩
  · cases h : (TicketPeer.sendFrame S (Socket.fresh [])
      (TicketWorker.completedResponse readTicket [0xff])).1 with
    | threw => rfl
    | returned r =>
      have hvalid := (TicketJson.sendFrame_returns_iff (TicketJson.strict_strict [readTicket])
        (Socket.fresh []) _).mp ⟨r, h⟩
      exact absurd (hvalid [0xff] (by simp [TicketWorker.strings_completedResponse]))
        not_validUtf8_ff
  · obtain ⟨mid, hrecv⟩ := byteWorker_receives [0xff]
    rw [TicketWorker.handleNext_sends_iff (TicketJson.strict_strict [readTicket]) _ _
      (byteWorker_writable _) hrecv, byteWorker_answer]
    exact not_validUtf8_ff

end NetworkStack
