import Mathlib.Algebra.Group.Int.Defs
import NetworkStack.Ticket.Json

/-!
# Decoded tickets (protocol/TicketJson.cpp)

`deserialize` fills missing members with defaults and takes unknown names for the
default ones. Whatever it was given, the ticket it returns is one that `serialize`
prints and that comes back as it is: its strings are parsed ones and its timeout was
read as an `int`.
-/

namespace NetworkStack

namespace TicketJson

variable (nl : Nlohmann)

/-! ### The width of the timeout -/

theorem toInt64_toInt32_iff (count : Int64) :
    count.toInt32.toInt64 = count ↔ -2 ^ 31 ≤ count.toInt ∧ count.toInt < 2 ^ 31 := by
  rw [← Int64.toInt_inj, Int32.toInt_toInt64, Int64.toInt_toInt32]
  constructor
  · intro h
    have hlow := Int.le_bmod (x := count.toInt) (m := 2 ^ 32) (by decide)
    have hhigh := Int.bmod_lt (x := count.toInt) (m := 2 ^ 32) (by decide)
    omega
  · rintro ⟨hlow, hhigh⟩
    exact Int.bmod_eq_of_le (by omega) (by omega)

/-- The timeout comes back as it was exactly when it is an `int`. -/
theorem timeout_kept_iff (hnl : nl.Lawful) (ticket : TicketInfo)
    (hdump : nl.DumpsUtf8 [to_json ticket]) (h : ∀ s ∈ ticket.strings, ValidUtf8 s) :
    (∃ bytes u, (serializer nl).serialize ticket = some bytes ∧
        (serializer nl).deserialize bytes = .ok u ∧ u.timeout = ticket.timeout) ↔
      -2 ^ 31 ≤ ticket.timeout.toInt ∧ ticket.timeout.toInt < 2 ^ 31 := by
  obtain ⟨bytes, hbytes⟩ := serialize_valid (show nl.DumpsUtf8 ([ticket].map to_json) from hdump)
    (List.mem_singleton_self ticket) h
  obtain ⟨-, hback⟩ := deserialize_serialize hnl hbytes
  rw [← toInt64_toInt32_iff]
  constructor
  · rintro ⟨bytes', u, hser, hde, htimeout⟩
    obtain rfl := Option.some.inj (hbytes.symm.trans hser)
    rw [hback] at hde
    cases hde
    exact htimeout
  · exact fun hwidth => ⟨bytes, ticket.wire, hbytes, hback, hwidth⟩

/-- The count of `std::chrono::milliseconds::max()`. -/
def patientTicket : TicketInfo := { sampleTicket with timeout := 9223372036854775807 }

theorem timeout_kept_sample :
    ∃ bytes u, (serializer (plain [sampleTicket])).serialize sampleTicket = some bytes ∧
      (serializer (plain [sampleTicket])).deserialize bytes = .ok u ∧ u.timeout = 500 :=
  (timeout_kept_iff (plain [sampleTicket]) (plain_lawful (by simp)) sampleTicket
    (plain_dumpsUtf8 [sampleTicket]) sampleTicket_valid).mpr (by decide)

/- The longest timeout comes back as minus one millisecond. -/
theorem timeout_max_narrowed :
    ∃ bytes u, (serializer (plain [patientTicket])).serialize patientTicket = some bytes ∧
      (serializer (plain [patientTicket])).deserialize bytes = .ok u ∧
      u.timeout = -1 ∧ u.timeout ≠ patientTicket.timeout := by
  obtain ⟨bytes, hbytes⟩ := serialize_valid (plain_dumpsUtf8 [patientTicket])
    (List.mem_singleton_self patientTicket) (show ∀ s ∈ patientTicket.strings, _ from
      sampleTicket_valid)
  obtain ⟨-, hback⟩ := deserialize_serialize (plain_lawful (by simp)) hbytes
  exact ⟨bytes, patientTicket.wire, hbytes, hback, by decide, by decide⟩

/-! ### The strings of a decoded ticket -/

theorem validUtf8_nil : ValidUtf8 [] := ⟨[], rfl⟩

theorem mem_toList_of_lookup {entries : List (Bytes × Json)} {key : Bytes} {j : Json}
    (h : entries.lookup key = some j) : (key, j) ∈ entries := by
  obtain ⟨l₁, l₂, hsplit, -⟩ := List.lookup_eq_some_iff.mp h
  rw [hsplit]
  exact List.mem_append_right l₁ (List.mem_cons_self ..)

theorem getString_eq {j : Json} {s : Bytes} (h : getString j = some s) : j = .string s := by
  cases j with
  | string s' => rw [Option.some.inj h]
  | null => cases h
  | boolean b => cases h
  | number_integer i => cases h
  | number_float bits => cases h
  | array elements => cases h
  | object members => cases h

theorem mapM_getString {entries : List (Bytes × Json)} {strings : List (Bytes × Bytes)}
    (h : entries.mapM (fun e => (getString e.2).map fun s => (e.1, s)) = some strings) :
    entries = strings.map fun e => (e.1, .string e.2) := by
  induction entries generalizing strings with
  | nil =>
    cases h
    rfl
  | cons e es ih =>
    obtain ⟨key, j⟩ := e
    rw [List.mapM_cons] at h
    obtain ⟨d, hd, h⟩ := Option.bind_eq_some_iff.mp h
    obtain ⟨ds, hds, h⟩ := Option.bind_eq_some_iff.mp h
    obtain ⟨s, hs, rfl⟩ := Option.map_eq_some_iff.mp hd
    cases h
    have hj : j = .string s := getString_eq hs
    rw [ih hds, hj]
    rfl

theorem getStringMap_entries {j : Json} {m : StringMap} (h : getStringMap j = some m) :
    ∃ members : JsonMembers, j = .object members ∧
      ∀ e ∈ m.entries, (e.1, Json.string e.2) ∈ members.toList := by
  cases j with
  | object members =>
    obtain ⟨strings, hstrings, rfl⟩ := Option.map_eq_some_iff.mp h
    refine ⟨members, rfl, fun e he => ?_⟩
    rw [mapM_getString hstrings]
    exact List.mem_map_of_mem (f := fun e => (e.1, Json.string e.2)) (SortedAssoc.mem_ofList he)
  | null => cases h
  | boolean b => cases h
  | number_integer i => cases h
  | number_float bits => cases h
  | array elements => cases h
  | string s => cases h

section Members

variable {members : JsonMembers} (hvalid : ∀ s ∈ members.strings, ValidUtf8 s)
include hvalid

theorem value_getString_valid {key default s : Bytes} (hdefault : ValidUtf8 default)
    (h : value getString members.toList key default = some s) : ValidUtf8 s := by
  unfold value at h
  split at h
  · rename_i j hlookup
    obtain rfl := getString_eq h
    exact hvalid s (JsonMembers.strings_toList (mem_toList_of_lookup hlookup)
      (.inr (by simp [Json.strings])))
  · cases h
    exact hdefault

theorem optional_getString_valid {key : Bytes} {field : Option Bytes}
    (h : optional getString members.toList key = some field) : ∀ s ∈ field, ValidUtf8 s := by
  intro s hs
  unfold optional at h
  split at h
  · rename_i j hlookup
    obtain ⟨s', hget, rfl⟩ := Option.map_eq_some_iff.mp h
    cases hs
    obtain rfl := getString_eq hget
    exact hvalid s (JsonMembers.strings_toList (mem_toList_of_lookup hlookup)
      (.inr (by simp [Json.strings])))
  · cases h
    cases hs

theorem value_getStringMap_valid {key : Bytes} {data : StringMap}
    (h : value getStringMap members.toList key .empty = some data) :
    ∀ e ∈ data.entries, ValidUtf8 e.1 ∧ ValidUtf8 e.2 := by
  intro e he
  unfold value at h
  split at h
  · rename_i j hlookup
    obtain ⟨inner, rfl, hinner⟩ := getStringMap_entries h
    have hstring : ∀ s ∈ inner.strings, ValidUtf8 s := fun s hs =>
      hvalid s (JsonMembers.strings_toList (mem_toList_of_lookup hlookup) (.inr hs))
    exact ⟨hstring _ (JsonMembers.strings_toList (hinner e he) (.inl rfl)),
      hstring _ (JsonMembers.strings_toList (hinner e he) (.inr (by simp [Json.strings])))⟩
  · cases h
    cases he

end Members

/- What the conversion found for each field it does not compute. -/
theorem from_json_fields {nl : Nlohmann} {j : Json} {ticket : TicketInfo}
    (h : from_json nl j = some ticket) :
    ∃ members : JsonMembers, j = .object members ∧
      value getString members.toList k_ticket_id [] = some ticket.ticket_id ∧
      value getString members.toList k_command [] = some ticket.command ∧
      value getStringMap members.toList k_metadata .empty = some ticket.metadata.data ∧
      (∃ timeout : Int32, ticket.timeout = timeout.toInt64) ∧
      optional getString members.toList k_progress_msg = some ticket.progress_msg ∧
      optional getString members.toList k_payload = some ticket.payload ∧
      optional getString members.toList k_result = some ticket.result ∧
      optional getString members.toList k_error = some ticket.error := by
  cases j with
  | object members =>
    simp only [from_json, Option.bind_eq_bind, Option.bind_eq_some_iff, Option.some.injEq] at h
    obtain ⟨ticket_id, hid, command, hcommand, data, hdata, timeout, -, typeStr, -, statusStr, -,
      progress_percent, -, progress_msg, hmsg, payload, hpayload, result, hresult, error, herror,
      rfl⟩ := h
    exact ⟨members, rfl, hid, hcommand, hdata, ⟨timeout, rfl⟩, hmsg, hpayload, hresult, herror⟩
  | null => cases h
  | boolean b => cases h
  | number_integer i => cases h
  | number_float bits => cases h
  | array elements => cases h
  | string s => cases h

/- The strings were parsed ones, and the timeout is an `int`. -/
theorem from_json_valid {nl : Nlohmann} {j : Json} {ticket : TicketInfo}
    (h : from_json nl j = some ticket) (hj : ∀ s ∈ j.strings, ValidUtf8 s) :
    (∀ s ∈ ticket.strings, ValidUtf8 s) ∧ ticket.wire = ticket := by
  obtain ⟨members, rfl, hid, hcommand, hdata, ⟨timeout, htimeout⟩, hmsg, hpayload, hresult,
    herror⟩ := from_json_fields h
  have hvalid : ∀ s ∈ members.strings, ValidUtf8 s := by simpa only [Json.strings] using hj
  refine ⟨fun s hs => ?_, ?_⟩
  · simp only [TicketInfo.strings, List.mem_append, List.mem_cons, List.not_mem_nil, or_false,
      List.mem_flatMap, Option.mem_toList] at hs
    rcases hs with ((((hs | hs) | hs) | hs) | hs) | hs
    · rcases hs with rfl | rfl
      · exact value_getString_valid hvalid validUtf8_nil hid
      · exact value_getString_valid hvalid validUtf8_nil hcommand
    · obtain ⟨e, he, hs⟩ := hs
      have hpair := value_getStringMap_valid hvalid hdata e he
      rcases hs with rfl | rfl
      · exact hpair.1
      · exact hpair.2
    · exact optional_getString_valid hvalid hmsg s hs
    · exact optional_getString_valid hvalid hpayload s hs
    · exact optional_getString_valid hvalid hresult s hs
    · exact optional_getString_valid hvalid herror s hs
  · rw [TicketInfo.wire, htimeout, Int32.toInt32_toInt64, ← htimeout]

/-- Whatever the bytes: an error code, or a ticket that is printed and comes back exactly. -/
theorem decoded_roundtrip (nl : Nlohmann) (hnl : nl.Lawful) (data : Bytes)
    (hparsed : ∀ j, nl.parse data = some j → ∀ s ∈ j.strings, ValidUtf8 s)
    (hdump : ∀ ticket, (serializer nl).deserialize data = .ok ticket →
      nl.DumpsUtf8 [to_json ticket]) :
    (serializer nl).deserialize data = .error (.errc .invalid_argument) ∨
      ∃ ticket bytes, (serializer nl).deserialize data = .ok ticket ∧
        (serializer nl).serialize ticket = some bytes ∧
        (serializer nl).deserialize bytes = .ok ticket := by
  cases hticket : (nl.parse data).bind (from_json nl) with
  | none => exact .inl (by simp only [serializer, hticket])
  | some ticket =>
    obtain ⟨j, hparse, hfrom⟩ := Option.bind_eq_some_iff.mp hticket
    obtain ⟨hvalid, hwire⟩ := from_json_valid hfrom (hparsed j hparse)
    have hde : (serializer nl).deserialize data = .ok ticket := by
      simp only [serializer, hticket]
    obtain ⟨bytes, hbytes⟩ := serialize_valid
      (show nl.DumpsUtf8 ([ticket].map to_json) from hdump ticket hde)
      (List.mem_singleton_self ticket) hvalid
    obtain ⟨-, hback⟩ := deserialize_serialize hnl hbytes
    rw [hwire] at hback
    exact .inr ⟨ticket, bytes, hde, hbytes, hback⟩

theorem decoded_roundtrip_sample :
    let nl := plain [sampleTicket]
    let data := render (to_json sampleTicket)
    ∃ bytes, (serializer nl).deserialize data = .ok sampleTicket ∧
      (serializer nl).serialize sampleTicket = some bytes ∧
      (serializer nl).deserialize bytes = .ok sampleTicket := by
  intro nl data
  have hparse : nl.parse data = some (to_json sampleTicket) := by
    simp [nl, data, plain]
  have hde : (serializer nl).deserialize data = .ok sampleTicket := by
    simp only [serializer, hparse, Option.bind_some, from_json_to_json]
    decide
  obtain herror | ⟨ticket, bytes, hticket, hser, hback⟩ :=
    decoded_roundtrip nl (plain_lawful (by simp)) data (fun j hj => by
      obtain rfl := Option.some.inj (hparse.symm.trans hj)
      exact to_json_valid sampleTicket_valid) fun ticket hticket => by
      obtain rfl := Except.ok.inj (hde.symm.trans hticket)
      exact plain_dumpsUtf8 [sampleTicket]
  · rw [hde] at herror
    cases herror
  · obtain rfl := Except.ok.inj (hde.symm.trans hticket)
    exact ⟨bytes, hde, hser, hback⟩

end TicketJson

end NetworkStack
