import NetworkStack.Ticket.Info

/-!
# The JSON form of a ticket (protocol/TicketJson.cpp)

`nlohmann::json` is a parameter: how it prints and parses text is its own
business. Its values, and what the conversions of this file do with them, are
spelled out. An object is a `std::map`, so its members stand in key order;
signed and unsigned integers compare equal and are one constructor.
-/

namespace NetworkStack

mutual

inductive Json where
  | null
  | boolean (b : Bool)
  | number_integer (i : Int)
  | number_float (bits : UInt64)
  | string (s : Bytes)
  | array (elements : JsonElements)
  | object (members : JsonMembers)
  deriving DecidableEq

inductive JsonElements where
  | nil
  | cons (value : Json) (rest : JsonElements)
  deriving DecidableEq

inductive JsonMembers where
  | nil
  | cons (key : Bytes) (value : Json) (rest : JsonMembers)
  deriving DecidableEq

end

namespace JsonMembers

def toList : JsonMembers → List (Bytes × Json)
  | .nil => []
  | .cons key value rest => (key, value) :: rest.toList

def ofList : List (Bytes × Json) → JsonMembers
  | [] => .nil
  | (key, value) :: rest => .cons key value (ofList rest)

@[simp] theorem toList_ofList (entries : List (Bytes × Json)) :
    (ofList entries).toList = entries := by
  induction entries with
  | nil => rfl
  | cons e es ih => rw [ofList, toList, ih]

end JsonMembers

mutual

def Json.Sorted : Json → Prop
  | .array elements => elements.Sorted
  | .object members => SortedAssoc.Sorted members.toList ∧ members.ValuesSorted
  | _ => True

def JsonElements.Sorted : JsonElements → Prop
  | .nil => True
  | .cons value rest => value.Sorted ∧ rest.Sorted

def JsonMembers.ValuesSorted : JsonMembers → Prop
  | .nil => True
  | .cons _ value rest => value.Sorted ∧ rest.ValuesSorted

end

mutual

def Json.strings : Json → List Bytes
  | .string s => [s]
  | .array elements => elements.strings
  | .object members => members.strings
  | _ => []

def JsonElements.strings : JsonElements → List Bytes
  | .nil => []
  | .cons value rest => value.strings ++ rest.strings

def JsonMembers.strings : JsonMembers → List Bytes
  | .nil => []
  | .cons key value rest => key :: value.strings ++ rest.strings

end

theorem JsonMembers.strings_toList {members : JsonMembers} {e : Bytes × Json} {s : Bytes}
    (he : e ∈ members.toList) (hs : s = e.1 ∨ s ∈ e.2.strings) : s ∈ members.strings := by
  induction hn : members.toList generalizing members with
  | nil =>
    rw [hn] at he
    cases he
  | cons d ds ih =>
    cases members with
    | nil => cases hn
    | cons k v rest =>
      rw [toList] at he hn
      obtain ⟨-, rfl⟩ := List.cons.inj hn
      simp only [JsonMembers.strings, List.cons_append, List.mem_cons, List.mem_append]
      rcases List.mem_cons.mp he with rfl | he
      · rcases hs with rfl | hs
        · exact .inl rfl
        · exact .inr (.inl hs)
      · exact .inr (.inr (ih he rfl))

def ValidUtf8 (s : Bytes) : Prop := ∃ cs : List Char, s = cs.flatMap String.utf8EncodeChar

theorem validUtf8_of_lt {s : Bytes} (h : ∀ b ∈ s, b.toNat < 128) : ValidUtf8 s := by
  refine ⟨s.map fun b => Char.ofUInt8 b, ?_⟩
  induction s with
  | nil => rfl
  | cons b s ih =>
    have hb : (Char.ofUInt8 b).val.toNat = b.toNat := rfl
    have henc : String.utf8EncodeChar (Char.ofUInt8 b) = [b] := by
      have hlt := h b (List.mem_cons_self ..)
      simp only [String.utf8EncodeChar, hb, if_pos (show b.toNat ≤ 127 by omega),
        UInt8.ofNat_toNat]
    rw [List.map_cons, List.flatMap_cons, henc, ← ih fun c hc => h c (List.mem_cons_of_mem _ hc)]
    rfl

theorem validUtf8_ascii {s : String} (h : (s.toList.all fun c => c.toUInt8.toNat < 128) = true) :
    ValidUtf8 (ascii s) := by
  refine validUtf8_of_lt fun b hb => ?_
  obtain ⟨c, hc, rfl⟩ := List.mem_map.mp hb
  exact of_decide_eq_true (List.all_eq_true.mp h c hc)

/- `dump` throws (`none`) on a string that is not UTF-8 and `parse` on text that is
not JSON; `float_to_int` is the conversion of a double to `int`. -/
structure Nlohmann where
  dump : Json → Option Bytes
  parse : Bytes → Option Json
  float_to_int : UInt64 → Int32

/- What the documentation of `nlohmann::json` promises: text it printed parses back
to the value it was printed from, and empty text is not JSON. -/
structure Nlohmann.Lawful (nl : Nlohmann) : Prop where
  parse_dump : ∀ j text, j.Sorted → nl.dump j = some text → nl.parse text = some j
  parse_empty : nl.parse [] = none

def Nlohmann.DumpsUtf8 (nl : Nlohmann) (values : List Json) : Prop :=
  ∀ j ∈ values, (∀ s ∈ j.strings, ValidUtf8 s) → (nl.dump j).isSome

namespace TicketJson

def k_ticket_id : Bytes := ascii "ticket_id"
def k_type : Bytes := ascii "type"
def k_status : Bytes := ascii "status"
def k_command : Bytes := ascii "command"
def k_metadata : Bytes := ascii "metadata"
def k_timeout_ms : Bytes := ascii "timeout_ms"
def k_progress_percent : Bytes := ascii "progress_percent"
def k_progress_msg : Bytes := ascii "progress_msg"
def k_payload : Bytes := ascii "payload"
def k_result : Bytes := ascii "result"
def k_error : Bytes := ascii "error"

def objectOf (entries : List (Bytes × Json)) : Json :=
  .object (JsonMembers.ofList (SortedAssoc.ofList entries))

def optionalMember (key : Bytes) (value : Option Json) : List (Bytes × Json) :=
  match value with
  | some value => [(key, value)]
  | none => []

def requiredMembers (ticket : TicketInfo) : List (Bytes × Json) :=
  [(k_ticket_id, .string ticket.ticket_id),
    (k_type, .string (ticket_type_to_string ticket.type)),
    (k_status, .string (ticket_status_to_string ticket.status)),
    (k_command, .string ticket.command),
    (k_metadata, objectOf (ticket.metadata.data.entries.map fun e => (e.1, .string e.2))),
    (k_timeout_ms, .number_integer ticket.timeout.toInt32.toInt)]

def members (ticket : TicketInfo) : List (Bytes × Json) :=
  requiredMembers ticket
    ++ optionalMember k_progress_percent
      (ticket.progress_percent.map fun p => .number_integer p.toInt)
    ++ optionalMember k_progress_msg (ticket.progress_msg.map .string)
    ++ optionalMember k_payload (ticket.payload.map .string)
    ++ optionalMember k_result (ticket.result.map .string)
    ++ optionalMember k_error (ticket.error.map .string)

def to_json (ticket : TicketInfo) : Json := objectOf (members ticket)

variable (nl : Nlohmann)

/-- As `get<std::string>()`; `none` is `json::type_error`. -/
def getString : Json → Option Bytes
  | .string s => some s
  | _ => none

/-- As `get<int>()`, which takes every number and booleans. -/
def getInt : Json → Option Int32
  | .number_integer i => some (Int32.ofInt i)
  | .number_float bits => some (nl.float_to_int bits)
  | .boolean b => some (if b then 1 else 0)
  | _ => none

def getStringMap : Json → Option StringMap
  | .object members =>
    (members.toList.mapM fun e => (getString e.2).map fun s => (e.1, s)).map StringMap.ofList
  | _ => none

/-- As `j.value(key, default)` on the members of an object. -/
def value {α : Type} (get : Json → Option α) (m : List (Bytes × Json)) (key : Bytes) (default : α) :
    Option α :=
  match m.lookup key with
  | some j => get j
  | none => some default

/-- As `if (j.contains(key)) field = j[key].get<T>();`. -/
def optional {α : Type} (get : Json → Option α) (m : List (Bytes × Json)) (key : Bytes) :
    Option (Option α) :=
  match m.lookup key with
  | some j => (get j).map some
  | none => some none

def typeOf (typeStr : Bytes) : TicketType :=
  if typeStr = ascii "long" then .LONG else .SHORT

def statusOf (statusStr : Bytes) : TicketStatus :=
  if statusStr = ascii "running" then .RUNNING
  else if statusStr = ascii "completed" then .COMPLETED
  else if statusStr = ascii "failed" then .FAILED
  else if statusStr = ascii "cancelled" then .CANCELLED
  else .PENDING

/-- Every throw of the conversion is a `json::exception`, so their order is not observable. -/
def from_json : Json → Option TicketInfo
  | .object members => do
    let m := members.toList
    let ticket_id ← value getString m k_ticket_id []
    let command ← value getString m k_command []
    let data ← value getStringMap m k_metadata StringMap.empty
    let timeout ← value (getInt nl) m k_timeout_ms 0
    let typeStr ← value getString m k_type (ascii "short")
    let statusStr ← value getString m k_status (ascii "pending")
    let progress_percent ← optional (getInt nl) m k_progress_percent
    let progress_msg ← optional getString m k_progress_msg
    let payload ← optional getString m k_payload
    let result ← optional getString m k_result
    let error ← optional getString m k_error
    some ⟨ticket_id, typeOf typeStr, statusOf statusStr, command, ⟨data⟩, timeout.toInt64,
      progress_percent, progress_msg, payload, result, error⟩
  | _ => none

def serializer : TicketSerializer where
  serialize ticket := nl.dump (to_json ticket)
  deserialize data :=
    match (nl.parse data).bind (from_json nl) with
    | some ticket => .ok ticket
    | none => .error (.errc .invalid_argument)

end TicketJson

def TicketInfo.strings (ticket : TicketInfo) : List Bytes :=
  [ticket.ticket_id, ticket.command]
    ++ ticket.metadata.data.entries.flatMap (fun e => [e.1, e.2])
    ++ ticket.progress_msg.toList ++ ticket.payload.toList ++ ticket.result.toList
    ++ ticket.error.toList

namespace TicketJson

/-! ### What comes back -/

variable (nl : Nlohmann)

section Lookup

variable {entries : List (Bytes × Json)} {key l : Bytes} {v : Option Json}

theorem lookup_optionalMember_self :
    (SortedAssoc.ofList (entries ++ optionalMember key v)).lookup key
      = v.or ((SortedAssoc.ofList entries).lookup key) := by
  cases v with
  | none => simp [optionalMember]
  | some v => simp [optionalMember, SortedAssoc.ofList_concat, SortedAssoc.lookup_insert]

theorem lookup_optionalMember_ne (h : l ≠ key) :
    (SortedAssoc.ofList (entries ++ optionalMember key v)).lookup l
      = (SortedAssoc.ofList entries).lookup l := by
  cases v with
  | none => simp [optionalMember]
  | some v => simp [optionalMember, SortedAssoc.ofList_concat, SortedAssoc.lookup_insert, h]

end Lookup

theorem typeOf_to_string (type : TicketType) : typeOf (ticket_type_to_string type) = type := by
  cases type <;> decide

theorem statusOf_to_string (status : TicketStatus) :
    statusOf (ticket_status_to_string status) = status := by
  cases status <;> decide

theorem getStringMap_objectOf (m : StringMap) :
    getStringMap (objectOf (m.entries.map fun e => (e.1, .string e.2))) = some m := by
  have hsorted : SortedAssoc.Sorted (m.entries.map fun e => (e.1, Json.string e.2)) :=
    List.pairwise_map.mpr m.sorted
  have hmap : (m.entries.map fun e => (e.1, Json.string e.2)).mapM
      (fun e => (getString e.2).map fun s => (e.1, s)) = some m.entries := by
    induction m.entries with
    | nil => rfl
    | cons e es ih =>
      rw [List.map_cons, List.mapM_cons, ih]
      rfl
  simp only [objectOf, getStringMap, JsonMembers.toList_ofList, SortedAssoc.ofList_sorted hsorted,
    hmap, Option.map_some, StringMap.ofList_entries]

/- The six members are there and none of the five optional ones. -/
theorem lookup_requiredMembers (ticket : TicketInfo) :
    let m := SortedAssoc.ofList (requiredMembers ticket)
    (m.lookup k_ticket_id = some (.string ticket.ticket_id) ∧
      m.lookup k_type = some (.string (ticket_type_to_string ticket.type)) ∧
      m.lookup k_status = some (.string (ticket_status_to_string ticket.status)) ∧
      m.lookup k_command = some (.string ticket.command) ∧
      m.lookup k_metadata
        = some (objectOf (ticket.metadata.data.entries.map fun e => (e.1, .string e.2))) ∧
      m.lookup k_timeout_ms = some (.number_integer ticket.timeout.toInt32.toInt)) ∧
    m.lookup k_progress_percent = none ∧ m.lookup k_progress_msg = none ∧
      m.lookup k_payload = none ∧ m.lookup k_result = none ∧ m.lookup k_error = none :=
  ⟨⟨rfl, rfl, rfl, rfl, rfl, rfl⟩, rfl, rfl, rfl, rfl, rfl⟩

theorem lookup_members (ticket : TicketInfo) :
    let m := SortedAssoc.ofList (members ticket)
    (m.lookup k_ticket_id = some (.string ticket.ticket_id) ∧
      m.lookup k_type = some (.string (ticket_type_to_string ticket.type)) ∧
      m.lookup k_status = some (.string (ticket_status_to_string ticket.status)) ∧
      m.lookup k_command = some (.string ticket.command) ∧
      m.lookup k_metadata
        = some (objectOf (ticket.metadata.data.entries.map fun e => (e.1, .string e.2))) ∧
      m.lookup k_timeout_ms = some (.number_integer ticket.timeout.toInt32.toInt)) ∧
    m.lookup k_progress_percent
        = ticket.progress_percent.map (fun p => .number_integer p.toInt) ∧
      m.lookup k_progress_msg = ticket.progress_msg.map .string ∧
      m.lookup k_payload = ticket.payload.map .string ∧
      m.lookup k_result = ticket.result.map .string ∧
      m.lookup k_error = ticket.error.map .string := by
  obtain ⟨⟨hid, htype, hstatus, hcommand, hmeta, htimeout⟩, hpercent, hmsg, hpayload, hresult,
    herror⟩ := lookup_requiredMembers ticket
  simp (disch := decide) only [members, lookup_optionalMember_ne, lookup_optionalMember_self,
    hid, htype, hstatus, hcommand, hmeta, htimeout, hpercent, hmsg, hpayload, hresult, herror,
    Option.or_none, and_self]

theorem value_of_lookup {α : Type} {get : Json → Option α} {m : List (Bytes × Json)} {key : Bytes}
    {default : α} {j : Json} (h : m.lookup key = some j) : value get m key default = get j := by
  rw [value, h]

theorem optional_of_lookup {α : Type} {get : Json → Option α} {put : α → Json}
    (hget : ∀ a, get (put a) = some a) {m : List (Bytes × Json)} {key : Bytes} {field : Option α}
    (h : m.lookup key = field.map put) : optional get m key = some field := by
  rw [optional, h]
  cases field with
  | none => rfl
  | some a => simp [hget]

theorem getInt_number_integer (p : Int32) : getInt nl (.number_integer p.toInt) = some p := by
  simp [getInt]

/- The conversions are inverse to each other except for the width of the timeout. -/
theorem from_json_to_json (ticket : TicketInfo) :
    from_json nl (to_json ticket) = some ticket.wire := by
  obtain ⟨⟨hid, htype, hstatus, hcommand, hmeta, htimeout⟩, hpercent, hmsg, hpayload, hresult,
    herror⟩ := lookup_members ticket
  have hstring : ∀ s : Bytes, getString (.string s) = some s := fun _ => rfl
  show from_json nl (.object (JsonMembers.ofList (SortedAssoc.ofList (members ticket)))) = _
  simp only [from_json, JsonMembers.toList_ofList, value_of_lookup hid,
    value_of_lookup htype, value_of_lookup hstatus, value_of_lookup hcommand,
    value_of_lookup hmeta, value_of_lookup htimeout,
    optional_of_lookup (getInt_number_integer nl) hpercent, optional_of_lookup hstring hmsg,
    optional_of_lookup hstring hpayload, optional_of_lookup hstring hresult,
    optional_of_lookup hstring herror, hstring, getStringMap_objectOf, getInt_number_integer]
  show some _ = some _
  rw [typeOf_to_string, statusOf_to_string]
  rfl

/-! ### What is printed -/

theorem valuesSorted_ofList {entries : List (Bytes × Json)} (h : ∀ e ∈ entries, e.2.Sorted) :
    (JsonMembers.ofList entries).ValuesSorted := by
  induction entries with
  | nil => trivial
  | cons e es ih =>
    obtain ⟨k, v⟩ := e
    exact ⟨h (k, v) (List.mem_cons_self ..), ih fun e he => h e (List.mem_cons_of_mem _ he)⟩

theorem objectOf_sorted {entries : List (Bytes × Json)} (h : ∀ e ∈ entries, e.2.Sorted) :
    (objectOf entries).Sorted := by
  refine ⟨?_, valuesSorted_ofList fun e he => h e (SortedAssoc.mem_ofList he)⟩
  rw [JsonMembers.toList_ofList]
  exact SortedAssoc.sorted_ofList entries

theorem mem_optionalMember {key : Bytes} {v : Option Json} {e : Bytes × Json}
    (h : e ∈ optionalMember key v) : ∃ j, v = some j ∧ e = (key, j) := by
  cases v with
  | none => cases h
  | some j => exact ⟨j, rfl, List.mem_singleton.mp h⟩

def keys : List Bytes :=
  [k_ticket_id, k_type, k_status, k_command, k_metadata, k_timeout_ms, k_progress_percent,
    k_progress_msg, k_payload, k_result, k_error]

/- Every member has one of the keys, and a string of the ticket, an integer or the
metadata for its value. -/
theorem mem_members {ticket : TicketInfo} {e : Bytes × Json} (h : e ∈ members ticket) :
    e.1 ∈ keys ∧
      ((∃ s ∈ ticket_type_to_string ticket.type :: ticket_status_to_string ticket.status
          :: ticket.strings, e.2 = .string s) ∨
        (∃ i, e.2 = .number_integer i) ∨
        e.2 = objectOf (ticket.metadata.data.entries.map fun e => (e.1, .string e.2))) := by
  simp only [members, List.mem_append] at h
  rcases h with ((((h | h) | h) | h) | h) | h
  · simp only [requiredMembers, List.mem_cons, List.not_mem_nil, or_false] at h
    rcases h with rfl | rfl | rfl | rfl | rfl | rfl <;> simp [keys, TicketInfo.strings]
  all_goals
    obtain ⟨j, hj, rfl⟩ := mem_optionalMember h
    obtain ⟨x, hx, rfl⟩ := Option.map_eq_some_iff.mp hj
    simp [keys, TicketInfo.strings, hx]

theorem to_json_sorted (ticket : TicketInfo) : (to_json ticket).Sorted := by
  refine objectOf_sorted fun e he => ?_
  rcases (mem_members he).2 with ⟨s, -, hs⟩ | ⟨i, hi⟩ | hm
  · rw [hs]; trivial
  · rw [hi]; trivial
  · rw [hm]
    refine objectOf_sorted fun e he => ?_
    obtain ⟨x, -, rfl⟩ := List.mem_map.mp he
    trivial

theorem mem_strings_ofList {entries : List (Bytes × Json)} {s : Bytes}
    (h : s ∈ (JsonMembers.ofList entries).strings) :
    ∃ e ∈ entries, s = e.1 ∨ s ∈ e.2.strings := by
  induction entries with
  | nil => simp [JsonMembers.ofList, JsonMembers.strings] at h
  | cons e es ih =>
    obtain ⟨k, v⟩ := e
    simp only [JsonMembers.ofList, JsonMembers.strings, List.cons_append, List.mem_cons,
      List.mem_append] at h
    rcases h with h | h | h
    · exact ⟨(k, v), List.mem_cons_self .., .inl h⟩
    · exact ⟨(k, v), List.mem_cons_self .., .inr h⟩
    · obtain ⟨e, he, hs⟩ := ih h
      exact ⟨e, List.mem_cons_of_mem _ he, hs⟩

theorem mem_strings_objectOf {entries : List (Bytes × Json)} {s : Bytes}
    (h : s ∈ (objectOf entries).strings) : ∃ e ∈ entries, s = e.1 ∨ s ∈ e.2.strings := by
  obtain ⟨e, he, hs⟩ := mem_strings_ofList (by simpa only [objectOf, Json.strings] using h)
  exact ⟨e, SortedAssoc.mem_ofList he, hs⟩

theorem keys_valid : ∀ key ∈ keys, ValidUtf8 key := by
  simp only [keys, List.forall_mem_cons]
  refine ⟨?_, ?_, ?_, ?_, ?_, ?_, ?_, ?_, ?_, ?_, ?_, by simp⟩ <;>
    exact validUtf8_ascii (by decide)

theorem to_json_valid {ticket : TicketInfo} (h : ∀ s ∈ ticket.strings, ValidUtf8 s) :
    ∀ s ∈ (to_json ticket).strings, ValidUtf8 s := by
  intro s hs
  obtain ⟨e, he, hs⟩ := mem_strings_objectOf hs
  obtain ⟨hkey, hval⟩ := mem_members he
  rcases hs with rfl | hs
  · exact keys_valid _ hkey
  · rcases hval with ⟨v, hv, heq⟩ | ⟨i, heq⟩ | heq
    · rw [heq, Json.strings, List.mem_singleton] at hs
      subst hs
      simp only [List.mem_cons] at hv
      rcases hv with rfl | rfl | hv
      · cases ticket.type <;> exact validUtf8_ascii (by decide)
      · cases ticket.status <;> exact validUtf8_ascii (by decide)
      · exact h s hv
    · simp [heq, Json.strings] at hs
    · rw [heq] at hs
      obtain ⟨e, he, hs⟩ := mem_strings_objectOf hs
      obtain ⟨x, hx, rfl⟩ := List.mem_map.mp he
      have hpair : s = x.1 ∨ s = x.2 := by simpa [Json.strings] using hs
      refine h s ?_
      simp only [TicketInfo.strings, List.mem_append, List.mem_flatMap]
      exact .inl (.inl (.inl (.inl (.inr ⟨x, hx, by simpa using hpair⟩))))

variable {nl}

/- What was serialized is deserialized, with the timeout as it crossed. -/
theorem deserialize_serialize (hnl : nl.Lawful) {ticket : TicketInfo} {bytes : Bytes}
    (h : (serializer nl).serialize ticket = some bytes) :
    bytes ≠ [] ∧ (serializer nl).deserialize bytes = .ok ticket.wire := by
  have hparse := hnl.parse_dump _ _ (to_json_sorted ticket) h
  refine ⟨?_, ?_⟩
  · rintro rfl
    rw [hnl.parse_empty] at hparse
    cases hparse
  · simp only [serializer, hparse, Option.bind_some, from_json_to_json]

theorem serialize_valid {tickets : List TicketInfo} (hdump : nl.DumpsUtf8 (tickets.map to_json))
    {ticket : TicketInfo} (hmem : ticket ∈ tickets) (h : ∀ s ∈ ticket.strings, ValidUtf8 s) :
    ∃ bytes, (serializer nl).serialize ticket = some bytes :=
  Option.isSome_iff_exists.mp (hdump _ (List.mem_map_of_mem hmem) (to_json_valid h))

/-! ### Plain texts

The text `dump` prints for a value whose strings need no escapes. A library that
knows the values of some tickets and nothing else serves the closed examples. -/

mutual

def render : Json → Bytes
  | .null => ascii "null"
  | .boolean b => if b then ascii "true" else ascii "false"
  | .number_integer i => ascii (toString i)
  | .number_float _ => ascii "0.0"
  | .string s => ascii "\"" ++ s ++ ascii "\""
  | .array elements => ascii "[" ++ renderElements elements ++ ascii "]"
  | .object members => ascii "\x7b" ++ renderMembers members ++ ascii "\x7d"

def renderElements : JsonElements → Bytes
  | .nil => []
  | .cons value .nil => render value
  | .cons value rest => render value ++ ascii "," ++ renderElements rest

def renderMembers : JsonMembers → Bytes
  | .nil => []
  | .cons key value .nil => ascii "\"" ++ key ++ ascii "\":" ++ render value
  | .cons key value rest =>
    ascii "\"" ++ key ++ ascii "\":" ++ render value ++ ascii "," ++ renderMembers rest

end

def plain (tickets : List TicketInfo) : Nlohmann where
  dump j := if j ∈ tickets.map to_json then some (render j) else none
  parse text := (tickets.map to_json).find? fun j => render j = text
  float_to_int _ := 0

theorem plain_lawful {tickets : List TicketInfo}
    (h : ∀ t ∈ tickets, ∀ u ∈ tickets,
      render (to_json t) = render (to_json u) → to_json t = to_json u) :
    (plain tickets).Lawful := by
  refine ⟨fun j text _ hdump => ?_, ?_⟩
  · simp only [plain] at hdump ⊢
    split at hdump
    · rename_i hj
      cases hdump
      cases hfind : (tickets.map to_json).find? fun k => render k = render j with
      | none =>
        have := List.find?_eq_none.mp hfind j hj
        simp at this
      | some k =>
        obtain ⟨t, ht, rfl⟩ := List.mem_map.mp (List.mem_of_find?_eq_some hfind)
        obtain ⟨u, hu, rfl⟩ := List.mem_map.mp hj
        have hsame : render (to_json t) = render (to_json u) := by
          simpa using List.find?_some hfind
        rw [h t ht u hu hsame]
    · cases hdump
  · simp only [plain, List.find?_eq_none]
    intro j hj
    obtain ⟨t, -, rfl⟩ := List.mem_map.mp hj
    simp [to_json, objectOf, render, ascii]

theorem plain_serialize {tickets : List TicketInfo} {ticket : TicketInfo} {bytes : Bytes}
    (h : (serializer (plain tickets)).serialize ticket = some bytes) :
    bytes = render (to_json ticket) := by
  simp only [serializer, plain] at h
  split at h
  · exact (Option.some.inj h).symm
  · cases h

theorem plain_dumpsUtf8 (tickets : List TicketInfo) :
    (plain tickets).DumpsUtf8 (tickets.map to_json) := by
  intro j hj _
  simp only [plain, if_pos hj, Option.isSome_some]

/-! ### Every field comes back -/

/- All but the timeout, which crosses as an `int`. -/
theorem deserialize_serialize_fields (nl : Nlohmann) (hnl : nl.Lawful) (ticket : TicketInfo)
    (hdump : nl.DumpsUtf8 [to_json ticket]) (h : ∀ s ∈ ticket.strings, ValidUtf8 s) :
    ∃ bytes u, (serializer nl).serialize ticket = some bytes ∧
      (serializer nl).deserialize bytes = .ok u ∧
      u.ticket_id = ticket.ticket_id ∧ u.type = ticket.type ∧ u.status = ticket.status ∧
      u.command = ticket.command ∧ u.metadata = ticket.metadata ∧
      u.progress_percent = ticket.progress_percent ∧ u.progress_msg = ticket.progress_msg ∧
      u.payload = ticket.payload ∧ u.result = ticket.result ∧ u.error = ticket.error := by
  obtain ⟨bytes, hbytes⟩ := serialize_valid (show nl.DumpsUtf8 ([ticket].map to_json) from hdump)
    (List.mem_singleton_self ticket) h
  obtain ⟨-, hback⟩ := deserialize_serialize hnl hbytes
  exact ⟨bytes, ticket.wire, hbytes, hback, rfl, rfl, rfl, rfl, rfl, rfl, rfl, rfl, rfl, rfl⟩

/- An empty payload is there, an absent result is not. -/
def sampleTicket : TicketInfo :=
  { ticket_id := ascii "7"
    type := .LONG
    status := .RUNNING
    command := ascii "copy"
    metadata := ⟨StringMap.ofList [(ascii "to", ascii "b"), (ascii "from", ascii "a")]⟩
    timeout := 500
    progress_percent := some 40
    progress_msg := none
    payload := some []
    result := none
    error := some (ascii "slow") }

theorem sampleTicket_valid : ∀ s ∈ sampleTicket.strings, ValidUtf8 s := by
  have hstrings : sampleTicket.strings
      = [ascii "7", ascii "copy", ascii "from", ascii "a", ascii "to", ascii "b", ascii "",
          ascii "slow"] := by decide
  rw [hstrings]
  simp only [List.forall_mem_cons]
  refine ⟨?_, ?_, ?_, ?_, ?_, ?_, ?_, ?_, by simp⟩ <;> exact validUtf8_ascii (by decide)

theorem deserialize_serialize_fields_sample :
    ∃ bytes u, (serializer (plain [sampleTicket])).serialize sampleTicket = some bytes ∧
      (serializer (plain [sampleTicket])).deserialize bytes = .ok u ∧
      u.payload = some [] ∧ u.result = none := by
  obtain ⟨bytes, u, hser, hde, -, -, -, -, -, -, -, hpayload, hresult, -⟩ :=
    deserialize_serialize_fields (plain [sampleTicket]) (plain_lawful (by simp)) sampleTicket
      (plain_dumpsUtf8 [sampleTicket]) sampleTicket_valid
  exact ⟨bytes, u, hser, hde, hpayload, hresult⟩

end TicketJson

end NetworkStack
