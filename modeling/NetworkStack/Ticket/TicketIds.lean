import NetworkStack.Lib.Decimal
import NetworkStack.Lib.Search
import NetworkStack.Ticket.Peer

/-!
# Ticket ids (protocol/TicketController.cpp, socket/SocketBase.cpp)

An id is a random part of fixed length, the id of the socket and the number of the
call. The last two alone tell any two ids apart. The random part is meant for a UUID
and has its version and variant digits two and three places early.
-/

namespace NetworkStack

/-! ### The random part -/

def Hyphen (i : ℕ) : Prop := i = 8 ∨ i = 13 ∨ i = 18 ∨ i = 23

instance (i : ℕ) : Decidable (Hyphen i) := inferInstanceAs (Decidable (_ ∨ _ ∨ _ ∨ _))

/-- The byte that the loop appends at `i`. -/
def uuidByte (draws : Draws) (i : ℕ) : Byte :=
  let hex := (ascii "0123456789abcdef").toArray
  if Hyphen i then 45
  else if i = 12 then 52
  else if i = 16 then hex.getD (8 + draws.dist2) 0
  else hex.getD (draws.dist i) 0

theorem generate_uuid_eq (draws : Draws) :
    generate_uuid draws = (List.range 36).map (uuidByte draws) := rfl

@[simp] theorem length_generate_uuid (draws : Draws) : (generate_uuid draws).length = 36 := by
  rw [generate_uuid_eq, List.length_map, List.length_range]

theorem getElem?_generate_uuid (draws : Draws) {i : ℕ} (hi : i < 36) :
    (generate_uuid draws)[i]? = some (uuidByte draws i) := by
  rw [generate_uuid_eq, List.getElem?_map, List.getElem?_range hi, Option.map_some]

/-- The layout of a random UUID: groups of 8, 4, 4, 4 and 12 digits, the third of which
begins with the version and the fourth with the variant. -/
structure Version4 (uuid : Bytes) : Prop where
  length : uuid.length = 36
  hyphens : ∀ i b, uuid[i]? = some b → (b = 45 ↔ Hyphen i)
  digits : ∀ i b, uuid[i]? = some b → ¬Hyphen i → b ∈ ascii "0123456789abcdef"
  version : uuid[14]? = some 52
  variant : ∃ b ∈ ascii "89ab", uuid[19]? = some b

theorem hexDigit_mem : ∀ d : Fin 16,
    (ascii "0123456789abcdef").toArray.getD d 0 ∈ ascii "0123456789abcdef" := by decide

theorem variantDigit_mem : ∀ d : Fin 4,
    (ascii "0123456789abcdef").toArray.getD (8 + d) 0 ∈ ascii "0123456789abcdef" := by decide

theorem uuidByte_digit (draws : Draws) {i : ℕ} (hi : ¬Hyphen i) :
    uuidByte draws i ∈ ascii "0123456789abcdef" := by
  rw [uuidByte, if_neg hi]
  split
  · decide
  · split
    · exact variantDigit_mem draws.dist2
    · exact hexDigit_mem (draws.dist i)

theorem uuidByte_hyphen (draws : Draws) (i : ℕ) : uuidByte draws i = 45 ↔ Hyphen i := by
  constructor
  · intro hbyte
    by_contra hi
    have hmem := uuidByte_digit draws hi
    rw [hbyte] at hmem
    exact absurd hmem (by decide)
  · exact fun hi => if_pos hi

theorem hexDigit_four : ∀ d : Fin 16,
    (ascii "0123456789abcdef").toArray.getD d 0 = 52 ↔ d = 4 := by decide

theorem hexDigit_variant : ∀ d : Fin 16,
    (ascii "0123456789abcdef").toArray.getD d 0 ∈ ascii "89ab" ↔ 8 ≤ d ∧ d ≤ 11 := by decide

/-- The digits that a reader takes for the version and the variant are drawn like any
other. -/
theorem generate_uuid_version4_iff (draws : Draws) :
    Version4 (generate_uuid draws) ↔
      draws.dist 14 = 4 ∧ 8 ≤ draws.dist 19 ∧ draws.dist 19 ≤ 11 := by
  have h14 := getElem?_generate_uuid draws (i := 14) (by omega)
  have h19 := getElem?_generate_uuid draws (i := 19) (by omega)
  constructor
  · intro h
    have hversion := h.version
    obtain ⟨b, hb, hvariant⟩ := h.variant
    rw [h14, Option.some.injEq] at hversion
    rw [h19, Option.some.injEq] at hvariant
    rw [← hvariant] at hb
    exact ⟨(hexDigit_four _).mp hversion, (hexDigit_variant _).mp hb⟩
  · rintro ⟨hversion, hvariant⟩
    have hbyte : ∀ i b, (generate_uuid draws)[i]? = some b → b = uuidByte draws i := by
      intro i b hb
      have hi : i < 36 := by
        rw [← length_generate_uuid draws]
        exact (List.getElem?_eq_some_iff.mp hb).1
      rw [getElem?_generate_uuid draws hi] at hb
      exact (Option.some.inj hb).symm
    refine ⟨length_generate_uuid draws, ?_, ?_, ?_, ?_⟩
    · intro i b hb
      rw [hbyte i b hb]
      exact uuidByte_hyphen draws i
    · intro i b hb hi
      rw [hbyte i b hb]
      exact uuidByte_digit draws hi
    · rw [h14, Option.some.injEq]
      exact (hexDigit_four _).mpr hversion
    · exact ⟨_, (hexDigit_variant _).mpr hvariant, h19⟩

/- All draws zero: the version digit stands at index 12, in the second group. -/
theorem generate_uuid_not_version4 :
    let draws : Draws := ⟨fun _ => 0, 0⟩
    generate_uuid draws = ascii "00000000-0004-0080-0000-000000000000" ∧
      ¬∀ draws, Version4 (generate_uuid draws) := by
  intro draws
  have htext : generate_uuid draws = ascii "00000000-0004-0080-0000-000000000000" := by decide
  refine ⟨htext, fun h => ?_⟩
  have hversion := (h draws).version
  rw [htext] at hversion
  exact absurd hversion (by decide)

/-! ### The whole id -/

namespace TicketController

theorem hash_not_mem_digits (n : ℕ) : (35 : Byte) ∉ Decimal.digits n :=
  fun h => absurd (Decimal.isDigit_of_mem_digits h) (by decide)

theorem ascii_toString (n : ℕ) : ascii (toString n) = Decimal.digits n := by
  rw [ascii, Nat.toString_eq_ofList_toDigits, String.toList_ofList]
  rfl

/- Whatever the random parts are: the counter is what follows the last `#`, and the socket
stands between it and the 37 bytes in front. -/
theorem ticketIdText_inj {socketId socketId' : Bytes} {n n' : UInt64} {draws draws' : Draws}
    (h : ticketIdText socketId n draws = ticketIdText socketId' n' draws') :
    socketId = socketId' ∧ n = n' := by
  have htext : ∀ socketId (n : UInt64) draws, ticketIdText socketId n draws
      = (generate_uuid draws ++ 47 :: socketId) ++ 35 :: Decimal.digits n.toNat := by
    intro socketId n draws
    rw [ticketIdText, ascii_toString]
    have hslash : ascii "/" = [47] := rfl
    have hhash : ascii "#" = [35] := rfl
    rw [hslash, hhash, List.append_assoc, List.append_assoc, List.append_assoc,
      List.append_assoc, List.singleton_append, List.singleton_append, List.cons_append]
  rw [htext, htext] at h
  obtain ⟨hfront, hcounter⟩ :=
    Search.last_mark_inj h (hash_not_mem_digits _) (hash_not_mem_digits _)
  obtain ⟨-, hsocket⟩ := List.append_inj hfront (by simp)
  exact ⟨(List.cons.inj hsocket).2, UInt64.toNat_inj.mp (Decimal.digits_injective hcounter)⟩

/-- As the constructor does; `id` is the socket's `getId()`. -/
def construct (socket : Socket) (id : UInt32) : TicketController :=
  ⟨socket, 0, ascii (toString id.toNat)⟩

variable {ι : Type} [DecidableEq ι]

/-- The calls of a program on any number of controllers, each with the id it returns. -/
def ticketIds (controllers : ι → TicketController) : List (ι × Draws) → List (ι × Bytes)
  | [] => []
  | (i, draws) :: calls =>
    let (ticket_id, c) := (controllers i).generateTicketId draws
    (i, ticket_id) :: ticketIds (Function.update controllers i c) calls

/- The number in an id is that of the controller's calls before it. -/
theorem getElem?_ticketIds (controllers : ι → TicketController) (calls : List (ι × Draws))
    (n : ℕ) {i : ι} {ticket_id : Bytes}
    (h : (ticketIds controllers calls)[n]? = some (i, ticket_id)) :
    ∃ draws, ticket_id = ticketIdText (controllers i).socketId
      ((controllers i).ticketCounter
        + UInt64.ofNat (((ticketIds controllers calls).take n).countP (·.1 = i))) draws := by
  induction calls generalizing controllers n with
  | nil => cases h
  | cons call calls ih =>
    obtain ⟨j, draws⟩ := call
    cases n with
    | zero =>
      cases h
      exact ⟨draws, by simp⟩
    | succ n =>
      obtain ⟨draws', hid⟩ := ih _ n h
      refine ⟨draws', ?_⟩
      rw [hid, ticketIds, List.take_succ_cons, List.countP_cons]
      by_cases hij : j = i
      · subst hij
        rw [Function.update_self, if_pos (decide_eq_true rfl), UInt64.ofNat_add,
          UInt64.add_comm (UInt64.ofNat _), ← UInt64.add_assoc]
        rfl
      · rw [Function.update_of_ne (Ne.symm hij), if_neg (by simpa using hij), Nat.add_zero]
        rfl

theorem ticketIds_calls (controllers : ι → TicketController) (calls : List (ι × Draws)) :
    (ticketIds controllers calls).map Prod.fst = calls.map Prod.fst := by
  induction calls generalizing controllers with
  | nil => rfl
  | cons call calls ih => exact congrArg (call.1 :: ·) (ih _)

/- Fewer than 2^64 calls on a controller: its counter has not come round between two. -/
theorem counters_ne {log : List (ι × Bytes)} {m n : ℕ} {i : ι} {a : Bytes} (hmn : m < n)
    (ha : log[m]? = some (i, a)) (hcalls : log.countP (·.1 = i) < 2 ^ 64) :
    UInt64.ofNat ((log.take m).countP (·.1 = i))
      ≠ UInt64.ofNat ((log.take n).countP (·.1 = i)) := by
  have hm : m < log.length := (List.getElem?_eq_some_iff.mp ha).1
  have hnext : (log.take (m + 1)).countP (·.1 = i) = (log.take m).countP (·.1 = i) + 1 := by
    rw [List.take_add_one, ha, List.countP_append]
    simp
  have hle : (log.take (m + 1)).countP (·.1 = i) ≤ (log.take n).countP (·.1 = i) :=
    (List.take_prefix_take_left hmn).sublist.countP_le
  have htotal : (log.take n).countP (·.1 = i) ≤ log.countP (·.1 = i) :=
    (List.take_sublist n log).countP_le
  intro heq
  have hnat := congrArg UInt64.toNat heq
  rw [UInt64.toNat_ofNat_of_lt' (by simp only [UInt64.size]; omega),
    UInt64.toNat_ofNat_of_lt' (by simp only [UInt64.size]; omega)] at hnat
  omega

/-- Two ids that are the same have the same socket and the same counter in them, and no two
calls are like that: the counter of a controller does not come round in fewer than 2^64
calls. -/
theorem ticketIds_distinct (sockets : ι → Socket) (ids : ι → UInt32) :
    (∀ (socketId socketId' : Bytes) (n n' : UInt64) (draws draws' : Draws),
      ticketIdText socketId n draws = ticketIdText socketId' n' draws' →
        socketId = socketId' ∧ n = n') ∧
    ∀ (calls : List (ι × Draws)) (m n : ℕ) (i j : ι) (a b : Bytes), m ≠ n →
      (ticketIds (fun i => construct (sockets i) (ids i)) calls)[m]? = some (i, a) →
      (ticketIds (fun i => construct (sockets i) (ids i)) calls)[n]? = some (j, b) →
      i = j ∧ calls.countP (·.1 = i) < 2 ^ 64 ∨ ids i ≠ ids j → a ≠ b := by
  refine ⟨fun _ _ _ _ _ _ => ticketIdText_inj, ?_⟩
  intro calls m n i j a b hne ha hb hapart
  obtain ⟨draws, rfl⟩ := getElem?_ticketIds _ calls m ha
  obtain ⟨draws', rfl⟩ := getElem?_ticketIds _ calls n hb
  intro heq
  obtain ⟨hsocket, hcounter⟩ := ticketIdText_inj heq
  rcases hapart with ⟨rfl, hcalls⟩ | hids
  · have hlog : (ticketIds (fun i => construct (sockets i) (ids i)) calls).countP (·.1 = i)
        = calls.countP (·.1 = i) := by
      have hmap := congrArg (List.countP (· = i))
        (ticketIds_calls (fun i => construct (sockets i) (ids i)) calls)
      rwa [List.countP_map, List.countP_map] at hmap
    rw [← hlog] at hcalls
    rw [UInt64.add_right_inj] at hcounter
    rcases Nat.lt_or_gt_of_ne hne with hlt | hlt
    · exact counters_ne hlt ha hcalls hcounter
    · exact counters_ne hlt hb hcalls hcounter.symm
  · apply hids
    simp only [construct, ascii_toString] at hsocket
    exact UInt32.toNat_inj.mp (Decimal.digits_injective hsocket)

theorem ticketIds_distinct_pair :
    let sockets : Bool → Socket := fun _ => Socket.fresh []
    let ids : Bool → UInt32 := fun late => if late then 12 else 1
    let draws : Draws := ⟨fun _ => 0, 0⟩
    let calls := [(false, draws), (true, draws), (false, draws)]
    ∃ a b c, ticketIds (fun i => construct (sockets i) (ids i)) calls
        = [(false, a), (true, b), (false, c)] ∧ a ≠ b ∧ a ≠ c := by
  intro sockets ids draws calls
  obtain ⟨-, hdistinct⟩ := ticketIds_distinct sockets ids
  refine ⟨_, _, _, rfl, ?_, ?_⟩
  · exact hdistinct calls 0 1 false true _ _ (by decide) rfl rfl (.inr (by decide))
  · exact hdistinct calls 0 2 false false _ _ (by decide) rfl rfl
      (.inl ⟨rfl, Nat.lt_of_le_of_lt List.countP_le_length (by decide)⟩)

end TicketController

end NetworkStack
