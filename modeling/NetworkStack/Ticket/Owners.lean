import NetworkStack.Lib.Machine
import NetworkStack.Lib.Ownership
import NetworkStack.Ticket.Json
import NetworkStack.Ticket.Peer

/-!
# Peers that are moved (protocol/TicketPeer.cpp)

Any number of peers and the sockets they own. The peer inside a controller or a
worker is one of them: their moves are the moves of their members.
-/

namespace NetworkStack

open Function Ownership SocketDetail TicketFrame

/- The members of one `TicketPeer`; a null pointer is `none`. `moved` is no member: it
says that the object was moved from and has not been assigned to since. -/
structure PeerObject where
  socket : Option ℕ
  serializer : Option TicketSerializer
  closed : Bool
  moved : Bool

structure Peers where
  objects : ℕ → Option PeerObject
  sockets : ℕ → Option Socket
  nextSocket : ℕ

inductive PeerCall where
  | construct (i : ℕ) (socket : Option Socket) (serializer : Option TicketSerializer)
  | moveConstruct (i other : ℕ)
  | moveAssign (i other : ℕ)
  | goodbye (i : ℕ)
  | isConnected (i : ℕ)
  | sendFrame (i : ℕ) (ticket : TicketInfo)
  | receiveFrame (i : ℕ)
  | destroy (i : ℕ)

/- `undefined` is the use of a null or dangling pointer. -/
inductive PeerResult where
  | undefined
  | waits
  | done
  | connected (b : Bool)
  | sent (r : Outcome ℕ)
  | received (r : Except ErrorCode TicketInfo)

/-- What a move leaves behind. -/
def PeerObject.movedFrom : PeerObject := ⟨none, none, true, true⟩

namespace Peers

def initial : Peers := ⟨fun _ => none, fun _ => none, 0⟩

def put (w : Peers) (i : ℕ) (p : PeerObject) : Peers :=
  { w with objects := update w.objects i (some p) }

def setSocket (w : Peers) (k : ℕ) (s : Socket) : Peers :=
  { w with sockets := update w.sockets k (some s) }

/-- The destructor of a `std::unique_ptr<DualSocket>`. -/
def dispose (w : Peers) : Option ℕ → Peers
  | none => w
  | some k => { w with sockets := update w.sockets k none }

/-- `_socket->`; `none` when there is no such socket. -/
def deref (w : Peers) (p : PeerObject) : Option (ℕ × Socket) :=
  p.socket.bind fun k => (w.sockets k).map fun s => (k, s)

variable (nl : Nlohmann)

def construct (w : Peers) (i : ℕ) (socket : Option Socket) (serializer : Option TicketSerializer) :
    Peers :=
  let serializer := serializer.getD (TicketJson.serializer nl)
  match socket with
  | none => w.put i ⟨none, some serializer, false, false⟩
  | some s =>
    { (w.put i ⟨some w.nextSocket, some serializer, false, false⟩).setSocket w.nextSocket s with
      nextSocket := w.nextSocket + 1 }

def moveConstruct (w : Peers) (i other : ℕ) (q : PeerObject) : Peers :=
  (w.put i { q with moved := false }).put other .movedFrom

def moveAssign (w : Peers) (i other : ℕ) (p q : PeerObject) : Peers :=
  if i = other then w
  else ((w.dispose p.socket).put i { q with moved := false }).put other .movedFrom

def isConnected (w : Peers) (p : PeerObject) : Option Bool :=
  (w.deref p).map fun (_, s) => s.connected

def goodbye (w : Peers) (i : ℕ) (p : PeerObject) : Option Peers :=
  let p := { p with closed := true }
  let w := w.put i p
  (w.deref p).map fun (k, s) =>
    if s.connected then w.setSocket k { s with connected := false } else w

def sendFrame (w : Peers) (p : PeerObject) (ticket : TicketInfo) : PeerResult × Peers :=
  match p.serializer with
  | none => (.undefined, w)
  | some S =>
    match p.socket with
    | none =>
      match S.serialize ticket with
      | none => (.sent .threw, w)
      | some _ => (.sent (.returned (.error (.errc .invalid_argument))), w)
    | some k =>
      match w.sockets k with
      | none => (.undefined, w)
      | some s =>
        let (r, s) := TicketPeer.sendFrame S s ticket
        (.sent r, w.setSocket k s)

def receiveFrame (w : Peers) (p : PeerObject) : PeerResult × Peers :=
  match p.socket with
  | none => (.received (.error (.errc .invalid_argument)), w)
  | some k =>
    match w.sockets k with
    | none => (.undefined, w)
    | some s =>
      match readFrame s with
      | none => (.waits, w)
      | some (.error ec, s) => (.received (.error ec), w.setSocket k s)
      | some (.ok frame, s) =>
        match p.serializer with
        | none => (.undefined, w)
        | some S => (.received (S.deserialize frame), w.setSocket k s)

/-- `~TicketPeer`, then the destructors of the members. -/
def destroy (w : Peers) (i : ℕ) (p : PeerObject) : Option Peers :=
  (if p.closed then some w else w.goodbye i p).map fun w =>
    { w.dispose p.socket with objects := update w.objects i none }

end Peers

/-- `none`: there is no object to call, or no room for the new one. -/
def PeerCall.run (nl : Nlohmann) (w : Peers) : PeerCall → Option (PeerResult × Peers)
  | .construct i socket serializer =>
    match w.objects i with
    | none => some (.done, w.construct nl i socket serializer)
    | some _ => none
  | .moveConstruct i other =>
    match w.objects i, w.objects other with
    | none, some q => some (.done, w.moveConstruct i other q)
    | _, _ => none
  | .moveAssign i other =>
    match w.objects i, w.objects other with
    | some p, some q => some (.done, w.moveAssign i other p q)
    | _, _ => none
  | .goodbye i =>
    (w.objects i).map fun p =>
      match w.goodbye i p with
      | none => (.undefined, w)
      | some w => (.done, w)
  | .isConnected i =>
    (w.objects i).map fun p =>
      match w.isConnected p with
      | none => (.undefined, w)
      | some b => (.connected b, w)
  | .sendFrame i ticket => (w.objects i).map fun p => w.sendFrame p ticket
  | .receiveFrame i => (w.objects i).map fun p => w.receiveFrame p
  | .destroy i =>
    (w.objects i).map fun p =>
      match w.destroy i p with
      | none => (.undefined, w)
      | some w => (.done, w)

/-- There is no next call after one that has not returned or whose behaviour is undefined. -/
def PeerCall.step (nl : Nlohmann) (w : Peers) (c : PeerCall) : Option Peers :=
  match c.run nl w with
  | none => none
  | some (.undefined, _) => none
  | some (.waits, _) => none
  | some (_, w) => some w

/-! ### What is asked of a call -/

namespace PeerCall

/-- The peer the call is made on. -/
def subject : PeerCall → ℕ
  | .construct i _ _ => i
  | .moveConstruct i _ => i
  | .moveAssign i _ => i
  | .goodbye i => i
  | .isConnected i => i
  | .sendFrame i _ => i
  | .receiveFrame i => i
  | .destroy i => i

/-- A result that a moved-from peer may give. -/
def FromEmpty : PeerCall → PeerResult → Prop
  | .isConnected _, r => r = .connected false
  | .sendFrame _ _, r => ∃ ec, r = .sent (.returned (.error ec))
  | .receiveFrame _, r => ∃ ec, r = .received (.error ec)
  | _, _ => True

end PeerCall

namespace Peers

def owner (w : Peers) (i : ℕ) : Option ℕ := (w.objects i).bind PeerObject.socket

def MovedFrom (w : Peers) (i : ℕ) : Prop := ∃ p, w.objects i = some p ∧ p.moved = true

end Peers

/-- No empty pointer is dereferenced, a moved-from peer is not connected and its sends and
receives fail, and afterwards each socket has one owner at most. -/
def PeerCall.Safe (nl : Nlohmann) (w : Peers) (c : PeerCall) : Prop :=
  ∀ r t, c.run nl w = some (r, t) →
    r ≠ .undefined ∧ (w.MovedFrom c.subject → c.FromEmpty r) ∧ Exclusive t.owner

/-- The members that the call dereferences without a test are there: the socket for
`isConnected`, `goodbye` and the end of an open peer, the serializer for a send. -/
def PeerCall.HasMembers (w : Peers) : PeerCall → Prop
  | .isConnected i => ∀ p, w.objects i = some p → p.socket ≠ none
  | .goodbye i => ∀ p, w.objects i = some p → p.socket ≠ none
  | .sendFrame i _ => ∀ p, w.objects i = some p → p.serializer ≠ none
  | .destroy i => ∀ p, w.objects i = some p → p.closed = true ∨ p.socket ≠ none
  | _ => True

/-! ### The invariant -/

/-- A peer that has a socket has a serializer, and a moved-from peer has neither. -/
structure PeerObject.Whole (p : PeerObject) : Prop where
  serializer : p.socket ≠ none → p.serializer ≠ none
  moved : p.moved = true → p.socket = none ∧ p.serializer = none

structure Peers.Inv (w : Peers) : Prop where
  exclusive : Exclusive w.owner
  alive : ∀ i k, w.owner i = some k → k < w.nextSocket ∧ w.sockets k ≠ none
  whole : ∀ i p, w.objects i = some p → p.Whole

namespace Peers

variable {w : Peers} {i : ℕ} {p : PeerObject}

theorem objects_put (w : Peers) (i : ℕ) (p : PeerObject) :
    (w.put i p).objects = update w.objects i (some p) := rfl

theorem sockets_setSocket (w : Peers) (k : ℕ) (s : Socket) :
    (w.setSocket k s).sockets = update w.sockets k (some s) := rfl

theorem objects_dispose (w : Peers) (socket : Option ℕ) :
    (w.dispose socket).objects = w.objects := by cases socket <;> rfl

theorem nextSocket_dispose (w : Peers) (socket : Option ℕ) :
    (w.dispose socket).nextSocket = w.nextSocket := by cases socket <;> rfl

theorem owner_of (h : w.objects i = some p) : w.owner i = p.socket := by
  rw [owner, h, Option.bind_some]

theorem owner_of_none (h : w.objects i = none) : w.owner i = none := by
  rw [owner, h, Option.bind_none]

theorem owner_update {t : Peers} {o : Option PeerObject} (h : t.objects = update w.objects i o) :
    t.owner = update w.owner i (o.bind PeerObject.socket) := by
  funext j
  by_cases hj : j = i
  · rw [hj, update_self, owner, h, update_self]
  · rw [update_of_ne hj, owner, h, update_of_ne hj, owner]

/- Sockets of other peers are there after the socket of one peer has gone. -/
theorem Inv.alive_dispose (h : w.Inv) {j k : ℕ} (hj : w.owner j = some k) (hne : j ≠ i) :
    (w.dispose (w.owner i)).sockets k ≠ none := by
  have halive := (h.alive j k hj).2
  cases hi : w.owner i with
  | none => exact halive
  | some l =>
    have hkl : k ≠ l := fun hkl => hne (h.exclusive j i k hj (hkl ▸ hi))
    simp only [dispose]
    rw [update_of_ne hkl]
    exact halive

theorem whole_movedFrom : PeerObject.movedFrom.Whole :=
  ⟨fun h => absurd rfl h, fun _ => ⟨rfl, rfl⟩⟩

theorem whole_update {t : Peers} {o : Option PeerObject} (h : w.Inv)
    (ht : t.objects = update w.objects i o) (ho : ∀ q, o = some q → q.Whole) :
    ∀ j q, t.objects j = some q → q.Whole := by
  intro j q hj
  rw [ht] at hj
  by_cases hji : j = i
  · rw [hji, update_self] at hj
    exact ho q hj
  · rw [update_of_ne hji] at hj
    exact h.whole j q hj

/-! ### What a call does to the invariant -/

theorem initial_inv : initial.Inv := by
  refine ⟨exclusive_nothing, fun i k h => ?_, fun i p h => ?_⟩
  · cases h
  · cases h

/- Writing to a socket. -/
theorem Inv.setSocket (h : w.Inv) (k : ℕ) (s : Socket) : (w.setSocket k s).Inv := by
  refine ⟨h.exclusive, fun i l hi => ⟨(h.alive i l hi).1, ?_⟩, h.whole⟩
  rw [sockets_setSocket]
  by_cases hl : l = k
  · rw [hl, update_self]
    exact Option.some_ne_none s
  · rw [update_of_ne hl]
    exact (h.alive i l hi).2

/- Changing an object that keeps its socket. -/
theorem Inv.put (h : w.Inv) (hi : w.owner i = p.socket) (hp : p.Whole) : (w.put i p).Inv := by
  have howner : (w.put i p).owner = w.owner := by
    rw [owner_update (objects_put w i p), Option.bind_some, ← hi, update_eq_self]
  refine ⟨howner ▸ h.exclusive, fun j k hj => h.alive j k (howner ▸ hj), ?_⟩
  exact whole_update h (objects_put w i p) fun q hq => Option.some.inj hq ▸ hp

/- A new peer, with a new socket or none. -/
theorem Inv.construct (h : w.Inv) (nl : Nlohmann) (hi : w.objects i = none)
    (socket : Option Socket) (serializer : Option TicketSerializer) :
    (w.construct nl i socket serializer).Inv := by
  cases socket with
  | none =>
    exact h.put (owner_of_none hi) ⟨fun hsome => absurd rfl hsome, fun hmoved => by cases hmoved⟩
  | some s =>
    have howner : (w.construct nl i (some s) serializer).owner
        = update w.owner i (some w.nextSocket) :=
      owner_update (o := some ⟨some w.nextSocket, some _, false, false⟩) rfl
    have hold : ∀ j k, w.owner j = some k → k ≠ w.nextSocket :=
      fun j k hj => Nat.ne_of_lt (h.alive j k hj).1
    refine ⟨?_, fun j k hj => ?_, whole_update h rfl fun q hq => ?_⟩
    · rw [howner]
      exact h.exclusive.give i fun j hj => hold j _ hj rfl
    · rw [howner] at hj
      simp only [Peers.construct, sockets_setSocket]
      by_cases hji : j = i
      · rw [hji, update_self] at hj
        cases hj
        rw [update_self]
        exact ⟨Nat.lt_succ_self _, Option.some_ne_none s⟩
      · rw [update_of_ne hji] at hj
        rw [update_of_ne (hold j k hj)]
        exact ⟨Nat.lt_succ_of_lt (h.alive j k hj).1, (h.alive j k hj).2⟩
    · cases hq
      exact ⟨fun _ => Option.some_ne_none _, fun hmoved => by cases hmoved⟩

/- The members of `other` go to `i`, whose own socket, if any, is destroyed. -/
theorem Inv.pass (h : w.Inv) {other : ℕ} {q : PeerObject} (hne : i ≠ other)
    (hother : w.objects other = some q) :
    (((w.dispose (w.owner i)).put i { q with moved := false }).put other .movedFrom).Inv := by
  set mid := (w.dispose (w.owner i)).put i { q with moved := false } with hmid
  have hobjects : mid.objects = update w.objects i (some { q with moved := false }) := by
    rw [hmid, objects_put, objects_dispose]
  have howner : (mid.put other .movedFrom).owner
      = update (update w.owner i (w.owner other)) other none := by
    rw [owner_update (objects_put mid other .movedFrom), owner_update hobjects, owner_of hother]
    rfl
  have hwhole : ∀ j p, mid.objects j = some p → p.Whole := by
    refine whole_update h hobjects fun p hp => ?_
    cases hp
    exact ⟨(h.whole other q hother).serializer, fun hmoved => by cases hmoved⟩
  refine ⟨howner ▸ h.exclusive.pass hne, fun j k hj => ?_, fun j p hj => ?_⟩
  · have hsockets : (mid.put other .movedFrom).sockets = (w.dispose (w.owner i)).sockets := rfl
    have hnext : (mid.put other .movedFrom).nextSocket = w.nextSocket :=
      nextSocket_dispose w (w.owner i)
    rw [hsockets, hnext]
    rw [howner] at hj
    -- the new owner of a socket is an old one, and it was not `i`
    have hj' : j ≠ other := by
      rintro rfl
      rw [update_self] at hj
      cases hj
    rw [update_of_ne hj'] at hj
    by_cases hji : j = i
    · rw [hji, update_self] at hj
      exact ⟨(h.alive other k hj).1, h.alive_dispose hj hne.symm⟩
    · rw [update_of_ne hji] at hj
      exact ⟨(h.alive j k hj).1, h.alive_dispose hj hji⟩
  · rw [objects_put] at hj
    by_cases hjo : j = other
    · rw [hjo, update_self] at hj
      exact Option.some.inj hj ▸ whole_movedFrom
    · rw [update_of_ne hjo] at hj
      exact hwhole j p hj

/- A peer and its socket go. -/
theorem Inv.erase (h : w.Inv) (i : ℕ) :
    Inv { w.dispose (w.owner i) with objects := update w.objects i none } := by
  have howner : owner { w.dispose (w.owner i) with objects := update w.objects i none }
      = update w.owner i none := owner_update (o := none) rfl
  refine ⟨howner ▸ h.exclusive.release i, fun j k hj => ?_, whole_update h rfl fun q hq => ?_⟩
  · rw [howner] at hj
    have hji : j ≠ i := by
      rintro rfl
      rw [update_self] at hj
      cases hj
    rw [update_of_ne hji] at hj
    refine ⟨?_, h.alive_dispose hj hji⟩
    rw [show ({ w.dispose (w.owner i) with objects := update w.objects i none } : Peers).nextSocket
      = w.nextSocket from nextSocket_dispose w (w.owner i)]
    exact (h.alive j k hj).1
  · cases hq

/-! ### The members a call needs -/

theorem Inv.deref_eq_none (h : w.Inv) (hi : w.owner i = p.socket) :
    w.deref p = none ↔ p.socket = none := by
  cases hp : p.socket with
  | none => simp [deref, hp]
  | some k =>
    obtain ⟨s, hs⟩ := Option.ne_none_iff_exists'.mp (h.alive i k (hi.trans hp)).2
    simp [deref, hp, hs]

theorem Inv.isConnected_eq_none (h : w.Inv) (hi : w.objects i = some p) :
    w.isConnected p = none ↔ p.socket = none := by
  rw [isConnected, Option.map_eq_none_iff, h.deref_eq_none (owner_of hi)]

theorem Inv.close (h : w.Inv) (hi : w.objects i = some p) :
    (w.put i { p with closed := true }).Inv := by
  have howner : w.owner i = p.socket := owner_of hi
  exact h.put howner ⟨(h.whole i p hi).serializer, (h.whole i p hi).moved⟩

theorem Inv.goodbye_eq_none (h : w.Inv) (hi : w.objects i = some p) :
    w.goodbye i p = none ↔ p.socket = none := by
  have howner : (w.put i { p with closed := true }).owner i
      = PeerObject.socket { p with closed := true } := by
    rw [owner_of (show (w.put i { p with closed := true }).objects i = some _ from update_self ..)]
  rw [goodbye, Option.map_eq_none_iff, (h.close hi).deref_eq_none howner]

theorem Inv.goodbye (h : w.Inv) (hi : w.objects i = some p) {t : Peers}
    (ht : w.goodbye i p = some t) : t.Inv ∧ t.owner i = p.socket := by
  obtain ⟨⟨k, s⟩, -, rfl⟩ := Option.map_eq_some_iff.mp ht
  have hclosed := h.close hi
  have howner : (w.put i { p with closed := true }).owner i = p.socket := by
    rw [owner_of (show (w.put i { p with closed := true }).objects i = some _ from update_self ..)]
  by_cases hconnected : s.connected = true
  · simp only [hconnected, if_true]
    exact ⟨hclosed.setSocket k _, howner⟩
  · simp only [hconnected]
    exact ⟨hclosed, howner⟩

theorem Inv.destroy_eq_none (h : w.Inv) (hi : w.objects i = some p) :
    w.destroy i p = none ↔ p.closed = false ∧ p.socket = none := by
  rw [destroy, Option.map_eq_none_iff]
  cases p.closed with
  | false => simp only [Bool.false_eq_true, if_false, h.goodbye_eq_none hi, true_and]
  | true => simp

theorem Inv.destroy (h : w.Inv) (hi : w.objects i = some p) {t : Peers}
    (ht : w.destroy i p = some t) : t.Inv := by
  obtain ⟨u, hu, rfl⟩ := Option.map_eq_some_iff.mp ht
  have hmid : u.Inv ∧ u.owner i = p.socket := by
    cases hclosed : p.closed with
    | true =>
      rw [hclosed, if_pos rfl] at hu
      cases hu
      exact ⟨h, owner_of hi⟩
    | false =>
      rw [hclosed, if_neg Bool.false_ne_true] at hu
      exact h.goodbye hi hu
  rw [← hmid.2]
  exact hmid.1.erase i

theorem Inv.sendFrame (h : w.Inv) (hi : w.objects i = some p) (ticket : TicketInfo) :
    ((w.sendFrame p ticket).1 = .undefined ↔ p.serializer = none) ∧
      (w.sendFrame p ticket).2.Inv := by
  unfold Peers.sendFrame
  cases hser : p.serializer with
  | none => exact ⟨iff_of_true rfl rfl, h⟩
  | some S =>
    cases hsock : p.socket with
    | none =>
      cases hticket : S.serialize ticket with
      | none => simp [hticket, h]
      | some bytes => simp [hticket, h]
    | some k =>
      obtain ⟨s, hs⟩ :=
        Option.ne_none_iff_exists'.mp (h.alive i k ((owner_of hi).trans hsock)).2
      simp only [hs]
      refine ⟨?_, h.setSocket k _⟩
      simp

theorem Inv.receiveFrame (h : w.Inv) (hi : w.objects i = some p) :
    (w.receiveFrame p).1 ≠ .undefined ∧ (w.receiveFrame p).2.Inv := by
  unfold Peers.receiveFrame
  cases hsock : p.socket with
  | none => exact ⟨PeerResult.noConfusion, h⟩
  | some k =>
    obtain ⟨s, hs⟩ :=
      Option.ne_none_iff_exists'.mp (h.alive i k ((owner_of hi).trans hsock)).2
    obtain ⟨S, hS⟩ := Option.ne_none_iff_exists'.mp
      ((h.whole i p hi).serializer (by rw [hsock]; exact Option.some_ne_none k))
    simp only [hs]
    cases hread : readFrame s with
    | none => exact ⟨PeerResult.noConfusion, h⟩
    | some x =>
      obtain ⟨frame, s'⟩ := x
      cases frame with
      | error ec => exact ⟨PeerResult.noConfusion, h.setSocket k s'⟩
      | ok frame =>
        simp only [hS]
        exact ⟨PeerResult.noConfusion, h.setSocket k s'⟩

end Peers

namespace PeerCall

variable {nl : Nlohmann} {w : Peers} {c : PeerCall}

/- One member that must be there: `f` is undefined just when it is missing. -/
theorem undefined_map {o : Option PeerObject} {f : PeerObject → PeerResult × Peers}
    {ok : PeerObject → Prop} (hf : ∀ p, o = some p → ((f p).1 = .undefined ↔ ¬ ok p)) :
    (∃ t, o.map f = some (.undefined, t)) ↔ ¬ ∀ p, o = some p → ok p := by
  cases o with
  | none => simp
  | some p =>
    simp only [Option.map_some, Option.some.injEq, forall_eq', ← hf p rfl]
    exact ⟨fun ⟨t, ht⟩ => congrArg Prod.fst ht, fun h => ⟨(f p).2, Prod.ext h rfl⟩⟩

theorem undefined_iff (h : w.Inv) :
    (∃ t, c.run nl w = some (.undefined, t)) ↔ ¬ c.HasMembers w := by
  cases c with
  | construct i socket serializer =>
    refine iff_of_false ?_ (fun hn => hn trivial)
    rintro ⟨t, ht⟩
    cases hi : w.objects i <;> simp [run, hi] at ht
  | moveConstruct i other =>
    refine iff_of_false ?_ (fun hn => hn trivial)
    rintro ⟨t, ht⟩
    cases hi : w.objects i <;> cases ho : w.objects other <;> simp [run, hi, ho] at ht
  | moveAssign i other =>
    refine iff_of_false ?_ (fun hn => hn trivial)
    rintro ⟨t, ht⟩
    cases hi : w.objects i <;> cases ho : w.objects other <;> simp [run, hi, ho] at ht
  | goodbye i =>
    refine undefined_map fun p hp => ?_
    rw [ne_eq, not_not, ← h.goodbye_eq_none hp]
    cases w.goodbye i p <;> simp
  | isConnected i =>
    refine undefined_map fun p hp => ?_
    rw [ne_eq, not_not, ← h.isConnected_eq_none hp]
    cases w.isConnected p <;> simp
  | sendFrame i ticket =>
    refine undefined_map fun p hp => ?_
    rw [ne_eq, not_not, (h.sendFrame hp ticket).1]
  | receiveFrame i =>
    refine iff_of_false ?_ (fun hn => hn trivial)
    rintro ⟨t, ht⟩
    obtain ⟨p, hp, hpt⟩ := Option.map_eq_some_iff.mp ht
    exact (h.receiveFrame hp).1 (congrArg Prod.fst hpt)
  | destroy i =>
    refine undefined_map fun p hp => ?_
    rw [not_or, Bool.not_eq_true, ne_eq, not_not, ← h.destroy_eq_none hp]
    cases w.destroy i p <;> simp

theorem run_inv (h : w.Inv) {r : PeerResult} {t : Peers} (hr : c.run nl w = some (r, t)) :
    t.Inv := by
  cases c with
  | construct i socket serializer =>
    cases hi : w.objects i with
    | some p => simp [run, hi] at hr
    | none =>
      simp only [run, hi, Option.some.injEq, Prod.mk.injEq] at hr
      exact hr.2 ▸ h.construct nl hi socket serializer
  | moveConstruct i other =>
    cases hi : w.objects i with
    | some p => simp [run, hi] at hr
    | none =>
      cases ho : w.objects other with
      | none => simp [run, hi, ho] at hr
      | some q =>
        simp only [run, hi, ho, Option.some.injEq, Prod.mk.injEq] at hr
        have hne : i ≠ other := by
          rintro rfl
          cases hi.symm.trans ho
        have hpass := h.pass hne ho
        rw [Peers.owner_of_none hi] at hpass
        exact hr.2 ▸ hpass
  | moveAssign i other =>
    cases hi : w.objects i with
    | none => simp [run, hi] at hr
    | some p =>
      cases ho : w.objects other with
      | none => simp [run, hi, ho] at hr
      | some q =>
        simp only [run, hi, ho, Option.some.injEq, Prod.mk.injEq] at hr
        rw [← hr.2, Peers.moveAssign]
        split
        · exact h
        · rename_i hne
          have hpass := h.pass hne ho
          rw [Peers.owner_of hi] at hpass
          exact hpass
  | goodbye i =>
    obtain ⟨p, hp, hpt⟩ := Option.map_eq_some_iff.mp hr
    cases hg : w.goodbye i p with
    | none => simp only [hg, Prod.mk.injEq] at hpt; exact hpt.2 ▸ h
    | some u => simp only [hg, Prod.mk.injEq] at hpt; exact hpt.2 ▸ (h.goodbye hp hg).1
  | isConnected i =>
    obtain ⟨p, hp, hpt⟩ := Option.map_eq_some_iff.mp hr
    cases hc : w.isConnected p with
    | none => simp only [hc, Prod.mk.injEq] at hpt; exact hpt.2 ▸ h
    | some b => simp only [hc, Prod.mk.injEq] at hpt; exact hpt.2 ▸ h
  | sendFrame i ticket =>
    obtain ⟨p, hp, hpt⟩ := Option.map_eq_some_iff.mp hr
    have ht : (w.sendFrame p ticket).2 = t := congrArg Prod.snd hpt
    exact ht ▸ (h.sendFrame hp ticket).2
  | receiveFrame i =>
    obtain ⟨p, hp, hpt⟩ := Option.map_eq_some_iff.mp hr
    have ht : (w.receiveFrame p).2 = t := congrArg Prod.snd hpt
    exact ht ▸ (h.receiveFrame hp).2
  | destroy i =>
    obtain ⟨p, hp, hpt⟩ := Option.map_eq_some_iff.mp hr
    cases hd : w.destroy i p with
    | none => simp only [hd, Prod.mk.injEq] at hpt; exact hpt.2 ▸ h
    | some u => simp only [hd, Prod.mk.injEq] at hpt; exact hpt.2 ▸ h.destroy hp hd

/- What is left of a moved-from peer lets only its receives through, and they fail. -/
theorem run_fromEmpty (h : w.Inv) (hc : c.HasMembers w) (hmoved : w.MovedFrom c.subject)
    {r : PeerResult} {t : Peers} (hr : c.run nl w = some (r, t)) : c.FromEmpty r := by
  obtain ⟨p, hp, hpm⟩ := hmoved
  obtain ⟨hsocket, hserializer⟩ := (h.whole _ p hp).moved hpm
  cases c with
  | isConnected i => exact absurd hsocket (hc p hp)
  | sendFrame i ticket => exact absurd hserializer (hc p hp)
  | receiveFrame i =>
    obtain ⟨q, hq, hqt⟩ := Option.map_eq_some_iff.mp hr
    cases hp.symm.trans hq
    rw [Peers.receiveFrame, hsocket] at hqt
    exact ⟨_, (congrArg Prod.fst hqt).symm⟩
  | construct i socket serializer => trivial
  | moveConstruct i other => trivial
  | moveAssign i other => trivial
  | goodbye i => trivial
  | destroy i => trivial

theorem safe_iff (h : w.Inv) : c.Safe nl w ↔ c.HasMembers w := by
  constructor
  · intro hsafe
    by_contra hno
    obtain ⟨t, ht⟩ := (undefined_iff h).mpr hno
    exact (hsafe _ t ht).1 rfl
  · intro hc r t hr
    refine ⟨?_, fun hmoved => run_fromEmpty h hc hmoved hr, (run_inv h hr).exclusive⟩
    rintro rfl
    exact (undefined_iff h).mp ⟨t, hr⟩ hc

theorem step_run {t : Peers} (h : c.step nl w = some t) : ∃ r, c.run nl w = some (r, t) := by
  unfold step at h
  split at h
  · cases h
  · cases h
  · cases h
  · rename_i r u _ _ hrun
    exact ⟨r, Option.some.inj h ▸ hrun⟩

end PeerCall

/-- Whatever is constructed, moved, used and destroyed, and in any order: all is safe if and
only if each call finds the members it uses. -/
theorem peer_calls_safe_iff (nl : Nlohmann) (calls : List PeerCall) :
    Machine.Guarded (PeerCall.step nl) (fun w c => c.Safe nl w) .initial calls ↔
      Machine.Guarded (PeerCall.step nl) (fun w c => c.HasMembers w) .initial calls := by
  refine Machine.guarded_iff (fun w c hw => PeerCall.safe_iff hw) ?_ Peers.initial_inv
  intro w c t hw _ hstep
  obtain ⟨r, hr⟩ := PeerCall.step_run hstep
  exact PeerCall.run_inv hw hr

/- A peer is moved from and asked whether it is connected. -/
theorem moved_peer_dereferences_null :
    let nl := TicketJson.plain []
    ¬ Machine.Guarded (PeerCall.step nl) (fun w c => c.Safe nl w) .initial
      [.construct 0 (some (Socket.fresh [])) none, .moveConstruct 1 0, .isConnected 0] := by
  intro nl h
  obtain ⟨-, hmove⟩ := h
  exact ((hmove _ rfl).2 _ rfl).1 _ _ rfl |>.1 rfl

end NetworkStack
