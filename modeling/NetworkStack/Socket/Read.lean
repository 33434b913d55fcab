import NetworkStack.Lib.Search
import NetworkStack.Socket.SocketBase

/-!
# The buffered read calls (`readSome`, `readExact`, `readUntil`)

The three coroutines of `SocketBaseDetail.h` and what each of them can do to
`_read_buffer`. A returned call has taken some chunks from the transport and
then either handed a prefix of the buffer out, refused without touching it, or
met a failed transport read.
-/

namespace NetworkStack.SocketDetail

open Search (search search_lt)

structure ReadCall where
  result : Except ErrorCode ℕ
  out : Bytes
  socket : Socket

/- `none` for `max_len` is `std::numeric_limits<std::size_t>::max()`, which no size
exceeds. The bytes go to the front of `out` and leave the buffer. -/
def move_data (buffer out : Bytes) (max_len : Option ℕ) : ℕ × Bytes × Bytes :=
  let most := min buffer.length out.length
  let bytes_to_copy := (max_len.map (min · most)).getD most
  (bytes_to_copy, buffer.drop bytes_to_copy,
    buffer.take bytes_to_copy ++ out.drop bytes_to_copy)

def handOut (socket : Socket) (out : Bytes) (max_len : Option ℕ) : ReadCall :=
  let (n, buffer, out) := move_data socket.readBuffer out max_len
  ⟨.ok n, out, { socket with readBuffer := buffer }⟩

def zeroFill (out : Bytes) : Bytes := List.replicate out.length 0

def asyncReadSomeCommon (socket : Socket) (out : Bytes) : Option ReadCall :=
  if socket.connected = false then some ⟨.error (.asio .not_connected), out, socket⟩
  else
    let out := zeroFill out
    if out = [] then some ⟨.ok 0, out, socket⟩
    else if socket.readBuffer = [] then
      match pull socket out.length with
      | none => none
      | some (.error ec, socket) => some ⟨.error ec, out, socket⟩
      | some (.ok (), socket) => some (handOut socket out none)
    else some (handOut socket out none)

/- The loop `readExact` and `readUntil` are written around: look at the buffer and
leave with `exit`'s answer, else pull `n` more bytes and look again. -/
def pullLoop {ρ : Type} (n : ℕ) (exit : Bytes → Option ρ) (socket : Socket) :
    Option (Except ErrorCode ρ × Socket) :=
  match exit socket.readBuffer with
  | some r => some (.ok r, socket)
  | none =>
    match _h : pull socket n with
    | none => none
    | some (.error ec, socket) => some (.error ec, socket)
    | some (.ok (), next) => pullLoop n exit next
termination_by Chunked.budget socket.incoming
decreasing_by exact pull_budget _h

def asyncReadExactCommon (socket : Socket) (out : Bytes) : Option ReadCall :=
  if socket.connected = false then some ⟨.error (.asio .not_connected), out, socket⟩
  else
    let out := zeroFill out
    let enough := fun buffer : Bytes => if buffer.length < out.length then none else some ()
    match pullLoop out.length enough socket with
    | none => none
    | some (.error ec, socket) => some ⟨.error ec, out, socket⟩
    | some (.ok (), socket) => some (handOut socket out none)

/-- Here `len` is the position behind the first byte of the delimiter and `len + 1`
bytes are moved: the code takes the delimiter to be two bytes long. -/
def asyncReadUntilCommon (socket : Socket) (out delim : Bytes) : Option ReadCall :=
  if socket.connected = false then some ⟨.error (.asio .not_connected), out, socket⟩
  else
    match pullLoop out.length (search delim) socket with
    | none => none
    | some (.error ec, socket) => some ⟨.error ec, out, socket⟩
    | some (.ok it, socket) =>
      let len := it + 1
      if len > out.length then some ⟨.error (.network .PROTOCOL_ERROR), out, socket⟩
      else some (handOut socket out (some (len + 1)))

inductive ReadOp where
  | readSome (out : Bytes)
  | readExact (out : Bytes)
  | readUntil (out delim : Bytes)

def ReadOp.out : ReadOp → Bytes
  | .readSome out => out
  | .readExact out => out
  | .readUntil out _ => out

def ReadOp.run (socket : Socket) : ReadOp → Option ReadCall
  | .readSome out => asyncReadSomeCommon socket out
  | .readExact out => asyncReadExactCommon socket out
  | .readUntil out delim => asyncReadUntilCommon socket out delim

/-! ### What a call does to the buffer -/

/- `bytes` are the first bytes of `s`'s buffer and the call moved them to the
front of its output. -/
structure Handed (s : Socket) (out bytes : Bytes) (c : ReadCall) : Prop where
  result : c.result = .ok bytes.length
  front : c.out.take bytes.length = bytes
  size : c.out.length = out.length
  buffer : s.readBuffer = bytes ++ c.socket.readBuffer
  state : c.socket = { s with readBuffer := c.socket.readBuffer }

theorem handOut_handed (s : Socket) (out : Bytes) (max_len : Option ℕ) :
    Handed s out (s.readBuffer.take (move_data s.readBuffer out max_len).1)
      (handOut s out max_len) := by
  have hle : (move_data s.readBuffer out max_len).1 ≤ min s.readBuffer.length out.length := by
    cases max_len with
    | none => simp [move_data]
    | some m =>
      simp only [move_data, Option.map_some, Option.getD_some]
      omega
  have hlen : (s.readBuffer.take (move_data s.readBuffer out max_len).1).length
      = (move_data s.readBuffer out max_len).1 := by
    rw [List.length_take]
    omega
  refine ⟨?_, ?_, ?_, ?_, rfl⟩
  · rw [hlen]; rfl
  · exact List.take_left
  · show (s.readBuffer.take (move_data s.readBuffer out max_len).1
      ++ out.drop (move_data s.readBuffer out max_len).1).length = out.length
    rw [List.length_append, hlen, List.length_drop]
    omega
  · exact (List.take_append_drop ..).symm

/-- Everything a returned read call can have done. `refused` covers the closed
socket and an output too small for the delimiter. -/
inductive Effect (s : Socket) (out : Bytes) (c : ReadCall) : Prop where
  | refused (chunks : List Bytes) (ec : ErrorCode) (gathered : Gathered s chunks c.socket)
      (result : c.result = .error ec) (untouched : c.out = out)
  | handed (chunks : List Bytes) (mid : Socket) (bytes : Bytes) (gathered : Gathered s chunks mid)
      (moved : Handed mid out bytes c)
  | broken (chunks : List Bytes) (mid : Socket) (ec : ErrorCode) (gathered : Gathered s chunks mid)
      (failure : Broken out.length mid c.socket) (result : c.result = .error ec)

theorem Handed.of_size {s : Socket} {out out' bytes : Bytes} {c : ReadCall}
    (h : Handed s out bytes c) (hl : out.length = out'.length) : Handed s out' bytes c :=
  ⟨h.result, h.front, h.size.trans hl, h.buffer, h.state⟩

@[simp] theorem length_zeroFill (out : Bytes) : (zeroFill out).length = out.length :=
  List.length_replicate

theorem readSome_effect {s : Socket} {out : Bytes} {c : ReadCall}
    (h : asyncReadSomeCommon s out = some c) : Effect s out c := by
  unfold asyncReadSomeCommon at h
  split at h
  · cases h
    exact .refused [] _ (Gathered.refl s) rfl rfl
  · simp only at h
    split at h
    · rename_i hz
      cases h
      refine .handed [] s [] (Gathered.refl s) ⟨rfl, rfl, length_zeroFill out, rfl, rfl⟩
    · split at h
      · split at h
        · cases h
        · rename_i ec t hp
          cases h
          rcases pull_cases hp with ⟨hr, -⟩ | ⟨-, hb⟩
          · cases hr
          · rw [length_zeroFill] at hb
            exact .broken [] s ec (Gathered.refl s) hb rfl
        · rename_i t hp
          cases h
          rcases pull_cases hp with ⟨-, -, bs, -, hg⟩ | ⟨⟨ec, hr⟩, -⟩
          · exact .handed [bs] t _ hg
              ((handOut_handed t (zeroFill out) none).of_size (length_zeroFill out))
          · cases hr
      · cases h
        exact .handed [] s _ (Gathered.refl s)
          ((handOut_handed s (zeroFill out) none).of_size (length_zeroFill out))

theorem pullLoop_exit {ρ : Type} {n : ℕ} {exit : Bytes → Option ρ} {s : Socket} {r : ρ}
    (h : exit s.readBuffer = some r) : pullLoop n exit s = some (.ok r, s) := by
  rw [pullLoop, h]

theorem pullLoop_pull {ρ : Type} {n : ℕ} {exit : Bytes → Option ρ} {s : Socket}
    (h : exit s.readBuffer = none) :
    pullLoop n exit s = match pull s n with
      | none => none
      | some (.error ec, t) => some (.error ec, t)
      | some (.ok (), t) => pullLoop n exit t := by
  rw [pullLoop, h]
  cases pull s n with
  | none => rfl
  | some p =>
    obtain ⟨r, t⟩ := p
    cases r <;> rfl

theorem pullLoop_cases {ρ : Type} {n : ℕ} {exit : Bytes → Option ρ} {s t : Socket}
    {r : Except ErrorCode ρ} (h : pullLoop n exit s = some (r, t)) :
    (∃ a chunks, r = .ok a ∧ exit t.readBuffer = some a ∧ Gathered s chunks t) ∨
    (∃ ec chunks mid, r = .error ec ∧ Gathered s chunks mid ∧ Broken n mid t) := by
  induction hb : Chunked.budget s.incoming using Nat.strongRecOn generalizing s with
  | _ k ih =>
    cases he : exit s.readBuffer with
    | some a =>
      rw [pullLoop_exit he] at h
      cases h
      exact .inl ⟨a, [], rfl, he, Gathered.refl _⟩
    | none =>
      rw [pullLoop_pull he] at h
      cases hp : pull s n with
      | none => simp [hp] at h
      | some p =>
        obtain ⟨r', u⟩ := p
        rcases pull_cases hp with ⟨rfl, hlt, bs, -, hg⟩ | ⟨⟨ec, rfl⟩, hbr⟩
        · simp only [hp] at h
          rcases ih _ (hb ▸ hlt) h rfl with ⟨a, cs, hr, ha, hcs⟩ | ⟨ec, cs, mid, hr, hcs, hbr⟩
          · exact .inl ⟨a, [bs] ++ cs, hr, ha, hg.trans hcs⟩
          · exact .inr ⟨ec, [bs] ++ cs, mid, hr, hg.trans hcs, hbr⟩
        · simp only [hp, Option.some.injEq, Prod.mk.injEq] at h
          obtain ⟨rfl, rfl⟩ := h
          exact .inr ⟨ec, [], s, rfl, Gathered.refl s, hbr⟩

theorem readExact_effect {s : Socket} {out : Bytes} {c : ReadCall}
    (h : asyncReadExactCommon s out = some c) : Effect s out c := by
  unfold asyncReadExactCommon at h
  split at h
  · cases h
    exact .refused [] _ (Gathered.refl s) rfl rfl
  · simp only at h
    split at h
    · cases h
    · rename_i ec t hl
      cases h
      rcases pullLoop_cases hl with ⟨a, cs, hr, -⟩ | ⟨e, cs, mid, hr, hg, hb⟩
      · cases hr
      · rw [length_zeroFill] at hb
        exact .broken cs mid ec hg hb rfl
    · rename_i t hl
      cases h
      rcases pullLoop_cases hl with ⟨a, cs, -, -, hg⟩ | ⟨e, cs, mid, hr, -⟩
      · exact .handed cs t _ hg
          ((handOut_handed t (zeroFill out) none).of_size (length_zeroFill out))
      · cases hr

theorem readUntil_effect {s : Socket} {out delim : Bytes} {c : ReadCall}
    (h : asyncReadUntilCommon s out delim = some c) : Effect s out c := by
  unfold asyncReadUntilCommon at h
  split at h
  · cases h
    exact .refused [] _ (Gathered.refl s) rfl rfl
  · split at h
    · cases h
    · rename_i ec t hl
      cases h
      rcases pullLoop_cases hl with ⟨a, cs, hr, -⟩ | ⟨e, cs, mid, hr, hg, hb⟩
      · cases hr
      · exact .broken cs mid ec hg hb rfl
    · rename_i it t hl
      rcases pullLoop_cases hl with ⟨a, cs, -, -, hg⟩ | ⟨e, cs, mid, hr, -⟩
      · simp only at h
        split at h
        · cases h
          exact .refused cs _ hg rfl rfl
        · cases h
          exact .handed cs t _ hg (handOut_handed t out _)
      · cases hr

theorem ReadOp.run_effect {s : Socket} {op : ReadOp} {c : ReadCall} (h : op.run s = some c) :
    Effect s op.out c := by
  cases op with
  | readSome out => exact readSome_effect h
  | readExact out => exact readExact_effect h
  | readUntil out delim => exact readUntil_effect h

end NetworkStack.SocketDetail
