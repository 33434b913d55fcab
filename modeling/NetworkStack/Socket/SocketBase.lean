import NetworkStack.Core.ErrorCodes
import NetworkStack.Lib.Chunked

/-!
# Sockets and their read buffer (socket/SocketBase.h, SocketBaseDetail.h)

`TcpSocket` and `TlsSocket` share one implementation, the templates of
`SocketBaseDetail.h`; the synchronous calls spawn the same coroutines and wait.
A socket is its `_read_buffer` together with what its transport will do: the
events its coming reads meet and the outcome of its coming writes. A call that
needs a transport event which has not happened yet does not return (`none`).

The read loops go through `asio::dynamic_buffer`, whose `prepare` and `commit`
resize `_read_buffer` itself, so what the vector holds between the two calls is
part of the model.
-/

namespace NetworkStack

/-- The reported code and whether the call's timer had fired. -/
structure Fault where
  ec : ErrorCode
  timed_out : Bool
  deriving DecidableEq, Repr

def timeoutFault : Fault := ⟨.asio .operation_aborted, true⟩

abbrev ReadEvent := Chunked.Event Byte Fault

/-- Outcome of one `asio::async_write`; a failed one has put `written` bytes on the stream. -/
inductive WriteEvent where
  | done
  | fail (fault : Fault) (written : ℕ)
  deriving DecidableEq, Repr

/- `reads` logs the transport reads made so far and `sent` the bytes written
so far; no function of the library looks at either. -/
structure Socket where
  connected : Bool
  readBuffer : Bytes
  incoming : List ReadEvent
  reads : List (Except ErrorCode Bytes)
  outgoing : List WriteEvent
  sent : Bytes

def Socket.fresh (incoming : List ReadEvent) : Socket := ⟨true, [], incoming, [], [], []⟩

namespace SocketDetail

def makeTimeoutError : ErrorCode := .network .CONNECTION_TIMEOUT

/-- A timer that fired turns the cancellation it caused into a timeout. -/
def faultCode (f : Fault) : ErrorCode :=
  if f.ec = .asio .operation_aborted ∧ f.timed_out = true then makeTimeoutError else f.ec

/-! ### `asio::dynamic_buffer` over a vector -/

/-- As `std::vector::resize`: new elements are zero bytes. -/
def resize (v : Bytes) (n : ℕ) : Bytes := v.take n ++ List.replicate (n - v.length) 0

def prepare (v : Bytes) (n : ℕ) : Bytes := resize v (v.length + n)

/-- Here `size` is the number of elements the vector had when the buffer was constructed. -/
def commit (v : Bytes) (size k : ℕ) : Bytes := resize v (size + min k (v.length - size))

def overwrite (v : Bytes) (size : ℕ) (bytes : Bytes) : Bytes :=
  v.take size ++ bytes ++ v.drop (size + bytes.length)

theorem prepare_eq (v : Bytes) (n : ℕ) : prepare v n = v ++ List.replicate n 0 := by
  simp [prepare, resize, List.take_of_length_le]

theorem commit_overwrite (v bytes : Bytes) (n : ℕ) :
    commit (overwrite (prepare v n) v.length bytes) v.length bytes.length = v ++ bytes := by
  have hov : overwrite (prepare v n) v.length bytes
      = (v ++ bytes) ++ List.replicate (n - bytes.length) 0 := by
    simp [overwrite, prepare_eq, List.drop_append]
  have hmin : min bytes.length (((v ++ bytes) ++ List.replicate (n - bytes.length) 0).length
      - v.length) = bytes.length := by
    simp only [List.length_append, List.length_replicate]
    omega
  rw [hov, commit, hmin, resize, ← List.length_append, List.take_left']
  · simp
  · rfl

/-! ### One transport read -/

def asyncReadWithTimeout (socket : Socket) (size n : ℕ) :
    Option (Except ErrorCode ℕ × Socket) :=
  match Chunked.read n socket.incoming with
  | none => none
  | some (.error fault, incoming) =>
    some (.error (faultCode fault),
      { socket with incoming := incoming, reads := socket.reads ++ [.error (faultCode fault)] })
  | some (.ok bytes, incoming) =>
    some (.ok bytes.length,
      { socket with
        incoming := incoming
        readBuffer := overwrite socket.readBuffer size bytes
        reads := socket.reads ++ [.ok bytes] })

/-- The step the three read loops share: prepare `n` bytes, read into them, leave
on an error or on a zero-byte read, else commit what came. Both early exits lie
between `prepare` and `commit`. -/
def pull (socket : Socket) (n : ℕ) : Option (Except ErrorCode Unit × Socket) :=
  let size := socket.readBuffer.length
  match asyncReadWithTimeout { socket with readBuffer := prepare socket.readBuffer n } size n with
  | none => none
  | some (.error ec, socket) => some (.error ec, socket)
  | some (.ok bytes, socket) =>
    if bytes = 0 then some (.error (.asio .eof), socket)
    else some (.ok (), { socket with readBuffer := commit socket.readBuffer size bytes })

/-- A transport read that ends the call: an error, or a read of zero bytes. -/
def Failed : Except ErrorCode Bytes → Prop
  | .error _ => True
  | .ok bytes => bytes = []

def delivered (reads : List (Except ErrorCode Bytes)) : Bytes :=
  reads.flatMap fun r => match r with
    | .error _ => []
    | .ok bytes => bytes

/- `t` is `s` after transport reads that all succeeded and brought `chunks`. -/
structure Gathered (s : Socket) (chunks : List Bytes) (t : Socket) : Prop where
  nonempty : ∀ c ∈ chunks, c ≠ []
  stream : Chunked.arriving s.incoming = chunks.flatten ++ Chunked.arriving t.incoming
  state : t = { s with
    readBuffer := s.readBuffer ++ chunks.flatten
    incoming := t.incoming
    reads := s.reads ++ chunks.map .ok }

/- `t` is `s` after a failed transport read into a region of `n` bytes: the
prepared region was never taken back. -/
structure Broken (n : ℕ) (s t : Socket) : Prop where
  stream : Chunked.arriving t.incoming = Chunked.arriving s.incoming
  state : ∃ bad, Failed bad ∧ t = { s with
    readBuffer := s.readBuffer ++ List.replicate n 0
    incoming := t.incoming
    reads := s.reads ++ [bad] }

theorem Gathered.refl (s : Socket) : Gathered s [] s := by
  refine ⟨by simp, by simp, ?_⟩
  simp

theorem Gathered.trans {s t u : Socket} {cs ds : List Bytes}
    (h : Gathered s cs t) (k : Gathered t ds u) : Gathered s (cs ++ ds) u := by
  refine ⟨?_, ?_, ?_⟩
  · intro c hc
    rcases List.mem_append.mp hc with hc | hc
    · exact h.nonempty c hc
    · exact k.nonempty c hc
  · rw [h.stream, k.stream, List.flatten_append, List.append_assoc]
  · have ht := h.state
    have hu := k.state
    rw [ht] at hu
    rw [hu]
    simp

theorem pull_cases {s t : Socket} {n : ℕ} {r : Except ErrorCode Unit}
    (h : pull s n = some (r, t)) :
    (r = .ok () ∧ Chunked.budget t.incoming < Chunked.budget s.incoming ∧
      ∃ bs, bs.length ≤ n ∧ Gathered s [bs] t) ∨
    ((∃ ec, r = .error ec) ∧ Broken n s t) := by
  unfold pull asyncReadWithTimeout at h
  cases hr : Chunked.read n s.incoming with
  | none => simp [hr] at h
  | some p =>
    obtain ⟨res, es⟩ := p
    cases res with
    | error fault =>
      have harr := Chunked.read_error hr
      simp only [hr, Option.some.injEq, Prod.mk.injEq] at h
      obtain ⟨rfl, rfl⟩ := h
      refine .inr ⟨⟨_, rfl⟩, by rw [harr]; rfl, .error (faultCode fault), trivial, ?_⟩
      simp only [prepare_eq]
    | ok bytes =>
      obtain ⟨hlen, harr, hbud⟩ := Chunked.read_ok hr
      simp only [hr] at h
      by_cases hz : bytes.length = 0
      · simp only [hz, if_true, Option.some.injEq, Prod.mk.injEq] at h
        obtain ⟨rfl, rfl⟩ := h
        have hnil := List.eq_nil_of_length_eq_zero hz
        refine .inr ⟨⟨_, rfl⟩, by simp [harr, hnil], .ok bytes, hnil, ?_⟩
        simp [prepare_eq, overwrite, hnil]
      · simp only [hz, if_false, Option.some.injEq, Prod.mk.injEq] at h
        obtain ⟨rfl, rfl⟩ := h
        have hne : bytes ≠ [] := fun h0 => hz (by rw [h0]; rfl)
        refine .inl ⟨rfl, hbud hne, bytes, hlen, by simp [hne], by simp [harr], ?_⟩
        simp [commit_overwrite]

theorem pull_budget {s t : Socket} {n : ℕ} (h : pull s n = some (.ok (), t)) :
    Chunked.budget t.incoming < Chunked.budget s.incoming := by
  rcases pull_cases h with ⟨-, hb, -⟩ | ⟨⟨ec, he⟩, -⟩
  · exact hb
  · cases he

/-! ### One transport write -/

/- One `asio::async_write`. A write beyond the listed outcomes succeeds. -/
def asyncWriteAllCommon (socket : Socket) (buffer : Bytes) : Except ErrorCode ℕ × Socket :=
  if socket.connected = false then (.error (.asio .not_connected), socket)
  else
    match socket.outgoing with
    | [] => (.ok buffer.length, { socket with sent := socket.sent ++ buffer })
    | .done :: rest =>
      (.ok buffer.length, { socket with outgoing := rest, sent := socket.sent ++ buffer })
    | .fail fault written :: rest =>
      (.error (faultCode fault),
        { socket with outgoing := rest, sent := socket.sent ++ buffer.take written })

def Wrote (s : Socket) (bytes : Bytes) (t : Socket) : Prop :=
  t = { s with outgoing := t.outgoing, sent := s.sent ++ bytes }

theorem writeAll_cases {s t : Socket} {buffer : Bytes} {r : Except ErrorCode ℕ}
    (hs : s.connected = true) (h : asyncWriteAllCommon s buffer = (r, t)) :
    (r = .ok buffer.length ∧ Wrote s buffer t) ∨
    (∃ ec k, r = .error ec ∧ Wrote s (buffer.take k) t) := by
  unfold asyncWriteAllCommon at h
  rw [if_neg (by simp [hs])] at h
  cases ho : s.outgoing with
  | nil =>
    simp only [ho, Prod.mk.injEq] at h
    obtain ⟨rfl, rfl⟩ := h
    exact .inl ⟨rfl, by simp [Wrote]⟩
  | cons e rest =>
    cases e with
    | done =>
      simp only [ho, Prod.mk.injEq] at h
      obtain ⟨rfl, rfl⟩ := h
      exact .inl ⟨rfl, by simp [Wrote]⟩
    | fail fault k =>
      simp only [ho, Prod.mk.injEq] at h
      obtain ⟨rfl, rfl⟩ := h
      exact .inr ⟨_, k, rfl, by simp [Wrote]⟩

theorem Wrote.trans {s t u : Socket} {xs ys : Bytes} (h : Wrote s xs t) (k : Wrote t ys u) :
    Wrote s (xs ++ ys) u := by
  unfold Wrote at h k ⊢
  rw [h] at k
  simpa using k

theorem Wrote.sent {s t : Socket} {bytes : Bytes} (h : Wrote s bytes t) :
    t.sent = s.sent ++ bytes := by
  rw [h]

theorem Wrote.connected {s t : Socket} {bytes : Bytes} (h : Wrote s bytes t) :
    t.connected = s.connected := by
  rw [h]

/-- An open socket whose coming writes all succeed. -/
def Writable (s : Socket) : Prop := s.connected = true ∧ ∀ e ∈ s.outgoing, e = .done

theorem writeAll_writable {s : Socket} (buffer : Bytes) (h : Writable s) :
    ∃ t, asyncWriteAllCommon s buffer = (.ok buffer.length, t) ∧ Wrote s buffer t ∧ Writable t := by
  obtain ⟨hconn, hdone⟩ := h
  unfold asyncWriteAllCommon
  rw [if_neg (by simp [hconn])]
  cases ho : s.outgoing with
  | nil => exact ⟨_, rfl, by simp [Wrote], hconn, by simp⟩
  | cons e rest =>
    obtain rfl : e = .done := hdone e (by simp [ho])
    exact ⟨_, rfl, by simp [Wrote], hconn, fun e he => hdone e (by simp [ho, he])⟩

end SocketDetail

end NetworkStack
