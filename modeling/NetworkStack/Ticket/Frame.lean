import Mathlib.Algebra.Group.Nat.Defs
import NetworkStack.Lib.Framing
import NetworkStack.Socket.ReadExact

/-!
# Length-prefixed frames (protocol/TicketFrame.cpp)

A frame goes out as a four byte big-endian length and then its bytes, in two
writes; it comes back in two exact reads. The TCP and TLS overloads and their
coroutine versions have the same text, so one definition stands for each.
-/

namespace NetworkStack.TicketFrame

open SocketDetail

def length_prefix_size : ℕ := 4

def makeLengthPrefix (length : UInt32) : Bytes :=
  (List.range length_prefix_size).map fun i =>
    ((length >>> UInt32.ofNat (8 * (length_prefix_size - 1 - i))) &&& 0xFF).toUInt8

def shiftIn (buf : Bytes) : UInt32 :=
  buf.foldl (fun length b => (length <<< 8) ||| b.toUInt32) 0

/-- Returns the zeroed vector the body is read into. -/
def readLengthPrefixSync (socket : Socket) : Option (Except ErrorCode Bytes × Socket) :=
  match asyncReadExactCommon socket (List.replicate length_prefix_size 0) with
  | none => none
  | some ⟨.error ec, _, socket⟩ => some (.error ec, socket)
  | some ⟨.ok _, buf, socket⟩ => some (.ok (List.replicate (shiftIn buf).toNat 0), socket)

def readBody (socket : Socket) (lenBuf : Bytes) : Option (Except ErrorCode Bytes × Socket) :=
  match asyncReadExactCommon socket lenBuf with
  | none => none
  | some ⟨.error ec, _, socket⟩ => some (.error ec, socket)
  | some ⟨.ok _, lenBuf, socket⟩ => some (.ok lenBuf, socket)

def readFrame (socket : Socket) : Option (Except ErrorCode Bytes × Socket) :=
  match readLengthPrefixSync socket with
  | none => none
  | some (.error ec, socket) => some (.error ec, socket)
  | some (.ok lenBuf, socket) => readBody socket lenBuf

def framePrefix (frame : Bytes) : Bytes := makeLengthPrefix (UInt32.ofNat frame.length)

def writeFrame (socket : Socket) (frame : Bytes) : Except ErrorCode ℕ × Socket :=
  match asyncWriteAllCommon socket (framePrefix frame) with
  | (.error ec, socket) => (.error ec, socket)
  | (.ok prefixResult, socket) =>
    match asyncWriteAllCommon socket frame with
    | (.error ec, socket) => (.error ec, socket)
    | (.ok result, socket) => (.ok (prefixResult + result), socket)

/-! ### The length prefix -/

theorem toNat_shiftIn_step (l : UInt32) (b : Byte) :
    ((l <<< 8) ||| b.toUInt32).toNat = l.toNat % 2 ^ 24 * 256 + b.toNat := by
  have hb : b.toNat < 2 ^ 8 := b.toNat_lt
  have hl : l.toNat <<< 8 % 2 ^ 32 = (l.toNat % 2 ^ 24) <<< 8 := by
    simp only [Nat.shiftLeft_eq]
    omega
  rw [UInt32.toNat_or, UInt32.toNat_shiftLeft, UInt8.toNat_toUInt32]
  show (l.toNat <<< 8 % 2 ^ 32) ||| b.toNat = _
  rw [hl, ← Nat.shiftLeft_add_eq_or_of_lt hb, Nat.shiftLeft_eq]

theorem toNat_shiftIn (a b c d : Byte) :
    (shiftIn [a, b, c, d]).toNat
      = a.toNat * 2 ^ 24 + b.toNat * 2 ^ 16 + c.toNat * 2 ^ 8 + d.toNat := by
  have ha := a.toNat_lt
  have hb := b.toNat_lt
  have hc := c.toNat_lt
  simp only [shiftIn, List.foldl_cons, List.foldl_nil, toNat_shiftIn_step, UInt32.toNat_zero]
  omega

theorem toNat_shiftOut (n : UInt32) {k : ℕ} (hk : k < 4) :
    ((n >>> UInt32.ofNat (8 * k)) &&& 0xFF).toUInt8.toNat = n.toNat / 256 ^ k % 256 := by
  have hamount : (UInt32.ofNat (8 * k)).toNat = 8 * k := by
    rw [UInt32.toNat_ofNat_of_lt']
    simp only [UInt32.size]
    omega
  rw [UInt32.toNat_toUInt8, UInt32.toNat_and, UInt32.toNat_shiftRight, hamount,
    Nat.mod_eq_of_lt (show 8 * k < 32 by omega), Nat.shiftRight_eq_div_pow, Nat.pow_mul]
  show (n.toNat / 256 ^ k &&& 2 ^ 8 - 1) % 256 = _
  rw [Nat.and_two_pow_sub_one_eq_mod]
  omega

theorem makeLengthPrefix_eq (n : UInt32) : makeLengthPrefix n =
    [((n >>> UInt32.ofNat (8 * 3)) &&& 0xFF).toUInt8,
      ((n >>> UInt32.ofNat (8 * 2)) &&& 0xFF).toUInt8,
      ((n >>> UInt32.ofNat (8 * 1)) &&& 0xFF).toUInt8,
      ((n >>> UInt32.ofNat (8 * 0)) &&& 0xFF).toUInt8] := rfl

@[simp] theorem length_makeLengthPrefix (n : UInt32) :
    (makeLengthPrefix n).length = length_prefix_size := by
  simp [makeLengthPrefix]

theorem shiftIn_makeLengthPrefix (n : UInt32) : shiftIn (makeLengthPrefix n) = n := by
  have hn := n.toNat_lt
  apply UInt32.toNat_inj.mp
  rw [makeLengthPrefix_eq, toNat_shiftIn, toNat_shiftOut n (by omega : 3 < 4),
    toNat_shiftOut n (by omega : 2 < 4), toNat_shiftOut n (by omega : 1 < 4),
    toNat_shiftOut n (by omega : 0 < 4)]
  omega

theorem makeLengthPrefix_shiftIn {buf : Bytes} (h : buf.length = length_prefix_size) :
    makeLengthPrefix (shiftIn buf) = buf := by
  match buf, h with
  | [a, b, c, d], _ =>
    have ha := a.toNat_lt
    have hb := b.toNat_lt
    have hc := c.toNat_lt
    have hd := d.toNat_lt
    rw [makeLengthPrefix_eq]
    simp only [List.cons.injEq, ← UInt8.toNat_inj, toNat_shiftOut _ (by omega : 3 < 4),
      toNat_shiftOut _ (by omega : 2 < 4), toNat_shiftOut _ (by omega : 1 < 4),
      toNat_shiftOut _ (by omega : 0 < 4), toNat_shiftIn]
    refine ⟨?_, ?_, ?_, ?_, trivial⟩ <;> omega

/-! ### Frames as a prefix code -/

def encodeFrame (frame : Bytes) : Bytes := framePrefix frame ++ frame

def Fits (frame : Bytes) : Prop := frame.length < 2 ^ 32

instance (frame : Bytes) : Decidable (Fits frame) := inferInstanceAs (Decidable (_ < _))

@[simp] theorem length_framePrefix (frame : Bytes) :
    (framePrefix frame).length = length_prefix_size :=
  length_makeLengthPrefix _

theorem encodeFrame_ne_nil (frame : Bytes) : encodeFrame frame ≠ [] := by
  intro h
  have := congrArg List.length h
  simp [encodeFrame, length_prefix_size] at this

theorem shiftIn_framePrefix {frame : Bytes} (h : Fits frame) :
    (shiftIn (framePrefix frame)).toNat = frame.length := by
  rw [framePrefix, shiftIn_makeLengthPrefix, UInt32.toNat_ofNat_of_lt']
  exact h

theorem encodeFrame_prefixCode : Framing.PrefixCode Fits encodeFrame := by
  intro f g x y hf hg h
  simp only [encodeFrame, List.append_assoc] at h
  obtain ⟨hpre, hrest⟩ := List.append_inj h (by simp)
  have hlen : f.length = g.length := by
    rw [← shiftIn_framePrefix hf, ← shiftIn_framePrefix hg, hpre]
  exact List.append_inj hrest hlen

theorem encodeFrame_stub_nil : Framing.Stub Fits encodeFrame [] :=
  Framing.stub_nil (by decide : Fits []) (encodeFrame_ne_nil [])

theorem encodeFrame_front {frame x : Bytes} {frames : List Bytes} (hfits : Fits frame)
    (hall : ∀ f ∈ frames, Fits f) (h : encodeFrame frame ++ x = frames.flatMap encodeFrame) :
    ∃ later, frames = frame :: later ∧ x = later.flatMap encodeFrame := by
  have h' : encodeFrame frame ++ x = frames.flatMap encodeFrame ++ [] := by
    rw [h, List.append_nil]
  obtain ⟨later, hlater, hx⟩ :=
    encodeFrame_prefixCode.front hfits hall encodeFrame_stub_nil h'
  exact ⟨later, hlater, hx.trans (List.append_nil _)⟩

/-! ### Reading one frame -/

theorem readLengthPrefix_readOnly {s t : Socket} {r : Except ErrorCode Bytes}
    (h : readLengthPrefixSync s = some (r, t)) : ReadOnly s t := by
  unfold readLengthPrefixSync at h
  split at h
  · cases h
  · rename_i hc
    cases h
    exact @ReadOp.run_readOnly _ (.readExact _) _ hc
  · rename_i hc
    cases h
    exact @ReadOp.run_readOnly _ (.readExact _) _ hc

theorem readBody_readOnly {s t : Socket} {lenBuf : Bytes} {r : Except ErrorCode Bytes}
    (h : readBody s lenBuf = some (r, t)) : ReadOnly s t := by
  unfold readBody at h
  split at h
  · cases h
  · rename_i hc
    cases h
    exact @ReadOp.run_readOnly _ (.readExact _) _ hc
  · rename_i hc
    cases h
    exact @ReadOp.run_readOnly _ (.readExact _) _ hc

theorem readLengthPrefix_ok {s t : Socket} {lenBuf : Bytes} (hs : s.connected = true)
    (h : readLengthPrefixSync s = some (.ok lenBuf, t)) :
    ∃ buf, buf.length = length_prefix_size ∧ lenBuf = List.replicate (shiftIn buf).toNat 0 ∧
      Took s buf t := by
  unfold readLengthPrefixSync at h
  split at h
  · cases h
  · cases h
  · rename_i n buf u hc
    cases h
    rcases readExact_cases hs hc with ⟨-, hlen, htook⟩ | ⟨ec, cs, mid, hr, -⟩
    · exact ⟨buf, by simpa using hlen, rfl, htook⟩
    · cases hr

theorem readBody_ok {s t : Socket} {lenBuf frame : Bytes} (hs : s.connected = true)
    (h : readBody s lenBuf = some (.ok frame, t)) :
    frame.length = lenBuf.length ∧ Took s frame t := by
  unfold readBody at h
  split at h
  · cases h
  · cases h
  · rename_i n out u hc
    cases h
    rcases readExact_cases hs hc with ⟨-, hlen, htook⟩ | ⟨ec, cs, mid, hr, -⟩
    · exact ⟨hlen, htook⟩
    · cases hr

theorem readFrame_cases {s t : Socket} {r : Except ErrorCode Bytes}
    (h : readFrame s = some (r, t)) :
    (∃ ec, r = .error ec ∧ readLengthPrefixSync s = some (.error ec, t)) ∨
    (∃ lenBuf mid, readLengthPrefixSync s = some (.ok lenBuf, mid) ∧
      readBody mid lenBuf = some (r, t)) := by
  unfold readFrame at h
  split at h
  · cases h
  · rename_i ec u hp
    cases h
    exact .inl ⟨ec, rfl, hp⟩
  · rename_i lenBuf mid hp
    exact .inr ⟨lenBuf, mid, hp, h⟩

theorem readFrame_readOnly {s t : Socket} {r : Except ErrorCode Bytes}
    (h : readFrame s = some (r, t)) : ReadOnly s t := by
  rcases readFrame_cases h with ⟨ec, -, hp⟩ | ⟨lenBuf, mid, hp, hb⟩
  · exact readLengthPrefix_readOnly hp
  · exact (readLengthPrefix_readOnly hp).trans (readBody_readOnly hb)

/- The four bytes read first are the prefix of the frame they announce. -/
theorem framePrefix_of_length {buf frame : Bytes} (hbuf : buf.length = length_prefix_size)
    (hlen : frame.length = (shiftIn buf).toNat) : Fits frame ∧ framePrefix frame = buf := by
  refine ⟨?_, ?_⟩
  · rw [Fits, hlen]
    exact (shiftIn buf).toNat_lt
  · rw [framePrefix, hlen, UInt32.ofNat_toNat, makeLengthPrefix_shiftIn hbuf]

theorem readFrame_ok {s t : Socket} {frame : Bytes} (hs : s.connected = true)
    (h : readFrame s = some (.ok frame, t)) : Fits frame ∧ Took s (encodeFrame frame) t := by
  rcases readFrame_cases h with ⟨ec, hr, -⟩ | ⟨lenBuf, mid, hp, hb⟩
  · cases hr
  · obtain ⟨buf, hbuf, rfl, htook⟩ := readLengthPrefix_ok hs hp
    obtain ⟨hlen, htook'⟩ := readBody_ok (htook.state.connected.trans hs) hb
    rw [List.length_replicate] at hlen
    obtain ⟨hfits, hpre⟩ := framePrefix_of_length hbuf hlen
    refine ⟨hfits, ?_⟩
    rw [encodeFrame, hpre]
    exact htook.trans htook'

theorem readLengthPrefix_steady {s : Socket} (hs : s.connected = true)
    (hst : Chunked.Steady s.incoming) (hlen : length_prefix_size ≤ (unread s).length) :
    ∃ lenBuf t, readLengthPrefixSync s = some (.ok lenBuf, t) ∧ Chunked.Steady t.incoming := by
  have hout : (List.replicate length_prefix_size (0 : Byte)).length ≤ (unread s).length := by
    simpa using hlen
  obtain ⟨⟨r, buf, t⟩, hc, hr, ht⟩ := readExact_steady hs hst hout
  simp only at hr
  subst hr
  exact ⟨List.replicate (shiftIn buf).toNat 0, t, by simp only [readLengthPrefixSync, hc], ht⟩

theorem readBody_steady {s : Socket} {lenBuf : Bytes} (hs : s.connected = true)
    (hst : Chunked.Steady s.incoming) (hlen : lenBuf.length ≤ (unread s).length) :
    ∃ frame t, readBody s lenBuf = some (.ok frame, t) ∧ Chunked.Steady t.incoming := by
  obtain ⟨⟨r, out, t⟩, hc, hr, ht⟩ := readExact_steady hs hst hlen
  simp only at hr
  subst hr
  exact ⟨out, t, by simp only [readBody, hc], ht⟩

/- On a steady transport `readFrame` returns the frame the unread stream starts
with and leaves the bytes behind it, buffered or still to come. -/
theorem readFrame_steady {s : Socket} {frame rest : Bytes} (hs : s.connected = true)
    (hst : Chunked.Steady s.incoming) (hfits : Fits frame)
    (hstream : unread s = encodeFrame frame ++ rest) :
    ∃ t, readFrame s = some (.ok frame, t) ∧ Chunked.Steady t.incoming ∧ ReadOnly s t ∧
      unread t = rest := by
  have hlen : (unread s).length = length_prefix_size + frame.length + rest.length := by
    rw [hstream, encodeFrame, List.length_append, List.length_append, length_framePrefix]
  obtain ⟨lenBuf, mid, hp, hst'⟩ := readLengthPrefix_steady hs hst (by omega)
  obtain ⟨buf, hbuf, rfl, htook⟩ := readLengthPrefix_ok hs hp
  -- the prefix read is the frame's own, so the body read asks for its length
  have hpre : buf = framePrefix frame ∧ unread mid = frame ++ rest := by
    have h := htook.stream.symm.trans hstream
    rw [encodeFrame, List.append_assoc] at h
    exact List.append_inj h (by rw [hbuf, length_framePrefix])
  have hmid : mid.connected = true := htook.state.connected.trans hs
  have henough : (List.replicate (shiftIn buf).toNat (0 : Byte)).length ≤ (unread mid).length := by
    rw [List.length_replicate, hpre.1, shiftIn_framePrefix hfits, hpre.2, List.length_append]
    omega
  obtain ⟨out, t, hb, ht⟩ := readBody_steady hmid hst' henough
  obtain ⟨hout, htook'⟩ := readBody_ok hmid hb
  have hbody : out = frame ∧ unread t = rest := by
    refine List.append_inj (htook'.stream.symm.trans hpre.2) ?_
    rw [hout, List.length_replicate, hpre.1, shiftIn_framePrefix hfits]
  refine ⟨t, ?_, ht, htook.state.trans htook'.state, hbody.2⟩
  rw [readFrame, hp]
  simp only
  rw [hb, hbody.1]

/-! ### Runs of frames -/

theorem readFrame_silent {s : Socket} (hs : s.connected = true) (hst : Chunked.Steady s.incoming)
    (h : unread s = []) : readFrame s = none := by
  have hprefix := readExact_silent hs hst
    (show List.replicate length_prefix_size (0 : Byte) ≠ [] by decide) h
  simp only [readFrame, readLengthPrefixSync, hprefix]

theorem writeFrame_writable {s : Socket} (frame : Bytes) (h : Writable s) :
    ∃ t, writeFrame s frame = (.ok (length_prefix_size + frame.length), t) ∧
      Wrote s (encodeFrame frame) t ∧ Writable t := by
  obtain ⟨mid, hp, hmid, hw⟩ := writeAll_writable (framePrefix frame) h
  obtain ⟨t, hb, ht, hw'⟩ := writeAll_writable frame hw
  refine ⟨t, ?_, hmid.trans ht, hw'⟩
  simp only [writeFrame, hp, hb, length_framePrefix]

def writeFrames (s : Socket) : List Bytes → Socket
  | [] => s
  | frame :: frames => writeFrames (writeFrame s frame).2 frames

def readFrames (s : Socket) : ℕ → Option (List (Except ErrorCode Bytes) × Socket)
  | 0 => some ([], s)
  | n + 1 =>
    match readFrame s with
    | none => none
    | some (r, t) => (readFrames t n).map fun (rs, u) => (r :: rs, u)

theorem writeFrames_writable {s : Socket} (frames : List Bytes) (h : Writable s) :
    Wrote s (frames.flatMap encodeFrame) (writeFrames s frames) := by
  induction frames generalizing s with
  | nil => simp [writeFrames, Wrote]
  | cons frame frames ih =>
    obtain ⟨t, hf, ht, hw⟩ := writeFrame_writable frame h
    rw [writeFrames, hf, List.flatMap_cons]
    exact ht.trans (ih hw)

theorem readFrames_steady {s : Socket} {frames : List Bytes} (hs : s.connected = true)
    (hst : Chunked.Steady s.incoming) (hfits : ∀ f ∈ frames, Fits f)
    (hstream : unread s = frames.flatMap encodeFrame) {k : ℕ} (hk : k ≤ frames.length) :
    ∃ t, readFrames s k = some ((frames.take k).map .ok, t) ∧
      unread t = (frames.drop k).flatMap encodeFrame := by
  induction k generalizing s frames with
  | zero => exact ⟨s, rfl, hstream⟩
  | succ k ih =>
    cases frames with
    | nil => simp at hk
    | cons frame frames =>
      rw [List.flatMap_cons] at hstream
      obtain ⟨t, hread, hst', honly, hrest⟩ :=
        readFrame_steady hs hst (hfits frame (List.mem_cons_self ..)) hstream
      obtain ⟨u, hreads, hu⟩ := ih (honly.connected.trans hs) hst'
        (fun f hf => hfits f (List.mem_cons_of_mem _ hf)) hrest (by simpa using hk)
      exact ⟨u, by simp [readFrames, hread, hreads], hu⟩

/-- Frames written one after another come back one after another, however the
stream is cut into chunks and whatever part of it `r` has buffered already. After
`k` reads, the buffer and the bytes still to come are exactly the later frames. -/
theorem readFrames_writeFrames (w r : Socket) (frames chunks : List Bytes) (k : ℕ)
    (hw : Writable w) (hr : r.connected = true) (hfits : ∀ f ∈ frames, Fits f)
    (hchunks : ∀ c ∈ chunks, c ≠ []) (hin : r.incoming = Chunked.ofChunks chunks)
    (hcut : w.sent ++ (r.readBuffer ++ chunks.flatten) = (writeFrames w frames).sent)
    (hk : k ≤ frames.length) :
    ∃ t, readFrames r k = some ((frames.take k).map .ok, t) ∧
      t.readBuffer ++ Chunked.arriving t.incoming = (frames.drop k).flatMap encodeFrame := by
  have hstream : unread r = frames.flatMap encodeFrame := by
    rw [writeFrames_writable frames hw] at hcut
    rw [unread, hin, Chunked.arriving_ofChunks]
    exact List.append_cancel_left hcut
  exact readFrames_steady hr (hin ▸ Chunked.steady_ofChunks hchunks) hfits hstream hk

/- An empty frame and a one byte frame, cut inside the second prefix. -/
theorem readFrames_writeFrames_two :
    ∃ t, readFrames (Socket.fresh (Chunked.ofChunks [[0, 0, 0, 0, 0], [0, 0, 1, 7]])) 2
        = some ([.ok [], .ok [7]], t) ∧
      t.readBuffer ++ Chunked.arriving t.incoming = [] := by
  have h := readFrames_writeFrames (Socket.fresh []) (Socket.fresh (Chunked.ofChunks
    [[0, 0, 0, 0, 0], [0, 0, 1, 7]])) [[], [7]] [[0, 0, 0, 0, 0], [0, 0, 1, 7]] 2
    ⟨rfl, by simp [Socket.fresh]⟩ rfl (by simp [Fits]) (by simp) rfl (by decide) (by simp)
  exact h

/-! ### What a write puts on the stream -/

theorem writeFrame_put {s : Socket} (frame : Bytes) (hs : s.connected = true) :
    ∃ k, Wrote s ((encodeFrame frame).take k) (writeFrame s frame).2 := by
  unfold writeFrame
  cases hp : asyncWriteAllCommon s (framePrefix frame) with
  | mk r mid =>
    rcases writeAll_cases hs hp with ⟨rfl, hmid⟩ | ⟨ec, k, rfl, hmid⟩
    · cases hb : asyncWriteAllCommon mid frame with
      | mk r t =>
        rcases writeAll_cases (hmid.connected.trans hs) hb with ⟨rfl, ht⟩ | ⟨ec, k, rfl, ht⟩
        · refine ⟨(encodeFrame frame).length, ?_⟩
          rw [List.take_length, encodeFrame]
          simpa only [hb] using hmid.trans ht
        · refine ⟨(framePrefix frame).length + k, ?_⟩
          have htake : (encodeFrame frame).take ((framePrefix frame).length + k)
              = framePrefix frame ++ frame.take k := by
            rw [encodeFrame, List.take_length_add_append]
          rw [htake]
          simpa only [hb] using hmid.trans ht
    · -- the prefix write failed, so at most the prefix is on the stream
      refine ⟨min k (framePrefix frame).length, ?_⟩
      have htake : (encodeFrame frame).take (min k (framePrefix frame).length)
          = (framePrefix frame).take k := by
        rw [encodeFrame, List.take_append_of_le_length (Nat.min_le_right ..),
          ← List.take_eq_take_min]
      rw [htake]
      exact hmid

/- Also on a closed socket. -/
theorem writeFrame_sent (s : Socket) (frame : Bytes) :
    ∃ part, part <+: encodeFrame frame ∧ (writeFrame s frame).2.sent = s.sent ++ part := by
  by_cases hs : s.connected = true
  · obtain ⟨k, hput⟩ := writeFrame_put frame hs
    exact ⟨_, List.take_prefix .., hput.sent⟩
  · refine ⟨[], List.nil_prefix, ?_⟩
    rw [writeFrame, asyncWriteAllCommon, if_pos (by simpa using hs), List.append_nil]

/-! ### Lengths that do not fit the prefix -/

theorem writeFrame_ok {s t : Socket} {frame : Bytes} {n : ℕ}
    (h : writeFrame s frame = (.ok n, t)) :
    s.connected = true ∧ t.sent = s.sent ++ (framePrefix frame ++ frame) := by
  have hs : s.connected = true := by
    by_contra hs
    rw [writeFrame, asyncWriteAllCommon, if_pos (by simpa using hs)] at h
    cases h
  refine ⟨hs, ?_⟩
  unfold writeFrame at h
  cases hp : asyncWriteAllCommon s (framePrefix frame) with
  | mk r mid =>
    rcases writeAll_cases hs hp with ⟨rfl, hmid⟩ | ⟨ec, k, rfl, -⟩
    · rw [hp] at h
      cases hb : asyncWriteAllCommon mid frame with
      | mk r u =>
        rcases writeAll_cases (hmid.connected.trans hs) hb with ⟨rfl, hu⟩ | ⟨ec, k, rfl, -⟩
        · simp only [hb] at h
          cases h
          rw [hu.sent, hmid.sent, List.append_assoc]
        · simp only [hb] at h
          cases h
    · rw [hp] at h
      cases h

/-- `Ok` means that the first four bytes announce the others, and a frame too long for them
is refused with nothing written. -/
structure WritesAnnounced (s : Socket) (frame : Bytes) : Prop where
  announced : ∀ n t, writeFrame s frame = (.ok n, t) →
    ∃ lengthPrefix body, t.sent = s.sent ++ (lengthPrefix ++ body) ∧
      lengthPrefix.length = length_prefix_size ∧ (shiftIn lengthPrefix).toNat = body.length
  refused : ¬Fits frame →
    (∃ ec, (writeFrame s frame).1 = .error ec) ∧ (writeFrame s frame).2.sent = s.sent

/-- Not even the prefix of a frame gets out. -/
def Unwritable (s : Socket) : Prop :=
  s.connected = false ∨ ∃ fault rest, s.outgoing = .fail fault 0 :: rest

theorem writeFrame_unwritable {s : Socket} (frame : Bytes) (h : Unwritable s) :
    (∃ ec, (writeFrame s frame).1 = .error ec) ∧ (writeFrame s frame).2.sent = s.sent := by
  by_cases hs : s.connected = false
  · have hwrite : writeFrame s frame = (.error (.asio .not_connected), s) := by
      rw [writeFrame, asyncWriteAllCommon, if_pos hs]
    rw [hwrite]
    exact ⟨⟨_, rfl⟩, rfl⟩
  · obtain ⟨fault, rest, hout⟩ := h.resolve_left hs
    have hwrite : writeFrame s frame = (.error (faultCode fault),
        { s with outgoing := rest, sent := s.sent ++ (framePrefix frame).take 0 }) := by
      rw [writeFrame, asyncWriteAllCommon, if_neg hs, hout]
    rw [hwrite]
    exact ⟨⟨_, rfl⟩, by simp⟩

/- Everywhere else something of the frame is on the stream after the call. -/
theorem writeFrame_puts {s : Socket} (frame : Bytes) (h : ¬Unwritable s) :
    (writeFrame s frame).2.sent ≠ s.sent := by
  obtain ⟨hs, hfirst⟩ := not_or.mp h
  rw [Bool.not_eq_false] at hs
  unfold writeFrame
  cases hp : asyncWriteAllCommon s (framePrefix frame) with
  | mk r mid =>
    have hbytes : framePrefix frame ≠ [] := by
      rw [← List.length_pos_iff, length_framePrefix]
      decide
    rcases writeAll_cases hs hp with ⟨rfl, hmid⟩ | ⟨ec, k, rfl, hmid⟩
    · cases hb : asyncWriteAllCommon mid frame with
      | mk r t =>
        have hlater : ∃ more, t.sent = mid.sent ++ more := by
          rcases writeAll_cases (hmid.connected.trans hs) hb with ⟨-, ht⟩ | ⟨ec, k, -, ht⟩
          · exact ⟨_, ht.sent⟩
          · exact ⟨_, ht.sent⟩
        obtain ⟨more, hmore⟩ := hlater
        have hsent : t.sent ≠ s.sent := by
          rw [hmore, hmid.sent, List.append_assoc]
          simp [hbytes]
        cases r with
        | ok n => simpa only [hb] using hsent
        | error ec => simpa only [hb] using hsent
    · simp only
      unfold asyncWriteAllCommon at hp
      rw [if_neg (by simp [hs])] at hp
      cases hout : s.outgoing with
      | nil => rw [hout] at hp; cases hp
      | cons e rest =>
        rw [hout] at hp
        cases e with
        | done => cases hp
        | fail fault written =>
          cases hp
          cases written with
          | zero => exact absurd ⟨fault, rest, hout⟩ hfirst
          | succ written => simp [hbytes]

/-- The length is announced as promised exactly when it has 32 bits or nothing can be
written at all. -/
theorem writeFrame_announced_iff (s : Socket) (frame : Bytes) :
    WritesAnnounced s frame ↔ Fits frame ∨ Unwritable s := by
  refine ⟨fun h => ?_, fun h => ⟨fun n t hok => ?_, fun hlong => ?_⟩⟩
  · by_contra hno
    obtain ⟨hlong, hwritable⟩ := not_or.mp hno
    exact writeFrame_puts frame hwritable (h.refused hlong).2
  · obtain ⟨-, hsent⟩ := writeFrame_ok hok
    rcases h with hfits | hunwritable
    · exact ⟨framePrefix frame, frame, hsent, length_framePrefix frame, shiftIn_framePrefix hfits⟩
    · obtain ⟨⟨ec, herror⟩, -⟩ := writeFrame_unwritable frame hunwritable
      rw [hok] at herror
      cases herror
  · exact writeFrame_unwritable frame (h.resolve_left hlong)

/- A length of 2^32 is announced as none. -/
theorem writeFrame_wraps {frame : Bytes} (hlen : frame.length = 2 ^ 32) :
    (∃ t, writeFrame (Socket.fresh []) frame = (.ok (length_prefix_size + 2 ^ 32), t) ∧
      t.sent = [0, 0, 0, 0] ++ frame) ∧
      ¬WritesAnnounced (Socket.fresh []) frame := by
  have hopen : Writable (Socket.fresh []) := ⟨rfl, by simp [Socket.fresh]⟩
  obtain ⟨t, hwrite, hwrote, -⟩ := writeFrame_writable frame hopen
  have hprefix : framePrefix frame = [0, 0, 0, 0] := by
    rw [framePrefix, hlen]
    decide
  refine ⟨⟨t, by rw [hwrite, hlen], ?_⟩, fun h => ?_⟩
  · rw [hwrote.sent, encodeFrame, hprefix]
    rfl
  · have hlong : ¬Fits frame := by
      rw [Fits, hlen]
      exact Nat.lt_irrefl _
    obtain ⟨⟨ec, herror⟩, -⟩ := h.refused hlong
    rw [hwrite] at herror
    cases herror

theorem writeFrame_overlong :
    (∃ t, writeFrame (Socket.fresh []) (List.replicate (2 ^ 32) 0)
        = (.ok (length_prefix_size + 2 ^ 32), t) ∧
      t.sent = [0, 0, 0, 0] ++ List.replicate (2 ^ 32) 0) ∧
      ¬WritesAnnounced (Socket.fresh []) (List.replicate (2 ^ 32) 0) :=
  writeFrame_wraps List.length_replicate

end NetworkStack.TicketFrame
