import NetworkStack.Lib.Machine
import NetworkStack.Ticket.Frame

/-!
# A frame link whose operations time out

One side calls `writeFrame`, the other `readFrame`, in any order. A call's
transport events are part of its label: a write may stop after any number of its
bytes and a read may time out after any number of the bytes in transit, while
the connection stays open and later calls are made.
-/

namespace NetworkStack.TicketFrame

open SocketDetail

/- `torn` records that a `writeFrame` left a proper part of its frame on the
stream, `readFailed` that a `readFrame` returned an error. -/
structure FrameLink where
  writer : Socket
  reader : Socket
  transit : Bytes
  written : List Bytes
  returned : List Bytes
  torn : Bool
  readFailed : Bool

def FrameLink.init : FrameLink := ⟨Socket.fresh [], Socket.fresh [], [], [], [], false, false⟩

inductive LinkCall where
  | write (frame : Bytes) (outgoing : List WriteEvent)
  | read (incoming : List ReadEvent)

def FrameLink.write (s : FrameLink) (frame : Bytes) (outgoing : List WriteEvent) : FrameLink :=
  let writer := (writeFrame { s.writer with outgoing := outgoing } frame).2
  let put := writer.sent.drop s.writer.sent.length
  { s with
    writer := writer
    transit := s.transit ++ put
    written := s.written ++ [frame]
    torn := s.torn || (decide (put ≠ []) && decide (put ≠ encodeFrame frame)) }

/-- The events bring bytes in transit; what the call has not taken stays there. -/
def FrameLink.read (s : FrameLink) (incoming : List ReadEvent) : Option FrameLink :=
  if Chunked.arriving incoming <+: s.transit then
    let rest := s.transit.drop (Chunked.arriving incoming).length
    match readFrame { s.reader with incoming := incoming } with
    | none => none
    | some (.error _, reader) =>
      some { s with
        reader := reader
        transit := Chunked.arriving reader.incoming ++ rest
        readFailed := true }
    | some (.ok frame, reader) =>
      some { s with
        reader := reader
        transit := Chunked.arriving reader.incoming ++ rest
        returned := s.returned ++ [frame] }
  else none

def FrameLink.step (s : FrameLink) : LinkCall → Option FrameLink
  | .write frame outgoing => some (s.write frame outgoing)
  | .read incoming => s.read incoming

/-- No `writeFrame` follows one that tore its frame, no `readFrame` follows a
failed one, and every frame's length fits its prefix. -/
def KeepsBoundary (s : FrameLink) : LinkCall → Prop
  | .write frame _ => s.torn = false ∧ Fits frame
  | .read _ => s.readFailed = false

/- While no read has failed, what the reader has not consumed is the frames not
yet returned, whole, and then at most the beginning of the last one written. -/
structure FrameLink.Inv (s : FrameLink) : Prop where
  writerOpen : s.writer.connected = true
  readerOpen : s.reader.connected = true
  order : s.returned.Sublist s.written
  aligned : s.readFailed = false → ∃ pending tail,
    s.reader.readBuffer ++ s.transit = pending.flatMap encodeFrame ++ tail ∧
    Framing.Stub Fits encodeFrame tail ∧ (s.torn = false → tail = []) ∧
    (∀ f ∈ pending, Fits f) ∧ (s.returned ++ pending).Sublist s.written

theorem FrameLink.init_inv : FrameLink.init.Inv := by
  refine ⟨rfl, rfl, List.Sublist.refl _, fun _ => ⟨[], [], rfl, ?_, fun _ => rfl, ?_, ?_⟩⟩
  · exact encodeFrame_stub_nil
  · intro f hf
    cases hf
  · exact List.Sublist.refl _

theorem FrameLink.write_inv {s : FrameLink} {frame : Bytes} {outgoing : List WriteEvent}
    (hs : s.Inv) (htorn : s.torn = false) (hfits : Fits frame) :
    (s.write frame outgoing).Inv := by
  obtain ⟨k, hwrote⟩ := writeFrame_put (s := { s.writer with outgoing := outgoing }) frame
    hs.writerOpen
  have hput : (writeFrame { s.writer with outgoing := outgoing } frame).2.sent.drop
      s.writer.sent.length = (encodeFrame frame).take k := by
    rw [hwrote.sent, List.drop_left]
  refine ⟨hwrote.connected.trans hs.writerOpen, hs.readerOpen,
    hs.order.trans (List.sublist_append_left ..), ?_⟩
  intro hread
  obtain ⟨pending, tail, hstream, -, htail, hpend, hsub⟩ := hs.aligned hread
  obtain rfl : tail = [] := htail htorn
  rw [List.append_nil] at hstream
  have hstub := encodeFrame_stub_nil
  simp only [FrameLink.write, hput, htorn, Bool.false_or, ← List.append_assoc, hstream]
  by_cases hnone : (encodeFrame frame).take k = []
  · -- nothing went out
    exact ⟨pending, [], by simp [hnone], hstub, fun _ => rfl, hpend,
      hsub.trans (List.sublist_append_left ..)⟩
  by_cases hall : (encodeFrame frame).take k = encodeFrame frame
  · -- the whole frame went out
    refine ⟨pending ++ [frame], [], by simp [hall], hstub, fun _ => rfl, ?_, ?_⟩
    · intro f hf
      rcases List.mem_append.mp hf with hf | hf
      · exact hpend f hf
      · exact List.mem_singleton.mp hf ▸ hfits
    · rw [← List.append_assoc]
      exact hsub.append (List.Sublist.refl _)
  · -- a proper part went out
    refine ⟨pending, (encodeFrame frame).take k, rfl,
      ⟨frame, (encodeFrame frame).drop k, hfits, ?_, (List.take_append_drop ..).symm⟩, ?_, hpend,
      hsub.trans (List.sublist_append_left ..)⟩
    · intro hdrop
      exact hall (List.take_of_length_le (List.drop_eq_nil_iff.mp hdrop))
    · intro hfalse
      simp [hnone, hall] at hfalse

theorem FrameLink.read_inv {s t : FrameLink} {incoming : List ReadEvent} (hs : s.Inv)
    (hread : s.readFailed = false) (h : s.read incoming = some t) : t.Inv := by
  unfold FrameLink.read at h
  split at h
  · rename_i hin
    obtain ⟨rest, hrest⟩ := hin
    have hdrop : s.transit.drop (Chunked.arriving incoming).length = rest := by
      rw [← hrest, List.drop_left]
    simp only [hdrop] at h
    split at h
    · cases h
    · rename_i ec reader hr
      cases h
      exact ⟨hs.writerOpen, (readFrame_readOnly hr).connected.trans hs.readerOpen, hs.order,
        fun hf => by cases hf⟩
    · rename_i frame reader hr
      cases h
      obtain ⟨hfits, htook⟩ := readFrame_ok (by exact hs.readerOpen) hr
      obtain ⟨pending, tail, hstream, hstub, htail, hpend, hsub⟩ := hs.aligned hread
      -- the frame returned is the first of the pending ones
      have hfront : encodeFrame frame ++ (unread reader ++ rest)
          = pending.flatMap encodeFrame ++ tail := by
        rw [← hstream, ← hrest, ← List.append_assoc, ← htook.stream, unread, List.append_assoc]
      obtain ⟨later, rfl, hlater⟩ :=
        encodeFrame_prefixCode.front hfits hpend hstub hfront
      have hsub' : (s.returned ++ [frame] ++ later).Sublist s.written := by
        rwa [List.append_assoc]
      refine ⟨hs.writerOpen, htook.state.connected.trans hs.readerOpen,
        (List.sublist_append_left ..).trans hsub', fun _ => ⟨later, tail, ?_, hstub, htail,
        fun f hf => hpend f (List.mem_cons_of_mem _ hf), hsub'⟩⟩
      rw [← hlater, unread, List.append_assoc]
  · cases h

theorem FrameLink.step_inv {s t : FrameLink} {call : LinkCall} (hs : s.Inv)
    (hg : KeepsBoundary s call) (h : s.step call = some t) : t.Inv := by
  cases call with
  | write frame outgoing =>
    cases h
    exact write_inv hs hg.1 hg.2
  | read incoming => exact read_inv hs hg h

/-- In every run that keeps the frame boundary, the frames returned are frames
passed to `writeFrame`, in the order they were passed, none twice. -/
theorem returned_frames_in_order (calls : List LinkCall) (t : FrameLink)
    (hg : Machine.Guarded FrameLink.step KeepsBoundary FrameLink.init calls)
    (h : Machine.run FrameLink.step FrameLink.init calls = some t) :
    t.returned.Sublist t.written :=
  (Machine.run_invariant (fun _ _ _ hs hg hstep => FrameLink.step_inv hs hg hstep)
    FrameLink.init_inv hg h).order

instance (s : FrameLink) : (call : LinkCall) → Decidable (KeepsBoundary s call)
  | .write frame _ => inferInstanceAs (Decidable (s.torn = false ∧ Fits frame))
  | .read _ => inferInstanceAs (Decidable (s.readFailed = false))

/- A write that fails before its first byte, and at the end a read that times out. -/
def brokenCalls : List LinkCall :=
  [.write [7] [.fail timeoutFault 0], .write [8] [], .write [9] [],
    .read [.data [0, 0, 0, 1], .data [8]], .read [.data [0, 0, 0, 1, 9]],
    .read [.fail timeoutFault]]

theorem returned_frames_in_order_broken :
    ∃ t, Machine.run FrameLink.step FrameLink.init brokenCalls = some t ∧
      t.returned = [[8], [9]] ∧ t.written = [[7], [8], [9]] ∧ t.readFailed = true ∧
      t.returned.Sublist t.written := by
  have hran : (Machine.run FrameLink.step FrameLink.init brokenCalls).map
      (fun t => (t.returned, t.written, t.readFailed))
        = some ([[8], [9]], [[7], [8], [9]], true) := by decide +kernel
  obtain ⟨t, hrun, ht⟩ := Option.map_eq_some_iff.mp hran
  obtain ⟨hreturned, hrest⟩ := Prod.mk.inj ht
  obtain ⟨hwritten, hfailed⟩ := Prod.mk.inj hrest
  exact ⟨t, hrun, hreturned, hwritten, hfailed,
    returned_frames_in_order _ t (by decide +kernel) hrun⟩

/- A read that timed out on an idle connection makes the next one return a frame
nobody wrote. A body write that failed before its first byte makes the reader take
the next frame's prefix for the body. -/
theorem returned_frames_never_written :
    (∃ t, Machine.run FrameLink.step FrameLink.init
        [.read [.fail timeoutFault], .read []] = some t ∧
      t.returned = [[]] ∧ t.written = [] ∧ ¬t.returned.Sublist t.written) ∧
    (∃ t, Machine.run FrameLink.step FrameLink.init
        [.write [7] [.done, .fail timeoutFault 0], .write [9] [],
          .read [.data [0, 0, 0, 1, 0, 0, 0, 1, 9]]] = some t ∧
      t.returned = [[0]] ∧ t.written = [[7], [9]] ∧ ¬t.returned.Sublist t.written) := by
  have h1 : (Machine.run FrameLink.step FrameLink.init
      [.read [.fail timeoutFault], .read []]).map (fun t => (t.returned, t.written))
      = some ([[]], []) := by decide +kernel
  have h2 : (Machine.run FrameLink.step FrameLink.init
      [.write [7] [.done, .fail timeoutFault 0], .write [9] [],
        .read [.data [0, 0, 0, 1, 0, 0, 0, 1, 9]]]).map (fun t => (t.returned, t.written))
      = some ([[0]], [[7], [9]]) := by decide +kernel
  obtain ⟨t, hrun, ht⟩ := Option.map_eq_some_iff.mp h1
  obtain ⟨u, hrun', hu⟩ := Option.map_eq_some_iff.mp h2
  obtain ⟨ht1, ht2⟩ := Prod.mk.inj ht
  obtain ⟨hu1, hu2⟩ := Prod.mk.inj hu
  refine ⟨⟨t, hrun, ht1, ht2, ?_⟩, ⟨u, hrun', hu1, hu2, ?_⟩⟩
  · rw [ht1, ht2]
    decide
  · rw [hu1, hu2]
    decide

end NetworkStack.TicketFrame
