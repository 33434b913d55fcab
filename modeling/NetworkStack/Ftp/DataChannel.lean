import NetworkStack.Ftp.Contents
import NetworkStack.Ftp.LsLines

/-!
# Data connections that work

One that the server closes after it has sent its bytes, and one that takes whatever is
written: there the data phase of a transfer comes to its end.
-/

namespace NetworkStack

open SocketDetail

/-! ### Reading to the end of the stream -/

def AtEof (f : Fault) : Prop := f.ec = .asio .eof

instance (f : Fault) : Decidable (AtEof f) := inferInstanceAs (Decidable (_ = _))

/-- `bytes` arrive, in any segments, and then the end of the stream. -/
structure Brings (data : Socket) (bytes : Bytes) : Prop where
  connected : data.connected = true
  content : content data = bytes
  closes : Chunked.FailsAs AtEof data.incoming

instance (data : Socket) (bytes : Bytes) : Decidable (Brings data bytes) :=
  decidable_of_iff
    (data.connected = true ∧ content data = bytes ∧ Chunked.FailsAs AtEof data.incoming)
    ⟨fun h => ⟨h.1, h.2.1, h.2.2⟩, fun h => ⟨h.connected, h.content, h.closes⟩⟩

theorem faultCode_eof {f : Fault} (h : AtEof f) : faultCode f = .asio .eof := by
  have hne : ErrorCode.asio .eof ≠ .asio .operation_aborted := by decide
  rw [faultCode, h, if_neg fun hc => hne hc.1]

theorem pull_closes {s : Socket} {n : ℕ} (hn : 0 < n) (h : Chunked.FailsAs AtEof s.incoming) :
    (∃ t, pull s n = some (.error (.asio .eof), t)) ∨
      ∃ t, pull s n = some (.ok (), t) ∧ Chunked.FailsAs AtEof t.incoming := by
  unfold pull asyncReadWithTimeout
  rcases Chunked.read_failsAs hn h with ⟨f, es, hread, hf⟩ | ⟨bs, es, hread, hbs, hes⟩
  · refine .inl ?_
    simp only [hread, faultCode_eof hf]
    exact ⟨_, rfl⟩
  · refine .inr ?_
    have hlen : bs.length ≠ 0 := fun hzero => hbs (List.eq_nil_of_length_eq_zero hzero)
    simp only [hread, if_neg hlen]
    exact ⟨_, rfl, hes⟩

theorem connected_of_state {s t : Socket} {bs : Bytes} (h : Gathered s [bs] t) :
    t.connected = s.connected := by
  rw [h.state]

/- A `readSome` on such a connection returns, and fails only at its end. -/
theorem readSome_closes {s : Socket} {out : Bytes} (hout : out ≠ []) (hs : s.connected = true)
    (h : Chunked.FailsAs AtEof s.incoming) :
    ∃ c, asyncReadSomeCommon s out = some c ∧ (∀ ec, c.result = .error ec → ec = .asio .eof) ∧
      ∀ n, c.result = .ok n →
        c.socket.connected = true ∧ Chunked.FailsAs AtEof c.socket.incoming := by
  have hlen : (zeroFill out).length ≠ 0 := by simpa using hout
  have hzero : zeroFill out ≠ [] := fun hnil => hlen (by rw [hnil]; rfl)
  unfold asyncReadSomeCommon
  simp only [hs, Bool.true_eq_false, if_false, hzero]
  split
  · rcases pull_closes (Nat.pos_of_ne_zero hlen) h with ⟨t, hpull⟩ | ⟨t, hpull, hclose⟩
    · simp only [hpull]
      exact ⟨_, rfl, fun ec hec => (Except.error.inj hec).symm, fun n hn => by cases hn⟩
    · have hconn : t.connected = true := by
        rcases pull_cases hpull with ⟨-, -, bs, -, hg⟩ | ⟨⟨ec, hec⟩, -⟩
        · exact (connected_of_state hg).trans hs
        · cases hec
      simp only [hpull]
      exact ⟨_, rfl, fun ec hec => (nomatch hec), fun n _ => ⟨hconn, hclose⟩⟩
  · exact ⟨_, rfl, fun ec hec => (nomatch hec), fun n _ => ⟨hs, h⟩⟩

namespace Ftp.FtpFileTransfer

open Hoare

/- A read loop whose `consume` never ends it comes to the end of the stream. -/
theorem readAll_returns {γ : Type} {size : ℕ} (hsize : 0 < size)
    {consume : γ → Bytes → Except ErrorCode γ} (hall : ∀ g bytes, ∃ g', consume g bytes = .ok g')
    {g : γ} {data : Socket} (hdata : data.connected = true)
    (hcloses : Chunked.FailsAs AtEof data.incoming) :
    ∃ g' left, readAll size consume g data = some (.ok g', left) := by
  have hout : List.replicate size (0 : Byte) ≠ [] := by
    simpa using Nat.pos_iff_ne_zero.mp hsize
  fun_induction readAll size consume g data with
  | case1 g data hread =>
    obtain ⟨c, hc, -⟩ := readSome_closes hout hdata hcloses
    cases hread.symm.trans hc
  | case2 g data ec out next hread =>
    obtain ⟨c, hc, herr, -⟩ := readSome_closes hout hdata hcloses
    cases hread.symm.trans hc
    rw [if_pos (herr ec rfl)]
    exact ⟨_, _, rfl⟩
  | case3 => exact ⟨_, _, rfl⟩
  | case4 g data n out next hread hn ec hconsume =>
    obtain ⟨g', hg'⟩ := hall g (out.take n)
    cases hconsume.symm.trans hg'
  | case5 g data n out next hread hn g₁ hg₁ ih =>
    obtain ⟨c, hc, -, hnext⟩ := readSome_closes hout hdata hcloses
    cases hread.symm.trans hc
    exact ih (hnext n rfl).1 (hnext n rfl).2

theorem receiveRawResponse_brings {data : Socket} {bytes : Bytes} (h : Brings data bytes) :
    ∃ left, receiveRawResponse data = some (.ok bytes, left) := by
  obtain ⟨buffer, left, hread⟩ :
      ∃ buffer left, receiveRawResponse data = some (.ok buffer, left) :=
    readAll_returns (by decide) (fun _ _ => ⟨_, rfl⟩) h.connected h.closes
  have hbuffer : buffer = bytes := (receiveRawResponse_content hread).trans h.content
  exact ⟨left, hbuffer ▸ hread⟩

theorem consumeBy_brings {γ : Type} {callback : γ → Bytes → Except ErrorCode ℕ × γ}
    (hall : TakesAll callback) (g : γ) {data : Socket} {bytes : Bytes} (h : Brings data bytes) :
    ∃ g' left chunks, readAll 16384 (consumeBy callback) (g, 0) data
        = some (.ok (g', bytes.length), left) ∧
      CalledWith callback g g' chunks ∧ chunks.flatten = bytes := by
  have htakes : ∀ (x : γ × ℕ) (bs : Bytes), ∃ y, consumeBy callback x bs = .ok y := by
    intro x bs
    have hone := foldlM_consumeBy hall [bs] x.1 x.2
    rw [List.foldlM_cons] at hone
    cases hx : consumeBy callback x bs with
    | ok y => exact ⟨y, rfl⟩
    | error ec =>
      rw [show (x.1, x.2) = x from rfl, hx] at hone
      cases hone
  have hsize : 0 < 16384 := by decide
  obtain ⟨⟨g', n⟩, left, hread⟩ :
      ∃ x left, readAll 16384 (consumeBy callback) (g, 0) data = some (.ok x, left) :=
    readAll_returns hsize htakes h.connected h.closes
  obtain ⟨chunks, hchunks, hfold⟩ := readAll_content hsize hread
  rw [foldlM_consumeBy hall, hchunks, h.content, Nat.zero_add] at hfold
  cases hfold
  exact ⟨_, left, chunks, hread, rfl, hchunks.trans h.content⟩

/-! ### Writing -/

/-- What a callback that has not failed supplies before its empty chunk. -/
def supplied : List (Except ErrorCode Bytes) → Bytes
  | .ok chunk :: next => if chunk = [] then [] else chunk ++ supplied next
  | _ => []

/-- An empty chunk comes, and no error before it. -/
def Supplies : List (Except ErrorCode Bytes) → Prop
  | .ok chunk :: next => chunk = [] ∨ Supplies next
  | _ => False

instance decidableSupplies : (next : List (Except ErrorCode Bytes)) → Decidable (Supplies next)
  | [] => .isFalse id
  | .error _ :: _ => .isFalse id
  | .ok chunk :: next =>
    haveI := decidableSupplies next
    inferInstanceAs (Decidable (chunk = [] ∨ Supplies next))

theorem writeChunks_supplied {next : List (Except ErrorCode Bytes)} (hnext : Supplies next)
    {data : Socket} (hdata : Writable data) (total : ℕ) :
    ∃ data', writeChunks data total next = some (.ok (total + (supplied next).length), data') ∧
      data'.sent = data.sent ++ supplied next := by
  induction next generalizing data total with
  | nil => exact absurd hnext id
  | cons r next ih =>
    cases r with
    | error ec => exact absurd hnext id
    | ok chunk =>
      by_cases hchunk : chunk = []
      · rw [writeChunks, if_pos hchunk, supplied, if_pos hchunk]
        exact ⟨data, rfl, (List.append_nil _).symm⟩
      · obtain ⟨mid, hwrite, hwrote, hmid⟩ := writeAll_writable chunk hdata
        obtain ⟨data', hsend, hsent⟩ := ih (hnext.resolve_left hchunk) hmid (total + chunk.length)
        rw [writeChunks, if_neg hchunk, hwrite, supplied, if_neg hchunk]
        refine ⟨data', ?_, ?_⟩
        · rw [List.length_append, ← Nat.add_assoc]
          exact hsend
        · rw [hsent, hwrote.sent, List.append_assoc]

end Ftp.FtpFileTransfer

/-! ### Listings -/

namespace Ftp

/-- The file of an entry, with the date its line gives. -/
def DirEntry.file (clock : Clock) (entry : DirEntry) : FileListData :=
  ⟨(clock.mktime (entry.stamp.tm clock entry.month entry.day)).getD 0, entry.size,
    entry.name.bytes, []⟩

theorem lsEntry_line {clock : Clock} {entry : DirEntry} (h : entry.Dated clock)
    (gaps : Fin 8 → ℕ) :
    Undated clock (entry.line gaps) = false ∧
      lsEntry clock (entry.line gaps) = some (entry.file clock) := by
  obtain ⟨hyear, hdate⟩ := h
  obtain ⟨date, hdate⟩ := Option.isSome_iff_exists.mp hdate
  have hparse := hdate
  rw [← parseFtpTimestamp_text clock entry.month entry.day_range hyear] at hparse
  refine ⟨?_, ?_⟩
  · simp only [Undated, listFields_line, hparse, Option.isNone_some, Bool.and_false]
  · simp only [lsEntry, listFields_line, trim_name, if_neg entry.name.nonempty, hparse,
      DirEntry.file, hdate, Option.getD_some, Option.bind_eq_bind, Option.bind_some]
    rfl

/- A rendered directory, line for line. -/
theorem parseListing_files {clock : Clock} {entries : List (DirEntry × Layout)}
    (h : ∀ x ∈ entries, x.1.Dated clock) :
    parseListing clock (splitLines (render entries))
      = some (entries.map fun x => x.1.file clock) := by
  have hnone : (splitLines (render entries)).any (Undated clock) = false := by
    rw [splitLines_render, List.any_map, List.any_eq_false]
    exact fun x hx => Bool.eq_false_iff.mp (lsEntry_line (h x hx) x.2.gaps).1
  rw [parseListing_eq, if_neg (Bool.eq_false_iff.mp hnone), splitLines_render, List.filterMap_map,
    ← List.filterMap_eq_map]
  exact congrArg some (List.filterMap_congr fun x hx => (lsEntry_line (h x hx) x.2.gaps).2)

end Ftp

end NetworkStack
