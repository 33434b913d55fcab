import NetworkStack.Ftp.Transfers
import NetworkStack.Socket.ReadUntil

/-!
# What a transfer brings and what it puts on the data channel

The streaming versions of `read` and `write` and the versions in memory are four
loops with buffers of their own. Over any segmentation of the data channel they
bring the same bytes and write the same bytes.
-/

namespace NetworkStack

open SocketDetail

/-! ### The bytes before the end of the stream -/

theorem handOut_content {s : Socket} {out : Bytes} (hout : out ≠ []) (hs : s.readBuffer ≠ []) :
    ∃ n, (handOut s out none).result = .ok n ∧ n ≠ 0 ∧
      content s = (handOut s out none).out.take n ++ content (handOut s out none).socket := by
  have hhand := handOut_handed s out none
  have hout' := List.length_pos_iff.mpr hout
  have hs' := List.length_pos_iff.mpr hs
  refine ⟨_, hhand.result, ?_, ?_⟩
  · simp only [move_data, Option.map_none, Option.getD_none, List.length_take]
    omega
  · rw [hhand.front, content, content, ← List.append_assoc, ← hhand.buffer, hhand.state]

/- A `readSome` takes a non-empty piece off the front of the content; it meets the end of
the stream when nothing is left. -/
theorem readSome_content {s t : Socket} {out out' : Bytes} {r : Except ErrorCode ℕ}
    (hout : out ≠ []) (h : asyncReadSomeCommon s out = some ⟨r, out', t⟩) :
    (∃ n, r = .ok n ∧ n ≠ 0 ∧ content s = out'.take n ++ content t) ∨
    (∃ ec, r = .error ec ∧ (ec = .asio .eof → content s = [])) := by
  have hlen : (zeroFill out).length ≠ 0 := by simpa using hout
  have hzero : zeroFill out ≠ [] := fun h => hlen (by rw [h]; rfl)
  unfold asyncReadSomeCommon at h
  split at h
  · cases h
    exact .inr ⟨_, rfl, by simp⟩
  · simp only [if_neg hzero] at h
    split at h
    · rename_i hbuf
      split at h
      · cases h
      · rename_i ec u hpull
        cases h
        refine .inr ⟨ec, rfl, fun _ => ?_⟩
        rw [content, hbuf, pull_end (by omega) hpull]
        rfl
      · rename_i u hpull
        have hfull : u.readBuffer ≠ [] := by
          rcases pull_cases hpull with ⟨-, -, bs, -, hg⟩ | ⟨⟨ec, hr⟩, -⟩
          · rw [hg.state]
            simpa [hbuf] using hg.nonempty bs (by simp)
          · cases hr
        obtain ⟨n, hn, hpos, hcut⟩ := handOut_content hzero hfull
        cases h
        exact .inl ⟨n, hn, hpos, (pull_content hpull).symm.trans hcut⟩
    · rename_i hbuf
      obtain ⟨n, hn, hpos, hcut⟩ := handOut_content hzero hbuf
      cases h
      exact .inl ⟨n, hn, hpos, hcut⟩

namespace Ftp

open Hoare

namespace FtpFileTransfer

/-! ### Reading -/

/- A read loop that comes to its end has given `consume` all of the content, in pieces. -/
theorem readAll_content {γ : Type} {size : ℕ} (hsize : 0 < size)
    {consume : γ → Bytes → Except ErrorCode γ} {g g' : γ} {data left : Socket}
    (h : readAll size consume g data = some (.ok g', left)) :
    ∃ chunks : List Bytes, chunks.flatten = content data ∧ chunks.foldlM consume g = .ok g' := by
  have hout : List.replicate size (0 : Byte) ≠ [] := by
    simpa using Nat.pos_iff_ne_zero.mp hsize
  fun_induction readAll size consume g data with
  | case1 => cases h
  | case2 g data ec out next hread =>
    rcases readSome_content hout hread with ⟨n, hn, -⟩ | ⟨ec', hec, hend⟩
    · cases hn
    · cases hec
      by_cases heof : ec = .asio .eof
      · rw [if_pos heof] at h
        cases h
        exact ⟨[], (hend heof).symm, rfl⟩
      · rw [if_neg heof] at h
        cases h
  | case3 g data out next hread =>
    rcases readSome_content hout hread with ⟨n, hn, hpos, -⟩ | ⟨ec, hec, -⟩
    · cases hn
      exact absurd rfl hpos
    · cases hec
  | case4 => cases h
  | case5 g data n out next hread hn g₁ hg₁ ih =>
    rcases readSome_content hout hread with ⟨m, hm, -, hcut⟩ | ⟨ec, hec, -⟩
    · cases hm
      obtain ⟨chunks, hchunks, hfold⟩ := ih h
      refine ⟨out.take n :: chunks, ?_, ?_⟩
      · rw [List.flatten_cons, hchunks, hcut]
      · rw [List.foldlM_cons, hg₁]
        exact hfold
    · cases hec

theorem foldlM_append {chunks : List Bytes} {buf buf' : Bytes}
    (h : chunks.foldlM (fun buf bytes => (.ok (buf ++ bytes) : Except ErrorCode Bytes)) buf
      = .ok buf') : buf' = buf ++ chunks.flatten := by
  induction chunks generalizing buf with
  | nil =>
    cases h
    simp
  | cons c chunks ih =>
    rw [List.foldlM_cons] at h
    rw [ih h, List.flatten_cons, List.append_assoc]

theorem receiveRawResponse_content {data left : Socket} {buffer : Bytes}
    (h : receiveRawResponse data = some (.ok buffer, left)) : buffer = content data := by
  obtain ⟨chunks, hchunks, hfold⟩ := readAll_content (by decide) h
  rw [foldlM_append hfold, hchunks, List.nil_append]

/-- The callback takes every chunk whole. -/
def TakesAll {γ : Type} (callback : γ → Bytes → Except ErrorCode ℕ × γ) : Prop :=
  ∀ g bytes, (callback g bytes).1 = .ok bytes.length

theorem foldlM_consumeBy {γ : Type} {callback : γ → Bytes → Except ErrorCode ℕ × γ}
    (hall : TakesAll callback) (chunks : List Bytes) (g : γ) (total : ℕ) :
    chunks.foldlM (consumeBy callback) (g, total)
      = .ok (chunks.foldl (fun g c => (callback g c).2) g, total + chunks.flatten.length) := by
  induction chunks generalizing g total with
  | nil => rfl
  | cons c chunks ih =>
    have hstep : consumeBy callback (g, total) c = .ok ((callback g c).2, total + c.length) := by
      unfold consumeBy
      have hc := hall g c
      cases hcall : callback g c with
      | mk r next =>
        rw [hcall] at hc
        simp only at hc
        rw [hc]
        simp
    rw [List.foldlM_cons, hstep]
    show chunks.foldlM (consumeBy callback) ((callback g c).2, total + c.length) = _
    rw [ih, List.foldl_cons, List.flatten_cons, List.length_append, Nat.add_assoc]

/-! ### Writing -/

theorem writeAll_ok {data data' : Socket} {bytes : Bytes} {n : ℕ}
    (h : asyncWriteAllCommon data bytes = (.ok n, data')) :
    n = bytes.length ∧ data'.sent = data.sent ++ bytes := by
  cases hconn : data.connected with
  | false => simp [asyncWriteAllCommon, hconn] at h
  | true =>
    rcases writeAll_cases hconn h with ⟨hr, hw⟩ | ⟨ec, k, hr, -⟩
    · exact ⟨Except.ok.inj hr, hw.sent⟩
    · cases hr

theorem writeChunks_ok {chunks : List Bytes} (hne : ∀ c ∈ chunks, c ≠ [])
    {rest : List (Except ErrorCode Bytes)} {data data' : Socket} {n total : ℕ}
    (h : writeChunks data n (chunks.map .ok ++ .ok [] :: rest) = some (.ok total, data')) :
    total = n + chunks.flatten.length ∧ data'.sent = data.sent ++ chunks.flatten := by
  induction chunks generalizing data n with
  | nil =>
    cases h
    exact ⟨by simp, by simp⟩
  | cons c chunks ih =>
    obtain ⟨hc, hchunks⟩ := List.forall_mem_cons.mp hne
    rw [List.map_cons, List.cons_append, writeChunks, if_neg hc] at h
    cases hw : asyncWriteAllCommon data c with
    | mk w mid =>
      rw [hw] at h
      cases w with
      | error ec => cases h
      | ok m =>
        obtain ⟨rfl, hsent⟩ := writeAll_ok hw
        obtain ⟨htotal, hrest⟩ := ih hchunks h
        refine ⟨?_, ?_⟩
        · rw [htotal, List.flatten_cons, List.length_append]
          omega
        · rw [hrest, hsent, List.flatten_cons, List.append_assoc]

/-! ### Both versions of a transfer -/

variable {σ σ' α β γ : Type}

theorem onData_ok {W : Channel σ} {call : Option (Except ErrorCode α × Socket)} {a : α}
    {s t : FtpFileTransfer σ} (h : onData W call s = (.ok a, t)) :
    ∃ left, call = some (.ok a, left) ∧ t = s.leave W left := by
  match call with
  | none => cases h
  | some (.error ec, left) => cases h
  | some (.ok b, left) =>
    cases h
    exact ⟨left, rfl, rfl⟩

/- Up to its data phase a transfer leaves no data socket, and none behind it. -/
theorem openTransfer_transfers {W : Channel σ} {dir : Path} {cmd : Bytes} {s u : FtpFileTransfer σ}
    {r : Except Exit Socket} (h : openTransfer W dir cmd s = (r, u)) :
    u.transfers = s.transfers := by
  have hcontrol : ∀ {α : Type} (m : Act σ Exit α),
      Keeps (fun u => u.transfers = s.transfers) (control m) :=
    fun m => keeps_iff.mpr fun u hu => hu
  have hmove : Keeps (fun u => u.transfers = s.transfers) (changeDirectory W dir) :=
    keeps_iff.mpr fun u hu => hu
  have hdata : Keeps (fun u => u.transfers = s.transfers) (openDataConnection W) := by
    refine (hcontrol _).bind fun a => .ite (keeps_stop _) ?_
    cases parsePasvResponse a.full_msg with
    | none => exact keeps_stop _
    | some endpoint => exact hcontrol _
  have hopen : Keeps (fun u => u.transfers = s.transfers) (openTransfer W dir cmd) :=
    (hmove.bind fun _ => hdata).bind fun _ =>
      (hcontrol _).bind fun _ => .ite (keeps_stop _) (keeps_pure _)
  have hkept := keeps_iff.mp hopen s rfl
  rwa [h] at hkept

theorem transfer_ok {W : Channel σ} {s t : FtpFileTransfer σ} {dir : Path} {cmd : Bytes}
    {phase : Socket → Option (Except ErrorCode α × Socket)} {finish : α → Operation σ β} {b : β}
    (h : transfer W dir cmd phase finish s = (.ok b, t)) :
    ∃ data a left u, openTransfer W dir cmd s = (.ok data, u) ∧
      phase data = some (.ok a, left) ∧ finish a (u.leave W left) = (.ok b, t) := by
  obtain ⟨data, u, hopen, hrest⟩ := bind_eq_ok h
  obtain ⟨a, v, hphase, hfinish⟩ := bind_eq_ok hrest
  obtain ⟨left, hcall, rfl⟩ := onData_ok hphase
  exact ⟨data, a, left, u, hopen, hcall, hfinish⟩

/-- The last reply taken was 226. -/
def Completed (W : Channel σ) (t : FtpFileTransfer σ) : Prop :=
  ∃ u a, control W.receiveResponse u = (.ok a, t) ∧ a.code = 226

theorem completion_ok {W : Channel σ} {u t : FtpFileTransfer σ} {b c : β}
    (h : (completion W >>= fun _ => (pure b : Operation σ β)) u = (.ok c, t)) :
    b = c ∧ Completed W t ∧ t.transfers = u.transfers := by
  obtain ⟨⟨⟩, v, hcompletion, hpure⟩ := bind_eq_ok h
  cases hpure
  obtain ⟨a, w, hreceive, hcode⟩ := bind_eq_ok hcompletion
  have hsame : w.transfers = u.transfers := (Prod.mk.inj hreceive).2 ▸ rfl
  by_cases ha : a.code ≠ 226
  · rw [if_pos ha] at hcode
    cases hcode
  · rw [if_neg ha] at hcode
    cases hcode
    exact ⟨rfl, ⟨u, a, hreceive, not_not.mp ha⟩, hsame⟩

/-- If the data connection of `RETR` is opened, it carries `file` up to its end. -/
def Retrieves (W : Channel σ) (s : FtpFileTransfer σ) (path : Path) (file : Bytes) : Prop :=
  ∀ data u, openTransfer W path.parent_path (ascii "RETR " ++ path.filename) s = (.ok data, u) →
    content data = file

theorem read_ok {W : Channel σ} {s t : FtpFileTransfer σ} {path : Path} {file buffer : Bytes}
    (hfile : Retrieves W s path file) (h : read W path s = (.ok buffer, t)) :
    buffer = file ∧ Completed W t := by
  obtain ⟨data, a, left, u, hopen, hphase, hfinish⟩ := transfer_ok h
  obtain ⟨rfl, hdone, -⟩ := completion_ok hfinish
  exact ⟨(receiveRawResponse_content hphase).trans (hfile data u hopen), hdone⟩

/-- A callback that was left in `g'` was called with these chunks, from `g` on. -/
def CalledWith (callback : γ → Bytes → Except ErrorCode ℕ × γ) (g g' : γ)
    (chunks : List Bytes) : Prop :=
  g' = chunks.foldl (fun g c => (callback g c).2) g

theorem readCallback_ok {W : Channel σ} {s t : FtpFileTransfer σ} {path : Path} {file : Bytes}
    {callback : γ → Bytes → Except ErrorCode ℕ × γ} (hall : TakesAll callback) {g g' : γ}
    {total : ℕ} (hfile : Retrieves W s path file)
    (h : readCallback W path callback g s = (.ok (g', total), t)) :
    (∃ chunks, CalledWith callback g g' chunks ∧ chunks.flatten = file) ∧
      total = file.length ∧ Completed W t := by
  obtain ⟨data, ⟨next, n⟩, left, u, hopen, hphase, hfinish⟩ := transfer_ok h
  obtain ⟨hresult, hdone, -⟩ := completion_ok hfinish
  cases hresult
  obtain ⟨chunks, hchunks, hfold⟩ := readAll_content (by decide) hphase
  rw [hfile data u hopen] at hchunks
  rw [foldlM_consumeBy hall, hchunks, Nat.zero_add] at hfold
  cases hfold
  exact ⟨⟨chunks, rfl, hchunks⟩, rfl, hdone⟩

/-- From `s` to `t` one data connection was used, that of `STOR`, and it was left having
carried `bytes`. -/
def Stores (W : Channel σ) (path : Path) (bytes : Bytes) (s t : FtpFileTransfer σ) : Prop :=
  ∃ data left, (openTransfer W path.parent_path (ascii "STOR " ++ path.filename) s).1 = .ok data ∧
    t.transfers = s.transfers ++ [left] ∧ left.sent = data.sent ++ bytes

theorem write_ok {W : Channel σ} {clock : Clock} {s t : FtpFileTransfer σ} {path : Path}
    {bytes : Bytes} {file : FileListData} (h : write W clock path bytes s = (.ok file, t)) :
    Stores W path bytes s t ∧ file.size = bytes.length := by
  obtain ⟨data, n, left, u, hopen, hphase, hfinish⟩ := transfer_ok h
  obtain ⟨rfl, -, hkept⟩ := completion_ok hfinish
  have hsent := (writeAll_ok (Option.some.inj hphase)).2
  refine ⟨⟨data, left, by rw [hopen], ?_, hsent⟩, rfl⟩
  rw [hkept, ← openTransfer_transfers hopen]
  rfl

theorem writeCallback_ok {W : Channel σ} {clock : Clock} {s t : FtpFileTransfer σ} {path : Path}
    {chunks : List Bytes} (hne : ∀ c ∈ chunks, c ≠ []) {rest : List (Except ErrorCode Bytes)}
    {file : FileListData}
    (h : writeCallback W clock path (chunks.map .ok ++ .ok [] :: rest) s = (.ok file, t)) :
    Stores W path chunks.flatten s t ∧ file.size = chunks.flatten.length := by
  obtain ⟨data, n, left, u, hopen, hphase, hfinish⟩ := transfer_ok h
  obtain ⟨rfl, -, hkept⟩ := completion_ok hfinish
  obtain ⟨hn, hsent⟩ := writeChunks_ok hne hphase
  refine ⟨⟨data, left, by rw [hopen], ?_, hsent⟩, ?_⟩
  · rw [hkept, ← openTransfer_transfers hopen]
    rfl
  · rw [Nat.zero_add] at hn
    exact hn

/-- Reading: over any two sessions in which the server sends the same file, the bytes
returned and the chunks the callback was called with are that file. Writing: the bytes on
the data channel and the size reported do not depend on how the file is cut. -/
theorem streamed_transfers_agree (W : Channel σ) (W' : Channel σ') (s : FtpFileTransfer σ)
    (s' : FtpFileTransfer σ') (path : Path) :
    (∀ (γ : Type) (callback : γ → Bytes → Except ErrorCode ℕ × γ) (g g' : γ)
        (file buffer : Bytes) (total : ℕ) (t : FtpFileTransfer σ) (t' : FtpFileTransfer σ'),
      TakesAll callback → Retrieves W s path file → Retrieves W' s' path file →
      read W path s = (.ok buffer, t) →
      readCallback W' path callback g s' = (.ok (g', total), t') →
      (∃ chunks, CalledWith callback g g' chunks ∧ chunks.flatten = buffer) ∧
        buffer = file ∧ total = file.length ∧ Completed W t ∧ Completed W' t') ∧
    (∀ (clock clock' : Clock) (chunks : List Bytes) (rest : List (Except ErrorCode Bytes))
        (whole streamed : FileListData) (t : FtpFileTransfer σ) (t' : FtpFileTransfer σ'),
      (∀ c ∈ chunks, c ≠ []) →
      write W clock path chunks.flatten s = (.ok whole, t) →
      writeCallback W' clock' path (chunks.map .ok ++ .ok [] :: rest) s' = (.ok streamed, t') →
      Stores W path chunks.flatten s t ∧ Stores W' path chunks.flatten s' t' ∧
        streamed.size = whole.size) := by
  refine ⟨?_, ?_⟩
  · intro γ callback g g' file buffer total t t' hall hfile hfile' hread hstream
    obtain ⟨rfl, hdone⟩ := read_ok hfile hread
    obtain ⟨hchunks, htotal, hdone'⟩ := readCallback_ok hall hfile' hstream
    exact ⟨hchunks, rfl, htotal, hdone, hdone'⟩
  · intro clock clock' chunks rest whole streamed t t' hne hwrite hstream
    obtain ⟨hstores, hsize⟩ := write_ok hwrite
    obtain ⟨hstores', hsize'⟩ := writeCallback_ok hne hstream
    exact ⟨hstores, hstores', hsize'.trans hsize.symm⟩

/-! ### Three bytes in one segment and in two -/

section TwoSegments

open Request

def twoSegments : Server :=
  { oneFile 150 with
    data := fun _ _ =>
      .ok (Socket.fresh [.data [1], .data [2, 3], .fail ⟨.asio .eof, false⟩]) }

def readme : Path := ascii "/readme.txt"

/- The callback collects what it is called with. -/
def collecting (calls : List Bytes) (bytes : Bytes) : Except ErrorCode ℕ × List Bytes :=
  (.ok bytes.length, calls ++ [bytes])

theorem retrieves_of_open {srv : Server} {s : FtpFileTransfer Conversation} {file : Bytes}
    (h : ((openTransfer srv.channel (Path.parent_path readme)
      (ascii "RETR " ++ Path.filename readme) s).1.toOption.map content).getD file = file) :
    Retrieves srv.channel s readme file := by
  intro data u hopen
  rw [hopen] at h
  exact h

theorem eq_of_result {x : α × β} {a : α} (h : x.1 = a) : x = (a, x.2) := by rw [← h]

theorem streamed_transfers_agree_three :
    (∃ chunks, CalledWith collecting [] [[1], [2, 3]] chunks ∧ chunks.flatten = [1, 2, 3]) ∧
    Stores twoSegments.channel readme [7, 8, 9] connected
      (writeCallback twoSegments.channel stopped readme
        ([[7], [8, 9]].map .ok ++ .ok [] :: []) connected).2 := by
  obtain ⟨hread, hwrite⟩ := streamed_transfers_agree (oneFile 150).channel twoSegments.channel
    connected connected readme
  refine ⟨?_, ?_⟩
  · exact (hread (List Bytes) collecting [] [[1], [2, 3]] [1, 2, 3] [1, 2, 3] 3 _ _
      (fun _ _ => rfl) (retrieves_of_open (by decide +kernel))
      (retrieves_of_open (by decide +kernel)) (eq_of_result (by decide +kernel))
      (eq_of_result (by decide +kernel))).1
  · exact (hwrite stopped stopped [[7], [8, 9]] [] ⟨0, 3, ascii "readme.txt", readme⟩
      ⟨0, 3, ascii "readme.txt", readme⟩ _ _ (by decide) (eq_of_result (by decide +kernel))
      (eq_of_result (by decide +kernel))).2.1

end TwoSegments

end FtpFileTransfer

end Ftp

end NetworkStack
