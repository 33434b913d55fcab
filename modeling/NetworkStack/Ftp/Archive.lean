import NetworkStack.Ftp.DataChannel
import NetworkStack.Ftp.FileSystem

/-!
# A session as an archive

All operations, transfers included, on a server that keeps what comes over its data
connections and sends what it has kept. What the client is told is true of an archive of
named contents: what was written is read, and listed with its size.
-/

namespace NetworkStack.Ftp

open FtpFileTransfer Hoare Path SocketDetail Utility

variable {γ σ : Type}

/-! ### Archives -/

/- The content of a name that is no file does not matter. -/
structure Archive where
  files : Files
  content : List Path → Bytes

/-- What an operation returns; for a callback that reads also what it is left in. -/
inductive Returned (γ : Type) where
  | done
  | told (b : Bool)
  | bytes (bs : Bytes)
  | streamed (g : γ) (n : ℕ)
  | listed (files : List FileListData)
  | written (file : FileListData)
  deriving DecidableEq

/-- Every entry once, a file with the size of its content. -/
structure Enumerates (kind : Path → Option Kind) (content : Path → Bytes)
    (entries : List (Path × ℕ)) : Prop where
  once : (entries.map Prod.fst).Nodup
  all : ∀ n, n ∈ entries.map Prod.fst ↔ kind n ≠ none
  size : ∀ n size, (n, size) ∈ entries → kind n = some .file → size = (content n).length

namespace Archive

variable (policy : Policy) (clock : Clock)

/-- A new file or a new content; none if that is refused. -/
def store (a : Archive) (parent : List Path) (name : Path) (bytes : Bytes) : Option Archive :=
  if hallowed : a.files.kind parent = some .directory ∧
      policy.allows .STOR a.files (parent ++ [name]) = true then
    let content := Function.update a.content (parent ++ [name]) bytes
    if hnew : a.files.kind (parent ++ [name]) = none then
      some ⟨a.files.put parent name .file hallowed.1 hnew, content⟩
    else if a.files.kind (parent ++ [name]) = some .file then some ⟨a.files, content⟩
    else none
  else none

def next (a : Archive) : Request γ → Archive
  | .createDir p => { a with files := (a.files.createDir policy p.parent_path.names p.filename).2 }
  | .remove p => { a with files := (a.files.remove policy p.parent_path.names p.filename).2 }
  | .write p data => (a.store policy p.parent_path.names p.filename data).getD a
  | .writeCallback p chunks =>
    (a.store policy p.parent_path.names p.filename (supplied chunks)).getD a
  | _ => a

/-- A file that may be read. -/
def Readable (a : Archive) (p : Path) : Prop :=
  a.files.kind p.names = some .file ∧ policy.allows .RETR a.files p.names = true

instance (a : Archive) (p : Path) : Decidable (a.Readable policy p) :=
  inferInstanceAs (Decidable (_ ∧ _))

def wrote (a : Archive) (p : Path) (bytes : Bytes) : Except Exit (Returned γ) :=
  if (a.store policy p.parent_path.names p.filename bytes).isSome then
    .ok (.written ⟨clock.now, bytes.length, p.filename, p⟩)
  else .error protocolError

/-- The result is what the archive has to say. -/
def Answers (a : Archive) (r : Request γ) (result : Except Exit (Returned γ)) : Prop :=
  match r with
  | .list p =>
    if policy.allows .LIST a.files p.names then
      ∃ files, result = .ok (.listed files) ∧
        Enumerates (fun n => a.files.kind (p.names ++ [n])) (fun n => a.content (p.names ++ [n]))
          (files.map fun file => (file.file_name, file.size))
    else result = .error protocolError
  | .createDir p =>
    result = (a.files.createDir policy p.parent_path.names p.filename).1.map fun _ => .done
  | .exists_ p => result = .ok (.told (a.files.kind p.names).isSome)
  | .remove p =>
    result = (a.files.remove policy p.parent_path.names p.filename).1.map fun _ => .done
  | .isDirectory p =>
    result = ((kindAnswer (a.files.kind p.names)).mapError .error).map .told
  | .read p =>
    result = if a.Readable policy p then .ok (.bytes (a.content p.names)) else .error protocolError
  | .readCallback p callback g =>
    if a.Readable policy p then
      ∃ g' chunks, result = .ok (.streamed g' (a.content p.names).length) ∧
        CalledWith callback g g' chunks ∧ chunks.flatten = a.content p.names
    else result = .error protocolError
  | .write p data => result = a.wrote policy clock p data
  | .writeCallback p chunks => result = a.wrote policy clock p (supplied chunks)

def AnswersAll (a : Archive) : List (Request γ) → List (Except Exit (Returned γ)) → Prop
  | [], results => results = []
  | r :: rs, results => ∃ result rest, results = result :: rest ∧
    a.Answers policy clock r result ∧ (a.next policy r).AnswersAll rs rest

def after (a : Archive) (rs : List (Request γ)) : Archive := rs.foldl (next policy) a

/-- A callback that takes every chunk, or supplies chunks without an error. -/
def Cooperates : Request γ → Prop
  | .readCallback _ callback _ => TakesAll callback
  | .writeCallback _ chunks => Supplies chunks
  | _ => True

/-- Every call is on a plain path in a directory that is there when its turn comes. -/
def Fitting (srv : FileServer) (a : Archive) : List (Request γ) → Prop
  | [] => True
  | r :: rs => (r.Plain srv ∧ a.files.kind r.target.names = some .directory ∧ Cooperates r) ∧
    (a.next policy r).Fitting srv rs

end Archive

/-! ### The same calls on a session -/

namespace Request

def call (W : Channel σ) (clock : Clock) : Request γ → Operation σ (Returned γ)
  | .list p => do
    let files ← FtpFileTransfer.list W clock p
    pure (.listed files)
  | .createDir p => do
    FtpFileTransfer.createDir W p
    pure .done
  | .exists_ p => do
    let b ← FtpFileTransfer.exists_ W p
    pure (.told b)
  | .remove p => do
    FtpFileTransfer.remove W p
    pure .done
  | .isDirectory p => do
    let b ← FtpFileTransfer.isDirectory W p
    pure (.told b)
  | .read p => do
    let buffer ← FtpFileTransfer.read W p
    pure (.bytes buffer)
  | .readCallback p callback g => do
    let (next, total_bytes) ← FtpFileTransfer.readCallback W p callback g
    pure (.streamed next total_bytes)
  | .write p data => do
    let file ← FtpFileTransfer.write W clock p data
    pure (.written file)
  | .writeCallback p chunks => do
    let file ← FtpFileTransfer.writeCallback W clock p chunks
    pure (.written file)

/-- The path of an upload. -/
def uploads : Request γ → Option Path
  | .write p _ | .writeCallback p _ => some p
  | _ => none

end Request

/-- A session, and what its server keeps under each name. -/
structure Host where
  session : FtpFileTransfer Site
  contents : Dir → Bytes

/-- The entry that a command with the name is about. -/
def Site.target (u : Site) (name : Path) : Dir := { u.dir with comps := enter u.dir.comps name }

def Site.below (u : Site) (name : Path) : Dir := { u.dir with comps := u.dir.comps ++ [name] }

namespace Host

variable (srv : FileServer) (clock : Clock)

/-- What the client has sent over the data connection that an upload has used is kept; `t` is
the session behind it. -/
def keep (h : Host) (r : Request γ) (t : FtpFileTransfer Site) : Dir → Bytes :=
  match r.uploads, t.transfers.drop h.session.transfers.length with
  | some p, data :: _ => Function.update h.contents (t.session.target p.filename) data.sent
  | _, _ => h.contents

def step (h : Host) (r : Request γ) : Except Exit (Returned γ) × Host :=
  let (result, session) := r.call srv.channel clock h.session
  (result, ⟨session, h.keep r session⟩)

def runAll (h : Host) : List (Request γ) → List (Except Exit (Returned γ)) × Host
  | [] => ([], h)
  | r :: rs =>
    let (result, t) := h.step srv clock r
    let (results, u) := runAll t rs
    (result :: results, u)

/-- The data connection of a granted transfer: it brings what is kept, or the directory as
it is, or it takes whatever is written. -/
def Delivers (h : Host) (r : Request γ) : Prop :=
  match r with
  | .read p | .readCallback p _ _ => ∀ data t,
    openTransfer srv.channel p.parent_path (ascii "RETR " ++ p.filename) h.session
      = (.ok data, t) → Brings data (h.contents (t.session.target p.filename))
  | .write p _ | .writeCallback p _ => ∀ data t,
    openTransfer srv.channel p.parent_path (ascii "STOR " ++ p.filename) h.session
      = (.ok data, t) → Writable data ∧ data.sent = []
  | .list p => ∀ data t,
    openTransfer srv.channel p (ascii "LIST") h.session = (.ok data, t) →
      ∃ entries : List (DirEntry × Layout), Brings data (render entries) ∧
        (∀ x ∈ entries, x.1.Dated clock) ∧
        Enumerates (fun n => t.session.tree (t.session.below n))
          (fun n => h.contents (t.session.below n))
          (entries.map fun x => (x.1.name.bytes, x.1.size))
  | _ => True

def DeliversAll (h : Host) : List (Request γ) → Prop
  | [] => True
  | r :: rs => h.Delivers srv clock r ∧ (h.step srv clock r).2.DeliversAll rs

/-- The session and the server's files are those of the archive, with their contents. -/
structure Holds (h : Host) (a : Archive) : Prop where
  mirrors : Mirrors srv a.files h.session
  kept : ∀ comps, a.files.kind comps = some .file → h.contents ⟨none, comps⟩ = a.content comps

end Host

/-- Data connections are opened, a transfer the tree and the policy allow begins with 150,
and its completion is announced by 226. -/
structure FileServer.Serves (srv : FileServer) (policy : Policy) : Prop extends
    srv.Conforms policy where
  pasv : ∀ i tree dir, (srv.reply i tree dir (ascii "PASV")).1.code = 227 ∧
    ∃ endpoint, parsePasvResponse (srv.reply i tree dir (ascii "PASV")).1.full_msg = some endpoint ∧
      ∀ k, ∃ data, srv.data k endpoint = .ok data
  list : ∀ i tree files comps, Shows tree files →
    ((srv.reply i tree ⟨none, comps⟩ (ascii "LIST")).1.code = 150 ↔
      policy.allows .LIST files comps = true)
  retr : ∀ i tree files parent name, Shows tree files → name ≠ [] → Proper name →
    ((srv.reply i tree ⟨none, parent⟩ (ascii "RETR " ++ name)).1.code = 150 ↔
      files.kind (parent ++ [name]) = some .file ∧
        policy.allows .RETR files (parent ++ [name]) = true)
  stor : ∀ i tree files parent name, Shows tree files → name ≠ [] → Proper name →
    ((srv.reply i tree ⟨none, parent⟩ (ascii "STOR " ++ name)).1.code = 150 ↔
      files.kind parent = some .directory ∧ files.kind (parent ++ [name]) ≠ some .directory ∧
        policy.allows .STOR files (parent ++ [name]) = true)
  completed : ∀ i tree dir line, isTransfer line = true →
    (srv.reply i tree dir line).1.code = 150 →
    ∃ a rest, (srv.reply i tree dir line).2 = a :: rest ∧ a.code = 226

/-! ### Opening a transfer -/

section Opening

variable {srv : FileServer} {policy : Policy} {files : Files} {d p : Path}
  {s t : FtpFileTransfer Site}

/- A line that is no order on an entry leaves the files as they are. -/
theorem ask_tree_unordered {l : Line} (hl : l.verb ∈ [.PASV, .LIST, .RETR]) (u : Site) :
    (srv.ask u l.text).tree = u.tree := by
  have hother : ∀ v ∈ [Verb.DELE, .RMD, .MKD, .STOR], verb l.text ≠ v.name := by
    intro v hv hverb
    rw [verb_text] at hverb
    rw [Verb.name_injective hverb] at hl
    revert hv hl
    cases v <;> decide
  show FileServer.changed u.tree u.dir l.text _ = u.tree
  simp [FileServer.changed, hother]

theorem ask_dir_stays {l : Line} (hl : l.verb ≠ .CWD) (u : Site) :
    (srv.ask u l.text).dir = u.dir :=
  (srv.ask_dir u l).trans (if_neg fun hc => hl hc.1)

theorem openDataConnection_opens (hserves : srv.Serves policy) (s : FtpFileTransfer Site) :
    ∃ data v, openDataConnection srv.channel s = (.ok data, s.withSession v) ∧
      v.dir = s.session.dir ∧ v.tree = s.session.tree := by
  let w := srv.ask s.session (ascii "PASV")
  obtain ⟨hcode, endpoint, hparse, hconnects⟩ :
      (srv.answer s.session (ascii "PASV")).code = 227 ∧ ∃ endpoint,
        parsePasvResponse (srv.answer s.session (ascii "PASV")).full_msg = some endpoint ∧
          ∀ k, ∃ data, srv.data k endpoint = .ok data := hserves.pasv _ _ _
  obtain ⟨data, hdata⟩ := hconnects w.connects
  have hasked : control (srv.channel.sendAndReceiveResponse (ascii "PASV")) s
      = (.ok (srv.answer s.session (ascii "PASV")), s.withSession w) :=
    srv.command_eq (by decide) s
  have hconnect : srv.channel.connectData endpoint w
      = (.ok data, { w with connects := w.connects + 1 }) := by
    simp only [FileServer.channel, hdata]
  have hdir : w.dir = s.session.dir := ask_dir_stays (l := ⟨.PASV, none⟩) (by decide) s.session
  have htree : w.tree = s.session.tree :=
    ask_tree_unordered (l := ⟨.PASV, none⟩) (by decide) s.session
  refine ⟨data, { w with connects := w.connects + 1 }, ?_, hdir, htree⟩
  rw [openDataConnection, bind_ok hasked, if_neg (not_not.mpr hcode)]
  simp only [hparse]
  have hsession : (s.withSession w).session = w := rfl
  simp only [FtpFileTransfer.control, zoom, hsession, hconnect]
  rfl

theorem isTransfer_text {l : Line} (hl : l.verb ∈ [.LIST, .RETR, .STOR]) :
    isTransfer l.text = true := by
  rw [isTransfer, verb_text]
  revert hl
  cases l.verb <;> decide

/- Up to the answer to its command a transfer has no choice. -/
theorem Mirrors.opens (hm : Mirrors srv files s) (hserves : srv.Serves policy)
    (hd : PlainPath srv d) (hdir : files.kind d.names = some .directory) {l : Line}
    (hline : CrlfFree l.text) :
    ∃ data t, openTransfer srv.channel d l.text s
        = (if (srv.answer t.session l.text).code = 150 then .ok data else .error protocolError,
          t.withSession (srv.ask t.session l.text)) ∧
      At d t ∧ Shows t.session.tree files ∧
      (t.capabilities.mlst = true ∨ t.capabilities.size = true) := by
  obtain ⟨c, hc, hat, hcdir⟩ := hm.home
  obtain ⟨u, hnav, hat', htree, hcaps⟩ :=
    changeDirectory_granted hserves.toExact hc hd hat hm.shows hcdir hdir
  obtain ⟨data, v, hopen, hvdir, hvtree⟩ := openDataConnection_opens hserves u
  have hprepare : prepareTransfer srv.channel d s = (.ok data, u.withSession v) :=
    (bind_ok hnav).trans hopen
  refine ⟨data, u.withSession v, ?_, hat'.withSession hvdir, ?_, hcaps ▸ hm.able⟩
  · rw [openTransfer, bind_ok hprepare, bind_ok (srv.command_eq hline _)]
    by_cases hcode : (srv.answer (u.withSession v).session l.text).code = 150
    · rw [if_neg (not_not.mpr hcode), if_pos hcode]
      rfl
    · rw [if_pos hcode, if_neg hcode]
      rfl
  · show Shows v.tree files
    rw [hvtree, htree]
    exact hm.shows

end Opening

/-! ### Completing a transfer -/

/-- One reply is read, and it announces the completion. -/
def Completes {α β : Type} (finish : α → Operation Site β) (a : α) (b : β) : Prop :=
  ∀ u reply rest, u.session.outstanding = reply :: rest → reply.code = 226 →
    finish a u = (.ok b, u.withSession { u.session with outstanding := rest })

section Completing

variable {srv : FileServer} {policy : Policy} {d p : Path} {s t : FtpFileTransfer Site}
  {α β : Type} {phase : Socket → Option (Except ErrorCode α × Socket)}
  {finish : α → Operation Site β} {data left : Socket}

theorem receive_value {u : FtpFileTransfer Site} {reply : Answer} {rest : List Answer}
    (h : u.session.outstanding = reply :: rest) :
    control srv.channel.receiveResponse u
      = (.ok reply, u.withSession { u.session with outstanding := rest }) := by
  simp only [FtpFileTransfer.control, zoom, FileServer.channel, h]

theorem completes_completion {a : α} {b : β}
    (hfinish : finish a = do completion srv.channel; pure b) : Completes finish a b := by
  intro u reply rest hout hcode
  have hdone : completion srv.channel u
      = (.ok (), u.withSession { u.session with outstanding := rest }) := by
    rw [completion, bind_ok (receive_value hout), if_neg (not_not.mpr hcode)]
    rfl
  rw [hfinish]
  exact bind_ok hdone

theorem transfer_refused {line : Bytes} {e : Exit}
    (hopen : openTransfer srv.channel d line s = (.error e, t)) :
    transfer srv.channel d line phase finish s = (.error e, t) :=
  bind_error hopen

/- The transfer ends with the completion, in the directory it began in. -/
theorem transfer_granted (hserves : srv.Serves policy) {l : Line} (hl : l.verb ≠ .CWD)
    (htransfer : isTransfer l.text = true)
    (hopen : openTransfer srv.channel d l.text s
      = (.ok data, t.withSession (srv.ask t.session l.text)))
    (hcode : (srv.answer t.session l.text).code = 150) {a : α} {b : β}
    (hphase : phase data = some (.ok a, left)) (hfinish : Completes finish a b) :
    ∃ v, transfer srv.channel d l.text phase finish s
        = (.ok b, (t.leave srv.channel left).withSession v) ∧
      v.dir = t.session.dir ∧ v.tree = (srv.ask t.session l.text).tree := by
  obtain ⟨reply, rest, hreplies, hreply⟩ := hserves.completed _ _ _ _ htransfer hcode
  have hdata : onData srv.channel (phase data) (t.withSession (srv.ask t.session l.text))
      = (.ok a, (t.leave srv.channel left).withSession (srv.ask t.session l.text)) := by
    rw [hphase]
    rfl
  refine ⟨{ srv.ask t.session l.text with outstanding := rest }, ?_, ask_dir_stays hl _, rfl⟩
  rw [transfer, bind_ok hopen, bind_ok hdata]
  exact hfinish _ reply rest hreplies hreply

theorem Child.target (h : Child srv p) {u : Site} (hu : u.dir = ⟨none, p.parent_path.names⟩) :
    u.target p.filename = ⟨none, p.names⟩ := by
  rw [Site.target, hu, h.split]
  simp [enter, h.filename_ne_nil, h.filename_proper.1, h.filename_proper.2]

end Completing

/-! ### Storing -/

namespace Archive

variable {policy : Policy} {a : Archive} {parent : List Path} {name : Path} {bytes : Bytes}

theorem store_granted (bytes : Bytes) (hparent : a.files.kind parent = some .directory)
    (hentry : a.files.kind (parent ++ [name]) ≠ some .directory)
    (hallowed : policy.allows .STOR a.files (parent ++ [name]) = true) :
    ∃ b, a.store policy parent name bytes = some b ∧
      b.files.kind = Function.update a.files.kind (parent ++ [name]) (some .file) ∧
      b.content = Function.update a.content (parent ++ [name]) bytes := by
  rw [store, dif_pos ⟨hparent, hallowed⟩]
  by_cases hnew : a.files.kind (parent ++ [name]) = none
  · rw [dif_pos hnew]
    exact ⟨_, rfl, rfl, rfl⟩
  · obtain ⟨kind, hkind⟩ := Option.ne_none_iff_exists'.mp hnew
    have hfile : a.files.kind (parent ++ [name]) = some .file := by
      cases kind with
      | file => exact hkind
      | directory => exact absurd hkind hentry
    rw [dif_neg hnew, if_pos hfile]
    refine ⟨_, rfl, ?_, rfl⟩
    rw [← hfile, Function.update_eq_self]

theorem store_refused (bytes : Bytes) (hrefused : ¬ (a.files.kind parent = some .directory ∧
      a.files.kind (parent ++ [name]) ≠ some .directory ∧
      policy.allows .STOR a.files (parent ++ [name]) = true)) :
    a.store policy parent name bytes = none := by
  unfold store
  split
  · rename_i hallowed
    have hdir : a.files.kind (parent ++ [name]) = some .directory := by
      by_contra hne
      exact hrefused ⟨hallowed.1, hne, hallowed.2⟩
    rw [dif_neg (by rw [hdir]; exact Option.some_ne_none _), if_neg (by rw [hdir]; decide)]
  · rfl

theorem kept_update {b : Archive} {contents : Dir → Bytes} {names : List Path}
    (hkept : ∀ comps, a.files.kind comps = some .file → contents ⟨none, comps⟩ = a.content comps)
    (hkind : b.files.kind = Function.update a.files.kind names (some .file))
    (hcontent : b.content = Function.update a.content names bytes) (comps : List Path)
    (hcomps : b.files.kind comps = some .file) :
    Function.update contents ⟨none, names⟩ bytes ⟨none, comps⟩ = b.content comps := by
  rw [hcontent]
  by_cases hcs : comps = names
  · rw [hcs, Function.update_self, Function.update_self]
  · rw [hkind, Function.update_of_ne hcs] at hcomps
    rw [Function.update_of_ne hcs, Function.update_of_ne (by simpa using hcs)]
    exact hkept comps hcomps

end Archive

theorem Child.ask_tree_stor {srv : FileServer} {p : Path} (h : Child srv p) {u : Site}
    (hu : u.dir = ⟨none, p.parent_path.names⟩) :
    (srv.ask u (Line.text ⟨.STOR, some p.filename⟩)).tree
      = if (srv.answer u (Line.text ⟨.STOR, some p.filename⟩)).code = 150 then
          Function.update u.tree ⟨none, p.names⟩ (some .file) else u.tree := by
  have htarget : ({ u.dir with comps := enter u.dir.comps p.filename } : Dir)
      = ⟨none, p.names⟩ := h.target hu
  show FileServer.changed u.tree u.dir (Line.text ⟨.STOR, some p.filename⟩) _ = _
  rw [FileServer.changed, verb_text, argument_text, htarget]
  have hverb : ∀ w : Verb, Verb.STOR.name = w.name ↔ .STOR = w := fun w =>
    ⟨Verb.name_injective, congrArg Verb.name⟩
  simp only [hverb]
  simp

theorem At.leave {srv : FileServer} {d : Path} {t : FtpFileTransfer Site} (h : At d t)
    (data : Socket) : At d (t.leave srv.channel data) := h

theorem Mirrors.in_directory {srv : FileServer} {files : Files} {d : Path}
    {t : FtpFileTransfer Site} {v : Site} (hd : PlainPath srv d) (hat : At d t)
    (hable : t.capabilities.mlst = true ∨ t.capabilities.size = true)
    (hdir : files.kind d.names = some .directory) (hv : v.dir = t.session.dir)
    (hshows : Shows v.tree files) : Mirrors srv files (t.withSession v) :=
  ⟨hshows, ⟨d, hd, hat.withSession hv, hdir⟩, hable⟩

theorem Host.keep_left {h : Host} {r : Request γ} {p : Path} (huploads : r.uploads = some p)
    {t : FtpFileTransfer Site} {data : Socket}
    (ht : t.transfers = h.session.transfers ++ [data]) :
    h.keep r t = Function.update h.contents (t.session.target p.filename) data.sent := by
  simp only [Host.keep, huploads, ht, List.drop_left]

theorem Host.keep_unused {h : Host} {r : Request γ} {t : FtpFileTransfer Site}
    (ht : t.transfers = h.session.transfers) : h.keep r t = h.contents := by
  simp only [Host.keep, ht, List.drop_length]
  cases r.uploads <;> rfl

/-! ### The operations -/

section Operations

variable {srv : FileServer} {policy : Policy} {clock : Clock} {h : Host} {a : Archive} {p : Path}
  {α β : Type} {phase : Socket → Option (Except ErrorCode α × Socket)}
  {finish : α → Operation Site β}

theorem Host.step_eq {r : Request γ} {result : Except Exit (Returned γ)}
    {t : FtpFileTransfer Site} (hrun : r.call srv.channel clock h.session = (result, t)) :
    h.step srv clock r = (result, ⟨t, h.keep r t⟩) := by
  simp only [Host.step, hrun]

/- A call that transfers nothing to the server and makes no file. -/
theorem Host.Holds.of_files (hh : h.Holds srv a) {r : Request γ} {next : Files}
    {result : Except Exit (Returned γ)} {t : FtpFileTransfer Site} (huploads : r.uploads = none)
    (hrun : r.call srv.channel clock h.session = (result, t)) (hmirrors : Mirrors srv next t)
    (hfiles : ∀ comps, next.kind comps = some .file → a.files.kind comps = some .file) :
    h.step srv clock r = (result, ⟨t, h.contents⟩) ∧
      Host.Holds srv ⟨t, h.contents⟩ { a with files := next } := by
  refine ⟨(Host.step_eq hrun).trans ?_, hmirrors, fun comps hcomps => ?_⟩
  · simp only [Host.keep, huploads]
  · exact hh.kept comps (hfiles comps hcomps)

namespace Host.Holds

variable (hh : h.Holds srv a) (hserves : srv.Serves policy) (hp : Child srv p)
  (hparent : a.files.kind p.parent_path.names = some .directory)

include hh hserves hp hparent

theorem reads (hdeliver : ∀ data t,
      openTransfer srv.channel p.parent_path (ascii "RETR " ++ p.filename) h.session
        = (.ok data, t) → Brings data (h.contents (t.session.target p.filename)))
    {Q : β → Prop} (hphase : ∀ data, Brings data (a.content p.names) →
      ∃ x left b, phase data = some (.ok x, left) ∧ Completes finish x b ∧ Q b) :
    ∃ result t,
      transfer srv.channel p.parent_path (ascii "RETR " ++ p.filename) phase finish h.session
        = (result, t) ∧ Mirrors srv a.files t ∧
      (if a.Readable policy p then ∃ b, result = .ok b ∧ Q b
        else result = .error protocolError) := by
  have hline : CrlfFree (Line.text ⟨.RETR, some p.filename⟩) :=
    FileServer.crlfFree_command hp.filename_line.1
  obtain ⟨data, t, hopen, hat, hshows, hable⟩ := hh.mirrors.opens hserves hp.parent hparent hline
  let w := srv.ask t.session (Line.text ⟨.RETR, some p.filename⟩)
  have hwdir : w.dir = t.session.dir := ask_dir_stays (by simp) t.session
  have hwtree : w.tree = t.session.tree := ask_tree_unordered (by simp) t.session
  have hcode : (srv.answer t.session (Line.text ⟨.RETR, some p.filename⟩)).code = 150 ↔
      a.Readable policy p := by
    have hretr := hserves.retr t.session.log.length t.session.tree a.files p.parent_path.names
      p.filename hshows hp.filename_ne_nil hp.filename_proper
    rw [← hat.2, ← hp.split] at hretr
    exact hretr
  by_cases hreadable : a.Readable policy p
  · rw [if_pos (hcode.mpr hreadable)] at hopen
    have hbrings : Brings data (h.contents (w.target p.filename)) :=
      hdeliver data (t.withSession w) hopen
    rw [hp.target (hwdir.trans hat.2), hh.kept p.names hreadable.1] at hbrings
    obtain ⟨x, left, b, hx, hfinish, hb⟩ := hphase data hbrings
    obtain ⟨v, hrun, hvdir, hvtree⟩ := transfer_granted hserves (by simp)
      (isTransfer_text (by simp)) hopen (hcode.mpr hreadable) hx hfinish
    refine ⟨_, _, hrun, .in_directory hp.parent (hat.leave left) hable hparent hvdir ?_, ?_⟩
    · rw [hvtree, hwtree]
      exact hshows
    · rw [if_pos hreadable]
      exact ⟨b, rfl, hb⟩
  · rw [if_neg fun hgranted => hreadable (hcode.mp hgranted)] at hopen
    refine ⟨_, _, transfer_refused hopen, .in_directory hp.parent hat hable hparent hwdir ?_, ?_⟩
    · rw [hwtree]
      exact hshows
    · rw [if_neg hreadable]

/- The server keeps what was sent, and shows it as a file. -/
theorem writes {r : Request γ} (huploads : r.uploads = some p)
    (hdeliver : ∀ data t,
      openTransfer srv.channel p.parent_path (ascii "STOR " ++ p.filename) h.session
        = (.ok data, t) → Writable data ∧ data.sent = [])
    {b : β} {bytes : Bytes} (hphase : ∀ data, Writable data → data.sent = [] →
      ∃ x left, phase data = some (.ok x, left) ∧ left.sent = bytes ∧ Completes finish x b) :
    ∃ t, transfer srv.channel p.parent_path (ascii "STOR " ++ p.filename) phase finish h.session
        = (if (a.store policy p.parent_path.names p.filename bytes).isSome then .ok b
          else .error protocolError, t) ∧
      Host.Holds srv ⟨t, h.keep r t⟩
        ((a.store policy p.parent_path.names p.filename bytes).getD a) := by
  have hline : CrlfFree (Line.text ⟨.STOR, some p.filename⟩) :=
    FileServer.crlfFree_command hp.filename_line.1
  obtain ⟨data, t, hopen, hat, hshows, hable⟩ := hh.mirrors.opens hserves hp.parent hparent hline
  let w := srv.ask t.session (Line.text ⟨.STOR, some p.filename⟩)
  have hwdir : w.dir = t.session.dir := ask_dir_stays (by simp) t.session
  have hwtree := hp.ask_tree_stor hat.2
  have hcode := hserves.stor t.session.log.length t.session.tree a.files p.parent_path.names
    p.filename hshows hp.filename_ne_nil hp.filename_proper
  rw [← hat.2] at hcode
  by_cases hgranted : (srv.answer t.session (Line.text ⟨.STOR, some p.filename⟩)).code = 150
  · obtain ⟨hdir, hentry, hallowed⟩ := hcode.mp hgranted
    obtain ⟨b', hstore, hkind, hcontent⟩ := Archive.store_granted bytes hdir hentry hallowed
    rw [if_pos hgranted] at hopen hwtree
    obtain ⟨hwritable, hfresh⟩ := hdeliver data (t.withSession w) hopen
    obtain ⟨x, left, hx, hsent, hfinish⟩ := hphase data hwritable hfresh
    obtain ⟨v, hrun, hvdir, hvtree⟩ := transfer_granted hserves (by simp)
      (isTransfer_text (by simp)) hopen hgranted hx hfinish
    have hbefore : t.transfers = h.session.transfers :=
      openTransfer_transfers (u := t.withSession w) hopen
    have hleft : ((t.leave srv.channel left).withSession v).transfers
        = h.session.transfers ++ [left] := congrArg (· ++ _) hbefore
    have hcontents : h.keep r ((t.leave srv.channel left).withSession v)
        = Function.update h.contents ⟨none, p.names⟩ bytes := by
      rw [Host.keep_left huploads hleft, hsent]
      exact congrArg (Function.update h.contents · bytes) (hp.target (hvdir.trans hat.2))
    have hbelow : p.parent_path.names ≠ p.names := by
      rw [hp.split]
      simp
    rw [← hp.split] at hkind hcontent
    rw [hstore]
    refine ⟨_, hrun, .in_directory hp.parent (hat.leave left) hable ?_ hvdir ?_, ?_⟩
    · rw [Option.getD_some, hkind, Function.update_of_ne hbelow]
      exact hparent
    · rw [hvtree, hwtree]
      exact hshows.update hkind
    · rw [hcontents]
      exact Archive.kept_update hh.kept hkind hcontent
  · rw [if_neg hgranted] at hopen hwtree
    have hstore := Archive.store_refused bytes fun hallowed => hgranted (hcode.mpr hallowed)
    rw [hstore]
    refine ⟨_, transfer_refused hopen, .in_directory hp.parent hat hable hparent hwdir ?_, ?_⟩
    · rw [hwtree]
      exact hshows
    · rw [Host.keep_unused (openTransfer_transfers hopen)]
      exact hh.kept

end Host.Holds

theorem Enumerates.congr {kind kind' : Path → Option Kind} {content content' : Path → Bytes}
    {entries : List (Path × ℕ)} (h : Enumerates kind content entries)
    (hkind : ∀ n, kind' n = kind n) (hcontent : ∀ n, kind n = some .file → content' n = content n) :
    Enumerates kind' content' entries := by
  refine ⟨h.once, fun n => by rw [hkind]; exact h.all n, fun n size hmem hfile => ?_⟩
  rw [hkind] at hfile
  rw [hcontent n hfile]
  exact h.size n size hmem hfile

theorem Host.Holds.lists (hh : h.Holds srv a) (hserves : srv.Serves policy)
    (hp : PlainPath srv p) (hdir : a.files.kind p.names = some .directory)
    (hdeliver : h.Delivers srv clock (.list p : Request γ)) :
    ∃ result t, FtpFileTransfer.list srv.channel clock p h.session = (result, t) ∧
      a.Answers policy clock (.list p : Request γ) (result.map .listed) ∧
      Mirrors srv a.files t := by
  have hline : CrlfFree (Line.text ⟨.LIST, none⟩) := by decide
  obtain ⟨data, t, hopen, hat, hshows, hable⟩ := hh.mirrors.opens hserves hp hdir hline
  let w := srv.ask t.session (Line.text ⟨.LIST, none⟩)
  have hwdir : w.dir = t.session.dir := ask_dir_stays (by simp) t.session
  have hwtree : w.tree = t.session.tree := ask_tree_unordered (by simp) t.session
  have hcode := hserves.list t.session.log.length t.session.tree a.files p.names hshows
  rw [← hat.2] at hcode
  by_cases hgranted : (srv.answer t.session (Line.text ⟨.LIST, none⟩)).code = 150
  · rw [if_pos hgranted] at hopen
    obtain ⟨entries, hbrings, hdated, henumerates⟩ := hdeliver data (t.withSession w) hopen
    obtain ⟨left, hread⟩ := receiveRawResponse_brings hbrings
    obtain ⟨v, hrun, hvdir, hvtree⟩ : ∃ v, FtpFileTransfer.list srv.channel clock p h.session
        = (.ok (entries.map fun x => x.1.file clock),
          (t.leave srv.channel left).withSession v) ∧
        v.dir = t.session.dir ∧ v.tree = w.tree := by
      refine transfer_granted hserves (by simp) (isTransfer_text (by simp)) hopen hgranted hread ?_
      intro u reply rest hout _
      simp only [parseListing_files hdated]
      exact bind_ok (receive_value hout)
    refine ⟨_, _, hrun, ?_, .in_directory hp (hat.leave left) hable hdir hvdir ?_⟩
    · rw [Archive.Answers, if_pos (hcode.mp hgranted)]
      refine ⟨_, rfl, ?_⟩
      have hfiles : (entries.map fun x => x.1.file clock).map
          (fun file => (file.file_name, file.size))
            = entries.map fun x => (x.1.name.bytes, x.1.size) := by
        rw [List.map_map]
        rfl
      rw [hfiles]
      have hbelow : ∀ n, w.below n = ⟨none, p.names ++ [n]⟩ := fun n => by
        rw [Site.below, hwdir, hat.2]
      have hkind : ∀ n, w.tree (w.below n) = a.files.kind (p.names ++ [n]) := fun n => by
        rw [hbelow, hwtree, hshows]
      refine henumerates.congr (fun n => (hkind n).symm) fun n hfile => ?_
      show _ = h.contents (w.below n)
      rw [hbelow, hh.kept _ ((hkind n).symm.trans hfile)]
    · rw [hvtree, hwtree]
      exact hshows
  · rw [if_neg hgranted] at hopen
    refine ⟨_, _, transfer_refused hopen, ?_, .in_directory hp hat hable hdir hwdir ?_⟩
    · rw [Archive.Answers, if_neg fun hallowed => hgranted (hcode.mpr hallowed)]
      rfl
    · rw [hwtree]
      exact hshows

theorem Files.createDir_file {files : Files} {parent comps : List Path} {name : Path}
    (h : (files.createDir policy parent name).2.kind comps = some .file) :
    files.kind comps = some .file := by
  unfold Files.createDir at h
  split at h
  · split at h
    · by_cases hcs : comps = parent ++ [name]
      · rw [hcs] at h
        cases (Function.update_self ..).symm.trans h
      · exact (Function.update_of_ne hcs ..).symm.trans h
    · exact h
  · exact h

theorem Files.remove_file {files : Files} {parent comps : List Path} {name : Path}
    (h : (files.remove policy parent name).2.kind comps = some .file) :
    files.kind comps = some .file := by
  have herase : Function.update files.kind (parent ++ [name]) none comps = some .file →
      files.kind comps = some .file := by
    intro h
    by_cases hcs : comps = parent ++ [name]
    · rw [hcs] at h
      cases (Function.update_self ..).symm.trans h
    · exact (Function.update_of_ne hcs ..).symm.trans h
  unfold Files.remove at h
  split at h
  · exact herase h
  · split at h
    · exact herase h
    · exact h

theorem map_granted {c : Prop} [Decidable c] (b : α) (f : α → β) :
    (if c then .ok b else .error protocolError : Except Exit α).map f
      = if c then .ok (f b) else .error protocolError := by
  split
  · rfl
  · rfl

theorem Host.Holds.run_call (hh : h.Holds srv a) (hserves : srv.Serves policy) {r : Request γ}
    (hplain : r.Plain srv) (hdir : a.files.kind r.target.names = some .directory)
    (hcooperates : Archive.Cooperates r) (hdeliver : h.Delivers srv clock r) :
    a.Answers policy clock r (h.step srv clock r).1 ∧
      (h.step srv clock r).2.Holds srv (a.next policy r) := by
  cases r with
  | createDir p =>
    obtain ⟨t, hrun, hmade⟩ :=
      hh.mirrors.run_createDir hserves.toConforms (hplain.1.child hplain.2) hdir
    obtain ⟨hstep, hholds⟩ := hh.of_files (r := (.createDir p : Request γ)) rfl
      (bind_pure_eq hrun) hmade fun _ => Files.createDir_file
    rw [hstep]
    exact ⟨rfl, hholds⟩
  | exists_ p =>
    obtain ⟨t, hrun, -, hasked⟩ :=
      hh.mirrors.run_exists hserves.toConforms (hplain.1.child hplain.2) hdir
    obtain ⟨hstep, hholds⟩ := hh.of_files (r := (.exists_ p : Request γ)) rfl
      (bind_pure_eq hrun) hasked fun _ => id
    rw [hstep]
    exact ⟨rfl, hholds⟩
  | remove p =>
    obtain ⟨t, hrun, hgone⟩ :=
      hh.mirrors.run_remove hserves.toConforms (hplain.1.child hplain.2) hdir
    obtain ⟨hstep, hholds⟩ := hh.of_files (r := (.remove p : Request γ)) rfl
      (bind_pure_eq hrun) hgone fun _ => Files.remove_file
    rw [hstep]
    exact ⟨rfl, hholds⟩
  | isDirectory p =>
    obtain ⟨t, hrun, -, hasked⟩ :=
      hh.mirrors.run_isDirectory hserves.toConforms (hplain.1.child hplain.2) hdir
    obtain ⟨hstep, hholds⟩ := hh.of_files (r := (.isDirectory p : Request γ)) rfl
      (bind_pure_eq hrun) hasked fun _ => id
    rw [hstep]
    exact ⟨rfl, hholds⟩
  | list p =>
    obtain ⟨result, t, hrun, hanswers, hmirrors⟩ := hh.lists hserves hplain hdir hdeliver
    obtain ⟨hstep, hholds⟩ := hh.of_files (r := (.list p : Request γ)) rfl
      (bind_pure_eq hrun) hmirrors fun _ => id
    rw [hstep]
    exact ⟨hanswers, hholds⟩
  | read p =>
    obtain ⟨result, t, hrun, hmirrors, hresult⟩ : ∃ result t,
        FtpFileTransfer.read srv.channel p h.session = (result, t) ∧ Mirrors srv a.files t ∧
        (if a.Readable policy p then ∃ b, result = .ok b ∧ b = a.content p.names
          else result = .error protocolError) := by
      refine hh.reads hserves (hplain.1.child hplain.2) hdir hdeliver fun data hbrings => ?_
      obtain ⟨left, hread⟩ := receiveRawResponse_brings hbrings
      exact ⟨_, left, _, hread, completes_completion rfl, rfl⟩
    obtain ⟨hstep, hholds⟩ := hh.of_files (r := (.read p : Request γ)) rfl
      (bind_pure_eq hrun) hmirrors fun _ => id
    rw [hstep]
    refine ⟨?_, hholds⟩
    rw [Archive.Answers]
    by_cases hreadable : a.Readable policy p
    · rw [if_pos hreadable] at hresult ⊢
      obtain ⟨b, rfl, rfl⟩ := hresult
      rfl
    · rw [if_neg hreadable] at hresult ⊢
      rw [hresult]
      rfl
  | readCallback p callback g =>
    obtain ⟨result, t, hrun, hmirrors, hresult⟩ : ∃ result t,
        FtpFileTransfer.readCallback srv.channel p callback g h.session = (result, t) ∧
        Mirrors srv a.files t ∧
        (if a.Readable policy p then ∃ b, result = .ok b ∧ ∃ g' chunks,
            b = (g', (a.content p.names).length) ∧ CalledWith callback g g' chunks ∧
              chunks.flatten = a.content p.names
          else result = .error protocolError) := by
      refine hh.reads hserves (hplain.1.child hplain.2) hdir hdeliver fun data hbrings => ?_
      obtain ⟨g', left, chunks, hread, hcalled, hchunks⟩ := consumeBy_brings hcooperates g hbrings
      exact ⟨_, left, _, hread, completes_completion rfl, g', chunks, rfl, hcalled, hchunks⟩
    obtain ⟨hstep, hholds⟩ := hh.of_files (r := .readCallback p callback g) rfl
      (bind_pure_eq hrun) hmirrors fun _ => id
    rw [hstep]
    refine ⟨?_, hholds⟩
    rw [Archive.Answers]
    by_cases hreadable : a.Readable policy p
    · rw [if_pos hreadable] at hresult ⊢
      obtain ⟨b, rfl, g', chunks, rfl, hcalled, hchunks⟩ := hresult
      exact ⟨g', chunks, rfl, hcalled, hchunks⟩
    · rw [if_neg hreadable] at hresult ⊢
      rw [hresult]
      rfl
  | write p bytes =>
    obtain ⟨t, hrun, hholds⟩ : ∃ t, FtpFileTransfer.write srv.channel clock p bytes h.session
        = (if (a.store policy p.parent_path.names p.filename bytes).isSome then
            .ok ⟨clock.now, bytes.length, p.filename, p⟩ else .error protocolError, t) ∧
        Host.Holds srv ⟨t, h.keep (.write p bytes : Request γ) t⟩
          ((a.store policy p.parent_path.names p.filename bytes).getD a) := by
      refine hh.writes hserves (hplain.1.child hplain.2) hdir rfl hdeliver
        fun data hwritable hfresh => ?_
      obtain ⟨data', hwrite, hwrote, -⟩ := writeAll_writable bytes hwritable
      refine ⟨bytes.length, data', by rw [hwrite], ?_, completes_completion rfl⟩
      rw [hwrote.sent, hfresh, List.nil_append]
    have hstep := Host.step_eq (r := (.write p bytes : Request γ)) (bind_pure_eq hrun)
    rw [hstep, map_granted]
    exact ⟨rfl, hholds⟩
  | writeCallback p chunks =>
    obtain ⟨t, hrun, hholds⟩ : ∃ t,
        FtpFileTransfer.writeCallback srv.channel clock p chunks h.session
          = (if (a.store policy p.parent_path.names p.filename (supplied chunks)).isSome then
              .ok ⟨clock.now, (supplied chunks).length, p.filename, p⟩
            else .error protocolError, t) ∧
        Host.Holds srv ⟨t, h.keep (.writeCallback p chunks : Request γ) t⟩
          ((a.store policy p.parent_path.names p.filename (supplied chunks)).getD a) := by
      refine hh.writes hserves (hplain.1.child hplain.2) hdir rfl hdeliver
        fun data hwritable hfresh => ?_
      obtain ⟨data', hsend, hsent⟩ := writeChunks_supplied hcooperates hwritable 0
      rw [Nat.zero_add] at hsend
      refine ⟨(supplied chunks).length, data', hsend, ?_, completes_completion rfl⟩
      rw [hsent, hfresh, List.nil_append]
    have hstep := Host.step_eq (r := (.writeCallback p chunks : Request γ)) (bind_pure_eq hrun)
    rw [hstep, map_granted]
    exact ⟨rfl, hholds⟩

end Operations

/-! ### Runs -/

theorem Host.Holds.run_calls {srv : FileServer} {policy : Policy} {clock : Clock} {h : Host}
    {a : Archive} (hserves : srv.Serves policy) {rs : List (Request γ)} (hh : h.Holds srv a)
    (hfit : a.Fitting policy srv rs) (hdeliver : h.DeliversAll srv clock rs) :
    a.AnswersAll policy clock rs (h.runAll srv clock rs).1 ∧
      (h.runAll srv clock rs).2.Holds srv (a.after policy rs) := by
  induction rs generalizing h a with
  | nil => exact ⟨rfl, hh⟩
  | cons r rs ih =>
    obtain ⟨⟨hplain, hdir, hcooperates⟩, hrest⟩ := hfit
    obtain ⟨hone, hmore⟩ := hdeliver
    obtain ⟨hanswers, hnext⟩ := hh.run_call hserves hplain hdir hcooperates hone
    obtain ⟨hall, hlast⟩ := ih hnext hrest hmore
    exact ⟨⟨_, _, rfl, hanswers, hall⟩, hlast⟩

/-- Over every run of all operations on a new object: each result is the archive's, and in the
end the server has the archive's files with the contents the archive gives them. -/
theorem session_archive (srv : FileServer) (policy : Policy) (clock : Clock) (tree : Tree)
    (contents : Dir → Bytes) (a : Archive) (capabilities : FtpCapabilities)
    (rs : List (Request γ)) (hserves : srv.Serves policy)
    (hable : capabilities.mlst = true ∨ capabilities.size = true) (hshows : Shows tree a.files)
    (hkept : ∀ comps, a.files.kind comps = some .file → contents ⟨none, comps⟩ = a.content comps)
    (hfit : a.Fitting policy srv rs)
    (hdeliver : Host.DeliversAll srv clock
      ⟨{ FtpFileTransfer.construct (.initial tree) with capabilities }, contents⟩ rs) :
    let h : Host := ⟨{ FtpFileTransfer.construct (.initial tree) with capabilities }, contents⟩
    a.AnswersAll policy clock rs (h.runAll srv clock rs).1 ∧
      Shows (h.runAll srv clock rs).2.session.session.tree (a.after policy rs).files ∧
      ∀ comps, (a.after policy rs).files.kind comps = some .file →
        (h.runAll srv clock rs).2.contents ⟨none, comps⟩ = (a.after policy rs).content comps := by
  intro h
  have hholds : h.Holds srv a := ⟨mirrors_construct hable hshows, hkept⟩
  obtain ⟨hall, hlast⟩ := hholds.run_calls hserves hfit hdeliver
  exact ⟨hall, hlast.mirrors.shows, hlast.kept⟩

/-! ### A server that stores files -/

/- The answer to a line of a transfer, from what is there and at the entry. -/
def storingAnswer (here target : Option Kind) (verb : Bytes) : Option (Answer × List Answer) :=
  let transferred := (⟨[], 150⟩, [⟨[], 226⟩])
  let refused := (⟨[], 550⟩, [])
  if verb = Verb.name .PASV then some (⟨ascii "227 (127,0,0,1,4,1)", 227⟩, [])
  else if verb = Verb.name .LIST then some transferred
  else if verb = Verb.name .RETR then
    some (if target = some .file then transferred else refused)
  else if verb = Verb.name .STOR then
    some (if here = some .directory ∧ target ≠ some .directory then transferred else refused)
  else none

/- What comes over its data connections is given. -/
def storingServer (connections : ℕ → Socket) : FileServer where
  drives _ := false
  reply i tree dir line :=
    (storingAnswer (tree dir) (tree { dir with comps := enter dir.comps (argument line) })
      (verb line)).getD (keepingServer.reply i tree dir line)
  data k _ := .ok (connections k)

section Answers

variable (here target : Option Kind)

theorem storingAnswer_other {v : Verb} (hv : v ∉ [.PASV, .LIST, .RETR, .STOR]) :
    storingAnswer here target v.name = none := by
  have hname : ∀ w ∈ [Verb.PASV, .LIST, .RETR, .STOR], v.name ≠ w.name := by
    intro w hw hvw
    rw [← Verb.name_injective hvw] at hw
    exact hv hw
  simp [storingAnswer, hname]

theorem storingAnswer_transfers :
    (storingAnswer here target (Verb.name .LIST)).map (·.1.code) = some 150 ∧
    (storingAnswer here target (Verb.name .RETR)).map (·.1.code)
      = some (if target = some .file then 150 else 550) ∧
    (storingAnswer here target (Verb.name .STOR)).map (·.1.code)
      = some (if here = some .directory ∧ target ≠ some .directory then 150 else 550) := by
  rcases here with _ | _ | _ <;> rcases target with _ | _ | _ <;> decide

theorem storingAnswer_completed {verb : Bytes} {a : Answer × List Answer}
    (h : storingAnswer here target verb = some a) (hcode : a.1.code = 150) :
    a.2 = [⟨[], 226⟩] := by
  unfold storingAnswer at h
  split_ifs at h
  all_goals cases h
  all_goals first | rfl | cases hcode

theorem keepingAnswer_not_transfer (verb : Bytes) :
    (keepingAnswer here target verb).code ≠ 150 := by
  unfold keepingAnswer
  split_ifs
  all_goals first | decide | rcases target with _ | _ | _ <;> decide

end Answers

section StoringServer

variable (connections : ℕ → Socket)

theorem storingServer_other {v : Verb} (hv : v ∉ [.PASV, .LIST, .RETR, .STOR]) (i : ℕ)
    (tree : Tree) (dir : Dir) (name : Path) :
    (storingServer connections).reply i tree dir (Line.text ⟨v, some name⟩)
      = keepingServer.reply i tree dir (Line.text ⟨v, some name⟩) := by
  show (storingAnswer _ _ (verb (Line.text ⟨v, some name⟩))).getD _ = _
  rw [verb_text, storingAnswer_other _ _ hv]
  rfl

theorem storingServer_conforms : (storingServer connections).Conforms keeping where
  cwd i tree dir name := by
    have hreply := storingServer_other connections (v := .CWD) (by decide) i tree dir name
    exact (iff_of_eq (congrArg (·.1.code = 250) hreply)).trans
      (keepingServer_exact.cwd i tree dir name)
  mlst i tree dir name := by
    have hreply := storingServer_other connections (v := .MLST) (by decide) i tree dir name
    exact (iff_of_eq (congrArg (·.1.code = 250) hreply)).trans
      (keepingServer_exact.mlst i tree dir name)
  size i tree dir name := by
    have hreply := storingServer_other connections (v := .SIZE) (by decide) i tree dir name
    exact (iff_of_eq (congrArg (·.1.code = 213) hreply)).trans
      (keepingServer_exact.size i tree dir name)
  refused i tree dir name := by
    have hreply := storingServer_other connections (v := .CWD) (by decide) i tree dir name
    have hcode := keepingServer_conforms.refused i tree dir name
    rwa [← show _ = keepingServer.reply i tree dir (ascii "CWD " ++ name) from hreply] at hcode
  fact i tree dir name kind hkind := by
    have hreply := storingServer_other connections (v := .MLST) (by decide) i tree dir name
    have hfact := keepingServer_conforms.fact i tree dir name kind hkind
    rwa [← show _ = keepingServer.reply i tree dir (ascii "MLST " ++ name) from hreply] at hfact
  mkd i tree files parent name hshows hne hname := by
    have hreply :=
      storingServer_other connections (v := .MKD) (by decide) i tree ⟨none, parent⟩ name
    exact (iff_of_eq (congrArg (·.1.code = 257) hreply)).trans
      (keepingServer_conforms.mkd i tree files parent name hshows hne hname)
  rmd i tree files parent name hshows hne hname := by
    have hreply :=
      storingServer_other connections (v := .RMD) (by decide) i tree ⟨none, parent⟩ name
    exact (iff_of_eq (congrArg (·.1.code = 250) hreply)).trans
      (keepingServer_conforms.rmd i tree files parent name hshows hne hname)
  dele i tree files parent name hshows hne hname := by
    have hreply :=
      storingServer_other connections (v := .DELE) (by decide) i tree ⟨none, parent⟩ name
    exact (iff_of_eq (congrArg (·.1.code = 250) hreply)).trans
      (keepingServer_conforms.dele i tree files parent name hshows hne hname)

theorem storingServer_entry (v : Verb) (i : ℕ) {tree : Tree} {files : Files}
    (hshows : Shows tree files) (parent : List Path) {name : Path} (hne : name ≠ [])
    (hname : Proper name) {code : ℕ}
    (hcode : (storingAnswer (files.kind parent) (files.kind (parent ++ [name])) v.name).map
      (·.1.code) = some code) :
    ((storingServer connections).reply i tree ⟨none, parent⟩
      (Line.text ⟨v, some name⟩)).1.code = code := by
  have henter : enter parent name = parent ++ [name] := by
    simp [enter, hne, hname.1, hname.2]
  obtain ⟨a, ha, rfl⟩ := Option.map_eq_some_iff.mp hcode
  show ((storingAnswer (tree ⟨none, parent⟩) (tree ⟨none, enter parent (argument _)⟩)
    (verb (Line.text ⟨v, some name⟩))).getD _).1.code = _
  rw [verb_text, argument_text, henter, hshows, hshows, ha]
  rfl

theorem storingServer_serves : (storingServer connections).Serves keeping where
  toConforms := storingServer_conforms connections
  pasv _ _ _ := ⟨rfl, ⟨2130706433, 1025⟩, rfl, fun k => ⟨_, rfl⟩⟩
  list _ _ _ _ _ := iff_of_true rfl rfl
  retr i tree files parent name hshows hne hname := by
    have hreply := storingServer_entry connections .RETR i hshows parent hne hname
      (storingAnswer_transfers _ _).2.1
    refine (iff_of_eq (congrArg (· = 150) hreply)).trans ?_
    by_cases hfile : files.kind (parent ++ [name]) = some .file
    · rw [if_pos hfile]
      exact iff_of_true rfl ⟨hfile, rfl⟩
    · rw [if_neg hfile]
      exact iff_of_false (by decide) fun h => hfile h.1
  stor i tree files parent name hshows hne hname := by
    have hreply := storingServer_entry connections .STOR i hshows parent hne hname
      (storingAnswer_transfers _ _).2.2
    refine (iff_of_eq (congrArg (· = 150) hreply)).trans ?_
    by_cases hentry : files.kind parent = some .directory ∧
        files.kind (parent ++ [name]) ≠ some .directory
    · rw [if_pos hentry]
      exact iff_of_true rfl ⟨hentry.1, hentry.2, rfl⟩
    · rw [if_neg hentry]
      exact iff_of_false (by decide) fun h => hentry ⟨h.1, h.2.1⟩
  completed i tree dir line _ hcode := by
    let target := tree { dir with comps := enter dir.comps (argument line) }
    cases hanswer : storingAnswer (tree dir) target (verb line) with
    | none =>
      have hreply : (storingServer connections).reply i tree dir line
          = (keepingAnswer (tree dir) target (verb line), []) :=
        congrArg (Option.getD · _) hanswer
      rw [hreply] at hcode
      exact absurd hcode (keepingAnswer_not_transfer _ _ _)
    | some a =>
      have hreply : (storingServer connections).reply i tree dir line = a :=
        congrArg (Option.getD · _) hanswer
      rw [hreply] at hcode ⊢
      exact ⟨_, _, storingAnswer_completed _ _ hanswer hcode, rfl⟩

end StoringServer

/-! ### A run -/

section ArchiveRun

def segments (bs : List Bytes) : Socket :=
  Socket.fresh (bs.map .data ++ [.fail ⟨.asio .eof, false⟩])

def rootEntry : DirEntry :=
  { recentEntry with
    size := 2
    size_lt := by decide
    name := ⟨ascii "a", by decide, by decide, fun b hb => by cases hb; decide,
      fun b hb => by cases hb; decide⟩ }

def rootListing : List (DirEntry × Layout) := [(rootEntry, ⟨fun _ => 0, true⟩)]

def archiveServer : FileServer :=
  storingServer fun k =>
    match k with
    | 0 => segments [render rootListing]
    | 1 => segments [[7], [8]]
    | 3 => segments [[1, 2], [3]]
    | 5 => segments [[9]]
    | _ => Socket.fresh []

def archiveClock : Clock := civilClock 0 1736942400

def archiveAtRoot : Archive :=
  ⟨fileAtRoot, fun comps => if comps = [ascii "a"] then [7, 8] else []⟩

def archiveHost : Host where
  session := { FtpFileTransfer.construct (.initial fun dir =>
      if dir.drive = none then fileAtRoot.kind dir.comps else none) with
    capabilities := { FtpCapabilities.default with mlst := true } }
  contents dir := archiveAtRoot.content dir.comps

def archiveCalls : List (Request (List Bytes)) :=
  [.list (ascii "/"), .read (ascii "/a"), .writeCallback (ascii "/a") [.ok [1], .ok [2, 3], .ok []],
    .readCallback (ascii "/a") collecting [], .createDir (ascii "/d"),
    .write (ascii "/d/b") [9], .read (ascii "/d/b")]

theorem of_opened {srv : FileServer} {d : Path} {line : Bytes} {s : FtpFileTransfer Site}
    {P : Socket → FtpFileTransfer Site → Prop} [∀ data t, Decidable (P data t)]
    (h : ((openTransfer srv.channel d line s).1.toOption.map fun data =>
      decide (P data (openTransfer srv.channel d line s).2)).getD true = true)
    (data : Socket) (t : FtpFileTransfer Site)
    (hopen : openTransfer srv.channel d line s = (.ok data, t)) : P data t := by
  rw [hopen] at h
  exact of_decide_eq_true h

instance (data : Socket) : Decidable (Writable data) :=
  inferInstanceAs (Decidable (_ ∧ ∀ e ∈ _, _))

theorem archiveHost_holds : archiveHost.Holds archiveServer archiveAtRoot :=
  ⟨mirrors_construct (.inl rfl) fun _ => rfl, fun _ _ => rfl⟩

theorem rootListing_enumerates :
    Enumerates (fun n => fileAtRoot.kind [n]) (fun n => archiveAtRoot.content [n])
      (rootListing.map fun x => (x.1.name.bytes, x.1.size)) := by
  have hkind : ∀ n : Path, fileAtRoot.kind [n] = if n = ascii "a" then some .file else none := by
    intro n
    simp [fileAtRoot]
  refine ⟨by decide, fun n => ?_, fun n size hmem _ => ?_⟩
  · show n ∈ [ascii "a"] ↔ fileAtRoot.kind [n] ≠ none
    rw [hkind, List.mem_singleton]
    simp
  · obtain ⟨rfl, rfl⟩ := Prod.mk.inj (List.mem_singleton.mp hmem)
    rfl

theorem archiveHost_lists :
    archiveHost.Delivers archiveServer archiveClock (.list (ascii "/") : Request ℕ) := by
  intro data t hopen
  have hroot : names (ascii "/") = [] := by decide
  have hbrings := of_opened (P := fun data _ => Brings data (render rootListing))
    (by decide +kernel) data t hopen
  obtain ⟨data', u, hopen', hat, hshows, -⟩ := archiveHost_holds.mirrors.opens
    (storingServer_serves _) FileServer.plain_root (hroot ▸ fileAtRoot.root)
    (l := ⟨.LIST, none⟩) (by decide)
  have ht : u.withSession (archiveServer.ask u.session (ascii "LIST")) = t :=
    (Prod.mk.inj (hopen'.symm.trans hopen)).2
  have hdir : t.session.dir = ⟨none, []⟩ := by
    rw [← ht]
    exact (ask_dir_stays (l := ⟨.LIST, none⟩) (by decide) u.session).trans (hroot ▸ hat.2)
  have htree : t.session.tree = u.session.tree := by
    rw [← ht]
    exact ask_tree_unordered (l := ⟨.LIST, none⟩) (by decide) u.session
  have hbelow : ∀ n, t.session.below n = ⟨none, [n]⟩ := fun n => by
    rw [Site.below, hdir]
    rfl
  refine ⟨rootListing, hbrings, ?_, rootListing_enumerates.congr (fun n => ?_) fun n _ => ?_⟩
  · exact List.forall_mem_singleton.mpr ⟨fun n h => (by cases h), by decide +kernel⟩
  · rw [hbelow, htree]
    exact hshows [n]
  · rw [hbelow]
    rfl

theorem archive_delivers : archiveHost.DeliversAll archiveServer archiveClock archiveCalls := by
  refine ⟨archiveHost_lists, ?_, ?_, ?_, trivial, ?_, ?_, trivial⟩
  · exact of_opened (by decide +kernel)
  · exact of_opened (by decide +kernel)
  · exact of_opened (by decide +kernel)
  · exact of_opened (by decide +kernel)
  · exact of_opened (by decide +kernel)

/- The directory is listed; the file is read, written anew in two chunks and streamed to a
callback, and one is written into a new directory. -/
theorem session_archive_rewritten :
    ∃ files calls chunks, (archiveHost.runAll archiveServer archiveClock archiveCalls).1
      = [.ok (.listed files), .ok (.bytes [7, 8]),
        .ok (.written ⟨1736942400, 3, ascii "a", ascii "/a"⟩), .ok (.streamed calls 3), .ok .done,
        .ok (.written ⟨1736942400, 1, ascii "b", ascii "/d/b"⟩), .ok (.bytes [9])] ∧
      Enumerates (fun n => fileAtRoot.kind [n]) (fun n => archiveAtRoot.content [n])
        (files.map fun file => (file.file_name, file.size)) ∧
      CalledWith collecting [] calls chunks ∧ chunks.flatten = [1, 2, 3] := by
  have hplain : ∀ p, PlainPath archiveServer p ↔ isPosixAbsolute p = true ∧ normalize p = p ∧
      p.trailing = false ∧ CrlfFree p := by
    intro p
    refine ⟨fun h => ⟨h.absolute, h.normal, h.untrailed, h.line⟩, fun h => ?_⟩
    exact ⟨h.1, h.2.1, h.2.2.1, h.2.2.2, fun _ _ => rfl⟩
  have hfit : archiveAtRoot.Fitting keeping archiveServer archiveCalls := by
    have hcounts : TakesAll collecting := fun _ _ => rfl
    simp only [archiveCalls, Archive.Fitting, Request.Plain, Request.path, hplain,
      Archive.Cooperates, hcounts]
    decide +kernel
  obtain ⟨hall, -⟩ := session_archive archiveServer keeping archiveClock _ _ archiveAtRoot _
    archiveCalls (storingServer_serves _) (.inl rfl) (fun _ => rfl) (fun _ _ => rfl) hfit
    archive_delivers
  obtain ⟨_, _, hresults, hlist, _, _, rfl, rfl, _, _, rfl, rfl, _, _, rfl, hstream, _, _, rfl,
    rfl, _, _, rfl, rfl, _, _, rfl, rfl, rfl⟩ := hall
  obtain ⟨files, rfl, hfiles⟩ := hlist
  let written : Archive := archiveAtRoot.after keeping (archiveCalls.take 3)
  have hreadable : written.Readable keeping (ascii "/a") := by decide +kernel
  have hcontent : written.content (names (ascii "/a")) = [1, 2, 3] := by decide +kernel
  change written.Answers keeping archiveClock (.readCallback (ascii "/a") collecting []) _
    at hstream
  rw [Archive.Answers, if_pos hreadable] at hstream
  obtain ⟨calls, chunks, rfl, hcalled, hchunks⟩ := hstream
  refine ⟨files, calls, chunks, hresults.trans ?_, hfiles, hcalled, hchunks.trans hcontent⟩
  have hlength : (written.content (names (ascii "/a"))).length = 3 := by rw [hcontent]; rfl
  refine congrArg (_ :: ·) (congrArg₂ List.cons (by decide +kernel)
    (congrArg₂ List.cons (by decide +kernel) (congrArg₂ List.cons ?_ (by decide +kernel))))
  exact congrArg (fun n => Except.ok (Returned.streamed calls n)) hlength

end ArchiveRun

end NetworkStack.Ftp
