import Mathlib.Logic.Function.Basic
import NetworkStack.Ftp.Conversation
import NetworkStack.Ftp.Navigation

/-!
# A server with files

The server has files and a working directory. It answers every command, and the
client takes the answer to the command it has just sent. What a line does to the
server shows in the code it is answered with.
-/

namespace NetworkStack.Ftp

open FtpFileTransfer Hoare Path SocketDetail Utility

inductive Kind where
  | file
  | directory
  deriving DecidableEq

abbrev Tree := Dir → Option Kind

/- `reply` gives the answer to the line of that number, and what is sent after it when
the line starts a transfer. -/
structure FileServer where
  drives : Bytes → Bool
  reply : ℕ → Tree → Dir → Bytes → Answer × List Answer
  data : ℕ → Endpoint → Except ErrorCode Socket

/-- A line the server has heard: where it was then, and its answer. -/
structure Entry where
  dir : Dir
  line : Bytes
  code : ℕ
  deriving DecidableEq

structure Site where
  dir : Dir
  tree : Tree
  outstanding : List Answer
  log : List Entry
  connects : ℕ

def Site.initial (tree : Tree) : Site := ⟨Dir.root, tree, [], [], 0⟩

/-! ### Lines -/

def argument (line : Bytes) : Bytes := (line.dropWhile (· != 32)).drop 1

theorem takeWhile_verb (v : Verb) (rest : Bytes) :
    (v.name ++ 32 :: rest).takeWhile (· != 32) = v.name := by
  have hname : ∀ b ∈ v.name, (b != 32) = true := by cases v <;> decide
  rw [List.takeWhile_append_of_pos hname, List.takeWhile_cons_of_neg (by decide), List.append_nil]

theorem verb_text (l : Line) : verb l.text = l.verb.name := by
  obtain ⟨v, argument⟩ := l
  cases argument with
  | none => cases v <;> decide
  | some a =>
    rw [verb, Line.text, takeWhile_verb]
    show v.name.map upper = v.name
    cases v <;> decide

theorem argument_text (v : Verb) (a : Bytes) : argument (Line.text ⟨v, some a⟩) = a := by
  have hname : ∀ b ∈ v.name, (b != 32) = true := by cases v <;> decide
  rw [argument, Line.text, List.dropWhile_append_of_pos hname,
    List.dropWhile_cons_of_neg (by decide)]
  rfl

theorem Verb.name_injective {v w : Verb} (h : v.name = w.name) : v = w := by
  cases v <;> cases w <;> first | rfl | exact absurd h (by decide)

/-! ### What a line does -/

namespace FileServer

variable (srv : FileServer)

def isDrive (name : Bytes) : Bool :=
  srv.drives name && decide (name ≠ [] ∧ extractWindowsDrive name = name)

def enters (dir : Dir) (name : Bytes) : Dir :=
  if srv.isDrive name then ⟨some name, []⟩ else { dir with comps := enter dir.comps name }

def moved (dir : Dir) (line : Bytes) (code : ℕ) : Dir :=
  if verb line = Verb.name .CWD ∧ code = 250 then srv.enters dir (argument line) else dir

def changed (tree : Tree) (dir : Dir) (line : Bytes) (code : ℕ) : Tree :=
  let target := { dir with comps := enter dir.comps (argument line) }
  if (verb line = Verb.name .DELE ∨ verb line = Verb.name .RMD) ∧ code = 250 then
    Function.update tree target none
  else if verb line = Verb.name .MKD ∧ code = 257 then
    Function.update tree target (some .directory)
  else if verb line = Verb.name .STOR ∧ code = 150 then Function.update tree target (some .file)
  else tree

def replies (u : Site) (line : Bytes) : Answer × List Answer :=
  srv.reply u.log.length u.tree u.dir line

def answer (u : Site) (line : Bytes) : Answer := (srv.replies u line).1

def hear (u : Site) (line : Bytes) : Site :=
  let code := (srv.answer u line).code
  { u with
    dir := srv.moved u.dir line code
    tree := changed u.tree u.dir line code
    outstanding := (srv.answer u line) :: (srv.replies u line).2
    log := u.log ++ [⟨u.dir, line, code⟩] }

def channel : Channel Site where
  writeAll bytes := fun u => (.ok (), (takeLines bytes).1.foldl srv.hear u)
  receiveResponse := fun u =>
    match u.outstanding with
    | [] => (.error (.error makeTimeoutError), u)
    | a :: rest => (.ok a, { u with outstanding := rest })
  connectData endpoint := fun u =>
    match srv.data u.connects endpoint with
    | .error ec => (.error (.error ec), { u with connects := u.connects + 1 })
    | .ok socket => (.ok socket, { u with connects := u.connects + 1 })
  waitOnData := id

/-- A positive answer is true; anything may be refused. -/
structure Truthful : Prop where
  cwd : ∀ i tree dir name, (srv.reply i tree dir (ascii "CWD " ++ name)).1.code = 250 →
    tree (srv.enters dir name) = some .directory
  mlst : ∀ i tree dir name, (srv.reply i tree dir (ascii "MLST " ++ name)).1.code = 250 →
    ∃ kind, tree (srv.enters dir name) = some kind ∧ ∀ isDir,
      typeIsDir (srv.reply i tree dir (ascii "MLST " ++ name)).1.full_msg = some isDir →
        (isDir = true ↔ kind = .directory)
  size : ∀ i tree dir name, (srv.reply i tree dir (ascii "SIZE " ++ name)).1.code = 213 →
    tree (srv.enters dir name) = some .file

/-! ### One command -/

/-- The server has heard the line, and its answer has been taken. -/
def ask (u : Site) (line : Bytes) : Site :=
  { srv.hear u line with outstanding := (srv.replies u line).2 }

theorem sendAndReceive_eq {line : Bytes} (h : CrlfFree line) (u : Site) :
    srv.channel.sendAndReceiveResponse line u = (.ok (srv.answer u line), srv.ask u line) := by
  have hsend : srv.channel.sendCommand line u = (.ok (), srv.hear u line) := by
    simp only [Channel.sendCommand, channel, takeLines_crlf h, List.foldl_cons, List.foldl_nil]
  rw [Channel.sendAndReceiveResponse, bind_ok hsend]
  rfl

theorem command_eq {line : Bytes} (h : CrlfFree line) (s : FtpFileTransfer Site) :
    control (srv.channel.sendAndReceiveResponse line) s
      = (.ok (srv.answer s.session line), s.withSession (srv.ask s.session line)) := by
  simp only [FtpFileTransfer.control, zoom, srv.sendAndReceive_eq h]

theorem ask_log (u : Site) (line : Bytes) :
    (srv.ask u line).log = u.log ++ [⟨u.dir, line, (srv.answer u line).code⟩] := rfl

theorem ask_dir (u : Site) (l : Line) :
    (srv.ask u l.text).dir
      = if l.verb = .CWD ∧ (srv.answer u l.text).code = 250 then
          srv.enters u.dir (argument l.text) else u.dir := by
  simp only [ask, hear, moved, verb_text]
  by_cases hverb : l.verb = .CWD
  · simp only [hverb, true_and]
  · have hname : l.verb.name ≠ Verb.name .CWD := fun h => hverb (Verb.name_injective h)
    rw [if_neg fun h => hname h.1, if_neg fun h => hverb h.1]

/-! ### Entering and leaving again -/

variable {srv}

/-- The name is entered by `CWD`, and `CWD ..` goes back to where the server was. -/
def Reenters (srv : FileServer) (dir : Dir) (name : Bytes) : Prop :=
  if srv.isDrive name then dir = ⟨some name, []⟩ else Proper name ∨ dir.comps = []

/-- `CWD` on the name goes nowhere. -/
def Remains (srv : FileServer) (dir : Dir) (name : Bytes) : Prop :=
  if srv.isDrive name then dir = ⟨some name, []⟩
  else name = dot ∨ (name = dotdot ∧ dir.comps = [])

theorem isDrive_dotdot : srv.isDrive dotdot = false := by
  have hshape : ¬(dotdot ≠ [] ∧ extractWindowsDrive dotdot = dotdot) := by decide
  rw [isDrive, decide_eq_false hshape, Bool.and_false]

/- Only at the root does leaving change nothing. -/
theorem dropLast_eq_iff {comps : List Path} : comps.dropLast = comps ↔ comps = [] := by
  refine ⟨fun h => ?_, fun h => by rw [h]; rfl⟩
  have hlen := congrArg List.length h
  rw [List.length_dropLast] at hlen
  exact List.eq_nil_of_length_eq_zero (by omega)

theorem dropLast_dropLast_eq_iff {comps : List Path} :
    comps.dropLast.dropLast = comps ↔ comps = [] := by
  refine ⟨fun h => ?_, fun h => by rw [h]; rfl⟩
  have hlen := congrArg List.length h
  rw [List.length_dropLast, List.length_dropLast] at hlen
  exact List.eq_nil_of_length_eq_zero (by omega)

theorem enters_eq_iff {dir : Dir} {name : Bytes} (hname : name ≠ []) :
    srv.enters dir name = dir ↔ srv.Remains dir name := by
  unfold enters Remains
  split
  · exact eq_comm
  · obtain ⟨drive, comps⟩ := dir
    simp only [Dir.mk.injEq, true_and, enter, hname, false_or]
    by_cases hdot : name = dot
    · simp [hdot]
    · by_cases hdd : name = dotdot
      · have hne : dotdot ≠ dot := by decide
        simp [hdd, hne, dropLast_eq_iff]
      · simp [hdot, hdd]

theorem enters_dotdot_eq_iff {dir : Dir} {name : Bytes} (hname : name ≠ []) :
    srv.enters (srv.enters dir name) dotdot = dir ↔ srv.Reenters dir name := by
  have hup : ∀ d, srv.enters d dotdot = { d with comps := d.comps.dropLast } := by
    intro d
    rw [enters, isDrive_dotdot]
    rfl
  rw [hup]
  unfold enters Reenters
  split
  · exact eq_comm
  · obtain ⟨drive, comps⟩ := dir
    simp only [Dir.mk.injEq, true_and, enter, hname, false_or, Proper]
    by_cases hdot : name = dot
    · simp [hdot, dropLast_eq_iff]
    · by_cases hdd : name = dotdot
      · have hne : dotdot ≠ dot := by decide
        simp [hdd, hne, dropLast_dropLast_eq_iff]
      · simp [hdot, hdd]

end FileServer

end NetworkStack.Ftp
