import NetworkStack.Ftp.Probes

/-!
# What `exists` finds out (protocol/FtpFileTransfer.cpp)

`exists` asks up to three questions about a name in its parent directory, in turn until
one is answered with yes: whether there is such an entry, whether it is a file, whether it
is a directory. The server answers truthfully, and the control connection may fail at
every use.
-/

namespace NetworkStack.Ftp

open FtpFileTransfer Hoare Path SocketDetail Utility

/-! ### Where a navigation leads -/

section Views

variable {σ τ : Type} {W : Channel σ} (view : σ → τ) (step : τ → Bytes → τ)

/- What a granted `CWD` does to a part of the session, a navigation does line by line. -/
theorem issue_view (hcd : ∀ name u u', CrlfFree name → W.ftpCd name u = (.ok (), u') →
      view u' = step (view u) name) {cs : List Command}
    (hcs : ∀ c ∈ cs, CrlfFree (Command.text c)) {u u' : σ}
    (h : issue W.navigator cs u = (.ok (), u')) :
    view u' = (cs.map Command.text).foldl step (view u) := by
  induction cs generalizing u with
  | nil =>
    cases h
    rfl
  | cons c cs ih =>
    obtain ⟨hc, hrest⟩ := List.forall_mem_cons.mp hcs
    have hsend : W.navigator.send c u = W.ftpCd (Command.text c) u := by cases c <;> rfl
    rw [issue, hsend] at h
    cases hrun : W.ftpCd (Command.text c) u with
    | mk r v =>
      rw [hrun] at h
      cases r with
      | error e => cases h
      | ok _ => rw [ih hrest h, hcd _ _ _ hc hrun, List.map_cons, List.foldl_cons]

theorem changeDirectory_view (hcd : ∀ name u u', CrlfFree name → W.ftpCd name u = (.ok (), u') →
      view u' = step (view u) name) {path : Path} (hpath : CrlfFree path)
    {s t : FtpFileTransfer σ} (h : changeDirectory W path s = (.ok (), t)) :
    view t.session = ((route s.navigator.current (normalize path)).map Command.text).foldl step
        (view s.session) ∧
      t.capabilities = s.capabilities ∧ t.navigator.current = normalize path := by
  simp only [FtpFileTransfer.changeDirectory, changeDirectory_eq] at h
  cases hrun : issue W.navigator (route s.navigator.current (normalize path))
      s.navigator.session with
  | mk r u =>
    rw [hrun] at h
    cases r with
    | error e => cases h
    | ok _ =>
      cases h
      exact ⟨issue_view view step hcd (crlfFree_route _ (crlfFree_normalize hpath)) hrun, rfl, rfl⟩

end Views

namespace FileServer

variable (srv : FileServer)

/-- Where a server in `dir` is after the navigation from `current`, if all of it is granted. -/
def arrives (current : Path) (dir : Dir) (path : Path) : Dir :=
  ((route current (normalize path)).map Command.text).foldl srv.enters dir

/-- The entry a path names: its last name, entered from its parent directory. -/
def entry (base : Dir) (path : Path) : Dir :=
  srv.enters (resolve base (normalize path.parent_path)) path.filename

/-- The answers to the probes are positive exactly when they are true. -/
structure Exact : Prop where
  cwd : ∀ i tree dir name, (srv.reply i tree dir (ascii "CWD " ++ name)).1.code = 250 ↔
    tree (srv.enters dir name) = some .directory
  mlst : ∀ i tree dir name, (srv.reply i tree dir (ascii "MLST " ++ name)).1.code = 250 ↔
    (tree (srv.enters dir name)).isSome = true
  size : ∀ i tree dir name, (srv.reply i tree dir (ascii "SIZE " ++ name)).1.code = 213 ↔
    tree (srv.enters dir name) = some .file

/- A line that is no order leaves the files as they are. -/
theorem changed_other {l : Line} (h : l.verb ∈ [.CWD, .MLST, .SIZE]) (tree : Tree) (dir : Dir)
    (code : ℕ) : changed tree dir l.text code = tree := by
  have hother : ∀ v ∈ [Verb.DELE, .RMD, .MKD, .STOR], verb l.text ≠ v.name := by
    intro v hv hverb
    rw [verb_text] at hverb
    rw [Verb.name_injective hverb] at h
    revert hv h
    cases v <;> decide
  simp [changed, hother]

theorem ask_tree {l : Line} (hl : l.verb ∈ [.CWD, .MLST, .SIZE]) (u : Site) :
    (srv.ask u l.text).tree = u.tree :=
  changed_other hl ..

end FileServer

/-! ### A connection that may fail -/

/- `uses` counts the writes to the control connection and the reads from it. -/
structure Wire where
  site : Site
  uses : ℕ

section Faults

variable (faults : ℕ → Option ErrorCode)

/-- A use that fails leaves the server as it is: a line is not heard. An answer whose read
fails is lost even if it comes later: it is not taken for the answer to the next line. -/
def onWire {α : Type} (m : Act Site Exit α) : Act Wire Exit α := fun w =>
  match faults w.uses with
  | some ec => (.error (.error ec), { w with uses := w.uses + 1 })
  | none =>
    let (r, u) := m w.site
    (r, ⟨u, w.uses + 1⟩)

/-- Neither use of an exchange that begins with use `n` fails. -/
def answered (n : ℕ) : Bool := (faults n).isNone && (faults (n + 1)).isNone

/-- The first use behind that exchange. -/
def next (n : ℕ) : ℕ := if (faults n).isSome then n + 1 else n + 2

/-- No use from `m` on and before `n` fails. -/
def Undisturbed (m n : ℕ) : Prop := ∀ i, m ≤ i → i < n → faults i = none

variable (srv : FileServer)

/-- Whether one of the questions, asked from use `n` on, is answered with yes. -/
def found (n : ℕ) : List Bool → Bool
  | [] => false
  | q :: qs => (answered faults n && q) || found (next faults n) qs

variable {s : FtpFileTransfer Wire} {name : Bytes} {q : Bool}

/-- The answers a truthful server has to the questions `exists` puts. -/
def questions (c : FtpCapabilities) (kind : Option Kind) : List Bool :=
  (if c.mlst then [kind.isSome] else []) ++ (if c.size then [decide (kind = some .file)] else [])
    ++ [decide (kind = some .directory)]

section Turn

variable {path : Path} {t : FtpFileTransfer Wire} {kind : Option Kind}

end Turn

/-! ### The navigation before the questions -/

variable {faults srv}

end Faults

/-! ### A truthful server -/

/-- The code of a server that answers the probes truthfully, makes directories where there is
nothing and knows no other command. -/
def truthfulCode (kind : Option Kind) (verb : Bytes) : ℕ :=
  if verb = Verb.name .CWD then if kind = some .directory then 250 else 550
  else if verb = Verb.name .MLST then if kind.isSome then 250 else 550
  else if verb = Verb.name .SIZE then if kind = some .file then 213 else 550
  else if verb = Verb.name .MKD then if kind = none then 257 else 550
  else 500

def fileServer : FileServer where
  drives _ := false
  reply _ tree dir line :=
    (⟨[], truthfulCode (tree { dir with comps := enter dir.comps (argument line) }) (verb line)⟩,
      [])
  data _ _ := .error (.network .CONNECTION_LOST)

theorem fileServer_exact : fileServer.Exact := by
  have hcode : ∀ (v : Verb) i tree dir name,
      (fileServer.reply i tree dir (Line.text ⟨v, some name⟩)).1.code
        = truthfulCode (tree (fileServer.enters dir name)) v.name := by
    intro v i tree dir name
    show truthfulCode
      (tree { dir with comps := enter dir.comps (argument (Line.text ⟨v, some name⟩)) })
      (verb (Line.text ⟨v, some name⟩)) = _
    rw [argument_text, verb_text]
    rfl
  refine ⟨fun i tree dir name => ?_, fun i tree dir name => ?_, fun i tree dir name => ?_⟩
  · refine (iff_of_eq (congrArg (· = 250) (hcode .CWD i tree dir name))).trans ?_
    rw [truthfulCode, if_pos rfl]
    simp
  · refine (iff_of_eq (congrArg (· = 250) (hcode .MLST i tree dir name))).trans ?_
    rw [truthfulCode, if_neg (by decide), if_pos rfl]
    simp [Option.isSome_iff_ne_none]
  · refine (iff_of_eq (congrArg (· = 213) (hcode .SIZE i tree dir name))).trans ?_
    rw [truthfulCode, if_neg (by decide), if_neg (by decide), if_pos rfl]
    simp

end NetworkStack.Ftp
