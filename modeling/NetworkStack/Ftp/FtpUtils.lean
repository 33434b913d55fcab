import NetworkStack.Ftp.Path

/-!
# The directory navigator (protocol/FtpUtils.cpp)

`SmartDirectoryNavigator` keeps the path it believes the server is in and turns a
target into single steps. How a step reaches the server is left to the derived
class: `ftpCd` and `ftpSelectDrive` are parameters over a session state.
-/

namespace NetworkStack.Utility

open Path

def colon : Byte := 58

def backslash : Byte := 92

/-- The class `[A-Za-z]`, and `std::isalpha` in the "C" locale. -/
def isAlpha (b : Byte) : Bool := (65 ≤ b ∧ b ≤ 90) ∨ (97 ≤ b ∧ b ≤ 122)

/-- The regular expression `^[A-Za-z]:`; normal forms are their own `generic_string`. -/
def hasWindowsDrive (p : Path) : Bool :=
  match p with
  | a :: b :: _ => isAlpha a && b == colon
  | _ => false

def extractWindowsDrive (p : Path) : Bytes := if hasWindowsDrive p then p.take 2 else []

def isPosixAbsolute (p : Path) : Bool := !hasWindowsDrive p && p.has_root_directory

def stripWindowsDrive (p : Path) : Path :=
  if hasWindowsDrive p then
    match p.drop 2 with
    | c :: rest => if c = separator ∨ c = backslash then rest else c :: rest
    | [] => []
  else p

def normalize (p : Path) : Path := p.lexically_normal

/-- Keeps the empty element after a trailing separator. -/
def split (p : Path) : List Path := p.elements.filter fun part => part ≠ dot ∧ part ≠ dotdot

def commonParts : List Path → List Path → ℕ
  | a :: as, b :: bs => if a = b then commonParts as bs + 1 else 0
  | _, _ => 0

/-- Commands over a state `σ`; `ε` is how one can fail. -/
structure Transport (ε σ : Type) where
  ftpCd : Path → σ → Except ε Unit × σ
  ftpSelectDrive : Bytes → σ → Except ε Unit × σ

structure SmartDirectoryNavigator (σ : Type) where
  current : Path
  session : σ

def SmartDirectoryNavigator.construct {σ : Type} (startPath : Path) (session : σ) :
    SmartDirectoryNavigator σ :=
  ⟨normalize startPath, session⟩

section Walk

variable {ε σ : Type} (T : Transport ε σ)

def cdAll : List Path → σ → Except ε Unit × σ
  | [], s => (.ok (), s)
  | part :: parts, s =>
    match T.ftpCd part s with
    | (.error ec, s) => (.error ec, s)
    | (.ok _, s) => cdAll parts s

def descentParts (target : Path) : List Path :=
  (stripWindowsDrive target).elements.filter fun part =>
    part ≠ [separator] ∧ part ≠ [backslash] ∧ part ≠ []

def descendFromRoot (target : Path) (s : σ) : Except ε Unit × σ :=
  cdAll T (descentParts target) s

def changeDirectory (nav : SmartDirectoryNavigator σ) (targetPath : Path) :
    Except ε Unit × SmartDirectoryNavigator σ :=
  let target := normalize targetPath
  let currentDrive := extractWindowsDrive nav.current
  let targetDrive := extractWindowsDrive target
  let arrive := fun (walked : Except ε Unit × σ) =>
    match walked with
    | (.error ec, s) => (.error ec, { nav with session := s })
    | (.ok _, s) => (.ok (), { nav with current := target, session := s })
  -- Windows drive change
  if (hasWindowsDrive nav.current || hasWindowsDrive target) ∧ currentDrive ≠ targetDrive then
    if targetDrive ≠ [] then
      match T.ftpSelectDrive targetDrive nav.session with
      | (.error ec, s) => (.error ec, { nav with session := s })
      | (.ok _, s) => arrive (descendFromRoot T target s)
    else arrive (descendFromRoot T target nav.session)
  -- POSIX absolute root jump
  else if isPosixAbsolute target ∧ !isPosixAbsolute nav.current then
    arrive (descendFromRoot T target nav.session)
  else
    let currentParts := split nav.current.relative_path
    let targetParts := split target.relative_path
    let common := commonParts currentParts targetParts
    match cdAll T (List.replicate (currentParts.length - common) dotdot) nav.session with
    | (.error ec, s) => (.error ec, { nav with session := s })
    | (.ok _, s) => arrive (cdAll T (targetParts.drop common) s)

end Walk

/-! ### The steps of a navigation -/

inductive Command where
  | cd (dir : Path)
  | selectDrive (drive : Bytes)
  deriving DecidableEq

/- The commands of a navigation between two paths, if none is refused. -/
def route (current target : Path) : List Command :=
  let currentDrive := extractWindowsDrive current
  let targetDrive := extractWindowsDrive target
  if (hasWindowsDrive current || hasWindowsDrive target) ∧ currentDrive ≠ targetDrive then
    (if targetDrive ≠ [] then [.selectDrive targetDrive] else [])
      ++ (descentParts target).map .cd
  else if isPosixAbsolute target ∧ !isPosixAbsolute current then (descentParts target).map .cd
  else
    let currentParts := split current.relative_path
    let targetParts := split target.relative_path
    let common := commonParts currentParts targetParts
    (List.replicate (currentParts.length - common) dotdot ++ targetParts.drop common).map .cd

section Issue

variable {ε σ : Type} (T : Transport ε σ)

def Transport.send : Command → σ → Except ε Unit × σ
  | .cd dir => T.ftpCd dir
  | .selectDrive drive => T.ftpSelectDrive drive

def issue : List Command → σ → Except ε Unit × σ
  | [], s => (.ok (), s)
  | c :: cs, s =>
    match T.send c s with
    | (.error ec, s) => (.error ec, s)
    | (.ok _, s) => issue cs s

theorem issue_cds (dirs : List Path) (s : σ) : issue T (dirs.map .cd) s = cdAll T dirs s := by
  induction dirs generalizing s with
  | nil => rfl
  | cons dir dirs ih =>
    simp only [List.map_cons, issue, cdAll, Transport.send]
    split
    · rfl
    · exact ih _

theorem issue_append (cs ds : List Command) (s : σ) :
    issue T (cs ++ ds) s = match issue T cs s with
      | (.error ec, s) => (.error ec, s)
      | (.ok _, s) => issue T ds s := by
  induction cs generalizing s with
  | nil => rfl
  | cons c cs ih =>
    simp only [List.cons_append, issue]
    cases T.send c s with
    | mk r s' =>
      cases r with
      | error ec => rfl
      | ok u => exact ih s'

/-- A navigation issues its route, and moves `_current` when all of it was granted. -/
theorem changeDirectory_eq (nav : SmartDirectoryNavigator σ) (targetPath : Path) :
    changeDirectory T nav targetPath =
      match issue T (route nav.current (normalize targetPath)) nav.session with
      | (.error ec, s) => (.error ec, { nav with session := s })
      | (.ok _, s) => (.ok (), { current := normalize targetPath, session := s }) := by
  simp only [changeDirectory, route]
  by_cases hdrive : (hasWindowsDrive nav.current || hasWindowsDrive (normalize targetPath)) ∧
      extractWindowsDrive nav.current ≠ extractWindowsDrive (normalize targetPath)
  · simp only [if_pos hdrive]
    by_cases hselect : extractWindowsDrive (normalize targetPath) ≠ []
    · simp only [if_pos hselect, issue_append, issue, Transport.send, issue_cds, descendFromRoot]
      cases T.ftpSelectDrive (extractWindowsDrive (normalize targetPath)) nav.session with
      | mk r s => cases r <;> rfl
    · simp only [if_neg hselect, List.nil_append, issue_cds, descendFromRoot]
  · simp only [if_neg hdrive]
    by_cases hjump : isPosixAbsolute (normalize targetPath) ∧ !isPosixAbsolute nav.current
    · simp only [if_pos hjump, issue_cds, descendFromRoot]
    · simp only [if_neg hjump, List.map_append, issue_append, issue_cds]
      cases cdAll T (List.replicate ((split nav.current.relative_path).length
        - commonParts (split nav.current.relative_path)
          (split (normalize targetPath).relative_path)) dotdot) nav.session with
      | mk r s => cases r <;> rfl

end Issue

end NetworkStack.Utility
