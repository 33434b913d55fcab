import NetworkStack.Ftp.Navigation

/-!
# The shortest navigation (protocol/FtpUtils.h)

Between two absolute paths in normal form the navigator goes up to their common
ancestor and down again. A server whose directory is the current one arrives at the
target, and no other sequence of single components is shorter.
-/

namespace NetworkStack.Utility

open Path Prefixes

/-- A POSIX-absolute path in normal form, without a separator at its end unless it is the root. -/
structure PlainAbsolute (p : Path) : Prop where
  absolute : isPosixAbsolute p = true
  normal : normalize p = p
  plain : p.trailing = false

instance (p : Path) : Decidable (PlainAbsolute p) :=
  decidable_of_iff (isPosixAbsolute p = true ∧ normalize p = p ∧ p.trailing = false)
    ⟨fun h => ⟨h.1, h.2.1, h.2.2⟩, fun h => ⟨h.absolute, h.normal, h.plain⟩⟩

theorem PlainAbsolute.proper {p : Path} (h : PlainAbsolute p) : ∀ n ∈ p.names, Proper n := by
  have hproper := @names_proper p (by rw [h.normal]; exact h.absolute)
  rwa [h.normal] at hproper

theorem PlainAbsolute.parts {p : Path} (h : PlainAbsolute p) : parts p = p.names := by
  simp [Utility.parts, h.plain]

/- A granted `CWD` leads to the directory itself, its parent or one of its entries. -/
theorem enter_neighbour (comps : List Path) (name : Path) : Neighbour comps (enter comps name) := by
  unfold enter
  split
  · exact .inl rfl
  · split
    · exact .inr (.inl rfl)
    · exact .inr (.inr ⟨name, rfl⟩)

/-- The steps of the shortest way: up to the common ancestor, then down. -/
def shortestSteps (current target : Path) : List Path :=
  List.replicate (current.names.length - common current.names target.names) dotdot
    ++ target.names.drop (common current.names target.names)

theorem shortestSteps_component {current target : Path} (h : PlainAbsolute target) :
    ∀ d ∈ shortestSteps current target, d = dotdot ∨ (IsName d ∧ Proper d) := by
  intro d hd
  rcases List.mem_append.mp hd with hup | hdown
  · exact .inl (List.eq_of_mem_replicate hup)
  · have hmem := List.mem_of_mem_drop hdown
    exact .inr ⟨isName_of_mem_names hmem, h.proper d hmem⟩

theorem length_shortestSteps (current target : Path) :
    (shortestSteps current target).length = distance current.names target.names := by
  rw [shortestSteps, List.length_append, List.length_replicate, List.length_drop, distance]

section Plain

variable {current target : Path} (hcurrent : PlainAbsolute current) (htarget : PlainAbsolute target)
include hcurrent htarget

theorem route_plain : route current target = (shortestSteps current target).map .cd := by
  rw [route_absolute hcurrent.absolute htarget.absolute hcurrent.proper htarget.proper,
    hcurrent.parts, htarget.parts, commonParts_eq, shortestSteps]

theorem shortestSteps_arrive :
    (shortestSteps current target).foldl enter current.names = target.names := by
  have harrives := walk_arrives htarget.proper (.inl hcurrent.plain)
  rwa [hcurrent.parts, htarget.parts, commonParts_eq, ← shortestSteps] at harrives

end Plain

theorem issue_granting (cs : List Command) {s : DirServer}
    (h : ∀ i, s.issued ≤ i → s.answers i = .ok ()) :
    issue toServer cs s
      = (.ok (), { s with dir := cs.foldl Dir.obey s.dir, issued := s.issued + cs.length }) := by
  induction cs generalizing s with
  | nil => rfl
  | cons c cs ih =>
    have hfirst : s.receive c
        = (.ok (), { s with dir := s.dir.obey c, issued := s.issued + 1 }) := by
      rw [DirServer.receive, h _ (Nat.le_refl _)]
    have hlater : ∀ i, s.issued + 1 ≤ i → s.answers i = .ok () :=
      fun i hi => h i (Nat.le_of_succ_le hi)
    rw [issue, toServer_send, hfirst]
    simp only
    rw [@ih { s with dir := s.dir.obey c, issued := s.issued + 1 } hlater, List.foldl_cons,
      List.length_cons, Nat.add_assoc, Nat.add_comm 1]

/-- With every command granted the server arrives at the target and `_current` names it; the
commands were single components, no sequence of components that leads there is shorter, and
between equal paths there was none. -/
theorem changeDirectory_shortest (nav : SmartDirectoryNavigator DirServer) (target : Path)
    (hcurrent : PlainAbsolute nav.current) (htarget : PlainAbsolute target)
    (hserver : nav.session.dir = ⟨none, nav.current.names⟩)
    (hgrants : ∀ i, nav.session.issued ≤ i → nav.session.answers i = .ok ()) :
    ∃ dirs : List Path, route nav.current target = dirs.map .cd ∧
      (∀ d ∈ dirs, d = dotdot ∨ (IsName d ∧ Proper d)) ∧
      changeDirectory toServer nav target = (.ok (), ⟨target, { nav.session with
        dir := ⟨none, target.names⟩
        issued := nav.session.issued + dirs.length }⟩) ∧
      (∀ steps : List Path, (∀ d ∈ steps, IsName d) →
        (steps.map .cd).foldl Dir.obey nav.session.dir = ⟨none, target.names⟩ →
        dirs.length ≤ steps.length) ∧
      (target = nav.current → dirs = []) := by
  refine ⟨shortestSteps nav.current target, route_plain hcurrent htarget,
    shortestSteps_component htarget, ?_, ?_, ?_⟩
  · rw [changeDirectory_eq, htarget.normal, route_plain hcurrent htarget,
      issue_granting _ hgrants, obey_cds, hserver, shortestSteps_arrive hcurrent htarget,
      List.length_map]
  · intro steps _ hlead
    rw [obey_cds, hserver] at hlead
    have hend : steps.foldl enter nav.current.names = target.names := congrArg Dir.comps hlead
    have hapart := distance_le_length enter_neighbour nav.current.names steps
    rwa [hend, ← length_shortestSteps] at hapart
  · intro hsame
    rw [← List.length_eq_zero_iff, length_shortestSteps, hsame, distance_self]

theorem changeDirectory_shortest_siblings :
    let nav : SmartDirectoryNavigator DirServer :=
      ⟨ascii "/a/b/c", { willing with dir := ⟨none, names (ascii "/a/b/c")⟩ }⟩
    ∃ dirs : List Path, dirs.length = 3 ∧
      (changeDirectory toServer nav (ascii "/a/d")).2.session.dir = ⟨none, names (ascii "/a/d")⟩ ∧
      ∀ steps : List Path, (∀ d ∈ steps, IsName d) →
        (steps.map .cd).foldl Dir.obey nav.session.dir = ⟨none, names (ascii "/a/d")⟩ →
        dirs.length ≤ steps.length := by
  intro nav
  obtain ⟨dirs, hroute, -, hrun, hleast, -⟩ := changeDirectory_shortest nav (ascii "/a/d")
    (by decide) (by decide) rfl fun _ _ => rfl
  have hcount : (route nav.current (ascii "/a/d")).length = 3 := by decide +kernel
  rw [hroute, List.length_map] at hcount
  exact ⟨dirs, hcount, by rw [hrun], hleast⟩

end NetworkStack.Utility
