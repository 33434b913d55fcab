import NetworkStack.Ftp.Navigation

/-!
# What is passed to `ftpCd` (protocol/FtpUtils.h)

The interface promises one component at a time. `descendFromRoot` leaves out empty
elements and keeps dots; `split` leaves out dots and keeps the empty element behind a
trailing separator.
-/

namespace NetworkStack.Utility

open Path

/-- Every directory change names its parent or one component other than a dot. -/
def SingleComponents (cs : List Command) : Prop :=
  ∀ d, .cd d ∈ cs → d = dotdot ∨ (IsName d ∧ d ≠ dot)

theorem singleComponents_append {cs ds : List Command} :
    SingleComponents (cs ++ ds) ↔ SingleComponents cs ∧ SingleComponents ds := by
  refine ⟨fun h => ⟨fun d hd => ?_, fun d hd => ?_⟩, fun h d hd => ?_⟩
  · exact h d (List.mem_append_left _ hd)
  · exact h d (List.mem_append_right _ hd)
  · rcases List.mem_append.mp hd with hd | hd
    · exact h.1 d hd
    · exact h.2 d hd

theorem singleComponents_cds {dirs : List Path} :
    SingleComponents (dirs.map .cd) ↔ ∀ d ∈ dirs, d = dotdot ∨ (IsName d ∧ d ≠ dot) := by
  refine ⟨fun h d hd => h d (List.mem_map_of_mem hd), fun h d hd => ?_⟩
  obtain ⟨d', hd', heq⟩ := List.mem_map.mp hd
  cases heq
  exact h d hd'

/-! ### One navigation -/

def ChangesDrive (current target : Path) : Prop :=
  (hasWindowsDrive current || hasWindowsDrive target) ∧
    extractWindowsDrive current ≠ extractWindowsDrive target

instance (current target : Path) : Decidable (ChangesDrive current target) :=
  inferInstanceAs (Decidable (_ ∧ _))

/-- No dot stands behind the drive that is changed to; within a drive, or without one, the target
has no trailing separator unless all its elements are the first ones of the current path. -/
def Componentwise (current target : Path) : Prop :=
  if ChangesDrive current target then dot ∉ (stripWindowsDrive target).names
  else isPosixAbsolute target = true ∧ isPosixAbsolute current = false ∨
    target.trailing = false ∨ split target.relative_path <+: split current.relative_path

instance (current target : Path) : Decidable (Componentwise current target) :=
  inferInstanceAs (Decidable (ite ..))

theorem singleComponents_descent (target : Path) :
    SingleComponents ((descentParts target).map .cd) ↔ dot ∉ (stripWindowsDrive target).names := by
  rw [singleComponents_cds, descentParts_eq]
  refine ⟨fun h hdot => ?_, fun h d hd => ?_⟩
  · have hkept : dot ∈ (stripWindowsDrive target).names.filter (· ≠ [backslash]) :=
      List.mem_filter.mpr ⟨hdot, by decide⟩
    rcases h dot hkept with heq | ⟨-, hne⟩
    · exact absurd heq (by decide)
    · exact hne rfl
  · have hmem := (List.mem_filter.mp hd).1
    exact .inr ⟨isName_of_mem_names hmem, fun heq => h (heq ▸ hmem)⟩

/- What `split` keeps is a name that is no dot, or the empty element. -/
theorem mem_split {p part : Path} (h : part ∈ split p.relative_path) :
    (part = [] ∧ p.trailing = true) ∨ (IsName part ∧ part ≠ dot) := by
  obtain ⟨hmem, hproper⟩ := List.mem_filter.mp h
  rw [decide_eq_true_eq] at hproper
  rw [elements_relative_path] at hmem
  rcases List.mem_append.mp hmem with hname | hempty
  · exact .inr ⟨isName_of_mem_names hname, hproper.1⟩
  · split at hempty
    · rename_i htrailing
      exact .inl ⟨List.mem_singleton.mp hempty, htrailing⟩
    · cases hempty

theorem split_trailing {p : Path} (h : p.trailing = true) :
    ∃ front, split p.relative_path = front ++ [[]] := by
  rw [split, elements_relative_path, if_pos h, List.filter_append]
  exact ⟨_, rfl⟩

/- Behind the shared elements an empty one is left when the target ends with a separator and
is not all shared. -/
theorem singleComponents_walk (current target : Path) (up : ℕ) :
    SingleComponents ((List.replicate up dotdot
        ++ (split target.relative_path).drop
          (commonParts (split current.relative_path) (split target.relative_path))).map .cd) ↔
      target.trailing = false ∨ split target.relative_path <+: split current.relative_path := by
  rw [singleComponents_cds, commonParts_eq, ← Prefixes.common_eq_length_iff]
  have hle := (Prefixes.common_le (split current.relative_path) (split target.relative_path)).2
  refine ⟨fun h => ?_, fun h d hd => ?_⟩
  · cases htrailing : target.trailing with
    | false => exact .inl rfl
    | true =>
      refine .inr (Nat.le_antisymm hle (Nat.le_of_not_lt fun hshort => ?_))
      obtain ⟨front, hfront⟩ := split_trailing htrailing
      rw [hfront] at h hshort
      rw [List.length_append] at hshort
      have hlast : [] ∈ (front ++ [[]]).drop
          (Prefixes.common (split current.relative_path) (front ++ [[]])) := by
        rw [List.drop_append_of_le_length (Nat.le_of_lt_succ hshort)]
        exact List.mem_append_right _ (List.mem_singleton_self _)
      rcases h [] (List.mem_append_right _ hlast) with heq | ⟨hname, -⟩
      · cases heq
      · exact hname.1 rfl
  · rcases List.mem_append.mp hd with hup | hdown
    · exact .inl (List.eq_of_mem_replicate hup)
    · rcases mem_split (List.mem_of_mem_drop hdown) with ⟨rfl, htrailing⟩ | hname
      · rcases h with hplain | hall
        · rw [hplain] at htrailing
          cases htrailing
        · rw [hall, List.drop_length] at hdown
          cases hdown
      · exact .inr hname

theorem jump_names_proper {t : Path} (h : isPosixAbsolute (normalize t) = true) :
    dot ∉ (stripWindowsDrive (normalize t)).names := by
  have hstrip : stripWindowsDrive (normalize t) = normalize t := by
    simp [stripWindowsDrive, (isPosixAbsolute_iff.mp h).1]
  rw [hstrip]
  exact fun hdot => (names_proper h dot hdot).1 rfl

/-- The condition is exact for each navigation. -/
theorem singleComponents_route_iff (current t : Path) :
    SingleComponents (route current (normalize t)) ↔ Componentwise current (normalize t) := by
  by_cases hdrive : (hasWindowsDrive current || hasWindowsDrive (normalize t)) ∧
      extractWindowsDrive current ≠ extractWindowsDrive (normalize t)
  · have hchanges : ChangesDrive current (normalize t) := hdrive
    have hselect : SingleComponents (if extractWindowsDrive (normalize t) ≠ [] then
        [.selectDrive (extractWindowsDrive (normalize t))] else []) := by
      intro d hd
      split at hd <;> simp at hd
    simp only [route, if_pos hdrive]
    rw [Componentwise, if_pos hchanges, singleComponents_append, and_iff_right hselect,
      singleComponents_descent]
  · have hstays : ¬ChangesDrive current (normalize t) := hdrive
    simp only [route, if_neg hdrive]
    rw [Componentwise, if_neg hstays]
    by_cases hjump : isPosixAbsolute (normalize t) ∧ !isPosixAbsolute current
    · have hjump' : isPosixAbsolute (normalize t) = true ∧ isPosixAbsolute current = false := by
        simpa using hjump
      rw [if_pos hjump, singleComponents_descent]
      exact iff_of_true (jump_names_proper hjump'.1) (.inl hjump')
    · rw [if_neg hjump, singleComponents_walk]
      exact (or_iff_right (by simpa using hjump)).symm

/-! ### Any sequence of navigations -/

section Recording

variable {ε σ : Type} (T : Transport ε σ)

/-- Every command is noted before it is answered, granted or refused. -/
def recording : Transport ε (σ × List Command) where
  ftpCd dir s := ((T.ftpCd dir s.1).1, (T.ftpCd dir s.1).2, s.2 ++ [.cd dir])
  ftpSelectDrive drive s :=
    ((T.ftpSelectDrive drive s.1).1, (T.ftpSelectDrive drive s.1).2, s.2 ++ [.selectDrive drive])

/-- A call that fails leaves a navigator that can be used again. -/
def navigateRecorded (nav : SmartDirectoryNavigator (σ × List Command)) (targetPath : Path) :
    Option (SmartDirectoryNavigator (σ × List Command)) :=
  some (changeDirectory (recording T) nav targetPath).2

/- What is noted is the route, up to the first refusal. -/
theorem issue_recording (cs : List Command) (s : σ × List Command) :
    ∃ k, (issue (recording T) cs s).2.2 = s.2 ++ cs.take k := by
  induction cs generalizing s with
  | nil => exact ⟨0, (List.append_nil _).symm⟩
  | cons c cs ih =>
    have hnote : ((recording T).send c s).2.2 = s.2 ++ [c] := by
      cases c <;> rfl
    rw [issue]
    cases hsend : (recording T).send c s with
    | mk r u =>
      rw [hsend] at hnote
      cases r with
      | error ec => exact ⟨1, by simpa using hnote⟩
      | ok _ =>
        obtain ⟨k, hk⟩ := ih u
        refine ⟨k + 1, ?_⟩
        simp only
        rw [hk, hnote, List.take_succ_cons, List.append_assoc, List.singleton_append]

theorem navigateRecorded_singleComponents {nav nav' : SmartDirectoryNavigator (σ × List Command)}
    {t : Path} (hnav : SingleComponents nav.session.2)
    (hg : Componentwise nav.current (normalize t)) (h : navigateRecorded T nav t = some nav') :
    SingleComponents nav'.session.2 := by
  have hroute := (singleComponents_route_iff nav.current t).mpr hg
  obtain ⟨k, hk⟩ := issue_recording T (route nav.current (normalize t)) nav.session
  have hlog : nav'.session.2 = nav.session.2 ++ (route nav.current (normalize t)).take k := by
    rw [navigateRecorded, changeDirectory_eq] at h
    cases hissue : issue (recording T) (route nav.current (normalize t)) nav.session with
    | mk r s =>
      rw [hissue] at h hk
      cases r <;> (cases h; exact hk)
  rw [hlog, singleComponents_append]
  exact ⟨hnav, fun d hd => hroute d (List.mem_of_mem_take hd)⟩

/-- Whatever the transport answers: when every navigation of a run meets its condition, all that
was ever passed to `ftpCd` were dot-dots and single components. -/
theorem recorded_singleComponents (startPath : Path) (s : σ) (targets : List Path)
    (nav : SmartDirectoryNavigator (σ × List Command))
    (hg : Machine.Guarded (navigateRecorded T)
      (fun nav t => Componentwise nav.current (normalize t)) (.construct startPath (s, [])) targets)
    (h : Machine.run (navigateRecorded T) (.construct startPath (s, [])) targets = some nav) :
    SingleComponents nav.session.2 := by
  have hstep : ∀ nav t nav', SingleComponents nav.session.2 →
      Componentwise nav.current (normalize t) → navigateRecorded T nav t = some nav' →
      SingleComponents nav'.session.2 :=
    fun _ _ _ hnav hg hstep => navigateRecorded_singleComponents T hnav hg hstep
  have hstart : SingleComponents
      (SmartDirectoryNavigator.construct startPath (s, ([] : List Command))).session.2 :=
    fun d hd => absurd hd List.not_mem_nil
  exact @Machine.run_invariant _ _ _ _ _ _ (fun nav => SingleComponents nav.session.2) _ hstep
    hstart hg h

end Recording

theorem recorded_singleComponents_mixed :
    ∃ nav, Machine.run (navigateRecorded toServer) (.construct (ascii "/") (willing, []))
        [ascii "/a/./b", ascii "/a//c", ascii "D:/x/../y", ascii "/e"] = some nav ∧
      nav.session.2 = [.cd (ascii "a"), .cd (ascii "b"), .cd dotdot, .cd (ascii "c"),
        .selectDrive (ascii "D:"), .cd (ascii "y"), .cd (ascii "e")] ∧
      SingleComponents nav.session.2 := by
  have hlog : (Machine.run (navigateRecorded toServer) (.construct (ascii "/") (willing, []))
      [ascii "/a/./b", ascii "/a//c", ascii "D:/x/../y", ascii "/e"]).map (·.session.2)
      = some [.cd (ascii "a"), .cd (ascii "b"), .cd dotdot, .cd (ascii "c"),
        .selectDrive (ascii "D:"), .cd (ascii "y"), .cd (ascii "e")] := by
    decide +kernel
  obtain ⟨nav, hrun, hnav⟩ := Option.map_eq_some_iff.mp hlog
  exact ⟨nav, hrun, hnav, recorded_singleComponents toServer (ascii "/") willing _ nav
    (by decide +kernel) hrun⟩

/- An empty name behind a trailing separator, and a dot behind a drive. -/
theorem recorded_components_bad :
    ((Machine.run (navigateRecorded toServer) (.construct (ascii "/") (willing, []))
        [ascii "/a/"]).map (·.session.2)) = some [.cd (ascii "a"), .cd []] ∧
      ¬SingleComponents [.cd (ascii "a"), .cd []] ∧
    ((Machine.run (navigateRecorded toServer) (.construct (ascii "/") (willing, []))
        [ascii "C:./x"]).map (·.session.2))
      = some [.selectDrive (ascii "C:"), .cd dot, .cd (ascii "x")] ∧
      ¬SingleComponents [.selectDrive (ascii "C:"), .cd dot, .cd (ascii "x")] := by
  refine ⟨by decide +kernel, fun h => ?_, by decide +kernel, fun h => ?_⟩
  · rcases h [] (by decide) with heq | ⟨hname, -⟩
    · cases heq
    · exact hname.1 rfl
  · rcases h dot (by decide) with heq | ⟨-, hne⟩
    · exact absurd heq (by decide)
    · exact hne rfl

end NetworkStack.Utility
