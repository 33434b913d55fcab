import Mathlib.Data.List.Induction

/-!
# Runs of a labelled machine

A machine takes a step for a label when it can. The label holds everything the
step depends on besides the state, so a run is determined by its labels. An
invariant of the steps that meet a guard holds along every guarded run.
-/

namespace Machine

variable {σ ℓ : Type} (step : σ → ℓ → Option σ)

def run (s : σ) : List ℓ → Option σ
  | [] => some s
  | l :: ls => (step s l).bind fun t => run t ls

/-- Every step of the run meets the guard in the state it is taken from. -/
def Guarded (guard : σ → ℓ → Prop) (s : σ) : List ℓ → Prop
  | [] => True
  | l :: ls => guard s l ∧ ∀ t, step s l = some t → Guarded guard t ls

instance decidableGuarded (guard : σ → ℓ → Prop) [∀ s l, Decidable (guard s l)] (s : σ) :
    (ls : List ℓ) → Decidable (Guarded step guard s ls)
  | [] => .isTrue trivial
  | l :: ls =>
    match h : step s l with
    | none => decidable_of_iff (guard s l) ⟨fun hg => ⟨hg, by simp [h]⟩, And.left⟩
    | some t =>
      haveI := decidableGuarded guard t ls
      decidable_of_iff (guard s l ∧ Guarded step guard t ls)
        ⟨fun hg => ⟨hg.1, fun u hu => Option.some.inj (h.symm.trans hu) ▸ hg.2⟩,
          fun hg => ⟨hg.1, hg.2 t h⟩⟩

variable {step} {guard : σ → ℓ → Prop} {s t : σ}

theorem run_cons {l : ℓ} {ls : List ℓ} (h : run step s (l :: ls) = some t) :
    ∃ mid, step s l = some mid ∧ run step mid ls = some t :=
  Option.bind_eq_some_iff.mp h

theorem run_concat {l : ℓ} {ls : List ℓ} (h : run step s (ls ++ [l]) = some t) :
    ∃ mid, run step s ls = some mid ∧ step mid l = some t := by
  induction ls generalizing s with
  | nil =>
    obtain ⟨mid, hl, hrest⟩ := run_cons h
    cases hrest
    exact ⟨s, rfl, hl⟩
  | cons l' ls ih =>
    obtain ⟨next, hl', hrest⟩ := run_cons h
    obtain ⟨mid, hmid, hl⟩ := ih hrest
    exact ⟨mid, by simp only [run, hl', Option.bind_some, hmid], hl⟩

theorem run_append {xs ys : List ℓ} :
    run step s (xs ++ ys) = (run step s xs).bind fun t => run step t ys := by
  induction xs generalizing s with
  | nil => rfl
  | cons x xs ih =>
    cases hx : step s x with
    | none => simp only [List.cons_append, run, hx, Option.bind_none]
    | some t => simp only [List.cons_append, run, hx, Option.bind_some, ih]

theorem guarded_of_forall {ls : List ℓ} (h : ∀ l ∈ ls, ∀ s, guard s l) :
    Guarded step guard s ls := by
  induction ls generalizing s with
  | nil => trivial
  | cons l ls ih =>
    obtain ⟨hl, hls⟩ := List.forall_mem_cons.mp h
    exact ⟨hl s, fun t _ => ih hls⟩

theorem run_invariant {inv : σ → Prop} {ls : List ℓ}
    (hstep : ∀ s l t, inv s → guard s l → step s l = some t → inv t)
    (hs : inv s) (hg : Guarded step guard s ls) (h : run step s ls = some t) : inv t := by
  induction ls generalizing s with
  | nil => cases h; exact hs
  | cons l ls ih =>
    obtain ⟨mid, hl, hrest⟩ := run_cons h
    exact ih (hstep s l mid hs hg.1 hl) (hg.2 mid hl) hrest

/- An invariant of the state and the steps that led to it. -/
theorem run_trace {inv : List ℓ → σ → Prop} {ls : List ℓ} (hs : inv [] s)
    (hstep : ∀ ls s l t, inv ls s → step s l = some t → inv (ls ++ [l]) t)
    (h : run step s ls = some t) : inv ls t := by
  induction ls using List.reverseRecOn generalizing t with
  | nil => cases h; exact hs
  | append_singleton ls l ih =>
    obtain ⟨mid, hmid, hl⟩ := run_concat h
    exact hstep ls mid l t (ih hmid) hl

/- What a run does to one component, which only the steps in `component` concern. -/
theorem run_component {τ κ : Type} {step' : τ → κ → Option τ} (view : σ → τ)
    (component : ℓ → Option κ) {ls : List ℓ}
    (hframe : ∀ s l t, step s l = some t → component l = none → view t = view s)
    (hstep : ∀ s l t k, step s l = some t → component l = some k →
      step' (view s) k = some (view t)) (h : run step s ls = some t) :
    run step' (view s) (ls.filterMap component) = some (view t) := by
  induction ls generalizing s with
  | nil =>
    cases h
    rfl
  | cons l ls ih =>
    obtain ⟨mid, hl, hrest⟩ := run_cons h
    cases hk : component l with
    | none =>
      rw [List.filterMap_cons_none hk, ← hframe s l mid hl hk]
      exact ih hrest
    | some k =>
      rw [List.filterMap_cons_some hk, run, hstep s l mid k hl hk, Option.bind_some]
      exact ih hrest

/- The other way round: a machine that is part of another one. -/
theorem run_lift {τ κ : Type} {step' : τ → κ → Option τ} {P : κ → Prop} (embed : τ → σ)
    (label : κ → ℓ)
    (hstep : ∀ u k v, P k → step' u k = some v → step (embed u) (label k) = some (embed v))
    {ks : List κ} {u v : τ} (hks : ∀ k ∈ ks, P k) (h : run step' u ks = some v) :
    run step (embed u) (ks.map label) = some (embed v) := by
  induction ks generalizing u with
  | nil =>
    cases h
    rfl
  | cons k ks ih =>
    obtain ⟨hk, hks⟩ := List.forall_mem_cons.mp hks
    obtain ⟨mid, hmid, hrest⟩ := run_cons h
    rw [List.map_cons, run, hstep u k mid hk hmid, Option.bind_some, ih hks hrest]

/- Two guards that agree where the invariant holds guard the same runs of the labels in `P`. -/
theorem guarded_iff_of_forall {inv : σ → Prop} {P : ℓ → Prop} {guard' : σ → ℓ → Prop}
    {ls : List ℓ} (hls : ∀ l ∈ ls, P l)
    (hguard : ∀ s l, P l → inv s → (guard s l ↔ guard' s l))
    (hstep : ∀ s l t, P l → inv s → guard s l → step s l = some t → inv t) (hs : inv s) :
    Guarded step guard s ls ↔ Guarded step guard' s ls := by
  induction ls generalizing s with
  | nil => exact Iff.rfl
  | cons l ls ih =>
    obtain ⟨hl, hls⟩ := List.forall_mem_cons.mp hls
    simp only [Guarded, ← hguard s l hl hs]
    refine and_congr_right fun hg => forall_congr' fun t => ?_
    exact imp_congr_right fun ht => ih hls (hstep s l t hl hs hg ht)

theorem guarded_iff {inv : σ → Prop} {guard' : σ → ℓ → Prop} {ls : List ℓ}
    (hguard : ∀ s l, inv s → (guard s l ↔ guard' s l))
    (hstep : ∀ s l t, inv s → guard s l → step s l = some t → inv t) (hs : inv s) :
    Guarded step guard s ls ↔ Guarded step guard' s ls :=
  guarded_iff_of_forall (P := fun _ => True) (fun _ _ => trivial) (fun s l _ => hguard s l)
    (fun s l t _ => hstep s l t) hs

theorem guarded_concat {l : ℓ} {ls : List ℓ} (hg : Guarded step guard s (ls ++ [l]))
    (h : run step s ls = some t) : Guarded step guard s ls ∧ guard t l := by
  induction ls generalizing s with
  | nil =>
    cases h
    exact ⟨trivial, hg.1⟩
  | cons l' ls ih =>
    obtain ⟨mid, hl', hrest⟩ := run_cons h
    obtain ⟨htail, hl⟩ := ih (hg.2 mid hl') hrest
    exact ⟨⟨hg.1, fun u hu => Option.some.inj (hl'.symm.trans hu) ▸ htail⟩, hl⟩

theorem guarded_forall {ls : List ℓ} (hg : Guarded step guard s ls) (h : run step s ls = some t) :
    ∀ l ∈ ls, ∃ u, guard u l := by
  induction ls generalizing s with
  | nil => exact fun l hl => by cases hl
  | cons l' ls ih =>
    obtain ⟨mid, hl', hrest⟩ := run_cons h
    exact List.forall_mem_cons.mpr ⟨⟨s, hg.1⟩, ih (hg.2 mid hl') hrest⟩

/-! ### The order of steps -/

def Precedes (a b : ℓ) (ls : List ℓ) : Prop := ∃ xs ys, ls = xs ++ ys ∧ a ∈ xs ∧ b ∈ ys

theorem precedes_concat {a b l : ℓ} {ls : List ℓ} :
    Precedes a b (ls ++ [l]) ↔ Precedes a b ls ∨ a ∈ ls ∧ l = b := by
  constructor
  · rintro ⟨xs, ys, hls, ha, hb⟩
    induction ys using List.reverseRecOn with
    | nil => cases hb
    | append_singleton ys y _ =>
      rw [← List.append_assoc] at hls
      obtain ⟨rfl, hy⟩ := List.append_inj' hls rfl
      obtain rfl : l = y := List.singleton_inj.mp hy
      rcases List.mem_append.mp hb with hb | hb
      · exact .inl ⟨xs, ys, rfl, ha, hb⟩
      · exact .inr ⟨List.mem_append_left _ ha, (List.mem_singleton.mp hb).symm⟩
  · rintro (⟨xs, ys, rfl, ha, hb⟩ | ⟨ha, rfl⟩)
    · exact ⟨xs, ys ++ [l], List.append_assoc .., ha, List.mem_append_left _ hb⟩
    · exact ⟨ls, [l], rfl, ha, List.mem_singleton_self l⟩

theorem Precedes.mem {a b : ℓ} {ls : List ℓ} (h : Precedes a b ls) : a ∈ ls := by
  obtain ⟨xs, ys, rfl, ha, -⟩ := h
  exact List.mem_append_left _ ha

theorem Precedes.mem_right {a b : ℓ} {ls : List ℓ} (h : Precedes a b ls) : b ∈ ls := by
  obtain ⟨xs, ys, rfl, -, hb⟩ := h
  exact List.mem_append_right _ hb

/- The order of two steps in the first part, when the second is not taken in the rest. -/
theorem Precedes.of_append {a b : ℓ} {xs ys : List ℓ} (h : Precedes a b (xs ++ ys))
    (hb : b ∉ ys) : Precedes a b xs := by
  induction ys using List.reverseRecOn with
  | nil => rwa [List.append_nil] at h
  | append_singleton ys y ih =>
    rw [List.mem_append, List.mem_singleton, not_or] at hb
    rw [← List.append_assoc] at h
    rcases precedes_concat.mp h with h | ⟨-, hy⟩
    · exact ih h hb.1
    · exact absurd hy.symm hb.2

theorem precedes_filterMap {κ : Type} {component : ℓ → Option κ} {a b : ℓ} {j k : κ} {ls : List ℓ}
    (ha : ∀ l, component l = some j ↔ l = a) (hb : ∀ l, component l = some k ↔ l = b) :
    Precedes j k (ls.filterMap component) ↔ Precedes a b ls := by
  induction ls using List.reverseRecOn with
  | nil => simp [Precedes]
  | append_singleton ls l ih =>
    have hmem : j ∈ ls.filterMap component ↔ a ∈ ls := by simp [List.mem_filterMap, ha]
    rw [List.filterMap_append, precedes_concat, ← ih, ← hmem, ← hb]
    cases hl : component l with
    | none => simp [hl]
    | some m => simp [hl, precedes_concat]

/-- A step of `q` was taken, and only steps of `p` after it. -/
def Since (p q : ℓ → Prop) (ls : List ℓ) : Prop :=
  ∃ xs l ys, ls = xs ++ l :: ys ∧ q l ∧ ∀ k ∈ ys, p k

theorem since_concat {p q : ℓ → Prop} {l : ℓ} {ls : List ℓ} :
    Since p q (ls ++ [l]) ↔ q l ∨ p l ∧ Since p q ls := by
  constructor
  · rintro ⟨xs, k, ys, hls, hk, hys⟩
    induction ys using List.reverseRecOn with
    | nil =>
      obtain ⟨rfl, hl⟩ := List.append_inj' hls rfl
      obtain rfl : l = k := List.singleton_inj.mp hl
      exact .inl hk
    | append_singleton ys y _ =>
      rw [← List.cons_append, ← List.append_assoc] at hls
      obtain ⟨rfl, hl⟩ := List.append_inj' hls rfl
      obtain rfl : l = y := List.singleton_inj.mp hl
      obtain ⟨hys, hl⟩ := List.forall_mem_append.mp hys
      exact .inr ⟨hl l (List.mem_singleton_self l), xs, k, ys, rfl, hk, hys⟩
  · rintro (hl | ⟨hl, xs, k, ys, rfl, hk, hys⟩)
    · exact ⟨ls, l, [], rfl, hl, List.forall_mem_nil p⟩
    · refine ⟨xs, k, ys ++ [l], List.append_assoc .., hk, List.forall_mem_append.mpr ⟨hys, ?_⟩⟩
      exact fun m hm => List.mem_singleton.mp hm ▸ hl

/-- Step `a` was taken when `P` was true of the steps before it. -/
def TakenWhen (P : List ℓ → Prop) (a : ℓ) (ls : List ℓ) : Prop :=
  ∃ xs ys, ls = xs ++ a :: ys ∧ P xs

theorem takenWhen_concat {P : List ℓ → Prop} {a l : ℓ} {ls : List ℓ} :
    TakenWhen P a (ls ++ [l]) ↔ TakenWhen P a ls ∨ l = a ∧ P ls := by
  constructor
  · rintro ⟨xs, ys, hls, hxs⟩
    induction ys using List.reverseRecOn with
    | nil =>
      obtain ⟨rfl, hl⟩ := List.append_inj' hls rfl
      exact .inr ⟨List.singleton_inj.mp hl, hxs⟩
    | append_singleton ys y _ =>
      rw [← List.cons_append, ← List.append_assoc] at hls
      obtain ⟨rfl, -⟩ := List.append_inj' hls rfl
      exact .inl ⟨xs, ys, rfl, hxs⟩
  · rintro (⟨xs, ys, rfl, hxs⟩ | ⟨rfl, hls⟩)
    · exact ⟨xs, ys ++ [l], List.append_assoc .., hxs⟩
    · exact ⟨ls, [], rfl, hls⟩

/-! ### What steps of one kind can lead to -/

variable (step) in
def CanReach (P : ℓ → Prop) (Q : σ → Prop) (s : σ) : Prop :=
  ∃ ls t, (∀ l ∈ ls, P l) ∧ run step s ls = some t ∧ Q t

theorem canReach_refl {P : ℓ → Prop} {Q : σ → Prop} (h : Q s) : CanReach step P Q s :=
  ⟨[], s, List.forall_mem_nil P, rfl, h⟩

theorem canReach_step {P : ℓ → Prop} {Q : σ → Prop} {l : ℓ} (h : step s l = some t) (hl : P l)
    (ht : CanReach step P Q t) : CanReach step P Q s := by
  obtain ⟨ls, u, hls, hrun, hu⟩ := ht
  refine ⟨l :: ls, u, List.forall_mem_cons.mpr ⟨hl, hls⟩, ?_, hu⟩
  rw [run, h, Option.bind_some, hrun]

theorem canReach_run {P : ℓ → Prop} {Q : σ → Prop} {ls : List ℓ} (hls : ∀ l ∈ ls, P l)
    (h : run step s ls = some t) (ht : CanReach step P Q t) : CanReach step P Q s := by
  obtain ⟨ms, u, hms, hrun, hu⟩ := ht
  refine ⟨ls ++ ms, u, List.forall_mem_append.mpr ⟨hls, hms⟩, ?_, hu⟩
  rw [run_append, h, Option.bind_some, hrun]

theorem not_canReach {P : ℓ → Prop} {Q inv : σ → Prop}
    (hstep : ∀ s l t, inv s → P l → step s l = some t → inv t) (hQ : ∀ s, inv s → ¬ Q s)
    (hs : inv s) : ¬ CanReach step P Q s := by
  rintro ⟨ls, t, hls, hrun, ht⟩
  have hg : Guarded step (fun _ l => P l) s ls := guarded_of_forall fun l hl _ => hls l hl
  exact hQ t (run_invariant hstep hs hg hrun) ht

end Machine
