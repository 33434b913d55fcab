import Mathlib.Data.List.Basic
import NetworkStack.Lib.Machine

/-!
# Operations of which the first is waited for

Operations are started together. What has become of one is handled later than it happens;
the first that is handled aborts those that are still pending, and the group is over when
all are handled. An operation that was through already keeps its result.
-/

namespace ParallelGroup

open Machine

inductive Branch (ρ : Type) where
  | pending
  | ready (r : ρ)
  | handled (r : ρ)
  deriving DecidableEq

/- `order` lists the operations as they were handled. -/
structure Operations (ρ : Type) where
  branches : List (Branch ρ)
  order : List ℕ
  deriving DecidableEq

inductive GroupStep (ρ : Type) where
  | complete (i : ℕ) (r : ρ)
  | handle (i : ℕ)
  deriving DecidableEq

variable {ρ : Type} (aborted : ρ)

def start (n : ℕ) : Operations ρ := ⟨List.replicate n .pending, []⟩

def Branch.abort : Branch ρ → Branch ρ
  | .pending => .ready aborted
  | b => b

def step (g : Operations ρ) : GroupStep ρ → Option (Operations ρ)
  | .complete i r =>
    match g.branches[i]? with
    | some .pending => some { g with branches := g.branches.set i (.ready r) }
    | _ => none
  | .handle i =>
    match g.branches[i]? with
    | some (.ready r) =>
      let others := if g.order = [] then g.branches.map (Branch.abort aborted) else g.branches
      some ⟨others.set i (.handled r), g.order ++ [i]⟩
    | _ => none

def Operations.Finished (g : Operations ρ) : Prop := ∀ b ∈ g.branches, ∃ r, b = .handled r

/-- The result of an operation that is through. -/
def Branch.result : Branch ρ → Option ρ
  | .pending => none
  | .ready r => some r
  | .handled r => some r

/- The operations in the order of their handlers. -/
def handledIn (ls : List (GroupStep ρ)) : List ℕ :=
  ls.filterMap fun l => match l with
    | .complete .. => none
    | .handle i => some i

theorem handledIn_concat (ls : List (GroupStep ρ)) (l : GroupStep ρ) :
    handledIn (ls ++ [l]) = handledIn ls ++ handledIn [l] :=
  List.filterMap_append

/- What the steps `ls` from the start on have led to. -/
structure Recorded (n : ℕ) (ls : List (GroupStep ρ)) (g : Operations ρ) : Prop where
  length : g.branches.length = n
  order : g.order = handledIn ls
  pending : ∀ i : ℕ, g.branches[i]? = some .pending → g.order = []
  handled : ∀ i, i ∈ g.order ↔ ∃ r, g.branches[i]? = some (.handled r)
  completed : ∀ i r, .complete i r ∈ ls → ∃ b, g.branches[i]? = some b ∧ b.result = some r
  origin : ∀ i b r, g.branches[i]? = some b → b.result = some r →
    .complete i r ∈ ls ∨ (r = aborted ∧ ∃ j, g.order.head? = some j ∧ j ≠ i)

variable {aborted} {n : ℕ} {ls : List (GroupStep ρ)} {g t : Operations ρ} {l : GroupStep ρ}

theorem step_complete {i : ℕ} {r : ρ} (h : step aborted g (.complete i r) = some t) :
    g.branches[i]? = some .pending ∧ t = { g with branches := g.branches.set i (.ready r) } := by
  simp only [step] at h
  split at h
  · rename_i hi
    exact ⟨hi, (Option.some.inj h).symm⟩
  · cases h

theorem step_handle {i : ℕ} (h : step aborted g (.handle i) = some t) :
    ∃ r, g.branches[i]? = some (.ready r) ∧
      t = ⟨(if g.order = [] then g.branches.map (Branch.abort aborted) else g.branches).set i
        (.handled r), g.order ++ [i]⟩ := by
  simp only [step] at h
  split at h
  · rename_i r hi
    exact ⟨r, hi, (Option.some.inj h).symm⟩
  · cases h

theorem getElem?_set_cases {α : Type} {xs : List α} {i j : ℕ} {a b : α}
    (h : (xs.set i a)[j]? = some b) : (j = i ∧ b = a) ∨ (j ≠ i ∧ xs[j]? = some b) := by
  by_cases hji : j = i
  · subst hji
    rw [List.getElem?_set] at h
    simp only [if_true] at h
    split at h
    · exact .inl ⟨rfl, (Option.some.inj h).symm⟩
    · cases h
  · rw [List.getElem?_set_ne (Ne.symm hji)] at h
    exact .inr ⟨hji, h⟩

theorem getElem?_set_self' {α : Type} {xs : List α} {i : ℕ} {a b : α} (h : xs[i]? = some b) :
    (xs.set i a)[i]? = some a :=
  List.getElem?_set_self (List.getElem?_eq_some_iff.mp h).1

theorem Recorded.complete (h : Recorded aborted n ls g) {i : ℕ} {r : ρ}
    (hstep : step aborted g (.complete i r) = some t) :
    Recorded aborted n (ls ++ [.complete i r]) t := by
  obtain ⟨hi, rfl⟩ := step_complete hstep
  have hempty := h.pending i hi
  refine ⟨?_, ?_, fun j _ => hempty, fun j => ?_, fun j q hq => ?_, fun j b q hb hq => ?_⟩
  · rw [List.length_set, h.length]
  · rw [handledIn_concat, h.order]
    exact (List.append_nil _).symm
  · rw [h.handled]
    by_cases hji : j = i
    · rw [hji, getElem?_set_self' hi, hi]
      simp
    · rw [List.getElem?_set_ne (Ne.symm hji)]
  · rcases List.mem_append.mp hq with hq | hq
    · obtain ⟨b, hb, hresult⟩ := h.completed j q hq
      have hji : j ≠ i := by
        rintro rfl
        rw [hi] at hb
        cases hb
        cases hresult
      exact ⟨b, by rwa [List.getElem?_set_ne (Ne.symm hji)], hresult⟩
    · cases List.mem_singleton.mp hq
      exact ⟨.ready r, getElem?_set_self' hi, rfl⟩
  · rcases getElem?_set_cases hb with ⟨rfl, rfl⟩ | ⟨-, hb⟩
    · cases hq
      exact .inl (List.mem_append_right _ (List.mem_singleton_self _))
    · exact (h.origin j b q hb hq).imp_left (List.mem_append_left _)

/- What handling `i` makes of the others. -/
theorem handle_cases {i j : ℕ} {r : ρ} {b : Branch ρ}
    (h : ((if g.order = [] then g.branches.map (Branch.abort aborted) else g.branches).set i
      (.handled r))[j]? = some b) :
    (j = i ∧ b = .handled r) ∨ (j ≠ i ∧ ∃ d, g.branches[j]? = some d ∧
      b = if g.order = [] then d.abort aborted else d) := by
  rcases getElem?_set_cases h with hself | ⟨hji, hb⟩
  · exact .inl hself
  · refine .inr ⟨hji, ?_⟩
    split at hb
    · rename_i hempty
      rw [List.getElem?_map] at hb
      obtain ⟨d, hd, rfl⟩ := Option.map_eq_some_iff.mp hb
      exact ⟨d, hd, by rw [if_pos hempty]⟩
    · rename_i hempty
      exact ⟨b, hb, by rw [if_neg hempty]⟩

theorem handle_self {i : ℕ} {r : ρ} {d : Branch ρ} (hd : g.branches[i]? = some d) :
    ((if g.order = [] then g.branches.map (Branch.abort aborted) else g.branches).set i
      (.handled r))[i]? = some (.handled r) := by
  have hlen : i < g.branches.length := (List.getElem?_eq_some_iff.mp hd).1
  refine List.getElem?_set_self ?_
  split
  · rwa [List.length_map]
  · exact hlen

theorem handle_kept {i j : ℕ} {r : ρ} {d : Branch ρ} (hji : j ≠ i)
    (hd : g.branches[j]? = some d) :
    ((if g.order = [] then g.branches.map (Branch.abort aborted) else g.branches).set i
      (.handled r))[j]? = some (if g.order = [] then d.abort aborted else d) := by
  rw [List.getElem?_set_ne (Ne.symm hji)]
  split
  · rw [List.getElem?_map, hd]
    rfl
  · exact hd

theorem Branch.abort_of_result {b : Branch ρ} {r : ρ} (h : b.result = some r) :
    b.abort aborted = b := by
  cases b with
  | pending => cases h
  | ready q => rfl
  | handled q => rfl

theorem Recorded.handle (h : Recorded aborted n ls g) {i : ℕ}
    (hstep : step aborted g (.handle i) = some t) : Recorded aborted n (ls ++ [.handle i]) t := by
  obtain ⟨r, hi, rfl⟩ := step_handle hstep
  have hhead : ∀ j, g.order.head? = some j → (g.order ++ [i]).head? = some j := by
    intro j hj
    cases horder : g.order with
    | nil =>
      rw [horder] at hj
      cases hj
    | cons k ks =>
      rw [horder] at hj
      exact hj
  refine ⟨?_, ?_, fun j hj => ?_, fun j => ?_, fun j q hq => ?_, fun j b q hb hq => ?_⟩
  · rw [List.length_set, ← h.length]
    split
    · exact List.length_map ..
    · rfl
  · rw [handledIn_concat, h.order]
    rfl
  · -- nothing is pending any more
    rcases handle_cases hj with ⟨-, hb⟩ | ⟨-, d, hd, hb⟩
    · cases hb
    · split at hb
      · cases d <;> cases hb
      · rename_i hne
        exact absurd (h.pending j (hb ▸ hd)) hne
  · rw [List.mem_append, List.mem_singleton, h.handled]
    constructor
    · rintro (⟨q, hq⟩ | rfl)
      · have hji : j ≠ i := by
          rintro rfl
          cases hi.symm.trans hq
        refine ⟨q, ?_⟩
        rw [handle_kept hji hq]
        split <;> rfl
      · exact ⟨r, handle_self hi⟩
    · rintro ⟨q, hq⟩
      rcases handle_cases hq with ⟨hji, -⟩ | ⟨-, d, hd, hb⟩
      · exact .inr hji
      · refine .inl ⟨q, hd.trans ?_⟩
        split at hb
        · cases d <;> cases hb
          rfl
        · rw [hb]
  · have hq : .complete j q ∈ ls := by
      rcases List.mem_append.mp hq with hq | hq
      · exact hq
      · cases List.mem_singleton.mp hq
    obtain ⟨b, hb, hresult⟩ := h.completed j q hq
    by_cases hji : j = i
    · subst hji
      cases hi.symm.trans hb
      cases hresult
      exact ⟨.handled r, handle_self hi, rfl⟩
    · refine ⟨b, ?_, hresult⟩
      rw [handle_kept hji hb, Branch.abort_of_result hresult]
      simp
  · have hlater : ∀ k d, g.branches[k]? = some d → d.result = some q →
        .complete k q ∈ ls ++ [.handle i] ∨
          (q = aborted ∧ ∃ j, (g.order ++ [i]).head? = some j ∧ j ≠ k) := by
      intro k d hd hresult
      rcases h.origin k d q hd hresult with hown | ⟨habort, first, hfirst, hne⟩
      · exact .inl (List.mem_append_left _ hown)
      · exact .inr ⟨habort, first, hhead first hfirst, hne⟩
    rcases handle_cases hb with ⟨rfl, rfl⟩ | ⟨hji, d, hd, rfl⟩
    · cases hq
      exact hlater j (.ready r) hi rfl
    · split at hq
      · rename_i hempty
        cases d with
        | pending =>
          cases hq
          exact .inr ⟨rfl, i, by rw [hempty]; rfl, Ne.symm hji⟩
        | ready e => exact hlater j (.ready e) hd hq
        | handled e => exact hlater j (.handled e) hd hq
      · exact hlater j d hd hq

theorem recorded_run (h : run (step aborted) (start n) ls = some g) : Recorded aborted n ls g := by
  refine run_trace ⟨?_, rfl, fun _ _ => rfl, fun i => ?_, fun i r hr => ?_, fun i b r hb hr => ?_⟩
    ?_ h
  · exact List.length_replicate
  · simp only [start, List.not_mem_nil, List.getElem?_replicate, false_iff, not_exists]
    intro r
    split <;> exact fun hc => by cases hc
  · cases hr
  · simp only [start, List.getElem?_replicate] at hb
    split at hb <;> cases hb
    cases hr
  · rintro ls g l t hg hstep
    cases l with
    | complete i r => exact hg.complete hstep
    | handle i => exact hg.handle hstep

/-! ### What is known when a group is over -/

/-- The operation that was handled first has ended by itself. -/
theorem Recorded.first (h : Recorded aborted n ls g) {i : ℕ} (hi : (handledIn ls).head? = some i) :
    ∃ r, g.branches[i]? = some (.handled r) ∧ .complete i r ∈ ls := by
  rw [← h.order] at hi
  obtain ⟨r, hr⟩ := (h.handled i).mp (List.mem_of_mem_head? hi)
  refine ⟨r, hr, (h.origin i _ r hr rfl).resolve_right ?_⟩
  rintro ⟨-, j, hj, hne⟩
  exact hne (Option.some.inj (hj.symm.trans hi))

theorem Operations.Finished.pair (hfin : g.Finished) (hlen : g.branches.length = 2) :
    ∃ r q, g.branches = [.handled r, .handled q] := by
  obtain ⟨b, d, hbranches⟩ := List.length_eq_two.mp hlen
  rw [Operations.Finished, hbranches] at hfin
  obtain ⟨r, rfl⟩ := hfin b (List.mem_cons_self ..)
  obtain ⟨q, rfl⟩ := hfin d (List.mem_cons_of_mem _ (List.mem_singleton_self _))
  exact ⟨r, q, hbranches⟩

/-! ### A group ends by its handlers -/

def Branch.waits : Branch ρ → Bool
  | .handled _ => false
  | _ => true

/- `Ends`: the handlers by themselves bring the group to its end. -/
def Ends (aborted : ρ) (g : Operations ρ) : Prop :=
  CanReach (step aborted) (fun l => ∃ i, l = .handle i) Operations.Finished g

theorem Recorded.ends_handled (h : Recorded aborted n ls g) (hne : g.order ≠ []) :
    Ends aborted g := by
  -- the operations that are not handled yet become fewer
  generalize hm : g.branches.countP Branch.waits = m
  induction m generalizing ls g with
  | zero =>
    refine canReach_refl fun b hb => ?_
    have := List.countP_eq_zero.mp hm b hb
    cases b with
    | handled r => exact ⟨r, rfl⟩
    | pending => exact absurd rfl this
    | ready r => exact absurd rfl this
  | succ m ih =>
    obtain ⟨b, hb, hwaits⟩ := List.countP_pos_iff.mp (by omega : 0 < g.branches.countP Branch.waits)
    obtain ⟨i, hlen, rfl⟩ := List.mem_iff_getElem.mp hb
    have hi := List.getElem?_eq_getElem hlen
    cases hcase : g.branches[i] with
    | pending => exact absurd (h.pending i (hcase ▸ hi)) hne
    | handled r =>
      rw [hcase] at hwaits
      cases hwaits
    | ready r =>
      rw [hcase] at hi
      have hstep : step aborted g (.handle i)
          = some ⟨g.branches.set i (.handled r), g.order ++ [i]⟩ := by
        simp only [step, hi, if_neg hne]
      refine canReach_step hstep ⟨i, rfl⟩ (ih (h.handle hstep) (by simp) ?_)
      rw [List.countP_set hlen, hm, hcase]
      rfl

/-- Once an operation has ended the handlers bring the group to its end. -/
theorem Recorded.ends (h : Recorded aborted n ls g) {i : ℕ} {r : ρ}
    (hi : g.branches[i]? = some (.ready r)) : Ends aborted g := by
  obtain ⟨t, hstep⟩ : ∃ t, step aborted g (.handle i) = some t := by
    simp only [step, hi]
    exact ⟨_, rfl⟩
  refine canReach_step hstep ⟨i, rfl⟩ ((h.handle hstep).ends_handled ?_)
  obtain ⟨q, -, rfl⟩ := step_handle hstep
  simp

end ParallelGroup
