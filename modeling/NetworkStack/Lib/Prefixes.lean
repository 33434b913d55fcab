import Mathlib.Data.List.Basic

/-!
# The shared front of two sequences

Sequences that grow and shrink at their ends are the nodes of a tree, and the way from one
to another leads up to what both begin with. No sequence of single steps is shorter.
-/

namespace Prefixes

variable {α : Type} [DecidableEq α]

/-- How many elements two sequences have in common at the front. -/
def common : List α → List α → ℕ
  | a :: as, b :: bs => if a = b then common as bs + 1 else 0
  | _, _ => 0

def distance (xs ys : List α) : ℕ := (xs.length - common xs ys) + (ys.length - common xs ys)

theorem common_le (xs ys : List α) : common xs ys ≤ xs.length ∧ common xs ys ≤ ys.length := by
  fun_induction common xs ys with
  | case1 x xs ys ih => exact ⟨Nat.succ_le_succ ih.1, Nat.succ_le_succ ih.2⟩
  | case2 => exact ⟨Nat.zero_le _, Nat.zero_le _⟩
  | case3 => exact ⟨Nat.zero_le _, Nat.zero_le _⟩

theorem take_common (xs ys : List α) : xs.take (common xs ys) = ys.take (common xs ys) := by
  fun_induction common xs ys with
  | case1 x xs ys ih => rw [List.take_succ_cons, List.take_succ_cons, ih]
  | case2 => rfl
  | case3 => rfl

theorem common_append (ys zs : List α) : common (ys ++ zs) ys = ys.length := by
  induction ys with
  | nil => cases zs <;> rfl
  | cons y ys ih => rw [List.cons_append, common, if_pos rfl, ih, List.length_cons]

theorem common_eq_length_iff {xs ys : List α} : common xs ys = ys.length ↔ ys <+: xs := by
  refine ⟨fun h => ?_, fun h => ?_⟩
  · have htake := take_common xs ys
    rw [h, List.take_length] at htake
    exact htake ▸ List.take_prefix _ _
  · obtain ⟨zs, rfl⟩ := h
    exact common_append ys zs

theorem common_self (xs : List α) : common xs xs = xs.length :=
  common_eq_length_iff.mpr (List.prefix_refl xs)

theorem distance_self (xs : List α) : distance xs xs = 0 := by
  rw [distance, common_self, Nat.sub_self]

/- One more element is shared only where all the others are. -/
theorem common_concat (xs ys : List α) (a : α) : common (xs ++ [a]) ys = common xs ys ∨
    (common xs ys = xs.length ∧ common (xs ++ [a]) ys = xs.length + 1) := by
  induction xs generalizing ys with
  | nil =>
    cases ys with
    | nil => exact .inl rfl
    | cons y ys =>
      by_cases hay : a = y
      · exact .inr ⟨rfl, by rw [List.nil_append, common, if_pos hay]; rfl⟩
      · exact .inl (by rw [List.nil_append, common, if_neg hay]; rfl)
  | cons x xs ih =>
    cases ys with
    | nil => exact .inl rfl
    | cons y ys =>
      rw [List.cons_append, common, common]
      by_cases hxy : x = y
      · rw [if_pos hxy, if_pos hxy, List.length_cons]
        have htail := ih ys
        omega
      · rw [if_neg hxy, if_neg hxy]
        exact .inl rfl

/-- At most one element is added or taken at the end. -/
def Neighbour (xs xs' : List α) : Prop := xs' = xs ∨ xs' = xs.dropLast ∨ ∃ a, xs' = xs ++ [a]

theorem distance_concat (xs ys : List α) (a : α) :
    distance xs ys ≤ distance (xs ++ [a]) ys + 1 ∧
      distance (xs ++ [a]) ys ≤ distance xs ys + 1 := by
  have hle := common_le xs ys
  have hle' := common_le (xs ++ [a]) ys
  have hmore := common_concat xs ys a
  rw [List.length_append, List.length_singleton] at hle'
  rw [distance, distance, List.length_append, List.length_singleton]
  omega

theorem distance_neighbour {xs xs' : List α} (h : Neighbour xs xs') (ys : List α) :
    distance xs ys ≤ distance xs' ys + 1 := by
  rcases h with rfl | rfl | ⟨a, rfl⟩
  · exact Nat.le_succ _
  · rcases List.eq_nil_or_concat' xs with rfl | ⟨init, last, rfl⟩
    · exact Nat.le_succ _
    · rw [List.dropLast_concat]
      exact (distance_concat init ys last).2
  · exact (distance_concat xs ys a).1

/- The steps that lead from one sequence to another are at least as many as they are apart. -/
theorem distance_le_length {β : Type} {step : List α → β → List α}
    (hstep : ∀ xs b, Neighbour xs (step xs b)) (xs : List α) (steps : List β) :
    distance xs (steps.foldl step xs) ≤ steps.length := by
  have hrun : ∀ ys, distance xs ys ≤ steps.length + distance (steps.foldl step xs) ys := by
    intro ys
    induction steps generalizing xs with
    | nil => exact Nat.le_add_left _ _
    | cons b steps ih =>
      have hfirst := distance_neighbour (hstep xs b) ys
      have hrest := ih (step xs b)
      rw [List.foldl_cons, List.length_cons]
      omega
  have hend := hrun (steps.foldl step xs)
  rwa [distance_self, Nat.add_zero] at hend

end Prefixes
