import Mathlib.Logic.Function.Basic

/-!
# Exclusive ownership

Each owner holds at most one thing, and no thing has two owners. Handing over
something that nobody holds, letting go and passing on keep it so.
-/

namespace Ownership

variable {ι κ : Type}

def Exclusive (holds : ι → Option κ) : Prop :=
  ∀ i j k, holds i = some k → holds j = some k → i = j

variable {holds : ι → Option κ}

theorem exclusive_nothing : Exclusive fun _ : ι => (none : Option κ) := by
  intro i j k h
  cases h

section Update

variable [DecidableEq ι]

theorem Exclusive.give (h : Exclusive holds) (i : ι) {k : κ} (hk : ∀ j, holds j ≠ some k) :
    Exclusive (Function.update holds i (some k)) := by
  intro a b c ha hb
  by_cases hai : a = i <;> by_cases hbi : b = i
  · exact hai.trans hbi.symm
  · rw [hai, Function.update_self] at ha
    rw [Function.update_of_ne hbi, ← ha] at hb
    exact absurd hb (hk b)
  · rw [hbi, Function.update_self] at hb
    rw [Function.update_of_ne hai, ← hb] at ha
    exact absurd ha (hk a)
  · rw [Function.update_of_ne hai] at ha
    rw [Function.update_of_ne hbi] at hb
    exact h a b c ha hb

theorem Exclusive.release (h : Exclusive holds) (i : ι) :
    Exclusive (Function.update holds i none) := by
  intro a b c ha hb
  have hai : a ≠ i := by
    rintro rfl
    rw [Function.update_self] at ha
    cases ha
  have hbi : b ≠ i := by
    rintro rfl
    rw [Function.update_self] at hb
    cases hb
  rw [Function.update_of_ne hai] at ha
  rw [Function.update_of_ne hbi] at hb
  exact h a b c ha hb

/-- Owner `j` lets go of what it holds and `i` takes it, for what it held before. -/
theorem Exclusive.pass (h : Exclusive holds) {i j : ι} (hij : i ≠ j) :
    Exclusive (Function.update (Function.update holds i (holds j)) j none) := by
  rw [Function.update_comm hij]
  cases hj : holds j with
  | none => exact (h.release j).release i
  | some k =>
    refine (h.release j).give i fun a ha => ?_
    by_cases haj : a = j
    · rw [haj, Function.update_self] at ha
      cases ha
    · rw [Function.update_of_ne haj] at ha
      exact haj (h a j k ha hj)

end Update

end Ownership
