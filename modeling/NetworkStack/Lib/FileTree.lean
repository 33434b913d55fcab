import Mathlib.Data.List.Infix
import Mathlib.Logic.Function.Basic

/-!
# Trees of directories

An entry is named by the components that lead to it from the root. Only a directory has
entries below it, so whatever leads to an entry is a directory; a new entry is put into a
directory, and only what has nothing below it is taken away.
-/

structure FileTree (N : Type) {K : Type} (directory : K) where
  kind : List N → Option K
  root : kind [] = some directory
  rooted : ∀ comps n, kind (comps ++ [n]) ≠ none → kind comps = some directory

namespace FileTree

variable {N K : Type} {directory : K}

theorem kind_concat_of_ne {t : FileTree N directory} {comps : List N}
    (h : t.kind comps ≠ some directory) (n : N) : t.kind (comps ++ [n]) = none := by
  by_contra hne
  exact h (t.rooted comps n hne)

theorem directory_of_append {t : FileTree N directory} {comps ns : List N}
    (h : t.kind (comps ++ ns) = some directory) : t.kind comps = some directory := by
  induction ns using List.reverseRecOn with
  | nil => rwa [List.append_nil] at h
  | append_singleton ns n ih =>
    refine ih (t.rooted (comps ++ ns) n ?_)
    rw [List.append_assoc, h]
    exact Option.some_ne_none directory

theorem directory_of_prefix {t : FileTree N directory} {comps ns : List N} (hp : comps <+: ns)
    (h : t.kind ns = some directory) : t.kind comps = some directory := by
  obtain ⟨rest, rfl⟩ := hp
  exact directory_of_append h

variable [DecidableEq N]

/-- A new entry in a directory. -/
def put (t : FileTree N directory) (comps : List N) (n : N) (k : K)
    (hparent : t.kind comps = some directory) (hnew : t.kind (comps ++ [n]) = none) :
    FileTree N directory where
  kind := Function.update t.kind (comps ++ [n]) (some k)
  root := by rw [Function.update_of_ne (by simp), t.root]
  rooted := by
    intro cs m hm
    have hcs : cs ≠ comps ++ [n] := by
      rintro rfl
      have hne : comps ++ [n] ++ [m] ≠ comps ++ [n] := by simp
      rw [Function.update_of_ne hne] at hm
      have := t.rooted (comps ++ [n]) m hm
      rw [hnew] at this
      cases this
    rw [Function.update_of_ne hcs]
    by_cases heq : cs ++ [m] = comps ++ [n]
    · obtain ⟨rfl, -⟩ := List.append_inj' heq rfl
      exact hparent
    · rw [Function.update_of_ne heq] at hm
      exact t.rooted cs m hm

/-- An entry with nothing below it is taken away. -/
def erase (t : FileTree N directory) (comps : List N) (n : N)
    (hempty : ∀ m, t.kind (comps ++ [n] ++ [m]) = none) : FileTree N directory where
  kind := Function.update t.kind (comps ++ [n]) none
  root := by rw [Function.update_of_ne (by simp), t.root]
  rooted := by
    intro cs m hm
    by_cases hcs : cs = comps ++ [n]
    · subst hcs
      have hne : comps ++ [n] ++ [m] ≠ comps ++ [n] := by simp
      rw [Function.update_of_ne hne] at hm
      exact absurd (hempty m) hm
    · rw [Function.update_of_ne hcs]
      by_cases heq : cs ++ [m] = comps ++ [n]
      · rw [heq, Function.update_self] at hm
        exact absurd rfl hm
      · rw [Function.update_of_ne heq] at hm
        exact t.rooted cs m hm

end FileTree
