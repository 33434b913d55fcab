import Mathlib.Data.List.Induction

/-!
# Ordered maps as sorted association lists

A finite map whose iteration order is the order of its keys, or cannot be
observed, has one representation: the list of its entries by strictly
increasing key.
-/

namespace SortedAssoc

variable {κ β : Type} [DecidableEq κ] [LT κ] [DecidableLT κ]

def insert (k : κ) (v : β) : List (κ × β) → List (κ × β)
  | [] => [(k, v)]
  | (k', v') :: m =>
    if k = k' then (k, v) :: m
    else if k < k' then (k, v) :: (k', v') :: m
    else (k', v') :: insert k v m

def ofList (entries : List (κ × β)) : List (κ × β) :=
  entries.foldl (fun m e => insert e.1 e.2 m) []

omit [DecidableEq κ] [DecidableLT κ] in
def Sorted (m : List (κ × β)) : Prop := m.Pairwise fun a b => a.1 < b.1

omit [LT κ] [DecidableLT κ] in
theorem lookup_cons_eq [BEq κ] [LawfulBEq κ] (k l : κ) (v : β) (m : List (κ × β)) :
    ((k, v) :: m).lookup l = if l = k then some v else m.lookup l := by
  rw [List.lookup_cons]
  by_cases h : l = k
  · simp [h]
  · rw [if_neg h, beq_false_of_ne h]

theorem lookup_insert [BEq κ] [LawfulBEq κ] (k l : κ) (v : β) (m : List (κ × β)) :
    (insert k v m).lookup l = if l = k then some v else m.lookup l := by
  induction m with
  | nil => exact lookup_cons_eq k l v []
  | cons e m ih =>
    obtain ⟨k', v'⟩ := e
    simp only [insert]
    split
    · rename_i heq
      subst heq
      simp only [lookup_cons_eq]
      split <;> rfl
    · rename_i hne
      split
      · exact lookup_cons_eq ..
      · simp only [lookup_cons_eq, ih]
        by_cases h : l = k
        · simp [h, hne]
        · simp [h]

theorem mem_insert {k : κ} {v : β} {m : List (κ × β)} {e : κ × β} (h : e ∈ insert k v m) :
    e = (k, v) ∨ e ∈ m := by
  induction m with
  | nil => exact .inl (List.mem_singleton.mp h)
  | cons x m ih =>
    simp only [insert] at h
    split at h
    · rcases List.mem_cons.mp h with h | h
      · exact .inl h
      · exact .inr (List.mem_cons_of_mem _ h)
    · split at h
      · exact List.mem_cons.mp h
      · rcases List.mem_cons.mp h with h | h
        · exact .inr (h ▸ List.mem_cons_self ..)
        · exact (ih h).imp_right (List.mem_cons_of_mem _)

theorem ofList_concat (entries : List (κ × β)) (k : κ) (v : β) :
    ofList (entries ++ [(k, v)]) = insert k v (ofList entries) := by
  simp [ofList]

theorem mem_ofList {entries : List (κ × β)} {e : κ × β} (h : e ∈ ofList entries) :
    e ∈ entries := by
  induction entries using List.reverseRecOn with
  | nil => exact h
  | append_singleton es x ih =>
    obtain ⟨k, v⟩ := x
    rw [ofList_concat] at h
    rcases mem_insert h with rfl | h
    · exact List.mem_append_right _ (List.mem_singleton_self _)
    · exact List.mem_append_left _ (ih h)

section Order

variable [LE κ] [Std.IsLinearOrder κ] [Std.LawfulOrderLT κ]

theorem sorted_insert {k : κ} {v : β} {m : List (κ × β)} (h : Sorted m) :
    Sorted (insert k v m) := by
  induction m with
  | nil => exact List.pairwise_singleton ..
  | cons x m ih =>
    obtain ⟨hx, hm⟩ := List.pairwise_cons.mp h
    simp only [insert]
    split
    · rename_i heq
      exact List.pairwise_cons.mpr ⟨fun e he => heq ▸ hx e he, hm⟩
    · rename_i hne
      split
      · rename_i hlt
        refine List.pairwise_cons.mpr ⟨fun e he => ?_, h⟩
        rcases List.mem_cons.mp he with rfl | he
        · exact hlt
        · exact Std.lt_trans hlt (hx e he)
      · rename_i hnlt
        have hgt : x.1 < k := Std.lt_of_le_of_ne (Std.not_lt.mp hnlt) (Ne.symm hne)
        refine List.pairwise_cons.mpr ⟨fun e he => ?_, ih hm⟩
        rcases mem_insert he with rfl | he
        · exact hgt
        · exact hx e he

theorem sorted_ofList (entries : List (κ × β)) : Sorted (ofList entries) := by
  have hfold : ∀ m, Sorted m → Sorted (entries.foldl (fun m e => insert e.1 e.2 m) m) := by
    induction entries with
    | nil => exact fun m hm => hm
    | cons e es ih => exact fun m hm => ih _ (sorted_insert hm)
  exact hfold [] List.Pairwise.nil

theorem insert_last {m : List (κ × β)} {e : κ × β} (h : Sorted (m ++ [e])) :
    insert e.1 e.2 m = m ++ [e] := by
  induction m with
  | nil => rfl
  | cons x m ih =>
    obtain ⟨hx, hm⟩ := List.pairwise_cons.mp h
    have hlt : x.1 < e.1 := hx e (by simp)
    have hne : e.1 ≠ x.1 := fun h => Std.lt_irrefl (h ▸ hlt)
    simp only [insert, if_neg hne, if_neg (Std.not_lt.mpr (Std.le_of_lt hlt)), ih hm,
      List.cons_append]

theorem ofList_sorted {m : List (κ × β)} (h : Sorted m) : ofList m = m := by
  have hfold : ∀ pre, Sorted (pre ++ m) →
      m.foldl (fun m e => insert e.1 e.2 m) pre = pre ++ m := by
    clear h
    induction m with
    | nil => exact fun pre _ => (List.append_nil pre).symm
    | cons e m ih =>
      intro pre hpre
      rw [List.append_cons] at hpre
      have hhead : Sorted (pre ++ [e]) := hpre.sublist (List.sublist_append_left ..)
      rw [List.foldl_cons, insert_last hhead, ih _ hpre, List.append_assoc]
      rfl
  exact hfold [] h

end Order

end SortedAssoc
