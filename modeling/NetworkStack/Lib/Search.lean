import Mathlib.Data.List.Basic

/-!
# First occurrence of a pattern

`search` is the left-to-right substring search: the first position, inside the
text, at which the pattern begins. The empty pattern occurs at the first
position of a non-empty text and nowhere in an empty one.
-/

namespace Search

variable {α : Type} [DecidableEq α]

def search (pat : List α) : List α → Option ℕ
  | [] => none
  | x :: xs => if pat <+: x :: xs then some 0 else (search pat xs).map (· + 1)

theorem search_lt {pat xs : List α} {i : ℕ} (h : search pat xs = some i) : i < xs.length := by
  induction xs generalizing i with
  | nil => cases h
  | cons x xs ih =>
    simp only [search] at h
    split at h
    · cases h; simp
    · obtain ⟨j, hj, rfl⟩ := Option.map_eq_some_iff.mp h
      have := ih hj
      simp only [List.length_cons]
      omega

theorem search_isPrefix {pat xs : List α} {i : ℕ} (h : search pat xs = some i) :
    pat <+: xs.drop i := by
  induction xs generalizing i with
  | nil => cases h
  | cons x xs ih =>
    simp only [search] at h
    split at h
    · cases h
      assumption
    · obtain ⟨j, hj, rfl⟩ := Option.map_eq_some_iff.mp h
      exact ih hj

/- What follows a text does not change where the pattern is found in it. -/
theorem search_append {pat xs : List α} {i : ℕ} (h : search pat xs = some i) (ys : List α) :
    search pat (xs ++ ys) = some i := by
  induction xs generalizing i with
  | nil => cases h
  | cons x xs ih =>
    have hsplit := h
    simp only [search] at hsplit
    split at hsplit
    · rename_i hpat
      cases hsplit
      have hlong : pat <+: (x :: xs) ++ ys := hpat.trans (List.prefix_append ..)
      simp only [List.cons_append] at hlong ⊢
      rw [search, if_pos hlong]
    · rename_i hpat
      obtain ⟨j, hj, rfl⟩ := Option.map_eq_some_iff.mp hsplit
      -- a pattern that starts here would end behind the one found later
      have hshort : ¬pat <+: (x :: xs) ++ ys := by
        intro hlong
        have hlen : pat.length ≤ (x :: xs).length := by
          have := (search_isPrefix hj).length_le
          rw [List.length_drop] at this
          simp only [List.length_cons]
          omega
        exact hpat (List.prefix_of_prefix_length_le hlong (List.prefix_append ..) hlen)
      rw [List.cons_append] at hshort ⊢
      rw [search, if_neg hshort, ih hj]
      rfl

/- Where the pattern stands, it is found there or before. -/
theorem search_le {pat xs : List α} {i : ℕ} (hi : i < xs.length) (h : pat <+: xs.drop i) :
    ∃ j, search pat xs = some j ∧ j ≤ i := by
  induction xs generalizing i with
  | nil => cases hi
  | cons x xs ih =>
    by_cases hpat : pat <+: x :: xs
    · exact ⟨0, by rw [search, if_pos hpat], Nat.zero_le i⟩
    · cases i with
      | zero => exact absurd h hpat
      | succ i =>
        obtain ⟨j, hj, hle⟩ := ih (Nat.lt_of_succ_lt_succ hi) h
        exact ⟨j + 1, by rw [search, if_neg hpat, hj]; rfl, Nat.succ_le_succ hle⟩

/- Of a text in which the pattern is found, a front part that holds this occurrence is
enough to find it, and a shorter one is not. -/
theorem search_front {pat xs ys : List α} {i : ℕ} (hne : pat ≠ [])
    (h : search pat (xs ++ ys) = some i) :
    search pat xs = if i + pat.length ≤ xs.length then some i else none := by
  have hpos := List.length_pos_iff.mpr hne
  split
  · rename_i hlen
    have hpat : pat <+: xs.drop i := by
      have hwhole := search_isPrefix h
      rw [List.drop_append_of_le_length (by omega)] at hwhole
      exact List.prefix_of_prefix_length_le hwhole (List.prefix_append ..)
        (by rw [List.length_drop]; omega)
    obtain ⟨j, hj, -⟩ := search_le (by omega) hpat
    rw [hj, ← h, search_append hj ys]
  · rename_i hlen
    cases hx : search pat xs with
    | none => rfl
    | some j =>
      have hj := search_append hx ys
      rw [h] at hj
      obtain rfl := Option.some.inj hj
      have hpat := (search_isPrefix hx).length_le
      have hlt := search_lt hx
      rw [List.length_drop] at hpat
      omega

/- A pattern whose first element does not occur in the text is found behind it. -/
theorem search_behind {a : α} {pat text : List α} (h : a ∉ text) (rest : List α) :
    search (a :: pat) (text ++ a :: pat ++ rest) = some text.length := by
  induction text with
  | nil =>
    rw [List.nil_append, List.cons_append, search, if_pos]
    · rfl
    · exact List.prefix_append (a :: pat) rest
  | cons x text ih =>
    rw [List.mem_cons, not_or] at h
    have hno : ¬a :: pat <+: x :: (text ++ a :: pat ++ rest) := fun hp =>
      h.1 (List.cons_prefix_cons.mp hp).1
    rw [List.cons_append, List.cons_append, search, if_neg hno, ih h.2]
    rfl

/- No occurrence reaches over an element that is not in the pattern. -/
theorem search_past {a : α} {pat xs : List α} (ha : a ∉ pat) (h : search pat (xs ++ [a]) = none)
    (ys : List α) : search pat (xs ++ a :: ys) = (search pat ys).map (· + (xs.length + 1)) := by
  induction xs with
  | nil =>
    have hhead : ¬pat <+: a :: ys := by
      intro hpat
      cases pat with
      | nil => cases h
      | cons b pat => exact ha ((List.cons_prefix_cons.mp hpat).1 ▸ List.mem_cons_self ..)
    rw [List.nil_append, search, if_neg hhead]
    rfl
  | cons x xs ih =>
    rw [List.cons_append, search] at h
    by_cases hpat : pat <+: x :: (xs ++ [a])
    · rw [if_pos hpat] at h
      cases h
    · rw [if_neg hpat, Option.map_eq_none_iff] at h
      have hlong : ¬pat <+: x :: (xs ++ a :: ys) := by
        intro hp
        have hsplit : x :: (xs ++ a :: ys) = x :: (xs ++ [a]) ++ ys := by simp
        rw [hsplit] at hp
        rcases List.prefix_or_prefix_of_prefix hp (List.prefix_append ..) with hin | hover
        · exact hpat hin
        · exact ha (hover.subset (by simp))
      rw [List.cons_append, search, if_neg hlong, ih h, Option.map_map]
      rfl

omit [DecidableEq α] in
theorem drop_past (a : α) (xs ys : List α) (i : ℕ) :
    (xs ++ a :: ys).drop (i + (xs.length + 1)) = ys.drop i := by
  induction xs with
  | nil => rfl
  | cons x xs ih => exact ih

theorem search_past_isSome {a : α} {pat : List α} (ha : a ∉ pat) (xs ys : List α) :
    (search pat (xs ++ a :: ys)).isSome
      = ((search pat (xs ++ [a])).isSome || (search pat ys).isSome) := by
  cases h : search pat (xs ++ [a]) with
  | none => rw [search_past ha h, Option.isSome_map, Option.isSome_none, Bool.false_or]
  | some i =>
    have hlater := search_append h ys
    rw [List.append_assoc] at hlater
    rw [← List.singleton_append, hlater]
    rfl

/- A pattern with a mark in it and a text with only one such mark, behind fronts of the same
length: the pattern can only be found where the marks meet. -/
theorem search_mark {a : α} {p q key value : List α} (hlen : key.length = p.length)
    (hkey : a ∉ key) (hvalue : a ∉ value) : search (p ++ a :: q) (key ++ a :: value)
      = if key = p ∧ q <+: value then some 0 else none := by
  have hmark : ∀ j, (key ++ a :: value)[j]? = some a → j = key.length := by
    intro j hj
    rcases Nat.lt_trichotomy j key.length with hlt | heq | hgt
    · rw [List.getElem?_append_left hlt] at hj
      exact absurd (List.mem_of_getElem? hj) hkey
    · exact heq
    · rw [List.getElem?_append_right (Nat.le_of_lt hgt), List.getElem?_cons,
        if_neg (Nat.sub_ne_zero_of_lt hgt)] at hj
      exact absurd (List.mem_of_getElem? hj) hvalue
  have hfront : p ++ a :: q <+: key ++ a :: value ↔ key = p ∧ q <+: value := by
    rw [List.prefix_append_inj_of_length_eq hlen.symm, List.cons_prefix_cons, and_iff_right rfl,
      eq_comm]
  split
  · rename_i hmeets
    have hpos : 0 < (key ++ a :: value).length := by
      rw [List.length_append]
      exact Nat.add_pos_right _ (Nat.succ_pos _)
    obtain ⟨i, hfind, hle⟩ := search_le hpos (hfront.mpr hmeets)
    rw [hfind, Nat.le_zero.mp hle]
  · rename_i hmeets
    cases hfind : search (p ++ a :: q) (key ++ a :: value) with
    | none => rfl
    | some i =>
      have hpre := search_isPrefix hfind
      have hat : (key ++ a :: value)[i + p.length]? = some a := by
        obtain ⟨tail, htail⟩ := hpre
        rw [← List.getElem?_drop, ← htail, List.append_assoc,
          List.getElem?_append_right (Nat.le_refl _), Nat.sub_self]
        rfl
      have hzero : i = 0 := by
        have := hmark _ hat
        omega
      rw [hzero] at hpre
      exact absurd (hfront.mp hpre) hmeets

/- A front part all of whose elements satisfy `p`, before one that does not. -/
omit [DecidableEq α] in
theorem span_front {p : α → Bool} {xs : List α} (ys : List α) (hxs : ∀ x ∈ xs, p x = true)
    (hys : ∀ y ∈ ys.head?, p y = false) :
    (xs ++ ys).takeWhile p = xs ∧ (xs ++ ys).dropWhile p = ys := by
  rw [List.takeWhile_append_of_pos hxs, List.dropWhile_append_of_pos hxs]
  cases ys with
  | nil => simp
  | cons y ys =>
    have hy : ¬p y = true := by simp [hys y rfl]
    rw [List.takeWhile_cons_of_neg hy, List.dropWhile_cons_of_neg hy, List.append_nil]
    exact ⟨rfl, rfl⟩

theorem ne_mark {a : α} {xs : List α} (h : a ∉ xs) : ∀ x ∈ xs, (x != a) = true :=
  fun _ hx => bne_iff_ne.mpr fun heq => h (heq ▸ hx)

/- A text is cut at its first mark. -/
theorem span_mark {a : α} {xs : List α} (h : a ∉ xs) (ys : List α) :
    (xs ++ a :: ys).takeWhile (· != a) = xs ∧ (xs ++ a :: ys).dropWhile (· != a) = a :: ys :=
  span_front _ (ne_mark h) fun y hy => by cases hy; simp

theorem takeWhile_mark {a : α} {xs : List α} (h : a ∉ xs) (ys : List α) :
    (xs ++ a :: ys).takeWhile (· != a) = xs := (span_mark h ys).1

theorem span_no_mark {a : α} {xs : List α} (h : a ∉ xs) :
    xs.takeWhile (· != a) = xs ∧ xs.dropWhile (· != a) = [] := by
  have hspan := span_front [] (ne_mark h) fun y hy => by cases hy
  rwa [List.append_nil] at hspan

/- A text is cut at its last mark in one way only. -/
omit [DecidableEq α] in
theorem last_mark_inj {a : α} {xs xs' ys ys' : List α} (h : xs ++ a :: ys = xs' ++ a :: ys')
    (hys : a ∉ ys) (hys' : a ∉ ys') : xs = xs' ∧ ys = ys' := by
  rcases List.append_eq_append_iff.mp h with ⟨mid, rfl, hmid⟩ | ⟨mid, rfl, hmid⟩
  · cases mid with
    | nil => exact ⟨(List.append_nil xs).symm, (List.cons.inj hmid).2⟩
    | cons m mid =>
      have htail := (List.cons.inj hmid).2
      exact absurd (htail ▸ List.mem_append_right mid (List.mem_cons_self ..)) hys
  · cases mid with
    | nil => exact ⟨List.append_nil xs', (List.cons.inj hmid).2.symm⟩
    | cons m mid =>
      have htail := (List.cons.inj hmid).2
      exact absurd (htail ▸ List.mem_append_right mid (List.mem_cons_self ..)) hys'

end Search
