import Mathlib.Data.List.Basic
import NetworkStack.Core.ErrorCodes
import NetworkStack.Lib.Search

/-!
# Paths (`std::filesystem::path` on POSIX)

A path is its text. Its file names are what stands between separators; iterating
over it also visits the root directory and, after a trailing separator, an empty
element. `lexically_normal` follows the steps of the standard's normal form.
-/

namespace NetworkStack

abbrev Path := Bytes

namespace Path

def separator : Byte := 47

def dot : Path := ascii "."

def dotdot : Path := ascii ".."

def has_root_directory (p : Path) : Bool := p.head? = some separator

def names (p : Path) : List Path := (p.splitOn separator).filter (· ≠ [])

def trailing (p : Path) : Bool := p.names ≠ [] ∧ p.getLast? = some separator

def elements (p : Path) : List Path :=
  (if p.has_root_directory then [[separator]] else []) ++ p.names
    ++ (if p.trailing then [[]] else [])

def relative_path (p : Path) : Path := p.dropWhile (· == separator)

def filename (p : Path) : Path := (p.reverse.takeWhile (· != separator)).reverse

/-- A path of separators alone is its own parent. -/
def parent_path (p : Path) : Path :=
  if p.names = [] then p
  else
    let stem := ((p.reverse.dropWhile (· != separator)).dropWhile (· == separator)).reverse
    if stem = [] ∧ p.has_root_directory then [separator] else stem

/-! ### The normal form -/

/-- The names kept so far, innermost first, and one more name of the path. -/
def push (root : Bool) (kept : List Path) (name : Path) : List Path :=
  if name = dot then kept
  else if name = dotdot then
    match kept with
    | [] => if root then [] else [dotdot]
    | top :: rest => if top = dotdot then dotdot :: kept else rest
  else name :: kept

def reduce (root : Bool) (names : List Path) : List Path := (names.foldl (push root) []).reverse

def assemble (root : Bool) (names : List Path) (trailing : Bool) : Path :=
  (if root then [separator] else []) ++ [separator].intercalate names
    ++ (if trailing then [separator] else [])

/- A removed last name leaves the separator before it, which stays unless nothing or
a dot-dot stands before it. -/
def lexically_normal (p : Path) : Path :=
  if p = [] then []
  else
    let reduced := reduce p.has_root_directory p.names
    let ends := p.getLast? = some separator ∨ p.names.getLast? = some dot
      ∨ p.names.getLast? = some dotdot
    let normal := assemble p.has_root_directory reduced
      (ends ∧ reduced ≠ [] ∧ reduced.getLast? ≠ some dotdot)
    if normal = [] then dot else normal

/-! ### Names -/

def IsName (name : Path) : Prop := name ≠ [] ∧ separator ∉ name

theorem not_mem_of_mem_splitOn {a : Byte} {xs l : Bytes} (h : l ∈ xs.splitOn a) : a ∉ l := by
  induction xs generalizing l with
  | nil =>
    rw [List.splitOn_nil, List.mem_singleton] at h
    simp [h]
  | cons x xs ih =>
    rw [List.splitOn_cons_eq_if_modifyHead] at h
    split at h
    · rcases List.mem_cons.mp h with rfl | h
      · simp
      · exact ih h
    · rename_i hx
      cases hs : xs.splitOn a with
      | nil => exact absurd hs (List.splitOn_ne_nil a xs)
      | cons l' ls =>
        rw [hs, List.modifyHead_cons] at h
        rcases List.mem_cons.mp h with rfl | h
        · have hl' : a ∉ l' := ih (by simp [hs])
          have hne : a ≠ x := fun hax => hx (by simp [hax])
          simp [hne, hl']
        · exact ih (by simp [hs, h])

theorem isName_of_mem_names {p name : Path} (h : name ∈ p.names) : IsName name := by
  obtain ⟨hmem, hne⟩ := List.mem_filter.mp h
  exact ⟨of_decide_eq_true hne, not_mem_of_mem_splitOn hmem⟩

@[simp] theorem names_nil : names [] = [] := rfl

theorem names_append_separator (p q : Path) :
    names (p ++ separator :: q) = p.names ++ q.names := by
  rw [names, List.splitOn_append_cons_self, List.filter_append, names, names]

theorem names_cons_separator (p : Path) : names (separator :: p) = p.names :=
  names_append_separator [] p

theorem names_intercalate {ns : List Path} (h : ∀ n ∈ ns, IsName n) :
    names ([separator].intercalate ns) = ns := by
  by_cases hns : ns = []
  · subst hns
    rfl
  · rw [names, List.splitOn_intercalate separator (fun n hn => (h n hn).2) hns,
      List.filter_eq_self]
    intro n hn
    exact decide_eq_true (h n hn).1

theorem names_assemble {ns : List Path} (h : ∀ n ∈ ns, IsName n) (root trailing : Bool) :
    names (assemble root ns trailing) = ns := by
  have hfront : names ((if root then [separator] else []) ++ [separator].intercalate ns) = ns := by
    cases root with
    | false => exact names_intercalate h
    | true => exact (names_cons_separator _).trans (names_intercalate h)
  cases trailing with
  | false => simpa only [assemble, Bool.false_eq_true, if_false, List.append_nil] using hfront
  | true =>
    show names (_ ++ separator :: []) = ns
    rw [names_append_separator, names_nil, List.append_nil, hfront]

/-! ### Reduced names -/

theorem mem_push {root : Bool} {kept : List Path} {name n : Path} (h : n ∈ push root kept name) :
    n ∈ kept ∨ n = name := by
  unfold push at h
  split at h
  · exact .inl h
  · split at h
    · rename_i hdd
      split at h
      · split at h
        · cases h
        · exact .inr ((List.mem_singleton.mp h).trans hdd.symm)
      · rename_i top rest
        split at h
        · rcases List.mem_cons.mp h with rfl | h
          · exact .inr hdd.symm
          · exact .inl h
        · exact .inl (List.mem_cons_of_mem _ h)
    · rcases List.mem_cons.mp h with rfl | h
      · exact .inr rfl
      · exact .inl h

theorem mem_foldl_push {root : Bool} {ns kept : List Path} {n : Path}
    (h : n ∈ ns.foldl (push root) kept) : n ∈ kept ∨ n ∈ ns := by
  induction ns generalizing kept with
  | nil => exact .inl h
  | cons m ns ih =>
    rcases ih h with h | h
    · rcases mem_push h with h | rfl
      · exact .inl h
      · exact .inr (List.mem_cons_self ..)
    · exact .inr (List.mem_cons_of_mem _ h)

theorem isName_of_mem_reduce {root : Bool} {p n : Path} (h : n ∈ reduce root p.names) :
    IsName n := by
  rcases mem_foldl_push (List.mem_reverse.mp h) with h | h
  · cases h
  · exact isName_of_mem_names h

def Proper (name : Path) : Prop := name ≠ dot ∧ name ≠ dotdot

theorem push_root_proper {kept : List Path} {name : Path} (h : ∀ n ∈ kept, Proper n) :
    ∀ n ∈ push true kept name, Proper n := by
  intro n hn
  unfold push at hn
  split at hn
  · exact h n hn
  · rename_i hdot
    split at hn
    · split at hn
      · cases hn
      · rename_i top rest
        split at hn
        · rename_i htop
          exact absurd htop (h top (List.mem_cons_self ..)).2
        · exact h n (List.mem_cons_of_mem _ hn)
    · rename_i hdd
      rcases List.mem_cons.mp hn with rfl | hn
      · exact ⟨hdot, hdd⟩
      · exact h n hn

theorem reduce_root_proper (ns : List Path) : ∀ n ∈ reduce true ns, Proper n := by
  have hfold : ∀ kept : List Path, (∀ n ∈ kept, Proper n) →
      ∀ n ∈ ns.foldl (push true) kept, Proper n := by
    induction ns with
    | nil => exact fun _ h => h
    | cons m ns ih => exact fun kept h => ih _ (push_root_proper h)
  intro n hn
  exact hfold [] (by simp) n (List.mem_reverse.mp hn)

/-! ### The normal form of a path -/

theorem has_root_assemble {n : Path} {ns : List Path} (h : IsName n) (trailing : Bool) :
    (assemble false (n :: ns) trailing).has_root_directory = false := by
  obtain ⟨hne, hsep⟩ := h
  match n, hne with
  | b :: bs, _ =>
    have hb : b ≠ separator := fun hb => hsep (by simp [hb])
    cases ns <;> simpa [assemble, has_root_directory, List.intercalate_cons_of_ne_nil] using hb

theorem has_root_lexically_normal (p : Path) :
    (lexically_normal p).has_root_directory = p.has_root_directory := by
  unfold lexically_normal
  split
  · rename_i hp
    rw [hp]
  · cases hroot : p.has_root_directory with
    | true => simp [assemble, has_root_directory]
    | false =>
      have hdot : has_root_directory dot = false := by decide
      cases hred : reduce false p.names with
      | nil => simpa [assemble] using hdot
      | cons n ns =>
        have hn : IsName n := isName_of_mem_reduce (hred ▸ List.mem_cons_self ..)
        simp only
        split
        · exact hdot
        · exact has_root_assemble hn _

theorem names_lexically_normal {p : Path} (h : p.has_root_directory = true) :
    (lexically_normal p).names = reduce true p.names := by
  have hp : p ≠ [] := by
    rintro rfl
    cases h
  simp only [lexically_normal, if_neg hp, h]
  rw [if_neg (by simp [assemble])]
  exact names_assemble (fun n hn => isName_of_mem_reduce hn) _ _

example : lexically_normal (ascii "/a//./b/../c/") = ascii "/a/c/" := by decide
example : lexically_normal (ascii "../x/y/..") = ascii "../x/" := by decide

theorem absolute_names_proper {p : Path} (h : (lexically_normal p).has_root_directory = true) :
    ∀ n ∈ (lexically_normal p).names, Proper n := by
  rw [has_root_lexically_normal] at h
  rw [names_lexically_normal h]
  exact reduce_root_proper _

/-! ### Relative paths -/

theorem names_relative_path (p : Path) : p.relative_path.names = p.names := by
  induction p with
  | nil => rfl
  | cons b p ih =>
    by_cases hb : b = separator
    · subst hb
      rw [names_cons_separator, ← ih]
      rfl
    · rw [relative_path, List.dropWhile_cons_of_neg (by simpa using hb)]

theorem has_root_relative_path (p : Path) : p.relative_path.has_root_directory = false := by
  induction p with
  | nil => rfl
  | cons b p ih =>
    by_cases hb : b = separator
    · subst hb
      exact ih
    · rw [relative_path, List.dropWhile_cons_of_neg (by simpa using hb)]
      simpa [has_root_directory] using hb

theorem trailing_relative_path (p : Path) : p.relative_path.trailing = p.trailing := by
  induction p with
  | nil => rfl
  | cons b p ih =>
    by_cases hb : b = separator
    · subst hb
      have hdrop : relative_path (separator :: p) = relative_path p := rfl
      rw [hdrop, ih, trailing, trailing, names_cons_separator]
      cases p with
      | nil => rfl
      | cons c p => rw [List.getLast?_cons_cons]
    · rw [relative_path, List.dropWhile_cons_of_neg (by simpa using hb)]

theorem elements_relative_path (p : Path) :
    p.relative_path.elements = p.names ++ (if p.trailing then [[]] else []) := by
  rw [elements, has_root_relative_path, names_relative_path, trailing_relative_path]
  rfl

/-! ### Plain absolute paths -/

/-- The absolute path of some names, without a trailing separator. -/
def ofNames (ns : List Path) : Path := assemble true ns false

theorem ofNames_eq (ns : List Path) : ofNames ns = separator :: [separator].intercalate ns := by
  simp [ofNames, assemble]

theorem names_ofNames {ns : List Path} (h : ∀ n ∈ ns, IsName n) : (ofNames ns).names = ns :=
  names_assemble h true false

theorem has_root_ofNames (ns : List Path) : (ofNames ns).has_root_directory = true := by
  simp [ofNames_eq, has_root_directory]

theorem intercalate_concat {ns : List Path} (h : ns ≠ []) (n : Path) :
    [separator].intercalate (ns ++ [n]) = [separator].intercalate ns ++ separator :: n := by
  induction ns with
  | nil => exact absurd rfl h
  | cons m ns ih =>
    cases ns with
    | nil => simp
    | cons m' ns =>
      have hrest := ih (by simp)
      rw [List.cons_append] at hrest
      rw [List.cons_append, List.cons_append, List.intercalate_cons_cons, hrest,
        List.intercalate_cons_cons, List.append_assoc, List.append_assoc, List.append_assoc]

theorem ofNames_concat (ns : List Path) (n : Path) :
    ofNames (ns ++ [n]) = (if ns = [] then [] else ofNames ns) ++ separator :: n := by
  by_cases hns : ns = []
  · simp [hns, ofNames_eq]
  · rw [if_neg hns, ofNames_eq, ofNames_eq, intercalate_concat hns, List.cons_append]

theorem getLast?_ofNames (ns : List Path) {n : Path} (hn : IsName n) :
    (ofNames (ns ++ [n])).getLast? ≠ some separator := by
  rw [ofNames_concat, List.getLast?_append, List.getLast?_cons]
  obtain ⟨hne, hsep⟩ := hn
  intro h
  have hlast : n.getLast? = some separator := by
    obtain ⟨b, hb⟩ : ∃ b, n.getLast? = some b := ⟨_, List.getLast?_eq_some_getLast hne⟩
    simp [hb] at h
    rw [hb, h]
  exact hsep (List.mem_of_getLast? hlast)

theorem trailing_ofNames {ns : List Path} (h : ∀ n ∈ ns, IsName n) :
    (ofNames ns).trailing = false := by
  rcases List.eq_nil_or_concat' ns with rfl | ⟨init, last, rfl⟩
  · decide
  · have hlast := getLast?_ofNames init (h last (by simp))
    simp [trailing, hlast]

theorem foldl_push_proper {ns : List Path} (h : ∀ n ∈ ns, Proper n) (kept : List Path) :
    ns.foldl (push true) kept = ns.reverse ++ kept := by
  induction ns generalizing kept with
  | nil => rfl
  | cons n ns ih =>
    obtain ⟨hn, hns⟩ := List.forall_mem_cons.mp h
    have hpush : push true kept n = n :: kept := by simp [push, hn.1, hn.2]
    rw [List.foldl_cons, hpush, ih hns]
    simp

theorem lexically_normal_ofNames {ns : List Path} (h : ∀ n ∈ ns, IsName n)
    (hproper : ∀ n ∈ ns, Proper n) : lexically_normal (ofNames ns) = ofNames ns := by
  have hne : ofNames ns ≠ [] := by simp [ofNames_eq]
  have hreduce : reduce true ns = ns := by
    rw [reduce, foldl_push_proper hproper, List.append_nil, List.reverse_reverse]
  simp only [lexically_normal, if_neg hne, has_root_ofNames, names_ofNames h, hreduce]
  rcases List.eq_nil_or_concat' ns with rfl | ⟨init, last, rfl⟩
  · decide
  · have hlast := getLast?_ofNames init (h last (by simp))
    obtain ⟨hdot, hdd⟩ := hproper last (by simp)
    have hends : ¬((ofNames (init ++ [last])).getLast? = some separator ∨
        (init ++ [last]).getLast? = some dot ∨ (init ++ [last]).getLast? = some dotdot) := by
      simp [hlast, hdot, hdd]
    rw [decide_eq_false fun hc => hends hc.1, ← ofNames, if_neg hne]

theorem filename_ofNames (ns : List Path) {n : Path} (h : IsName n) :
    (ofNames (ns ++ [n])).filename = n := by
  have hno : separator ∉ n.reverse := fun hmem => h.2 (List.mem_reverse.mp hmem)
  rw [ofNames_concat, filename, List.reverse_append, List.reverse_cons, List.append_assoc,
    List.takeWhile_append_of_pos (Search.ne_mark hno)]
  simp [separator]

theorem parent_path_ofNames {ns : List Path} {n : Path} (h : ∀ m ∈ ns, IsName m) (hn : IsName n) :
    (ofNames (ns ++ [n])).parent_path = ofNames ns := by
  have hnames : (ofNames (ns ++ [n])).names = ns ++ [n] := by
    refine names_ofNames fun m hm => ?_
    rcases List.mem_append.mp hm with hm | hm
    · exact h m hm
    · rw [List.mem_singleton.mp hm]
      exact hn
  have hno : separator ∉ n.reverse := fun hmem => hn.2 (List.mem_reverse.mp hmem)
  have hroot := has_root_ofNames (ns ++ [n])
  simp only [parent_path, hnames, hroot]
  rw [if_neg (by simp), ofNames_concat, List.reverse_append, List.reverse_cons, List.append_assoc,
    List.dropWhile_append_of_pos (Search.ne_mark hno)]
  rcases List.eq_nil_or_concat' ns with rfl | ⟨init, last, rfl⟩
  · decide
  · have hlast := getLast?_ofNames init (h last (by simp))
    have hhead : (ofNames (init ++ [last])).reverse.head? ≠ some separator := by
      rwa [List.head?_reverse]
    have hkept : (ofNames (init ++ [last])).reverse.dropWhile (· == separator)
        = (ofNames (init ++ [last])).reverse :=
      List.dropWhile_beq_eq_self_of_head?_ne hhead
    have hstem : ((([separator] ++ (ofNames (init ++ [last])).reverse).dropWhile
        (· != separator)).dropWhile (· == separator)).reverse = ofNames (init ++ [last]) := by
      show ((ofNames (init ++ [last])).reverse.dropWhile (· == separator)).reverse = _
      rw [hkept, List.reverse_reverse]
    rw [if_neg (by simp : ¬init ++ [last] = []), hstem, if_neg (by simp [ofNames_eq])]

theorem eq_ofNames {p : Path} (hroot : p.has_root_directory = true)
    (hnormal : lexically_normal p = p) (htrailing : p.trailing = false) : p = ofNames p.names := by
  have hne : p ≠ [] := by
    rintro rfl
    cases hroot
  have hnames := names_lexically_normal hroot
  rw [hnormal] at hnames
  have hform : ∃ b, p = assemble true p.names b := by
    have hform := hnormal
    simp only [lexically_normal, if_neg hne, hroot, ← hnames] at hform
    rw [if_neg (by simp [assemble])] at hform
    exact ⟨_, hform.symm⟩
  obtain ⟨b, hb⟩ := hform
  cases b with
  | false => exact hb
  | true =>
    -- the separator at the end would be a trailing one
    have hend : p.getLast? = some separator := by
      rw [hb]
      exact List.getLast?_concat ..
    have hroots : p.names = [] := by
      by_contra hnil
      simp [trailing, hnil, hend] at htrailing
    rw [hroots] at hb
    have hdouble : p.lexically_normal = [separator] := by
      rw [hb]
      decide
    rw [hnormal] at hdouble
    rw [hdouble]
    decide

end Path

end NetworkStack
