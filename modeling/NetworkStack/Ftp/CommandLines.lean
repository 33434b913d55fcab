import Mathlib.Data.List.Chain
import NetworkStack.Ftp.FileTransfer

/-!
# Command lines

The server reads the control channel line by line, up to each CRLF. A command is
one line as long as its text holds no CRLF of its own, and a path without one gives
only such commands.
-/

namespace NetworkStack.Ftp

open Path Utility

def takeLines : Bytes → List Bytes × Bytes
  | [] => ([], [])
  | [b] => ([], [b])
  | a :: b :: rest =>
    if a = cr ∧ b = lf then
      let (lines, tail) := takeLines rest
      ([] :: lines, tail)
    else
      match takeLines (b :: rest) with
      | ([], tail) => ([], a :: tail)
      | (line :: lines, tail) => ((a :: line) :: lines, tail)

def CrlfFree (text : Bytes) : Prop := text.IsChain fun a b => ¬(a = cr ∧ b = lf)

instance (text : Bytes) : Decidable (CrlfFree text) :=
  inferInstanceAs (Decidable (text.IsChain _))

theorem takeLines_cons {text : Bytes} (h : CrlfFree text) (rest : Bytes) :
    takeLines (text ++ crlf ++ rest) = (text :: (takeLines rest).1, (takeLines rest).2) := by
  induction text with
  | nil =>
    show takeLines (cr :: lf :: rest) = _
    rw [takeLines, if_pos ⟨rfl, rfl⟩]
  | cons a text ih =>
    have htail : CrlfFree text := List.IsChain.tail h
    cases text with
    | nil =>
      have hcr : ¬(a = cr ∧ cr = lf) := fun hab => absurd hab.2 (by decide)
      show takeLines (a :: cr :: lf :: rest) = _
      rw [takeLines, if_neg hcr, takeLines, if_pos ⟨rfl, rfl⟩]
    | cons b text =>
      have hab : ¬(a = cr ∧ b = lf) := (List.isChain_cons_cons.mp h).1
      show takeLines (a :: b :: (text ++ crlf ++ rest)) = _
      rw [takeLines, if_neg hab]
      have := ih htail
      rw [List.cons_append, List.cons_append] at this
      rw [this]

theorem takeLines_flatMap {texts : List Bytes} (h : ∀ t ∈ texts, CrlfFree t) :
    takeLines (texts.flatMap (· ++ crlf)) = (texts, []) := by
  induction texts with
  | nil => rfl
  | cons t texts ih =>
    obtain ⟨ht, htexts⟩ := List.forall_mem_cons.mp h
    rw [List.flatMap_cons, takeLines_cons ht, ih htexts]

theorem takeLines_crlf {text : Bytes} (h : CrlfFree text) :
    takeLines (text ++ crlf) = ([text], []) := by
  simpa using takeLines_flatMap (List.forall_mem_singleton.mpr h)

/-! ### Texts without CRLF -/

theorem CrlfFree.of_isInfix {text part : Bytes} (h : CrlfFree text) (hpart : part <:+: text) :
    CrlfFree part :=
  List.IsChain.infix h hpart

theorem crlfFree_append_cons {xs ys : Bytes} {b : Byte} (hcr : b ≠ cr) (hlf : b ≠ lf)
    (hx : CrlfFree xs) (hy : CrlfFree ys) : CrlfFree (xs ++ b :: ys) := by
  refine List.IsChain.append hx (List.IsChain.cons hy ?_) ?_
  · intro y _ h
    exact hcr h.1
  · intro x _ y hy' h
    simp only [List.head?_cons, Option.mem_some_iff] at hy'
    exact hlf (hy'.trans h.2)

theorem mem_intercalate_isInfix {sep l : Bytes} {ls : List Bytes} (h : l ∈ ls) :
    l <:+: sep.intercalate ls := by
  induction ls with
  | nil => cases h
  | cons m ls ih =>
    cases ls with
    | nil =>
      obtain rfl := List.mem_singleton.mp h
      exact ⟨[], [], by simp⟩
    | cons m' ls =>
      rw [List.intercalate_cons_cons]
      rcases List.mem_cons.mp h with rfl | h
      · rw [List.append_assoc]
        exact List.infix_append_left
      · exact List.infix_append_of_infix_right (ih h)

theorem mem_names_isInfix {p name : Path} (h : name ∈ p.names) : name <:+: p := by
  have hjoin : [separator].intercalate (p.splitOn separator) = p :=
    List.intercalate_splitOn separator
  have hpart : name <:+: [separator].intercalate (p.splitOn separator) :=
    mem_intercalate_isInfix (List.mem_of_mem_filter h)
  rwa [hjoin] at hpart

theorem crlfFree_intercalate {ns : List Path} (h : ∀ n ∈ ns, CrlfFree n) :
    CrlfFree ([separator].intercalate ns) := by
  induction ns with
  | nil => exact List.isChain_nil
  | cons n ns ih =>
    obtain ⟨hn, hns⟩ := List.forall_mem_cons.mp h
    cases ns with
    | nil => rwa [List.intercalate_singleton]
    | cons m ns =>
      rw [List.intercalate_cons_cons, List.append_assoc]
      exact crlfFree_append_cons (by decide) (by decide) hn (ih hns)

theorem crlfFree_assemble {ns : List Path} (h : ∀ n ∈ ns, CrlfFree n) (root trailing : Bool) :
    CrlfFree (assemble root ns trailing) := by
  have hnames := crlfFree_intercalate h
  have hsep : ∀ xs : Bytes, CrlfFree xs → CrlfFree (xs ++ separator :: []) := fun xs hxs =>
    crlfFree_append_cons (by decide) (by decide) hxs List.isChain_nil
  have hroot : CrlfFree ((if root then [separator] else []) ++ [separator].intercalate ns) := by
    cases root with
    | false => exact hnames
    | true => exact crlfFree_append_cons (by decide) (by decide) List.isChain_nil hnames
  cases trailing with
  | false => simpa only [assemble, Bool.false_eq_true, if_false, List.append_nil] using hroot
  | true => exact hsep _ hroot

theorem crlfFree_normalize {p : Path} (h : CrlfFree p) : CrlfFree (normalize p) := by
  unfold Utility.normalize lexically_normal
  split
  · exact List.isChain_nil
  · simp only
    split
    · decide
    · apply crlfFree_assemble
      intro n hn
      rcases mem_foldl_push (List.mem_reverse.mp hn) with hn | hn
      · cases hn
      · exact h.of_isInfix (mem_names_isInfix hn)

theorem crlfFree_elements {p : Path} (h : CrlfFree p) : ∀ e ∈ p.elements, CrlfFree e := by
  intro e he
  rcases List.mem_append.mp he with he | he
  · rcases List.mem_append.mp he with he | he
    · split at he
      · rw [List.mem_singleton.mp he]
        decide
      · cases he
    · exact h.of_isInfix (mem_names_isInfix he)
  · split at he
    · rw [List.mem_singleton.mp he]
      exact List.isChain_nil
    · cases he

theorem stripWindowsDrive_isInfix (p : Path) : stripWindowsDrive p <:+: p := by
  unfold stripWindowsDrive
  split
  · have hdrop : p.drop 2 <:+: p := (List.drop_suffix 2 p).isInfix
    split
    · rename_i c rest hrest
      rw [hrest] at hdrop
      split
      · exact (List.suffix_cons c rest).isInfix.trans hdrop
      · exact hdrop
    · exact List.nil_infix
  · exact List.infix_rfl

/-! ### The commands of an operation -/

def Command.text : Command → Bytes
  | .cd dir => dir
  | .selectDrive drive => drive

theorem crlfFree_route (current : Path) {target : Path} (h : CrlfFree target) :
    ∀ c ∈ route current target, CrlfFree (Command.text c) := by
  have hdescent : ∀ c ∈ (descentParts target).map Command.cd, CrlfFree (Command.text c) := by
    intro c hc
    obtain ⟨part, hpart, rfl⟩ := List.mem_map.mp hc
    exact crlfFree_elements (h.of_isInfix (stripWindowsDrive_isInfix target)) part
      (List.mem_of_mem_filter hpart)
  have hdrive : CrlfFree (extractWindowsDrive target) := by
    unfold extractWindowsDrive
    split
    · exact h.of_isInfix (List.take_prefix 2 target).isInfix
    · exact List.isChain_nil
  have hrelative : CrlfFree target.relative_path :=
    h.of_isInfix (List.dropWhile_suffix _).isInfix
  intro c hc
  simp only [route] at hc
  split at hc
  · rcases List.mem_append.mp hc with hc | hc
    · split at hc
      · rw [List.mem_singleton.mp hc]
        exact hdrive
      · cases hc
    · exact hdescent c hc
  · split at hc
    · exact hdescent c hc
    · obtain ⟨part, hpart, rfl⟩ := List.mem_map.mp hc
      rcases List.mem_append.mp hpart with hpart | hpart
      · rw [List.eq_of_mem_replicate hpart]
        decide
      · exact crlfFree_elements hrelative part
          (List.mem_of_mem_filter (List.mem_of_mem_drop hpart))

theorem filename_isInfix (p : Path) : p.filename <:+: p := by
  have h : (p.reverse.takeWhile (· != separator)).reverse <:+: p.reverse.reverse :=
    (List.takeWhile_prefix _).isInfix.reverse
  rwa [List.reverse_reverse] at h

theorem crlfFree_parent_path {p : Path} (h : CrlfFree p) : CrlfFree p.parent_path := by
  unfold parent_path
  split
  · exact h
  · simp only
    split
    · decide
    · have hstem :
          (p.reverse.dropWhile (· != separator)).dropWhile (· == separator) <:+: p.reverse :=
        ((List.dropWhile_suffix _).trans (List.dropWhile_suffix _)).isInfix
      have := hstem.reverse
      rw [List.reverse_reverse] at this
      exact h.of_isInfix this

theorem crlfFree_argument {cmd arg : Bytes} (hcmd : CrlfFree cmd) (hblank : cmd.getLast? = some 32)
    (harg : CrlfFree arg) : CrlfFree (cmd ++ arg) := by
  refine List.IsChain.append hcmd harg ?_
  intro x hx y _ h
  rw [hblank, Option.mem_some_iff] at hx
  rw [← hx] at h
  exact absurd h.1 (by decide)

end NetworkStack.Ftp
