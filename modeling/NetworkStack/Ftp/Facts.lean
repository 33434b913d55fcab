import NetworkStack.Ftp.Responses

/-!
# The type fact of a `MLST` reply (protocol/FtpFileTransfer.cpp)

`isDirectoryMlst` takes the first `type=` of the whole reply for the type fact and
the text up to the next semicolon for its value. A reply also holds texts of the
server, other facts and the name of the entry.
-/

namespace NetworkStack.Ftp

open Hoare Search

/- Names of facts, and the value of the type fact, are compared without their case. -/
def lower (text : Bytes) : Bytes := text.map fun b => if 65 ≤ b ∧ b ≤ 90 then b + 32 else b

abbrev Fact := Bytes × Bytes

def Fact.text (f : Fact) : Bytes := f.1 ++ 61 :: (f.2 ++ [59])

/-- No semicolon, blank or line end in the fact, and no equals sign in its name. -/
def Fact.Clean (f : Fact) : Prop :=
  (∀ b ∈ f.1, b ∉ [61, 59, 32, cr, lf]) ∧ ∀ b ∈ f.2, b ∉ [59, 32, cr, lf]

instance (f : Fact) : Decidable f.Clean := inferInstanceAs (Decidable (_ ∧ _))

/-- A reply with the facts of one entry, exactly one of them its type. -/
structure MlstReply where
  intro : Bytes
  before : List Fact
  typeFact : Fact
  after : List Fact
  name : Bytes
  closing : Bytes
  isDir : Bool
  type_name : lower typeFact.1 = ascii "type"
  type_value : lower typeFact.2 = if isDir then ascii "dir" else ascii "file"
  other_facts : ∀ f ∈ before ++ after, f.Clean ∧ lower f.1 ≠ ascii "type"
  one_line : ∀ text ∈ [intro, name, closing], cr ∉ text ∧ lf ∉ text

namespace MlstReply

variable (r : MlstReply)

def entry : Bytes :=
  32 :: (r.before.flatMap Fact.text ++ r.typeFact.text ++ r.after.flatMap Fact.text ++ 32 :: r.name)

def reply : Reply := .multi (ascii "250") r.intro [r.entry] r.closing

/-- What stands before the type fact. -/
def front : Bytes := ascii "250" ++ 45 :: r.intro ++ crlf ++ 32 :: r.before.flatMap Fact.text

/-- What stands behind the semicolon of the type fact. -/
def back : Bytes :=
  r.after.flatMap Fact.text ++ 32 :: r.name ++ crlf ++ (ascii "250" ++ 32 :: r.closing) ++ crlf

theorem reply_bytes :
    r.reply.bytes = r.front ++ (r.typeFact.1 ++ 61 :: r.typeFact.2 ++ 59 :: r.back) := by
  simp [reply, Reply.bytes, Reply.lines, entry, front, back, Fact.text]

/- The front ends with the blank of the entry's line or the semicolon of a fact. -/
theorem front_last : ∃ init last, r.front = init ++ [last] ∧ (last = 32 ∨ last = 59) := by
  rcases List.eq_nil_or_concat r.before with hnone | ⟨facts, f, hfacts⟩
  · exact ⟨_, 32, by rw [front, hnone]; rfl, .inl rfl⟩
  · have hlast : r.front = ascii "250" ++ 45 :: r.intro ++ crlf
        ++ 32 :: (facts.flatMap Fact.text ++ (f.1 ++ 61 :: f.2)) ++ [59] := by
      simp [front, hfacts, Fact.text]
    exact ⟨_, 59, hlast, .inr rfl⟩

theorem not_mem_of_lower {text low : Bytes} (h : lower text = low) {b : Byte}
    (hb : ¬(65 ≤ b ∧ b ≤ 90)) (hlow : b ∉ low) : b ∉ text :=
  fun hmem => hlow (h ▸ List.mem_map.mpr ⟨b, hmem, if_neg hb⟩)

theorem not_mem_name {b : Byte} (hb : ¬(65 ≤ b ∧ b ≤ 90)) (htype : b ∉ ascii "type") :
    b ∉ r.typeFact.1 :=
  not_mem_of_lower r.type_name hb htype

theorem not_mem_value {b : Byte} (hb : ¬(65 ≤ b ∧ b ≤ 90)) (hdir : b ∉ ascii "dir")
    (hfile : b ∉ ascii "file") : b ∉ r.typeFact.2 := by
  refine not_mem_of_lower r.type_value hb ?_
  split
  · exact hdir
  · exact hfile

theorem length_name : r.typeFact.1.length = (ascii "type").length := by
  rw [← r.type_name, lower, List.length_map]

theorem dir_prefix_value : ascii "dir" <+: r.typeFact.2 ↔ r.typeFact.2 = ascii "dir" := by
  refine ⟨fun ⟨tail, htail⟩ => ?_, fun heq => heq ▸ List.prefix_refl _⟩
  have hvalue := r.type_value
  rw [← htail, lower, List.map_append] at hvalue
  cases hdir : r.isDir with
  | false =>
    rw [hdir] at hvalue
    exact absurd (List.cons.inj hvalue).1 (by decide)
  | true =>
    have hlen := congrArg List.length hvalue
    rw [hdir, List.length_append, List.length_map, List.length_map] at hlen
    have hnone : tail.length = 0 := Nat.add_left_cancel hlen
    rw [← htail, List.eq_nil_of_length_eq_zero hnone, List.append_nil]

/- The type fact is found when its name is written in lower case. -/
theorem search_typeFact : search (ascii "type=") (r.typeFact.1 ++ 61 :: r.typeFact.2 ++ [59])
    = if r.typeFact.1 = ascii "type" then some 0 else none := by
  have hname : (61 : Byte) ∉ r.typeFact.1 := r.not_mem_name (by decide) (by decide)
  have hvalue : (61 : Byte) ∉ r.typeFact.2 ++ [59] := by
    rw [List.mem_append, not_or]
    exact ⟨r.not_mem_value (by decide) (by decide) (by decide), by decide⟩
  have hpat : ascii "type=" = ascii "type" ++ 61 :: [] := by decide
  rw [hpat, List.append_assoc, List.cons_append, search_mark r.length_name hname hvalue]
  exact if_congr (and_iff_left List.nil_prefix) rfl rfl

theorem search_typeDir : search (ascii "type=dir") (r.typeFact.1 ++ 61 :: r.typeFact.2)
    = if r.typeFact = (ascii "type", ascii "dir") then some 0 else none := by
  have hname : (61 : Byte) ∉ r.typeFact.1 := r.not_mem_name (by decide) (by decide)
  have hvalue : (61 : Byte) ∉ r.typeFact.2 := r.not_mem_value (by decide) (by decide) (by decide)
  have hpat : ascii "type=dir" = ascii "type" ++ 61 :: ascii "dir" := by decide
  rw [hpat, search_mark r.length_name hname hvalue]
  exact if_congr (by rw [dir_prefix_value, Prod.ext_iff]) rfl rfl

/-! ### What the code makes of it -/

/-- Whether the text up to the next semicolon holds `type=dir`. -/
def saysDir (text : Bytes) : Bool :=
  (search (ascii "type=dir") (text.takeWhile (· != 59))).isSome

/-- Where the first `type=` stands before the type fact, or behind one whose name is not
written in lower case, what it says happens to be right; a directory's own type fact is
written in lower case. -/
def told : Bool :=
  match search (ascii "type=") r.front with
  | some i =>
    let found := r.front.drop i
    (saysDir found || (59 ∉ found ∧ r.typeFact = (ascii "type", ascii "dir"))) == r.isDir
  | none =>
    if r.typeFact.1 = ascii "type" then !r.isDir || r.typeFact.2 = ascii "dir"
    else
      match search (ascii "type=") r.back with
      | some i => saysDir (r.back.drop i) == r.isDir
      | none => false

theorem not_mem_typeFact : (59 : Byte) ∉ r.typeFact.1 ++ 61 :: r.typeFact.2 := by
  rw [List.mem_append, List.mem_cons, not_or, not_or]
  exact ⟨r.not_mem_name (by decide) (by decide), by decide,
    r.not_mem_value (by decide) (by decide) (by decide)⟩

/- A `type=` in front of the type fact: its text may reach up to the end of the fact. -/
theorem saysDir_front {i : ℕ} (hi : i < r.front.length) :
    saysDir (r.front.drop i ++ (r.typeFact.1 ++ 61 :: r.typeFact.2 ++ 59 :: r.back))
      = (saysDir (r.front.drop i) ||
        (59 ∉ r.front.drop i ∧ r.typeFact = (ascii "type", ascii "dir"))) := by
  unfold saysDir
  by_cases hmark : 59 ∈ r.front.drop i
  · obtain ⟨before, behind, hsplit, hno⟩ := List.eq_append_cons_of_mem hmark
    rw [hsplit, List.append_assoc, List.cons_append, takeWhile_mark hno, takeWhile_mark hno]
    simp
  · have hfront := (span_no_mark hmark).1
    have hfield : 59 ∉ r.front.drop i ++ (r.typeFact.1 ++ 61 :: r.typeFact.2) := by
      rw [List.mem_append, not_or]
      exact ⟨hmark, r.not_mem_typeFact⟩
    -- the text in front ends with the blank of the entry's line
    obtain ⟨init, last, hends, hlast⟩ := r.front_last
    have hi' : i ≤ init.length := by
      rw [hends, List.length_append] at hi
      exact Nat.le_of_lt_succ hi
    have hend : r.front.drop i = init.drop i ++ [32] := by
      rw [hends, List.drop_append_of_le_length hi'] at hmark ⊢
      rcases hlast with rfl | rfl
      · rfl
      · exact absurd (List.mem_append_right _ (List.mem_singleton_self _)) hmark
    rw [hfront, ← List.append_assoc, takeWhile_mark hfield, hend,
      List.append_assoc, List.singleton_append, search_past_isSome (by decide), r.search_typeDir]
    rw [hend] at hmark
    by_cases hdir : r.typeFact = (ascii "type", ascii "dir")
    · simp [hdir, hmark]
    · simp [hdir]

theorem saysDir_typeFact (rest : Bytes) :
    saysDir (r.typeFact.1 ++ 61 :: r.typeFact.2 ++ 59 :: rest)
      = decide (r.typeFact = (ascii "type", ascii "dir")) := by
  rw [saysDir, takeWhile_mark r.not_mem_typeFact, r.search_typeDir]
  split <;> simp_all

theorem typeIsDir_eq (text : Bytes) :
    typeIsDir text = (search (ascii "type=") text).map fun i => saysDir (text.drop i) := by
  rw [typeIsDir]
  cases search (ascii "type=") text with
  | none => rfl
  | some i => rfl

/- A front without `type=` is passed over. -/
theorem typeIsDir_past {a : Byte} {xs : Bytes} (ha : a ∉ ascii "type=")
    (h : search (ascii "type=") (xs ++ [a]) = none) (ys : Bytes) :
    typeIsDir (xs ++ a :: ys) = typeIsDir ys := by
  rw [typeIsDir_eq, typeIsDir_eq, search_past ha h, Option.map_map]
  simp only [Function.comp_def, drop_past]

theorem typeIsDir_typeFact (hname : r.typeFact.1 = ascii "type") (rest : Bytes) :
    typeIsDir (r.typeFact.1 ++ 61 :: r.typeFact.2 ++ 59 :: rest) = some r.isDir ↔
      (!r.isDir || r.typeFact.2 = ascii "dir") = true := by
  have hfind := search_append (r.search_typeFact.trans (if_pos hname)) rest
  rw [List.append_assoc, List.singleton_append] at hfind
  have hpair : r.typeFact = (ascii "type", ascii "dir") ↔ r.typeFact.2 = ascii "dir" := by
    rw [Prod.ext_iff, and_iff_right hname]
  rw [typeIsDir_eq, hfind, Option.map_some, List.drop_zero, saysDir_typeFact]
  simp only [hpair]
  cases hdir : r.isDir with
  | true => simp
  | false =>
    -- the value of a file is no `dir`
    have hno : r.typeFact.2 ≠ ascii "dir" := by
      intro heq
      have hvalue := r.type_value
      rw [hdir, heq] at hvalue
      exact absurd hvalue (by decide)
    simp [hno]

/- The value the code takes out of the reply. -/
theorem typeIsDir_told : typeIsDir r.reply.bytes = some r.isDir ↔ r.told = true := by
  rw [told, reply_bytes]
  cases hfront : search (ascii "type=") r.front with
  | some i =>
    have hi := search_lt hfront
    rw [typeIsDir_eq, search_append hfront, Option.map_some,
      List.drop_append_of_le_length (Nat.le_of_lt hi), r.saysDir_front hi]
    simp
  | none =>
    obtain ⟨init, last, hinit, hlast⟩ := r.front_last
    have hlast' : last ∉ ascii "type=" := by
      rcases hlast with rfl | rfl <;> decide
    rw [hinit, List.append_assoc, List.singleton_append, typeIsDir_past hlast' (hinit ▸ hfront)]
    by_cases hname : r.typeFact.1 = ascii "type"
    · rw [r.typeIsDir_typeFact hname]
      simp only [if_pos hname]
    · rw [typeIsDir_past (by decide) (r.search_typeFact.trans (if_neg hname)), typeIsDir_eq]
      simp only [if_neg hname]
      cases search (ascii "type=") r.back with
      | none => simp
      | some j => simp

end MlstReply

namespace FtpFileTransfer

variable {σ : Type} (W : Channel σ) (r : MlstReply) (s : FtpFileTransfer σ) (u : σ)
  (hcapable : s.capabilities.mlst = true)
  (hreply : W.sendAndReceiveResponse (ascii "MLST " ++ r.name) s.session = (.ok r.reply.answer, u))
include hcapable hreply

theorem isDirectoryMlst_reply : isDirectoryMlst W r.name s =
    match typeIsDir r.reply.bytes with
    | none => (.error protocolError, s.withSession u)
    | some isDir => (.ok isDir, s.withSession u) := by
  have hcaps : getCapabilities s = (.ok s.capabilities, s) := rfl
  have hrun : control (W.sendAndReceiveResponse (ascii "MLST " ++ r.name)) s
      = (.ok r.reply.answer, s.withSession u) := by
    simp only [control, zoom, hreply]
  have hcode : r.reply.answer.code = 250 := by
    show decimal (ascii "250") = 250
    decide
  have hcall : isDirectoryMlst W r.name s = _ := bind_ok hcaps
  rw [hcapable, if_neg (by decide)] at hcall
  rw [hcall, bind_ok hrun, if_pos hcode]
  show (match typeIsDir r.reply.bytes with
    | none => stop protocolError
    | some isDir => pure isDir : Operation σ Bool) (s.withSession u) = _
  cases typeIsDir r.reply.bytes with
  | none => rfl
  | some isDir => rfl

/-- The answer is the entry's kind exactly when the first `type=` of the reply gives it. -/
theorem isDirectoryMlst_told_iff :
    isDirectoryMlst W r.name s = (.ok r.isDir, s.withSession u) ↔ r.told = true := by
  rw [isDirectoryMlst_reply W r s u hcapable hreply, ← r.typeIsDir_told]
  cases typeIsDir r.reply.bytes with
  | none => simp
  | some isDir => simp

end FtpFileTransfer

/-! ### A directory and its name -/

/-- A server that gives the one reply to every command. -/
def repeating (r : MlstReply) : Channel Unit where
  writeAll _ u := (.ok (), u)
  receiveResponse u := (.ok r.reply.answer, u)
  connectData _ u := (.error .blocked, u)
  waitOnData := id

def askingMlst : FtpFileTransfer Unit :=
  { FtpFileTransfer.construct () with
    capabilities := { FtpCapabilities.default with mlst := true } }

/-- The first line of the reply quotes the name of the directory. -/
def directoryReply (name : Bytes) (h : cr ∉ name ∧ lf ∉ name) : MlstReply where
  intro := ascii "Listing " ++ name
  before := [(ascii "size", ascii "4096")]
  typeFact := (ascii "type", ascii "dir")
  after := [(ascii "modify", ascii "20240131120000")]
  name := name
  closing := ascii "End"
  isDir := true
  type_name := by decide
  type_value := by decide
  other_facts := by decide
  one_line := by
    have hintro : cr ∉ ascii "Listing " ++ name ∧ lf ∉ ascii "Listing " ++ name := by
      rw [List.mem_append, List.mem_append, not_or, not_or]
      exact ⟨⟨by decide, h.1⟩, by decide, h.2⟩
    intro text htext
    simp only [List.mem_cons, List.not_mem_nil, or_false] at htext
    rcases htext with rfl | rfl | rfl
    · exact hintro
    · exact h
    · decide

theorem isDirectoryMlst_told_pub :
    let r := directoryReply (ascii "pub") (by decide)
    FtpFileTransfer.isDirectoryMlst (repeating r) (ascii "pub") askingMlst
      = (.ok true, askingMlst) := by
  intro r
  have htold : r.told = true := by decide +kernel
  exact (FtpFileTransfer.isDirectoryMlst_told_iff (repeating r) r askingMlst () rfl rfl).mpr htold

/- The directory's name begins like the type fact of a file. -/
theorem isDirectoryMlst_quoted :
    let r := directoryReply (ascii "type=file;x") (by decide)
    r.isDir = true ∧ FtpFileTransfer.isDirectoryMlst (repeating r) (ascii "type=file;x") askingMlst
      = (.ok false, askingMlst) := by
  intro r
  have htype : typeIsDir r.reply.bytes = some false := by decide +kernel
  refine ⟨rfl, ?_⟩
  have hcall := FtpFileTransfer.isDirectoryMlst_reply (repeating r) r askingMlst () rfl rfl
  rwa [htype] at hcall

end NetworkStack.Ftp
