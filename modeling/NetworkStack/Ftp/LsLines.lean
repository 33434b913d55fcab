import NetworkStack.Ftp.Listing
import NetworkStack.Ftp.Responses
import NetworkStack.Ftp.Timestamps

/-!
# Listings in `ls -l` format (protocol/FtpFileTransfer.cpp)

What a server writes for the entries of a directory, field by field with any number of
spaces between, comes back from the loop of `list` with its names and sizes.
-/

namespace NetworkStack.Ftp

/-! ### Entries -/

/-- A word of a line: not empty, and without white space. -/
structure Token where
  bytes : Bytes
  nonempty : bytes ≠ []
  plain : ∀ b ∈ bytes, isspace b = false

/-- The last field of a line: white space only inside, and no end of a line. -/
structure EntryName where
  bytes : Bytes
  nonempty : bytes ≠ []
  oneLine : ∀ b ∈ bytes, b ≠ cr ∧ b ≠ lf
  front : ∀ b ∈ bytes.head?, isspace b = false
  back : ∀ b ∈ bytes.getLast?, isspace b = false

structure DirEntry where
  perms : Token
  link_count : Token
  owner : Token
  group : Token
  size : ℕ
  month : Fin 12
  day : ℕ
  stamp : Stamp
  name : EntryName
  size_lt : size < 2 ^ 64
  day_range : 1 ≤ day ∧ day ≤ 31

/-- The year is an `int` and there is such a date. -/
def DirEntry.Dated (clock : Clock) (entry : DirEntry) : Prop :=
  (∀ n, entry.stamp = .year n → n < 2 ^ 31) ∧
    (clock.mktime (entry.stamp.tm clock entry.month entry.day)).isSome = true

/-! ### Lines -/

/-- A word and the spaces behind it. -/
def field (word : Bytes) (gap : ℕ) : Bytes := word ++ List.replicate (gap + 1) 32

/-- `gaps` are the additional spaces between two fields. -/
def DirEntry.line (entry : DirEntry) (gaps : Fin 8 → ℕ) : Bytes :=
  field entry.perms.bytes (gaps 0) ++ field entry.link_count.bytes (gaps 1) ++
    field entry.owner.bytes (gaps 2) ++ field entry.group.bytes (gaps 3) ++
    field (Decimal.digits entry.size) (gaps 4) ++ field (monthName entry.month) (gaps 5) ++
    field (Decimal.digits entry.day) (gaps 6) ++ field entry.stamp.text (gaps 7) ++
    entry.name.bytes

/- How an entry is written: its spaces, and whether its line ends with a carriage return. -/
structure Layout where
  gaps : Fin 8 → ℕ
  carriageReturn : Bool

def render (entries : List (DirEntry × Layout)) : Bytes :=
  entries.flatMap fun (entry, layout) =>
    entry.line layout.gaps ++ if layout.carriageReturn then crlf else [lf]

/-! ### Reading a field -/

theorem isspace_of_mem_gap {n : ℕ} : ∀ b ∈ List.replicate n (32 : Byte), isspace b = true := by
  intro b hb
  rw [List.eq_of_mem_replicate hb]
  decide

theorem head_plain {word : Bytes} (rest : Bytes) (hne : word ≠ [])
    (hplain : ∀ b ∈ word, isspace b = false) :
    ∀ b ∈ (word ++ rest).head?, isspace b = false := by
  cases word with
  | nil => exact absurd rfl hne
  | cons c word =>
    intro b hb
    cases hb
    exact hplain _ (List.mem_cons_self ..)

theorem extractWord_field {word : Bytes} (hne : word ≠ []) (hplain : ∀ b ∈ word, isspace b = false)
    (m gap : ℕ) (rest : Bytes) :
    extractWord (List.replicate m 32 ++ (field word gap ++ rest))
      = some (word, List.replicate (gap + 1) 32 ++ rest) := by
  have hskip := (Search.span_front _ (isspace_of_mem_gap (n := m))
    (head_plain (List.replicate (gap + 1) 32 ++ rest) hne hplain)).2
  obtain ⟨htake, hdrop⟩ := Search.span_front (p := fun b => !isspace b)
    (List.replicate (gap + 1) 32 ++ rest)
    (fun b hb => by rw [hplain b hb]; rfl) (fun b hb => by cases hb; decide)
  rw [field, List.append_assoc, extractWord, hskip]
  simp only [htake, hdrop, if_neg hne]

theorem extractWord_token (token : Token) (m gap : ℕ) (rest : Bytes) :
    extractWord (List.replicate m 32 ++ (field token.bytes gap ++ rest))
      = some (token.bytes, List.replicate (gap + 1) 32 ++ rest) :=
  extractWord_field token.nonempty token.plain m gap rest

theorem extractSize_digits {size : ℕ} (hsize : size < 2 ^ 64) (m gap : ℕ) (rest : Bytes) :
    extractSize (List.replicate m 32 ++ (field (Decimal.digits size) gap ++ rest))
      = some (size, List.replicate (gap + 1) 32 ++ rest) := by
  have hskip := (Search.span_front _ (isspace_of_mem_gap (n := m))
    (head_plain (List.replicate (gap + 1) 32 ++ rest) (Decimal.digits_ne_nil size)
      (digits_plain size))).2
  have hread := signedDigits_digits (List.replicate (gap + 1) 32 ++ rest)
    (Decimal.digits_ne_nil size) (isdigit_digits size) (fun b hb => by cases hb; decide)
  have hvalue : decimal (Decimal.digits size) = size := Decimal.value_digits size
  rw [field, List.append_assoc, extractSize, hskip, hread, hvalue]
  simp only
  rw [if_neg (Nat.not_le.mpr hsize)]
  rfl

/-! ### A line -/

theorem trim_name (name : EntryName) (gap : ℕ) :
    trim (List.replicate gap 32 ++ name.bytes) = name.bytes := by
  have hback : (List.replicate gap 32 ++ name.bytes).reverse.dropWhile isspace
      = (List.replicate gap 32 ++ name.bytes).reverse := by
    have hlast : ∀ b ∈ (List.replicate gap 32 ++ name.bytes).reverse.head?,
        isspace b = false := by
      intro b hb
      rw [← List.getLast?_eq_head?_reverse, List.getLast?_append_of_ne_nil _ name.nonempty] at hb
      exact name.back b hb
    exact (Search.span_front _ (List.forall_mem_nil _) hlast).2
  have hfront := (Search.span_front _ (isspace_of_mem_gap (n := gap)) name.front).2
  rw [trim, hback, List.reverse_reverse, hfront]

theorem listFields_line (entry : DirEntry) (gaps : Fin 8 → ℕ) :
    listFields (entry.line gaps) = some (entry.size, monthName entry.month,
      Decimal.digits entry.day, entry.stamp.text,
      List.replicate (gaps 7 + 1) 32 ++ entry.name.bytes) := by
  obtain ⟨hmonth, hmonthPlain, -⟩ := monthName_field entry.month
  obtain ⟨hstamp, hstampPlain⟩ := stampText_field entry.stamp
  have hperms := extractWord_token entry.perms 0
  rw [List.replicate_zero] at hperms
  simp only [List.nil_append] at hperms
  have hday := extractWord_field (Decimal.digits_ne_nil entry.day) (digits_plain entry.day)
  simp only [listFields, DirEntry.line, List.append_assoc, Option.bind_eq_bind, Option.bind_some,
    hperms, extractWord_token, extractSize_digits entry.size_lt,
    extractWord_field hmonth hmonthPlain, hday, extractWord_field hstamp hstampPlain]
  rfl

/- The file an entry becomes. -/
theorem parseFtpLine_line {clock : Clock} {entry : DirEntry} (h : entry.Dated clock)
    (gaps : Fin 8 → ℕ) :
    ∃ date, parseFtpLine clock (entry.line gaps)
      = some (some ⟨date, entry.size, entry.name.bytes, []⟩) := by
  obtain ⟨hyear, hdate⟩ := h
  obtain ⟨date, hdate⟩ := Option.isSome_iff_exists.mp hdate
  rw [← parseFtpTimestamp_text clock entry.month entry.day_range hyear] at hdate
  refine ⟨date, ?_⟩
  rw [parseFtpLine, listFields_line]
  simp only [trim_name, if_neg entry.name.nonempty, hdate, Option.map_some]

/-! ### All lines -/

theorem mem_field {word : Bytes} {gap : ℕ} {b : Byte} (h : b ∈ field word gap) :
    b ∈ word ∨ b = 32 :=
  (List.mem_append.mp h).imp_right List.eq_of_mem_replicate

/- No byte of a line ends it. -/
theorem lf_not_mem_line (entry : DirEntry) (gaps : Fin 8 → ℕ) : lf ∉ entry.line gaps := by
  have hfield : ∀ {word : Bytes} {gap : ℕ}, (∀ b ∈ word, isspace b = false) →
      lf ∉ field word gap := by
    intro word gap hplain hmem
    rcases mem_field hmem with hmem | hmem
    · exact absurd (hplain lf hmem) (by decide)
    · exact absurd hmem (by decide)
  have hmonth := (monthName_field entry.month).2.1
  have hstamp := (stampText_field entry.stamp).2
  simp only [DirEntry.line, List.mem_append, not_or]
  exact ⟨⟨⟨⟨⟨⟨⟨⟨hfield entry.perms.plain, hfield entry.link_count.plain⟩,
    hfield entry.owner.plain⟩, hfield entry.group.plain⟩, hfield (digits_plain _)⟩,
    hfield hmonth⟩, hfield (digits_plain _)⟩, hfield hstamp⟩,
    fun hmem => (entry.name.oneLine lf hmem).2 rfl⟩

theorem line_back (entry : DirEntry) (gaps : Fin 8 → ℕ) :
    ∀ b ∈ (entry.line gaps).getLast?, b ≠ cr := by
  intro b hb
  rw [DirEntry.line, List.getLast?_append_of_ne_nil _ entry.name.nonempty] at hb
  exact (entry.name.oneLine b (List.mem_of_getLast? hb)).1

theorem splitLines_render (entries : List (DirEntry × Layout)) :
    splitLines (render entries) = entries.map fun (entry, layout) => entry.line layout.gaps := by
  induction entries with
  | nil => rfl
  | cons x entries ih =>
    obtain ⟨entry, layout⟩ := x
    have hne : entry.line layout.gaps ≠ [] := by
      simp [DirEntry.line, entry.name.nonempty]
    have hending : (if layout.carriageReturn then crlf else [lf]) = crlf ∨
        (if layout.carriageReturn then crlf else [lf]) = [lf] := by
      cases layout.carriageReturn with
      | true => exact .inl rfl
      | false => exact .inr rfl
    rw [render, List.flatMap_cons, splitLines_line hending (lf_not_mem_line entry layout.gaps)
      (line_back entry layout.gaps), if_neg hne, List.map_cons]
    exact congrArg (_ :: ·) ih

/-- The loop of `list` over a rendered directory: its names and sizes, in its order. -/
theorem parseListing_render (clock : Clock) (entries : List (DirEntry × Layout))
    (h : ∀ x ∈ entries, x.1.Dated clock) :
    ∃ files, parseListing clock (splitLines (render entries)) = some files ∧
      files.map (fun file => (file.file_name, file.size))
        = entries.map fun (entry, _) => (entry.name.bytes, entry.size) := by
  rw [splitLines_render]
  induction entries with
  | nil => exact ⟨[], rfl, rfl⟩
  | cons x entries ih =>
    obtain ⟨hx, hentries⟩ := List.forall_mem_cons.mp h
    obtain ⟨files, hfiles, hnames⟩ := ih hentries
    obtain ⟨date, hdate⟩ := parseFtpLine_line hx x.2.gaps
    refine ⟨⟨date, x.1.size, x.1.name.bytes, []⟩ :: files, ?_, ?_⟩
    · rw [List.map_cons, parseListing, hdate]
      simp only [hfiles]
      rfl
    · rw [List.map_cons, List.map_cons, hnames]

/- A name with a run of spaces and a time in it, of the largest size there is. -/
def oddEntry : DirEntry where
  perms := ⟨ascii "-rw-r--r--", by decide, by decide⟩
  link_count := ⟨ascii "1", by decide, by decide⟩
  owner := ⟨ascii "ftp", by decide, by decide⟩
  group := ⟨ascii "ftp", by decide, by decide⟩
  size := 18446744073709551615
  month := 1
  day := 29
  stamp := .year 2024
  name := ⟨ascii "a   12 Jan 10:30", by decide, by decide, fun b hb => by cases hb; decide,
    fun b hb => by cases hb; decide⟩
  size_lt := by decide
  day_range := by decide

def recentEntry : DirEntry :=
  { oddEntry with
    size := 0
    size_lt := by decide
    stamp := .time 9 5
    name := ⟨ascii "b", by decide, by decide, fun b hb => by cases hb; decide,
      fun b hb => by cases hb; decide⟩ }

theorem parseListing_render_odd :
    let entries : List (DirEntry × Layout) :=
      [(oddEntry, ⟨fun _ => 0, true⟩), (recentEntry, ⟨fun i => i, false⟩)]
    ∃ files, parseListing (civilClock 0 1736942400) (splitLines (render entries)) = some files ∧
      files.map (fun file => (file.file_name, file.size))
        = [(ascii "a   12 Jan 10:30", 18446744073709551615), (ascii "b", 0)] := by
  intro entries
  have hodd : oddEntry.Dated (civilClock 0 1736942400) :=
    ⟨fun n h => (by cases h; decide), by decide +kernel⟩
  have hrecent : recentEntry.Dated (civilClock 0 1736942400) :=
    ⟨fun n h => (by cases h), by decide +kernel⟩
  exact parseListing_render (civilClock 0 1736942400) entries
    (List.forall_mem_cons.mpr ⟨hodd, List.forall_mem_singleton.mpr hrecent⟩)

end NetworkStack.Ftp
