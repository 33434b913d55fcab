import NetworkStack.Ftp.LsLines

/-!
# What `list` makes of a listing (protocol/FtpFileTransfer.cpp)

A line of `ls -l` begins with the mode of a file and has a date of the calendar in it. The
loop of `list` looks at neither the mode nor the link count, reads a number up to the last of
its digits and lets `mktime` carry over what is no date. Where it cannot read a date it throws.
-/

namespace NetworkStack.Ftp

open Hoare SocketDetail Utility

/-! ### Lines of `ls -l` -/

/-- Read, write and execute for the owner, the group and the others. -/
def modeLetters : List Bytes :=
  ["-r", "-w", "-xsS", "-r", "-w", "-xsS", "-r", "-w", "-xtT"].map ascii

/-- The type of a file, its permissions, and at most one mark behind them. -/
def isMode : Bytes → Bool
  | [] => false
  | type :: rest =>
    (ascii "-bcCdDlMnpPs?").contains type && (rest.length = 9 || rest.length = 10) &&
      (rest.zip modeLetters).all fun (b, letters) => letters.contains b

/-- There is such a day and such a time. Where no year is given, 29 February is a day. -/
def DirEntry.Real (entry : DirEntry) : Prop :=
  match entry.stamp with
  | .time hour minute => hour.val < 24 ∧ minute.val < 60 ∧
      (entry.day : Int) ≤ Calendar.monthLength true entry.month
  | .year n => 1 ≤ n ∧ (entry.day : Int) ≤ Calendar.monthLength (Calendar.isLeap n) entry.month

/- How the line of an entry is written: with or without a leading zero for the day, with any
number of spaces between the fields (`gaps` has the additional ones) and behind the name. -/
structure LsLine where
  entry : DirEntry
  mode : isMode entry.perms.bytes = true
  links : ∀ b ∈ entry.link_count.bytes, isdigit b = true
  real : entry.Real
  leadingZero : Bool
  gaps : ℕ → ℕ
  trailing : ℕ

namespace LsLine

def dayText (l : LsLine) : Bytes :=
  if l.leadingZero then Decimal.padded 2 l.entry.day else Decimal.digits l.entry.day

def text (l : LsLine) : Bytes :=
  field l.entry.perms.bytes (l.gaps 0) ++ field l.entry.link_count.bytes (l.gaps 1) ++
    field l.entry.owner.bytes (l.gaps 2) ++ field l.entry.group.bytes (l.gaps 3) ++
    field (Decimal.digits l.entry.size) (l.gaps 4) ++ field (monthName l.entry.month) (l.gaps 5) ++
    field l.dayText (l.gaps 6) ++ field l.entry.stamp.text (l.gaps 7) ++
    (l.entry.name.bytes ++ List.replicate l.trailing 32)

end LsLine

def IsLsLine (line : Bytes) : Prop := ∃ l : LsLine, l.text = line

/-- One file for each line of `ls -l`, with its name and its size, and none for any other. -/
inductive Lists : List Bytes → List FileListData → Prop where
  | nil : Lists [] []
  | entry (l : LsLine) {file : FileListData} {lines : List Bytes} {files : List FileListData}
      (hname : file.file_name = l.entry.name.bytes) (hsize : file.size = l.entry.size)
      (hrest : Lists lines files) : Lists (l.text :: lines) (file :: files)
  | other {line : Bytes} {lines : List Bytes} {files : List FileListData}
      (hline : ¬ IsLsLine line) (hrest : Lists lines files) : Lists (line :: lines) files

/-! ### Reading them -/

theorem trim_trailing (s : Bytes) (n : ℕ) : trim (s ++ List.replicate n 32) = trim s := by
  have hskip : (List.replicate n (32 : Byte)).dropWhile isspace = [] :=
    List.dropWhile_eq_nil_iff.mpr isspace_of_mem_gap
  rw [trim, trim, List.reverse_append, List.reverse_replicate, List.dropWhile_append, hskip]
  rfl

namespace LsLine

variable {clock : Clock} (l : LsLine)

theorem dayText_field : l.dayText ≠ [] ∧ ∀ b ∈ l.dayText, isspace b = false := by
  unfold dayText
  split
  · exact ⟨Decimal.padded_ne_nil _ _, fun b hb => isspace_of_isdigit (isdigit_padded _ _ b hb)⟩
  · exact ⟨Decimal.digits_ne_nil _, digits_plain _⟩

theorem extractWord_text : ∃ rest, extractWord l.text = some (l.entry.perms.bytes, rest) := by
  have hperms := extractWord_token l.entry.perms 0 (l.gaps 0)
  rw [List.replicate_zero] at hperms
  simp only [text, List.append_assoc]
  exact ⟨_, hperms _⟩

theorem listFields_text : listFields l.text = some (l.entry.size, monthName l.entry.month,
    l.dayText, l.entry.stamp.text, List.replicate (l.gaps 7 + 1) 32 ++
      (l.entry.name.bytes ++ List.replicate l.trailing 32)) := by
  obtain ⟨hmonth, hmonthPlain, -⟩ := monthName_field l.entry.month
  obtain ⟨hstamp, hstampPlain⟩ := stampText_field l.entry.stamp
  obtain ⟨hday, hdayPlain⟩ := l.dayText_field
  have hperms := extractWord_token l.entry.perms 0
  rw [List.replicate_zero] at hperms
  simp only [List.nil_append] at hperms
  simp only [listFields, text, List.append_assoc, Option.bind_eq_bind, Option.bind_some,
    hperms, extractWord_token, extractSize_digits l.entry.size_lt,
    extractWord_field hmonth hmonthPlain, extractWord_field hday hdayPlain,
    extractWord_field hstamp hstampPlain]
  rfl

theorem trim_text : trim (List.replicate (l.gaps 7 + 1) 32 ++
    (l.entry.name.bytes ++ List.replicate l.trailing 32)) = l.entry.name.bytes := by
  rw [← List.append_assoc, trim_trailing, trim_name]

/- Unless its date is refused, the line becomes its entry. -/
theorem lsEntry_text (h : Undated clock l.text = false) :
    ∃ date, lsEntry clock l.text = some ⟨date, l.entry.size, l.entry.name.bytes, []⟩ := by
  simp only [Undated, l.listFields_text, l.trim_text, l.entry.name.nonempty, ne_eq,
    not_false_eq_true, decide_true, Bool.true_and] at h
  obtain ⟨date, hdate⟩ := Option.isSome_iff_exists.mp (Option.isNone_eq_false_iff.mp h)
  refine ⟨date, ?_⟩
  simp only [lsEntry, l.listFields_text, l.trim_text, if_neg l.entry.name.nonempty, hdate,
    Option.bind_eq_bind, Option.bind_some]
  rfl

end LsLine

/-! ### The loop of `list` -/

/-- Eight words, of which the fifth is a number, and something behind them. -/
def HasFields (line : Bytes) : Bool :=
  match listFields line with
  | none => false
  | some (_, _, _, _, iss) => trim iss ≠ []

section Loop

variable {clock : Clock} {lines : List Bytes} {files : List FileListData}

/- Where the date is not refused, these are the lines the loop takes. -/
theorem lsEntry_isSome {line : Bytes} (h : Undated clock line = false) :
    (lsEntry clock line).isSome = HasFields line := by
  unfold Undated at h
  unfold lsEntry HasFields
  cases hfields : listFields line with
  | none => rfl
  | some fields =>
    obtain ⟨size, month, day, time_or_year, iss⟩ := fields
    simp only [hfields, Bool.and_eq_false_iff] at h
    by_cases hname : trim iss = []
    · simp [hname]
    · obtain ⟨date, hdate⟩ := Option.isSome_iff_exists.mp
        (Option.isNone_eq_false_iff.mp (h.resolve_left (by simp [hname])))
      simp [hname, hdate]

theorem exists_lists (lines : List Bytes) : ∃ files, Lists lines files := by
  induction lines with
  | nil => exact ⟨[], .nil⟩
  | cons line lines ih =>
    obtain ⟨files, hfiles⟩ := ih
    by_cases hline : IsLsLine line
    · obtain ⟨l, rfl⟩ := hline
      exact ⟨⟨0, l.entry.size, l.entry.name.bytes, []⟩ :: files, .entry l rfl rfl hfiles⟩
    · exact ⟨files, .other hline hfiles⟩

theorem lists_filterMap (hdated : ∀ line ∈ lines, Undated clock line = false)
    (hls : ∀ line ∈ lines, HasFields line = true → IsLsLine line) :
    Lists lines (lines.filterMap (lsEntry clock)) := by
  induction lines with
  | nil => exact .nil
  | cons line lines ih =>
    obtain ⟨hline, hlines⟩ := List.forall_mem_cons.mp hdated
    obtain ⟨hfirst, hrest⟩ := List.forall_mem_cons.mp hls
    have hlists := ih hlines hrest
    by_cases hvalid : IsLsLine line
    · obtain ⟨l, rfl⟩ := hvalid
      obtain ⟨date, hentry⟩ := l.lsEntry_text hline
      rw [List.filterMap_cons_some hentry]
      exact .entry l rfl rfl hlists
    · have hnone : lsEntry clock line = none := by
        rw [← Option.not_isSome_iff_eq_none, lsEntry_isSome hline]
        exact fun hfields => hvalid (hfirst hfields)
      rw [List.filterMap_cons_none hnone]
      exact .other hvalid hlists

/- The loop makes no fewer entries than there are lines of `ls -l`, and as many only if it
takes no other line. -/
theorem Lists.taken (h : Lists lines files)
    (hdated : ∀ line ∈ lines, Undated clock line = false) :
    files.length ≤ (lines.filterMap (lsEntry clock)).length ∧
      (files.length = (lines.filterMap (lsEntry clock)).length →
        ∀ line ∈ lines, HasFields line = true → IsLsLine line) := by
  induction h with
  | nil => exact ⟨Nat.le_refl 0, fun _ => List.forall_mem_nil _⟩
  | entry l _ _ _ ih =>
    obtain ⟨hline, hlines⟩ := List.forall_mem_cons.mp hdated
    obtain ⟨hle, hall⟩ := ih hlines
    obtain ⟨date, hentry⟩ := l.lsEntry_text hline
    rw [List.filterMap_cons_some hentry, List.length_cons, List.length_cons]
    refine ⟨Nat.succ_le_succ hle, fun heq => List.forall_mem_cons.mpr ⟨fun _ => ⟨l, rfl⟩, ?_⟩⟩
    exact hall (Nat.succ.inj heq)
  | @other line lines files _ _ ih =>
    obtain ⟨hline, hlines⟩ := List.forall_mem_cons.mp hdated
    obtain ⟨hle, hall⟩ := ih hlines
    have hfields := lsEntry_isSome hline
    cases hentry : lsEntry clock line with
    | none =>
      rw [hentry] at hfields
      rw [List.filterMap_cons_none hentry]
      refine ⟨hle, fun heq => List.forall_mem_cons.mpr ⟨fun h => ?_, hall heq⟩⟩
      rw [← hfields] at h
      cases h
    | some file =>
      rw [List.filterMap_cons_some hentry, List.length_cons]
      exact ⟨Nat.le_succ_of_le hle, fun heq => absurd heq (by omega)⟩

end Loop

/-! ### The listing of a directory -/

namespace FtpFileTransfer

variable {σ : Type}

/-- No exception; one entry for each line of `ls -l` and none for any other, in their order,
once the completion reply has been read behind the data phase, which ends in `t`. -/
def ListsAll (W : Channel σ) (clock : Clock) (path : Path) (s t : FtpFileTransfer σ)
    (content : Bytes) : Prop :=
  (list W clock path s).1 ≠ .error .threw ∧
    ∃ files, Lists (splitLines content) files ∧ list W clock path s = (do
      let _ ← control W.receiveResponse
      pure files : Operation σ _) t

/- What `list` returns is the files of its loop, when the completion reply comes. -/
theorem completed_eq {W : Channel σ} {t : FtpFileTransfer σ} {r : Except Exit Answer} {u : σ}
    (hreply : W.receiveResponse t.session = (r, u)) (files : List FileListData) :
    (do let _ ← control W.receiveResponse; pure files : Operation σ _) t
      = (r.map fun _ => files, t.withSession u) :=
  bind_pure_eq (by simp only [control, zoom, hreply])

/-- Whatever came over the data channel. A line whose fields are there but no date makes
`list` throw; one that is no line of `ls -l` is an entry too many, which matters only when
the completion reply comes. -/
theorem list_all_iff (W : Channel σ) (clock : Clock) (path : Path) (s t : FtpFileTransfer σ)
    (data left : Socket) (content : Bytes)
    (hopen : openTransfer W path (ascii "LIST") s = (.ok data, t))
    (hdata : receiveRawResponse data = some (.ok content, left)) :
    ListsAll W clock path s (t.leave W left) content ↔
      (∀ line ∈ splitLines content, Undated clock line = false) ∧
        (W.receiveResponse (t.leave W left).session).1 ≠ .error .threw ∧
        ((W.receiveResponse (t.leave W left).session).1.toOption.isSome = true →
          ∀ line ∈ splitLines content, HasFields line = true → IsLsLine line) := by
  have hlist : list W clock path s = _ := list_received hopen hdata
  by_cases hdated : ∀ line ∈ splitLines content, Undated clock line = false
  · have hany : ¬ (splitLines content).any (Undated clock) = true := by
      simpa using hdated
    rw [if_neg hany] at hlist
    cases hreply : W.receiveResponse (t.leave W left).session with
    | mk r u =>
      simp only [ListsAll, hlist, completed_eq hreply]
      cases r with
      | ok a =>
        constructor
        · rintro ⟨-, files, hfiles, heq⟩
          obtain rfl : _ = files := Except.ok.inj (Prod.mk.inj heq).1
          exact ⟨hdated, nofun, fun _ => (hfiles.taken hdated).2 rfl⟩
        · rintro ⟨-, -, hls⟩
          exact ⟨nofun, _, lists_filterMap hdated (hls rfl), rfl⟩
      | error e =>
        simp only [Except.map, ne_eq, Except.error.injEq]
        constructor
        · rintro ⟨hthrew, -⟩
          exact ⟨hdated, hthrew, nofun⟩
        · rintro ⟨-, hthrew, -⟩
          obtain ⟨files, hfiles⟩ := exists_lists (splitLines content)
          exact ⟨hthrew, files, hfiles, trivial⟩
  · have hany : (splitLines content).any (Undated clock) = true := by
      simpa using hdated
    rw [if_pos hany] at hlist
    exact iff_of_false (fun h => h.1 (congrArg Prod.fst hlist)) fun h => hdated h.1

/-! ### Three listings -/

section Examples

/-- A server whose listings are `content`. -/
def listing (content : Bytes) : Server :=
  { Request.oneFile 150 with
    data := fun _ _ => .ok (Socket.fresh [.data content, .fail ⟨.asio .eof, false⟩]) }

def plainEntry : DirEntry :=
  { oddEntry with
    size := 5
    day := 3
    name := ⟨ascii "a b", by decide, by decide, fun b hb => by cases hb; decide,
      fun b hb => by cases hb; decide⟩
    size_lt := by decide
    day_range := by decide }

def plainLine : LsLine where
  entry := plainEntry
  mode := by decide
  links := by decide
  real := ⟨by decide, by decide⟩
  leadingZero := true
  gaps _ := 0
  trailing := 1

def plainListing : Bytes := ascii "total 4" ++ crlf ++ plainLine.text ++ crlf

/-- A device has two numbers where a file has its size. -/
def deviceListing : Bytes := ascii "crw-rw-rw- 1 root root 1, 3 Jan 31 12:00 null" ++ crlf

/-- A negative size, and letters behind the day and the minute. -/
def looseListing : Bytes := ascii "a b c d -1 Jan 31x 12:00zzz name" ++ crlf

/- The content comes over the data channel, and behind it the completion reply. -/
def Arrives (content : Bytes) (data left : Socket) (t : FtpFileTransfer Conversation) : Prop :=
  openTransfer (listing content).channel (ascii "/") (ascii "LIST") Request.connected
      = (.ok data, t) ∧
    receiveRawResponse data = some (.ok content, left) ∧
    ((listing content).channel.receiveResponse
      (t.leave (listing content).channel left).session).1.toOption.isSome = true

def arrives (content : Bytes) : Bool :=
  match openTransfer (listing content).channel (ascii "/") (ascii "LIST") Request.connected with
  | (.error _, _) => false
  | (.ok data, t) =>
    match receiveRawResponse data with
    | some (.ok bytes, left) => bytes = content &&
      ((listing content).channel.receiveResponse
        (t.leave (listing content).channel left).session).1.toOption.isSome
    | _ => false

theorem arrives_opened (content : Bytes) (h : arrives content = true) :
    ∃ data left t, Arrives content data left t := by
  unfold arrives at h
  split at h
  · cases h
  · rename_i data t hopen
    split at h
    · rename_i bytes left hdata
      simp only [Bool.and_eq_true, decide_eq_true_eq] at h
      exact ⟨data, left, t, hopen, h.1 ▸ hdata, h.2⟩
    · cases h

theorem Arrives.replies {content : Bytes} {data left : Socket}
    {t : FtpFileTransfer Conversation} (h : Arrives content data left t) :
    ((listing content).channel.receiveResponse
      (t.leave (listing content).channel left).session).1 ≠ .error .threw := by
  intro hthrew
  have hreply := h.2.2
  rw [hthrew] at hreply
  cases hreply

theorem list_all_plain :
    ∃ data left t, Arrives plainListing data left t ∧
      ListsAll (listing plainListing).channel Request.stopped (ascii "/") Request.connected
        (t.leave (listing plainListing).channel left) plainListing := by
  obtain ⟨data, left, t, h⟩ := arrives_opened plainListing (by decide +kernel)
  have hlines : splitLines plainListing = [ascii "total 4", plainLine.text] := by decide +kernel
  have hdated : ∀ line ∈ splitLines plainListing, Undated Request.stopped line = false := by
    decide +kernel
  refine ⟨data, left, t, h,
    (list_all_iff _ _ _ _ t data left _ h.1 h.2.1).mpr ⟨hdated, h.replies, fun _ => ?_⟩⟩
  rw [hlines]
  refine List.forall_mem_cons.mpr ⟨fun hfields => ?_, List.forall_mem_singleton.mpr fun _ => ?_⟩
  · exact absurd hfields (by decide +kernel)
  · exact ⟨plainLine, rfl⟩

/- No entry of a directory has the mode `a`. -/
theorem loose_not_lsLine {line : Bytes} (h : line ∈ splitLines looseListing) :
    ¬ IsLsLine line := by
  have hlines : splitLines looseListing = [ascii "a b c d -1 Jan 31x 12:00zzz name"] := by
    decide +kernel
  rw [hlines, List.mem_singleton] at h
  rintro ⟨l, hl⟩
  obtain ⟨rest, hword⟩ := l.extractWord_text
  have hfirst : extractWord (ascii "a b c d -1 Jan 31x 12:00zzz name")
    = some (ascii "a", ascii " b c d -1 Jan 31x 12:00zzz name") := by decide +kernel
  rw [hl, h, hfirst] at hword
  have hmode : isMode l.entry.perms.bytes = true := l.mode
  rw [← (Prod.mk.inj (Option.some.inj hword)).1] at hmode
  exact absurd hmode (by decide)

theorem lists_loose {files : List FileListData}
    (h : Lists (splitLines looseListing) files) : files = [] := by
  have hother : ∀ line ∈ splitLines looseListing, ¬ IsLsLine line := fun _ => loose_not_lsLine
  generalize splitLines looseListing = lines at h hother
  induction h with
  | nil => rfl
  | entry l _ _ _ _ => exact absurd ⟨l, rfl⟩ (hother _ List.mem_cons_self)
  | other _ _ ih => exact ih fun line hline => hother line (List.mem_cons_of_mem _ hline)

/- At the device `list` throws and leaves the completion reply unread; the other line is
taken for a file of 2^64 - 1 bytes. -/
theorem list_device_loose :
    (∃ data left t, Arrives deviceListing data left t ∧
      (list (listing deviceListing).channel Request.stopped (ascii "/") Request.connected).1
        = .error .threw ∧
      (list (listing deviceListing).channel Request.stopped (ascii "/")
        Request.connected).2.session.outstanding.length = 1 ∧
      ¬ ListsAll (listing deviceListing).channel Request.stopped (ascii "/") Request.connected
        (t.leave (listing deviceListing).channel left) deviceListing) ∧
    ∃ data left t, Arrives looseListing data left t ∧
      ((list (listing looseListing).channel Request.stopped (ascii "/") Request.connected).1.map
        fun files => files.map fun file => (file.file_name, file.size))
          = .ok [(ascii "name", 2 ^ 64 - 1)] ∧
      ¬ ListsAll (listing looseListing).channel Request.stopped (ascii "/") Request.connected
        (t.leave (listing looseListing).channel left) looseListing := by
  have hthrows : (list (listing deviceListing).channel Request.stopped (ascii "/")
      Request.connected).1 = .error .threw := by decide +kernel
  have htaken : ((list (listing looseListing).channel Request.stopped (ascii "/")
      Request.connected).1.map fun files => files.map fun file => (file.file_name, file.size))
        = .ok [(ascii "name", 2 ^ 64 - 1)] := by decide +kernel
  obtain ⟨data, left, t, h⟩ := arrives_opened deviceListing (by decide +kernel)
  obtain ⟨data', left', t', h'⟩ := arrives_opened looseListing (by decide +kernel)
  refine ⟨⟨data, left, t, h, hthrows, by decide +kernel, fun hall => hall.1 hthrows⟩,
    data', left', t', h', htaken, ?_⟩
  rintro ⟨-, files, hfiles, heq⟩
  rw [lists_loose hfiles] at heq
  cases hreply : (listing looseListing).channel.receiveResponse
      (t'.leave (listing looseListing).channel left').session with
  | mk r u =>
    rw [heq, completed_eq hreply] at htaken
    cases r <;> cases htaken

end Examples

end FtpFileTransfer

end NetworkStack.Ftp
