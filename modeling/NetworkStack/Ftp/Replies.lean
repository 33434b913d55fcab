import Mathlib.Algebra.Group.Int.Defs
import Mathlib.Algebra.Group.Nat.Defs
import NetworkStack.Ftp.Path
import NetworkStack.Lib.Decimal
import NetworkStack.Lib.Search

/-!
# Texts a server sends (protocol/FtpFileTransfer.cpp)

The parsers of replies and listings. A parser that can throw returns `none` where
it does; the clock it asks is a parameter.
-/

namespace NetworkStack.Ftp

open Search (search)

def cr : Byte := 13

def lf : Byte := 10

def crlf : Bytes := [cr, lf]

structure Answer where
  full_msg : Bytes
  code : ℕ
  deriving DecidableEq

def isspace (b : Byte) : Bool := b = 32 ∨ (9 ≤ b ∧ b ≤ 13)

def isdigit (b : Byte) : Bool := 48 ≤ b ∧ b ≤ 57

def decimal (digits : Bytes) : ℕ := digits.foldl (fun n b => 10 * n + (b.toNat - 48)) 0

theorem isDigit_of_isdigit {d : Byte} (h : isdigit d = true) : Decimal.IsDigit d :=
  of_decide_eq_true h

theorem isspace_of_isdigit {d : Byte} (h : isdigit d = true) : isspace d = false := by
  have hd := isDigit_of_isdigit h
  have h₁ : d ≠ 32 := by rintro rfl; exact absurd hd.1 (by decide)
  have h₂ : ¬d ≤ 13 := fun h => absurd (UInt8.le_trans hd.1 h) (by decide)
  simp [isspace, h₁, h₂]

theorem isdigit_digits (n : ℕ) : ∀ b ∈ Decimal.digits n, isdigit b = true :=
  fun _ hb => decide_eq_true (Decimal.isDigit_of_mem_digits hb)

theorem isdigit_padded (width n : ℕ) : ∀ b ∈ Decimal.padded width n, isdigit b = true :=
  fun _ hb => decide_eq_true (Decimal.isDigit_of_mem_padded hb)

/- White space and then digits: what is left of it when the white space is skipped. -/
theorem dropWhile_isspace_digits {spaces digits : Bytes} (hspaces : ∀ b ∈ spaces, isspace b = true)
    (hdigits : ∀ b ∈ digits, isdigit b = true) : (spaces ++ digits).dropWhile isspace = digits :=
  (Search.span_front digits hspaces fun b hb =>
    isspace_of_isdigit (hdigits b (List.mem_of_mem_head? hb))).2

def splitLines (lines : Bytes) : List Bytes :=
  let strip := fun s : Bytes => (s.reverse.dropWhile fun b => b = cr ∨ b = lf).reverse
  ((lines.splitOn lf).map strip).filter (· ≠ [])

/-! ### The passive port -/

structure Endpoint where
  address : UInt32
  port : UInt16
  deriving DecidableEq

/-- An overflow is reported by `std::from_chars` before the caller sees what follows the digits. -/
def parse_uint8 (str : Bytes) : Except Errc ℕ :=
  let str := str.dropWhile isspace
  let digits := str.takeWhile isdigit
  if digits = [] then .error .invalid_argument
  else if 2 ^ 32 ≤ decimal digits then .error .result_out_of_range
  else if str.dropWhile isdigit ≠ [] then .error .invalid_argument
  else if 255 < decimal digits then .error .result_out_of_range
  else .ok (decimal digits)

def comma : Byte := 44

/-- The loop over the parameters; `room` is what `count` lacks to six. -/
def parseParts : (room : ℕ) → Bytes → Except Errc (List ℕ)
  | 0, _ => .ok []
  | _, [] => .ok []
  | room + 1, b :: params =>
    match parse_uint8 ((b :: params).takeWhile (· != comma)) with
    | .error ec => .error ec
    | .ok val =>
      match (b :: params).dropWhile (· != comma) with
      | [] => .ok [val]
      | _ :: rest => (parseParts room rest).map (val :: ·)

def endpointOf : List ℕ → Option Endpoint
  | [h1, h2, h3, h4, p1, p2] =>
    some
      { address := (UInt32.ofNat h1 <<< 24) ||| (UInt32.ofNat h2 <<< 16)
          ||| (UInt32.ofNat h3 <<< 8) ||| UInt32.ofNat h4
        port := ((UInt32.ofNat p1 <<< 8) ||| UInt32.ofNat p2).toUInt16 }
  | _ => none

def parsePasvResponse (response : Bytes) : Option Endpoint :=
  match response.dropWhile (· != 40) with
  | [] => none
  | _ :: rest =>
    if rest.contains 41 = false then none
    else
      match parseParts 6 (rest.takeWhile (· != 41)) with
      | .error _ => none
      | .ok parts => endpointOf parts

/-! ### Listings -/

structure FileListData where
  date : Int
  size : ℕ
  file_name : Bytes
  full_path : Path
  deriving DecidableEq

structure Tm where
  tm_year : Int
  tm_mon : ℕ
  tm_mday : Int
  tm_hour : Int
  tm_min : Int

/- `tm_year` of the local time is `now`'s; `mktime` answers `none` for -1. -/
structure Clock where
  now : Int
  tm_year : Int
  mktime : Tm → Option Int

def signedDigits (s : Bytes) : Option (Bool × ℕ × Bytes) :=
  let (negative, s) := match s with
    | 45 :: rest => (true, rest)
    | 43 :: rest => (false, rest)
    | s => (false, s)
  let digits := s.takeWhile isdigit
  if digits = [] then none else some (negative, decimal digits, s.dropWhile isdigit)

/-- Throws when there are no digits or the value is no `int`. -/
def stoi (s : Bytes) : Option Int :=
  match signedDigits (s.dropWhile isspace) with
  | none => none
  | some (negative, n, _) =>
    let value : Int := if negative then -n else n
    if -2 ^ 31 ≤ value ∧ value < 2 ^ 31 then some value else none

/- A numeral without a sign. -/
theorem signedDigits_digits {digits : Bytes} (rest : Bytes) (hne : digits ≠ [])
    (hdigits : ∀ b ∈ digits, isdigit b = true) (hrest : ∀ b ∈ rest.head?, isdigit b = false) :
    signedDigits (digits ++ rest) = some (false, decimal digits, rest) := by
  obtain ⟨htake, hdrop⟩ := Search.span_front rest hdigits hrest
  cases digits with
  | nil => exact absurd rfl hne
  | cons d ds =>
    have hd := isDigit_of_isdigit (hdigits d (List.mem_cons_self ..))
    have hminus : d ≠ 45 := by rintro rfl; exact absurd hd.1 (by decide)
    have hplus : d ≠ 43 := by rintro rfl; exact absurd hd.1 (by decide)
    unfold signedDigits
    split
    rename_i negative body hsign
    split at hsign
    · rename_i tail heq
      exact absurd (List.cons.inj heq).1 hminus
    · rename_i tail heq
      exact absurd (List.cons.inj heq).1 hplus
    · cases hsign
      simp only [htake, hdrop, if_neg hne]

theorem stoi_digits {digits : Bytes} (hne : digits ≠ []) (hdigits : ∀ b ∈ digits, isdigit b = true)
    (hvalue : decimal digits < 2147483648) : stoi digits = some (decimal digits : Int) := by
  have hskip := @dropWhile_isspace_digits [] digits (List.forall_mem_nil _) hdigits
  have hread := signedDigits_digits [] hne hdigits fun b hb => by cases hb
  rw [List.append_nil] at hread
  rw [List.nil_append] at hskip
  rw [stoi, hskip, hread]
  simp only [Bool.false_eq_true, if_false]
  rw [if_pos (by omega)]

def extractWord (iss : Bytes) : Option (Bytes × Bytes) :=
  let iss := iss.dropWhile isspace
  let word := iss.takeWhile (!isspace ·)
  if word = [] then none else some (word, iss.dropWhile (!isspace ·))

/-- As `iss >> size` for a `std::uint64_t`: a minus sign negates modulo 2^64. -/
def extractSize (iss : Bytes) : Option (ℕ × Bytes) :=
  match signedDigits (iss.dropWhile isspace) with
  | none => none
  | some (negative, n, rest) =>
    if 2 ^ 64 ≤ n then none
    else some (if negative then (2 ^ 64 - n) % 2 ^ 64 else n, rest)

def monthMap : List (Bytes × ℕ) :=
  ["Jan", "Feb", "Mar", "Apr", "May", "Jun", "Jul", "Aug", "Sep", "Oct", "Nov", "Dec"].zipIdx.map
    fun (name, i) => (ascii name, i)

def parseFtpTimestamp (clock : Clock) (month day time_or_year : Bytes) : Option Int := do
  let monthNum ← monthMap.lookup month
  let dayNum ← stoi day
  if dayNum < 1 ∨ dayNum > 31 then none
  let (year, hour, minute) ←
    if time_or_year.contains 58 then do
      let hour ← stoi (time_or_year.takeWhile (· != 58))
      let minute ← stoi ((time_or_year.dropWhile (· != 58)).drop 1)
      pure (clock.tm_year + 1900, hour, minute)
    else do
      let year ← stoi time_or_year
      pure (year, 0, 0)
  clock.mktime ⟨year - 1900, monthNum, dayNum, hour, minute⟩

def listFields (line : Bytes) : Option (ℕ × Bytes × Bytes × Bytes × Bytes) := do
  let (_, iss) ← extractWord line
  let (_, iss) ← extractWord iss
  let (_, iss) ← extractWord iss
  let (_, iss) ← extractWord iss
  let (size, iss) ← extractSize iss
  let (month, iss) ← extractWord iss
  let (day, iss) ← extractWord iss
  let (time_or_year, iss) ← extractWord iss
  pure (size, month, day, time_or_year, iss)

def trim (s : Bytes) : Bytes := (s.reverse.dropWhile isspace).reverse.dropWhile isspace

/-- Outer `none`: an exception; inner `none`: the line is skipped. -/
def parseFtpLine (clock : Clock) (line : Bytes) : Option (Option FileListData) :=
  match listFields line with
  | none => some none
  | some (size, month, day, time_or_year, iss) =>
    let file_name := trim iss
    if file_name = [] then some none
    else
      (parseFtpTimestamp clock month day time_or_year).map fun date =>
        some ⟨date, size, file_name, []⟩

def parseListing (clock : Clock) : List Bytes → Option (List FileListData)
  | [] => some []
  | line :: lines =>
    match parseFtpLine clock line with
    | none => none
    | some file => (parseListing clock lines).map (file.toList ++ ·)

/-! ### Facts of a `MLST` reply -/

/-- The value `isDirectoryMlst` returns for a reply with code 250; `none` without a type. -/
def typeIsDir (full_msg : Bytes) : Option Bool :=
  match search (ascii "type=") full_msg with
  | none => none
  | some start =>
    let type_field := (full_msg.drop start).takeWhile (· != 59)
    some (search (ascii "type=dir") type_field).isSome

end NetworkStack.Ftp
