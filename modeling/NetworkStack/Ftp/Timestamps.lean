import NetworkStack.Ftp.Replies
import NetworkStack.Lib.Calendar

/-!
# The dates of a listing (protocol/FtpFileTransfer.cpp)

A date is a month, a day and either a time or a year. For a date without a year
`parseFtpTimestamp` takes the current one, which is wrong for the files of last year
that `ls` still shows with a time.
-/

namespace NetworkStack.Ftp

/-! ### Dates as text -/

/-- A time for a recent file, in two digits each, and the year for any other. -/
inductive Stamp where
  | time (hour minute : Fin 100)
  | year (n : ℕ)

def monthName (month : Fin 12) : Bytes := (monthMap.get month).1

def Stamp.text : Stamp → Bytes
  | .time hour minute => Decimal.padded 2 hour ++ 58 :: Decimal.padded 2 minute
  | .year n => Decimal.digits n

/-- The broken-down time that a date stands for; without a year the current one is meant. -/
def Stamp.tm (clock : Clock) (month : Fin 12) (day : ℕ) : Stamp → Tm
  | .time hour minute => ⟨clock.tm_year, month, day, hour, minute⟩
  | .year n => ⟨n - 1900, month, day, 0, 0⟩

/-! ### Reading a date -/

theorem digits_plain (n : ℕ) : ∀ b ∈ Decimal.digits n, isspace b = false :=
  fun b hb => isspace_of_isdigit (isdigit_digits n b hb)

theorem monthName_field (month : Fin 12) :
    monthName month ≠ [] ∧ (∀ b ∈ monthName month, isspace b = false) ∧
      monthMap.lookup (monthName month) = some month.val := by
  revert month
  decide

theorem stampText_field (stamp : Stamp) :
    stamp.text ≠ [] ∧ ∀ b ∈ stamp.text, isspace b = false := by
  cases stamp with
  | time hour minute =>
    refine ⟨by simp [Stamp.text], fun b hb => ?_⟩
    rcases List.mem_append.mp hb with hb | hb
    · exact isspace_of_isdigit (isdigit_padded _ _ b hb)
    · rcases List.mem_cons.mp hb with rfl | hb
      · decide
      · exact isspace_of_isdigit (isdigit_padded _ _ b hb)
  | year n => exact ⟨Decimal.digits_ne_nil n, digits_plain n⟩

theorem stoi_padded (n : Fin 100) : stoi (Decimal.padded 2 n) = some ((n : ℕ) : Int) := by
  have hvalue : decimal (Decimal.padded 2 n) = n := Decimal.value_padded 2 n
  rw [stoi_digits (Decimal.padded_ne_nil _ _) (isdigit_padded _ _) (by omega), hvalue]

theorem colon_not_digit {b : Byte} (h : isdigit b = true) : b ≠ 58 := by
  rintro rfl
  exact absurd h (by decide)

/- The three words of a date are read as the time it stands for. -/
theorem parseFtpTimestamp_text (clock : Clock) (month : Fin 12) {day : ℕ} {stamp : Stamp}
    (hday : 1 ≤ day ∧ day ≤ 31) (hyear : ∀ n, stamp = .year n → n < 2 ^ 31) :
    parseFtpTimestamp clock (monthName month) (Decimal.digits day) stamp.text
      = clock.mktime (stamp.tm clock month day) := by
  have hmonth := (monthName_field month).2.2
  have hread : stoi (Decimal.digits day) = some (day : Int) := by
    have hvalue : decimal (Decimal.digits day) = day := Decimal.value_digits day
    rw [stoi_digits (Decimal.digits_ne_nil _) (isdigit_digits _) (by omega), hvalue]
  have hin : ¬((day : Int) < 1 ∨ (day : Int) > 31) := by omega
  rw [parseFtpTimestamp, hmonth, Option.bind_eq_bind, Option.bind_some, hread]
  simp only [Option.bind_eq_bind, Option.bind_some, if_neg hin]
  cases stamp with
  | time hour minute =>
    have hcolon : (Decimal.padded 2 hour ++ 58 :: Decimal.padded 2 minute).contains 58 = true := by
      simp
    obtain ⟨htake, hdrop⟩ := Search.span_mark
      (fun hb => colon_not_digit (isdigit_padded 2 hour 58 hb) rfl) (Decimal.padded 2 minute)
    simp only [Stamp.text, hcolon, htake, hdrop, stoi_padded, List.drop_succ_cons,
      List.drop_zero, Option.bind_some, Option.pure_def, if_true, Int.add_sub_cancel]
    rfl
  | year n =>
    have hplain : (Decimal.digits n).contains 58 = false := by
      rw [Bool.eq_false_iff, ne_eq, List.contains_iff_mem]
      exact fun hb => colon_not_digit (isdigit_digits n 58 hb) rfl
    have hn : stoi (Decimal.digits n) = some (n : Int) := by
      have hvalue : decimal (Decimal.digits n) = n := Decimal.value_digits n
      have hlt := hyear n rfl
      rw [stoi_digits (Decimal.digits_ne_nil _) (isdigit_digits _) (by omega), hvalue]
    simp only [Stamp.text, hplain, hn, Option.bind_some, Option.pure_def]
    rfl

/-! ### Local time -/

/-- The number of 1 January 1970. -/
def epochDay : Int := 719162

structure LocalTime where
  date : Calendar.Date
  hour : Fin 24
  minute : Fin 60
  second : Fin 60

/-- Seconds since the epoch, in a zone of fixed `offset`. -/
def localtime (offset t : Int) : LocalTime where
  date := Calendar.dateOf (epochDay + (t + offset) / 86400)
  hour := ⟨((t + offset) % 86400 / 3600).toNat, by omega⟩
  minute := ⟨((t + offset) % 3600 / 60).toNat, by omega⟩
  second := ⟨((t + offset) % 60).toNat, by omega⟩

/-- Months and days out of range are carried over. The time -1 is taken for an error. -/
def mktime (offset : Int) (tm : Tm) : Option Int :=
  let year := 1900 + tm.tm_year + (tm.tm_mon / 12 : ℕ)
  let days := Calendar.dayNumber year (tm.tm_mon % 12) tm.tm_mday - epochDay
  let t := days * 86400 + tm.tm_hour * 3600 + tm.tm_min * 60 - offset
  if t = -1 then none else some t

def civilClock (offset now : Int) : Clock :=
  ⟨now, (localtime offset now).date.year - 1900, mktime offset⟩

/-- The time without its seconds. -/
def toTheMinute (offset t : Int) : Int := t - (localtime offset t).second

/-- A time of another year at the same day and minute; in its own year it is the time. -/
def inYear (offset t year : Int) : Int :=
  let tm := localtime offset t
  (Calendar.dayNumber year tm.date.month tm.date.day - epochDay) * 86400
    + (tm.hour : ℕ) * 3600 + (tm.minute : ℕ) * 60 - offset

theorem inYear_self (offset t : Int) :
    inYear offset t (localtime offset t).date.year = toTheMinute offset t := by
  have hday := Calendar.number_dateOf (epochDay + (t + offset) / 86400)
  rw [Calendar.Date.number] at hday
  simp only [inYear, toTheMinute, localtime, hday]
  omega

theorem inYear_inj (offset t : Int) {year year' : Int} :
    inYear offset t year = inYear offset t year' ↔ year = year' := by
  rw [← @Calendar.dayNumber_inj year year' (localtime offset t).date.month
    (localtime offset t).date.day]
  simp only [inYear]
  omega

theorem mktime_eq (offset t year : Int) :
    mktime offset ⟨year - 1900, (localtime offset t).date.month, (localtime offset t).date.day,
        (localtime offset t).hour.val, (localtime offset t).minute.val⟩
      = if inYear offset t year = -1 then none else some (inYear offset t year) := by
  have hlt := (localtime offset t).date.month.isLt
  have hyear : 1900 + (year - 1900) + (((localtime offset t).date.month.val / 12 : ℕ) : Int)
      = year := by
    rw [Nat.div_eq_of_lt hlt]
    omega
  simp only [mktime, hyear, Nat.mod_eq_of_lt hlt]
  rfl

/- A time that `mktime` gives for a date of the calendar is at that date. -/
theorem localtime_mktime {offset t : Int} {date : Calendar.Date} {hour : Fin 24} {minute : Fin 60}
    (h : mktime offset ⟨date.year - 1900, date.month, date.day, hour.val, minute.val⟩ = some t) :
    localtime offset t = ⟨date, hour, minute, 0⟩ := by
  have hmonth := date.month.isLt
  have hyear : 1900 + (date.year - 1900) + ((date.month.val / 12 : ℕ) : Int) = date.year := by
    rw [Nat.div_eq_of_lt hmonth]
    omega
  have hnumber : Calendar.dayNumber date.year date.month.val date.day = date.number := rfl
  simp only [mktime, hyear, Nat.mod_eq_of_lt hmonth, hnumber] at h
  split at h
  · cases h
  · have ht := Option.some.inj h
    have hday : epochDay + (t + offset) / 86400 = date.number := by omega
    simp only [localtime, hday, Calendar.dateOf_number, LocalTime.mk.injEq, true_and,
      Fin.ext_iff, Fin.val_zero]
    omega

/-! ### Recent files -/

/-- As `ls` writes the time of a recent file. -/
def recentStamp (tm : LocalTime) : Stamp :=
  .time (tm.hour.castLE (by decide)) (tm.minute.castLE (by decide))

/-- The three words of a listing for a file that was modified at `t`, read at `now`. -/
def parseRecent (offset now t : Int) : Option Int :=
  let tm := localtime offset t
  parseFtpTimestamp (civilClock offset now) (monthName tm.date.month)
    (Decimal.digits tm.date.day) (recentStamp tm).text

theorem parseRecent_eq (offset now t : Int) :
    parseRecent offset now t
      = if inYear offset t (localtime offset now).date.year = -1 then none
        else some (inYear offset t (localtime offset now).date.year) := by
  have hday : 1 ≤ (localtime offset t).date.day ∧ (localtime offset t).date.day ≤ 31 := by
    have hpos := (localtime offset t).date.day_pos
    have hle := (localtime offset t).date.day_le
    have hmonth := Calendar.monthLength_le (Calendar.isLeap (localtime offset t).date.year)
      (localtime offset t).date.month
    omega
  rw [← mktime_eq, parseRecent, parseFtpTimestamp_text _ _ hday (fun n h => by cases h)]
  rfl

/-- The time of a file comes back, to the minute, exactly when it is of the current year of
the local calendar; and not when it is the one time that `mktime` takes for an error. -/
theorem parseRecent_eq_iff (offset now t : Int) :
    parseRecent offset now t = some (toTheMinute offset t) ↔
      (localtime offset t).date.year = (localtime offset now).date.year ∧
        toTheMinute offset t ≠ -1 := by
  rw [parseRecent_eq, ← inYear_self]
  by_cases herror : inYear offset t (localtime offset now).date.year = -1
  · rw [if_pos herror]
    refine iff_of_false (fun h => by cases h) fun ⟨hyear, hvalid⟩ => ?_
    rw [hyear] at hvalid
    exact hvalid herror
  · rw [if_neg herror, Option.some.injEq, inYear_inj]
    refine ⟨fun hyear => ⟨hyear.symm, ?_⟩, fun h => h.1.symm⟩
    rw [← hyear]
    exact herror

/-- Half a mean year, as `ls` has it. -/
def sixMonths : Int := 15778476

/- Read on 15 January 2025, a file of New Year's Eve is dated eleven months ahead. -/
theorem parseRecent_newYear :
    let now : Int := 1736942400
    let t : Int := 1735687800
    (t ≤ now ∧ now - t ≤ sixMonths) ∧
      parseRecent 0 now t = some 1767223800 ∧ toTheMinute 0 t = 1735687800 ∧
      ¬∀ offset now t : Int, t ≤ now → now - t ≤ sixMonths →
        parseRecent offset now t = some (toTheMinute offset t) := by
  intro now t
  have hwindow : t ≤ now ∧ now - t ≤ sixMonths := by decide +kernel
  have hread : parseRecent 0 now t = some 1767223800 := by decide +kernel
  have hminute : toTheMinute 0 t = 1735687800 := by decide +kernel
  refine ⟨hwindow, hread, hminute, fun h => ?_⟩
  have hsame := h 0 now t hwindow.1 hwindow.2
  rw [hread, hminute] at hsame
  exact absurd hsame (by decide)

end NetworkStack.Ftp
