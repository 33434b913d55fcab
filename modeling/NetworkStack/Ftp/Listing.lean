import NetworkStack.Ftp.Transfers

/-!
# Listings (protocol/FtpFileTransfer.cpp)

A line of a listing is skipped when its fields cannot be read or no name is left.
When they can, the date is taken to be one: `parseFtpTimestamp` throws on any other
text, through `list` and past the completion reply.
-/

namespace NetworkStack.Ftp

open Hoare SocketDetail Utility

/-! ### Lines -/

/-- The entry `list` makes of a line: eight fields, of which three are a date, and a name. -/
def lsEntry (clock : Clock) (line : Bytes) : Option FileListData := do
  let (size, month, day, time_or_year, iss) ← listFields line
  if trim iss = [] then none
  let date ← parseFtpTimestamp clock month day time_or_year
  pure ⟨date, size, trim iss, []⟩

/-- The fields and a name are there, and what stands for the date is none. -/
def Undated (clock : Clock) (line : Bytes) : Bool :=
  match listFields line with
  | none => false
  | some (_, month, day, time_or_year, iss) =>
    trim iss ≠ [] && (parseFtpTimestamp clock month day time_or_year).isNone

theorem parseFtpLine_eq (clock : Clock) (line : Bytes) :
    parseFtpLine clock line = if Undated clock line then none else some (lsEntry clock line) := by
  unfold parseFtpLine Undated lsEntry
  cases listFields line with
  | none => rfl
  | some fields =>
    obtain ⟨size, month, day, time_or_year, iss⟩ := fields
    by_cases hname : trim iss = []
    · simp [hname]
    · cases hdate : parseFtpTimestamp clock month day time_or_year with
      | none => simp [hname, hdate]
      | some date => simp [hname, hdate]

theorem parseListing_eq (clock : Clock) (lines : List Bytes) :
    parseListing clock lines
      = if lines.any (Undated clock) then none else some (lines.filterMap (lsEntry clock)) := by
  induction lines with
  | nil => rfl
  | cons line lines ih =>
    rw [parseListing, parseFtpLine_eq, List.any_cons]
    by_cases hline : Undated clock line = true
    · rw [if_pos hline, hline]
      rfl
    · rw [if_neg hline, ih]
      simp only [Bool.not_eq_true] at hline
      simp only [hline, Bool.false_or]
      by_cases hlines : lines.any (Undated clock) = true
      · rw [if_pos hlines, if_pos hlines]
        rfl
      · rw [if_neg hlines, if_neg hlines, Option.map_some, List.filterMap_cons]
        cases lsEntry clock line with
        | none => rfl
        | some file => rfl

/-! ### The listing of a directory -/

namespace FtpFileTransfer

variable {σ : Type} {W : Channel σ} {clock : Clock} {path : Path} {s t : FtpFileTransfer σ}
  {data left : Socket} {content : Bytes}

/-- Behind the data phase, `list` throws at a line without a date, and otherwise takes the
completion reply; its code is not looked at. -/
theorem list_received (hopen : openTransfer W path (ascii "LIST") s = (.ok data, t))
    (hdata : receiveRawResponse data = some (.ok content, left)) :
    list W clock path s
      = if (splitLines content).any (Undated clock) then (.error .threw, t.leave W left)
        else (do
          let _ ← control W.receiveResponse
          pure ((splitLines content).filterMap (lsEntry clock)) : Operation σ _)
            (t.leave W left) := by
  have hphase : onData W (receiveRawResponse data) t = (.ok content, t.leave W left) := by
    rw [hdata]
    rfl
  rw [list, transfer, bind_ok hopen, bind_ok hphase, parseListing_eq]
  by_cases hany : (splitLines content).any (Undated clock) = true
  · rw [if_pos hany, if_pos hany]
    rfl
  · rw [if_neg hany, if_neg hany]

end FtpFileTransfer

end NetworkStack.Ftp
