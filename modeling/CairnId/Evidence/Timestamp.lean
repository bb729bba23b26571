import CairnId.Http.Authorize
import CairnId.Http.ScimBulk

/-!
# Timestamps of the conformance suite

`operations_evidence/timestamp.rs`, and the same functions in `export_normalizer.rs`: a
timestamp is in RFC 3339 or in the format of the suite's exports.
-/

namespace CairnId

/-- An `OffsetDateTime`: the instant in nanoseconds, and the offset from UTC in seconds
    that it is written with. -/
structure Moment where
  instant : Int
  offset : Int
  deriving DecidableEq

/-- What the `time` crate computes. -/
structure Calendar where
  /-- `OffsetDateTime::parse` with `Rfc3339`. -/
  parseRfc3339 : String → Option Moment
  /-- `format` with `Rfc3339`. -/
  formatRfc3339 : Moment → Option String
  /-- A date by year, month and day and a time of the day, in UTC. -/
  utc : Int → Nat → Nat → Nat → Nat → Nat → Option Moment

/-- `str::parse::<i32>`. -/
def parseI32 (value : String) : Option Int :=
  (parseI64 value).filter fun n => -2147483648 ≤ n ∧ n < 2147483648

/-- `str::parse::<u8>`. -/
def parseU8 (value : String) : Option Nat :=
  let digits := match value.toList with
    | '+' :: digits => digits
    | digits => digits
  if digits.isEmpty then none else (parseDigits 0 digits).filter (· < 256)

def parseEnglishMonth (value : String) : Option Nat := match asciiLowercase value with
  | "jan" | "january" => some 1
  | "feb" | "february" => some 2
  | "mar" | "march" => some 3
  | "apr" | "april" => some 4
  | "may" => some 5
  | "jun" | "june" => some 6
  | "jul" | "july" => some 7
  | "aug" | "august" => some 8
  | "sep" | "sept" | "september" => some 9
  | "oct" | "october" => some 10
  | "nov" | "november" => some 11
  | "dec" | "december" => some 12
  | _ => none

/-- The hour of the day, of an hour on the clock face. -/
def hourOfPeriod (hour : Nat) (period : String) : Option Nat :=
  if hour < 1 ∨ 12 < hour then none
  else match asciiUppercase period with
    | "AM" => some (if hour = 12 then 0 else hour)
    | "PM" => some (if hour = 12 then 12 else hour + 12)
    | _ => none

section calendar

variable (calendar : Calendar)

def parseOpenidSuiteExportTimestamp (value : String) : Option Moment :=
  match splitAt ',' value with
  | [monthDay, year, timePeriod] => do
    let year ← parseI32 (trim year)
    let [month, day] := splitWhitespace (trim monthDay) | none
    let month ← parseEnglishMonth month
    let day ← parseU8 day
    let [time, period] := splitWhitespace (trim timePeriod) | none
    let [hour, minute, second] := splitAt ':' time | none
    let hour ← parseU8 hour
    let minute ← parseU8 minute
    let second ← parseU8 second
    let hour ← hourOfPeriod hour period
    calendar.utc year month day hour minute second
  | _ => none

def parseReleaseEvidenceTimestamp (value : String) : Option Moment :=
  (calendar.parseRfc3339 value).or (parseOpenidSuiteExportTimestamp calendar value)

end calendar

end CairnId
