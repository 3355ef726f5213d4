import ImportClosure.Text.Basic
import ImportClosure.Time.Instant

/-!
# `ImportClosure.Time.Calendar`: instants as dates and times of day

`Instant.text` writes an instant in UTC as `YYYY-MM-DDThh:mm:ss+00:00`, with six more digits
after the seconds unless the microseconds are zero. The calendar is the Gregorian one, also
for the time before its introduction. Only the years 1 to 9999 can be written.
-/

set_option autoImplicit false

namespace ImportClosure

/-- A day of the calendar. -/
structure Date where
  year : Int
  month : Nat
  day : Nat
  deriving DecidableEq, Repr

namespace Date

/-- The date a number of days after the first day of 1970. Years are counted from March on,
in cycles of 400 years, so that a leap day is the last day of its year and four years, a
century and a cycle each end with the day that may be missing. -/
def ofDays (days : Int) : Date :=
  let fromMarch := days + 719468
  let cycle := fromMarch / 146097
  let dayOfCycle := (fromMarch % 146097).toNat
  let yearOfCycle :=
    (dayOfCycle - dayOfCycle / 1460 + dayOfCycle / 36524 - dayOfCycle / 146096) / 365
  let dayOfYear := dayOfCycle - (365 * yearOfCycle + yearOfCycle / 4 - yearOfCycle / 100)
  let fifths := (5 * dayOfYear + 2) / 153
  let month := if fifths < 10 then fifths + 3 else fifths - 9
  { year := cycle * 400 + yearOfCycle + (if month ≤ 2 then 1 else 0)
    month := month
    day := dayOfYear - (153 * fifths + 2) / 5 + 1 }

end Date

namespace Instant

/-- The microseconds of a day. -/
def microsPerDay : Int := 86400 * 1000000

/-- The date of an instant. -/
def date (t : Instant) : Date := Date.ofDays (t.micros / microsPerDay)

/-- The calendar reaches the instant. It counts the years since 1900 in 32 bits. -/
def hasDate (t : Instant) : Bool :=
  -Int.pow 2 31 ≤ t.date.year - 1900 && t.date.year - 1900 < Int.pow 2 31

/-- The year of the instant can be written with four digits. -/
def isWritable (t : Instant) : Bool := 1 ≤ t.date.year && t.date.year ≤ 9999

/-- The text of an instant. -/
def text (t : Instant) : Text :=
  let micros := (t.micros % microsPerDay).toNat
  let seconds := micros / 1000000
  let fraction := micros % 1000000
  Text.padded 4 t.date.year.toNat ++ '-' :: Text.padded 2 t.date.month ++
    '-' :: Text.padded 2 t.date.day ++ 'T' :: Text.padded 2 (seconds / 3600) ++
    ':' :: Text.padded 2 (seconds / 60 % 60) ++ ':' :: Text.padded 2 (seconds % 60) ++
    (if fraction = 0 then [] else '.' :: Text.padded 6 fraction) ++ "+00:00".toList

end Instant

end ImportClosure
