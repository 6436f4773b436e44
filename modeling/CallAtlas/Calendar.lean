import CallAtlas.Text.Quoted

/-!
# Days and moments

A day is counted from the first day of year one, a moment in microseconds from its
start. A moment with a time zone is counted as the clock shows it without one, less
the distance of the zone. The parts of a day and of a time must lie in their ranges;
of several that do not, the zone is told first and the others from the year down.
-/

namespace CallAtlas

/-- What is wrong with the parts of a day or of a time. -/
inductive CalendarError
  /-- A zone is a day or more away, by its distance in minutes. -/
  | zone (minutes : Int)
  | year (n : Nat)
  | month
  | day
  | hour
  | minute
  | second
deriving Repr, DecidableEq

/-- A length of time in minutes, as its days and the seconds of the day that are left. -/
def CalendarError.lengthText (minutes : Int) : String :=
  let days := minutes / 1440
  let seconds := minutes % 1440 * 60
  let parts := (if days = 0 then [] else ["days=" ++ toString days]) ++
    (if seconds = 0 then [] else ["seconds=" ++ toString seconds])
  "datetime.timedelta(" ++ String.intercalate ", " parts ++ ")"

/-- The wording of a calendar error. -/
def CalendarError.message : CalendarError → String
  | zone minutes =>
    "offset must be a timedelta strictly between -timedelta(hours=24) and timedelta(hours=24), not " ++
      lengthText minutes ++ "."
  | year n => "year " ++ toString n ++ " is out of range"
  | month => "month must be in 1..12"
  | day => "day is out of range for month"
  | hour => "hour must be in 0..23"
  | minute => "minute must be in 0..59"
  | second => "second must be in 0..59"

namespace Calendar

/-- Whether a year has a day more. -/
def isLeap (year : Nat) : Bool :=
  year % 4 == 0 && (year % 100 != 0 || year % 400 == 0)

/-- The lengths of the months of a year. -/
def monthLengths (year : Nat) : List Nat :=
  [31, if isLeap year then 29 else 28, 31, 30, 31, 30, 31, 31, 30, 31, 30, 31]

/-- How many days come before a year, from year one on. -/
def daysBeforeYear (year : Nat) : Nat :=
  let y := year - 1
  365 * y + y / 4 - y / 100 + y / 400

/-- The number of a day. -/
def dayNumber (year month day : Nat) : Except CalendarError Nat :=
  if year = 0 then .error (.year year)
  else if month = 0 ∨ month > 12 then .error .month
  else if day = 0 ∨ day > (monthLengths year).getD (month - 1) 0 then .error .day
  else .ok (((monthLengths year).take (month - 1)).foldl (· + ·) (daysBeforeYear year) + day)

/-- A time of a day. -/
structure Time where
  hour : Nat
  minute : Nat
  second : Nat
  micros : Nat := 0
deriving Repr, DecidableEq

/-- The time in microseconds, if its parts lie in their ranges. -/
def Time.number (t : Time) : Except CalendarError Nat :=
  if t.hour > 23 then .error .hour
  else if t.minute > 59 then .error .minute
  else if t.second > 59 then .error .second
  else .ok (((t.hour * 60 + t.minute) * 60 + t.second) * 1000000 + t.micros)

/-- A moment: whether it has a zone, and its number. -/
structure Moment where
  isZoned : Bool
  number : Int
deriving Repr, DecidableEq

/-- The moment with some parts; the zone is its distance in minutes. -/
def moment (year month day : Nat) (time : Time) (zone : Option Int) :
    Except CalendarError Moment := do
  if let some minutes := zone then
    if minutes.natAbs ≥ 1440 then .error (.zone minutes)
  let days ← dayNumber year month day
  let clock ← time.number
  let distance := zone.getD 0 * 60000000
  return ⟨zone.isSome, Int.ofNat (days * 86400000000 + clock) - distance⟩

end Calendar
end CallAtlas
