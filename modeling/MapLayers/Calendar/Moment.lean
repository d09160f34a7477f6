import MapLayers.Json.Quantity

/-!
# Days and moments

Days are counted from the first of January 1970 in the Gregorian calendar, which is extended to all
years; a moment is a number of microseconds since the start of that day in UTC. Only moments of the
years 1 to 9999 are shown.
-/

namespace MapLayers.Calendar

structure Date where
  year : Int
  month : Nat
  day : Nat
  deriving DecidableEq, Repr

def isLeap (year : Int) : Bool := year % 4 = 0 && (year % 100 ≠ 0 || year % 400 = 0)

def monthLength (year : Int) : Nat → Nat
  | 2 => if isLeap year then 29 else 28
  | 4 | 6 | 9 | 11 => 30
  | _ => 31

/-- The number of a day, with years counted from March so that a leap day comes last. -/
def dayNumber (d : Date) : Int :=
  let y := if d.month ≤ 2 then d.year - 1 else d.year
  let era := Int.fdiv y 400
  let yearOfEra := y - era * 400
  let marchMonth : Int := (d.month + 9) % 12
  let dayOfYear := (153 * marchMonth + 2) / 5 + d.day - 1
  let dayOfEra := yearOfEra * 365 + yearOfEra / 4 - yearOfEra / 100 + dayOfYear
  era * 146097 + dayOfEra - 719468

def ofDayNumber (n : Int) : Date :=
  let z := n + 719468
  let era := Int.fdiv z 146097
  let dayOfEra := z - era * 146097
  let yearOfEra := (dayOfEra - dayOfEra / 1460 + dayOfEra / 36524 - dayOfEra / 146096) / 365
  let dayOfYear := dayOfEra - (365 * yearOfEra + yearOfEra / 4 - yearOfEra / 100)
  let marchMonth := (5 * dayOfYear + 2) / 153
  let day := dayOfYear - (153 * marchMonth + 2) / 5 + 1
  let month := if marchMonth < 10 then marchMonth + 3 else marchMonth - 9
  let year := yearOfEra + era * 400 + (if month ≤ 2 then 1 else 0)
  ⟨year, month.toNat, day.toNat⟩

example : dayNumber ⟨1970, 1, 1⟩ = 0 := by decide
example : ofDayNumber 0 = ⟨1970, 1, 1⟩ := by decide

def Date.isValid (d : Date) : Bool :=
  1 ≤ d.year && d.year ≤ 9999 && 1 ≤ d.month && d.month ≤ 12 && 1 ≤ d.day
    && d.day ≤ monthLength d.year d.month

def weekday (n : Int) : Int := (n + 3) % 7

/-- The Monday of the first week of a year: the week that holds the fourth of January. -/
def firstMonday (year : Int) : Int :=
  let fourth := dayNumber ⟨year, 1, 4⟩
  fourth - weekday fourth

/-- The number of weeks that begin in a year by the week calendar. -/
def weekCount (year : Int) : Int := (firstMonday (year + 1) - firstMonday year) / 7

def microsPerSecond : Int := 1000000
def secondsPerDay : Int := 86400

def dateOf (micros : Int) : Date :=
  ofDayNumber (Int.fdiv micros (secondsPerDay * microsPerSecond))

def isShown (micros : Int) : Bool :=
  let year := (dateOf micros).year
  1 ≤ year && year ≤ 9999

def twoDigits (n : Int) : String := Decimal.padded 2 (Decimal.digitText n.toNat)

/-- A moment as `month/day/year hours:minutes:seconds`, with the half of the day behind it. -/
def label (micros : Int) : String :=
  let date := dateOf micros
  let seconds := Int.fdiv micros microsPerSecond % secondsPerDay
  let hour := seconds / 3600
  twoDigits date.month ++ "/" ++ twoDigits date.day ++ "/" ++ twoDigits (date.year % 100) ++ " "
    ++ twoDigits hour ++ ":" ++ twoDigits (seconds / 60 % 60) ++ ":" ++ twoDigits (seconds % 60)
    ++ (if hour < 12 then "am" else "pm")

def hasBrokenDownYear (year : Int) : Bool :=
  -2147483648 ≤ year - 1900 && year - 1900 ≤ 2147483647

/-- The moment that lies a number of seconds after the start of 1970. The fraction is rounded to
microseconds, half to even. -/
def ofSeconds (x : Float) : Result Int :=
  match Binary64.value? x with
  | none => .error (if Binary64.isNaN x then .badValue else .tooLarge)
  | some q =>
    let whole := truncate q
    let fraction := (Binary64.nearest? (q - whole)).getD 0
    let micros := roundHalfEven ((Binary64.value? (fraction * 1000000)).getD 0)
    let moment := whole * microsPerSecond + micros
    let seconds := Int.fdiv moment microsPerSecond
    if seconds < -9223372036854775808 ∨ 9223372036854775807 < seconds then .error .tooLarge
    else if !hasBrokenDownYear (dateOf moment).year then .error (.operation .system)
    else if !isShown moment then .error .badValue
    else .ok moment

/-- The moment that lies a number of milliseconds after the start of 1970. -/
def ofMilliseconds (n : Number) : Result Int := do
  let seconds ← n.div (.float 1000)
  let x ← seconds.toFloat
  ofSeconds x

end MapLayers.Calendar
