import MapLayers.Calendar.Moment

/-!
# Written dates

Dates in the forms of ISO 8601: month and day or week and day, with or without hyphens, then
optionally any one character and a time of day, then optionally an offset from UTC. The text is read
byte by byte, since the character between date and time may be of any length.
-/

namespace MapLayers.Calendar

abbrev Bytes := List Nat

def hyphen : Nat := 45
def plus : Nat := 43
def colon : Nat := 58
def capitalW : Nat := 87
def capitalZ : Nat := 90

def isDigitByte (b : Nat) : Bool := 48 ≤ b && b ≤ 57

def readDigits? : Nat → Nat → Bytes → Option (Nat × Bytes)
  | 0, acc, bytes => some (acc, bytes)
  | count + 1, acc, b :: rest =>
    if isDigitByte b then readDigits? count (10 * acc + (b - 48)) rest else none
  | _ + 1, _, [] => none

def isAt (bytes : Bytes) (position : Nat) (b : Nat) : Bool := bytes[position]? = some b

/-- The length of the date at the start of a text. A hyphen after the week belongs to the time when
a digit follows two places later; after a week without hyphens, an even run of digits starts with
the day of the week. -/
def dateLength? (bytes : Bytes) : Option Nat :=
  if bytes.length = 7 then some 7
  else if isAt bytes 4 hyphen then
    if isAt bytes 5 capitalW then
      if isAt bytes 8 hyphen then
        if bytes.length = 9 then none
        else if ((bytes[10]?).map isDigitByte).getD false then some 8
        else some 10
      else some 8
    else some 10
  else if isAt bytes 4 capitalW then
    let run := 7 + ((bytes.drop 7).takeWhile isDigitByte).length
    if run < 9 then some run else if run % 2 = 0 then some 7 else some 8
  else some 8

def ofWeek? (year : Nat) (week day : Nat) : Option Date :=
  if week = 0 ∨ weekCount year < week ∨ day = 0 ∨ 7 < day then none
  else some (ofDayNumber (firstMonday year + (week - 1) * 7 + day - 1))

/-- Reads a date of the given length. -/
def readDate? (bytes : Bytes) (length : Nat) : Option Date := do
  let (year, rest) ← readDigits? 4 0 bytes
  let hyphens := rest.head? = some hyphen
  let rest := if hyphens then rest.drop 1 else rest
  if rest.head? = some capitalW then
    let (week, rest) ← readDigits? 2 0 (rest.drop 1)
    if bytes.length - rest.length < length then
      if hyphens ∧ rest.head? ≠ some hyphen then none
      else
        let (day, _) ← readDigits? 1 0 (if hyphens then rest.drop 1 else rest)
        ofWeek? year week day
    else ofWeek? year week 1
  else
    let (month, rest) ← readDigits? 2 0 rest
    if hyphens ∧ rest.head? ≠ some hyphen then none
    else
      let (day, rest) ← readDigits? 2 0 (if hyphens then rest.drop 1 else rest)
      if bytes.length - rest.length = length then some ⟨year, month, day⟩ else none

/-- A time of day or an offset, with whether anything is left after it. -/
structure Clock where
  hour : Nat
  minute : Nat
  second : Nat
  micros : Nat
  leftover : Bool

def Clock.seconds (c : Clock) : Nat := c.hour * 3600 + c.minute * 60 + c.second

/-- Digits of a fraction as microseconds; further digits are skipped. `available` digits are in the
part that is read. -/
def readFraction? (c : Clock) (available : Nat) (bytes : Bytes) : Option Clock := do
  let count := min available 6
  let (n, rest) ← readDigits? count 0 bytes
  let micros := n * Nat.pow 10 (6 - count)
  return { c with micros := micros, leftover := !(rest.dropWhile isDigitByte).isEmpty }

/-- Two digits each for the hours, minutes and seconds, then a fraction after a point or a comma.
The first `length` bytes are the part that is read; a colon after the hours has to follow the
minutes too. -/
def readClock? (bytes : Bytes) (length : Nat) : Option Clock :=
  fields 3 true bytes ⟨0, 0, 0, 0, false⟩
where
  consumed (rest : Bytes) : Nat := bytes.length - rest.length
  store (left n : Nat) (c : Clock) : Clock :=
    match left with
    | 2 => { c with hour := n }
    | 1 => { c with minute := n }
    | _ => { c with second := n }
  fields : Nat → Bool → Bytes → Clock → Option Clock
    | 0, _, rest, c => readFraction? c (length - consumed rest) rest
    | left + 1, colons, rest, c => do
      let (n, rest) ← readDigits? 2 0 rest
      let c := store left n c
      let next := rest.head?
      let colons := if left = 2 then next = some colon else colons
      let after := rest.drop 1
      if length ≤ consumed rest + 1 then some { c with leftover := next.isSome }
      else if colons ∧ next = some colon then fields left colons after c
      else if next = some 46 ∨ next = some 44 then
        readFraction? c (length - consumed after) after
      else if colons then none
      else fields left colons rest c

/-- A time of day with its offset from UTC in microseconds, if one is written. -/
structure TimeOfDay where
  clock : Clock
  offset : Option Int

def isOffsetMark (b : Nat) : Bool := b = plus || b = hyphen || b = capitalZ

/-- An offset of no seconds is UTC itself, whatever its fraction. -/
def readTime? (bytes : Bytes) : Option TimeOfDay := do
  let before := match bytes with
    | [] => []
    | b :: rest => if isOffsetMark b then [] else b :: rest.takeWhile fun b => !isOffsetMark b
  let clock ← readClock? bytes before.length
  match bytes.drop before.length with
  | [] => if clock.leftover then none else some ⟨clock, none⟩
  | mark :: zone =>
    if mark = capitalZ then if zone.isEmpty then some ⟨clock, some 0⟩ else none
    else
      let offset ← readClock? zone zone.length
      if offset.leftover then none
      else if offset.seconds = 0 then some ⟨clock, some 0⟩
      else
        let micros := (offset.seconds : Int) * microsPerSecond + offset.micros
        some ⟨clock, some (if mark = hyphen then -micros else micros)⟩

def Clock.isValid (c : Clock) : Bool := c.hour < 24 && c.minute < 60 && c.second < 60

def afterSeparator (bytes : Bytes) : Bytes :=
  match bytes with
  | [] => []
  | b :: _ =>
    if b < 128 then bytes.drop 1
    else if 224 ≤ b ∧ b < 240 then bytes.drop 3
    else if 240 ≤ b then bytes.drop 4
    else bytes.drop 2

/-- The moment that a text names; without an offset it is taken as UTC. A moment that the offset
moves out of the years that can be shown is too large. -/
def ofText (s : String) : Result Int :=
  let bytes := s.toUTF8.toList.map UInt8.toNat
  let parsed : Option (Date × Option TimeOfDay) := do
    if s.length < 7 then none
    let length ← dateLength? bytes
    let date ← readDate? bytes length
    let rest := bytes.drop length
    if rest.isEmpty then return (date, none)
    else
      let time ← readTime? (afterSeparator rest)
      return (date, some time)
  match parsed with
  | none => .error .badValue
  | some (date, time) =>
    if !date.isValid then .error .badValue
    else
      let midnight := dayNumber date * secondsPerDay * microsPerSecond
      match time with
      | none => .ok midnight
      | some t =>
        if !t.clock.isValid then .error .badValue
        else
          let moment := midnight + t.clock.seconds * microsPerSecond + t.clock.micros
          match t.offset with
          | none => .ok moment
          | some offset =>
            if secondsPerDay * microsPerSecond ≤ offset.natAbs then .error .badValue
            else if isShown (moment - offset) then .ok (moment - offset)
            else .error .tooLarge

end MapLayers.Calendar
