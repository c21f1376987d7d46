import Phrasebook.Text.Basic

/-!
# Dates and moments

A date of the calendar, and a moment: a date with a time of day and, perhaps, an offset from
universal time. A moment with an offset and one without are never the same; two moments with
offsets are the same when they are at the same distance from the start of the calendar.
-/

namespace Phrasebook

structure Date where
  year : Nat
  month : Nat
  day : Nat
  deriving DecidableEq, Repr

/-- A date with a time of day. The offset from universal time is counted in microseconds. -/
structure Moment where
  date : Date
  hour : Nat
  minute : Nat
  second : Nat
  microsecond : Nat
  offset : Option Int
  deriving DecidableEq, Repr

namespace Date

def isLeap (year : Nat) : Bool :=
  year % 4 == 0 && (year % 100 != 0 || year % 400 == 0)

def daysInMonth (year month : Nat) : Nat :=
  if month ∈ [4, 6, 9, 11] then 30
  else if month = 2 then (if isLeap year then 29 else 28)
  else 31

def ofParts? (year month day : Nat) : Option Date :=
  if 1 ≤ year ∧ year ≤ 9999 ∧ 1 ≤ month ∧ month ≤ 12 ∧ 1 ≤ day ∧ day ≤ daysInMonth year month then
    some ⟨year, month, day⟩
  else none

/-- The number of days from the start of the calendar to a date. -/
def dayNumber (d : Date) : Nat :=
  let y := d.year - 1
  let months := (List.range (d.month - 1)).map fun m => daysInMonth d.year (m + 1)
  let before := months.foldr (· + ·) 0
  365 * y + y / 4 - y / 100 + y / 400 + before + d.day

def iso (d : Date) : Text :=
  Text.padded 10 4 d.year ++ char '-' :: Text.padded 10 2 d.month ++
    char '-' :: Text.padded 10 2 d.day

end Date

namespace Moment

/-- The moment with given parts, if there is one. An offset is less than a day. -/
def ofParts? (date : Date) (hour minute second microsecond : Nat) (offset : Option Int) :
    Option Moment :=
  let near : Bool := match offset with
    | none => true
    | some o => o.natAbs < 86400000000
  if hour < 24 ∧ minute < 60 ∧ second < 60 ∧ microsecond < 1000000 ∧ near then
    some ⟨date, hour, minute, second, microsecond, offset⟩
  else none

/-- Microseconds from the start of the calendar, by the moment's own clock. -/
def localTime (m : Moment) : Int :=
  (((m.date.dayNumber * 24 + m.hour) * 60 + m.minute) * 60 + m.second) * 1000000 + m.microsecond

def same (m n : Moment) : Bool :=
  match m.offset, n.offset with
  | none, none => m.localTime == n.localTime
  | some a, some b => m.localTime - a == n.localTime - b
  | _, _ => false

/-- An offset from universal time: a sign, hours and minutes, and seconds where they are needed. -/
def isoOffset (o : Int) : Text :=
  let t := o.natAbs
  let seconds := t / 1000000 % 60
  let micros := t % 1000000
  let tail :=
    if micros ≠ 0 then char ':' :: Text.padded 10 2 seconds ++ char '.' :: Text.padded 10 6 micros
    else if seconds ≠ 0 then char ':' :: Text.padded 10 2 seconds
    else []
  char (if o < 0 then '-' else '+') :: Text.padded 10 2 (t / 3600000000) ++
    char ':' :: Text.padded 10 2 (t / 60000000 % 60) ++ tail

/-- Date and time of day with a mark between them, a fraction of six digits unless it is zero, and
the offset. -/
def iso (mark : CodePoint) (m : Moment) : Text :=
  m.date.iso ++ mark :: Text.padded 10 2 m.hour ++ char ':' :: Text.padded 10 2 m.minute ++
    char ':' :: Text.padded 10 2 m.second ++
    (if m.microsecond = 0 then [] else char '.' :: Text.padded 10 6 m.microsecond) ++
    (m.offset.map isoOffset).getD []

end Moment

/-- Takes a number of a fixed count of digits off the front of a text. -/
def takeNumber (width : Nat) (s : Text) : Option (Nat × Text) :=
  let ds := s.take width
  if ds.length = width ∧ ds.all Text.isDigit then some (Text.decimal ds, s.drop width) else none

def takeMark (mark : CodePoint) : Text → Option Text
  | c :: s => if c = mark then some s else none
  | [] => none

def Date.takeIso (s : Text) : Option (Date × Text) := do
  let (year, s) ← takeNumber 4 s
  let (month, s) ← takeNumber 2 (← takeMark '-' s)
  let (day, s) ← takeNumber 2 (← takeMark '-' s)
  some (← Date.ofParts? year month day, s)

def Date.ofIso? (s : Text) : Option Date := do
  let (d, rest) ← Date.takeIso s
  if rest = [] then some d else none

/-- A time of day at the front of a text: hours, minutes, perhaps seconds and microseconds. -/
def takeClock (s : Text) : Option ((Nat × Nat × Nat × Nat) × Text) := do
  let (hour, s) ← takeNumber 2 s
  let (minute, s) ← takeNumber 2 (← takeMark ':' s)
  match takeMark ':' s with
  | none => some ((hour, minute, 0, 0), s)
  | some s =>
    let (second, s) ← takeNumber 2 s
    match takeMark '.' s with
    | none => some ((hour, minute, second, 0), s)
    | some s =>
      let (micro, s) ← takeNumber 6 s
      some ((hour, minute, second, micro), s)

def Moment.ofIso? (s : Text) : Option Moment := do
  let (date, s) ← Date.takeIso s
  let ((hour, minute, second, micro), s) ← takeClock (s.drop 1)
  match s with
  | [] => Moment.ofParts? date hour minute second micro none
  | sign :: s =>
    let ((h, m, sec, us), rest) ← takeClock s
    let size : Int := ((h * 60 + m) * 60 + sec) * 1000000 + us
    if rest = [] then
      Moment.ofParts? date hour minute second micro (some (if sign = '-' then -size else size))
    else none

end Phrasebook
