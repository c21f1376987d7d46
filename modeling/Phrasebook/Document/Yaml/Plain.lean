import Phrasebook.Document.Yaml.Token
import Phrasebook.Number.Numeral
import Phrasebook.Calendar

/-!
# The types of plain scalars

A plain scalar that is given no type has the type that its text looks like: a truth value, a
number, a moment, nothing, or else a text. This file holds the types, the shapes of text by which
they are recognized, and how their values are read.
-/

namespace Phrasebook.Yaml

inductive Tag where
  | null
  | bool
  | int
  | float
  | binary
  | timestamp
  | pairs
  | set
  | str
  | seq
  | map
  /-- The key under which a mapping takes over the entries of others. -/
  | merge
  /-- The key of a mapping's own value. -/
  | value
  | unknown
  deriving DecidableEq, Repr

def Tag.names : List (Text × Tag) :=
  [("null".toText, .null), ("bool".toText, .bool), ("int".toText, .int), ("float".toText, .float),
   ("binary".toText, .binary), ("timestamp".toText, .timestamp), ("omap".toText, .pairs),
   ("pairs".toText, .pairs), ("set".toText, .set), ("str".toText, .str), ("seq".toText, .seq),
   ("map".toText, .map), ("merge".toText, .merge), ("value".toText, .value)]

/-- The head of the names of the types that every document knows. -/
def Tag.home : Text := "tag:yaml.org,2002:".toText

def Tag.ofName (name : Text) : Tag :=
  if Tag.home.isPrefixOf name then (Tag.names.lookup (name.drop Tag.home.length)).getD .unknown
  else .unknown

def unsigned (s : Text) : Text :=
  (Binary64.splitSign s).2

def isGroupedDigit (c : CodePoint) : Bool :=
  Text.isDigit c || c = '_'

/-- Whether a text is a number of minutes or seconds: up to 59, with or without a leading zero. -/
def isSixtieth : Text → Bool
  | [a] => Text.isDigit a
  | [a, b] => '0' ≤ a && a ≤ '5' && Text.isDigit b
  | _ => false

/-- Whether a text is a whole part in base sixty with at least one more part, after a digit that
may be required not to be zero. -/
def isSexagesimal (zeroFirst : Bool) (s : Text) : Bool :=
  match s.splitOn (char ':') with
  | (d :: ds) :: part :: parts =>
    Text.isDigit d && (zeroFirst || d ≠ '0') && ds.all isGroupedDigit &&
      (part :: parts).all isSixtieth
  | _ => false

def boolWords : List Text :=
  ["yes", "Yes", "YES", "no", "No", "NO", "true", "True", "TRUE", "false", "False", "FALSE",
   "on", "On", "ON", "off", "Off", "OFF"].map (·.toText)

def nullWords : List Text :=
  ["", "~", "null", "Null", "NULL"].map (·.toText)

/-- Whether a text looks like an integer: in base two, eight, ten, sixteen or sixty. -/
def looksInt (s : Text) : Bool :=
  match unsigned s with
  | '0' :: 'b' :: c :: ds => (c :: ds).all fun d => d = '0' || d = '1' || d = '_'
  | '0' :: 'x' :: c :: ds => (c :: ds).all fun d => (Text.hexValue? d).isSome || d = '_'
  | ['0'] => true
  | '0' :: ds => ds.all fun d => ('0' ≤ d && d ≤ '7') || d = '_'
  | c :: ds => (Text.isDigit c && ds.all isGroupedDigit) || isSexagesimal false (c :: ds)
  | [] => false

/-- Whether a text looks like the power of ten of a number, which needs its sign. -/
def looksPower : Text → Bool
  | [] => true
  | e :: sign :: c :: ds =>
    (e = 'e' || e = 'E') && (sign = '+' || sign = '-') && (c :: ds).all Text.isDigit
  | _ => false

/-- Whether a text looks like a floating number: with a point, in base ten or sixty, or a word. -/
def looksFloat (s : Text) : Bool :=
  let u := unsigned s
  let (whole, point) := u.span (· != char '.')
  match whole, point with
  | d :: ds, _ :: rest =>
    let plain := Text.isDigit d && ds.all isGroupedDigit &&
      looksPower (rest.dropWhile isGroupedDigit)
    plain || (isSexagesimal true (d :: ds) && rest.all isGroupedDigit)
  | [], _ :: d :: rest =>
    (s = u && Text.isDigit d && looksPower (rest.dropWhile isGroupedDigit)) ||
      ["inf", "Inf", "INF"].any (fun w => w.toText = d :: rest) ||
      (s = u && ["nan", "NaN", "NAN"].any fun w => w.toText = d :: rest)
  | _, _ => false

/-- One or two digits at the front of a text, and the rest. -/
def shortNumber (s : Text) : Option (Nat × Text) :=
  match s with
  | a :: b :: rest =>
    if Text.isDigit a ∧ Text.isDigit b then some (Text.decimal [a, b], rest)
    else if Text.isDigit a then some (Text.decimal [a], b :: rest) else none
  | [a] => if Text.isDigit a then some (Text.decimal [a], []) else none
  | [] => none

structure Stamp where
  year : Nat
  month : Nat
  day : Nat
  /-- Hour, minute, second, and the digits of a fraction. -/
  clock : Option (Nat × Nat × Nat × Text)
  /-- Whether the offset is behind universal time, its hours and its minutes. -/
  zone : Option (Bool × Nat × Nat)
  /-- Whether month and day have two digits each. -/
  padded : Bool
  deriving DecidableEq, Repr

def stampZone? (s : Text) : Option (Option (Bool × Nat × Nat)) :=
  match s.dropWhile (fun c : CodePoint => c = ' ' || c = '\t') with
  | [] => if s = [] then some none else none
  | ['Z'] => some (some (false, 0, 0))
  | sign :: rest =>
    if sign = '+' ∨ sign = '-' then do
      let (hours, rest) ← shortNumber rest
      match rest with
      | [] => some (some (sign = '-', hours, 0))
      | rest =>
        let (minutes, rest) ← takeNumber 2 (← takeMark ':' rest)
        if rest = [] then some (some (sign = '-', hours, minutes)) else none
    else none

/-- The time of day in a moment, from the mark or the blanks before it on. -/
def stampClock? (s : Text) : Option ((Nat × Nat × Nat × Text) × Option (Bool × Nat × Nat)) := do
  let s ← (match s with
    | c :: rest =>
      if c = 'T' ∨ c = 't' then some rest
      else if c = ' ' ∨ c = '\t' then some (rest.dropWhile fun d => d = ' ' || d = '\t')
      else none
    | [] => none : Option Text)
  let (hour, s) ← shortNumber s
  let (minute, s) ← takeNumber 2 (← takeMark ':' s)
  let (second, s) ← takeNumber 2 (← takeMark ':' s)
  let (fraction, s) := match s with
    | '.' :: rest => rest.span Text.isDigit
    | s => ([], s)
  let zone ← stampZone? s
  some ((hour, minute, second, fraction), zone)

def stamp? (s : Text) : Option Stamp := do
  let (year, s) ← takeNumber 4 s
  let afterYear ← takeMark '-' s
  let (month, s) ← shortNumber afterYear
  let afterMonth ← takeMark '-' s
  let (day, rest) ← shortNumber afterMonth
  let padded : Bool := afterYear.length = s.length + 2 ∧ afterMonth.length = rest.length + 2
  match rest with
  | [] => some ⟨year, month, day, none, none, padded⟩
  | rest =>
    let (clock, zone) ← stampClock? rest
    some ⟨year, month, day, some clock, zone, padded⟩

/-- Whether a text looks like a date or a moment. A date alone needs all its digits. -/
def looksTimestamp (s : Text) : Bool :=
  match stamp? s with
  | some t => t.clock.isSome || t.padded
  | none => false

def Tag.ofPlain (s : Text) : Tag :=
  if s ∈ boolWords then .bool
  else if looksFloat s then .float
  else if looksInt s then .int
  else if s = "<<".toText then .merge
  else if s ∈ nullWords then .null
  else if looksTimestamp s then .timestamp
  else if s = "=".toText then .value
  else if s ∈ ["!", "&", "*"].map (·.toText) then .unknown
  else .str

def readBool? (s : Text) : Option Bool :=
  let w := Text.lower s
  if w ∈ ["yes", "true", "on"].map (·.toText) then some true
  else if w ∈ ["no", "false", "off"].map (·.toText) then some false
  else none

/-- Digits in a base, with blanks around them, a sign and the mark of the base allowed. -/
def readDigits? (base : Nat) (mark : Option CodePoint) (s : Text) : Option Int :=
  let (negative, s) := Binary64.splitSign (Text.strip s)
  let ds := match s with
    | '0' :: c :: rest => if (Text.lower [c]).head? = mark then rest else s
    | s => s
  match ds.mapM Text.hexValue? with
  | some (v :: vs) =>
    if (v :: vs).all (· < base) then
      let n : Int := Text.ofDigits base (v :: vs)
      some (if negative then -n else n)
    else none
  | _ => none

def readDecimal? (s : Text) : Option Int :=
  if s.length ≤ 4300 then readDigits? 10 none s else none

def sexagesimal : List Int → Int
  | [] => 0
  | d :: ds => d + 60 * sexagesimal ds

def readInt? (s : Text) : Option Int := do
  let s := s.filter (· ≠ char '_')
  let (negative, s) := Binary64.splitSign s
  let n ← (match s with
    | [] => none
    | ['0'] => some 0
    | '0' :: 'b' :: ds => readDigits? 2 (some 'b') ds
    | '0' :: 'x' :: ds => readDigits? 16 (some 'x') ds
    | '0' :: _ => readDigits? 8 (some 'o') s
    | s =>
      if char ':' ∈ s then do
        let parts ← (s.splitOn (char ':')).mapM readDecimal?
        some (sexagesimal parts.reverse)
      else readDecimal? s : Option Int)
  some (if negative then -n else n)

/-- The sum of parts in base sixty, the last one first, rounded at every step. -/
def sexagesimalSum : Binary64 → Int → List Binary64 → Binary64
  | sum, _, [] => sum
  | sum, base, d :: ds =>
    sexagesimalSum (sum.add (d.mul (Binary64.ofInt base))) (60 * base) ds

def readFloat? (s : Text) : Option Binary64 := do
  let s := Text.lower (s.filter (· ≠ '_'))
  if s = [] then none
  else
    let (negative, s) := Binary64.splitSign s
    let x ← (
      if s = ".inf".toText then some (.infinite false)
      else if s = ".nan".toText then some .nan
      else if char ':' ∈ s then do
        let parts ← (s.splitOn (char ':')).mapM fun p => Binary64.ofNumeral? (Text.strip p)
        some (sexagesimalSum (Binary64.zero false) 1 parts.reverse)
      else Binary64.ofNumeral? (Text.strip s) : Option Binary64)
    some (if negative then x.neg else x)

/-- The first six digits of a fraction as microseconds. -/
def microseconds (fraction : Text) : Nat :=
  let ds := fraction.take 6
  Text.decimal (ds ++ List.replicate (6 - ds.length) (char '0'))

def readTimestamp? (s : Text) : Option (Date ⊕ Moment) := do
  let t ← stamp? s
  let date ← Date.ofParts? t.year t.month t.day
  match t.clock with
  | none => some (.inl date)
  | some (hour, minute, second, fraction) =>
    let offset := t.zone.map fun (behind, hours, minutes) =>
      let size : Int := (hours * 60 + minutes) * 60000000
      if behind then -size else size
    let m ← Moment.ofParts? date hour minute second (microseconds fraction) offset
    some (.inr m)

def base64Value? (c : CodePoint) : Option Nat :=
  if 'A' ≤ c ∧ c ≤ 'Z' then some (c.toNat - 0x41)
  else if 'a' ≤ c ∧ c ≤ 'z' then some (c.toNat - 0x61 + 26)
  else if '0' ≤ c ∧ c ≤ '9' then some (c.toNat - 0x30 + 52)
  else if c = '+' then some 62
  else if c = '/' then some 63
  else none

/-- The bytes of digits of base sixty-four. The digits of a group of four are counted, the bits
left over from the last one are held, and so are the padding marks since. Other characters are
passed over; padding that completes a group ends the bytes. -/
def base64Bytes : (count held pads : Nat) → Text → Option (List UInt8)
  | count, _, _, [] => if count = 0 then some [] else none
  | count, held, pads, c :: s =>
    if c = '=' then
      if 2 ≤ count then
        if 4 ≤ count + pads + 1 then some [] else base64Bytes count held (pads + 1) s
      else base64Bytes count held pads s
    else
      match base64Value? c with
      | none => base64Bytes count held pads s
      | some v =>
        match count with
        | 0 => base64Bytes 1 v 0 s
        | 1 => (base64Bytes 2 (v % 16) 0 s).map ((held * 4 + v / 16).toUInt8 :: ·)
        | 2 => (base64Bytes 3 (v % 4) 0 s).map ((held * 16 + v / 4).toUInt8 :: ·)
        | _ => (base64Bytes 0 0 0 s).map ((held * 64 + v).toUInt8 :: ·)

/-- The bytes of a binary scalar, whose text has characters of seven bits only. -/
def readBinary? (s : Text) : Option (List UInt8) :=
  if s.all fun c => c.toNat < 0x80 then base64Bytes 0 0 0 s else none

end Phrasebook.Yaml
