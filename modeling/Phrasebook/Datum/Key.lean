import Phrasebook.Datum.Basic
import Phrasebook.Number.Shortest
import Phrasebook.Text.Quoted

/-!
# Keys: sameness and labels

Keys are the same when they have the same value: truth values count as the numbers zero and one, an
integer is the same as a floating number of its value, and a text is never the same as bytes. A
label shows a key in a path: a text as it is, and anything else as the notation of its value.
-/

namespace Phrasebook

/-- The integer that a scalar has the value of, for truth values and integers. -/
def Scalar.integer? : Scalar → Option Int
  | bool b => some (if b then 1 else 0)
  | int n => some n
  | _ => none

def Scalar.same (s t : Scalar) : Bool :=
  match s, t with
  | float x, float y => x.same y
  | moment x, moment y => x.same y
  | float x, t => match t.integer? with
    | some n => x.sameInt n
    | none => false
  | s, float y => match s.integer? with
    | some n => y.sameInt n
    | none => false
  | s, t => match s.integer?, t.integer? with
    | some m, some n => m == n
    | _, _ => s == t

mutual

def Key.same : Key → Key → Bool
  | .scalar s, .scalar t => s.same t
  | .tuple ks, .tuple ls => Key.sameAll ks ls
  | _, _ => false

def Key.sameAll : List Key → List Key → Bool
  | [], [] => true
  | k :: ks, l :: ls => k.same l && Key.sameAll ks ls
  | _, _ => false

end

/-- Whether two keys of one document are the same. What is not a number is then one value. -/
def Key.sameInDocument (k l : Key) : Bool :=
  match k, l with
  | .scalar (.float .nan), .scalar (.float .nan) => true
  | k, l => k.same l

/-- Puts an entry into a mapping. An entry whose key is the same keeps its key and its place and
takes the new value; otherwise the entry goes to the end. -/
def Entries.insertBy (same : Key → Key → Bool) (key : Key) (value : Datum) : Entries → Entries
  | [] => [(key, value)]
  | (k, v) :: rest =>
    if same k key then (k, value) :: rest else (k, v) :: Entries.insertBy same key value rest

def Entries.ofList (same : Key → Key → Bool) (es : List (Key × Datum)) : Entries :=
  es.foldl (fun m e => Entries.insertBy same e.1 e.2 m) []

def commaSeparated (parts : List Text) : Text :=
  ", ".toText.intercalate parts

/-- The notation of a length of time by days, seconds and microseconds, the zero ones left out. -/
def durationNotation (micros : Int) : Text :=
  let days := Int.fdiv micros 86400000000
  let rest := (Int.fmod micros 86400000000).natAbs
  let part (name : String) (shown : Text) (isZero : Bool) : List Text :=
    if isZero then [] else [name.toText ++ char '=' :: shown]
  let parts := part "days" (Text.ofInt days) (days == 0) ++
    part "seconds" (Text.ofNat (rest / 1000000)) (rest / 1000000 == 0) ++
    part "microseconds" (Text.ofNat (rest % 1000000)) (rest % 1000000 == 0)
  "datetime.timedelta(".toText ++ (if parts = [] then [char '0'] else commaSeparated parts) ++
    [char ')']

def offsetNotation (micros : Int) : Text :=
  if micros = 0 then "datetime.timezone.utc".toText
  else "datetime.timezone(".toText ++ durationNotation micros ++ [char ')']

def Date.notated (d : Date) : Text :=
  "datetime.date(".toText ++ commaSeparated ([d.year, d.month, d.day].map Text.ofNat) ++ [char ')']

/-- The notation of a moment, without the seconds and microseconds where these are zeros. -/
def Moment.notated (m : Moment) : Text :=
  let clock := [m.date.year, m.date.month, m.date.day, m.hour, m.minute]
  let fine := if m.microsecond ≠ 0 then [m.second, m.microsecond]
    else if m.second ≠ 0 then [m.second] else []
  let zone := match m.offset with
    | none => []
    | some o => ["tzinfo=".toText ++ offsetNotation o]
  "datetime.datetime(".toText ++ commaSeparated ((clock ++ fine).map Text.ofNat ++ zone) ++
    [char ')']

def Scalar.notated : Scalar → Text
  | null => "None".toText
  | bool b => if b then "True".toText else "False".toText
  | int n => Text.ofInt n
  | float x => x.numeral
  | text t => Text.quoted t
  | bytes bs => Text.quotedBytes bs
  | date d => d.notated
  | moment m => m.notated

mutual

def Key.notated : Key → Text
  | .scalar s => s.notated
  | .tuple ks =>
    match Key.notatedAll ks with
    | [p] => char '(' :: p ++ [char ',', char ')']
    | ps => char '(' :: commaSeparated ps ++ [char ')']

def Key.notatedAll : List Key → List Text
  | [] => []
  | k :: ks => k.notated :: Key.notatedAll ks

end

/-- The label of a key in a path: texts, dates and moments plainly, the rest by their notation. -/
def Key.label : Key → Text
  | .scalar (.text t) => t
  | .scalar (.date d) => d.iso
  | .scalar (.moment m) => m.iso ' '
  | k => k.notated

end Phrasebook
