import Phrasebook.Document.Json.Basic
import Phrasebook.Number.Numeral

/-!
# Reading JSON

A text is read as one JSON value with blanks around it. The words for infinity and for what is not
a number are values too, and a numeral is the longest that stands at its place. A fault keeps how
much of the text was left where it showed, from which its place is told.
-/

namespace Phrasebook.Json

inductive Cause where
  | byteOrderMark
  | expectedValue
  | expectedName
  | expectedColon
  | expectedComma
  | extraData
  | unterminatedString
  | controlCharacter
  | invalidEscape
  | invalidNumberEscape
  /-- An integer of so many digits that it is not read. -/
  | tooManyDigits (digits : Nat)
  deriving DecidableEq, Repr

/-- A cause and the number of characters from its place to the end of the text. -/
structure Fault where
  cause : Cause
  left : Nat
  deriving DecidableEq, Repr

def maxDigits : Nat := 4300

def isSpace (c : CodePoint) : Bool :=
  c = ' ' || c = '\t' || c = '\n' || c = '\r'

def skipSpaces (s : Text) : Text :=
  s.dropWhile isSpace

def escaped? : CodePoint → Option CodePoint
  | '\x22' => some '\x22'
  | '\\' => some '\\'
  | '/' => some '/'
  | 'b' => some '\x08'
  | 'f' => some '\x0c'
  | 'n' => some '\n'
  | 'r' => some '\r'
  | 't' => some '\t'
  | _ => none

def fourDigits? (s : Text) : Option Nat :=
  match (s.take 4).mapM Text.hexValue? with
  | some [a, b, c, d] => some (Text.ofDigits 16 [a, b, c, d])
  | _ => none

def paired (high low : Nat) : CodePoint :=
  CodePoint.ofNat (0x10000 + (high - 0xD800) * 0x400 + (low - 0xDC00))

/-- The character of an escape by number, from behind the letter of the escape, and the rest. Two
escapes that are the halves of a pair are one character. The escape needs its digits and one
character more. -/
def numberEscape (s : Text) : Except Fault (CodePoint × Text) :=
  match s.drop 4, fourDigits? s with
  | [], _ => .error ⟨.invalidNumberEscape, s.length + 1⟩
  | _, none => .error ⟨.invalidNumberEscape, s.length + 1⟩
  | rest, some n =>
    if 0xD800 ≤ n ∧ n < 0xDC00 ∧ 6 < rest.length ∧ rest.take 2 = [char '\\', char 'u'] then
      let s2 := rest.drop 2
      match fourDigits? s2 with
      | none => .error ⟨.invalidNumberEscape, s2.length + 1⟩
      | some m =>
        if 0xDC00 ≤ m ∧ m < 0xE000 then .ok (paired n m, s2.drop 4)
        else .ok (CodePoint.ofNat n, rest)
    else .ok (CodePoint.ofNat n, rest)

/-- The characters of a string up to its closing mark, and the rest of the text. The place of the
opening mark is told by what was left there. -/
def stringBody (opened : Nat) : Nat → Text → Text → Except Fault (Text × Text)
  | 0, _, _ => .error ⟨.unterminatedString, opened⟩
  | _ + 1, _, [] => .error ⟨.unterminatedString, opened⟩
  | fuel + 1, read, c :: s =>
    if c = '\x22' then .ok (read.reverse, s)
    else if c = '\\' then
      match s with
      | [] => .error ⟨.unterminatedString, opened⟩
      | 'u' :: s => do
        let (d, rest) ← numberEscape s
        stringBody opened fuel (d :: read) rest
      | e :: rest =>
        match escaped? e with
        | none => .error ⟨.invalidEscape, s.length + 1⟩
        | some d => stringBody opened fuel (d :: read) rest
    else if c.toNat ≤ 0x1F then .error ⟨.controlCharacter, s.length + 1⟩
    else stringBody opened fuel (c :: read) s

def string (s : Text) : Except Fault (Text × Text) :=
  stringBody (s.length + 1) (s.length + 1) [] s

def digits (s : Text) : Text × Text :=
  s.span Text.isDigit

/-- The whole part of a numeral: a zero, or digits that begin with another one. -/
def wholePart? : Text → Option (Text × Text)
  | '0' :: s => some ([char '0'], s)
  | s =>
    match digits s with
    | ([], _) => none
    | (ds, rest) => some (ds, rest)

/-- The digits after the point of a numeral, if a point with digits after it stands there. -/
def fractionPart : Text → Text × Text
  | '.' :: s =>
    match digits s with
    | ([], _) => ([], char '.' :: s)
    | (ds, rest) => (ds, rest)
  | s => ([], s)

/-- The power of ten of a numeral, if its mark stands there with digits after it. -/
def powerPart? (s : Text) : Option (Int × Text) :=
  match s with
  | c :: rest =>
    if c = 'e' ∨ c = 'E' then
      let (negative, rest) := Binary64.splitSign rest
      match digits rest with
      | ([], _) => none
      | (ds, rest) =>
        some (if negative then -(Text.decimal ds : Int) else Text.decimal ds, rest)
    else none
  | [] => none

def number (s : Text) : Except Fault (Json × Text) :=
  let (negative, unsigned) := match s with
    | '-' :: rest => (true, rest)
    | rest => (false, rest)
  match wholePart? unsigned with
  | none => .error ⟨.expectedValue, s.length⟩
  | some (whole, rest) =>
    let (fraction, rest) := fractionPart rest
    match fraction, powerPart? rest with
    | [], none =>
      if maxDigits < whole.length then .error ⟨.tooManyDigits whole.length, s.length⟩
      else
        let n : Int := Text.decimal whole
        .ok (int (if negative then -n else n), rest)
    | _, none => .ok (real (Binary64.ofParts negative whole fraction 0), rest)
    | _, some (power, rest) => .ok (real (Binary64.ofParts negative whole fraction power), rest)

def words : List (Text × Json) :=
  [("null".toText, null), ("true".toText, bool true), ("false".toText, bool false),
   ("NaN".toText, real .nan), ("Infinity".toText, real (.infinite false)),
   ("-Infinity".toText, real (.infinite true))]

def word? (s : Text) : Option (Json × Text) :=
  (words.find? fun w => w.1.isPrefixOf s).map fun w => (w.2, s.drop w.1.length)

mutual

/-- The value at the front of a text, and the rest. -/
def value : Nat → Text → Except Fault (Json × Text)
  | 0, s => .error ⟨.expectedValue, s.length⟩
  | fuel + 1, s =>
    match s with
    | '\x22' :: rest => do
      let (t, rest) ← string rest
      .ok (text t, rest)
    | '\x7b' :: rest =>
      match skipSpaces rest with
      | '\x7d' :: rest => .ok (object [], rest)
      | rest => members fuel [] rest
    | '[' :: rest =>
      match skipSpaces rest with
      | ']' :: rest => .ok (array [], rest)
      | rest => items fuel [] rest
    | s =>
      match word? s with
      | some found => .ok found
      | none => number s

def members : Nat → List (Text × Json) → Text → Except Fault (Json × Text)
  | 0, _, s => .error ⟨.expectedName, s.length⟩
  | fuel + 1, read, s =>
    match s with
    | '\x22' :: rest => do
      let (name, rest) ← string rest
      match skipSpaces rest with
      | ':' :: rest =>
        let (j, rest) ← value fuel (skipSpaces rest)
        match skipSpaces rest with
        | '\x7d' :: rest => .ok (object ((name, j) :: read).reverse, rest)
        | ',' :: rest => members fuel ((name, j) :: read) (skipSpaces rest)
        | rest => .error ⟨.expectedComma, rest.length⟩
      | rest => .error ⟨.expectedColon, rest.length⟩
    | s => .error ⟨.expectedName, s.length⟩

def items : Nat → List Json → Text → Except Fault (Json × Text)
  | 0, _, s => .error ⟨.expectedValue, s.length⟩
  | fuel + 1, read, s => do
    let (j, rest) ← value fuel s
    match skipSpaces rest with
    | ']' :: rest => .ok (array (j :: read).reverse, rest)
    | ',' :: rest => items fuel (j :: read) (skipSpaces rest)
    | rest => .error ⟨.expectedComma, rest.length⟩

end

/-- The value that a text writes. Every step of the reader takes a character, or goes from a
bracket to what stands inside, so twice the length of the text bounds their number. -/
def read (s : Text) : Except Fault Json :=
  if s.head? = some '\uFEFF' then .error ⟨.byteOrderMark, s.length⟩
  else do
    let s := skipSpaces s
    let (j, rest) ← value (2 * s.length + 2) s
    match skipSpaces rest with
    | [] => .ok j
    | rest => .error ⟨.extraData, rest.length⟩

def Cause.phrase : Cause → Text
  | byteOrderMark => "Unexpected UTF-8 BOM (decode using utf-8-sig)".toText
  | expectedValue => "Expecting value".toText
  | expectedName => "Expecting property name enclosed in double quotes".toText
  | expectedColon => "Expecting ':' delimiter".toText
  | expectedComma => "Expecting ',' delimiter".toText
  | extraData => "Extra data".toText
  | unterminatedString => "Unterminated string starting at".toText
  | controlCharacter => "Invalid control character at".toText
  | invalidEscape => "Invalid \\escape".toText
  | invalidNumberEscape => "Invalid \\uXXXX escape".toText
  | tooManyDigits n =>
    "Exceeds the limit (4300 digits) for integer string conversion: value has ".toText ++
      Text.ofNat n ++ " digits; use sys.set_int_max_str_digits() to increase the limit".toText

/-- The sentence that explains a fault of a text, with its line, its column and its offset. Lines
and columns are counted from one. An integer that is too long has no place. -/
def Fault.message (whole : Text) (f : Fault) : Text :=
  let offset := whole.length - f.left
  let before := whole.take offset
  let line := before.count (char '\n') + 1
  let column := (before.reverse.takeWhile (· ≠ char '\n')).length + 1
  match f.cause with
  | .tooManyDigits _ => f.cause.phrase
  | cause =>
    cause.phrase ++ ": line ".toText ++ Text.ofNat line ++ " column ".toText ++ Text.ofNat column ++
      " (char ".toText ++ Text.ofNat offset ++ [char ')']

end Phrasebook.Json
