import Phrasebook.Text.Printable

/-!
# Quoted text

A message that names a text shows it between quote marks, so that its ends and the characters that
cannot be seen are plain. The mark is the apostrophe, unless the text holds an apostrophe and no
double mark. The mark and the backslash are escaped, and so is every character that is not
printable, by a letter or by its number in two, four or eight hexadecimal digits.
-/

namespace Phrasebook.Text

def quoteMark (s : Text) : CodePoint :=
  if char '\x27' ∈ s ∧ char '\x22' ∉ s then '\x22' else '\x27'

/-- The number of a character as an escape of two, four or eight hexadecimal digits. -/
def numbered (n : Nat) : Text :=
  if n < 0x100 then char '\\' :: char 'x' :: padded 16 2 n
  else if n < 0x10000 then char '\\' :: char 'u' :: padded 16 4 n
  else char '\\' :: char 'U' :: padded 16 8 n

/-- The text with the number of every half in its place. -/
def numberHalves (s : Text) : Text :=
  s.flatMap fun c => match c with
    | .char c => [char c]
    | .half place => numbered (CodePoint.half place).toNat

def quotedChar (mark c : CodePoint) : Text :=
  if c = mark ∨ c = '\\' then ['\\', c]
  else if c = '\n' then [char '\\', char 'n']
  else if c = '\r' then [char '\\', char 'r']
  else if c = '\t' then [char '\\', char 't']
  else if isPrintable c then [c]
  else numbered c.toNat

def quoted (s : Text) : Text :=
  let mark := quoteMark s
  mark :: s.flatMap (quotedChar mark) ++ [mark]

/-- A byte string between quote marks, with the letter `b` before them. Only the printable
characters of seven bits stand for themselves. -/
def quotedBytes (bytes : List UInt8) : Text :=
  let s := bytes.map fun b => CodePoint.ofNat b.toNat
  let mark := quoteMark s
  let shown (c : CodePoint) : Text := if c.toNat < 0x7F then quotedChar mark c else numbered c.toNat
  char 'b' :: mark :: s.flatMap shown ++ [mark]

example : quoted "it's".toText = "\x22it's\x22".toText := by decide
example : quoted "a\\b\n".toText = "'a\\\\b\\n'".toText := by decide

end Phrasebook.Text
