import Phrasebook.Document.Json.Basic
import Phrasebook.Number.Shortest

/-!
# Printing JSON

A value is printed over several lines, each level indented by two spaces more, the members of an
object in the order of their names, and every character outside the printable ones of seven bits by
its number. Empty arrays and objects stay on one line.
-/

namespace Phrasebook.Json

/-- An escape by number: four hexadecimal digits, or a pair of four for a number above them. -/
def numberEscaped (n : Nat) : Text :=
  if n < 0x10000 then char '\\' :: char 'u' :: Text.padded 16 4 n
  else
    let m := n - 0x10000
    char '\\' :: char 'u' :: Text.padded 16 4 (0xD800 + m / 0x400) ++
      char '\\' :: char 'u' :: Text.padded 16 4 (0xDC00 + m % 0x400)

def printedChar (c : CodePoint) : Text :=
  match c with
  | '\x22' => [char '\\', char '\x22']
  | '\\' => [char '\\', char '\\']
  | '\n' => [char '\\', char 'n']
  | '\r' => [char '\\', char 'r']
  | '\t' => [char '\\', char 't']
  | '\x0c' => [char '\\', char 'f']
  | '\x08' => [char '\\', char 'b']
  | c => if 0x20 ≤ c.toNat ∧ c.toNat < 0x7F then [c] else numberEscaped c.toNat

def printedText (t : Text) : Text :=
  char '\x22' :: t.flatMap printedChar ++ [char '\x22']

/-- A line break and the indentation of a level. -/
def newLine (level : Nat) : Text :=
  char '\n' :: List.replicate (2 * level) ' '

/-- Parts of a level between brackets, one to a line. -/
def bracketed (opener closer : CodePoint) (level : Nat) (parts : List Text) : Text :=
  match parts with
  | [] => [opener, closer]
  | parts =>
    opener :: newLine (level + 1) ++ (char ',' :: newLine (level + 1)).intercalate parts ++
      newLine level ++ [closer]

/-- Whether a member may stand before another one in the order of names. -/
def byName {α : Type} (a b : Text × α) : Bool :=
  !b.1.lex a.1 (· < ·)

def printedReal : Binary64 → Text
  | .nan => "NaN".toText
  | .infinite s => if s then "-Infinity".toText else "Infinity".toText
  | x => x.numeral

mutual

def printAt (level : Nat) : Json → Text
  | null => "null".toText
  | bool b => if b then "true".toText else "false".toText
  | int n => Text.ofInt n
  | real x => printedReal x
  | text t => printedText t
  | array items => bracketed '[' ']' level (printItems (level + 1) items)
  | object members =>
    let printed := (printMembers (level + 1) members).mergeSort byName
    bracketed '\x7b' '\x7d' level (printed.map (·.2))

def printItems (level : Nat) : List Json → List Text
  | [] => []
  | j :: rest => printAt level j :: printItems level rest

def printMembers (level : Nat) : List (Text × Json) → List (Text × Text)
  | [] => []
  | (name, j) :: rest =>
    (name, printedText name ++ ": ".toText ++ printAt level j) :: printMembers level rest

end

def print (j : Json) : Text :=
  printAt 0 j

end Phrasebook.Json
