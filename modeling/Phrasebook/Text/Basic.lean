import Phrasebook.Text.CodePoint

/-!
# Text

A text is the list of its code points. Everything the library reads, builds and prints is a `Text`;
packed strings appear only where a program meets its surroundings. This file holds the operations
that know nothing of templates: blanks and their removal at both ends, the inside of a bracketed
text, words joined by single spaces, and numerals.
-/

namespace Phrasebook

abbrev Text := List CodePoint

/-- Texts are equal when they have the same code points. -/
instance : LawfulBEq Text := inferInstance

end Phrasebook

def String.toText (s : String) : Phrasebook.Text :=
  s.toList.map Phrasebook.char

namespace Phrasebook

namespace Text

/-- A blank is a white space character: a control that moves the writing position, an information
separator, or a space, line or paragraph separator of any width. -/
def isBlank (c : CodePoint) : Bool :=
  let n := c.toNat
  (0x09 ≤ n && n ≤ 0x0D) || (0x1C ≤ n && n ≤ 0x20) || n == 0x85 || n == 0xA0 || n == 0x1680 ||
    (0x2000 ≤ n && n ≤ 0x200A) || n == 0x2028 || n == 0x2029 || n == 0x202F || n == 0x205F ||
    n == 0x3000

def stripEnd (s : Text) : Text :=
  (s.reverse.dropWhile isBlank).reverse

def strip (s : Text) : Text :=
  stripEnd (s.dropWhile isBlank)

def inside (s : Text) : Text :=
  (s.drop 1).dropLast

/-- Words written one after the other with a single space between two. -/
def unwords (ws : List Text) : Text :=
  List.intercalate [char ' '] ws

/-- The numeral of a number in a base, in lower case. -/
def inBase (base n : Nat) : Text :=
  (Nat.toDigits base n).map char

def ofNat (n : Nat) : Text :=
  inBase 10 n

def ofInt : Int → Text
  | .ofNat n => ofNat n
  | .negSucc n => char '-' :: ofNat (n + 1)

def hexValue? (c : CodePoint) : Option Nat :=
  if '0' ≤ c ∧ c ≤ '9' then some (c.toNat - 0x30)
  else if 'a' ≤ c ∧ c ≤ 'f' then some (c.toNat - 0x61 + 10)
  else if 'A' ≤ c ∧ c ≤ 'F' then some (c.toNat - 0x41 + 10)
  else none

def digitValue? (c : CodePoint) : Option Nat :=
  if '0' ≤ c ∧ c ≤ '9' then some (c.toNat - 0x30) else none

def isDigit (c : CodePoint) : Bool :=
  (digitValue? c).isSome

/-- The number that a list of digit values denotes in a base, most significant digit first. -/
def ofDigits (base : Nat) (ds : List Nat) : Nat :=
  ds.foldl (fun n d => base * n + d) 0

def decimal (ds : Text) : Nat :=
  ofDigits 10 (ds.filterMap digitValue?)

/-- The numeral of a number in a base, padded with zeros on the left to a width. -/
def padded (base width n : Nat) : Text :=
  let ds := inBase base n
  List.replicate (width - ds.length) (char '0') ++ ds

/-- A lower case letter in place of each of the twenty-six capitals; other characters stay. -/
def lower (s : Text) : Text :=
  s.map fun c : CodePoint => if 'A' ≤ c ∧ c ≤ 'Z' then CodePoint.ofNat (c.toNat + 32) else c

theorem mem_of_mem_stripEnd {c : CodePoint} {s : Text} (h : c ∈ stripEnd s) : c ∈ s := by
  have := (List.dropWhile_sublist isBlank (l := s.reverse)).subset (List.mem_reverse.1 h)
  exact List.mem_reverse.1 this

theorem mem_of_mem_strip {c : CodePoint} {s : Text} (h : c ∈ strip s) : c ∈ s :=
  (List.dropWhile_sublist isBlank).subset (mem_of_mem_stripEnd h)

theorem mem_of_mem_inside {c : CodePoint} {s : Text} (h : c ∈ inside s) : c ∈ s :=
  (List.drop_sublist 1 s).subset ((List.dropLast_sublist _).subset h)

end Text

end Phrasebook
