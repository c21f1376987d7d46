import Phrasebook.Text.Basic

/-!
# A place in a YAML text

A cursor is what is left of a text together with its place: how many characters were read, on which
line it stands and in which column. The end of the text is met as the character zero, which no
document may contain.
-/

namespace Phrasebook.Yaml

inductive Fault where
  /-- A character that a document may not contain. -/
  | forbiddenCharacter
  /-- A character that begins no token. -/
  | strayCharacter
  /-- A key that its line does not end with a colon. -/
  | missingColon
  /-- A sequence entry, a key or a value where none may stand. -/
  | misplacedEntry
  | misplacedKey
  | misplacedValue
  | malformedDirective
  | malformedAnchor
  | malformedTag
  | malformedHeader
  | malformedEscape
  /-- A quoted scalar that the text or the document ends before its mark. -/
  | unterminatedScalar
  /-- A token that the grammar does not allow at its place. -/
  | unexpectedToken
  | undefinedAlias
  | duplicateAnchor
  /-- More than one document. -/
  | extraDocument
  | unknownTag
  | wrongKind
  | malformedScalar
  | unhashableKey
  | malformedMerge
  deriving DecidableEq, Repr

/-- The character that stands for the end of the text. -/
def endMark : CodePoint := '\x00'

def isAllowed (c : CodePoint) : Bool :=
  let n := c.toNat
  n = 0x09 || n = 0x0A || n = 0x0D || (0x20 ≤ n && n ≤ 0x7E) || n = 0x85 ||
    (0xA0 ≤ n && n ≤ 0xD7FF) || (0xE000 ≤ n && n ≤ 0xFFFD) || 0x10000 ≤ n

def isBreak (c : CodePoint) : Bool :=
  c = '\n' || c = '\r' || c = '\x85' || c = '\u2028' || c = '\u2029'

def isBreakOrEnd (c : CodePoint) : Bool :=
  c = endMark || isBreak c

def isSpaceOrEnd (c : CodePoint) : Bool :=
  c = ' ' || isBreakOrEnd c

def isGapOrEnd (c : CodePoint) : Bool :=
  c = '\t' || isSpaceOrEnd c

/-- Whether a character may stand in the name of an anchor, a directive or a tag handle. -/
def isNameChar (c : CodePoint) : Bool :=
  ('0' ≤ c && c ≤ '9') || ('A' ≤ c && c ≤ 'Z') || ('a' ≤ c && c ≤ 'z') || c = '-' || c = '_'

/-- What is left of a text, and where. -/
structure Cursor where
  rest : Text
  index : Nat
  line : Nat
  column : Nat
  deriving DecidableEq, Repr

namespace Cursor

def ofText (s : Text) : Cursor :=
  ⟨s, 0, 0, 0⟩

def peekAt (c : Cursor) (n : Nat) : CodePoint :=
  (c.rest.drop n).headD endMark

def peek (c : Cursor) : CodePoint :=
  c.rest.headD endMark

/-- The cursor behind its character. A byte order mark takes up no column. -/
def step (c : Cursor) : Cursor :=
  match c.rest with
  | [] => c
  | ch :: rest =>
    if isBreak ch && !(ch = '\r' && rest.head? = some '\n') then ⟨rest, c.index + 1, c.line + 1, 0⟩
    else if ch = '\uFEFF' then ⟨rest, c.index + 1, c.line, c.column⟩
    else ⟨rest, c.index + 1, c.line, c.column + 1⟩

def advance : Nat → Cursor → Cursor
  | 0, c => c
  | n + 1, c => advance n c.step

def takeWhile (p : CodePoint → Bool) (c : Cursor) : Text × Cursor :=
  let run := c.rest.takeWhile p
  (run, c.advance run.length)

def skipWhile (p : CodePoint → Bool) (c : Cursor) : Cursor :=
  (c.takeWhile p).2

def skipSpaces (c : Cursor) : Cursor :=
  c.skipWhile (· = ' ')

/-- The cursor at the end of its line, if a comment stands at it. -/
def skipComment (c : Cursor) : Cursor :=
  if c.peek = '#' then c.skipWhile fun ch => !isBreakOrEnd ch else c

/-- The line break at the cursor as it counts in a scalar, and the cursor behind it. The breaks of
paragraphs and lines proper keep their own characters; there may be no break. -/
def lineBreak (c : Cursor) : Text × Cursor :=
  match c.rest with
  | '\r' :: '\n' :: _ => ([char '\n'], c.advance 2)
  | ch :: _ =>
    if ch = '\n' || ch = '\r' || ch = '\x85' then ([char '\n'], c.step)
    else if isBreak ch then ([ch], c.step)
    else ([], c)
  | [] => ([], c)

/-- Whether a mark of three characters that sets documents apart stands at the cursor. -/
def atMark (mark : CodePoint) (c : Cursor) : Bool :=
  c.rest.take 3 = [mark, mark, mark] && isGapOrEnd (c.peekAt 3)

def atSeparator (c : Cursor) : Bool :=
  c.atMark '-' || c.atMark '.'

/-- The cursor at the next line, where the rest of its own may only hold a comment. -/
def endOfHeader (fault : Fault) (c : Cursor) : Except Fault Cursor :=
  let c := c.skipSpaces.skipComment
  if isBreakOrEnd c.peek then .ok c.lineBreak.2 else .error fault

end Cursor

end Phrasebook.Yaml
