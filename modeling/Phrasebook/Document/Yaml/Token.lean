import Phrasebook.Document.Yaml.Scalar
import Phrasebook.Text.Utf8

/-!
# Tokens of a YAML text

Tokens are what the grammar of documents is written in: scalars, the names and types attached to
them, the punctuation of flow collections, and marks where blocks begin and end. This file holds
the tokens that are read by themselves, without knowledge of the blocks around them.
-/

namespace Phrasebook.Yaml

/-- A line that speaks about the document after it. -/
inductive Directive where
  | version (major : Nat)
  | handle (name replacement : Text)
  | other
  deriving DecidableEq, Repr

inductive Token where
  | directive (d : Directive)
  | documentStart
  | documentEnd
  | blockSequence
  | blockMapping
  | blockEnd
  | flowSequence
  | flowSequenceEnd
  | flowMapping
  | flowMappingEnd
  | flowEntry
  | blockEntry
  | key
  | value
  | alias (name : Text)
  | anchor (name : Text)
  /-- A type: a handle that stands for the head of its name, if there is one, and the rest. -/
  | tag (handle : Option Text) (suffix : Text)
  | scalar (plain : Bool) (text : Text)
  deriving DecidableEq, Repr

def isUriChar (c : CodePoint) : Bool :=
  isNameChar c || ";/?:@&=+$,_.!~*'()[]%".toText.contains c

/-- The bytes of escapes by a percent sign and two hexadecimal digits. -/
def uriBytes : Nat → Cursor → Except Fault (List UInt8 × Cursor)
  | 0, c => .ok ([], c)
  | fuel + 1, c =>
    match c.rest with
    | '%' :: a :: b :: _ =>
      match Text.hexValue? a, Text.hexValue? b with
      | some x, some y => do
        let (bytes, c) ← uriBytes fuel (c.advance 3)
        .ok ((16 * x + y).toUInt8 :: bytes, c)
      | _, _ => .error .malformedTag
    | '%' :: _ => .error .malformedTag
    | _ => .ok ([], c)

/-- The name of a type up to the first character that none may have. -/
def uriText : Nat → Cursor → Except Fault (Text × Cursor)
  | 0, c => .ok ([], c)
  | fuel + 1, c =>
    if c.peek = '%' then do
      let (bytes, c) ← uriBytes c.rest.length c
      match Text.Utf8.decode bytes with
      | .error _ => .error .malformedTag
      | .ok s =>
        let (more, c) ← uriText fuel c
        .ok (s ++ more, c)
    else if isUriChar c.peek then do
      let ch := c.peek
      let (more, c) ← uriText fuel c.step
      .ok (ch :: more, c)
    else .ok ([], c)

/-- The name of a type, which has at least one character or escape. -/
def uri (c : Cursor) : Except Fault (Text × Cursor) :=
  if isUriChar c.peek then uriText (c.rest.length + 1) c else .error .malformedTag

/-- A handle: an exclamation mark, or a name between two. -/
def tagHandle (c : Cursor) : Except Fault (Text × Cursor) :=
  match c.rest with
  | '!' :: ' ' :: _ => .ok ([char '!'], c.step)
  | '!' :: rest =>
    let name := rest.takeWhile isNameChar
    if (rest.drop name.length).head? = some '!' then
      .ok (char '!' :: name ++ [char '!'], c.advance (name.length + 2))
    else .error .malformedTag
  | _ => .error .malformedTag

def tagToken (c : Cursor) : Except Fault (Token × Cursor) := do
  let next := c.peekAt 1
  let ((handle, suffix), c) ← (
    if next = '<' then do
      let (suffix, c) ← uri (c.advance 2)
      if c.peek = '>' then .ok ((none, suffix), c.step) else .error .malformedTag
    else if isGapOrEnd next then .ok ((none, [char '!']), c.step)
    else if ((c.rest.drop 1).takeWhile fun ch => !isSpaceOrEnd ch).contains '!' then do
      let (handle, c) ← tagHandle c
      let (suffix, c) ← uri c
      .ok ((some handle, suffix), c)
    else do
      let (suffix, c) ← uri c.step
      .ok ((some [char '!'], suffix), c) : Except Fault ((Option Text × Text) × Cursor))
  if isSpaceOrEnd c.peek then .ok (.tag handle suffix, c) else .error .malformedTag

def anchorName (c : Cursor) : Except Fault (Text × Cursor) :=
  let (name, c) := c.step.takeWhile isNameChar
  if name ≠ [] ∧ (isGapOrEnd c.peek || "?:,]\x7d%@\x60".toText.contains c.peek) then .ok (name, c)
  else .error .malformedAnchor

def directiveNumber (c : Cursor) : Except Fault (Nat × Cursor) :=
  match c.takeWhile Text.isDigit with
  | ([], _) => .error .malformedDirective
  | (ds, c) => .ok (Text.decimal ds, c)

def versionDirective (c : Cursor) : Except Fault (Directive × Cursor) := do
  let (major, c) ← directiveNumber c.skipSpaces
  if c.peek = '.' then
    let (_, c) ← directiveNumber c.step
    if isSpaceOrEnd c.peek then .ok (.version major, c) else .error .malformedDirective
  else .error .malformedDirective

def handleDirective (c : Cursor) : Except Fault (Directive × Cursor) := do
  let (name, c) ← tagHandle c.skipSpaces
  if c.peek = ' ' then
    let (replacement, c) ← uri c.skipSpaces
    if isSpaceOrEnd c.peek then .ok (.handle name replacement, c) else .error .malformedDirective
  else .error .malformedDirective

def directiveToken (c : Cursor) : Except Fault (Token × Cursor) := do
  let (name, c) := c.step.takeWhile isNameChar
  if name = [] ∨ !isSpaceOrEnd c.peek then .error .malformedDirective
  else
    let (d, c) ← (
      if name = "YAML".toText then versionDirective c
      else if name = "TAG".toText then handleDirective c
      else .ok (.other, c.skipWhile fun ch => !isBreakOrEnd ch) :
      Except Fault (Directive × Cursor))
    let c ← c.endOfHeader .malformedDirective
    .ok (.directive d, c)

end Phrasebook.Yaml
