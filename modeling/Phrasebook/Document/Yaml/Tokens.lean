import Phrasebook.Document.Yaml.Token

/-!
# The row of tokens of a YAML text

Blocks have no brackets: they begin where a line is indented further than the block around it, and
end where one is indented less. A key is recognized only at its colon, which may come after several
tokens, so the places where a key may have begun are remembered, one for each level of flow
collections, and the mark of the key is put in there later. Such a key has one line and at most
1024 characters.
-/

namespace Phrasebook.Yaml

structure KeyPlace where
  /-- The level of flow collections. -/
  level : Nat
  /-- The number of tokens before it. -/
  number : Nat
  /-- Whether nothing but a key can stand there. -/
  required : Bool
  index : Nat
  line : Nat
  column : Nat
  deriving DecidableEq, Repr

structure Scanner where
  cursor : Cursor
  /-- The number of flow collections that are open. -/
  flow : Nat
  /-- The indentation of the innermost block, and of those around it. -/
  indent : Int
  outer : List Int
  /-- Whether a key may begin at the cursor. -/
  keyAllowed : Bool
  places : List KeyPlace
  /-- The tokens read so far, the last one first. -/
  tokens : List Token
  deriving Repr

namespace Scanner

def ofText (s : Text) : Scanner :=
  ⟨Cursor.ofText s, 0, -1, [], true, [], []⟩

def emit (t : Token) (s : Scanner) : Scanner :=
  { s with tokens := t :: s.tokens }

def emitAt (number : Nat) (t : Token) (s : Scanner) : Scanner :=
  let after := s.tokens.length - number
  { s with tokens := s.tokens.take after ++ t :: s.tokens.drop after }

def advance (n : Nat) (s : Scanner) : Scanner :=
  { s with cursor := s.cursor.advance n }

/-- The places where keys may still come about. One on an earlier line or too far back is past. -/
def dropStale (s : Scanner) : Except Fault Scanner :=
  let fresh (p : KeyPlace) : Bool := p.line = s.cursor.line && s.cursor.index ≤ p.index + 1024
  if s.places.any fun p => p.required && !fresh p then .error .missingColon
  else .ok { s with places := s.places.filter fresh }

/-- No key can come about any more at the present level. -/
def dropPlace (s : Scanner) : Except Fault Scanner :=
  let here (p : KeyPlace) : Bool := p.level = s.flow
  if s.places.any fun p => here p && p.required then .error .missingColon
  else .ok { s with places := s.places.filter fun p => !here p }

/-- Remembers the cursor as a place where a key may begin, where one may. -/
def savePlace (s : Scanner) : Except Fault Scanner :=
  if s.keyAllowed then do
    let s ← s.dropPlace
    let c := s.cursor
    let required : Bool := s.flow = 0 && s.indent = c.column
    .ok { s with
      places := ⟨s.flow, s.tokens.length, required, c.index, c.line, c.column⟩ :: s.places }
  else .ok s

def unwindTo (column : Int) : Int → List Int → List Token → Int × List Int × List Token
  | indent, [], tokens => (indent, [], tokens)
  | indent, next :: outer, tokens =>
    if column < indent then unwindTo column next outer (.blockEnd :: tokens)
    else (indent, next :: outer, tokens)

/-- Ends the blocks that are indented further than a column. Flow collections are not indented. -/
def unwind (column : Int) (s : Scanner) : Scanner :=
  if s.flow = 0 then
    let (indent, outer, tokens) := unwindTo column s.indent s.outer s.tokens
    { s with indent, outer, tokens }
  else s

def indentTo (column : Nat) (s : Scanner) : Option Scanner :=
  if s.indent < column then some { s with indent := column, outer := s.indent :: s.outer } else none

def openBlock (t : Token) (s : Scanner) : Scanner :=
  match s.indentTo s.cursor.column with
  | some s => s.emit t
  | none => s

/-- The cursor behind spaces, comments and line breaks. Outside flow collections a key may begin on
a new line. -/
def skipBlank : Nat → Scanner → Scanner
  | 0, s => s
  | fuel + 1, s =>
    match s.cursor.skipSpaces.skipComment.lineBreak with
    | ([], c) => { s with cursor := c }
    | (_, c) => skipBlank fuel { s with cursor := c, keyAllowed := s.keyAllowed || s.flow = 0 }

/-- The scanner at its next token. A byte order mark is passed over at the start of the text. -/
def toNextToken (s : Scanner) : Scanner :=
  let c := s.cursor
  let c := if c.index = 0 ∧ c.peek = '\uFEFF' then c.step else c
  skipBlank (c.rest.length + 1) { s with cursor := c }

/-- A token that stands outside all blocks: a directive, or a mark between documents. -/
def outsideBlocks (s : Scanner) : Except Fault Scanner := do
  let s ← (s.unwind (-1)).dropPlace
  .ok { s with keyAllowed := false }

def separator (t : Token) (s : Scanner) : Except Fault Scanner := do
  let s ← s.outsideBlocks
  .ok ((s.advance 3).emit t)

def openFlow (t : Token) (s : Scanner) : Except Fault Scanner := do
  let s ← s.savePlace
  .ok (({ s with flow := s.flow + 1, keyAllowed := true }.advance 1).emit t)

def closeFlow (t : Token) (s : Scanner) : Except Fault Scanner := do
  let s ← s.dropPlace
  if s.flow = 0 then .error .unexpectedToken
  else .ok (({ s with flow := s.flow - 1, keyAllowed := false }.advance 1).emit t)

def flowEntry (s : Scanner) : Except Fault Scanner := do
  let s ← s.dropPlace
  .ok (({ s with keyAllowed := true }.advance 1).emit .flowEntry)

def blockEntry (s : Scanner) : Except Fault Scanner := do
  if s.flow = 0 ∧ !s.keyAllowed then .error .misplacedEntry
  else
    let s := if s.flow = 0 then s.openBlock .blockSequence else s
    let s ← s.dropPlace
    .ok (({ s with keyAllowed := true }.advance 1).emit .blockEntry)

def explicitKey (s : Scanner) : Except Fault Scanner := do
  if s.flow = 0 ∧ !s.keyAllowed then .error .misplacedKey
  else
    let s := if s.flow = 0 then s.openBlock .blockMapping else s
    let s ← s.dropPlace
    .ok (({ s with keyAllowed := s.flow = 0 }.advance 1).emit .key)

/-- The colon before a value. If a key may have begun at this level, it has: its mark is put in,
and before that the mark of the block that it begins, if any. -/
def value (s : Scanner) : Except Fault Scanner := do
  let here (p : KeyPlace) : Bool := p.level = s.flow
  match s.places.find? here with
  | some p =>
    let s := { s with places := s.places.filter fun q => !here q }
    let s := s.emitAt p.number .key
    let s := if s.flow = 0 then
        match s.indentTo p.column with
        | some s => s.emitAt p.number .blockMapping
        | none => s
      else s
    .ok (({ s with keyAllowed := false }.advance 1).emit .value)
  | none =>
    if s.flow = 0 ∧ !s.keyAllowed then .error .misplacedValue
    else
      let s := if s.flow = 0 then s.openBlock .blockMapping else s
      let s ← { s with keyAllowed := s.flow = 0 }.dropPlace
      .ok ((s.advance 1).emit .value)

/-- A token that may be a key or the start of one, and that no key follows. -/
def keyLike (read : Cursor → Except Fault (Token × Cursor)) (s : Scanner) :
    Except Fault Scanner := do
  let s ← s.savePlace
  let (t, c) ← read s.cursor
  .ok ({ s with cursor := c, keyAllowed := false }.emit t)

/-- A plain scalar. A key may follow it on a new line. -/
def plain (s : Scanner) : Except Fault Scanner := do
  let s ← s.savePlace
  let (text, c, crossed) := plainScalar (s.flow ≠ 0) (s.indent + 1) s.cursor
  .ok ({ s with cursor := c, keyAllowed := crossed }.emit (.scalar true text))

def block (fold : Bool) (s : Scanner) : Except Fault Scanner := do
  let s ← { s with keyAllowed := true }.dropPlace
  let (text, c) ← blockScalar fold s.indent s.cursor
  .ok ({ s with cursor := c }.emit (.scalar false text))

def quotedToken (double : Bool) (c : Cursor) : Except Fault (Token × Cursor) := do
  let (text, c) ← quotedScalar double c
  .ok (.scalar false text, c)

def namedToken (make : Text → Token) (c : Cursor) : Except Fault (Token × Cursor) := do
  let (name, c) ← anchorName c
  .ok (make name, c)

def plainBegins (s : Scanner) : Bool :=
  let ch := s.cursor.peek
  let inked : Bool := !isGapOrEnd (s.cursor.peekAt 1)
  if isGapOrEnd ch then false
  else if ch = '-' then inked
  else if ch = '?' || ch = ':' then inked && s.flow = 0
  else !",[]\x7b\x7d#&*!|>'\x22%@\x60".toText.contains ch

/-- The row with the token at the cursor, which is not at the end of the text. -/
def token (s : Scanner) : Except Fault Scanner :=
  let c := s.cursor
  let gapNext := isGapOrEnd (c.peekAt 1)
  let inBlock : Bool := s.flow = 0
  let lineStart : Bool := c.column = 0
  let ch := c.peek
  if ch = '%' && lineStart then do
    let s ← s.outsideBlocks
    let (t, c) ← directiveToken s.cursor
    .ok ({ s with cursor := c }.emit t)
  else if lineStart && c.atMark '-' then s.separator .documentStart
  else if lineStart && c.atMark '.' then s.separator .documentEnd
  else if ch = '[' then s.openFlow .flowSequence
  else if ch = '\x7b' then s.openFlow .flowMapping
  else if ch = ']' then s.closeFlow .flowSequenceEnd
  else if ch = '\x7d' then s.closeFlow .flowMappingEnd
  else if ch = ',' then s.flowEntry
  else if ch = '-' && gapNext then s.blockEntry
  else if ch = '?' && (!inBlock || gapNext) then s.explicitKey
  else if ch = ':' && (!inBlock || gapNext) then s.value
  else if ch = '*' then s.keyLike (namedToken .alias)
  else if ch = '&' then s.keyLike (namedToken .anchor)
  else if ch = '!' then s.keyLike tagToken
  else if ch = '|' && inBlock then s.block false
  else if ch = '>' && inBlock then s.block true
  else if ch = '\x27' then s.keyLike (quotedToken false)
  else if ch = '\x22' then s.keyLike (quotedToken true)
  else if s.plainBegins then s.plain
  else .error .strayCharacter

/-- The row up to the end of the text. Every token takes a character. -/
def run : Nat → Scanner → Except Fault Scanner
  | 0, s => .ok s
  | fuel + 1, s => do
    let s ← s.toNextToken.dropStale
    let s := s.unwind s.cursor.column
    if s.cursor.rest = [] then s.outsideBlocks
    else do
      let s ← s.token
      run fuel s

end Scanner

def tokens (text : Text) : Except Fault (List Token) :=
  if text.all isAllowed then do
    let s ← Scanner.run (text.length + 1) (Scanner.ofText text)
    .ok s.tokens.reverse
  else .error .forbiddenCharacter

end Phrasebook.Yaml
