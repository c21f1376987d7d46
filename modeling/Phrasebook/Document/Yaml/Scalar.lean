import Phrasebook.Document.Yaml.Cursor

/-!
# Scalars of a YAML text

The text of a scalar is not always what stands on the page. Lines of plain and quoted scalars are
folded into one, their breaks becoming spaces; quoted scalars have escapes; block scalars keep or
fold their lines and cut their indentation. Each reader starts at the first character of the scalar
and gives the text and the cursor behind it.
-/

namespace Phrasebook.Yaml

/-- A folded break: a space for a single plain one, otherwise the breaks after it. -/
def folded (first breaks : Text) : Text :=
  if first ≠ [char '\n'] then first ++ breaks
  else if breaks = [] then [char ' '] else breaks

/-- The length of the run of characters that a plain scalar has at the front of a text. Inside flow
collections their punctuation ends it too. -/
def plainRun (flow : Bool) : Text → Nat
  | [] => 0
  | c :: rest =>
    let next := rest.headD endMark
    if isGapOrEnd c then 0
    else if c = ':' && (isGapOrEnd next || (flow && ",[]\x7b\x7d".toText.contains next)) then 0
    else if flow && ",?[]\x7b\x7d".toText.contains c then 0
    else plainRun flow rest + 1

/-- Breaks and the spaces around them, up to other text: the breaks, or none at the edge of the
document. -/
def plainBreaks : Nat → Cursor → Option Text × Cursor
  | 0, c => (some [], c)
  | fuel + 1, c =>
    if c.peek = ' ' then plainBreaks fuel c.step
    else if isBreak c.peek then
      let (b, c) := c.lineBreak
      if c.atSeparator then (none, c)
      else
        let (bs, c) := plainBreaks fuel c
        (bs.map (b ++ ·), c)
    else (some [], c)

/-- What stands between two runs of a plain scalar, as it counts in its text, and whether a line
ended there. Nothing stands at the edge of the document. -/
def plainGap (c : Cursor) : Text × Cursor × Bool :=
  let (spaces, c) := c.takeWhile (· = ' ')
  if isBreak c.peek then
    let (b, c) := c.lineBreak
    if c.atSeparator then ([], c, true)
    else
      match plainBreaks c.rest.length c with
      | (none, c) => ([], c, true)
      | (some bs, c) => (folded b bs, c, true)
  else (spaces, c, false)

/-- The runs of a plain scalar from one that begins at the cursor, with the gap before it. The last
component tells whether a line ended behind the last run that was read. -/
def plainRuns (flow : Bool) (indent : Int) : Nat → Text → Bool → Cursor → Text × Cursor × Bool
  | 0, _, crossed, c => ([], c, crossed)
  | fuel + 1, gap, crossed, c =>
    let n := plainRun flow c.rest
    if c.peek = '#' ∨ n = 0 then ([], c, crossed)
    else
      let run := gap ++ c.rest.take n
      let (next, c, crossed) := plainGap (c.advance n)
      if next = [] ∨ c.peek = '#' ∨ (!flow ∧ c.column < indent) then (run, c, crossed)
      else
        let (more, c, crossed) := plainRuns flow indent fuel next crossed c
        (run ++ more, c, crossed)

/-- A plain scalar that may go on over lines of at least an indentation. -/
def plainScalar (flow : Bool) (indent : Int) (c : Cursor) : Text × Cursor × Bool :=
  plainRuns flow indent (c.rest.length + 1) [] false c

def escape? : CodePoint → Option CodePoint
  | '0' => some '\x00'
  | 'a' => some '\x07'
  | 'b' => some '\x08'
  | 't' => some '\t'
  | '\t' => some '\t'
  | 'n' => some '\n'
  | 'v' => some '\x0b'
  | 'f' => some '\x0c'
  | 'r' => some '\r'
  | 'e' => some '\x1b'
  | ' ' => some ' '
  | '\x22' => some '\x22'
  | '\\' => some '\\'
  | '/' => some '/'
  | 'N' => some '\x85'
  | '_' => some '\xa0'
  | 'L' => some '\u2028'
  | 'P' => some '\u2029'
  | _ => none

def escapeDigits? : CodePoint → Option Nat
  | 'x' => some 2
  | 'u' => some 4
  | 'U' => some 8
  | _ => none

/-- The character of an escape by number at the cursor, which stands at its first digit. -/
def numberedEscape (digits : Nat) (c : Cursor) : Except Fault (CodePoint × Cursor) :=
  match (c.rest.take digits).mapM Text.hexValue? with
  | some ds =>
    let n := Text.ofDigits 16 ds
    if ds.length = digits ∧ n < 0x110000 then .ok (CodePoint.ofNat n, c.advance digits)
    else .error .malformedEscape
  | none => .error .malformedEscape

def quotedBreaks : Nat → Cursor → Except Fault (Text × Cursor)
  | 0, c => .ok ([], c)
  | fuel + 1, c =>
    if c.atSeparator then .error .unterminatedScalar
    else
      let c := c.skipWhile fun ch => ch = ' ' || ch = '\t'
      if isBreak c.peek then do
        let (b, c) := c.lineBreak
        let (bs, c) ← quotedBreaks fuel c
        .ok (b ++ bs, c)
      else .ok ([], c)

/-- The blanks at the cursor inside a quoted scalar, folded if a line ends there. -/
def quotedGap (c : Cursor) : Except Fault (Text × Cursor) :=
  let (blanks, c) := c.takeWhile fun ch => ch = ' ' || ch = '\t'
  if c.rest = [] then .error .unterminatedScalar
  else if isBreak c.peek then do
    let (b, c) := c.lineBreak
    let (bs, c) ← quotedBreaks (c.rest.length + 1) c
    .ok (folded b bs, c)
  else .ok (blanks, c)

/-- The characters of a quoted scalar up to the next blank or its closing mark. -/
def quotedRun (double : Bool) : Nat → Cursor → Except Fault (Text × Cursor)
  | 0, c => .ok ([], c)
  | fuel + 1, c =>
    let ch := c.peek
    if isGapOrEnd ch then .ok ([], c)
    else if ch = '\x27' then
      if double then do
        let (s, c) ← quotedRun double fuel c.step
        .ok (char '\x27' :: s, c)
      else if c.peekAt 1 = '\x27' then do
        let (s, c) ← quotedRun double fuel (c.advance 2)
        .ok (char '\x27' :: s, c)
      else .ok ([], c)
    else if ch = '\x22' ∧ double then .ok ([], c)
    else if ch = '\\' ∧ double then
      let c := c.step
      match escape? c.peek, escapeDigits? c.peek with
      | some d, _ => do
        let (s, c) ← quotedRun double fuel c.step
        .ok (d :: s, c)
      | none, some n => do
        let (d, c) ← numberedEscape n c.step
        let (s, c) ← quotedRun double fuel c
        .ok (d :: s, c)
      | none, none =>
        if isBreak c.peek then do
          let (_, c) := c.lineBreak
          let (bs, c) ← quotedBreaks (c.rest.length + 1) c
          let (s, c) ← quotedRun double fuel c
          .ok (bs ++ s, c)
        else .error .malformedEscape
    else do
      let (s, c) ← quotedRun double fuel c.step
      .ok (ch :: s, c)

/-- The gaps and runs of a quoted scalar up to its closing mark, and the cursor behind it. -/
def quotedRest (double : Bool) : Nat → Cursor → Except Fault (Text × Cursor)
  | 0, _ => .error .unterminatedScalar
  | fuel + 1, c =>
    if c.peek = (if double then '\x22' else '\x27') then .ok ([], c.step)
    else do
      let (gap, c) ← quotedGap c
      let (run, c) ← quotedRun double (c.rest.length + 1) c
      let (more, c) ← quotedRest double fuel c
      .ok (gap ++ run ++ more, c)

def quotedScalar (double : Bool) (c : Cursor) : Except Fault (Text × Cursor) := do
  let (run, c) ← quotedRun double (c.rest.length + 1) c.step
  let (more, c) ← quotedRest double (c.rest.length + 1) c
  .ok (run ++ more, c)

/-- What becomes of the line breaks at the end of a block scalar. -/
inductive Chomping where
  | strip
  | clip
  | keep
  deriving DecidableEq, Repr

def chomping? (c : Cursor) : Option Chomping :=
  if c.peek = '+' then some .keep else if c.peek = '-' then some .strip else none

def increment? (c : Cursor) : Except Fault (Option Nat) :=
  match Text.digitValue? c.peek with
  | none => .ok none
  | some 0 => .error .malformedHeader
  | some n => .ok (some n)

/-- The indicators of a block scalar, a sign and a digit in either order. -/
def blockHeader (c : Cursor) : Except Fault ((Chomping × Option Nat) × Cursor) := do
  let (chomp, increment, c) ← (match chomping? c with
    | some chomp => do
      let c := c.step
      let increment ← increment? c
      .ok (chomp, increment, if increment.isSome then c.step else c)
    | none => do
      match ← increment? c with
      | none => .ok (.clip, none, c)
      | some n =>
        let c := c.step
        match chomping? c with
        | some chomp => .ok (chomp, some n, c.step)
        | none => .ok (.clip, some n, c) : Except Fault (Chomping × Option Nat × Cursor))
  if isSpaceOrEnd c.peek then .ok ((chomp, increment), c) else .error .malformedHeader

/-- The breaks of the empty lines at the head of a block scalar, and their widest indentation. -/
def blockLead : Nat → Nat → Cursor → Text × Nat × Cursor
  | 0, widest, c => ([], widest, c)
  | fuel + 1, widest, c =>
    if c.peek = ' ' then
      let c := c.step
      blockLead fuel (max widest c.column) c
    else if isBreak c.peek then
      let (b, c) := c.lineBreak
      let (bs, widest, c) := blockLead fuel widest c
      (b ++ bs, widest, c)
    else ([], widest, c)

def skipIndent (indent : Int) : Nat → Cursor → Cursor
  | 0, c => c
  | fuel + 1, c => if c.column < indent ∧ c.peek = ' ' then skipIndent indent fuel c.step else c

def blockBreaks (indent : Int) : Nat → Cursor → Text × Cursor
  | 0, c => ([], c)
  | fuel + 1, c =>
    let c := skipIndent indent c.rest.length c
    if isBreak c.peek then
      let (b, c) := c.lineBreak
      let (bs, c) := blockBreaks indent fuel c
      (b ++ bs, c)
    else ([], c)

/-- The lines of a block scalar from one that begins at the cursor. The breaks before it are given;
the text goes with the last line's own break, and with the breaks of the empty lines after it. -/
def blockLines (fold : Bool) (indent : Int) : Nat → Text → Cursor → (Text × Text × Text) × Cursor
  | 0, breaks, c => (([], [], breaks), c)
  | fuel + 1, breaks, c =>
    if c.column = indent ∧ c.rest ≠ [] then
      let leading := c.peek ≠ ' ' ∧ c.peek ≠ '\t'
      let (line, c) := c.takeWhile fun ch => !isBreakOrEnd ch
      let (b, c) := c.lineBreak
      let (bs, c) := blockBreaks indent (c.rest.length + 1) c
      if c.column = indent ∧ c.rest ≠ [] then
        let joint :=
          if fold ∧ b = [char '\n'] ∧ leading ∧ c.peek ≠ ' ' ∧ c.peek ≠ '\t' then
            (if bs = [] then [char ' '] else [])
          else b
        let ((more, b, tail), c) := blockLines fold indent fuel bs c
        ((breaks ++ line ++ joint ++ more, b, tail), c)
      else ((breaks ++ line, b, bs), c)
    else (([], [], breaks), c)

/-- A block scalar from its sign on, inside a block of a given indentation. -/
def blockScalar (fold : Bool) (outer : Int) (c : Cursor) : Except Fault (Text × Cursor) := do
  let ((chomp, increment), c) ← blockHeader c.step
  let c ← c.endOfHeader .malformedHeader
  let least := max (outer + 1) 1
  let fuel := c.rest.length + 1
  let (breaks, indent, c) := match increment with
    | none =>
      let (bs, widest, c) := blockLead fuel 0 c
      (bs, max least widest, c)
    | some n =>
      let indent := least + n - 1
      let (bs, c) := blockBreaks indent fuel c
      (bs, indent, c)
  let ((text, last, tail), c) := blockLines fold indent fuel breaks c
  .ok (match chomp with
    | .strip => text
    | .clip => text ++ last
    | .keep => text ++ last ++ tail, c)

end Phrasebook.Yaml
