import Phrasebook.Template.Fault

/-!
# Reading a template as tokens

Blanks separate tokens except inside a group; a group and the word characters beside it are tokens
of their own. The scan goes through the template once, from left to right, and stops at the first
fault: a group is judged when its last bracket closes, a bracket as soon as it is met, and a group
left open only at the end.
-/

namespace Phrasebook.Template

/-- Splits the inside of a slot group at the first closing round bracket: the alternatives that
stand between the round brackets, and what follows them. Without such a bracket the alternatives
lack their last character and the whole inside follows them. -/
def slotParts (inside : Text) : Text × Text :=
  if char ')' ∈ inside then
    ((inside.takeWhile (· ≠ char ')')).drop 1, (inside.dropWhile (· ≠ char ')')).drop 1)
  else (Text.inside inside, inside)

def Token.ofGroup (template text : Text) : Except Fault Token :=
  if text.head? = some '(' then
    if (Text.inside text).any isBracket then .error (.nestedGroup text template)
    else .ok ⟨.alternation, text⟩
  else if char '(' ∈ Text.inside text then
    if (Text.inside text).head? = some '(' ∧
        (slotParts (Text.inside text)).1.any isBracket = false ∧
        (slotParts (Text.inside text)).2.any isBracket = false then
      .ok ⟨.slot, text⟩
    else .error (.malformedSlot text template)
  else .ok ⟨.word, text⟩

/-- A bracket that still waits for its partner, with the column where it stands. -/
structure Opening where
  shape : Shape
  column : Nat
  deriving DecidableEq, Repr

/-- The tokens of the rest of a template. The characters of the token under way are held back, and
the brackets open around the rest are listed with the innermost first. -/
def scan (template : Text) : Nat → Text → List Opening → Text → Except Fault (List Token)
  | _, run, [], [] => .ok (Token.ofRun run)
  | _, _, o :: _, [] => .error (.unclosedGroup o.shape o.column template)
  | column, held, [], c :: rest =>
    match bracket? c with
    | some (.opening s) => do
      let tokens ← scan template (column + 1) [c] [⟨s, column⟩] rest
      .ok (Token.ofRun held ++ tokens)
    | some (.closing s) => .error (.unexpectedCloser s column template)
    | none =>
      if Text.isBlank c then do
        let tokens ← scan template (column + 1) [] [] rest
        .ok (Token.ofRun held ++ tokens)
      else scan template (column + 1) (held ++ [c]) [] rest
  | column, held, o :: outer, c :: rest =>
    match bracket? c with
    | some (.opening s) => scan template (column + 1) (held ++ [c]) (⟨s, column⟩ :: o :: outer) rest
    | some (.closing s) =>
      if o.shape = s then
        match outer with
        | [] => do
          let token ← Token.ofGroup template (held ++ [c])
          let tokens ← scan template (column + 1) [] [] rest
          .ok (token :: tokens)
        | _ :: _ => scan template (column + 1) (held ++ [c]) outer rest
      else .error (.unexpectedCloser s column template)
    | none => scan template (column + 1) (held ++ [c]) (o :: outer) rest

/-- The tokens of a template, from left to right, as it stands. -/
def tokenize (template : Text) : Except Fault (List Token) :=
  scan template 1 [] [] template

end Phrasebook.Template
