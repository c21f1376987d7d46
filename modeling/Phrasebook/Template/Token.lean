import Phrasebook.Text.Basic

/-!
# Tokens of a template

A phrase template is read as a row of tokens. A bracket group is always one token: round groups
offer alternatives, curly groups name a slot. A curly group that still offers alternatives is a
`slot` token; one that offers none is an ordinary word, since nothing in it is left to choose.
-/

namespace Phrasebook.Template

inductive Shape where
  | round
  | curly
  deriving DecidableEq, Repr

def Shape.opener : Shape → CodePoint
  | .round => '('
  | .curly => '\x7b'

def Shape.closer : Shape → CodePoint
  | .round => ')'
  | .curly => '\x7d'

inductive Bracket where
  | opening (shape : Shape)
  | closing (shape : Shape)
  deriving DecidableEq, Repr

/-- The bracket that a character is, if it is one. -/
def bracket? (c : CodePoint) : Option Bracket :=
  if c = Shape.round.opener then some (.opening .round)
  else if c = Shape.curly.opener then some (.opening .curly)
  else if c = Shape.round.closer then some (.closing .round)
  else if c = Shape.curly.closer then some (.closing .curly)
  else none

def isBracket (c : CodePoint) : Bool :=
  (bracket? c).isSome

inductive Kind where
  | word
  | alternation
  | slot
  deriving DecidableEq, Repr

/-- A token keeps its text as it stands in the template, brackets included. -/
structure Token where
  kind : Kind
  text : Text
  deriving DecidableEq, Repr

/-- A token is expandable when it offers a choice of substitutions. -/
def Token.expandable (t : Token) : Bool :=
  t.kind ≠ .word

/-- The word tokens of a run of characters outside groups: none for an empty run. -/
def Token.ofRun : Text → List Token
  | [] => []
  | run => [⟨.word, run⟩]

end Phrasebook.Template
