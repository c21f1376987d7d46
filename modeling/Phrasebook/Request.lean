import Phrasebook.Datum.Basic
import Phrasebook.Template.Expand

/-!
# Expanding data

A datum asks for phrases when it is a template or a row of templates. A row is checked as a whole
before any of its templates is expanded, and its phrases are those of its templates one after the
other.
-/

namespace Phrasebook

inductive Request.Fault where
  /-- The datum is neither a template nor a row. -/
  | notTemplates (typeName : Text)
  /-- The row holds something other than a template. -/
  | notTemplate (typeName : Text)
  | malformed (fault : Template.Fault)
  deriving DecidableEq, Repr

namespace Request

def Fault.code : Fault → Text
  | notTemplates _ => "E_INVALID_INPUT".toText
  | notTemplate _ => "E_INVALID_INPUT".toText
  | malformed f => f.code

def Fault.message : Fault → Text
  | notTemplates name => "template must be a string or a list of strings, got ".toText ++ name
  | notTemplate name => "template list items must be strings, got ".toText ++ name
  | malformed f => f.message

def template? : Datum → Except Fault Text
  | .text t => .ok t
  | d => .error (.notTemplate d.typeName)

/-- The templates that a datum asks to expand. -/
def templates (d : Datum) : Except Fault (List Text) :=
  match d with
  | .text t => .ok [t]
  | d =>
    match d.items? with
    | some ds => ds.mapM template?
    | none => .error (.notTemplates d.typeName)

def lift {α : Type} : Except Template.Fault α → Except Fault α
  | .ok a => .ok a
  | .error f => .error (.malformed f)

/-- Every phrase that a datum asks for, in order. -/
def expand (d : Datum) : Except Fault (List Text) := do
  let ts ← templates d
  let phrases ← ts.mapM fun t => lift (Template.expand t)
  .ok phrases.flatten

def count (d : Datum) : Except Fault Nat := do
  let ts ← templates d
  let counts ← ts.mapM fun t => lift (Template.count t)
  .ok (counts.foldr (· + ·) 0)

def liftAnswer : Template.Stream.Answer Template.Fault → Template.Stream.Answer Fault
  | .phrase p => .phrase p
  | .fault f => .fault (.malformed f)
  | .stop => .stop

/-- The first answers of the stream of a datum. A datum that asks for no phrases is a fault at the
first answer, and nothing follows it. -/
def answers (n : Nat) (d : Datum) : List (Template.Stream.Answer Fault) :=
  match templates d with
  | .ok ts => (Template.Stream.answers n ⟨ts⟩).map liftAnswer
  | .error f =>
    match n with
    | 0 => []
    | n + 1 => .fault f :: List.replicate n .stop

end Request

end Phrasebook
