import Phrasebook.Template.Descent

/-!
# Expansion

A template stands for a list of phrases. Expansion chooses at the leftmost group, puts each
substitution in its place and expands what this leaves, so the order of the phrases is that of the
choices, the leftmost varying slowest. The number of phrases needs no expansion: it is the product
of the numbers of branches. A stream gives the same phrases one by one, on demand.
-/

namespace Phrasebook.Template

/-- Every phrase that a template stands for, in order, repetitions kept. -/
def expand (template : Text) : Except Fault (List Text) :=
  match _h : branch template with
  | .error fault => .error fault
  | .ok (.phrase p) => .ok [p]
  | .ok (.templates ts) => do
    let phrases ← ts.toList.attach.mapM fun u => expand u.1
    .ok phrases.flatten
  termination_by measure template
  decreasing_by exact measure_lt_of_branch _h u.2

def count (template : Text) : Except Fault Nat := do
  let tokens ← tokenize (normalize template)
  let sizes ← tokens.mapM fun t => do
    let subs ← t.branches
    .ok subs.toList.length
  .ok (sizes.foldr (· * ·) 1)

/-- The first phrase of a template, and the templates that stand for the others, in order. -/
def firstPhrase (template : Text) : Except Fault (Text × List Text) :=
  match _h : branch template with
  | .error fault => .error fault
  | .ok (.phrase p) => .ok (p, [])
  | .ok (.templates ts) => do
    let (p, more) ← firstPhrase ts.first
    .ok (p, more ++ ts.others)
  termination_by measure template
  decreasing_by exact measure_lt_of_branch _h List.mem_cons_self

/-- A stream holds the templates whose phrases it still has to give. -/
structure Stream where
  pending : List Text
  deriving DecidableEq, Repr

inductive Stream.Answer (ε : Type) where
  | phrase (text : Text)
  | fault (cause : ε)
  | stop
  deriving DecidableEq, Repr

/-- The answer of a stream and the stream that is left. A fault ends the stream. -/
def Stream.next (s : Stream) : Stream.Answer Fault × Stream :=
  match s.pending with
  | [] => (.stop, ⟨[]⟩)
  | t :: ts =>
    match firstPhrase t with
    | .error fault => (.fault fault, ⟨[]⟩)
    | .ok (p, more) => (.phrase p, ⟨more ++ ts⟩)

def Stream.answers : Nat → Stream → List (Stream.Answer Fault)
  | 0, _ => []
  | n + 1, s => s.next.1 :: Stream.answers n s.next.2

end Phrasebook.Template
