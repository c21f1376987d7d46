import Phrasebook.Template.Normal
import Phrasebook.Template.Scan

/-!
# Branches of a template

An expandable token offers substitutions in a fixed order. A template branches at its leftmost
expandable token: every substitution, put between the tokens before and after it, is a template
again. Each of these has fewer opening round brackets than the template they come from, which is
why expansion ends.
-/

namespace Phrasebook.Template

structure Choices (α : Type) where
  first : α
  others : List α
  deriving DecidableEq, Repr

def Choices.toList {α : Type} (xs : Choices α) : List α :=
  xs.first :: xs.others

def Choices.map {α β : Type} (f : α → β) (xs : Choices α) : Choices β :=
  ⟨f xs.first, xs.others.map f⟩

theorem Choices.toList_map {α β : Type} (f : α → β) (xs : Choices α) :
    (xs.map f).toList = xs.toList.map f := rfl

/-- The alternatives of a group: the texts between its bars, without the blanks around them and
without those that have nothing else. -/
def alternatives (content : Text) : List Text :=
  ((content.splitOn (char '|')).map Text.strip).filter (· ≠ [])

/-- The alternatives of a group, which must have one. -/
def alternativesOf (group content : Text) : Except Fault (Choices Text) :=
  match alternatives content with
  | [] => .error (.emptyGroup group)
  | w :: ws => .ok ⟨w, ws⟩

/-- The substitutions of a token in branch order. `none` leaves the token out. A lone alternative
with an empty one beside it may be left out; a slot never may. -/
def Token.branches (t : Token) : Except Fault (Choices (Option Text)) :=
  match t.kind with
  | .word => .ok ⟨some t.text, []⟩
  | .slot => do
    let ws ← alternativesOf t.text (slotParts (Text.inside t.text)).1
    .ok (ws.map fun w =>
      some (char '\x7b' :: w ++ (slotParts (Text.inside t.text)).2 ++ [char '\x7d']))
  | .alternation => do
    let ws ← alternativesOf t.text (Text.inside t.text)
    if ws.others = [] ∧ 1 < ((Text.inside t.text).splitOn (char '|')).length then
      .ok ⟨some ws.first, [none]⟩
    else .ok (ws.map some)

/-- A row of tokens around its leftmost expandable one. -/
def splitAtExpandable : List Token → Option (List Token × Token × List Token)
  | [] => none
  | t :: ts =>
    if t.expandable then some ([], t, ts)
    else (splitAtExpandable ts).map fun (head, u, tail) => (t :: head, u, tail)

/-- The template in which a substitution stands between two rows of tokens. -/
def substitute (head : List Token) (sub : Option Text) (tail : List Token) : Text :=
  Text.unwords (head.map (·.text) ++ sub.toList ++ tail.map (·.text))

inductive Branching where
  /-- Nothing is left to choose. -/
  | phrase (text : Text)
  /-- The templates that the leftmost group leaves, in branch order. -/
  | templates (ts : Choices Text)
  deriving DecidableEq, Repr

def branch (template : Text) : Except Fault Branching := do
  let normal := normalize template
  let tokens ← tokenize normal
  match splitAtExpandable tokens with
  | none => .ok (.phrase normal)
  | some (head, token, tail) =>
    let subs ← token.branches
    .ok (.templates (subs.map fun sub => substitute head sub tail))

end Phrasebook.Template
