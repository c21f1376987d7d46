import Phrasebook.Template.Token
import Phrasebook.Text.Quoted

/-!
# Faults of a template

Every way in which a template can be wrong, with what is needed to say where. Columns count the
characters of the template from one.
-/

namespace Phrasebook.Template

/-- Why a template cannot be read or expanded. -/
inductive Fault where
  /-- A closing bracket that does not match the innermost open one, or closes nothing. -/
  | unexpectedCloser (closer : Shape) (column : Nat) (template : Text)
  /-- An opening bracket that the template never closes. -/
  | unclosedGroup (opener : Shape) (column : Nat) (template : Text)
  /-- A round group with a bracket in it. -/
  | nestedGroup (group template : Text)
  /-- A curly group with a round one in it that is not an alternation followed by a name. -/
  | malformedSlot (group template : Text)
  /-- A group none of whose alternatives has a character other than blanks. -/
  | emptyGroup (group : Text)
  deriving DecidableEq, Repr

namespace Fault

def code : Fault → Text
  | unexpectedCloser .. => "E_UNBALANCED_GROUP".toText
  | unclosedGroup .. => "E_UNBALANCED_GROUP".toText
  | nestedGroup .. => "E_MALFORMED_GROUP".toText
  | malformedSlot .. => "E_MALFORMED_SLOT".toText
  | emptyGroup .. => "E_EMPTY_ALTERNATION".toText

def message : Fault → Text
  | unexpectedCloser s column template =>
    "unexpected '".toText ++ [s.closer] ++ "' at column ".toText ++ Text.ofNat column ++
      " in ".toText ++ Text.quoted template
  | unclosedGroup s column template =>
    "'".toText ++ [s.opener] ++ "' at column ".toText ++ Text.ofNat column ++
      " is never closed in ".toText ++ Text.quoted template
  | nestedGroup group template =>
    "nested group ".toText ++ Text.quoted group ++ " in ".toText ++ Text.quoted template ++
      "; only \x7b(...)|Slot\x7d may nest".toText
  | malformedSlot group template =>
    "slot group ".toText ++ Text.quoted group ++
      " must look like \x7b(a|b)|SlotName\x7d in ".toText ++ Text.quoted template
  | emptyGroup group =>
    "group ".toText ++ Text.quoted group ++ " has no non-empty alternative".toText

end Fault

end Phrasebook.Template
