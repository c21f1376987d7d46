import Phrasebook.Request

/-!
# Diagnostics

A diagnostic says what is wrong and where: a code, a sentence, and the file and the path inside it
as far as they are known. Diagnostics are listed by file, path and code; those that agree in all
three keep their order.
-/

namespace Phrasebook

inductive Diagnostic.Family where
  /-- A datum of the wrong type or shape. -/
  | input
  /-- A template that cannot be read. -/
  | template
  /-- An intents file that cannot be loaded. -/
  | load
  /-- A remark of the linter. -/
  | remark
  deriving DecidableEq, Repr

structure Diagnostic where
  family : Diagnostic.Family
  code : Text
  message : Text
  file : Option Text
  path : Option Text
  deriving DecidableEq, Repr

namespace Diagnostic

/-- A place that is known: an empty text names none. -/
def known (place : Option Text) : Option Text :=
  place.filter (· ≠ [])

def render (d : Diagnostic) : Text :=
  let places := (known d.file).toList ++ (known d.path).toList
  let place := if places = [] then "<intents>".toText else [char ':'].intercalate places
  place ++ ": ".toText ++ d.code ++ ": ".toText ++ d.message

/-- The diagnostic at a file and a path, where its own are not known. -/
def located (d : Diagnostic) (file path : Option Text) : Diagnostic :=
  { d with file := known d.file <|> file, path := known d.path <|> path }

def ofTemplate (f : Template.Fault) : Diagnostic :=
  ⟨.template, f.code, f.message, none, none⟩

def ofRequest : Request.Fault → Diagnostic
  | .malformed f => ofTemplate f
  | f => ⟨.input, f.code, f.message, none, none⟩

/-- What diagnostics are listed by. -/
def sortKey (d : Diagnostic) : List Text :=
  [d.file.getD [], d.path.getD [], d.code]

/-- Whether a diagnostic may stand before another one. Texts are compared by code points. -/
def le (d e : Diagnostic) : Bool :=
  !e.sortKey.lex d.sortKey fun s t => s.lex t (· < ·)

def sort (ds : List Diagnostic) : List Diagnostic :=
  ds.mergeSort le

end Diagnostic

end Phrasebook
