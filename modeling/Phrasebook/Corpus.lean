import Phrasebook.Datum.Key
import Phrasebook.Diagnostic

/-!
# The corpus of an intents mapping

A mapping from intent names to templates gives a corpus: a line for every phrase, with the name of
its intent before it, the sections of the intents set apart by an empty line. Building never stops
at what is wrong. An entry that names no intent or holds no templates is skipped, a template that
is not one or cannot be expanded is left out, and a diagnostic says so each time.
-/

namespace Phrasebook

inductive LogLevel where
  | debug
  | warning
  deriving DecidableEq, Repr

structure LogRecord where
  level : LogLevel
  text : Text
  deriving DecidableEq, Repr

namespace Corpus

/-- The templates of one intent, if its value can hold templates. -/
def templates? : Datum → Option (List Datum)
  | .text t => some [.text t]
  | d => d.items?

def intentPath (key : Key) : Text :=
  "intents.".toText ++ key.label

/-- The path of a template of an intent: the intent's own for a value that is a template. -/
def templatePath (key : Key) (value : Datum) (index : Nat) : Text :=
  match value with
  | .text _ => intentPath key
  | _ => intentPath key ++ char '[' :: Text.ofNat index ++ [char ']']

def notTemplate (file : Option Text) (path : Text) (d : Datum) : Diagnostic :=
  ⟨.input, "E_INVALID_TEMPLATE".toText, "template must be a string, got ".toText ++ d.typeName,
    file, some path⟩

def line (name phrase : Text) : Text :=
  name ++ char ' ' :: phrase ++ [char '\n']

/-- A corpus, its measures, and what was met on the way. -/
structure Report where
  corpus : Text
  lineCount : Nat
  phraseCounts : List (Text × Nat)
  errors : List Diagnostic
  log : List LogRecord
  deriving DecidableEq, Repr

def Report.ok (r : Report) : Bool :=
  r.errors = []

/-- What has been gathered from the entries of a mapping so far. -/
structure Progress where
  errors : List Diagnostic
  blocks : List Text
  phraseCounts : List (Text × Nat)
  lineCount : Nat
  log : List LogRecord
  deriving DecidableEq, Repr

/-- Leaves something out: a diagnostic and a warning in the log say so. -/
def Progress.skip (p : Progress) (what : String) (e : Diagnostic) : Progress :=
  { p with
    errors := p.errors ++ [e]
    log := p.log ++ [⟨.warning, "skipping ".toText ++ what.toText ++ ": ".toText ++ e.render⟩] }

/-- Adds the lines of one template to those of its intent. -/
def templateStep (file : Option Text) (key : Key) (name : Text) (value : Datum)
    (state : Progress × List Text) (template : Datum × Nat) : Progress × List Text :=
  let (p, lines) := state
  let path := templatePath key value template.2
  match template.1 with
  | .text t =>
    match Template.expand t with
    | .ok phrases => (p, lines ++ phrases.map (line name))
    | .error f =>
      (p.skip "template" ((Diagnostic.ofTemplate f).located file (some path)), lines)
  | d => (p.skip "template" (notTemplate file path d), lines)

/-- Adds the block of one entry, the entries being numbered from one. -/
def entryStep (file : Option Text) (size : Nat) (p : Progress) (entry : (Key × Datum) × Nat) :
    Progress :=
  let ((key, value), number) := entry
  let separator : Text := if number < size then [char '\n'] else []
  match key with
  | .text name =>
    match templates? value with
    | none => p.skip "intent" ⟨.input, "E_INVALID_TEMPLATES".toText,
        "templates must be a string or a list of strings, got ".toText ++ value.typeName, file,
        some (intentPath key)⟩
    | some templates =>
      let (p, lines) := templates.zipIdx.foldl (templateStep file key name value) (p, [])
      { p with
        log := p.log ++ [⟨.debug, "intent ".toText ++ name ++ ": ".toText ++
          Text.ofNat lines.length ++ " phrases from ".toText ++ Text.ofNat templates.length ++
          " templates".toText⟩]
        phraseCounts := p.phraseCounts ++ [(name, lines.length)]
        lineCount := p.lineCount + lines.length
        blocks := p.blocks ++ [lines.flatten ++ separator] }
  | key => p.skip "intent" ⟨.input, "E_INVALID_INTENT_NAME".toText,
      "intent name must be a string, got ".toText ++ key.typeName, file, some (intentPath key)⟩

def Progress.report (p : Progress) : Report :=
  ⟨p.blocks.flatten, p.lineCount, p.phraseCounts, p.errors, p.log⟩

def Report.rejected (e : Diagnostic) : Report :=
  ⟨[], 0, [], [e], [⟨.warning, e.render⟩]⟩

def build (file : Option Text) (intents : Datum) : Report :=
  match intents with
  | .map [] => .rejected ⟨.input, "E_NO_INTENTS".toText, "intents mapping is empty".toText, file,
      some "intents".toText⟩
  | .map entries =>
    ((entries.zipIdx 1).foldl (entryStep file entries.length) ⟨[], [], [], 0, []⟩).report
  | d => .rejected ⟨.input, "E_INVALID_TOP_LEVEL".toText,
      "intents must be a mapping of intent -> template(s), got ".toText ++ d.typeName, file,
      some "intents".toText⟩

/-- The corpus alone. In strict mode the first diagnostic is given in its stead. -/
def generate (strict : Bool) (intents : Datum) : Except Diagnostic Text :=
  let report := build none intents
  match strict, report.errors with
  | true, e :: _ => .error e
  | _, _ => .ok report.corpus

end Corpus

end Phrasebook
