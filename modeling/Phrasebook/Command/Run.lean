import Phrasebook.Command.Output
import Phrasebook.Lint

/-!
# The commands

`generate` prints the corpus of an intents file, `lint` what is wrong with the file, `stats` how
many phrases each intent has, and `expand` the phrases of templates given on the command line. The
first two have a text and a JSON form, each printed in its own way.
-/

namespace Phrasebook.Command

inductive ReportFormat where
  | text
  | json
  deriving DecidableEq, Repr

def ReportFormat.ofName? (name : Text) : Option ReportFormat :=
  if name = "text".toText then some .text
  else if name = "json".toText then some .json
  else none

/-- The diagnostic of a format that a command does not know. -/
def unknownFormat (command : String) (name : Text) : Diagnostic :=
  ⟨.input, "E_".toText ++ command.toText ++ "_UNKNOWN_FORMAT".toText,
    "unknown format: ".toText ++ name ++ " (choose one of: text, json)".toText, none,
    some "format".toText⟩

/-- Runs a command in a format that it is given by name. The name is checked before anything is
read. -/
def inFormat (command : String) (name : Text) (script : ReportFormat → Script) : Script :=
  match ReportFormat.ofName? name with
  | some format => script format
  | none => ⟨printErrors [unknownFormat command name], 2⟩

section Files

variable (yaml : Load.YamlReader) (files : Load.Source) (path : Text)

def generate (strict verbose : Bool) (format : ReportFormat) : Script :=
  match Load.load yaml files path with
  | .error e =>
    match format with
    | .json => emitJson "generate" false [e] 1
        [("corpus".toText, .null), ("line_count".toText, .int 0)]
    | .text => ⟨printErrors [e], 1⟩
  | .ok intents =>
    let report := Corpus.build (some path) (.map intents)
    let failed := strict && !report.errors.isEmpty
    let script := match format with
      | .json => emitJson "generate" report.ok report.errors (if failed then 2 else 0)
          [("corpus".toText, if failed then .null else .text report.corpus),
            ("line_count".toText, .int (if failed then 0 else report.lineCount))]
      | .text =>
        if failed then ⟨printErrors report.errors, 2⟩
        else ⟨printErrors report.errors ++ [Piece.echo .out report.corpus], 0⟩
    script.after (logPieces verbose report.log)

def lint (verbose : Bool) (format : ReportFormat) : Script :=
  match Load.load yaml files path with
  | .error e =>
    match format with
    | .json => emitJson "lint" false [e] 1 []
    | .text => ⟨printErrors [e], 1⟩
  | .ok intents =>
    let report := Corpus.build (some path) (.map intents)
    let errors := Diagnostic.sort (report.errors ++ Lint.findings (some path) (.map intents))
    let script := match format with
      | .json => emitJson "lint" errors.isEmpty errors (if errors.isEmpty then 0 else 2) []
      | .text =>
        if errors.isEmpty then
          ⟨[echoLine .out ("OK: ".toText ++ Text.ofNat intents.length ++ " intents, ".toText ++
            Text.ofNat report.lineCount ++ " phrases".toText)], 0⟩
        else ⟨printErrors errors, 2⟩
    script.after (logPieces verbose report.log)

/-- The counts and the diagnostics of the templates of an intent so far. -/
structure Tally where
  count : Nat
  errors : List Diagnostic
  deriving DecidableEq, Repr

def Tally.step (entry : Key × Datum) (t : Tally) (item : Datum × Nat) : Tally :=
  match Request.count item.1 with
  | .ok n => { t with count := t.count + n }
  | .error f =>
    { t with errors := t.errors ++ [(Diagnostic.ofRequest f).located (some path)
        (some (Corpus.templatePath entry.1 entry.2 item.2))] }

def uncounted (entry : Key × Datum) (code : String) : Diagnostic :=
  ⟨.input, code.toText,
    "intent skipped: name must be a string and value a template or list of templates".toText,
    some path, some (Corpus.intentPath entry.1)⟩

/-- What counting has printed and met so far. -/
structure Counting where
  pieces : List Piece
  total : Nat
  errors : List Diagnostic
  deriving DecidableEq, Repr

def Counting.step (c : Counting) (entry : Key × Datum) : Counting :=
  match entry.1, Corpus.templates? entry.2 with
  | .text name, some templates =>
    let t := templates.zipIdx.foldl (Tally.step path entry) ⟨0, c.errors⟩
    ⟨c.pieces ++ [echoLine .out ("- ".toText ++ name ++ ": ".toText ++ Text.ofNat t.count)],
      c.total + t.count, t.errors⟩
  | .text _, none => { c with errors := c.errors ++ [uncounted path entry "E_INVALID_TEMPLATES"] }
  | _, _ => { c with errors := c.errors ++ [uncounted path entry "E_INVALID_INTENT_NAME"] }

def stats : Script :=
  match Load.load yaml files path with
  | .error e => ⟨printErrors [e], 1⟩
  | .ok intents =>
    let c := intents.foldl (Counting.step path) ⟨[], 0, []⟩
    ⟨c.pieces ++ [echoLine .out ("Total: ".toText ++ Text.ofNat c.total)] ++ printErrors c.errors,
      if c.errors.isEmpty then 0 else 2⟩

end Files

/-- Prints the phrases of each template, up to the first that has none. -/
def expand : List Text → Script
  | [] => ⟨[], 0⟩
  | t :: ts =>
    match Request.expand (.text t) with
    | .error f => ⟨printErrors [Diagnostic.ofRequest f], 2⟩
    | .ok phrases => (expand ts).after (phrases.map (echoLine .out))

def Invocation.script (yaml : Load.YamlReader) (files : Load.Source) : Invocation → Script
  | .generate path strict format verbose =>
    inFormat "GENERATE" format (Command.generate yaml files path strict verbose)
  | .lint path format verbose => inFormat "LINT" format (Command.lint yaml files path verbose)
  | .stats path => Command.stats yaml files path
  | .expand templates => Command.expand templates

def run (packages : Packages) (files : Load.Source) (line : List Text) : Reply :=
  match packages.commandLine line with
  | .ok i => (i.script packages.yaml files).perform packages.echo
  | .error reply => reply

end Phrasebook.Command
