import Phrasebook.Directory
import Phrasebook.Diagnostic
import Phrasebook.Document.Json.Reader
import Phrasebook.Text.Utf8

/-!
# Intents files

An intents file is a YAML or JSON document that maps intent names to templates, or maps the one
name `intents` to such a mapping. Loading reads the document and takes off that wrapper, once.
Whether the values of the mapping are templates is not looked at here. How YAML is read is up to a
reader that loading is given.
-/

namespace Phrasebook.Load

inductive Format where
  | yaml
  | json
  deriving DecidableEq, Repr

def Format.ofSuffix? (suffix : Text) : Option Format :=
  let s := Text.lower suffix
  if s = ".yaml".toText ∨ s = ".yml".toText then some .yaml
  else if s = ".json".toText then some .json
  else none

/-- The document that a YAML text writes, or what is wrong with the text. -/
abbrev YamlReader := Text → Except Text Datum

/-- A file system as far as loading looks at it: what each path leads to. -/
abbrev Source := Path → Option Directory.Entry

def failure (path : Path) (code : String) (message : Text) : Diagnostic :=
  ⟨.load, code.toText, message, some path.text, none⟩

/-- The text with one line feed for every carriage return, alone or with a line feed after it. -/
def unixLines : Text → Text
  | [] => []
  | '\r' :: '\n' :: s => char '\n' :: unixLines s
  | '\r' :: s => char '\n' :: unixLines s
  | c :: s => c :: unixLines s

def readText (files : Source) (path : Path) : Except Diagnostic Text :=
  match files path with
  | none => .error (failure path "E_FILE_NOT_FOUND" "file does not exist".toText)
  | some .directory =>
    .error (failure path "E_FILE_READ"
      ("[Errno 21] Is a directory: ".toText ++ Text.quoted path.text))
  | some (.file bytes) =>
    match Text.Utf8.decode bytes with
    | .error f => .error (failure path "E_FILE_READ" f.message)
    | .ok s => .ok (unixLines s)

/-- The document of a file, or none for an empty one. -/
def readDocument (yaml : YamlReader) (files : Source) (path : Path) : Except Diagnostic Datum := do
  let text ← readText files path
  match Format.ofSuffix? path.suffix with
  | none =>
    .error (failure path "E_UNSUPPORTED_FORMAT" "supported formats are .yaml/.yml and .json".toText)
  | some .yaml =>
    match yaml text with
    | .error message => .error (failure path "E_YAML_PARSE" message)
    | .ok d => .ok d
  | some .json =>
    match Json.read text with
    | .error f => .error (failure path "E_JSON_PARSE" (f.message text))
    | .ok j => .ok j.toDatum

/-- The mapping that a document wraps, or the document itself if it has no wrapper. -/
def unwrap (path : Path) : Datum → Except Diagnostic Datum
  | .map [(.text ['i', 'n', 't', 'e', 'n', 't', 's'], value)] =>
    match value with
    | .map entries => .ok (.map entries)
    | d =>
      .error { failure path "E_INVALID_INTENTS_KEY"
        ("'intents' must map intent names to templates, got ".toText ++ d.typeName) with
        path := some "intents".toText }
  | d => .ok d

def intentsOf (path : Path) (document : Datum) : Except Diagnostic Entries := do
  if let .null := document then
    throw (failure path "E_EMPTY_FILE"
      "intents file is empty; expected intent -> template(s)".toText)
  match ← unwrap path document with
  | .map entries => .ok entries
  | _ =>
    .error (failure path "E_INVALID_TOP_LEVEL"
      "top-level document must be a mapping of intent -> template(s)".toText)

def load (yaml : YamlReader) (files : Source) (path : Text) : Except Diagnostic Entries := do
  let path := Path.ofText path
  let document ← readDocument yaml files path
  intentsOf path document

end Phrasebook.Load
