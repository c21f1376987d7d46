import Phrasebook.Corpus

/-!
# Remarks on an intents mapping

The linter looks at what the templates generate. It remarks on names that cannot be told from the
phrase after them, on intents without templates, on phrases that an intent generates more than
once, and on phrases that several intents generate. Entries and templates that cannot be expanded
are none of its business: the corpus reports those.
-/

namespace Phrasebook.Lint

/-- Sets what a table has for a text. A text that is new to the table goes to its end. -/
def update {α : Type} (set : Option α → α) (key : Text) : List (Text × α) → List (Text × α)
  | [] => [(key, set none)]
  | (k, a) :: rest =>
    if k = key then (k, set (some a)) :: rest else (k, a) :: update set key rest

def counts (phrases : List Text) : List (Text × Nat) :=
  phrases.foldl (fun table p => update (fun n => n.getD 0 + 1) p table) []

def phrasesStep (phrases : List Text) (template : Datum) : List Text :=
  match Request.expand template with
  | .ok more => phrases ++ more
  | .error _ => phrases

def pathOf (name : Text) : Text :=
  Corpus.intentPath (.text name)

def remark (file : Option Text) (name : Text) (code : String) (message : Text) : Diagnostic :=
  ⟨.remark, code.toText, message, file, some (pathOf name)⟩

def nameRemark (file : Option Text) (name : Text) : Diagnostic :=
  remark file name "L_INTENT_NAME_WHITESPACE"
    ("intent name ".toText ++ Text.quoted name ++ " is empty or contains whitespace".toText)

def emptyRemark (file : Option Text) (name : Text) : Diagnostic :=
  remark file name "L_EMPTY_INTENT" "intent has no templates and contributes no lines".toText

def duplicateRemark (file : Option Text) (name phrase : Text) (n : Nat) : Diagnostic :=
  remark file name "L_DUPLICATE_PHRASE"
    ("phrase ".toText ++ Text.quoted phrase ++ " is generated ".toText ++ Text.ofNat n ++
      " times".toText)

/-- What has been remarked so far, and for each phrase the names of the intents that generate it. -/
structure Findings where
  errors : List Diagnostic
  owners : List (Text × List Text)
  deriving DecidableEq, Repr

def Findings.add (f : Findings) (e : Diagnostic) : Findings :=
  { f with errors := f.errors ++ [e] }

/-- Looks at a phrase that an intent generates so many times. -/
def phraseStep (file : Option Text) (name : Text) (f : Findings) (count : Text × Nat) : Findings :=
  let f := if 1 < count.2 then f.add (duplicateRemark file name count.1 count.2) else f
  { f with owners := update (fun names => names.getD [] ++ [name]) count.1 f.owners }

def entryStep (file : Option Text) (f : Findings) (entry : Key × Datum) : Findings :=
  match entry.1, Corpus.templates? entry.2 with
  | .text name, some templates =>
    let f := if name = [] ∨ name.any Text.isBlank then f.add (nameRemark file name) else f
    if templates = [] then f.add (emptyRemark file name)
    else (counts (templates.foldl phrasesStep [])).foldl (phraseStep file name) f
  | _, _ => f

/-- The remark on a phrase that several intents generate, at the second of them. -/
def ambiguityRemark? (file : Option Text) (owned : Text × List Text) : Option Diagnostic :=
  match owned.2 with
  | first :: second :: more =>
    some (remark file second "L_AMBIGUOUS_PHRASE"
      ("phrase ".toText ++ Text.quoted owned.1 ++ " is generated for intents: ".toText ++
        ", ".toText.intercalate (first :: second :: more)))
  | _ => none

/-- Every remark on a document, sorted. A document that is no mapping gets none. -/
def findings (file : Option Text) : Datum → List Diagnostic
  | .map entries =>
    let f := entries.foldl (entryStep file) ⟨[], []⟩
    Diagnostic.sort (f.errors ++ f.owners.filterMap (ambiguityRemark? file))
  | _ => []

end Phrasebook.Lint
