import Phrasebook.Command.Packages
import Phrasebook.Corpus
import Phrasebook.Document.Json.Printer

/-!
# What a command writes

A command prints texts and keeps a log, piece by piece, and ends with a number. The pieces are
written one after the other, up to the first that cannot be printed (`Script.perform`). The log goes
to the stream of errors, which shows a half that stands alone by its number.
-/

namespace Phrasebook.Command

inductive Piece where
  | echo (stream : Stream) (text : Text)
  | log (record : LogRecord)
  deriving DecidableEq, Repr

structure Script where
  pieces : List Piece
  exit : Nat
  deriving DecidableEq, Repr

def levelName : LogLevel → Text
  | .debug => "DEBUG".toText
  | .warning => "WARNING".toText

def logLine (r : LogRecord) : Text :=
  levelName r.level ++ " | utterance_generator.core.corpus.generate_corpus | ".toText ++ r.text ++
    [char '\n']

def Piece.stream : Piece → Stream
  | echo stream _ => stream
  | log _ => .err

def Piece.written? (echo : Stream → Text → Option Text) : Piece → Option Text
  | .echo stream t => echo stream t
  | .log r => some (Text.numberHalves (logLine r))

/-- Writes pieces behind what is on the two streams already. -/
def perform (echo : Stream → Text → Option Text) (exit : Nat) : List Piece → Text → Text → Reply
  | [], stdout, stderr => .done ⟨exit, stdout, stderr⟩
  | p :: ps, stdout, stderr =>
    match p.written? echo, p.stream with
    | none, _ => .broken stdout stderr
    | some t, .out => perform echo exit ps (stdout ++ t) stderr
    | some t, .err => perform echo exit ps stdout (stderr ++ t)

def Script.perform (echo : Stream → Text → Option Text) (s : Script) : Reply :=
  Command.perform echo s.exit s.pieces [] []

def Script.after (pieces : List Piece) (s : Script) : Script :=
  { s with pieces := pieces ++ s.pieces }

def echoLine (stream : Stream) (t : Text) : Piece :=
  .echo stream (t ++ [char '\n'])

def printErrors (ds : List Diagnostic) : List Piece :=
  (Diagnostic.sort ds).map fun d => echoLine .err d.render

/-- The log of a corpus, which is kept only on demand. -/
def logPieces (verbose : Bool) (log : List LogRecord) : List Piece :=
  if verbose then log.map .log else []

def optionalJson : Option Text → Json
  | some t => .text t
  | none => .null

/-- Whether a diagnostic is a remark, by its code. -/
def isRemark (d : Diagnostic) : Bool :=
  "L_".toText.isPrefixOf d.code

/-- The part of the program that a diagnostic comes from. -/
def sourceName (d : Diagnostic) : Text :=
  if d.family = .load then "load".toText
  else if isRemark d then "lint".toText else "generate".toText

def itemJson (d : Diagnostic) : Json :=
  .object
    [("code".toText, .text d.code), ("message".toText, .text d.message),
     ("file".toText, optionalJson d.file), ("path".toText, optionalJson d.path),
     ("severity".toText, .text (if isRemark d then "warning".toText else "error".toText)),
     ("source".toText, .text (sourceName d))]

/-- The JSON report of a command, with members of its own. -/
def reportJson (command : String) (ok : Bool) (errors : List Diagnostic)
    (more : List (Text × Json)) : Json :=
  .object
    ([("tool".toText, .text "utterances".toText), ("command".toText, .text command.toText),
      ("ok".toText, .bool ok), ("error_count".toText, .int errors.length),
      ("errors".toText, .array ((Diagnostic.sort errors).map itemJson))] ++ more)

def emitJson (command : String) (ok : Bool) (errors : List Diagnostic) (exit : Nat)
    (more : List (Text × Json)) : Script :=
  ⟨[echoLine .out (reportJson command ok errors more).print], exit⟩

end Phrasebook.Command
