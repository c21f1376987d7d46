import Phrasebook.Command.Arguments
import Phrasebook.Document.Yaml.Value
import Phrasebook.Text.Ansi

/-!
# The packages that the program runs with

The YAML reader, the reader of command lines, and a printer for streams in UTF-8 that are no
terminals.
-/

namespace Phrasebook

def Text.isWritable (t : Text) : Bool :=
  t.all fun c => match c with
    | .char _ => true
    | .half _ => false

namespace Command

/-- What is written when a text is printed: the text without control sequences. A half that stands
alone cannot be printed, except by its number to the stream of errors. -/
def echoUtf8 : Stream → Text → Option Text
  | .out, t => if (Text.stripAnsi t).isWritable then some (Text.stripAnsi t) else none
  | .err, t => some (Text.numberHalves (Text.stripAnsi t))

def Packages.standard : Packages where
  yaml text := (Yaml.read text).mapError fun _ => "<yaml parser message>".toText
  commandLine := readCommandLine
  echo := echoUtf8

end Command

end Phrasebook
