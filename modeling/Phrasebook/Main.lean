import Phrasebook.Command.Run
import Phrasebook.Command.Standard

/-!
# The program

The outermost layer: reads the file that the command line names, runs the command and prints what
it has to say.
-/

namespace Phrasebook

def Text.toString (t : Text) : String :=
  String.ofList (t.filterMap fun c => match c with
    | .char c => some c
    | .half _ => none)

def entryOnDisk (path : Path) : IO (Option Directory.Entry) := do
  try
    let place ← IO.FS.realPath path.text.toString
    if ← place.isDir then return some .directory
    return some (.file (← IO.FS.readBinFile place).toList)
  catch _ => return none

/-- The files that a command line reads. -/
def sourceFor (line : List Text) : IO Load.Source := do
  match Command.readCommandLine line with
  | .ok i =>
    match i.path? with
    | some text =>
      let path := Path.ofText text
      let entry ← entryOnDisk path
      return fun p => if p = path then entry else none
    | none => return fun _ => none
  | .error _ => return fun _ => none

end Phrasebook

def main (args : List String) : IO UInt32 := do
  let line := args.map (·.toText)
  let files ← Phrasebook.sourceFor line
  match Phrasebook.Command.run .standard files line with
  | .done output =>
    IO.print output.stdout.toString
    IO.eprint output.stderr.toString
    return output.exit.toUInt32
  | .broken stdout stderr =>
    IO.print stdout.toString
    IO.eprint stderr.toString
    return 1
  | .misused =>
    IO.eprint Phrasebook.Command.helpText.toString
    return 2
