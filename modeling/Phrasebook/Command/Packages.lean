import Phrasebook.Document.Load

/-!
# What the commands are built on

The reader of YAML documents, the reader of command lines and the printer of texts come from other
packages. The commands are given them, and assume nothing of them. A text need not be printable: a
stream has bytes for characters only, and none for a half that stands alone.
-/

namespace Phrasebook.Command

inductive Invocation where
  | generate (path : Text) (strict : Bool) (format : Text) (verbose : Bool)
  | expand (templates : List Text)
  | lint (path : Text) (format : Text) (verbose : Bool)
  | stats (path : Text)
  deriving DecidableEq, Repr

def Invocation.path? : Invocation → Option Text
  | generate path _ _ _ => some path
  | lint path _ _ => some path
  | stats path => some path
  | expand _ => none

inductive Stream where
  | out
  | err
  deriving DecidableEq, Repr

structure Output where
  exit : Nat
  stdout : Text
  stderr : Text
  deriving DecidableEq, Repr

/-- How a command line ends. -/
inductive Reply where
  | done (output : Output)
  /-- A text could not be printed, after these were. -/
  | broken (stdout stderr : Text)
  | misused
  deriving DecidableEq, Repr

structure Packages where
  yaml : Load.YamlReader
  /-- The command that a command line asks for, or the reply if it asks for none. -/
  commandLine : List Text → Except Reply Invocation
  /-- What is written to a stream when a text is printed there, unless the text cannot be. -/
  echo : Stream → Text → Option Text

end Phrasebook.Command
