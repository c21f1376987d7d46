import Phrasebook.Text.Basic

/-!
# Paths and directories

A path is a root, which relative paths lack, and a row of names. Names that stand for the place
where they are, and empty ones, are dropped when a path is read; a name that leads upwards is kept,
since only a look at the directory tells where it leads. A directory holds files and directories
under the paths that lead to them.
-/

namespace Phrasebook

structure Path where
  root : Text
  names : List Text
  deriving DecidableEq, Repr

namespace Path

/-- The root that a path begins with. Two slashes are a root of their own, three are one. -/
def rootOf (s : Text) : Text :=
  match s with
  | '/' :: '/' :: '/' :: _ => [char '/']
  | '/' :: '/' :: _ => [char '/', char '/']
  | '/' :: _ => [char '/']
  | _ => []

def ofText (s : Text) : Path :=
  ⟨rootOf s, (s.splitOn (char '/')).filter fun name => name ≠ [] ∧ name ≠ [char '.']⟩

/-- A path as it is written. The path without root and names is the place where it is read. -/
def text (p : Path) : Text :=
  if p.root = [] ∧ p.names = [] then [char '.'] else p.root ++ [char '/'].intercalate p.names

def name (p : Path) : Text :=
  p.names.getLast?.getD []

/-- The part of the last name from its last dot on. A dot at either end of a name begins none. -/
def suffix (p : Path) : Text :=
  let after := p.name.reverse.takeWhile (· ≠ char '.')
  let before := p.name.length - after.length - 1
  if char '.' ∈ p.name ∧ 0 < before ∧ after ≠ [] then char '.' :: after.reverse else []

end Path

inductive Directory.Entry where
  | file (bytes : List UInt8)
  | directory
  deriving DecidableEq, Repr

/-- A directory by the rows of names that lead to what it holds. -/
structure Directory where
  entries : List (List Text × Directory.Entry)
  deriving DecidableEq, Repr

namespace Directory

def ofList (files : List (Text × Entry)) : Directory :=
  ⟨files.map fun f => ((Path.ofText f.1).names, f.2)⟩

/-- What stands under a row of names. Every row that leads on to something is a directory. -/
def at? (d : Directory) (names : List Text) : Option Entry :=
  if names = [] then some .directory
  else
    match d.entries.find? fun e => e.1 = names with
    | some e => some e.2
    | none => if d.entries.any fun e => names.isPrefixOf e.1 then some .directory else none

/-- What names lead to from a place inside the directory, given the way back from it. -/
def walk (d : Directory) : List Text → List Text → Option Entry
  | here, [] => d.at? here.reverse
  | here, name :: rest =>
    match d.at? here.reverse with
    | some .directory =>
      if name = [char '.', char '.'] then
        match here with
        | [] => if rest.all (· = [char '.', char '.']) then some .directory else none
        | _ :: outer => walk d outer rest
      else walk d (name :: here) rest
    | _ => none

/-- What a path leads to. Above the directory, and from the root, only the way up is known. -/
def lookup (d : Directory) (p : Path) : Option Entry :=
  if p.names.any fun name => '\x00' ∈ name then none
  else if p.root = [] then d.walk [] p.names
  else if p.names.all (· = [char '.', char '.']) then some .directory else none

end Directory

end Phrasebook
