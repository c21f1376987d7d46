import Phrasebook.Datum.Key

/-!
# JSON values

A JSON value keeps integers apart from other numbers, and the members of an object in order with
their repetitions. As a datum an object is a mapping, so a repeated name keeps its first place and
takes its last value.
-/

namespace Phrasebook

inductive Json where
  | null
  | bool (value : Bool)
  | int (value : Int)
  | real (value : Binary64)
  | text (value : Text)
  | array (items : List Json)
  | object (members : List (Text × Json))
  deriving Repr

namespace Json

mutual

/-- The datum that a value is. -/
def toDatum : Json → Datum
  | null => .null
  | bool b => .scalar (.bool b)
  | int n => .scalar (.int n)
  | real x => .scalar (.float x)
  | text t => .text t
  | array items => .list (itemsToData items)
  | object members => .map (Entries.ofList Key.same (membersToEntries members))

def itemsToData : List Json → List Datum
  | [] => []
  | j :: rest => j.toDatum :: itemsToData rest

def membersToEntries : List (Text × Json) → List (Key × Datum)
  | [] => []
  | (name, j) :: rest => (.text name, j.toDatum) :: membersToEntries rest

end

end Json

end Phrasebook
