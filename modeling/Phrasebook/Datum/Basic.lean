import Phrasebook.Number.Binary64
import Phrasebook.Calendar

/-!
# Data

A datum is what a document can hold: a scalar, a row of data, a mapping, a set, or a buffer of
bytes. Mappings keep the order in which their keys were first met. A key is a scalar or a row of
keys.
-/

namespace Phrasebook

inductive Scalar where
  | null
  | bool (value : Bool)
  | int (value : Int)
  | float (value : Binary64)
  | text (value : Text)
  | bytes (value : List UInt8)
  | date (value : Date)
  | moment (value : Moment)
  deriving DecidableEq, Repr

inductive Key where
  | scalar (value : Scalar)
  | tuple (parts : List Key)
  deriving Repr

inductive Datum where
  | scalar (value : Scalar)
  | list (items : List Datum)
  | tuple (items : List Datum)
  | map (entries : List (Key × Datum))
  | set (items : List Datum)
  | buffer (bytes : List UInt8)
  deriving Repr

@[match_pattern]
abbrev Datum.text (t : Text) : Datum :=
  .scalar (.text t)

@[match_pattern]
abbrev Datum.null : Datum :=
  .scalar .null

@[match_pattern]
abbrev Key.text (t : Text) : Key :=
  .scalar (.text t)

/-- The entries of a mapping, in order. -/
abbrev Entries := List (Key × Datum)

def Scalar.typeName : Scalar → Text
  | null => "NoneType".toText
  | bool _ => "bool".toText
  | int _ => "int".toText
  | float _ => "float".toText
  | text _ => "str".toText
  | bytes _ => "bytes".toText
  | date _ => "date".toText
  | moment _ => "datetime".toText

def Key.typeName : Key → Text
  | scalar s => s.typeName
  | tuple _ => "tuple".toText

def Datum.typeName : Datum → Text
  | scalar s => s.typeName
  | list _ => "list".toText
  | tuple _ => "tuple".toText
  | map _ => "dict".toText
  | set _ => "set".toText
  | buffer _ => "bytearray".toText

/-- The parts of a row, if a datum is one. Texts, sets and byte strings are not rows. -/
def Datum.items? : Datum → Option (List Datum)
  | list ds => some ds
  | tuple ds => some ds
  | _ => none

end Phrasebook
