import Phrasebook.Document.Yaml.Node
import Phrasebook.Datum.Key

/-!
# The datum of a YAML document

Aliases are replaced by the nodes that they stand for. A node that contains an alias of itself is
entered twice over that alias; the third time it is an empty collection, so the datum is finite.
Scalars are read by their types, and the entries that a mapping takes over from others come before
its own.
-/

namespace Phrasebook.Yaml

/-- How many times an alias is entered inside the node of its own name. -/
def maxVisits : Nat := 2

def Node.hollow : Node → Node
  | .sequence tag _ => .sequence tag []
  | .mapping tag _ => .mapping tag []
  | n => n

/-- A node with the nodes of its aliases in their places, down to a depth. The aliases entered on
the way are listed. -/
def Node.inlined (nodes : List (Text × Node)) : Nat → List Text → Node → Node
  | 0, _, n => n.hollow
  | _ + 1, _, .scalar tag text => .scalar tag text
  | depth + 1, visited, .sequence tag items =>
    .sequence tag (items.map (Node.inlined nodes depth visited))
  | depth + 1, visited, .mapping tag entries =>
    .mapping tag (entries.map fun e =>
      (Node.inlined nodes depth visited e.1, Node.inlined nodes depth visited e.2))
  | depth + 1, visited, .alias name =>
    match nodes.lookup name with
    | none => .empty
    | some n =>
      if visited.count name < maxVisits then Node.inlined nodes depth (name :: visited) n
      else n.hollow

def orFault {α : Type} (fault : Fault) : Option α → Except Fault α
  | some a => .ok a
  | none => .error fault

def scalarDatum (tag : Tag) (s : Text) : Except Fault Datum :=
  match tag with
  | .null => .ok .null
  | .bool => (orFault .malformedScalar (readBool? s)).map fun b => .scalar (.bool b)
  | .int => (orFault .malformedScalar (readInt? s)).map fun n => .scalar (.int n)
  | .float => (orFault .malformedScalar (readFloat? s)).map fun x => .scalar (.float x)
  | .binary => (orFault .malformedScalar (readBinary? s)).map fun bs => .scalar (.bytes bs)
  | .timestamp => (orFault .malformedScalar (readTimestamp? s)).map fun
    | .inl d => .scalar (.date d)
    | .inr m => .scalar (.moment m)
  | .str => .ok (.text s)
  | .pairs | .set | .seq | .map => .error .wrongKind
  | .merge | .value | .unknown => .error .unknownTag

def Tag.isScalar : Tag → Bool
  | null | bool | int | float | binary | timestamp | str => true
  | _ => false

def Node.tag : Node → Tag
  | .scalar tag _ => tag
  | .sequence tag _ => tag
  | .mapping tag _ => tag
  | .alias _ => .unknown

/-- The text that a mapping stands for where a scalar is asked for: that of its own value. -/
def ownText? : List (Node × Node) → Option Text
  | [] => none
  | (.scalar .value _, .scalar _ s) :: _ => some s
  | (.scalar .value _, .mapping _ es) :: _ => ownText? es
  | (.scalar .value _, _) :: _ => none
  | _ :: rest => ownText? rest

def toKey : Datum → Except Fault Key
  | .scalar s => .ok (.scalar s)
  | _ => .error .unhashableKey

def keySet (entries : List (Key × Datum)) : List Datum :=
  (Entries.ofList Key.sameInDocument entries).filterMap fun e =>
    match e.1 with
    | .scalar s => some (.scalar s)
    | .tuple _ => none

/-- The entries of a mapping: those taken over from others, and its own. -/
abbrev Gathered := List (Key × Datum) × List (Key × Datum)

mutual

def Node.toDatum : Node → Except Fault Datum
  | .alias _ => .error .undefinedAlias
  | .scalar tag s => scalarDatum tag s
  | .sequence tag items =>
    match tag with
    | .seq => do
      let ds ← allToData items
      .ok (.list ds)
    | .pairs => do
      let ds ← allToPairs items
      .ok (.list ds)
    | _ => if tag.isScalar ∨ tag = .map ∨ tag = .set then .error .wrongKind else .error .unknownTag
  | .mapping tag entries =>
    match tag with
    | .map => do
      let (taken, own) ← gather entries
      .ok (.map (Entries.ofList Key.sameInDocument (taken ++ own)))
    | .set => do
      let (taken, own) ← gather entries
      .ok (.set (keySet (taken ++ own)))
    | _ =>
      if tag.isScalar ∧ tag ≠ .timestamp then
        match ownText? entries with
        | some s => scalarDatum tag s
        | none => .error .wrongKind
      else .error .unknownTag

def allToData : List Node → Except Fault (List Datum)
  | [] => .ok []
  | n :: rest => do
    let d ← n.toDatum
    let ds ← allToData rest
    .ok (d :: ds)

def allToPairs : List Node → Except Fault (List Datum)
  | [] => .ok []
  | .mapping _ [(k, v)] :: rest => do
    let k ← k.toDatum
    let v ← v.toDatum
    let ds ← allToPairs rest
    .ok (.tuple [k, v] :: ds)
  | _ :: _ => .error .wrongKind

/-- The entries of a mapping. Under the key of merging stand a mapping, or a sequence of mappings of
which the first come last. -/
def gather : List (Node × Node) → Except Fault Gathered
  | [] => .ok ([], [])
  | (k, v) :: rest =>
    if k.tag = .merge then do
      let more ← sources v
      let (taken, own) ← gather rest
      .ok (more ++ taken, own)
    else do
      let key ← (if k.tag = .value then keyText k else do
        let d ← k.toDatum
        toKey d : Except Fault Key)
      let value ← v.toDatum
      let (taken, own) ← gather rest
      .ok (taken, (key, value) :: own)

/-- The key of a mapping's own value is a text. -/
def keyText : Node → Except Fault Key
  | .scalar _ s => .ok (.text s)
  | _ => .error .wrongKind

def sources : Node → Except Fault (List (Key × Datum))
  | .mapping _ entries => do
    let (taken, own) ← gather entries
    .ok (taken ++ own)
  | .sequence _ items => allSources items
  | _ => .error .malformedMerge

def allSources : List Node → Except Fault (List (Key × Datum))
  | [] => .ok []
  | .mapping _ entries :: rest => do
    let (taken, own) ← gather entries
    let more ← allSources rest
    .ok (more ++ (taken ++ own))
  | _ :: _ => .error .malformedMerge

end

/-- The datum that a text writes. A text without a document writes none. -/
def read (text : Text) : Except Fault Datum := do
  let ts ← tokens text
  match ← documentRoot ts with
  | none => .ok .null
  | some (n, nodes) =>
    let depth := (ts.length + 1) * (maxVisits * nodes.length + 1)
    (n.inlined nodes depth []).toDatum

end Phrasebook.Yaml
