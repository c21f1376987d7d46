import Phrasebook.Document.Yaml.Tokens
import Phrasebook.Document.Yaml.Plain

/-!
# Nodes of a YAML document

The tokens of a text are read as a tree: scalars with their types, sequences, and mappings whose
entries stand in order. A node may be given a name, and an alias stands for the node of a name. The
tree is read by descent. Every step takes a token or goes into a part of a collection, so a multiple
of the number of tokens bounds the steps.
-/

namespace Phrasebook.Yaml

inductive Node where
  | scalar (tag : Tag) (text : Text)
  | sequence (tag : Tag) (items : List Node)
  | mapping (tag : Tag) (entries : List (Node × Node))
  | alias (name : Text)
  deriving Repr

def Node.empty : Node :=
  .scalar .null []

/-- A reading under way: the tokens that are left, what the handles of types stand for, the names
given so far, and the nodes of the names whose nodes are complete. -/
structure Reading where
  tokens : List Token
  handles : List (Text × Text)
  named : List Text
  nodes : List (Text × Node)
  deriving Repr

abbrev Read := StateT Reading (Except Fault)

namespace Read

def peek : Read (Option Token) :=
  return (← get).tokens.head?

def skip : Read Unit :=
  modify fun r => { r with tokens := r.tokens.drop 1 }

/-- Passes over the token that comes next, if it is a given one. -/
def skipIf (t : Token) : Read Bool := do
  if (← peek) = some t then
    skip
    return true
  else return false

def nextIn (ts : List Token) : Read Bool := do
  match ← peek with
  | some t => return ts.contains t
  | none => return true

end Read

/-- What is attached to a node: a name, and a type by its full name. -/
structure Properties where
  anchor : Option Text
  tag : Option Text
  deriving DecidableEq, Repr

/-- The type that a node was given, if it is one of its own. -/
def Properties.ownTag? (p : Properties) : Option Tag :=
  match p.tag with
  | none => none
  | some name => if name = [char '!'] then none else some (Tag.ofName name)

/-- A text without a line feed at its end, if it has anything else. -/
def withoutFeed (s : Text) : Text :=
  match s.reverse with
  | '\n' :: c :: rest => (c :: rest).reverse
  | _ => s

/-- The type of a scalar. One without a type of its own has the type that its text looks like if it
is plain or marked as such, and is a text otherwise. -/
def Properties.scalarTag (p : Properties) (plain : Bool) (text : Text) : Tag :=
  match p.ownTag? with
  | some t => t
  | none => if plain ∨ p.tag.isSome then Tag.ofPlain (withoutFeed text) else .str

def fullName (handle : Option Text) (suffix : Text) : Read Text := do
  match handle with
  | none => return suffix
  | some h =>
    match (← get).handles.lookup h with
    | some head => return head ++ suffix
    | none => throw .unknownTag

def properties : Read Properties := do
  match ← Read.peek with
  | some (.anchor name) =>
    Read.skip
    match ← Read.peek with
    | some (.tag handle suffix) =>
      Read.skip
      return ⟨some name, some (← fullName handle suffix)⟩
    | _ => return ⟨some name, none⟩
  | some (.tag handle suffix) =>
    Read.skip
    match ← Read.peek with
    | some (.anchor name) =>
      Read.skip
      return ⟨some name, some (← fullName handle suffix)⟩
    | _ => return ⟨none, some (← fullName handle suffix)⟩
  | _ => return ⟨none, none⟩

def giveName (anchor : Option Text) : Read Unit := do
  match anchor with
  | none => return
  | some name =>
    if (← get).named.contains name then throw .duplicateAnchor
    modify fun r => { r with named := name :: r.named }

def keepNode (anchor : Option Text) (node : Node) : Read Node := do
  match anchor with
  | none => return node
  | some name =>
    modify fun r => { r with nodes := (name, node) :: r.nodes }
    return node

/-- The tokens after which a part of a block has nothing written for it. -/
def blockStops : List Token :=
  [.key, .value, .blockEnd]

mutual

/-- A node. Blocks are allowed in some places only, and sequences without indentation in fewer. -/
def node (block indentless : Bool) : Nat → Read Node
  | 0 => throw .unexpectedToken
  | fuel + 1 => do
    match ← Read.peek with
    | some (.alias name) =>
      Read.skip
      if (← get).named.contains name then return .alias name else throw .undefinedAlias
    | _ =>
      let p ← properties
      match ← Read.peek with
      | some (.scalar plain text) =>
        Read.skip
        giveName p.anchor
        keepNode p.anchor (.scalar (p.scalarTag plain text) text)
      | some .flowSequence =>
        Read.skip
        giveName p.anchor
        let items ← flowItems true fuel
        keepNode p.anchor (.sequence (p.ownTag?.getD .seq) items)
      | some .flowMapping =>
        Read.skip
        giveName p.anchor
        let entries ← flowEntries true fuel
        keepNode p.anchor (.mapping (p.ownTag?.getD .map) entries)
      | t =>
        if t = some .blockEntry ∧ indentless then
          giveName p.anchor
          let items ← indentlessItems fuel
          keepNode p.anchor (.sequence (p.ownTag?.getD .seq) items)
        else if t = some .blockSequence ∧ block then
          Read.skip
          giveName p.anchor
          let items ← blockItems fuel
          keepNode p.anchor (.sequence (p.ownTag?.getD .seq) items)
        else if t = some .blockMapping ∧ block then
          Read.skip
          giveName p.anchor
          let entries ← blockEntries fuel
          keepNode p.anchor (.mapping (p.ownTag?.getD .map) entries)
        else if p = ⟨none, none⟩ then throw .unexpectedToken
        else
          giveName p.anchor
          keepNode p.anchor (.scalar (p.scalarTag true []) [])

/-- A node, or nothing where one of the given tokens comes next. -/
def nodeUnless (stops : List Token) (block indentless : Bool) : Nat → Read Node
  | 0 => throw .unexpectedToken
  | fuel + 1 => do
    if ← Read.nextIn stops then return .empty else node block indentless fuel

def blockItems : Nat → Read (List Node)
  | 0 => throw .unexpectedToken
  | fuel + 1 => do
    if ← Read.skipIf .blockEntry then
      let item ← nodeUnless [.blockEntry, .blockEnd] true false fuel
      return item :: (← blockItems fuel)
    else if ← Read.skipIf .blockEnd then return []
    else throw .unexpectedToken

/-- The items of a sequence that is indented no further than the mapping around it. -/
def indentlessItems : Nat → Read (List Node)
  | 0 => throw .unexpectedToken
  | fuel + 1 => do
    if ← Read.skipIf .blockEntry then
      let item ← nodeUnless (.blockEntry :: blockStops) true false fuel
      return item :: (← indentlessItems fuel)
    else return []

/-- The entries of an indented mapping, up to its end. -/
def blockEntries : Nat → Read (List (Node × Node))
  | 0 => throw .unexpectedToken
  | fuel + 1 => do
    if ← Read.skipIf .key then
      let key ← nodeUnless blockStops true true fuel
      let value ← valueIn blockStops true fuel
      return (key, value) :: (← blockEntries fuel)
    else if ← Read.skipIf .blockEnd then return []
    else throw .unexpectedToken

/-- The value of an entry, or nothing if none is written. -/
def valueIn (stops : List Token) (block : Bool) : Nat → Read Node
  | 0 => throw .unexpectedToken
  | fuel + 1 => do
    if ← Read.skipIf .value then nodeUnless stops block block fuel else return .empty

/-- The items of a flow sequence, up to its bracket. An item may be an entry of a mapping of its
own. -/
def flowItems (first : Bool) : Nat → Read (List Node)
  | 0 => throw .unexpectedToken
  | fuel + 1 => do
    if ← Read.skipIf .flowSequenceEnd then return []
    else
      if !first then
        if !(← Read.skipIf .flowEntry) then throw .unexpectedToken
      if ← Read.skipIf .key then
        let key ← nodeUnless [.value, .flowEntry, .flowSequenceEnd] false false fuel
        let value ← valueIn [.flowEntry, .flowSequenceEnd] false fuel
        return .mapping .map [(key, value)] :: (← flowItems false fuel)
      else if ← Read.skipIf .flowSequenceEnd then return []
      else
        let item ← node false false fuel
        return item :: (← flowItems false fuel)

/-- The entries of a flow mapping, up to its bracket. A key may stand alone. -/
def flowEntries (first : Bool) : Nat → Read (List (Node × Node))
  | 0 => throw .unexpectedToken
  | fuel + 1 => do
    if ← Read.skipIf .flowMappingEnd then return []
    else
      if !first then
        if !(← Read.skipIf .flowEntry) then throw .unexpectedToken
      if ← Read.skipIf .key then
        let key ← nodeUnless [.value, .flowEntry, .flowMappingEnd] false false fuel
        let value ← valueIn [.flowEntry, .flowMappingEnd] false fuel
        return (key, value) :: (← flowEntries false fuel)
      else if ← Read.skipIf .flowMappingEnd then return []
      else
        let key ← node false false fuel
        return (key, .empty) :: (← flowEntries false fuel)

end

def defaultHandles : List (Text × Text) :=
  [([char '!'], [char '!']), ([char '!', char '!'], Tag.home)]

/-- The directives in front of a document. A version must be one that is known. -/
def directives : (versioned : Bool) → (handles : List (Text × Text)) → List Token →
    Except Fault (List (Text × Text) × List Token)
  | versioned, handles, .directive d :: rest =>
    match d with
    | .version major =>
      if versioned ∨ major ≠ 1 then .error .malformedDirective else directives true handles rest
    | .handle name replacement =>
      if (handles.lookup name).isSome then .error .malformedDirective
      else directives versioned (handles ++ [(name, replacement)]) rest
    | .other => directives versioned handles rest
  | _, handles, rest => .ok (handles, rest)

/-- The root of a document whose marks are read, and the tokens after it. -/
def root (handles : List (Text × Text)) (tokens : List Token) :
    Except Fault ((Node × List (Text × Node)) × List Token) := do
  let (n, r) ← (node true false (4 * tokens.length + 4)).run ⟨tokens, handles, [], []⟩
  .ok ((n, r.nodes), r.tokens)

/-- The root of the document that tokens write, if they write one, with the nodes of its names.
Nothing but the mark of its end may follow the document. -/
def documentRoot (tokens : List Token) : Except Fault (Option (Node × List (Text × Node))) := do
  match tokens with
  | [] => .ok none
  | tokens =>
    let explicit : Bool := match tokens.head? with
      | some (.directive _) => true
      | t => t = some .documentStart
    let (n, rest) ← (
      if explicit then do
        let (declared, rest) ← directives false [] tokens
        let handles := declared ++ defaultHandles
        match rest with
        | .documentStart :: rest =>
          match rest with
          | [] => .ok ((.empty, []), [])
          | .directive _ :: _ => .ok ((.empty, []), rest)
          | .documentStart :: _ => .ok ((.empty, []), rest)
          | .documentEnd :: _ => .ok ((.empty, []), rest)
          | rest => root handles rest
        | _ => .error .unexpectedToken
      else root defaultHandles tokens : Except Fault ((Node × List (Text × Node)) × List Token))
    if rest.all (· = .documentEnd) then .ok (some n) else .error .extraDocument

end Phrasebook.Yaml
