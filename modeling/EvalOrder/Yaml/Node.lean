import EvalOrder.Yaml.Kind
import EvalOrder.Yaml.Token

/-!
# The nodes of a document

A document is made of nodes: scalars, sequences and mappings, each of a kind. Nodes are numbered, and a collection holds
the numbers of its parts, since an anchor names a node, and every alias stands for that very node. An anchor may be set
once; it may be referred to inside the node that it names, so a collection may hold itself.

`document?` builds the nodes from the tokens of a text that holds at most one document: the `Parser` and the `Composer`
of the YAML library in one, without the events that go between them and without the places of nodes. The functions that
read nodes take the number of steps that they may make. Every step passes a token or ends a collection, so four for each
token are enough.
-/

namespace EvalOrder.Yaml

open Text (Points)

/-- The number of a node. -/
abbrev NodeId := Nat

/-- What a node holds. -/
inductive Content where
  | scalar (text : Points)
  | seq (items : List NodeId)
  | map (entries : List (NodeId × NodeId))
  deriving DecidableEq, Repr

structure Node where
  kind : Kind
  content : Content
  deriving DecidableEq, Repr

/-- Nodes by their numbers. -/
abbrev Nodes := Array Node

namespace Node

/-- A scalar with its tag, if it has one. Its spelling may tell its kind when it is plain, or has the tag `!`. -/
def ofScalar (tag : Option (List Char)) (text : Points) (plain : Bool) : Node where
  kind := Kind.ofTag? tag (if plain || tag.isSome then kindOf text else .str)
  content := .scalar text

def ofSeq (tag : Option (List Char)) (items : List NodeId) : Node where
  kind := Kind.ofTag? tag .seq
  content := .seq items

def ofMap (tag : Option (List Char)) (entries : List (NodeId × NodeId)) : Node where
  kind := Kind.ofTag? tag .map
  content := .map entries

/-- The node where nothing is written. -/
def empty : Node := ofScalar none [] true

end Node

/-- A document: its nodes, and the number of its root. -/
structure Document where
  root : NodeId
  nodes : Nodes

/-- What a document is read from: the tokens that are left, why there are no more, the nodes so far, which of them
the anchors name, and what the handles of tags stand for. -/
structure Source where
  tokens : List Token
  failure : Option Failure := none
  nodes : Nodes := #[]
  anchors : Table (List Char) NodeId := []
  handles : Table (List Char) (List Char) :=
    [("!".toList, "!".toList), ("!!".toList, "tag:yaml.org,2002:".toList)]

/-- Reading part of a document: it may fail. -/
abbrev Reader := StateT Source (Except Failure)

namespace Reader

/-- Fail because the tokens make no document. -/
def refuse {α : Type} : Reader α := throw .malformed

/-- The next token. -/
def peek : Reader Token := do
  let s ← get
  match s.tokens, s.failure with
  | t :: _, _ => return t
  | [], some e => throw e
  | [], none => return .streamEnd

/-- Pass the next token. -/
def shift : Reader Unit := modify fun s => { s with tokens := s.tokens.tail }

/-- Pass the next token, which has to be `t`. -/
def expect (t : Token) : Reader Unit := do
  if (← peek) = t then shift else refuse

def anchor? : Reader (Option (List Char)) := do
  match ← peek with
  | .anchor name => shift; return some name
  | _ => return none

/-- A tag as its handle and its suffix. -/
def tag? : Reader (Option (Option (List Char) × List Char)) := do
  match ← peek with
  | .tag handle suffix => shift; return some (handle, suffix)
  | _ => return none

/-- The tag that a handle and a suffix make. -/
def tagOf : Option (Option (List Char) × List Char) → Reader (Option (List Char))
  | none => return none
  | some (none, suffix) => return some suffix
  | some (some handle, suffix) => do
    match Table.get? (← get).handles handle with
    | some expansion => return some (expansion ++ suffix)
    | none => refuse

/-- The anchor and the tag before a node, in either order. -/
def properties : Reader (Option (List Char) × Option (List Char)) := do
  match ← anchor? with
  | some name => return (some name, ← tagOf (← tag?))
  | none =>
    let tag ← tag?
    let anchor ← if tag.isSome then anchor? else pure none
    return (anchor, ← tagOf tag)

/-- Add a node. -/
def add (node : Node) : Reader NodeId :=
  modifyGet fun s => (s.nodes.size, { s with nodes := s.nodes.push node })

/-- Reserve a number for a node, which an anchor may name. An anchor may not be set twice. -/
def reserve (anchor : Option (List Char)) : Reader NodeId := do
  let id ← add .empty
  if let some name := anchor then
    if (Table.get? (← get).anchors name).isSome then refuse
    else modify fun s => { s with anchors := Table.put s.anchors name id }
  return id

/-- Complete a node that was reserved. -/
def complete (id : NodeId) (node : Node) : Reader NodeId :=
  modifyGet fun s => (id, { s with nodes := s.nodes.setIfInBounds id node })

mutual

/-- A node. Block collections are read where `block` is set, and a block sequence without an indentation of its own
where `level` is. -/
def node : Nat → (block level : Bool) → Reader NodeId
  | 0, _, _ => refuse
  | steps + 1, block, level => do
    match ← peek with
    | .alias name =>
      shift
      match Table.get? (← get).anchors name with
      | some id => return id
      | none => refuse
    | _ =>
      let (anchor, tag) ← properties
      let next ← peek
      let id ← reserve anchor
      match next, block, level with
      | .blockEntry, _, true => complete id (.ofSeq tag (← levelItems steps))
      | .scalar text plain, _, _ => shift; complete id (.ofScalar tag text plain)
      | .flowSequenceStart, _, _ => shift; complete id (.ofSeq tag (← flowItems steps true))
      | .flowMappingStart, _, _ => shift; complete id (.ofMap tag (← flowEntries steps true))
      | .blockSequenceStart, true, _ => shift; complete id (.ofSeq tag (← blockItems steps))
      | .blockMappingStart, true, _ => shift; complete id (.ofMap tag (← blockEntries steps))
      | _, _, _ => if anchor.isSome || tag.isSome then complete id (.ofScalar tag [] true) else refuse

/-- A node, or the empty one where one of `ends` is next. -/
def nodeUnless : Nat → (ends : List Token) → (block level : Bool) → Reader NodeId
  | 0, _, _, _ => refuse
  | steps + 1, ends, block, level => do
    if ends.contains (← peek) then add .empty else node steps block level

/-- The items of a block sequence. -/
def blockItems : Nat → Reader (List NodeId)
  | 0 => refuse
  | steps + 1 => do
    match ← peek with
    | .blockEntry =>
      shift
      let item ← nodeUnless steps [.blockEntry, .blockEnd] true false
      return item :: (← blockItems steps)
    | _ => expect .blockEnd; return []

/-- The items of a block sequence that is indented no deeper than the mapping around it. -/
def levelItems : Nat → Reader (List NodeId)
  | 0 => refuse
  | steps + 1 => do
    match ← peek with
    | .blockEntry =>
      shift
      let item ← nodeUnless steps [.blockEntry, .key, .value, .blockEnd] true false
      return item :: (← levelItems steps)
    | _ => return []

/-- The value after a key. -/
def blockValue : Nat → Reader NodeId
  | 0 => refuse
  | steps + 1 => do
    match ← peek with
    | .value => shift; nodeUnless steps [.key, .value, .blockEnd] true true
    | _ => add .empty

/-- The entries of a block mapping. -/
def blockEntries : Nat → Reader (List (NodeId × NodeId))
  | 0 => refuse
  | steps + 1 => do
    match ← peek with
    | .key =>
      shift
      let key ← nodeUnless steps [.key, .value, .blockEnd] true true
      let value ← blockValue steps
      return (key, value) :: (← blockEntries steps)
    | _ => expect .blockEnd; return []

/-- The value after a key in a flow collection that ends with `close`. -/
def flowValue : Nat → (close : Token) → Reader NodeId
  | 0, _ => refuse
  | steps + 1, close => do
    match ← peek with
    | .value => shift; nodeUnless steps [.flowEntry, close] false false
    | _ => add .empty

/-- The items of a flow sequence; one may be a mapping of a single entry without brackets. -/
def flowItems : Nat → (first : Bool) → Reader (List NodeId)
  | 0, _ => refuse
  | steps + 1, first => do
    if (← peek) = .flowSequenceEnd then shift; return []
    else
      if !first then expect .flowEntry
      match ← peek with
      | .flowSequenceEnd => shift; return []
      | .key =>
        shift
        let key ← nodeUnless steps [.value, .flowEntry, .flowSequenceEnd] false false
        let value ← flowValue steps .flowSequenceEnd
        let item ← add (.ofMap none [(key, value)])
        return item :: (← flowItems steps false)
      | _ =>
        let item ← node steps false false
        return item :: (← flowItems steps false)

/-- The entries of a flow mapping; one may be a key alone. -/
def flowEntries : Nat → (first : Bool) → Reader (List (NodeId × NodeId))
  | 0, _ => refuse
  | steps + 1, first => do
    if (← peek) = .flowMappingEnd then shift; return []
    else
      if !first then expect .flowEntry
      match ← peek with
      | .flowMappingEnd => shift; return []
      | .key =>
        shift
        let key ← nodeUnless steps [.value, .flowEntry, .flowMappingEnd] false false
        let value ← flowValue steps .flowMappingEnd
        return (key, value) :: (← flowEntries steps false)
      | _ =>
        let key ← node steps false false
        let value ← add .empty
        return (key, value) :: (← flowEntries steps false)

end

/-- The directives before a document. The version may be given once and has to be 1, and a handle may be given
once. -/
def directives : Nat → (versioned : Bool) → (given : List (List Char)) → Reader Unit
  | 0, _, _ => refuse
  | steps + 1, versioned, given => do
    match ← peek with
    | .version major =>
      if versioned || major ≠ 1 then refuse
      else shift; directives steps true given
    | .handle name expansion =>
      if given.contains name then refuse
      else
        shift
        modify fun s => { s with handles := Table.put s.handles name expansion }
        directives steps versioned (name :: given)
    | .otherDirective => shift; directives steps versioned given
    | _ => return

/-- Pass the marks that end a document. -/
def passEnds : Reader Unit :=
  modify fun s => { s with tokens := s.tokens.dropWhile (· = .documentEnd) }

/-- The end of the text. Directives before a second document are read, but there may be none. -/
def textEnd : Reader Unit := do
  passEnds
  if (← peek) = .streamEnd then return
  else
    directives ((← get).tokens.length + 1) false []
    expect .documentStart
    refuse

/-- The root of the document, if there is one, and then the end of the text. -/
def root? : Reader (Option NodeId) := do
  let steps := 4 * (← get).tokens.length + 4
  match ← peek with
  | .streamEnd => return none
  | .version _ | .handle _ _ | .otherDirective | .documentStart =>
    directives steps false []
    expect .documentStart
    let root ← match ← peek with
      | .version _ | .handle _ _ | .otherDirective | .documentStart | .documentEnd | .streamEnd =>
        add .empty
      | _ => node steps true false
    textEnd
    return some root
  | _ =>
    let root ← node steps true false
    textEnd
    return some root

end Reader

/-- The document that tokens make up, if there is one; a failure when they make up no or several documents. -/
def document? (ts : Tokens) : Except Failure (Option Document) :=
  (Reader.root?.run { tokens := ts.tokens, failure := ts.failure }).map fun (root, s) =>
    root.map fun root => ⟨root, s.nodes⟩

end EvalOrder.Yaml
