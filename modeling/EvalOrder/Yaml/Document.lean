import EvalOrder.Yaml.Merge
import EvalOrder.Yaml.ScalarValue

/-!
# The value of a document

A node stands for a value of its kind (`construct_document`). The value of a scalar is known when the scalar is met.
That of a collection is made later: the collections are gone through in the order in which they were met, the root
first, and the parts of each are met then. So of several failures the one that is nested least deeply is found, and the
first of those. Keys are scalars, and of two equal keys the later one's value counts. A node is met once, however many
aliases stand for it, and a collection may be part of itself; so values are read down to a depth, below which
collections are empty.

`read?` is `safe_load`: it gives the value of the document in a text, null when there is none, and a failure when the
text has no value.
-/

namespace EvalOrder.Yaml

open Text (Points)

namespace Nodes

/-- The text of a scalar; a mapping with a key of the kind `default` gives the text of its value. -/
def text? (nodes : Nodes) : Nat → NodeId → Option Points
  | 0, _ => none
  | steps + 1, i =>
    match nodes[i]? with
    | some ⟨_, .scalar text⟩ => some text
    | some ⟨_, .map entries⟩ => do
      let entry ← entries.find? fun e => nodes.kindOf e.1 = .default
      nodes.text? steps entry.2
    | _ => none

/-- The value of a scalar; it comes from its node. Dates and times are not read from mappings. -/
def scalar (nodes : Nodes) (i : NodeId) : Except Failure Value :=
  match nodes.text? (nodes.size + 1) i with
  | none => .error .malformed
  | some text =>
    if nodes.kindOf i = .stamp ∧ (nodes.entries? i).isSome then .error (.fault .stampOfMapping)
    else scalarValue (i + 1) (nodes.kindOf i) text

end Nodes

/-- What a node that was met stands for. -/
inductive Meaning where
  | scalar (value : Value)
  | list (items : List NodeId)
  | map (entries : Keyed NodeId)
  | set (keys : List Value)
  | pairs (entries : List (NodeId × NodeId))

/-- The making of values: the nodes, what those stand for that were met, and the collections in the order in which
they were met. -/
structure Making where
  nodes : Nodes
  meanings : Array (Option Meaning)
  collections : Array NodeId := #[]

namespace Making

/-- What a node stands for, if it was met. -/
def meaning? (m : Making) (i : NodeId) : Option Meaning := (m.meanings[i]?).join

def setMeaning (m : Making) (i : NodeId) (meaning : Meaning) : Making :=
  { m with meanings := m.meanings.setIfInBounds i (some meaning) }

/-- The collection of a kind that nothing is known of yet. -/
def emptyOf? : Kind → Option Meaning
  | .seq => some (.list [])
  | .map => some (.map [])
  | .set => some (.set [])
  | .omap => some (.pairs [])
  | .pairs => some (.pairs [])
  | _ => none

/-- Meet a node. -/
def meet (m : Making) (i : NodeId) : Except Failure Making :=
  if (m.meaning? i).isSome then .ok m
  else match emptyOf? (m.nodes.kindOf i) with
    | some empty => .ok { m.setMeaning i empty with collections := m.collections.push i }
    | none => (m.nodes.scalar i).map fun value => m.setMeaning i (.scalar value)

/-- Meet nodes, one after the other. -/
def meetAll (m : Making) : List NodeId → Except Failure Making
  | [] => .ok m
  | i :: more => do (← m.meet i).meetAll more

/-- Meet a node that is a key. -/
def meetKey (m : Making) (i : NodeId) : Except Failure (Value × Making) := do
  let m ← m.meet i
  match m.meaning? i with
  | some (.scalar value) => return (value, m)
  | _ => throw .malformed

/-- Meet the keys and values of entries. -/
def meetEntries (m : Making) : List (NodeId × NodeId) → Except Failure (List (Value × NodeId) × Making)
  | [] => .ok ([], m)
  | (k, v) :: more => do
    let (key, m) ← m.meetKey k
    let m ← m.meet v
    let (entries, m) ← m.meetEntries more
    return ((key, v) :: entries, m)

/-- Meet the parts of a sequence of mappings with a single entry each. -/
def meetPairs (m : Making) : List NodeId → Except Failure (List (NodeId × NodeId) × Making)
  | [] => .ok ([], m)
  | i :: more =>
    match m.nodes.entries? i with
    | some [(k, v)] => do
      let m ← (← m.meet k).meet v
      let (entries, m) ← m.meetPairs more
      return ((k, v) :: entries, m)
    | _ => .error .malformed

/-- Settle a mapping and meet its parts. -/
def meetMapping (steps : Nat) (m : Making) (i : NodeId) : Except Failure (Keyed NodeId × Making) := do
  let nodes ← m.nodes.settle steps i
  let (entries, m) ← { m with nodes }.meetEntries ((nodes.entries? i).getD [])
  return (Keyed.ofEntries entries, m)

/-- Meet the parts of a collection. -/
def fill (steps : Nat) (m : Making) (i : NodeId) : Except Failure Making :=
  match m.nodes[i]? with
  | some ⟨.seq, .seq items⟩ => (m.meetAll items).map (·.setMeaning i (.list items))
  | some ⟨.map, .map _⟩ => do
    let (entries, m) ← m.meetMapping steps i
    return m.setMeaning i (.map entries)
  | some ⟨.set, .map _⟩ => do
    let (entries, m) ← m.meetMapping steps i
    return m.setMeaning i (.set (entries.map (·.1)))
  | some ⟨.omap, .seq items⟩ | some ⟨.pairs, .seq items⟩ => do
    let (entries, m) ← m.meetPairs items
    return m.setMeaning i (.pairs entries)
  | _ => .error .malformed

/-- Meet the parts of the collections from a place in their order on. Each node is met once, so there are no more
steps than nodes. -/
def fillFrom (mergeSteps : Nat) : Nat → Nat → Making → Except Failure Making
  | 0, _, m => .ok m
  | steps + 1, place, m =>
    match m.collections[place]? with
    | none => .ok m
    | some i => do fillFrom mergeSteps steps (place + 1) (← m.fill mergeSteps i)

/-- The value of a node, down to a depth. -/
def value (m : Making) : (depth : Nat) → NodeId → Value
  | 0, i =>
    match m.meaning? i with
    | some (.scalar value) => value
    | some (.map _) => .map []
    | some _ => .list []
    | none => .null
  | depth + 1, i =>
    match m.meaning? i with
    | some (.scalar value) => value
    | some (.list items) => .list (items.map (m.value depth))
    | some (.map entries) => .map (entries.map fun e => (e.1, m.value depth e.2))
    | some (.set keys) => .list keys
    | some (.pairs entries) => .list (entries.map fun e => .list [m.value depth e.1, m.value depth e.2])
    | none => .null

end Making

/-- The value of a document, down to a depth. -/
def Document.value (depth : Nat) (d : Document) : Except Failure Value := do
  let m : Making := { nodes := d.nodes, meanings := Array.replicate d.nodes.size none }
  let m ← Making.fillFrom (d.nodes.mergeKeys + 1) (d.nodes.size + 1) 0 (← m.meet d.root)
  return m.value depth d.root

/-- The value of the document in a text, down to a depth. -/
def read? (depth : Nat) (text : Supply) : Except Failure Value := do
  match ← document? (tokens text) with
  | none => return .null
  | some d => d.value depth

end EvalOrder.Yaml
