import EvalOrder.Yaml.Node

/-!
# Merged entries

An entry of a mapping whose key is of the kind `merge` stands for other entries: those of the mapping that is its value,
or of the mappings in the sequence that is its value, the last one first. `settle` puts them into the mapping, in front
of its own, so that later ones override them; the mappings that they come from are settled before. In a settled mapping
a key of the kind `default` is a text like others. This is `flatten_mapping`.

Settling changes the nodes, since a node may be part of several others: what it has become counts for all of them. A
mapping may be merged into itself. Every step takes a merge key away and none is put in, so as many steps are enough as
there are merge keys.
-/

namespace EvalOrder.Yaml

namespace Nodes

/-- The kind of a node. -/
def kindOf (nodes : Nodes) (i : NodeId) : Kind :=
  match nodes[i]? with
  | some node => node.kind
  | none => .other

/-- The entries of a node, if it is a mapping. -/
def entries? (nodes : Nodes) (i : NodeId) : Option (List (NodeId × NodeId)) :=
  match nodes[i]? with
  | some ⟨_, .map entries⟩ => some entries
  | _ => none

/-- Give a mapping other entries. -/
def setEntries (nodes : Nodes) (i : NodeId) (entries : List (NodeId × NodeId)) : Nodes :=
  nodes.modify i fun node => { node with content := .map entries }

/-- The number of merge keys in mappings. -/
def mergeKeys (nodes : Nodes) : Nat :=
  nodes.foldl (fun n node => match node.content with
    | .map entries => n + (entries.filter fun e => nodes.kindOf e.1 = .merge).length
    | _ => n) 0

/-- Take the first merge key off a mapping: its value, and the nodes without it. -/
def takeMerge? (nodes : Nodes) (i : NodeId) : Option (NodeId × Nodes) := do
  let entries ← nodes.entries? i
  let isMerge (e : NodeId × NodeId) : Bool := nodes.kindOf e.1 = .merge
  let entry ← entries.find? isMerge
  return (entry.2, nodes.setEntries i (entries.eraseP isMerge))

/-- Make the keys of the kind `default` texts. -/
def nameDefaults (nodes : Nodes) (entries : List (NodeId × NodeId)) : Nodes :=
  entries.foldl (fun nodes e =>
    nodes.modify e.1 fun key => if key.kind = .default then { key with kind := .str } else key) nodes

/-- Put entries in front of those of a mapping. -/
def prepend (nodes : Nodes) (i : NodeId) (merged : List (NodeId × NodeId)) : Nodes :=
  nodes.setEntries i (merged ++ (nodes.entries? i).getD [])

/-- The mappings that the value of a merge key consists of, if it is a mapping or a sequence. -/
def sources? (nodes : Nodes) (i : NodeId) : Option (List NodeId) :=
  match nodes[i]? with
  | some ⟨_, .map _⟩ => some [i]
  | some ⟨_, .seq items⟩ => some items
  | _ => none

/-- The entries of mappings, the last one first; each is settled by `settleOne` before. -/
def gather (settleOne : Nodes → NodeId → Except Failure Nodes) :
    List (NodeId × NodeId) → List NodeId → Nodes → Except Failure (List (NodeId × NodeId) × Nodes)
  | merged, [], nodes => .ok (merged, nodes)
  | merged, source :: more, nodes =>
    match nodes.entries? source with
    | none => .error .malformed
    | some _ => do
      let nodes ← settleOne nodes source
      gather settleOne ((nodes.entries? source).getD [] ++ merged) more nodes

/-- Settle a mapping. -/
def settle : Nat → Nodes → NodeId → Except Failure Nodes
  | 0, _, _ => .error .malformed
  | steps + 1, nodes, i =>
    match nodes.takeMerge? i with
    | none => .ok (nodes.nameDefaults ((nodes.entries? i).getD []))
    | some (value, nodes) =>
      match nodes.sources? value with
      | none => .error .malformed
      | some sources => do
        let (merged, nodes) ← gather (settle steps) [] sources nodes
        let nodes ← settle steps nodes i
        return nodes.prepend i merged

end Nodes

end EvalOrder.Yaml
