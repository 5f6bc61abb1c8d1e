import EvalOrder.Files.Path
import EvalOrder.Table

/-!
# Files

What a program can see from the directory it works in: files with their bytes, and directories. The working directory,
those above it and the null device, which keeps nothing, are always there.

A path is looked up name by name. It fails at the first name that is not there or that is looked up in a file. `read` is
`open` for reading, and `openAppend` is `open` for appending, which `FileHandler` calls with the path that `abspath`
gives (`plainPath`). Left out are other devices and what other programs do to files meanwhile.
-/

namespace EvalOrder.Files

open Text (Points)

/-- What stands at a path. -/
inductive Node where
  | file (bytes : Bytes)
  | directory
  /-- A file that is empty and stays so. -/
  | sink
  deriving DecidableEq, Repr

/-- The names of the working directory, and what stands where. -/
structure Tree where
  directory : Names := []
  nodes : Table Names Node := []
  deriving DecidableEq, Repr

/-- What a look-up comes to. -/
inductive Found where
  | node (names : Names) (node : Node)
  /-- Nothing, in a directory that is there. -/
  | free (names : Names)
  | fault (fault : PathFault)
  deriving DecidableEq, Repr

namespace Tree

/-- The directory of the null device. -/
def devices : Names := [Points.ofString "dev"]

/-- The null device. -/
def nullDevice : Names := devices ++ [Points.ofString "null"]

/-- What stands at names. -/
def find (t : Tree) (names : Names) : Option Node :=
  if names.isPrefixOf t.directory ∨ names = devices then some .directory
  else if names = nullDevice then some .sink
  else Table.get? t.nodes names

/-- Where a path begins. -/
def startOf (t : Tree) (path : Points) : Names := if isAbsolute path then [] else t.directory

/-- The names on the way of a path, the last of which it leads to. -/
def places (t : Tree) (path : Points) : List Names :=
  let rec go (here : Names) : Names → List Names
    | [] => [here]
    | name :: more => here :: go (down here name) more
  go (t.startOf path) (namesOf path)

/-- Look names up, one after the other, from `here`. -/
def walk (t : Tree) (here : Names) : Names → Found
  | [] => match t.find here with
    | some node => .node here node
    | none => .free here
  | name :: more =>
    match t.find here with
    | none => .fault .notFound
    | some (.file _) | some .sink => .fault .notDirectory
    | some .directory =>
      if 255 < byteSize name then .fault .nameTooLong else t.walk (down here name) more

/-- Look a path up. An empty path leads nowhere, and one of 4096 bytes or more is too long. -/
def lookup (t : Tree) (path : Points) : Found :=
  if path = [] then .fault .notFound
  else if 4095 < byteSize path then .fault .nameTooLong
  else t.walk (t.startOf path) (namesOf path)

/-- The bytes of the file at a path. -/
def read (t : Tree) (path : Points) : Except PathError Bytes := do
  checkPath path
  match t.lookup path with
  | .node _ (.file bytes) => .ok bytes
  | .node _ .sink => .ok []
  | .node _ .directory => .error (.fault .isDirectory path)
  | .free _ => .error (.fault .notFound path)
  | .fault f => .error (.fault f path)

/-- Open the file at a path for appending, which makes it if it is not there. -/
def openAppend (t : Tree) (path : Points) : Except PathError (Names × Tree) := do
  checkPath path
  match t.lookup path with
  | .node names (.file _) | .node names .sink => .ok (names, t)
  | .node _ .directory => .error (.fault .isDirectory path)
  | .free names => .ok (names, { t with nodes := Table.put t.nodes names (.file []) })
  | .fault f => .error (.fault f path)

/-- Append a text to an opened file. -/
def append (t : Tree) (names : Names) (s : String) : Tree :=
  match Table.get? t.nodes names with
  | some (.file bytes) => { t with nodes := Table.put t.nodes names (.file (bytes ++ encode s)) }
  | _ => t

/-- Add a file or directory, and the directories on the way to it. -/
def add (t : Tree) (path : Points) (node : Node) : Tree :=
  let places := t.places path
  let nodes := places.dropLast.foldl (fun nodes names => Table.put nodes names .directory) t.nodes
  { t with nodes := Table.put nodes (places.getLastD []) node }

/-- The text of the file at a path, if there is one that is valid. -/
def text? (t : Tree) (path : Points) : Option String :=
  match t.read path with
  | .ok bytes => decode? bytes
  | .error _ => none

/-- A path from the root, made plain without looking at any file: no empty name, no `.` and no `..`. Two slashes at
the beginning, but not more, are kept. -/
def plainPath (t : Tree) (path : Points) : Points :=
  let plain := pathOf (descend (t.startOf path) (path.splitOn slash))
  if path.take 2 = [slash, slash] ∧ path[2]? ≠ some slash then slash :: plain else plain

end Tree

end EvalOrder.Files
