import EvalOrder.Document.Value
import EvalOrder.Text.Case

/-!
# Schemas

A schema lists the fields that a mapping may have, each with its rules. A mapping is checked against it in passes, as by
the validator that the schema is handed to:

* `withDefaults` gives a default to the fields that have no value, or null where null may not stand, and `coerced` then
  changes values as their fields ask. Both together are `normalize`.
* `drawn` goes through the keys of the mapping that is left. A key that is no field's name draws a complaint; another
  one draws what the rules of its field make of its value (`complaints`).
* Rules are applied in an order of their own (`queue`): first whether null may stand, which is asked of every field,
  then the kind of the value, then the others as they are listed. Null and a value of the wrong kind are not looked at
  any further.

Left out is what needs other rules than those of the type `Rule`: required, renamed and purged fields, and schemas in
schemas. So are collections under `allowed`, which a rule about the kind of the value keeps away from it.

Results:
* `complaints_null`, `complaints_of_not_holds`, `complaints_of_holds`: what comes of null and of kinds.
* `complaints_eq_nil_iff`: when nothing is wrong with a value.
* `eq_of_field?`: a field is found by its name only.
* `drawn_eq_nil_iff`: a mapping draws nothing if none of its keys does.
-/

namespace EvalOrder

open Text (Points)

namespace Schema

/-- The kinds of values that can be asked for. -/
inductive Kind where
  | text
  | bool
  | int
  deriving DecidableEq, Repr

namespace Kind

def name : Kind → String
  | text => "string"
  | bool => "boolean"
  | int => "integer"

/-- A value is of a kind. A truth value is an integer too. -/
def holds : Kind → Value → Bool
  | text, .text _ => true
  | bool, .bool _ => true
  | int, .bool _ => true
  | int, .int _ => true
  | _, _ => false

theorem holds_text_iff {v : Value} : text.holds v = true ↔ ∃ ps, v = .text ps := by
  cases v <;> simp [holds]

theorem holds_bool_iff {v : Value} : bool.holds v = true ↔ ∃ b, v = .bool b := by
  cases v <;> simp [holds]

theorem holds_int_iff {v : Value} : int.holds v = true ↔ (∃ b, v = .bool b) ∨ ∃ n, v = .int n := by
  cases v <;> simp [holds]

end Kind

/-- How a value is changed before it is checked. -/
inductive Coercion where
  | upper
  deriving DecidableEq, Repr

/-- Only a text can be put in capital letters; other values stay as they are. -/
def Coercion.apply : Coercion → Value → Value
  | upper, .text ps => .text (Points.upper ps)
  | upper, v => v

/-- A rule for the value of a field. -/
inductive Rule where
  | type (kind : Kind)
  | coerce (coercion : Coercion)
  | allowed (texts : List String)
  | min (least : Int)
  | nullable (mayBeNull : Bool)
  | default (value : Value)

/-- A field and its rules, as they are listed. -/
structure Field where
  name : String
  rules : List Rule

end Schema

/-- The fields that a mapping may have. -/
structure Schema where
  fields : List Schema.Field
  nodup : (fields.map Schema.Field.name).Nodup

/-- What is wrong with the value of a key. -/
inductive Complaint where
  | unknownField
  | notNullable
  | wrongKind (kind : Schema.Kind)
  | unallowed (value : Points)
  | tooSmall (least : Int)
  deriving DecidableEq, Repr

def Complaint.message : Complaint → Points
  | unknownField => Points.ofString "unknown field"
  | notNullable => Points.ofString "null value not allowed"
  | wrongKind kind => Points.ofString s!"must be of {kind.name} type"
  | unallowed value => Points.ofString "unallowed value " ++ value
  | tooSmall least => Points.ofString s!"min value is {least}"

namespace Schema

/-! ## Rules -/

/-- Null may stand, which it may not unless a rule says so. -/
def nullable (rules : List Rule) : Bool :=
  rules.any fun
    | .nullable mayBeNull => mayBeNull
    | _ => false

def default? (rules : List Rule) : Option Value :=
  rules.findSome? fun
    | .default value => some value
    | _ => none

def coercion? (rules : List Rule) : Option Coercion :=
  rules.findSome? fun
    | .coerce coercion => some coercion
    | _ => none

/-- What a rule makes of a value: complaints, and whether the rules that would follow are dropped. -/
structure Verdict where
  complaints : List Complaint := []
  last : Bool := false

/-- A value that cannot be compared with a minimum is not too small. -/
def Rule.verdict (v : Value) : Rule → Verdict
  | .nullable mayBeNull => match v with
    | .null => ⟨if mayBeNull then [] else [.notNullable], true⟩
    | _ => {}
  | .type kind => if kind.holds v then {} else ⟨[.wrongKind kind], true⟩
  | .allowed texts => match v with
    | .text ps => if texts.any fun t => Points.ofString t = ps then {} else { complaints := [.unallowed ps] }
    | v => { complaints := [.unallowed (Points.ofString v.shown)] }
  | .min least => if v.less? (.int least) = some true then { complaints := [.tooSmall least] } else {}
  | .coerce _ => {}
  | .default _ => {}

/-- The rules by which a value is checked, in the order in which they are applied. -/
def queue (rules : List Rule) : List Rule :=
  let kinds := rules.filter fun
    | .type _ => true
    | _ => false
  let others := rules.filter fun
    | .allowed _ => true
    | .min _ => true
    | _ => false
  .nullable (nullable rules) :: (kinds ++ others)

/-- What rules make of a value, until one of them is the last. -/
def complaints (v : Value) : List Rule → List Complaint
  | [] => []
  | rule :: rules =>
    let verdict := rule.verdict v
    verdict.complaints ++ if verdict.last then [] else complaints v rules

namespace Field

/-- There is no value, or null where it may not stand. -/
def lacks (f : Field) : Option Value → Bool
  | none => true
  | some .null => !nullable f.rules
  | some _ => false

/-- Give the field its default, if it has one. -/
def putDefault (m : Mapping) (f : Field) : Mapping :=
  match default? f.rules with
  | some value => m.put (.ofString f.name) value
  | none => m

def coerce (f : Field) (v : Value) : Value :=
  match coercion? f.rules with
  | some coercion => coercion.apply v
  | none => v

/-- What is wrong with a value of the field. -/
def check (f : Field) (v : Value) : List Complaint := complaints v (queue f.rules)

end Field

/-! ## Null and kinds -/

section Queue

variable {v : Value} {kind : Kind} (mayBeNull : Bool) (rules : List Rule)

theorem complaints_null :
    complaints .null (.nullable mayBeNull :: rules) = if mayBeNull then [] else [.notNullable] := by
  simp [complaints, Rule.verdict]

theorem complaints_nullable (hv : v ≠ .null) : complaints v (.nullable mayBeNull :: rules) = complaints v rules := by
  cases v with
  | null => exact absurd rfl hv
  | _ => rfl

theorem complaints_of_not_holds (hv : v ≠ .null) (hkind : kind.holds v = false) :
    complaints v (.nullable mayBeNull :: .type kind :: rules) = [.wrongKind kind] := by
  rw [complaints_nullable _ _ hv]
  simp [complaints, Rule.verdict, hkind]

theorem complaints_of_holds (hv : v ≠ .null) (hkind : kind.holds v = true) :
    complaints v (.nullable mayBeNull :: .type kind :: rules) = complaints v rules := by
  rw [complaints_nullable _ _ hv]
  simp [complaints, Rule.verdict, hkind]

/-- Nothing is wrong with null where it may stand, and with a value of the right kind that the other rules pass. -/
theorem complaints_eq_nil_iff : complaints v (.nullable mayBeNull :: .type kind :: rules) = [] ↔
    (v = .null ∧ mayBeNull = true) ∨ (v ≠ .null ∧ kind.holds v = true ∧ complaints v rules = []) := by
  by_cases hv : v = .null
  · subst hv
    cases mayBeNull <;> simp [complaints_null]
  · cases hkind : kind.holds v with
    | false => simp [complaints_of_not_holds _ _ hv hkind, hv]
    | true => simp [complaints_of_holds _ _ hv hkind, hv]

end Queue

/-! ## Checking a mapping -/

variable (s : Schema)

/-- The field whose name a key is. -/
def field? (key : Value) : Option Field := s.fields.find? fun f => key.sameKey (.ofString f.name)

/-- Which fields lack a value is asked before any of them gets its default. -/
def withDefaults (m : Mapping) : Mapping :=
  (s.fields.filter fun f => f.lacks (m.get? (.ofString f.name))).foldl Field.putDefault m

/-- Change the values in their places. -/
def coerced (m : Mapping) : Mapping :=
  m.map fun e => (e.1, ((s.field? e.1).map fun f => f.coerce e.2).getD e.2)

def normalize (m : Mapping) : Mapping := s.coerced (s.withDefaults m)

/-- What is wrong with the value of a key. -/
def complaintsOf (m : Mapping) (key : Value) : List Complaint :=
  match s.field? key with
  | none => [.unknownField]
  | some f => ((m.get? key).map f.check).getD []

/-- What is wrong with a mapping, key by key. -/
def drawn (m : Mapping) : List (Value × Complaint) :=
  m.keys.flatMap fun key => (s.complaintsOf m key).map fun c => (key, c)

variable {s}

theorem eq_of_field? {key : Value} {f : Field} (h : s.field? key = some f) : f ∈ s.fields ∧ key = .ofString f.name := by
  unfold field? at h
  refine ⟨List.mem_of_find?_eq_some h, ?_⟩
  have hsame := List.find?_some h
  exact Value.sameKey_text.mp hsame

theorem drawn_eq_nil_iff {m : Mapping} : s.drawn m = [] ↔ ∀ key ∈ m.keys, s.complaintsOf m key = [] := by
  simp [drawn]

end Schema

end EvalOrder
