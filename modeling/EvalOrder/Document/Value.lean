import EvalOrder.Document.Stamp
import EvalOrder.Number.Compare
import EvalOrder.Text.Quoted

/-!
# Values of a document

What a settings document can hold: scalars of several kinds, sequences and mappings. A mapping lists its entries in the
order in which their keys first came; giving a key another value keeps its place. Truth values count as the numbers 0
and 1, numbers are the same key when they are equal, and times when they name the same instant (`sameKey`, which is `==`
of keys).

`less?` is `<`: it compares scalars of one kind, and numbers with each other; others have no order, for which
`notComparable` is the message. `shown` is `repr`: it writes a value as messages show it. Left out is the order of
sequences, which are no keys.

Results:
* `keys_put`, `get?_put_self`, `get?_put_of_ne`: a key that is put keeps its place or is the last, and what was put is
  found under it and under no other text.
* `get?_map`: changing values in their places changes what is found.
-/

namespace EvalOrder

open Text (Points)

/-- A value of a document. -/
inductive Value where
  | null
  | bool (b : Bool)
  | int (n : Int)
  /-- A floating-point number. -/
  | float (x : Float)
  /-- A float that is no number. Those are told apart by where they come from: all that are named as such are the
  same one, of origin 0. -/
  | nan (origin : Nat)
  | text (ps : Points)
  | bytes (bytes : List UInt8)
  | date (d : Date)
  | time (t : Time)
  | list (items : List Value)
  | map (entries : List (Value × Value))
  deriving Inhabited

/-- Entries with a key each. -/
abbrev Keyed (β : Type) := List (Value × β)

/-- The entries of a mapping. -/
abbrev Mapping := Keyed Value

namespace Value

def ofString (s : String) : Value := text (Points.ofString s)

/-- The integer that a truth value or an integer counts as. -/
def asInt? : Value → Option Int
  | bool b => some (if b then 1 else 0)
  | int n => some n
  | _ => none

/-- Two scalars are the same key. -/
def sameKey : Value → Value → Bool
  | null, null => true
  | nan i, nan j => i = j
  | text s, text t => s = t
  | bytes s, bytes t => s = t
  | date d, date e => d = e
  | time s, time t => s.same t
  | float x, float y => x == y
  | float x, b => match b.asInt? with
    | some n => Number.compareInt? x n = some .eq
    | none => false
  | a, float y => match a.asInt? with
    | some m => Number.compareInt? y m = some .eq
    | none => false
  | a, b => match a.asInt?, b.asInt? with
    | some m, some n => m = n
    | _, _ => false

/-- A number, which every number can be compared with. -/
def isNumber : Value → Bool
  | bool _ => true
  | int _ => true
  | float _ => true
  | nan _ => true
  | _ => false

/-- One scalar is less than another, if they can be compared. -/
def less? : Value → Value → Option Bool
  | text s, text t => some (Points.before s t)
  | bytes s, bytes t => some (Points.before (s.map UInt8.toNat) (t.map UInt8.toNat))
  | date d, date e => some (d.ordinal < e.ordinal)
  | time s, time t => s.before? t
  | float x, float y => some (x < y)
  | nan _, b => if b.isNumber then some false else none
  | a, nan _ => if a.isNumber then some false else none
  | float x, b => b.asInt?.map fun n => Number.compareInt? x n = some .lt
  | a, float y => a.asInt?.map fun m => Number.compareInt? y m = some .gt
  | a, b => match a.asInt?, b.asInt? with
    | some m, some n => some (m < n)
    | _, _ => none

/-- The name of the kind of a value in messages. -/
def kindName : Value → String
  | null => "NoneType"
  | bool _ => "bool"
  | int _ => "int"
  | float _ => "float"
  | nan _ => "float"
  | text _ => "str"
  | bytes _ => "bytes"
  | date _ => "datetime.date"
  | time _ => "datetime.datetime"
  | list _ => "list"
  | map _ => "dict"

/-- What is said about two scalars that cannot be compared. -/
def notComparable : Value → Value → String
  | time _, time _ => "can't compare offset-naive and offset-aware datetimes"
  | time _, date _ => "can't compare datetime.datetime to datetime.date"
  | date _, time _ => "can't compare datetime.datetime to datetime.date"
  | a, b => s!"'<' not supported between instances of '{a.kindName}' and '{b.kindName}'"

mutual

/-- A value as messages show it. -/
def shown : Value → String
  | null => "None"
  | bool b => if b then "True" else "False"
  | int n => toString n
  | float x => Number.textOf .standard x
  | nan _ => Number.Format.standard.notANumber
  | text ps => Points.quoted ps
  | bytes bs => Text.quotedBytes bs
  | date d => d.shown
  | time t => t.shown
  | list items => "[" ++ ", ".intercalate (shownItems items) ++ "]"
  | map entries => "\x7b" ++ ", ".intercalate (shownEntries entries) ++ "\x7d"

def shownItems : List Value → List String
  | [] => []
  | v :: vs => v.shown :: shownItems vs

def shownEntries : List (Value × Value) → List String
  | [] => []
  | (k, v) :: es => (k.shown ++ ": " ++ v.shown) :: shownEntries es

end

/-- A value in running text: a string stands without quotes. -/
def plain : Value → String
  | text ps => (Points.string? ps).getD (Points.quoted ps)
  | v => v.shown

end Value

namespace Keyed

variable {β : Type}

/-- Give a key a value: in its place if it has one, else last. -/
def put : Keyed β → Value → β → Keyed β
  | [], key, value => [(key, value)]
  | (k, v) :: rest, key, value =>
    if k.sameKey key then (k, value) :: rest else (k, v) :: put rest key value

/-- The value of a key. -/
def get? : Keyed β → Value → Option β
  | [], _ => none
  | (k, v) :: rest, key => if k.sameKey key then some v else get? rest key

/-- The keys, in order. -/
def keys (m : Keyed β) : List Value := m.map Prod.fst

/-- The entries that are left of entries that come one after another. -/
def ofEntries (entries : List (Value × β)) : Keyed β :=
  entries.foldl (fun m e => put m e.1 e.2) []

end Keyed

namespace Mapping

/-- The value of a key; null when there is none. -/
def value (m : Mapping) (key : Value) : Value := (m.get? key).getD .null

/-- The value of a key that is a string. -/
def field (m : Mapping) (name : String) : Value := m.value (.ofString name)

end Mapping

/-! ## Texts as keys -/

/-- A text is the same key as itself alone. -/
theorem Value.sameKey_text {k : Value} {ps : Points} : k.sameKey (.text ps) = true ↔ k = .text ps := by
  cases k <;> simp [sameKey, asInt?]

namespace Keyed

variable {β γ : Type}

theorem keys_put (m : Keyed β) (key : Value) (value : β) :
    (m.put key value).keys = if (m.get? key).isSome then m.keys else m.keys ++ [key] := by
  induction m with
  | nil => simp [put, keys, get?]
  | cons e m ih =>
    obtain ⟨k, v⟩ := e
    simp only [keys] at ih
    by_cases hk : k.sameKey key = true
    · simp [put, get?, keys, hk]
    · simp only [put, get?, keys, hk, Bool.false_eq_true, if_false, List.map_cons, ih]
      split <;> rfl

theorem get?_cons_self (ps : Points) (v : β) (m : Keyed β) : get? ((.text ps, v) :: m) (.text ps) = some v :=
  if_pos (Value.sameKey_text.mpr rfl)

theorem get?_cons_of_ne {k : Value} {ps : Points} (h : k ≠ .text ps) (v : β) (m : Keyed β) :
    get? ((k, v) :: m) (.text ps) = m.get? (.text ps) :=
  if_neg fun hsame => h (Value.sameKey_text.mp hsame)

theorem put_cons_self (ps : Points) (v value : β) (m : Keyed β) :
    put ((.text ps, v) :: m) (.text ps) value = (.text ps, value) :: m :=
  if_pos (Value.sameKey_text.mpr rfl)

theorem put_cons_of_ne {k : Value} {ps : Points} (h : k ≠ .text ps) (v value : β) (m : Keyed β) :
    put ((k, v) :: m) (.text ps) value = (k, v) :: m.put (.text ps) value :=
  if_neg fun hsame => h (Value.sameKey_text.mp hsame)

theorem get?_put_self (m : Keyed β) (ps : Points) (value : β) :
    (m.put (.text ps) value).get? (.text ps) = some value := by
  induction m with
  | nil => exact get?_cons_self _ _ _
  | cons e m ih =>
    obtain ⟨k, v⟩ := e
    by_cases hk : k = .text ps
    · rw [hk, put_cons_self, get?_cons_self]
    · rw [put_cons_of_ne hk, get?_cons_of_ne hk, ih]

theorem get?_put_of_ne (m : Keyed β) {ps qs : Points} (h : ps ≠ qs) (value : β) :
    (m.put (.text ps) value).get? (.text qs) = m.get? (.text qs) := by
  have hne : Value.text ps ≠ .text qs := fun he => h (Value.text.inj he)
  induction m with
  | nil => exact get?_cons_of_ne hne _ _
  | cons e m ih =>
    obtain ⟨k, v⟩ := e
    by_cases hk : k = .text ps
    · rw [hk, put_cons_self, get?_cons_of_ne hne, get?_cons_of_ne hne]
    · rw [put_cons_of_ne hk]
      by_cases hq : k = .text qs
      · rw [hq, get?_cons_self, get?_cons_self]
      · rw [get?_cons_of_ne hq, get?_cons_of_ne hq, ih]

theorem isSome_get?_text {m : Keyed β} {ps : Points} : (m.get? (.text ps)).isSome ↔ .text ps ∈ m.keys := by
  induction m with
  | nil => simp [get?, keys]
  | cons e m ih =>
    obtain ⟨k, v⟩ := e
    rw [keys, List.map_cons, List.mem_cons, ← keys]
    by_cases hk : k = .text ps
    · simp [hk, get?_cons_self]
    · rw [get?_cons_of_ne hk, ih, or_iff_right (Ne.symm hk)]

theorem get?_map (f : Value → β → γ) (m : Keyed β) (ps : Points) :
    get? (m.map fun e => (e.1, f e.1 e.2)) (.text ps) = (m.get? (.text ps)).map (f (.text ps)) := by
  induction m with
  | nil => rfl
  | cons e m ih =>
    obtain ⟨k, v⟩ := e
    by_cases hk : k = .text ps
    · rw [List.map_cons, hk, get?_cons_self, get?_cons_self, Option.map_some]
    · rw [List.map_cons, get?_cons_of_ne hk, get?_cons_of_ne hk, ih]

theorem keys_map (f : Value → β → γ) (m : Keyed β) : keys (m.map fun e => (e.1, f e.1 e.2)) = m.keys := by
  simp [keys]

end Keyed

end EvalOrder
