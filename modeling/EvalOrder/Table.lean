/-!
# Tables

A table holds a value for each of its keys, in the order in which the keys came. Giving a key a new value keeps the
key's place. Tables stand for dictionaries from which nothing is deleted.

Results:
* `get?_put`: a key has the value it was given last.
* `keys_put`: a new key comes last and an old one stays where it is.
-/

namespace EvalOrder

/-- Values by key, in the order of the keys. -/
abbrev Table (κ ν : Type) := List (κ × ν)

namespace Table

variable {κ ν : Type} [DecidableEq κ]

/-- The value of a key. -/
def get? : Table κ ν → κ → Option ν
  | [], _ => none
  | (k, v) :: rest, key => if k = key then some v else get? rest key

/-- Give a key a value. -/
def put : Table κ ν → κ → ν → Table κ ν
  | [], key, value => [(key, value)]
  | (k, v) :: rest, key, value =>
    if k = key then (k, value) :: rest else (k, v) :: put rest key value

/-- The keys, in order. -/
def keys (t : Table κ ν) : List κ := t.map Prod.fst

theorem get?_put (t : Table κ ν) (key key' : κ) (value : ν) :
    (t.put key value).get? key' = if key = key' then some value else t.get? key' := by
  induction t with
  | nil => simp [put, get?]
  | cons e t ih =>
    obtain ⟨k, v⟩ := e
    by_cases hk : k = key
    · subst hk
      by_cases h' : k = key' <;> simp [put, get?, h']
    · by_cases h' : k = key'
      · subst h'
        simp [put, get?, hk, Ne.symm hk]
      · simp [put, get?, hk, h', ih]

theorem get?_eq_none_iff {t : Table κ ν} {key : κ} : t.get? key = none ↔ key ∉ t.keys := by
  induction t with
  | nil => simp [get?, keys]
  | cons e t ih =>
    obtain ⟨k, v⟩ := e
    by_cases hk : k = key
    · simp [get?, keys, hk]
    · simpa [get?, keys, hk, Ne.symm hk] using ih

theorem keys_put (t : Table κ ν) (key : κ) (value : ν) :
    (t.put key value).keys = if key ∈ t.keys then t.keys else t.keys ++ [key] := by
  induction t with
  | nil => simp [put, keys]
  | cons e t ih =>
    obtain ⟨k, v⟩ := e
    simp only [keys] at ih
    by_cases hk : k = key
    · simp [put, keys, hk]
    · simp only [put, keys, hk, if_false, List.map_cons, ih, List.mem_cons, Ne.symm hk, false_or]
      split <;> simp_all

theorem mem_of_get? {t : Table κ ν} {key : κ} {value : ν} (h : t.get? key = some value) : (key, value) ∈ t := by
  induction t with
  | nil => cases h
  | cons e t ih =>
    obtain ⟨k, v⟩ := e
    by_cases hk : k = key
    · simp only [get?, hk, if_true, Option.some.injEq] at h
      simp [hk, h]
    · simp only [get?, hk, if_false] at h
      exact List.mem_cons_of_mem _ (ih h)

theorem mem_put {t : Table κ ν} {key : κ} {value : ν} {e : κ × ν} (h : e ∈ t.put key value) :
    e = (key, value) ∨ e ∈ t := by
  induction t with
  | nil => exact .inl (List.mem_singleton.mp h)
  | cons e' t ih =>
    obtain ⟨k, v⟩ := e'
    by_cases hk : k = key
    · simp only [put, hk, if_true, List.mem_cons] at h
      exact h.imp id (List.mem_cons_of_mem _)
    · simp only [put, hk, if_false, List.mem_cons] at h
      rcases h with rfl | h
      · exact .inr List.mem_cons_self
      · exact (ih h).imp id (List.mem_cons_of_mem _)

/-- A new entry is found at the end. -/
theorem get?_append_of_none {t : Table κ ν} {key : κ} {value : ν} (h : t.get? key = none) :
    get? (t ++ [(key, value)]) key = some value := by
  induction t with
  | nil => simp [get?]
  | cons e t ih =>
    obtain ⟨k, v⟩ := e
    by_cases hk : k = key
    · simp [get?, hk] at h
    · simp only [get?, hk, if_false] at h
      simp [get?, hk, ih h]

end Table

end EvalOrder
