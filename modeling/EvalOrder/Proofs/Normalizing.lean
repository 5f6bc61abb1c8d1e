import EvalOrder.Settings.Schema
import Mathlib.Data.List.Nodup

/-!
# Normalizing a mapping

What the passes over a mapping come to that give defaults and change values. The value of a field afterwards depends on
its value before and on nothing else of the mapping (`Field.settled`), because no two fields share a name.

Results:
* `field?_name`: a field is found by its name.
* `get?_foldl_of_mem`, `get?_foldl_of_notMem`, `keys_foldl`: what giving defaults does, field by field.
* **`get?_normalize`**: what becomes of the value of a field.
* `keys_normalize`: the keys stay, and names of fields are added.
* `length_complaints_le`: how much may be wrong with one value.
-/

namespace EvalOrder.Schema

open Text (Points)

variable {s : Schema}

theorem field?_name {f : Field} (hf : f ∈ s.fields) : s.field? (.ofString f.name) = some f := by
  have hsome : (s.field? (.ofString f.name)).isSome :=
    List.find?_isSome.mpr ⟨f, hf, Value.sameKey_text.mpr rfl⟩
  obtain ⟨g, hg⟩ := Option.isSome_iff_exists.mp hsome
  obtain ⟨hmem, hname⟩ := eq_of_field? hg
  have hsame : f.name = g.name := Points.ofString_inj.mp (Value.text.inj hname)
  rw [hg, List.inj_on_of_nodup_map s.nodup hmem hf hsame.symm]

namespace Field

/-- What becomes of the value of a field, or of none. -/
def settled (f : Field) (v? : Option Value) : Option Value :=
  (if f.lacks v? then (default? f.rules).or v? else v?).map f.coerce

/-- What becomes of the value of a field. -/
def settle (f : Field) (v : Value) : Value :=
  f.coerce (if f.lacks (some v) then (default? f.rules).getD v else v)

theorem settled_some (f : Field) (v : Value) : f.settled (some v) = some (f.settle v) := by
  unfold settled settle
  split
  · cases default? f.rules <;> rfl
  · rfl

theorem get?_foldl_of_notMem {name : String} :
    ∀ {fs : List Field} {m : Mapping}, name ∉ fs.map Field.name →
      (fs.foldl putDefault m).get? (.ofString name) = m.get? (.ofString name)
  | [], _, _ => rfl
  | f :: fs, m, h => by
    rw [List.map_cons, List.mem_cons, not_or] at h
    rw [List.foldl_cons, get?_foldl_of_notMem h.2]
    unfold putDefault
    split
    · exact Keyed.get?_put_of_ne m (fun he => h.1 (Points.ofString_inj.mp he).symm) _
    · rfl

theorem get?_foldl_of_mem {f : Field} :
    ∀ {fs : List Field} {m : Mapping}, (fs.map Field.name).Nodup → f ∈ fs →
      (fs.foldl putDefault m).get? (.ofString f.name) = (default? f.rules).or (m.get? (.ofString f.name))
  | g :: fs, m, hnodup, hf => by
    obtain ⟨hg, hrest⟩ := List.nodup_cons.mp hnodup
    rw [List.foldl_cons]
    rcases List.mem_cons.mp hf with rfl | hf
    · rw [get?_foldl_of_notMem hg]
      unfold putDefault
      cases hdefault : default? f.rules with
      | none => rfl
      | some value => exact Keyed.get?_put_self _ _ _
    · have hne : g.name ≠ f.name := fun he => hg (he ▸ List.mem_map_of_mem hf)
      rw [get?_foldl_of_mem hrest hf]
      unfold putDefault
      split
      · rw [Value.ofString, Value.ofString, Keyed.get?_put_of_ne m (fun he => hne (Points.ofString_inj.mp he))]
      · rfl

/-- Keys that defaults add are names of fields that have one, and were not there. -/
theorem keys_foldl :
    ∀ (fs : List Field) (m : Mapping), ∃ added, (fs.foldl putDefault m).keys = m.keys ++ added ∧
      ∀ k ∈ added, k ∉ m.keys ∧ ∃ f ∈ fs, k = .ofString f.name ∧ (default? f.rules).isSome
  | [], m => ⟨[], by simp, by simp⟩
  | f :: fs, m => by
    obtain ⟨added, hkeys, hadded⟩ := keys_foldl fs (putDefault m f)
    rw [List.foldl_cons, hkeys]
    unfold putDefault at hadded ⊢
    cases hdefault : default? f.rules with
    | none =>
      rw [hdefault] at hadded
      exact ⟨added, rfl, fun k hk => (hadded k hk).imp_right fun ⟨g, hg, h⟩ => ⟨g, List.mem_cons_of_mem _ hg, h⟩⟩
    | some value =>
      simp only [hdefault, Keyed.keys_put] at hadded ⊢
      split at hadded
      · rename_i hpresent
        rw [if_pos hpresent]
        exact ⟨added, rfl, fun k hk => (hadded k hk).imp_right fun ⟨g, hg, h⟩ => ⟨g, List.mem_cons_of_mem _ hg, h⟩⟩
      · rename_i habsent
        rw [if_neg habsent, List.append_assoc]
        refine ⟨_, rfl, fun k hk => ?_⟩
        rcases List.mem_append.mp hk with hk | hk
        · obtain rfl := List.mem_singleton.mp hk
          exact ⟨fun hmem => habsent (Keyed.isSome_get?_text.mpr hmem), f, List.mem_cons_self, rfl, by simp [hdefault]⟩
        · obtain ⟨hnot, g, hg, h⟩ := hadded k hk
          exact ⟨fun hmem => hnot (List.mem_append_left _ hmem), g, List.mem_cons_of_mem _ hg, h⟩

end Field

theorem get?_withDefaults {f : Field} (hf : f ∈ s.fields) (m : Mapping) :
    (s.withDefaults m).get? (.ofString f.name) =
      if f.lacks (m.get? (.ofString f.name)) then (default? f.rules).or (m.get? (.ofString f.name))
      else m.get? (.ofString f.name) := by
  have hsub : (s.fields.filter fun f => f.lacks (m.get? (.ofString f.name))).Sublist s.fields := List.filter_sublist
  have hnodup := (hsub.map Field.name).nodup s.nodup
  unfold withDefaults
  split
  · rename_i hlacks
    exact Field.get?_foldl_of_mem hnodup (List.mem_filter.mpr ⟨hf, hlacks⟩)
  · rename_i hlacks
    refine Field.get?_foldl_of_notMem fun hmem => hlacks ?_
    obtain ⟨g, hg, hname⟩ := List.mem_map.mp hmem
    obtain ⟨hgs, hg⟩ := List.mem_filter.mp hg
    rwa [List.inj_on_of_nodup_map s.nodup hgs hf hname] at hg

/-- **The value of a field after normalizing.** -/
theorem get?_normalize {f : Field} (hf : f ∈ s.fields) (m : Mapping) :
    (s.normalize m).get? (.ofString f.name) = f.settled (m.get? (.ofString f.name)) := by
  have hmap := Keyed.get?_map (fun k v => ((s.field? k).map fun f => f.coerce v).getD v) (s.withDefaults m)
    (Points.ofString f.name)
  unfold normalize coerced
  rw [Value.ofString, hmap, ← Value.ofString, get?_withDefaults hf, Field.settled]
  simp only [field?_name hf, Option.map_some, Option.getD_some]

theorem keys_normalize (m : Mapping) : ∃ added, (s.normalize m).keys = m.keys ++ added ∧
    ∀ k ∈ added, k ∉ m.keys ∧ ∃ f ∈ s.fields, k = .ofString f.name := by
  obtain ⟨added, hkeys, hadded⟩ :=
    Field.keys_foldl (s.fields.filter fun f => f.lacks (m.get? (.ofString f.name))) m
  refine ⟨added, ?_, fun k hk => ?_⟩
  · rw [normalize, coerced, Keyed.keys_map (fun k v => ((s.field? k).map fun f => f.coerce v).getD v)]
    exact hkeys
  · obtain ⟨hnot, f, hf, hname, -⟩ := hadded k hk
    exact ⟨hnot, f, (List.mem_filter.mp hf).1, hname⟩

/-! ## How many complaints there are -/

theorem Rule.length_complaints_verdict_le (v : Value) (rule : Rule) : (rule.verdict v).complaints.length ≤ 1 := by
  cases rule with
  | nullable mayBeNull => cases v <;> cases mayBeNull <;> simp [verdict]
  | allowed texts =>
    cases v with
    | text ps =>
      simp only [verdict]
      split <;> simp
    | _ => simp [verdict]
  | type kind =>
    simp only [verdict]
    split <;> simp
  | min least =>
    simp only [verdict]
    split <;> simp
  | _ => simp [verdict]

theorem length_complaints_le_length (v : Value) : ∀ rules : List Rule, (complaints v rules).length ≤ rules.length
  | [] => Nat.le_refl 0
  | rule :: rules => by
    have hrule := rule.length_complaints_verdict_le v
    have hrules := length_complaints_le_length v rules
    simp only [complaints, List.length_append, List.length_cons]
    split
    · simp only [List.length_nil]
      omega
    · omega

/-- Null and the wrong kind draw one complaint alone, and otherwise each of the other rules draws at most one. -/
theorem length_complaints_le (v : Value) (mayBeNull : Bool) (kind : Kind) (rules : List Rule) :
    (complaints v (.nullable mayBeNull :: .type kind :: rules)).length ≤ max 1 rules.length := by
  by_cases hv : v = .null
  · subst hv
    rw [complaints_null]
    refine Nat.le_trans ?_ (Nat.le_max_left 1 _)
    cases mayBeNull <;> simp
  · cases hkind : kind.holds v with
    | false =>
      rw [complaints_of_not_holds _ _ hv hkind]
      exact Nat.le_max_left 1 _
    | true =>
      rw [complaints_of_holds _ _ hv hkind]
      exact Nat.le_trans (length_complaints_le_length v rules) (Nat.le_max_right _ _)

end EvalOrder.Schema
