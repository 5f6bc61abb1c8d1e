import EvalOrder.Proofs.Collecting
import EvalOrder.Proofs.Normalizing
import EvalOrder.Settings.Load

/-!
# Checking settings

Which mappings are settings, what the settings then are, and what is said about the others. All of it is read off the
schema and the rules. Every key whose value does not fit (`Fits`) draws one complaint. The complaints are reported
together; that is impossible for two keys that have no order and for an integer that is too long to be written, and then
the check ends with an error that is not reported.

The results hold of every lawful way to collect complaints, and that of the program is one (`lawful_collected`).

Results:
* `check_level`, `check_file`, `check_cycle`, `check_limit`: what is wrong with the value of each field.
* `about_eq_nil_iff`, `length_about_le`: the entries that draw no complaint, and that the others draw one.
* `complaintsOf_normalize`: a key draws what its own value does.
* `validate_eq_ok_iff_carries`: what is accepted, and as which settings.
* `validate_toMapping`: settings are read back from their own fields.
* `lawful_collected`: complaints cannot be put in order only if the keys of two of them have none.
* **`validate_exact`**: what comes of every mapping.
* `validate_reports_text_keys`: keys that are texts are always reported.
* `validate_escapes`: keys without an order are not.
-/

namespace EvalOrder

open Text (Points)

namespace Settings

open Schema (Field)

/-! ## What becomes of the fields -/

/-- Null stands for the default. -/
theorem settle_level (v : Value) : levelField.settle v = match v with
    | .null => .ofString "WARNING"
    | .text ps => .text (Points.upper ps)
    | v => v := by
  cases v <;> rfl

theorem settle_file (v : Value) : fileField.settle v = v := by
  cases v <;> rfl

theorem settle_cycle (v : Value) : cycleField.settle v = match v with
    | .null => .bool false
    | v => v := by
  cases v <;> rfl

theorem settle_limit (v : Value) : limitField.settle v = v := by
  cases v <;> rfl

theorem mem_fields {f : Field} :
    f ∈ schema.fields ↔ f = levelField ∨ f = fileField ∨ f = cycleField ∨ f = limitField := by
  simp [schema]

/-- Having no value is as having null. -/
theorem settled_none {f : Field} (hf : f ∈ schema.fields) : f.settled none = f.settled (some .null) := by
  rcases mem_fields.mp hf with rfl | rfl | rfl | rfl <;> rfl

theorem get?_normalize_eq {f : Field} (hf : f ∈ schema.fields) (m : Mapping) :
    (schema.normalize m).get? (.ofString f.name) = some (f.settle (m.field f.name)) := by
  rw [Schema.get?_normalize hf, Mapping.field, Mapping.value]
  cases m.get? (.ofString f.name) with
  | none => exact (settled_none hf).trans (f.settled_some .null)
  | some v => exact f.settled_some v

/-! ## What is wrong with a value -/

theorem check_level (v : Value) : levelField.check (levelField.settle v) = [] ↔
    v = .null ∨ ∃ ps, v = .text ps ∧ ∃ name ∈ levelNames, Points.upper ps = Points.ofString name := by
  rw [check_levelField_eq_nil, settle_level]
  cases v with
  | null => simp [levelNames, Value.ofString, Points.ofString_inj]
  | text ps => simp [Value.ofString]
  | _ => simp [Value.ofString]

theorem check_file (v : Value) : fileField.check (fileField.settle v) = [] ↔ v = .null ∨ ∃ ps, v = .text ps := by
  have hrules : fileField.check v = Schema.complaints v [.nullable true, .type .text] := rfl
  rw [settle_file, hrules, Schema.complaints_eq_nil_iff, Schema.Kind.holds_text_iff]
  cases v <;> simp [Schema.complaints]

theorem check_cycle (v : Value) : cycleField.check (cycleField.settle v) = [] ↔ v = .null ∨ ∃ b, v = .bool b := by
  have hrules (w : Value) : cycleField.check w = Schema.complaints w [.nullable false, .type .bool] := rfl
  rw [settle_cycle, hrules, Schema.complaints_eq_nil_iff, Schema.Kind.holds_bool_iff]
  cases v <;> simp [Schema.complaints]

/-- A truth value is an integer, and too small. -/
theorem check_limit (v : Value) :
    limitField.check (limitField.settle v) = [] ↔ v = .null ∨ ∃ n, v = .int n ∧ 100 ≤ n := by
  have hrules : limitField.check v = Schema.complaints v [.nullable true, .type .int, .min 100] := rfl
  rw [settle_limit, hrules, Schema.complaints_eq_nil_iff, Schema.Kind.holds_int_iff]
  cases v with
  | bool b => cases b <;> simp [Schema.complaints, Schema.Rule.verdict, Value.less?, Value.asInt?]
  | int n =>
    by_cases hn : n < 100
    · have hnot : ¬ 100 ≤ n := by omega
      simp [Schema.complaints, Schema.Rule.verdict, Value.less?, Value.asInt?, hn, hnot]
    · have hle : 100 ≤ n := by omega
      simp [Schema.complaints, Schema.Rule.verdict, Value.less?, Value.asInt?, hn, hle]
  | _ => simp

/-- What is wrong with a value of a key. -/
def about (key v : Value) : List Complaint :=
  match schema.field? key with
  | none => [.unknownField]
  | some f => f.check (f.settle v)

/-- A key draws what its own value does, as it was before normalizing. -/
theorem complaintsOf_normalize (m : Mapping) (key : Value) :
    schema.complaintsOf (schema.normalize m) key = about key (m.value key) := by
  unfold Schema.complaintsOf about
  cases hfield : schema.field? key with
  | none => rfl
  | some f =>
    obtain ⟨hf, rfl⟩ := Schema.eq_of_field? hfield
    simp only [get?_normalize_eq hf]
    rfl

/-- Not more than one thing is wrong with a value. -/
theorem length_about_le (key v : Value) : (about key v).length ≤ 1 := by
  unfold about
  cases hfield : schema.field? key with
  | none => exact Nat.le_refl 1
  | some f =>
    rcases mem_fields.mp (Schema.eq_of_field? hfield).1 with rfl | rfl | rfl | rfl
    · exact Schema.length_complaints_le _ false .text [.allowed levelNames]
    · exact Schema.length_complaints_le _ true .text []
    · exact Schema.length_complaints_le _ false .bool []
    · exact Schema.length_complaints_le _ true .int [.min 100]

/-! ## Entries that fit -/

def fieldNames : List String := ["log_level", "log_file", "show_cycle", "recursion_limit"]

/-- A key may have a value. -/
inductive Fits : Value → Value → Prop
  | absent {name : String} : name ∈ fieldNames → Fits (.ofString name) .null
  | level {ps : Points} {name : String} : name ∈ ["DEBUG", "INFO", "WARNING", "ERROR"] →
      Points.upper ps = Points.ofString name → Fits (.ofString "log_level") (.text ps)
  | file {ps : Points} : Fits (.ofString "log_file") (.text ps)
  | cycle {b : Bool} : Fits (.ofString "show_cycle") (.bool b)
  | limit {n : Int} : 100 ≤ n → Fits (.ofString "recursion_limit") (.int n)

theorem mem_fieldNames {name : String} : name ∈ fieldNames ↔ ∃ f ∈ schema.fields, f.name = name := by
  simp [fieldNames, schema, levelField, fileField, cycleField, limitField, eq_comm]

theorem about_name {f : Field} (hf : f ∈ schema.fields) (v : Value) :
    about (.ofString f.name) v = f.check (f.settle v) := by
  rw [about, Schema.field?_name hf]

/-- Nothing is wrong with the entries that fit, and with no other. -/
theorem about_eq_nil_iff {key v : Value} : about key v = [] ↔ Fits key v := by
  constructor
  · intro h
    unfold about at h
    cases hfield : schema.field? key with
    | none =>
      rw [hfield] at h
      cases h
    | some f =>
      rw [hfield] at h
      obtain ⟨hf, rfl⟩ := Schema.eq_of_field? hfield
      have hname : f.name ∈ fieldNames := mem_fieldNames.mpr ⟨f, hf, rfl⟩
      rcases mem_fields.mp hf with rfl | rfl | rfl | rfl
      · rcases (check_level v).mp h with rfl | ⟨ps, rfl, name, hlevel, hps⟩
        · exact .absent hname
        · exact .level hlevel hps
      · rcases (check_file v).mp h with rfl | ⟨ps, rfl⟩
        · exact .absent hname
        · exact .file
      · rcases (check_cycle v).mp h with rfl | ⟨b, rfl⟩
        · exact .absent hname
        · exact .cycle
      · rcases (check_limit v).mp h with rfl | ⟨n, rfl, hn⟩
        · exact .absent hname
        · exact .limit hn
  · have hlevel := about_name (f := levelField) (by simp [schema])
    have hfile := about_name (f := fileField) (by simp [schema])
    have hcycle := about_name (f := cycleField) (by simp [schema])
    have hlimit := about_name (f := limitField) (by simp [schema])
    intro h
    cases h with
    | absent hname =>
      obtain ⟨f, hf, rfl⟩ := mem_fieldNames.mp hname
      rw [about_name hf]
      rcases mem_fields.mp hf with rfl | rfl | rfl | rfl
      · exact (check_level _).mpr (.inl rfl)
      · exact (check_file _).mpr (.inl rfl)
      · exact (check_cycle _).mpr (.inl rfl)
      · exact (check_limit _).mpr (.inl rfl)
    | level hname hps => exact (hlevel _).trans ((check_level _).mpr (.inr ⟨_, rfl, _, hname, hps⟩))
    | file => exact (hfile _).trans ((check_file _).mpr (.inr ⟨_, rfl⟩))
    | cycle => exact (hcycle _).trans ((check_cycle _).mpr (.inr ⟨_, rfl⟩))
    | limit hn => exact (hlimit _).trans ((check_limit _).mpr (.inr ⟨_, rfl, hn⟩))

instance (key v : Value) : Decidable (Fits key v) := decidable_of_iff _ (List.isEmpty_iff.trans about_eq_nil_iff)

theorem exists_about_of_not_fits {key v : Value} (h : ¬ Fits key v) : ∃ c, about key v = [c] :=
  List.length_eq_one_iff.mp (Nat.le_antisymm (length_about_le key v)
    (List.length_pos_iff.mpr (about_eq_nil_iff.not.mpr h)))

/-- The keys whose values do not fit, in the order of the mapping. -/
def offendingKeys (m : Mapping) : List Value := m.keys.filter fun key => ¬ Fits key (m.value key)

/-- A key that normalizing has added has a value that fits. -/
theorem fits_of_added {m : Mapping} {key : Value} {f : Field} (hf : f ∈ schema.fields) (hname : key = .ofString f.name)
    (hkey : key ∉ m.keys) : Fits key (m.value key) := by
  subst hname
  have hnone : m.get? (.ofString f.name) = none :=
    Option.not_isSome_iff_eq_none.mp fun h => hkey (Keyed.isSome_get?_text.mp h)
  rw [Mapping.value, hnone]
  exact .absent (mem_fieldNames.mpr ⟨f, hf, rfl⟩)

/-- The keys that draw complaints are those that do not fit, each once. -/
theorem keys_drawn (m : Mapping) : (schema.drawn (schema.normalize m)).map Prod.fst = offendingKeys m := by
  have hkey (key : Value) : ((schema.complaintsOf (schema.normalize m) key).map fun c => (key, c)).map Prod.fst =
      if Fits key (m.value key) then [] else [key] := by
    rw [complaintsOf_normalize]
    split
    · rename_i hfits
      rw [about_eq_nil_iff.mpr hfits]
      rfl
    · rename_i hnot
      obtain ⟨c, hc⟩ := exists_about_of_not_fits hnot
      rw [hc]
      rfl
  obtain ⟨added, hkeys, hadded⟩ := Schema.keys_normalize (s := schema) m
  have hnone : added.flatMap (fun key => if Fits key (m.value key) then [] else [key]) = [] := by
    refine List.flatMap_eq_nil_iff.mpr fun key hmem => if_pos ?_
    obtain ⟨hnot, f, hf, hname⟩ := hadded key hmem
    exact fits_of_added hf hname hnot
  rw [Schema.drawn, List.map_flatMap]
  simp only [hkey, hkeys, List.flatMap_append, hnone, List.append_nil, offendingKeys]
  induction m.keys with
  | nil => rfl
  | cons key keys ih =>
    rw [List.flatMap_cons, ih]
    by_cases hfits : Fits key (m.value key) <;> simp [hfits]

theorem drawn_eq_nil_iff {m : Mapping} :
    schema.drawn (schema.normalize m) = [] ↔ ∀ key ∈ m.keys, Fits key (m.value key) := by
  rw [← List.map_eq_nil_iff (f := Prod.fst), keys_drawn, offendingKeys, List.filter_eq_nil_iff]
  simp

/-! ## What settings carry -/

/-- Settings carry what a mapping says, and the defaults where it says nothing. -/
structure Carries (m : Mapping) (s : Settings) : Prop where
  levelName : (m.field "log_level" = .null ∧ s.levelName = Points.ofString "WARNING") ∨
    ∃ ps, m.field "log_level" = .text ps ∧ s.levelName = Points.upper ps
  logFile : (m.field "log_file" = .null ∧ s.logFile = none) ∨
    ∃ ps, m.field "log_file" = .text ps ∧ s.logFile = some ps
  showCycle : (m.field "show_cycle" = .null ∧ s.showCycle = false) ∨ m.field "show_cycle" = .bool s.showCycle
  nestingLimit : (m.field "recursion_limit" = .null ∧ s.nestingLimit = none) ∨
    ∃ n, m.field "recursion_limit" = .int n ∧ s.nestingLimit = some n

theorem textOf?_settle_level {v : Value} {ps : Points} : textOf? (levelField.settle v) = some ps ↔
    (v = .null ∧ ps = Points.ofString "WARNING") ∨ ∃ qs, v = .text qs ∧ ps = Points.upper qs := by
  rw [settle_level]
  cases v <;> simp [textOf?, Value.ofString, eq_comm]

theorem orNull_textOf? {v : Value} {ps? : Option Points} :
    orNull textOf? v = some ps? ↔ (v = .null ∧ ps? = none) ∨ ∃ ps, v = .text ps ∧ ps? = some ps := by
  cases v <;> simp [orNull, textOf?, eq_comm]

theorem boolOf?_settle_cycle {v : Value} {b : Bool} :
    boolOf? (cycleField.settle v) = some b ↔ (v = .null ∧ b = false) ∨ v = .bool b := by
  rw [settle_cycle]
  cases v <;> simp [boolOf?, eq_comm]

theorem orNull_intOf? {v : Value} {n? : Option Int} :
    orNull intOf? v = some n? ↔ (v = .null ∧ n? = none) ∨ ∃ n, v = .int n ∧ n? = some n := by
  cases v <;> simp [orNull, intOf?, eq_comm]

theorem take?_normalize {α : Type} {f : Field} (hf : f ∈ schema.fields) (m : Mapping) (read : Value → Option α)
    (default : α) : take? (schema.normalize m) f read default = read (f.settle (m.field f.name)) := by
  rw [take?, get?_normalize_eq hf]

/-- The settings of a mapping with known keys are those that carry what it says. -/
theorem ofFields?_normalize {m : Mapping} {s : Settings}
    (hkeys : ∀ key ∈ (schema.normalize m).keys, (schema.field? key).isSome) :
    ofFields? (schema.normalize m) = some s ↔ Carries m s := by
  rw [ofFields?_eq_some_iff, take?_normalize (by simp [schema]), take?_normalize (by simp [schema]),
    take?_normalize (by simp [schema]), take?_normalize (by simp [schema]), textOf?_settle_level, settle_file,
    orNull_textOf?, boolOf?_settle_cycle, settle_limit, orNull_intOf?]
  constructor
  · rintro ⟨-, hlevel, hfile, hcycle, hlimit⟩
    exact ⟨hlevel, hfile, hcycle, hlimit⟩
  · rintro ⟨hlevel, hfile, hcycle, hlimit⟩
    exact ⟨hkeys, hlevel, hfile, hcycle, hlimit⟩

/-- A key that draws no complaint is known. -/
theorem field?_isSome_of_drawn {m : Mapping} (h : schema.drawn m = []) :
    ∀ key ∈ m.keys, (schema.field? key).isSome := by
  intro key hkey
  have hnone := Schema.drawn_eq_nil_iff.mp h key hkey
  unfold Schema.complaintsOf at hnone
  cases hfield : schema.field? key with
  | none =>
    rw [hfield] at hnone
    cases hnone
  | some f => rfl

/-- Nothing is wrong with the fields of a mapping that fits, absent ones included. -/
theorem check_field_eq_nil {m : Mapping} (h : ∀ key ∈ m.keys, Fits key (m.value key)) {f : Field}
    (hf : f ∈ schema.fields) : f.check (f.settle (m.field f.name)) = [] := by
  rw [← about_name hf, about_eq_nil_iff]
  by_cases hkey : .ofString f.name ∈ m.keys
  · exact h _ hkey
  · exact fits_of_added hf rfl hkey

/-- What stands for a value: a default for null, and else what is read from it. -/
theorem exists_or_default {α β : Type} {v : Value} {write : α → Value} (default : β) (read : α → β)
    (h : v = .null ∨ ∃ a, v = write a) : ∃ x, (v = .null ∧ x = default) ∨ ∃ a, v = write a ∧ x = read a := by
  rcases h with hnull | ⟨a, ha⟩
  · exact ⟨default, .inl ⟨hnull, rfl⟩⟩
  · exact ⟨read a, .inr ⟨a, ha, rfl⟩⟩

/-- The fields of a mapping that fits are settled as settings have them. -/
theorem exists_carries {m : Mapping} (h : ∀ key ∈ m.keys, Fits key (m.value key)) : ∃ s, Carries m s := by
  have hlevel : m.field "log_level" = .null ∨ ∃ ps, m.field "log_level" = .text ps :=
    ((check_level _).mp (check_field_eq_nil h (f := levelField) (by simp [schema]))).imp_right
      (Exists.imp fun _ h => h.1)
  have hfile := (check_file _).mp (check_field_eq_nil h (f := fileField) (by simp [schema]))
  have hcycle := (check_cycle _).mp (check_field_eq_nil h (f := cycleField) (by simp [schema]))
  have hlimit : m.field "recursion_limit" = .null ∨ ∃ n, m.field "recursion_limit" = .int n :=
    ((check_limit _).mp (check_field_eq_nil h (f := limitField) (by simp [schema]))).imp_right
      (Exists.imp fun _ h => h.1)
  obtain ⟨levelName, hlevel⟩ := exists_or_default (Points.ofString "WARNING") Points.upper hlevel
  obtain ⟨logFile, hfile⟩ := exists_or_default none some hfile
  obtain ⟨nestingLimit, hlimit⟩ := exists_or_default none some hlimit
  rcases hcycle with hnull | ⟨b, hb⟩
  · exact ⟨{ levelName, logFile, showCycle := false, nestingLimit }, hlevel, hfile, .inl ⟨hnull, rfl⟩, hlimit⟩
  · exact ⟨{ levelName, logFile, showCycle := b, nestingLimit }, hlevel, hfile, .inr hb, hlimit⟩

/-! ## Settings as a mapping -/

/-- The fields of settings. -/
def toMapping (s : Settings) : Mapping :=
  [(.ofString "log_level", .text s.levelName), (.ofString "log_file", (s.logFile.map .text).getD .null),
    (.ofString "show_cycle", .bool s.showCycle), (.ofString "recursion_limit", (s.nestingLimit.map .int).getD .null)]

theorem keys_toMapping (s : Settings) : s.toMapping.keys = fieldNames.map .ofString := rfl

theorem field_toMapping (s : Settings) : s.toMapping.field "log_level" = .text s.levelName ∧
    s.toMapping.field "log_file" = (s.logFile.map .text).getD .null ∧
    s.toMapping.field "show_cycle" = .bool s.showCycle ∧
    s.toMapping.field "recursion_limit" = (s.nestingLimit.map .int).getD .null := by
  refine ⟨?_, ?_, ?_, ?_⟩ <;> rfl

theorem upper_levelName {name : String} (h : name ∈ levelNames) :
    Points.upper (Points.ofString name) = Points.ofString name := by
  simp only [levelNames, List.mem_cons, List.not_mem_nil, or_false] at h
  rcases h with rfl | rfl | rfl | rfl <;> decide +kernel

/-- The level of settings that carry what fits is one of the names that may be. -/
theorem Carries.exists_levelName {m : Mapping} {s : Settings} (h : Carries m s)
    (hfits : ∀ key ∈ m.keys, Fits key (m.value key)) : ∃ name ∈ levelNames, s.levelName = Points.ofString name := by
  rcases h.levelName with ⟨-, hs⟩ | ⟨ps, hps, hs⟩
  · exact ⟨"WARNING", by simp [levelNames], hs⟩
  · have hcheck := check_field_eq_nil hfits (f := levelField) (by simp [schema])
    rcases (check_level _).mp hcheck with hnull | ⟨qs, hqs, name, hname, hupper⟩
    · cases hps.symm.trans hnull
    · obtain rfl := Value.text.inj (hps.symm.trans hqs)
      exact ⟨name, hname, hs.trans hupper⟩

/-- Their limit is not too small. -/
theorem Carries.le_nestingLimit {m : Mapping} {s : Settings} (h : Carries m s)
    (hfits : ∀ key ∈ m.keys, Fits key (m.value key)) {n : Int} (hn : s.nestingLimit = some n) : 100 ≤ n := by
  rcases h.nestingLimit with ⟨-, hs⟩ | ⟨k, hk, hs⟩
  · cases hs.symm.trans hn
  · obtain rfl := Option.some.inj (hs.symm.trans hn)
    have hcheck := check_field_eq_nil hfits (f := limitField) (by simp [schema])
    rcases (check_limit _).mp hcheck with hnull | ⟨j, hj, hle⟩
    · cases hk.symm.trans hnull
    · obtain rfl := Value.int.inj (hk.symm.trans hj)
      exact hle

section Lawful

variable {collect : Collect} (hcollect : collect.Lawful)

include hcollect

/-- When nothing is drawn, nothing is collected. -/
theorem collect_nil : collect [] = .ok [] := by
  cases hcs : collect [] with
  | error u => exact absurd (hcollect.unordered hcs).1 List.not_mem_nil
  | ok cs => rw [(hcollect.perm hcs).eq_nil]

theorem collect_eq_nil_iff {drawn : List (Value × Complaint)} : collect drawn = .ok [] ↔ drawn = [] := by
  constructor
  · intro h
    exact (hcollect.perm h).symm.eq_nil
  · rintro rfl
    exact collect_nil hcollect

/-- A mapping that fits is accepted as the settings that carry what it says. -/
theorem validate_eq_ok_iff_carries {m : Mapping} {s : Settings} :
    validate collect (.map m) = .ok s ↔ (∀ key ∈ m.keys, Fits key (m.value key)) ∧ Carries m s := by
  simp only [validate_eq_ok_iff, Value.map.injEq, exists_eq_left', collect_eq_nil_iff hcollect]
  rw [← drawn_eq_nil_iff]
  refine and_congr_right fun hdrawn => ?_
  exact ofFields?_normalize (field?_isSome_of_drawn hdrawn)

/-- Settings that may be are read back from their own fields. -/
theorem validate_toMapping {s : Settings} {name : String} (hname : name ∈ levelNames)
    (hlevel : s.levelName = Points.ofString name) (hlimit : ∀ n, s.nestingLimit = some n → 100 ≤ n) :
    validate collect (.map s.toMapping) = .ok s := by
  obtain ⟨hlevel', hfile', hcycle', hlimit'⟩ := field_toMapping s
  have hupper : Points.upper s.levelName = Points.ofString name := by rw [hlevel, upper_levelName hname]
  refine (validate_eq_ok_iff_carries hcollect).mpr ⟨?_, ?_⟩
  · intro key hkey
    rw [keys_toMapping] at hkey
    obtain ⟨field, hfield, rfl⟩ := List.mem_map.mp hkey
    rw [← Mapping.field]
    simp only [fieldNames, List.mem_cons, List.not_mem_nil, or_false] at hfield
    rcases hfield with rfl | rfl | rfl | rfl
    · rw [hlevel']
      exact .level hname hupper
    · rw [hfile']
      cases s.logFile with
      | none => exact .absent (by simp [fieldNames])
      | some ps => exact .file
    · rw [hcycle']
      exact .cycle
    · rw [hlimit']
      cases hn : s.nestingLimit with
      | none => exact .absent (by simp [fieldNames])
      | some n => exact .limit (hlimit n hn)
  · refine ⟨?_, ?_, ?_, ?_⟩
    · exact .inr ⟨_, hlevel', hlevel.trans hupper.symm⟩
    · rw [hfile']
      cases s.logFile <;> simp
    · exact .inr hcycle'
    · rw [hlimit']
      cases s.nestingLimit <;> simp

end Lawful

/-! ## What is said about the others -/

/-- Complaints that report a mapping: there is one for each key that does not fit, it is all that is wrong with its
value, and all can be written. -/
structure Reports (m : Mapping) (cs : List (Value × Complaint)) : Prop where
  keys : (cs.map Prod.fst).Perm (offendingKeys m)
  own : ∀ c ∈ cs, schema.complaintsOf (schema.normalize m) c.1 = [c.2]
  writable : ∀ n, .int n ∈ offendingKeys m → Number.isWritable n = true

/-- An error that reports nothing: two of the keys that do not fit have no order, or one is an integer that is too long
to be written. -/
inductive Escapes (m : Mapping) : SettingsError → Prop
  | incomparable {a b : Value} : a ∈ offendingKeys m → b ∈ offendingKeys m → a.less? b = none →
      Escapes m (.incomparable a b)
  | tooLong {n : Int} : .int n ∈ offendingKeys m → Number.isWritable n = false → Escapes m .tooLong

theorem complaintsOf_of_mem_drawn {m : Mapping} {c : Value × Complaint} (h : c ∈ schema.drawn (schema.normalize m)) :
    schema.complaintsOf (schema.normalize m) c.1 = [c.2] := by
  obtain ⟨key, -, hc⟩ := List.mem_flatMap.mp h
  obtain ⟨complaint, hcomplaint, rfl⟩ := List.mem_map.mp hc
  rw [complaintsOf_normalize] at hcomplaint ⊢
  have hnot : ¬ Fits key (m.value key) := fun hfits => by
    rw [about_eq_nil_iff.mpr hfits] at hcomplaint
    cases hcomplaint
  obtain ⟨only, honly⟩ := exists_about_of_not_fits hnot
  rw [honly] at hcomplaint ⊢
  rw [List.mem_singleton.mp hcomplaint]

section Collected

variable {m : Mapping} {cs : List (Value × Complaint)} (hcs : cs.Perm (schema.drawn (schema.normalize m)))

include hcs

theorem reports_of_perm (hwritable : cs.all isWritable = true) : Reports m cs := by
  have hkeys : (cs.map Prod.fst).Perm (offendingKeys m) := keys_drawn m ▸ hcs.map Prod.fst
  refine ⟨hkeys, fun c hc => complaintsOf_of_mem_drawn (hcs.subset hc), fun n hn => ?_⟩
  obtain ⟨⟨k, c⟩, hc, rfl⟩ := List.mem_map.mp (hkeys.symm.subset hn)
  have hone : isWritable (.int n, c) = true := List.all_eq_true.mp hwritable _ hc
  rwa [isWritable] at hone

theorem escapes_of_perm (hwritable : ¬ cs.all isWritable = true) : Escapes m .tooLong := by
  obtain ⟨c, hc, hlong⟩ : ∃ c ∈ cs, isWritable c = false := by simpa using hwritable
  have hkey : c.1 ∈ offendingKeys m := keys_drawn m ▸ List.mem_map_of_mem (hcs.subset hc)
  unfold isWritable at hlong
  split at hlong
  · exact .tooLong hkey hlong
  · cases hlong

end Collected

/-- A mapping that is not accepted is reported, or the check ends with an error that is not. -/
theorem validate_error {collect : Collect} (hcollect : collect.Lawful) {m : Mapping} {e : SettingsError}
    (h : validate collect (.map m) = .error e) :
    (∃ cs, e = .invalid cs ∧ Reports m cs) ∨ (Escapes m e ∧ e.isReported = false) := by
  simp only [validate] at h
  split at h
  · rename_i u hu
    cases h
    obtain ⟨hleft, hright, hless⟩ := hcollect.unordered hu
    rw [keys_drawn] at hleft hright
    exact .inr ⟨.incomparable hleft hright hless, rfl⟩
  · -- nothing is wrong, so the mapping has settings
    rename_i hnil
    have hdrawn := (collect_eq_nil_iff hcollect).mp hnil
    obtain ⟨s, hs⟩ := exists_carries (drawn_eq_nil_iff.mp hdrawn)
    rw [(ofFields?_normalize (field?_isSome_of_drawn hdrawn)).mpr hs] at h
    cases h
  · rename_i cs hne hok
    have hperm := hcollect.perm hok
    obtain rfl := Except.error.inj h
    split
    · rename_i hall
      exact .inl ⟨cs, rfl, reports_of_perm hperm hall⟩
    · rename_i hlong
      exact .inr ⟨escapes_of_perm hperm hlong, rfl⟩

/-! ## What is checked when settings are loaded -/

/-- A mapping is what settings are loaded from: that of the file's document, or an empty one if there is no file or
nothing in it. -/
inductive LoadsFrom (l : Loader) (files : Files.Tree) : Option String → Mapping → Prop
  | noFile : LoadsFrom l files none []
  | nothing {path : String} {bytes : Files.Bytes} : files.read (Points.ofString path) = .ok bytes →
      l.document bytes = .ok .null → LoadsFrom l files (some path) []
  | document {path : String} {bytes : Files.Bytes} {m : Mapping} : files.read (Points.ofString path) = .ok bytes →
      l.document bytes = .ok (.map m) → LoadsFrom l files (some path) m

/-- The document of a file from which settings are loaded is a mapping or null. -/
theorem LoadsFrom.document_eq {l : Loader} {files : Files.Tree} {path : String} {m : Mapping}
    (h : LoadsFrom l files (some path) m) {bytes : Files.Bytes}
    (hread : files.read (Points.ofString path) = .ok bytes) :
    l.document bytes = .ok .null ∨ l.document bytes = .ok (.map m) := by
  cases h with
  | nothing hread' hdoc =>
    obtain rfl := Except.ok.inj (hread.symm.trans hread')
    exact .inl hdoc
  | document hread' hdoc =>
    obtain rfl := Except.ok.inj (hread.symm.trans hread')
    exact .inr hdoc

/-- Loading settings checks the mapping that they are loaded from. Without one nothing is checked. -/
theorem load_checks (l : Loader) (files : Files.Tree) (path : Option String) :
    (∃ m, LoadsFrom l files path m ∧ l.load files path = (l.check (.map m)).mapError LoadError.invalid) ∨
      (¬ ∃ m, LoadsFrom l files path m) ∧ ∃ e, l.load files path = .error e ∧ ∀ cause, e ≠ .invalid cause := by
  cases path with
  | none => exact .inl ⟨[], .noFile, rfl⟩
  | some path =>
    rw [Loader.load, Loader.loadFile]
    cases hread : files.read (Points.ofString path) with
    | error e =>
      refine .inr ⟨?_, _, rfl, fun cause => by simp⟩
      rintro ⟨m, hm⟩
      cases hm with
      | nothing hread' _ => cases hread.symm.trans hread'
      | document hread' _ => cases hread.symm.trans hread'
    | ok bytes =>
      have hdocument : (∃ m, LoadsFrom l files (some path) m) →
          l.document bytes = .ok .null ∨ ∃ m, l.document bytes = .ok (.map m) := by
        rintro ⟨m, hm⟩
        exact (hm.document_eq hread).imp_right fun hmap => ⟨m, hmap⟩
      simp only [Except.mapError, bind, Except.bind]
      cases hdoc : l.document bytes with
      | error f =>
        rw [hdoc] at hdocument
        refine .inr ⟨fun hloads => by simpa using hdocument hloads, _, rfl, fun cause => ?_⟩
        cases f <;> simp [LoadError.ofFailure]
      | ok doc =>
        rw [hdoc] at hdocument
        cases doc with
        | map m => exact .inl ⟨m, .document hread hdoc, rfl⟩
        | null => exact .inl ⟨[], .nothing hread hdoc, rfl⟩
        | _ => exact .inr ⟨fun hloads => by simpa using hdocument hloads, _, rfl, fun cause => by simp⟩

/-! ## Every mapping -/

/-- **Checking a mapping.** It is accepted exactly if its keys have values that fit. The settings are then those that
carry what it says; their level is defined, and they are read back from their own fields. Of any other mapping the
keys that do not fit are reported, each with one complaint, unless two of them have no order or one is too long to be
written. When settings are loaded, with whatever check, only the mapping that they are loaded from is checked. -/
theorem validate_exact {collect : Collect} (hcollect : collect.Lawful) (m : Mapping) :
    ((∃ s, validate collect (.map m) = .ok s) ↔ ∀ key ∈ m.keys, Fits key (m.value key)) ∧
    (∀ s, validate collect (.map m) = .ok s → Carries m s ∧
      (∃ level ≤ Log.Level.error, s.level? = some level) ∧ validate collect (.map s.toMapping) = .ok s) ∧
    (∀ e, validate collect (.map m) = .error e →
      (∃ cs, e = .invalid cs ∧ Reports m cs) ∨ (Escapes m e ∧ e.isReported = false)) ∧
    ∀ (l : Loader) (files : Files.Tree) (path : Option String),
      (∃ m, LoadsFrom l files path m ∧ l.load files path = (l.check (.map m)).mapError LoadError.invalid) ∨
        (¬ ∃ m, LoadsFrom l files path m) ∧ ∃ e, l.load files path = .error e ∧ ∀ cause, e ≠ .invalid cause := by
  refine ⟨?_, fun s hs => ?_, fun e he => validate_error hcollect he, load_checks⟩
  · simp only [validate_eq_ok_iff_carries hcollect, exists_and_left, and_iff_left_iff_imp]
    exact exists_carries
  · obtain ⟨hfits, hcarries⟩ := (validate_eq_ok_iff_carries hcollect).mp hs
    refine ⟨hcarries, level?_of_validate hcollect.perm hs, ?_⟩
    obtain ⟨name, hname, hlevel⟩ := hcarries.exists_levelName hfits
    exact validate_toMapping hcollect hname hlevel fun n hn => hcarries.le_nestingLimit hfits hn

/-- A level in small letters is accepted beside the least limit. A level that does not exist and a truth value for a
limit are reported together. -/
theorem validate_exact_small_letters :
    ∃ m m' : Mapping, ∃ s : Settings, ∃ cs : List (Value × Complaint), Complaints.collected.Lawful ∧
      (∀ key ∈ m.keys, Fits key (m.value key)) ∧ validate Complaints.collected (.map m) = .ok s ∧ Carries m s ∧
      s.levelName = Points.ofString "DEBUG" ∧ s.nestingLimit = some 100 ∧
      validate Complaints.collected (.map s.toMapping) = .ok s ∧
      offendingKeys m' = [.ofString "recursion_limit", .ofString "log_level"] ∧
      validate Complaints.collected (.map m') = .error (.invalid cs) ∧ Reports m' cs := by
  let m : Mapping := [(.ofString "log_level", .ofString "debug"), (.ofString "recursion_limit", .int 100)]
  let m' : Mapping := [(.ofString "recursion_limit", .bool true), (.ofString "log_level", .ofString "loud")]
  have hm : validate Complaints.collected (.map m) =
      .ok { levelName := Points.ofString "DEBUG", nestingLimit := some 100 } := by rfl
  have hm' : validate Complaints.collected (.map m') = .error (.invalid
      [(.ofString "log_level", .unallowed (Points.ofString "LOUD")),
        (.ofString "recursion_limit", .tooSmall 100)]) := by
    rfl
  obtain ⟨hiff, haccepted, -⟩ := validate_exact Complaints.lawful_collected m
  obtain ⟨-, -, hrefused, -⟩ := validate_exact Complaints.lawful_collected m'
  obtain ⟨hcarries, -, hagain⟩ := haccepted _ hm
  rcases hrefused _ hm' with ⟨cs, hcs, hreports⟩ | ⟨-, hreported⟩
  · rw [hcs] at hm'
    exact ⟨m, m', _, cs, Complaints.lawful_collected, hiff.mp ⟨_, hm⟩, hm, hcarries, rfl, rfl, hagain, by rfl, hm',
      hreports⟩
  · cases hreported

/-- Texts have an order and can be written, so a mapping without other keys is reported if it is not accepted. -/
theorem validate_reports_text_keys {collect : Collect} (hcollect : collect.Lawful) {m : Mapping}
    (hm : ∀ key ∈ m.keys, ∃ ps, key = .text ps) {e : SettingsError} (h : validate collect (.map m) = .error e) :
    ∃ cs, e = .invalid cs ∧ Reports m cs := by
  have hkeys : ∀ k ∈ offendingKeys m, ∃ ps, k = .text ps := fun k hk => hm k (List.mem_filter.mp hk).1
  rcases validate_error hcollect h with hreports | ⟨hescapes, -⟩
  · exact hreports
  · cases hescapes with
    | incomparable ha hb hless =>
      obtain ⟨ps, rfl⟩ := hkeys _ ha
      obtain ⟨qs, rfl⟩ := hkeys _ hb
      cases hless
    | tooLong hn hlong =>
      obtain ⟨ps, hps⟩ := hkeys _ hn
      cases hps

/-- Of two keys without an order neither is reported. -/
theorem validate_escapes :
    offendingKeys [(.ofString "foo", .int 1), (.null, .int 2)] = [.ofString "foo", .null] ∧
      validate Complaints.collected (.map [(.ofString "foo", .int 1), (.null, .int 2)]) =
        .error (.incomparable .null (.ofString "foo")) ∧
      (SettingsError.incomparable .null (.ofString "foo")).isReported = false ∧
      ¬ ∃ cs, validate Complaints.collected (.map [(.ofString "foo", .int 1), (.null, .int 2)]) =
        .error (.invalid cs) := by
  have hvalidate : validate Complaints.collected (.map [(.ofString "foo", .int 1), (.null, .int 2)]) =
      .error (.incomparable .null (.ofString "foo")) := by rfl
  refine ⟨by rfl, hvalidate, rfl, ?_⟩
  rw [hvalidate]
  rintro ⟨cs, hcs⟩
  cases hcs

end Settings

end EvalOrder
