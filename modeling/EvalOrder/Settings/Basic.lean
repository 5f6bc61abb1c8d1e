import EvalOrder.Log.Record
import EvalOrder.Number.Numeral
import EvalOrder.Settings.Complaints

/-!
# Settings

The settings are four fields of a mapping: the level from which records are logged, a file that they are also written
to, whether the circle of a cyclic dependency is logged, and a limit on nesting. Which mappings are settings, and what
stands for what they leave out, is said by a schema (`Settings.schema`, which is `CONFIG_SCHEMA`).

`validate` is `validate_config`: it normalizes a value that is a mapping, collects what is wrong with it, and takes the
settings from what it has become (`ofFields?`, the call of `Config`). How the complaints are collected is a parameter.
The level of settings is kept as it is written; `level?` looks it up among the levels that have a name.

Results:
* `check_levelField_eq_nil`: the levels that draw no complaint.
* `level?_of_validate`: settings that have passed the check have a level.
-/

namespace EvalOrder

open Text (Points)

/-- Settings. -/
structure Settings where
  /-- The name of the level. -/
  levelName : Points := Points.ofString "WARNING"
  /-- The path of the log file. -/
  logFile : Option Points := none
  showCycle : Bool := false
  nestingLimit : Option Int := none
  deriving DecidableEq, Repr

/-- Why a document is no settings. -/
inductive SettingsError where
  /-- There is no document. -/
  | missing
  /-- The document is no mapping. -/
  | notMapping (shown : String)
  /-- Keys of the mapping draw complaints. -/
  | invalid (complaints : List (Value × Complaint))
  /-- Two of the keys that draw complaints have no order. -/
  | incomparable (left right : Value)
  /-- A key that draws a complaint is an integer with more digits than are written. -/
  | tooLong
  /-- Nothing is wrong with the mapping, and yet its entries are not the fields of settings. -/
  | misfit

namespace SettingsError

def message : SettingsError → String
  | missing => "document is missing"
  | notMapping shown => s!"'{shown}' is not a document, must be a dict"
  | invalid complaints =>
    let entries := complaints.map fun (k, c) => k.shown ++ ": [" ++ Points.quoted c.message ++ "]"
    "Configuration validation failed: \x7b" ++ ", ".intercalate entries ++ "\x7d"
  | incomparable left right => Value.notComparable left right
  | tooLong => Number.tooLongToWrite
  | misfit => "The entries are not the fields of settings."

/-- The error is about the mapping, and can be reported as such. -/
def isReported : SettingsError → Bool
  | invalid _ => true
  | _ => false

end SettingsError

namespace Settings

open Schema (Field)

/-! ## The schema -/

def levelNames : List String := ["DEBUG", "INFO", "WARNING", "ERROR"]

def levelField : Field where
  name := "log_level"
  rules := [.type .text, .coerce .upper, .allowed levelNames, .default (.ofString "WARNING")]

def fileField : Field where
  name := "log_file"
  rules := [.type .text, .nullable true, .default .null]

def cycleField : Field where
  name := "show_cycle"
  rules := [.type .bool, .default (.bool false)]

/-- For expressions that are nested deeply. -/
def limitField : Field where
  name := "recursion_limit"
  rules := [.type .int, .min 100, .nullable true, .default .null]

/-- `CONFIG_SCHEMA`. -/
def schema : Schema where
  fields := [levelField, fileField, cycleField, limitField]
  nodup := by decide

/-! ## From a mapping to settings -/

def textOf? : Value → Option Points
  | .text ps => some ps
  | _ => none

def boolOf? : Value → Option Bool
  | .bool b => some b
  | _ => none

def intOf? : Value → Option Int
  | .int n => some n
  | _ => none

/-- Null stands for nothing. -/
def orNull {α : Type} (read : Value → Option α) : Value → Option (Option α)
  | .null => some none
  | v => (read v).map some

/-- The value of a field, or `default` when there is none. -/
def take? {α : Type} (m : Mapping) (f : Field) (read : Value → Option α) (default : α) : Option α :=
  match m.get? (.ofString f.name) with
  | none => some default
  | some v => read v

/-- The settings whose fields a mapping gives; its keys have to be names of fields. What it does not give is as in the
settings that nothing is said about. -/
def ofFields? (m : Mapping) : Option Settings :=
  if m.keys.all fun key => (schema.field? key).isSome then do
    let levelName ← take? m levelField textOf? ({} : Settings).levelName
    let logFile ← take? m fileField (orNull textOf?) ({} : Settings).logFile
    let showCycle ← take? m cycleField boolOf? ({} : Settings).showCycle
    let nestingLimit ← take? m limitField (orNull intOf?) ({} : Settings).nestingLimit
    return { levelName, logFile, showCycle, nestingLimit }
  else none

/-- A complaint can be written. -/
def isWritable : Value × Complaint → Bool
  | (.int n, _) => Number.isWritable n
  | _ => true

/-- `validate_config`: check a value, which has to be a mapping. -/
def validate (collect : Collect) : Value → Except SettingsError Settings
  | .null => .error .missing
  | .map m =>
    let document := schema.normalize m
    match collect (schema.drawn document) with
    | .error u => .error (.incomparable u.left u.right)
    | .ok [] => match ofFields? document with
      | some s => .ok s
      | none => .error .misfit
    | .ok cs => .error (if cs.all isWritable then .invalid cs else .tooLong)
  | v => .error (.notMapping v.plain)

/-- The level that the settings name. -/
def level? (s : Settings) : Option Log.Level := (Points.string? s.levelName).bind Log.Level.ofName?

/-- The settings as records show them, unless the limit has too many digits. -/
def summary? (s : Settings) : Option String :=
  let file := (s.logFile.map Points.quoted).getD "None"
  let limit := (s.nestingLimit.map toString).getD "None"
  if s.nestingLimit.all Number.isWritable then
    some <| s!"Config(log_level={Points.quoted s.levelName}, log_file={file}, " ++
      s!"show_cycle={(Value.bool s.showCycle).shown}, recursion_limit={limit})"
  else none

/-! ## The level -/

theorem complaints_allowed_eq_nil {ps : Points} {texts : List String} :
    Schema.complaints (.text ps) [.allowed texts] = [] ↔ ∃ t ∈ texts, ps = Points.ofString t := by
  have hany : (texts.any fun t => Points.ofString t = ps) = true ↔ ∃ t ∈ texts, ps = Points.ofString t := by
    simp [eq_comm (a := ps)]
  rw [← hany]
  simp only [Schema.complaints, Schema.Rule.verdict]
  split
  · rename_i h
    simp [h]
  · rename_i h
    simp [h]

theorem check_levelField_eq_nil {v : Value} :
    levelField.check v = [] ↔ ∃ name ∈ levelNames, v = .ofString name := by
  have hrules : levelField.check v = Schema.complaints v [.nullable false, .type .text, .allowed levelNames] := rfl
  rw [hrules, Schema.complaints_eq_nil_iff, Schema.Kind.holds_text_iff]
  constructor
  · rintro (⟨-, h⟩ | ⟨-, ⟨ps, rfl⟩, h⟩)
    · cases h
    · obtain ⟨name, hname, rfl⟩ := complaints_allowed_eq_nil.mp h
      exact ⟨name, hname, rfl⟩
  · rintro ⟨name, hname, rfl⟩
    exact .inr ⟨by simp [Value.ofString], ⟨_, rfl⟩, complaints_allowed_eq_nil.mpr ⟨name, hname, rfl⟩⟩

/-- The levels that settings may name are those of records, and none is above ERROR. -/
theorem ofName?_of_mem {name : String} (h : name ∈ levelNames) :
    ∃ level ≤ Log.Level.error, Log.Level.ofName? name = some level := by
  simp only [levelNames, List.mem_cons, List.not_mem_nil, or_false] at h
  rcases h with rfl | rfl | rfl | rfl
  · exact ⟨Log.Level.debug, by decide, rfl⟩
  · exact ⟨Log.Level.info, by decide, rfl⟩
  · exact ⟨Log.Level.warning, by decide, rfl⟩
  · exact ⟨Log.Level.error, by decide, rfl⟩

theorem validate_eq_ok_iff {collect : Collect} {v : Value} {s : Settings} :
    validate collect v = .ok s ↔
      ∃ m, v = .map m ∧ collect (schema.drawn (schema.normalize m)) = .ok [] ∧
        ofFields? (schema.normalize m) = some s := by
  cases v with
  | map m =>
    simp only [validate, Value.map.injEq, exists_eq_left']
    cases collect (schema.drawn (schema.normalize m)) with
    | error u => simp
    | ok cs =>
      cases cs with
      | nil => cases ofFields? (schema.normalize m) <;> simp
      | cons c cs => simp
  | _ => simp [validate]

theorem ofFields?_eq_some_iff {m : Mapping} {s : Settings} :
    ofFields? m = some s ↔ (∀ key ∈ m.keys, (schema.field? key).isSome) ∧
      take? m levelField textOf? ({} : Settings).levelName = some s.levelName ∧
      take? m fileField (orNull textOf?) ({} : Settings).logFile = some s.logFile ∧
      take? m cycleField boolOf? ({} : Settings).showCycle = some s.showCycle ∧
      take? m limitField (orNull intOf?) ({} : Settings).nestingLimit = some s.nestingLimit := by
  unfold ofFields?
  split
  · rename_i hkeys
    rw [List.all_eq_true] at hkeys
    simp only [Option.bind_eq_bind, Option.bind_eq_some_iff, Option.pure_def, Option.some.injEq]
    constructor
    · rintro ⟨levelName, hlevel, logFile, hfile, showCycle, hcycle, nestingLimit, hlimit, rfl⟩
      exact ⟨hkeys, hlevel, hfile, hcycle, hlimit⟩
    · rintro ⟨-, hlevel, hfile, hcycle, hlimit⟩
      exact ⟨_, hlevel, _, hfile, _, hcycle, _, hlimit, rfl⟩
  · rename_i hkeys
    rw [List.all_eq_true] at hkeys
    simp [hkeys]

theorem levelName_of_ofFields? {m : Mapping} {s : Settings} (h : ofFields? m = some s) :
    s.levelName = Points.ofString "WARNING" ∨ m.get? (.ofString levelField.name) = some (.text s.levelName) := by
  have htake := (ofFields?_eq_some_iff.mp h).2.1
  unfold take? at htake
  split at htake
  · exact .inl (Option.some.inj htake).symm
  · rename_i v hget
    cases v with
    | text ps => exact .inr (Option.some.inj htake ▸ hget)
    | _ => cases htake

/-- **The level of settings that have passed the check is defined**, and not above ERROR. -/
theorem level?_of_validate {collect : Collect} (hperm : ∀ {drawn cs}, collect drawn = .ok cs → cs.Perm drawn)
    {v : Value} {s : Settings} (h : validate collect v = .ok s) : ∃ level ≤ Log.Level.error, s.level? = some level := by
  obtain ⟨m, rfl, hcollect, hfields⟩ := validate_eq_ok_iff.mp h
  obtain ⟨name, hname, hs⟩ : ∃ name ∈ levelNames, s.levelName = Points.ofString name := by
    rcases levelName_of_ofFields? hfields with hs | hget
    · exact ⟨"WARNING", by simp [levelNames], hs⟩
    · have hmem := Keyed.isSome_get?_text.mp (Option.isSome_of_eq_some hget)
      have hdrawn := Schema.drawn_eq_nil_iff.mp (hperm hcollect).symm.eq_nil _ hmem
      have hcheck : levelField.check (.text s.levelName) = [] := by
        rwa [Schema.complaintsOf, ← Value.ofString, show schema.field? _ = some levelField from rfl, hget] at hdrawn
      obtain ⟨name, hname, hs⟩ := check_levelField_eq_nil.mp hcheck
      exact ⟨name, hname, Value.text.inj hs⟩
  obtain ⟨level, hle, hlevel⟩ := ofName?_of_mem hname
  exact ⟨level, hle, by rw [level?, hs, Points.string?_ofString, Option.bind_some, hlevel]⟩

end Settings

end EvalOrder
