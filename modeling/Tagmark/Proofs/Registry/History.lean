import Mathlib.Data.List.Induction
import Mathlib.Logic.Function.Basic
import Tagmark.Config
import Tagmark.Proofs.Registry.Merge

/-!
How registries come about. Whatever steps have led to it, a registry holds the last definition that
was written under each name, where a merge is read as the writes of its left registry and then those
of its right one; and the notes name exactly what is written over (`Registry.last_write_wins`).
-/

namespace Tagmark.Registry

/-- A step of building registries, which are kept under labels. A definition is written into a
registry where it is kept (`register`), or into a copy of it (`copyWith`). -/
inductive Step where
  | new (label : String)
  | builtin (label : String)
  | register (label name : String) (definition : Definition)
  | copyWith (label source name : String) (definition : Definition)
  | merge (label left right : String)
  | config (label : String) (config : Config)
  | options (label : String) (tags : KeyMap Definition)

/-- The registries that are kept, and the notes so far. Nothing written is the empty registry. -/
structure Session where
  kept : String → Registry := fun _ => ∅
  notes : List Note := []

namespace Step

def label : Step → String
  | .new label | .builtin label | .register label _ _ | .copyWith label _ _ _ | .merge label _ _
  | .config label _ | .options label _ => label

def made (kept : String → Registry) : Step → Logged Registry
  | .new _ => .pure ∅
  | .builtin _ => (∅ : Registry).registerAll builtinTags
  | .register label name definition => (kept label).register name definition
  | .copyWith _ source name definition => (kept source).register name definition
  | .merge _ left right => (kept left).merge (kept right)
  | .config _ declared => declared.registry
  | .options _ tags => extended tags

end Step

/-- A step that fails keeps nothing. -/
def Session.next (session : Session) (step : Step) : Session :=
  let made := step.made session.kept
  { kept := match made.result with
      | .ok registry => Function.update session.kept step.label registry
      | .error _ => session.kept
    notes := session.notes ++ made.notes }

def run (steps : List Step) : Session :=
  steps.foldl Session.next {}

abbrev Writes := List (String × Definition)

def Writes.last? (writes : Writes) (name : String) : Option Definition :=
  writes.reverse.lookup name

def Writes.names (writes : Writes) : List String :=
  writes.map (·.1)

namespace Step

def writes? (written : String → Writes) : Step → Option Writes
  | .new _ => some []
  | .builtin _ => some builtinTags
  | .register label name definition => some (written label ++ [(name, definition)])
  | .copyWith _ source name definition => some (written source ++ [(name, definition)])
  | .merge _ left right => some (written left ++ written right)
  | .config _ declared =>
      declared.definitions.toOption.map fun definitions => builtinTags ++ definitions.entries
  | .options _ tags => some (builtinTags ++ tags.entries)

/-- Whether a step writes over a name. -/
def WritesOver (written : String → Writes) (name : String) : Step → Prop
  | .new _ | .builtin _ => False
  | .register label other _ => name = other ∧ name ∈ (written label).names
  | .copyWith _ source other _ => name = other ∧ name ∈ (written source).names
  | .merge _ left right => name ∈ (written left).names ∧ name ∈ (written right).names
  | .config _ declared =>
      declared.check = .ok () ∧ name ∈ Writes.names builtinTags ∧ name ∈ declared.tags.names
  | .options _ tags => name ∈ Writes.names builtinTags ∧ name ∈ tags.names

end Step

def Step.record (written : String → Writes) (step : Step) : String → Writes :=
  match step.writes? written with
  | some writes => Function.update written step.label writes
  | none => written

def written (steps : List Step) : String → Writes :=
  steps.foldl Step.record fun _ => []

/-- The views of a registry say what was written last, and under which names. -/
structure Records (registry : Registry) (writes : Writes) : Prop where
  get? : ∀ name, registry.get? name = writes.last? name
  ascending : registry.names.Pairwise (· < ·)
  mem_names : ∀ name, name ∈ registry.names ↔ name ∈ writes.names
  contains : ∀ name, registry.contains name = true ↔ name ∈ registry.names
  size : registry.size = registry.names.length
  isEmpty : registry.isEmpty = true ↔ registry.names = []

theorem mem_names_ofList {writes : Writes} {name : String} :
    name ∈ (KeyMap.ofList writes).names ↔ name ∈ writes.names := by
  rw [KeyMap.mem_names_iff, KeyMap.contains, KeyMap.get?_ofList, List.lookup_isSome_iff]
  simp [Writes.names]

theorem records_ofList (writes : Writes) : Records (.ofList writes) writes where
  get? := KeyMap.get?_ofList writes
  ascending := KeyMap.ascending_names _
  mem_names _ := mem_names_ofList
  contains _ := KeyMap.mem_names_iff.symm
  size := by simp [KeyMap.size, KeyMap.names]
  isEmpty := by simp [KeyMap.isEmpty, KeyMap.names]

def Keeps (kept : String → Registry) (written : String → Writes) : Prop :=
  ∀ label, kept label = .ofList (written label)

section Step

variable {kept : String → Registry} {written : String → Writes}

theorem result_merge (registry other : Registry) :
    (registry.merge other).result = .ok (registry.insertAll other.entries) := by
  rw [merge_eq]

theorem Step.result_made (hkeeps : Keeps kept written) (step : Step) :
    (step.made kept).result.toOption = (step.writes? written).map .ofList := by
  cases step with
  | new => rfl
  | builtin =>
      rw [Step.made, registerAll_builtinTags]
      rfl
  | register label name definition =>
      rw [Step.made, Step.writes?, hkeeps label]
      exact congrArg some (KeyMap.insertAll_append ∅ (written label) [(name, definition)]).symm
  | copyWith label source name definition =>
      rw [Step.made, Step.writes?, hkeeps source]
      exact congrArg some (KeyMap.insertAll_append ∅ (written source) [(name, definition)]).symm
  | merge label left right =>
      rw [Step.made, Step.writes?, hkeeps left, hkeeps right, result_merge, KeyMap.insertAll_ofList]
      exact congrArg some (KeyMap.insertAll_append ∅ (written left) (written right)).symm
  | config label declared =>
      rw [Step.made, Step.writes?]
      cases hdefinitions : declared.definitions with
      | error fault =>
          rw [Config.registry, hdefinitions]
          rfl
      | ok definitions =>
          rw [Config.registry_of_definitions hdefinitions, extended_eq, result_merge]
          exact congrArg some
            (KeyMap.insertAll_append ∅ builtinTags definitions.entries).symm
  | options label tags =>
      rw [Step.made, Step.writes?, extended_eq, result_merge]
      exact congrArg some (KeyMap.insertAll_append ∅ builtinTags tags.entries).symm

def Step.overridden (kept : String → Registry) : Step → List String
  | .new _ | .builtin _ => []
  | .register label name _ => if (kept label).contains name then [name] else []
  | .copyWith _ source name _ => if (kept source).contains name then [name] else []
  | .merge _ left right => (kept right).names.filter (kept left).contains
  | .config _ declared =>
      match declared.definitions with
      | .ok definitions => definitions.names.filter Registry.builtin.contains
      | .error _ => []
  | .options _ tags => tags.names.filter Registry.builtin.contains

theorem notes_register (registry : Registry) (name : String) (definition : Definition) :
    (registry.register name definition).notes =
      (if registry.contains name then [name] else []).map .overriddenTag := by
  rw [register]
  split <;> rfl

theorem notes_merge (registry other : Registry) :
    (registry.merge other).notes = (other.names.filter registry.contains).map .overriddenTag := by
  rw [merge_eq]

theorem Step.notes_made (step : Step) :
    (step.made kept).notes = (step.overridden kept).map .overriddenTag := by
  cases step with
  | new => rfl
  | builtin =>
      rw [Step.made, registerAll_builtinTags]
      rfl
  | register label name definition => exact notes_register (kept label) name definition
  | copyWith label source name definition => exact notes_register (kept source) name definition
  | merge label left right => exact notes_merge (kept left) (kept right)
  | config label declared =>
      rw [Step.made, Step.overridden]
      cases hdefinitions : declared.definitions with
      | error fault =>
          rw [Config.registry, hdefinitions]
          rfl
      | ok definitions =>
          rw [Config.registry_of_definitions hdefinitions, extended_eq]
          exact notes_merge Registry.builtin definitions
  | options label tags =>
      rw [Step.made, extended_eq]
      exact notes_merge Registry.builtin tags

theorem Step.ascending_overridden (step : Step) :
    (step.overridden kept).Pairwise (· < ·) := by
  have hsingle : ∀ (registry : Registry) (name : String),
      (if registry.contains name then [name] else []).Pairwise (· < ·) := by
    intro registry name
    split
    · exact List.pairwise_singleton _ _
    · exact .nil
  cases step with
  | new | builtin => exact .nil
  | register | copyWith => exact hsingle _ _
  | merge label left right => exact (KeyMap.ascending_names (kept right)).filter _
  | config label declared =>
      rw [Step.overridden]
      split
      · next definitions _ => exact (KeyMap.ascending_names definitions).filter _
      · exact .nil
  | options label tags => exact (KeyMap.ascending_names tags).filter _

theorem mem_filter_contains {writes : Writes} {other : KeyMap Definition} {name : String} :
    name ∈ other.names.filter (KeyMap.ofList writes).contains ↔
      name ∈ writes.names ∧ name ∈ other.names := by
  rw [List.mem_filter, ← KeyMap.mem_names_iff, mem_names_ofList, and_comm]

theorem mem_ite_contains {writes : Writes} {name other : String} :
    name ∈ (if (KeyMap.ofList writes).contains other then [other] else []) ↔
      name = other ∧ name ∈ writes.names := by
  rw [← mem_names_ofList, KeyMap.mem_names_iff]
  split
  · next hcontains =>
      rw [List.mem_singleton]
      exact ⟨fun heq => ⟨heq, heq ▸ hcontains⟩, And.left⟩
  · next hcontains =>
      simp only [List.not_mem_nil, false_iff, not_and]
      rintro rfl
      exact hcontains

theorem Step.mem_overridden (hkeeps : Keeps kept written) {step : Step} {name : String} :
    name ∈ step.overridden kept ↔ step.WritesOver written name := by
  cases step with
  | new | builtin => exact iff_of_false List.not_mem_nil id
  | register label other definition =>
      rw [Step.overridden, hkeeps label]
      exact mem_ite_contains
  | copyWith label source other definition =>
      rw [Step.overridden, hkeeps source]
      exact mem_ite_contains
  | merge label left right =>
      rw [Step.overridden, hkeeps left, hkeeps right, mem_filter_contains, mem_names_ofList]
      rfl
  | config label declared =>
      rw [Step.overridden]
      split
      · next definitions hdefinitions =>
          obtain ⟨hcheck, rfl⟩ := Config.definitions_eq_ok.1 hdefinitions
          rw [Registry.builtin, mem_filter_contains, KeyMap.names_map, Step.WritesOver,
            and_iff_right hcheck]
      · next fault hdefinitions =>
          refine iff_of_false List.not_mem_nil fun hover => ?_
          cases hdefinitions.symm.trans (Config.definitions_eq_ok.2 ⟨hover.1, rfl⟩)
  | options label tags =>
      rw [Step.overridden, Registry.builtin, mem_filter_contains]
      rfl

end Step

theorem run_concat (steps : List Step) (step : Step) :
    run (steps ++ [step]) = (run steps).next step :=
  List.foldl_append

theorem Keeps.next {session : Session} {written : String → Writes}
    (hkeeps : Keeps session.kept written) (step : Step) :
    Keeps (session.next step).kept (step.record written) := by
  have hresult := Step.result_made hkeeps step
  intro label
  rw [Session.next, Step.record]
  dsimp only
  cases hmade : (step.made session.kept).result with
  | error fault =>
      rw [hmade] at hresult
      rw [Option.map_eq_none_iff.1 hresult.symm]
      exact hkeeps label
  | ok registry =>
      rw [hmade] at hresult
      obtain ⟨writes, hwrites, rfl⟩ := Option.map_eq_some_iff.1 hresult.symm
      rw [hwrites]
      dsimp only
      by_cases hlabel : label = step.label
      · rw [hlabel, Function.update_self, Function.update_self]
      · rw [Function.update_of_ne hlabel, Function.update_of_ne hlabel]
        exact hkeeps label

theorem keeps_run (steps : List Step) : Keeps (run steps).kept (written steps) := by
  induction steps using List.reverseRecOn with
  | nil => exact fun _ => rfl
  | append_singleton before step induction =>
      rw [run_concat, written, List.foldl_append]
      exact induction.next step

theorem exists_merge_assoc (left middle right : Registry) :
    ∃ front back whole, (left.merge middle).result = .ok front ∧
      (front.merge right).result = .ok whole ∧ (middle.merge right).result = .ok back ∧
      (left.merge back).result = .ok whole := by
  refine ⟨_, _, _, result_merge left middle, result_merge _ right, result_merge middle right, ?_⟩
  rw [result_merge]
  refine congrArg Except.ok (KeyMap.ext_get? fun name => ?_)
  simp only [KeyMap.get?_insertAll_entries, Option.or_assoc]

/-- A registry is the last write of each name, whatever steps have led to it, and the notes of a step
name what it writes over. Merging is associative, with the empty registry as its unit, and the ways
to put tags over those that are understood everywhere agree. -/
theorem last_write_wins (steps : List Step) :
    (∀ label, ((run steps).kept label).Records (written steps label)) ∧
    (∀ step, ∃ names : List String,
      (run (steps ++ [step])).notes = (run steps).notes ++ names.map .overriddenTag ∧
        names.Pairwise (· < ·) ∧ ∀ name, name ∈ names ↔ step.WritesOver (written steps) name) ∧
    (∀ left middle right : Registry, ∃ front back whole,
      (left.merge middle).result = .ok front ∧ (front.merge right).result = .ok whole ∧
        (middle.merge right).result = .ok back ∧ (left.merge back).result = .ok whole) ∧
    (∀ registry : Registry, (registry.merge ∅).result = .ok registry ∧
      ((∅ : Registry).merge registry).result = .ok registry) ∧
    (∀ tags : KeyMap Definition, extended tags = builtin.registerAll tags.entries) ∧
    ∀ config : Config, config.registry =
      Noted.ofExcept config.definitions >>= fun tags => builtin.registerAll tags.entries := by
  have hkeeps := keeps_run steps
  refine ⟨?_, ?_, exists_merge_assoc, ?_, extended_eq, fun config => ?_⟩
  · intro label
    rw [hkeeps label]
    exact records_ofList (written steps label)
  · intro step
    refine ⟨step.overridden (run steps).kept, ?_, step.ascending_overridden,
      fun _ => Step.mem_overridden hkeeps⟩
    rw [run_concat, Session.next, ← Step.notes_made]
  · intro registry
    refine ⟨result_merge registry ∅, ?_⟩
    rw [result_merge, KeyMap.insertAll_entries]
  · exact congrArg (Noted.ofExcept config.definitions >>= ·) (funext extended_eq)

end Tagmark.Registry
