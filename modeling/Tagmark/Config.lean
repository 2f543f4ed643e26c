import Tagmark.Registry
import Tagmark.Toml.Read

/-!
Configurations, which declare tags of their own. A declared tag becomes an element with all its
attributes; a configuration is accepted only if each element has a name and each default is of the
type of its attribute (`check`).
-/

namespace Tagmark

structure TagConfig where
  element : String
  body : BodyMode := .markdown
  schema : Schema := ∅
deriving DecidableEq

def TagConfig.definition (tag : TagConfig) : Definition :=
  .element tag.element (.ofList tag.schema.entries) tag.body

theorem TagConfig.schema_definition (tag : TagConfig) : tag.definition.schema = tag.schema :=
  KeyMap.insertAll_entries tag.schema

structure Config where
  tags : KeyMap TagConfig
deriving DecidableEq

namespace Config

/-! Declarations. A declaration may also list its fields in their order. -/

def fields? (names : List String) : Toml.Item → Option (KeyMap Toml.Item)
  | .table _ entries =>
      if entries.all fun entry => names.contains entry.1 then some (.ofList entries) else none
  | .array _ items => some (.ofList (names.zip items))
  | _ => none

def text? : Toml.Item → Option String
  | .text value => some value
  | _ => none

def boolean? : Toml.Item → Option Bool
  | .boolean truth => some truth
  | _ => none

def word? : Toml.Item → Option String
  | .text value => some value
  | .table _ [(name, .table _ [])] | .table _ [(name, .array _ [])] => some name
  | _ => none

def body? (item : Toml.Item) : Option BodyMode :=
  match word? item with
  | some "markdown" => some .markdown
  | some "raw" => some .raw
  | _ => none

def type? (item : Toml.Item) : Option ValueType :=
  match word? item with
  | some "string" => some .string
  | some "number" => some .number
  | some "boolean" => some .boolean
  | _ => none

def value? : Toml.Item → Option Value
  | .text value => some (.string value)
  | .integer value =>
      if -(Nat.pow 2 63) ≤ value ∧ value < Nat.pow 2 64 then some (.number (.ofInt value)) else none
  | .float value => some (.number value)
  | .boolean truth => some (.boolean truth)
  | _ => none

def optional? {α : Type} (fields : KeyMap Toml.Item) (name : String) (absent : α)
    (read : Toml.Item → Option α) : Option α :=
  match fields.get? name with
  | none => some absent
  | some item => read item

def attribute? (item : Toml.Item) : Option AttributeSpec := do
  let fields ← fields? ["type", "required", "default"] item
  let type ← type? (← fields.get? "type")
  let required ← optional? fields "required" false boolean?
  let default ← optional? fields "default" none fun item => (value? item).map some
  some { type := type, required := required, default := default }

def entries? {α : Type} (read : Toml.Item → Option α) : Toml.Item → Option (KeyMap α)
  | .table _ entries =>
      (entries.mapM fun entry => (read entry.2).map fun value => (entry.1, value)).map KeyMap.ofList
  | _ => none

def tag? (item : Toml.Item) : Option TagConfig := do
  let fields ← fields? ["render", "body", "attributes"] item
  let element ← text? (← fields.get? "render")
  let body ← optional? fields "body" .markdown body?
  let schema ← optional? fields "attributes" ∅ (entries? attribute?)
  some { element := element, body := body, schema := schema }

def config? (document : Toml.Entries) : Option Config := do
  let fields ← fields? ["tags"] (.table .header document)
  let tags ← optional? fields "tags" ∅ (entries? tag?)
  some ⟨tags⟩

/-! Checks, in the order of the names of tags and of their attributes. -/

def checkAttribute (tag key : String) (spec : AttributeSpec) : Except Fault Unit :=
  match spec.default with
  | none => .ok ()
  | some value =>
      if value.type = spec.type then .ok ()
      else .error (.config (.wrongDefault tag key spec.type value.type))

def checkTag (name : String) (tag : TagConfig) : Except Fault Unit := do
  if Text.isBlankText tag.element.toList then .error (.config (.blankElement name))
  else tag.schema.entries.forM fun (key, spec) => checkAttribute name key spec

def check (config : Config) : Except Fault Unit :=
  config.tags.entries.forM fun (name, tag) => checkTag name tag

/-- Reads a configuration from what `decode` makes of the text, if it does not say why it refuses
it. -/
def readBy (decode : String → Except String Config) (text : String) : Except Fault Config :=
  match decode text with
  | .error message => .error (.config (.unread message))
  | .ok config => do
      config.check
      return config

def decode (text : String) : Except String Config :=
  match (Toml.read? text).bind config? with
  | some config => .ok config
  | none => .error ConfigFault.malformed.message

def read (text : String) : Except Fault Config :=
  readBy decode text

theorem check_of_readBy {decode : String → Except String Config} {text : String} {config : Config}
    (hread : readBy decode text = .ok config) : config.check = .ok () := by
  unfold readBy at hread
  split at hread
  · cases hread
  · next decoded _ =>
      cases hcheck : decoded.check with
      | error fault =>
          rw [hcheck] at hread
          cases hread
      | ok _ =>
          rw [hcheck] at hread
          cases hread
          exact hcheck

def definitions (config : Config) : Except Fault (KeyMap Definition) := do
  config.check
  return config.tags.map TagConfig.definition

theorem definitions_eq_ok {config : Config} {definitions : KeyMap Definition} :
    config.definitions = .ok definitions ↔
      config.check = .ok () ∧ config.tags.map TagConfig.definition = definitions := by
  unfold Config.definitions
  cases config.check with
  | error fault => simp [bind, Except.bind]
  | ok _ => simp [bind, Except.bind, pure, Except.pure]

def registry (config : Config) : Logged Registry := do
  Registry.extended (← .ofExcept config.definitions)

theorem registry_of_definitions {config : Config} {definitions : KeyMap Definition}
    (hdefinitions : config.definitions = .ok definitions) :
    config.registry = Registry.extended definitions := by
  rw [registry, hdefinitions]
  rfl

end Config

end Tagmark
