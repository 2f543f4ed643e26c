import Tagmark.Definition
import Tagmark.Text.Quoted

/-!
Registries, the tags that are understood by name. A definition takes the place of an earlier one of
the same name, which is noted.
-/

namespace Tagmark

abbrev Registry := KeyMap Definition

namespace Registry

def register (registry : Registry) (name : String) (definition : Definition) : Logged Registry :=
  ⟨if registry.contains name then [.overriddenTag name] else [],
    .ok (registry.insert name definition)⟩

def registerAll (registry : Registry) : List (String × Definition) → Logged Registry
  | [] => .pure registry
  | (name, definition) :: rest => do
      registerAll (← registry.register name definition) rest

def builtinTags : List (String × Definition) :=
  [("query", .query), ("datasource", .datasource)]

def builtin : Registry :=
  .ofList builtinTags

def merge (registry other : Registry) : Logged Registry :=
  registry.registerAll other.entries

def extended (tags : KeyMap Definition) : Logged Registry := do
  builtin.merge (← (∅ : Registry).registerAll tags.entries)

def listing (registry : Registry) : String :=
  "[" ++ ", ".intercalate (registry.names.map Text.quote) ++ "]"

end Registry

end Tagmark
