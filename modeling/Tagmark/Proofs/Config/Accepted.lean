import Mathlib.Data.List.Basic
import Tagmark.Proofs.Attribute.Binding
import Tagmark.Proofs.Transform.Agreement

/-!
What an accepted configuration guarantees. The checks look at each default once (`check_eq_ok`), so
the schemas of the declared tags are typed, and so is whatever is bound to them; binding itself does
not look at a default (`binds_typed`).
-/

namespace Tagmark.Config

theorem forM_eq_ok {α : Type} {items : List α} {check : α → Except Fault Unit} :
    items.forM check = .ok () ↔ ∀ item ∈ items, check item = .ok () := by
  induction items with
  | nil => exact iff_of_true rfl fun _ hmem => absurd hmem List.not_mem_nil
  | cons item rest induction =>
      rw [List.forall_mem_cons, ← induction]
      change (check item).bind (fun _ => rest.forM check) = .ok () ↔ _
      cases check item with
      | error fault => exact iff_of_false (fun h => nomatch h) fun h => nomatch h.1
      | ok _ => exact ⟨fun h => ⟨rfl, h⟩, fun h => h.2⟩

theorem checkAttribute_eq_ok {tag key : String} {spec : AttributeSpec} :
    checkAttribute tag key spec = .ok () ↔
      ∀ value, spec.default = some value → value.type = spec.type := by
  unfold checkAttribute
  cases spec.default with
  | none => exact iff_of_true rfl fun _ h => nomatch h
  | some value =>
      by_cases htype : value.type = spec.type
      · simp [htype]
      · simp [htype]

theorem checkTag_eq_ok {name : String} {tag : TagConfig} :
    checkTag name tag = .ok () ↔
      Text.isBlankText tag.element.toList = false ∧ tag.schema.Typed := by
  unfold checkTag
  cases Text.isBlankText tag.element.toList with
  | true => simp
  | false =>
      rw [if_neg Bool.false_ne_true, forM_eq_ok]
      exact ⟨fun h => ⟨rfl, fun key spec hget =>
          checkAttribute_eq_ok.1 (h (key, spec) (KeyMap.get?_eq_some_iff.1 hget))⟩,
        fun h entry hmem =>
          checkAttribute_eq_ok.2 (h.2 entry.1 entry.2 (KeyMap.get?_eq_some_iff.2 hmem))⟩

theorem check_eq_ok {config : Config} :
    config.check = .ok () ↔ ∀ name tag, config.tags.get? name = some tag →
      Text.isBlankText tag.element.toList = false ∧ tag.schema.Typed := by
  rw [check, forM_eq_ok]
  exact ⟨fun h name tag hget => checkTag_eq_ok.1 (h _ (KeyMap.get?_eq_some_iff.1 hget)),
    fun h entry hmem => checkTag_eq_ok.2 (h entry.1 entry.2 (KeyMap.get?_eq_some_iff.2 hmem))⟩

/-- The tags of an accepted configuration understand the attributes that it declares for them, and
what is bound to these is typed, complete, and bound to the same again. -/
theorem binds_typed {decode : String → Except String Config} {source : String} {config : Config}
    (hread : readBy decode source = .ok config) :
    ∃ definitions registry, config.definitions = .ok definitions ∧
      config.registry.result = .ok registry ∧ definitions.names = config.tags.names ∧
      ∀ name tag, config.tags.get? name = some tag →
        ∃ definition, definitions.get? name = some definition ∧
          registry.get? name = some definition ∧ definition.schema = tag.schema ∧
          ∀ (called : String) (declared : KeyMap Value) (bound : Bound),
            definition.schema.resolve called declared = .ok bound →
            (∀ key value, bound.values.get? key = some value →
              ∃ spec, tag.schema.get? key = some spec ∧ value.type = spec.type) ∧
            (∀ key spec, tag.schema.get? key = some spec →
              spec.required = true ∨ spec.default.isSome → bound.values.contains key = true) ∧
            definition.schema.resolve called (bound.values.insertAll bound.extra.entries) =
              .ok bound := by
  have hcheck := check_of_readBy hread
  obtain ⟨registry, hresult, hget⟩ := exists_registry hcheck
  refine ⟨_, registry, definitions_eq_ok.2 ⟨hcheck, rfl⟩, hresult, KeyMap.names_map _ _,
    fun name tag htag => ?_⟩
  obtain ⟨-, htyped⟩ := check_eq_ok.1 hcheck name tag htag
  have hschema := tag.schema_definition
  refine ⟨tag.definition, ?_, ?_, hschema, fun called declared bound hresolve => ?_⟩
  · rw [KeyMap.get?_map, htag]
    rfl
  · rw [hget, htag]
    rfl
  · rw [hschema] at hresolve ⊢
    exact ⟨fun _ _ => Schema.type_of_resolve htyped hresolve,
      fun _ _ => Schema.contains_of_resolve hresolve, Schema.resolve_again htyped hresolve⟩

theorem binds_typed_note :
    let source := "[tags.note]\nrender = \"p\"\n[tags.note.attributes]\n" ++
      "title = \x7b type = \"string\", required = true \x7d\n" ++
      "size = \x7b type = \"number\", default = 1 \x7d\n"
    let declared : KeyMap Value := .ofList [("lang", .string "en"), ("title", .string "a")]
    let bound : Bound :=
      ⟨"note", .ofList [("size", .number (.ofInt 1)), ("title", .string "a")],
        .ofList [("lang", .string "en")]⟩
    ∃ config registry definition, read source = .ok config ∧
      config.registry.result = .ok registry ∧ registry.get? "note" = some definition ∧
      definition.schema.resolve "note" declared = .ok bound ∧
      (∀ key value, bound.values.get? key = some value →
        ∃ spec, definition.schema.get? key = some spec ∧ value.type = spec.type) ∧
      definition.schema.resolve "note" (bound.values.insertAll bound.extra.entries) = .ok bound := by
  intro source declared bound
  let tag : TagConfig :=
    { element := "p"
      schema := .ofList
        [("size", { type := .number, default := some (.number (.ofInt 1)) }),
          ("title", { type := .string, required := true })] }
  have hread : read source = .ok ⟨.ofList [("note", tag)]⟩ :=
    eq_ok_of_toOption (by decide +kernel)
  have hresolve : tag.schema.resolve "note" declared = .ok bound :=
    eq_ok_of_toOption (by decide +kernel)
  obtain ⟨_, registry, -, hresult, -, htags⟩ := binds_typed hread
  obtain ⟨definition, -, hget, hschema, hbound⟩ := htags "note" tag rfl
  rw [← hschema] at hresolve
  obtain ⟨htyped, -, hagain⟩ := hbound "note" declared bound hresolve
  exact ⟨_, registry, definition, hread, hresult, hget, hresolve, hschema ▸ htyped, hagain⟩

end Tagmark.Config
