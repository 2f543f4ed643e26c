import Tagmark.Proofs.Page.Datasource
import Tagmark.Proofs.Page.Query

/-!
Attributes that a schema does not mention, beside those that an element has of its own. An extra is
written over an own attribute of its name, so the own attributes are kept as long as no extra has such
a name (`Schema.keepsOwn_iff`). The element of a query has no own name that its schema does not
mention; that of a data source has its class (`Definition.own_attributes_kept_iff`).
-/

namespace Tagmark

/-- Attributes that are the own ones, and each declared one beside them as text. -/
def KeyMap.KeepsOwn (own : KeyMap String) (declared : KeyMap Value) (attributes : KeyMap String) :
    Prop :=
  ∀ name, attributes.get? name = (own.get? name).or ((declared.get? name).map Value.print)

namespace Schema

variable {schema : Schema} {tag : String} {declared : KeyMap Value} {bound : Bound}

theorem get?_printedExtra (hresolve : schema.resolve tag declared = .ok bound) (name : String) :
    bound.printedExtra.get? name =
      if schema.contains name then none else (declared.get? name).map Value.print := by
  obtain ⟨-, -, -, hextra⟩ := resolve_eq_ok.1 hresolve
  rw [Bound.printedExtra, KeyMap.get?_map, hextra]
  split <;> rfl

theorem get?_insertAll_extra (hresolve : schema.resolve tag declared = .ok bound)
    (own : KeyMap String) {name : String} (hunknown : schema.contains name = false) :
    (own.insertAll bound.printedExtra.entries).get? name =
      ((declared.get? name).map Value.print).or (own.get? name) := by
  rw [KeyMap.get?_insertAll_entries, get?_printedExtra hresolve, hunknown, if_neg Bool.false_ne_true]

theorem get?_insertAll_known (hresolve : schema.resolve tag declared = .ok bound)
    (own : KeyMap String) {name : String} (hknown : schema.contains name = true) :
    (own.insertAll bound.printedExtra.entries).get? name = own.get? name := by
  rw [KeyMap.get?_insertAll_entries, get?_printedExtra hresolve, hknown, if_pos rfl]
  rfl

theorem keepsOwn_iff (hresolve : schema.resolve tag declared = .ok bound) {own : KeyMap String}
    (hown : ∀ name, schema.contains name = true → own.contains name = true) :
    own.KeepsOwn declared (own.insertAll bound.printedExtra.entries) ↔
      ∀ name text value, schema.contains name = false → own.get? name = some text →
        declared.get? name = some value → value.print = text := by
  constructor
  · intro hkept name text value hunknown htext hvalue
    have hget := hkept name
    rw [get?_insertAll_extra hresolve own hunknown, htext, hvalue] at hget
    exact Option.some.inj hget
  · intro hsame name
    cases hschema : schema.contains name with
    | true =>
        obtain ⟨text, htext⟩ := Option.isSome_iff_exists.1 (hown name hschema)
        rw [get?_insertAll_known hresolve own hschema, htext, Option.some_or]
    | false =>
        rw [get?_insertAll_extra hresolve own hschema]
        cases htext : own.get? name with
        | none => rw [Option.or_none, Option.none_or]
        | some text =>
            cases hvalue : declared.get? name with
            | none => rfl
            | some value =>
                rw [Option.map_some, hsame name text value hschema htext hvalue]

theorem insertAll_extra_of_unmentioned (hresolve : schema.resolve tag declared = .ok bound)
    {own : KeyMap String} (hown : ∀ name, schema.contains name = true → own.contains name = true)
    {key text : String} (hkey : own.get? key = some text) (hunknown : schema.contains key = false)
    (honly : ∀ name, schema.contains name = false → name ≠ key → own.get? name = none) :
    let attributes := own.insertAll bound.printedExtra.entries
    (∀ name, name ≠ key →
      attributes.get? name = (own.get? name).or ((declared.get? name).map Value.print)) ∧
    attributes.get? key = some (((declared.get? key).map Value.print).getD text) ∧
    (own.KeepsOwn declared attributes ↔
      ∀ value, declared.get? key = some value → value.print = text) := by
  intro attributes
  have hbeside : ∀ name, name ≠ key →
      attributes.get? name = (own.get? name).or ((declared.get? name).map Value.print) := by
    intro name hname
    cases hschema : schema.contains name with
    | true =>
        obtain ⟨value, hvalue⟩ := Option.isSome_iff_exists.1 (hown name hschema)
        rw [get?_insertAll_known hresolve own hschema, hvalue, Option.some_or]
    | false =>
        rw [get?_insertAll_extra hresolve own hschema, honly name hschema hname, Option.or_none,
          Option.none_or]
  have hover : attributes.get? key = some (((declared.get? key).map Value.print).getD text) := by
    rw [get?_insertAll_extra hresolve own hunknown, hkey]
    cases declared.get? key <;> rfl
  refine ⟨hbeside, hover, (keepsOwn_iff hresolve hown).trans ⟨?_, ?_⟩⟩
  · exact fun hsame value hvalue => hsame key text value hunknown hkey hvalue
  · intro hsame name given value hschema hgiven hvalue
    by_cases hname : name = key
    · subst hname
      cases hkey.symm.trans hgiven
      exact hsame value hvalue
    · cases (honly name hschema hname).symm.trans hgiven

end Schema

namespace Definition

theorem get?_own_datasource (name delimiter other : String) :
    (KeyMap.ofList [("class", "datasource-container"), ("name", name),
      ("delimiter", delimiter)]).get? other =
      if other = "delimiter" then some delimiter
      else if other = "name" then some name
      else if other = "class" then some "datasource-container" else none := by
  simp [KeyMap.ofList, KeyMap.insertAll]

theorem get?_own_query (name other : String) :
    (KeyMap.ofList [("name", name)]).get? other = if other = "name" then some name else none := by
  simp [KeyMap.ofList, KeyMap.insertAll]

/-- The element of a query has its own name and every other declared attribute. So has that of a data
source, and it has its own class as well unless an attribute of this name is declared with another
text, which then stands in its place. -/
theorem own_attributes_kept_iff (tag : String) (declared : KeyMap Value) (children : List Html) :
    (∀ bound, datasource.schema.resolve tag declared = .ok bound →
      bound.values.get? "delimiter" ≠ some (.string "") →
      ∃ name delimiter attributes table,
        bound.values.get? "name" = some (.string name) ∧
        bound.values.get? "delimiter" = some (.string delimiter) ∧
        (datasource.build bound children).result = .ok (.element "div" attributes [table]) ∧
        let own := KeyMap.ofList [("class", "datasource-container"), ("name", name),
          ("delimiter", delimiter)]
        (∀ other, other ≠ "class" →
          attributes.get? other = (own.get? other).or ((declared.get? other).map Value.print)) ∧
        attributes.get? "class" =
          some (((declared.get? "class").map Value.print).getD "datasource-container") ∧
        (own.KeepsOwn declared attributes ↔
          ∀ value, declared.get? "class" = some value → value.print = "datasource-container")) ∧
    (∀ bound, query.schema.resolve tag declared = .ok bound →
      ∃ name attributes sql,
        bound.values.get? "name" = some (.string name) ∧
        (query.build bound children).result = .ok (.element "pre" attributes
          [.element "code" (.ofList [("class", "language-sql")]) sql]) ∧
        (KeyMap.ofList [("name", name)]).KeepsOwn declared attributes) := by
  constructor
  · intro bound hresolve hdelimiter
    obtain ⟨name, hname⟩ := Schema.exists_text_of_resolve typed_datasource hresolve
      (get?_schema_datasource "name") rfl (.inl rfl)
    obtain ⟨delimiter, hgiven⟩ := Schema.exists_text_of_resolve typed_datasource hresolve
      (get?_schema_datasource "delimiter") rfl (.inr rfl)
    have hne : delimiter ≠ "" := fun hempty => hdelimiter (hempty ▸ hgiven)
    refine ⟨name, delimiter, _, _, hname, hgiven,
      congrArg Noted.result (build_datasource_of_values hname hgiven hne children), ?_⟩
    intro own
    refine Schema.insertAll_extra_of_unmentioned hresolve (fun other hschema => ?_)
      (get?_own_datasource name delimiter "class") rfl (fun other hschema hother => ?_)
    · rw [KeyMap.contains, get?_own_datasource]
      rcases contains_schema_datasource.1 hschema with rfl | rfl <;> rfl
    · rw [Bool.eq_false_iff, Ne, contains_schema_datasource, not_or] at hschema
      rw [get?_own_datasource, if_neg hschema.1, if_neg hschema.2, if_neg hother]
  · intro bound hresolve
    obtain ⟨name, hname⟩ := Schema.exists_text_of_resolve typed_query hresolve
      (get?_schema_query "name") rfl (.inl rfl)
    refine ⟨name, _, _, hname, congrArg Noted.result (build_query_of_values hname children), ?_⟩
    refine (Schema.keepsOwn_iff hresolve fun other hschema => ?_).2 ?_
    · rw [KeyMap.contains, get?_own_query, if_pos (contains_schema_query.1 hschema)]
      rfl
    · intro other text value hschema htext _
      rw [Bool.eq_false_iff, Ne, contains_schema_query] at hschema
      rw [get?_own_query, if_neg hschema] at htext
      cases htext

theorem own_attributes_kept_titled :
    let declared : KeyMap Value := .ofList [("name", .string "a"), ("title", .boolean true)]
    let own := KeyMap.ofList [("class", "datasource-container"), ("name", "a"), ("delimiter", "|")]
    (∃ bound, datasource.schema.resolve "datasource" declared = .ok bound ∧
      bound.values.get? "delimiter" ≠ some (.string "") ∧
      ∃ attributes table,
        (datasource.build bound []).result = .ok (.element "div" attributes [table]) ∧
          own.KeepsOwn declared attributes) ∧
    ∃ bound, query.schema.resolve "query" declared = .ok bound ∧
      ∃ attributes code, (query.build bound []).result = .ok (.element "pre" attributes code) ∧
        (KeyMap.ofList [("name", "a")]).KeepsOwn declared attributes := by
  intro declared own
  have hsource : datasource.schema.resolve "datasource" declared =
      .ok ⟨"datasource", .ofList [("delimiter", .string "|"), ("name", .string "a")],
        .ofList [("title", .boolean true)]⟩ := rfl
  have hquery : query.schema.resolve "query" declared =
      .ok ⟨"query", .ofList [("name", .string "a")], .ofList [("title", .boolean true)]⟩ := rfl
  have hdelimiter : (KeyMap.ofList [("delimiter", Value.string "|"), ("name", .string "a")]).get?
      "delimiter" ≠ some (.string "") := by decide
  constructor
  · obtain ⟨name, delimiter, attributes, table, hname, hgiven, hbuild, -, -, hkept⟩ :=
      (own_attributes_kept_iff "datasource" declared []).1 _ hsource hdelimiter
    cases hname
    cases hgiven
    have hclass : declared.get? "class" = none := rfl
    refine ⟨_, hsource, hdelimiter, attributes, table, hbuild, hkept.2 fun value hvalue => ?_⟩
    cases hclass.symm.trans hvalue
  · obtain ⟨name, attributes, sql, hname, hbuild, hkept⟩ :=
      (own_attributes_kept_iff "query" declared []).2 _ hquery
    cases hname
    exact ⟨_, hquery, attributes, _, hbuild, hkept⟩

theorem declared_class_replaces_own :
    let declared : KeyMap Value := .ofList [("name", .string "a"), ("class", .string "x")]
    ∃ bound, datasource.schema.resolve "datasource" declared = .ok bound ∧
      bound.values.get? "delimiter" = some (.string "|") ∧
      ∃ attributes table,
        (datasource.build bound []).result = .ok (.element "div" attributes [table]) ∧
          attributes.get? "class" = some "x" :=
  ⟨_, rfl, rfl, _, _, rfl, rfl⟩

end Definition

end Tagmark
