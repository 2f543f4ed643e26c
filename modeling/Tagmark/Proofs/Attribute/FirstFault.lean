import Tagmark.Proofs.Attribute.Binding

/-!
Why attributes are not bound. An attribute fails if it is declared with another type, or if it is required,
has no default and is not declared (`Schema.bind_eq_error`). The attributes of a schema are bound in the
order of their names, so the first one that fails gives the fault (`Schema.resolve_eq_error`), and if
none does, all are bound (`Schema.resolve_exact`).
-/

namespace Tagmark

/-- Why an attribute cannot be bound to what is declared. -/
inductive AttributeSpec.FailsWith (spec : AttributeSpec) (tag name : String) :
    Option Value → Fault → Prop
  | wrongType {value : Value} (htype : value.type ≠ spec.type) :
      FailsWith spec tag name (some value) (.wrongType tag name spec.type value.type)
  | missing (hrequired : spec.required = true) (hdefault : spec.default = none) :
      FailsWith spec tag name none (.missingAttribute tag name)

theorem AttributeSpec.admits_iff {spec : AttributeSpec} {declared : Option Value} :
    spec.Admits declared ↔
      (∀ value, declared = some value → value.type = spec.type) ∧
        (spec.required = true → spec.default = none → declared.isSome) := by
  constructor
  · rintro ⟨htyped, hpresent⟩
    refine ⟨htyped, fun hrequired hdefault => ?_⟩
    have hvalue := hpresent hrequired
    rwa [value?, hdefault, Option.or_none] at hvalue
  · rintro ⟨htyped, hdeclared⟩
    refine ⟨htyped, fun hrequired => ?_⟩
    rw [value?, Option.isSome_or]
    cases hdefault : spec.default with
    | none => rw [hdeclared hrequired hdefault, Bool.true_or]
    | some value => exact Bool.or_true _

namespace Schema

variable {schema : Schema} {tag : String} {declared : KeyMap Value} {fault : Fault}

theorem bind_eq_error {name : String} {spec : AttributeSpec} {value : Option Value} :
    bind tag name spec value = .error fault ↔ spec.FailsWith tag name value fault := by
  constructor
  · intro hbind
    unfold bind at hbind
    split at hbind
    · split at hbind
      · cases hbind
      · next htype =>
          cases hbind
          exact .wrongType htype
    · split at hbind
      · cases hbind
      · next hdefault =>
          split at hbind
          · next hrequired =>
              cases hbind
              exact .missing hrequired hdefault
          · cases hbind
  · rintro (htype | ⟨hrequired, hdefault⟩)
    · exact if_neg htype
    · rw [bind, hdefault]
      exact if_pos hrequired

theorem admits_or_failsWith (tag name : String) (spec : AttributeSpec) (value : Option Value) :
    (spec.Admits value ∧ ∀ fault, ¬ spec.FailsWith tag name value fault) ∨
      ¬ spec.Admits value ∧ ∃ fault, spec.FailsWith tag name value fault := by
  cases hbind : bind tag name spec value with
  | ok found =>
      refine .inl ⟨(bind_eq_ok.1 hbind).1, fun fault hfails => ?_⟩
      cases hbind.symm.trans (bind_eq_error.2 hfails)
  | error fault =>
      refine .inr ⟨fun hadmits => ?_, fault, bind_eq_error.1 hbind⟩
      cases hbind.symm.trans (bind_eq_ok.2 ⟨hadmits, rfl⟩)

theorem bindAll_cons {name : String} {spec : AttributeSpec} {found : Option Value}
    {rest : List (String × AttributeSpec)}
    (hbind : bind tag name spec (declared.get? name) = .ok found) :
    bindAll tag declared ((name, spec) :: rest) = .error fault ↔
      bindAll tag declared rest = .error fault := by
  rw [bindAll, hbind]
  cases bindAll tag declared rest with
  | error other => exact Iff.rfl
  | ok values => exact iff_of_false (by rintro ⟨⟩) (by rintro ⟨⟩)

theorem bindAll_eq_error {specs : List (String × AttributeSpec)} :
    bindAll tag declared specs = .error fault ↔
      ∃ front name spec back, specs = front ++ (name, spec) :: back ∧
        (∀ entry ∈ front, entry.2.Admits (declared.get? entry.1)) ∧
        spec.FailsWith tag name (declared.get? name) fault := by
  induction specs with
  | nil =>
      refine iff_of_false (by simp [bindAll]) ?_
      rintro ⟨front, _, _, _, heq, -⟩
      cases front <;> cases heq
  | cons entry rest induction =>
      obtain ⟨name, spec⟩ := entry
      rcases admits_or_failsWith tag name spec (declared.get? name) with
        ⟨hadmits, hnone⟩ | ⟨hrefused, other, hother⟩
      · rw [bindAll_cons (bind_eq_ok.2 ⟨hadmits, rfl⟩), induction]
        constructor
        · rintro ⟨front, later, spec', back, rfl, hfront, hfails⟩
          exact ⟨(name, spec) :: front, later, spec', back, rfl,
            List.forall_mem_cons.2 ⟨hadmits, hfront⟩, hfails⟩
        · rintro ⟨front, later, spec', back, heq, hfront, hfails⟩
          cases front with
          | nil =>
              cases heq
              exact absurd hfails (hnone fault)
          | cons first front =>
              obtain ⟨rfl, rfl⟩ := List.cons.inj heq
              exact ⟨front, later, spec', back, rfl, (List.forall_mem_cons.1 hfront).2, hfails⟩
      · have hbind := bind_eq_error.2 hother
        have hall : bindAll tag declared ((name, spec) :: rest) = .error other := by
          rw [bindAll, hbind]
          rfl
        rw [hall]
        constructor
        · rintro ⟨⟩
          exact ⟨[], name, spec, rest, rfl, fun _ hmem => absurd hmem List.not_mem_nil, hother⟩
        · rintro ⟨front, later, spec', back, heq, hfront, hfails⟩
          cases front with
          | nil =>
              cases heq
              cases hbind.symm.trans (bind_eq_error.2 hfails)
              rfl
          | cons first front =>
              obtain ⟨rfl, rfl⟩ := List.cons.inj heq
              exact absurd ((List.forall_mem_cons.1 hfront).1) hrefused

theorem resolve_eq_error :
    schema.resolve tag declared = .error fault ↔
      ∃ name spec, schema.get? name = some spec ∧
        spec.FailsWith tag name (declared.get? name) fault ∧
        ∀ other spec', schema.get? other = some spec' → other < name →
          spec'.Admits (declared.get? other) := by
  have hbind : schema.resolve tag declared = .error fault ↔
      bindAll tag declared schema.entries = .error fault := by
    rw [resolve]
    cases bindAll tag declared schema.entries with
    | error other =>
        constructor
        · rintro ⟨⟩
          rfl
        · rintro ⟨⟩
          rfl
    | ok values => exact iff_of_false (by rintro ⟨⟩) (by rintro ⟨⟩)
  rw [hbind, bindAll_eq_error]
  constructor
  · rintro ⟨front, name, spec, back, hentries, hfront, hfails⟩
    have hascending := schema.ascending
    rw [hentries, List.pairwise_append] at hascending
    obtain ⟨-, hback, -⟩ := hascending
    refine ⟨name, spec, KeyMap.get?_eq_some_iff.2 (by simp [hentries]), hfails, ?_⟩
    intro other spec' hother hlt
    have hmem := KeyMap.get?_eq_some_iff.1 hother
    rw [hentries, List.mem_append, List.mem_cons] at hmem
    rcases hmem with hmem | heq | hmem
    · exact hfront (other, spec') hmem
    · cases heq
      exact absurd hlt (String.lt_irrefl name)
    · exact absurd hlt (String.lt_asymm ((List.pairwise_cons.1 hback).1 _ hmem))
  · rintro ⟨name, spec, hget, hfails, hfirst⟩
    obtain ⟨front, back, hentries⟩ := List.append_of_mem (KeyMap.get?_eq_some_iff.1 hget)
    refine ⟨front, name, spec, back, hentries, fun entry hmem => ?_, hfails⟩
    have hascending := schema.ascending
    rw [hentries, List.pairwise_append] at hascending
    obtain ⟨-, -, hbefore⟩ := hascending
    refine hfirst entry.1 entry.2 (KeyMap.get?_eq_some_iff.2 ?_)
      (hbefore entry hmem _ List.mem_cons_self)
    rw [hentries]
    exact List.mem_append_left _ hmem

theorem exists_resolve_iff :
    (∃ bound, schema.resolve tag declared = .ok bound) ↔ schema.Admits declared := by
  constructor
  · rintro ⟨bound, hresolve⟩
    exact (resolve_eq_ok.1 hresolve).1
  · intro hadmits
    cases hresolve : schema.resolve tag declared with
    | ok bound => exact ⟨bound, rfl⟩
    | error fault =>
        obtain ⟨name, spec, hspec, hfails, -⟩ := resolve_eq_error.1 hresolve
        rcases admits_or_failsWith tag name spec (declared.get? name) with ⟨-, hnone⟩ | ⟨hrefused, -⟩
        · exact absurd hfails (hnone fault)
        · exact absurd (hadmits name spec hspec) hrefused

section

variable {bound : Bound} (hresolve : schema.resolve tag declared = .ok bound)

include hresolve

theorem contains_values_iff {name : String} :
    bound.values.contains name = true ↔ ∃ spec, schema.get? name = some spec ∧
      (declared.contains name = true ∨ spec.default.isSome = true) := by
  obtain ⟨-, -, hvalues, -⟩ := resolve_eq_ok.1 hresolve
  rw [KeyMap.contains, hvalues, KeyMap.contains]
  cases hspec : schema.get? name with
  | none => simp
  | some spec => simp [AttributeSpec.value?]

theorem get?_values {name : String} {spec : AttributeSpec} (hspec : schema.get? name = some spec) :
    bound.values.get? name = (declared.get? name).or spec.default := by
  obtain ⟨-, -, hvalues, -⟩ := resolve_eq_ok.1 hresolve
  rw [hvalues, hspec]
  rfl

theorem get?_extra_iff {name : String} {value : Value} :
    bound.extra.get? name = some value ↔
      schema.contains name = false ∧ declared.get? name = some value := by
  obtain ⟨-, -, -, hextra⟩ := resolve_eq_ok.1 hresolve
  rw [hextra]
  cases schema.contains name <;> simp

theorem not_contains_both (name : String) :
    ¬ (bound.values.contains name = true ∧ bound.extra.contains name = true) := by
  rintro ⟨hvalue, hother⟩
  obtain ⟨spec, hspec, -⟩ := (contains_values_iff hresolve).1 hvalue
  obtain ⟨value, hextra⟩ := Option.isSome_iff_exists.1 hother
  obtain ⟨hunknown, -⟩ := (get?_extra_iff hresolve).1 hextra
  rw [KeyMap.contains, hspec] at hunknown
  cases hunknown

theorem get?_printed_iff {name text : String} :
    bound.printed.get? name = some text ↔
      ∃ value, (bound.values.get? name = some value ∨ bound.extra.get? name = some value) ∧
        value.print = text := by
  have hapart := not_contains_both hresolve name
  rw [KeyMap.contains, KeyMap.contains] at hapart
  rw [Bound.printed, KeyMap.get?_insertAll_entries, Bound.printedExtra, KeyMap.get?_map,
    KeyMap.get?_map]
  cases hvalue : bound.values.get? name with
  | none => simp
  | some value =>
      have hnone : bound.extra.get? name = none := by simpa [hvalue] using hapart
      simp [hnone]

end

/-- Attributes are bound if each one that the schema names has its type and each required one without a
default is declared. Then the declared values come before defaults, all others are extras, and both
are printed. Otherwise the first name that fails gives the fault. -/
theorem resolve_exact (schema : Schema) (tag : String) (declared : KeyMap Value) :
    ((∃ bound, schema.resolve tag declared = .ok bound) ↔
      (∀ name spec value, schema.get? name = some spec → declared.get? name = some value →
        value.type = spec.type) ∧
      ∀ name spec, schema.get? name = some spec → spec.required = true → spec.default = none →
        declared.contains name = true) ∧
    (∀ bound, schema.resolve tag declared = .ok bound →
      bound.tag = tag ∧
      (∀ name, bound.values.contains name = true ↔
        ∃ spec, schema.get? name = some spec ∧
          (declared.contains name = true ∨ spec.default.isSome = true)) ∧
      (∀ name spec, schema.get? name = some spec →
        bound.values.get? name = (declared.get? name).or spec.default) ∧
      (∀ name value, bound.extra.get? name = some value ↔
        schema.contains name = false ∧ declared.get? name = some value) ∧
      (∀ name, ¬ (bound.values.contains name = true ∧ bound.extra.contains name = true)) ∧
      ∀ name text, bound.printed.get? name = some text ↔
        ∃ value, (bound.values.get? name = some value ∨ bound.extra.get? name = some value) ∧
          value.print = text) ∧
    ∀ fault, schema.resolve tag declared = .error fault ↔
      ∃ name spec, schema.get? name = some spec ∧
        spec.FailsWith tag name (declared.get? name) fault ∧
        ∀ other spec', schema.get? other = some spec' → other < name →
          ∀ fault', ¬ spec'.FailsWith tag other (declared.get? other) fault' := by
  refine ⟨?_, fun bound hresolve => ?_, fun fault => ?_⟩
  · rw [exists_resolve_iff]
    constructor
    · intro hadmits
      exact ⟨fun name spec value hspec => (AttributeSpec.admits_iff.1 (hadmits name spec hspec)).1 value,
        fun name spec hspec => (AttributeSpec.admits_iff.1 (hadmits name spec hspec)).2⟩
    · rintro ⟨htyped, hdeclared⟩ name spec hspec
      exact AttributeSpec.admits_iff.2 ⟨fun value => htyped name spec value hspec,
        hdeclared name spec hspec⟩
  · obtain ⟨-, htag, -, -⟩ := resolve_eq_ok.1 hresolve
    exact ⟨htag, fun name => contains_values_iff hresolve,
      fun name spec hspec => get?_values hresolve hspec,
      fun name value => get?_extra_iff hresolve, not_contains_both hresolve,
      fun name text => get?_printed_iff hresolve⟩
  · rw [resolve_eq_error]
    refine exists_congr fun name => exists_congr fun spec => and_congr_right fun hspec =>
      and_congr_right fun hfails => forall₄_congr fun other spec' hother hlt => ?_
    rcases admits_or_failsWith tag other spec' (declared.get? other) with
      ⟨hadmits, hnone⟩ | ⟨hrefused, fault', hfault⟩
    · exact iff_of_true hadmits hnone
    · exact iff_of_false hrefused fun hnone => hnone fault' hfault

theorem resolve_exact_note :
    let schema : Schema := .ofList
      [("title", { type := .string, default := some (.string "Note") }),
        ("open", { type := .boolean }), ("kind", { type := .string, required := true })]
    let declared : KeyMap Value := .ofList [("kind", .string "info"), ("lang", .string "en")]
    let wrong : KeyMap Value := .ofList [("open", .string "yes")]
    (∃ bound, schema.resolve "note" declared = .ok bound ∧
      bound.values.get? "title" = some (.string "Note") ∧
      bound.extra.get? "lang" = some (.string "en") ∧ bound.printed.get? "kind" = some "info") ∧
    schema.resolve "note" wrong = .error (.missingAttribute "note" "kind") := by
  intro schema declared wrong
  have hentries : schema.entries =
      [("kind", { type := .string, required := true }), ("open", { type := .boolean }),
        ("title", { type := .string, default := some (.string "Note") })] := rfl
  have hresolve : schema.resolve "note" declared = .ok ⟨"note",
      .ofList [("kind", .string "info"), ("title", .string "Note")],
      .ofList [("lang", .string "en")]⟩ := rfl
  have htitle : schema.get? "title" =
      some { type := .string, default := some (.string "Note") } := rfl
  have hkind : schema.get? "kind" = some { type := .string, required := true } := rfl
  obtain ⟨-, hbound, -⟩ := resolve_exact schema "note" declared
  obtain ⟨-, -, hvalues, hextra, -, hprinted⟩ := hbound _ hresolve
  obtain ⟨-, -, hfault⟩ := resolve_exact schema "note" wrong
  refine ⟨⟨_, hresolve, hvalues "title" _ htitle, (hextra "lang" _).2 ⟨rfl, rfl⟩,
    (hprinted "kind" _).2 ⟨_, .inl rfl, rfl⟩⟩,
    (hfault _).2 ⟨"kind", _, hkind, .missing rfl rfl, fun other spec hother hlt => ?_⟩⟩
  have hmem := KeyMap.get?_eq_some_iff.1 hother
  simp only [hentries, List.mem_cons, Prod.mk.injEq, List.not_mem_nil, or_false] at hmem
  rcases hmem with ⟨rfl, -⟩ | ⟨rfl, -⟩ | ⟨rfl, -⟩ <;> exact absurd hlt (by decide)

end Schema

end Tagmark
