import Tagmark.Attribute.Schema

/-!
What attributes are bound to. A schema admits attributes whose declared values are of the types of the
schema and leave out nothing that it requires. Then each attribute of the schema is bound to its
declared value or else to its default, and what the schema does not mention is kept
(`Schema.resolve_eq_ok`). Where defaults are of the types of their attributes, so is everything that
is bound, and what was bound once is bound to the same again.
-/

namespace Tagmark

def AttributeSpec.value? (spec : AttributeSpec) (declared : Option Value) : Option Value :=
  declared.or spec.default

structure AttributeSpec.Admits (spec : AttributeSpec) (declared : Option Value) : Prop where
  typed : ∀ value, declared = some value → value.type = spec.type
  present : spec.required = true → (spec.value? declared).isSome

namespace Schema

variable {schema : Schema} {tag : String} {declared : KeyMap Value} {bound : Bound}

def Admits (schema : Schema) (declared : KeyMap Value) : Prop :=
  ∀ name spec, schema.get? name = some spec → spec.Admits (declared.get? name)

def Typed (schema : Schema) : Prop :=
  ∀ name spec, schema.get? name = some spec →
    ∀ value, spec.default = some value → value.type = spec.type

theorem bind_eq_ok {name : String} {spec : AttributeSpec} {declared value : Option Value} :
    bind tag name spec declared = .ok value ↔
      spec.Admits declared ∧ spec.value? declared = value := by
  cases declared with
  | some found =>
      have hadmits : spec.Admits (some found) ↔ found.type = spec.type :=
        ⟨fun h => h.typed found rfl,
          fun htype => { typed := fun _ h => Option.some.inj h ▸ htype, present := fun _ => rfl }⟩
      by_cases htype : found.type = spec.type
      · simp [bind, hadmits, htype, AttributeSpec.value?]
      · simp [bind, hadmits, htype]
  | none =>
      have hadmits : spec.Admits none ↔ (spec.required = true → spec.default.isSome) :=
        ⟨fun h => h.present,
          fun hpresent => { present := hpresent, typed := fun _ h => (by cases h) }⟩
      cases hdefault : spec.default with
      | some value => simp [bind, hadmits, hdefault, AttributeSpec.value?]
      | none =>
          cases hrequired : spec.required with
          | false => simp [bind, hadmits, hdefault, hrequired, AttributeSpec.value?]
          | true => simp [bind, hadmits, hdefault, hrequired]

def valuesOf (declared : KeyMap Value) (specs : List (String × AttributeSpec)) :
    List (String × Value) :=
  specs.filterMap fun entry => (entry.2.value? (declared.get? entry.1)).map (entry.1, ·)

theorem valuesOf_cons (declared : KeyMap Value) (name : String) (spec : AttributeSpec)
    (rest : List (String × AttributeSpec)) :
    valuesOf declared ((name, spec) :: rest) =
      ((spec.value? (declared.get? name)).map (name, ·)).toList ++ valuesOf declared rest := by
  rw [valuesOf, List.filterMap_cons]
  cases spec.value? (declared.get? name) <;> rfl

theorem bindAll_eq_ok {specs : List (String × AttributeSpec)} {values : List (String × Value)} :
    bindAll tag declared specs = .ok values ↔
      (∀ entry ∈ specs, entry.2.Admits (declared.get? entry.1)) ∧
        valuesOf declared specs = values := by
  induction specs generalizing values with
  | nil => simp [bindAll, valuesOf]
  | cons entry rest induction =>
      obtain ⟨name, spec⟩ := entry
      rw [bindAll, List.forall_mem_cons, and_assoc]
      cases hbind : bind tag name spec (declared.get? name) with
      | error fault =>
          have hnot : ¬ spec.Admits (declared.get? name) := fun hadmits => by
            rw [bind_eq_ok.2 ⟨hadmits, rfl⟩] at hbind
            cases hbind
          refine iff_of_false (fun h => nomatch h) fun h => hnot h.1
      | ok value =>
          obtain ⟨hadmits, rfl⟩ := bind_eq_ok.1 hbind
          cases hrest : bindAll tag declared rest with
          | error fault =>
              refine iff_of_false (fun h => nomatch h) fun h => ?_
              rw [induction.2 ⟨h.2.1, rfl⟩] at hrest
              cases hrest
          | ok others =>
              obtain ⟨hothers, rfl⟩ := induction.1 hrest
              rw [valuesOf_cons]
              cases spec.value? (declared.get? name) <;>
                exact ⟨fun h => ⟨hadmits, hothers, Except.ok.inj h⟩,
                  fun h => congrArg Except.ok h.2.2⟩

theorem mem_valuesOf {specs : List (String × AttributeSpec)} {name : String} {value : Value} :
    (name, value) ∈ valuesOf declared specs ↔
      ∃ spec, (name, spec) ∈ specs ∧ spec.value? (declared.get? name) = some value := by
  unfold valuesOf
  rw [List.mem_filterMap]
  constructor
  · rintro ⟨⟨other, spec⟩, hmem, hvalue⟩
    obtain ⟨_, hvalue, heq⟩ := Option.map_eq_some_iff.1 hvalue
    cases heq
    exact ⟨spec, hmem, hvalue⟩
  · rintro ⟨spec, hmem, hvalue⟩
    exact ⟨(name, spec), hmem, by rw [hvalue]; rfl⟩

theorem ascending_valuesOf {specs : List (String × AttributeSpec)}
    (hascending : specs.Pairwise fun left right => left.1 < right.1) :
    (valuesOf declared specs).Pairwise fun left right => left.1 < right.1 := by
  refine hascending.filterMap _ fun left right hlt first hfirst second hsecond => ?_
  obtain ⟨_, -, rfl⟩ := Option.map_eq_some_iff.1 hfirst
  obtain ⟨_, -, rfl⟩ := Option.map_eq_some_iff.1 hsecond
  exact hlt

theorem get?_ofList_valuesOf (name : String) :
    (KeyMap.ofList (valuesOf declared schema.entries)).get? name =
      (schema.get? name).bind fun spec => spec.value? (declared.get? name) := by
  refine Option.ext fun value => ?_
  have hascending := @ascending_valuesOf declared _ schema.ascending
  have hentries : (KeyMap.ofList (valuesOf declared schema.entries)).entries =
      valuesOf declared schema.entries :=
    @KeyMap.entries_insertAll _ ∅ _ hascending
  rw [KeyMap.get?_eq_some_iff, hentries, mem_valuesOf, Option.bind_eq_some_iff]
  simp only [KeyMap.get?_eq_some_iff]

theorem resolve_eq_ok :
    schema.resolve tag declared = .ok bound ↔
      schema.Admits declared ∧ bound.tag = tag ∧
      (∀ name, bound.values.get? name =
        (schema.get? name).bind fun spec => spec.value? (declared.get? name)) ∧
      ∀ name, bound.extra.get? name = if schema.contains name then none else declared.get? name := by
  have hadmits : (∀ entry ∈ schema.entries, entry.2.Admits (declared.get? entry.1)) ↔
      schema.Admits declared :=
    ⟨fun h name spec hget => h (name, spec) (KeyMap.get?_eq_some_iff.1 hget),
      fun h entry hmem => h entry.1 entry.2 (KeyMap.get?_eq_some_iff.2 hmem)⟩
  have hextra : ∀ name, (declared.filter fun name _ => !schema.contains name).get? name =
      if schema.contains name then none else declared.get? name := by
    intro name
    rw [KeyMap.get?_filter]
    cases schema.contains name <;> cases declared.get? name <;> rfl
  rw [resolve, ← hadmits]
  constructor
  · intro hresolve
    cases hbind : bindAll tag declared schema.entries with
    | error fault =>
        rw [hbind] at hresolve
        cases hresolve
    | ok values =>
        rw [hbind] at hresolve
        cases hresolve
        obtain ⟨hspecs, rfl⟩ := bindAll_eq_ok.1 hbind
        exact ⟨hspecs, rfl, get?_ofList_valuesOf, hextra⟩
  · rintro ⟨hspecs, htag, hvalues, hextras⟩
    have hbound : bound = ⟨tag, .ofList (valuesOf declared schema.entries),
        declared.filter fun name _ => !schema.contains name⟩ := by
      obtain ⟨boundTag, values, extra⟩ := bound
      congr 1
      · exact KeyMap.ext_get? fun name => (hvalues name).trans (get?_ofList_valuesOf name).symm
      · exact KeyMap.ext_get? fun name => (hextras name).trans (hextra name).symm
    rw [bindAll_eq_ok.2 ⟨hspecs, rfl⟩, hbound]
    rfl

theorem type_of_resolve (htyped : schema.Typed) (hresolve : schema.resolve tag declared = .ok bound)
    {name : String} {value : Value} (hvalue : bound.values.get? name = some value) :
    ∃ spec, schema.get? name = some spec ∧ value.type = spec.type := by
  obtain ⟨hadmits, -, hvalues, -⟩ := resolve_eq_ok.1 hresolve
  rw [hvalues, Option.bind_eq_some_iff] at hvalue
  obtain ⟨spec, hspec, hvalue⟩ := hvalue
  refine ⟨spec, hspec, ?_⟩
  rcases Option.or_eq_some_iff.1 hvalue with hdeclared | ⟨-, hdefault⟩
  · exact (hadmits name spec hspec).typed value hdeclared
  · exact htyped name spec hspec value hdefault

theorem contains_of_resolve (hresolve : schema.resolve tag declared = .ok bound) {name : String}
    {spec : AttributeSpec} (hspec : schema.get? name = some spec)
    (hpresent : spec.required = true ∨ spec.default.isSome) : bound.values.contains name = true := by
  obtain ⟨hadmits, -, hvalues, -⟩ := resolve_eq_ok.1 hresolve
  rw [KeyMap.contains, hvalues, hspec]
  rcases hpresent with hrequired | hdefault
  · exact (hadmits name spec hspec).present hrequired
  · change (Option.or _ _).isSome = true
    rw [Option.isSome_or, hdefault, Bool.or_true]

theorem exists_text_of_resolve (htyped : schema.Typed)
    (hresolve : schema.resolve tag declared = .ok bound) {name : String} {spec : AttributeSpec}
    (hspec : schema.get? name = some spec) (hstring : spec.type = .string)
    (hpresent : spec.required = true ∨ spec.default.isSome) :
    ∃ text, bound.values.get? name = some (.string text) := by
  obtain ⟨value, hvalue⟩ :=
    Option.isSome_iff_exists.1 (contains_of_resolve hresolve hspec hpresent)
  obtain ⟨other, hother, htype⟩ := type_of_resolve htyped hresolve hvalue
  cases hspec.symm.trans hother
  rw [hstring] at htype
  cases value with
  | string text => exact ⟨text, hvalue⟩
  | number number => cases htype
  | boolean truth => cases htype

theorem resolve_again (htyped : schema.Typed) (hresolve : schema.resolve tag declared = .ok bound) :
    schema.resolve tag (bound.values.insertAll bound.extra.entries) = .ok bound := by
  obtain ⟨hadmits, htag, hvalues, hextra⟩ := resolve_eq_ok.1 hresolve
  have hknown : ∀ name spec, schema.get? name = some spec →
      (bound.values.insertAll bound.extra.entries).get? name =
        spec.value? (declared.get? name) := by
    intro name spec hspec
    rw [KeyMap.get?_insertAll_entries, hextra, hvalues, KeyMap.contains, hspec]
    rfl
  refine resolve_eq_ok.2 ⟨fun name spec hspec => ?_, htag, fun name => ?_, fun name => ?_⟩
  · rw [hknown name spec hspec]
    refine ⟨fun value hvalue => ?_, fun hrequired => ?_⟩
    · have hbound : bound.values.get? name = some value := by
        rw [hvalues, hspec]
        exact hvalue
      obtain ⟨other, hother, htype⟩ := type_of_resolve htyped hresolve hbound
      cases hspec.symm.trans hother
      exact htype
    · rw [AttributeSpec.value?, Option.isSome_or, (hadmits name spec hspec).present hrequired]
      rfl
  · rw [hvalues]
    cases hspec : schema.get? name with
    | none => rfl
    | some spec =>
        rw [Option.bind_some, Option.bind_some, hknown name spec hspec, AttributeSpec.value?,
          AttributeSpec.value?, Option.or_assoc, Option.or_self]
  · rw [hextra, KeyMap.get?_insertAll_entries, hextra, hvalues, KeyMap.contains]
    cases hspec : schema.get? name with
    | none => simp
    | some spec => rfl

end Schema

end Tagmark
