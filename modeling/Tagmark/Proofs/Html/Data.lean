import Tagmark.Html.Data
import Tagmark.Proofs.Data.Json

/-!
Trees of HTML as data and back. Reading takes the fields of an element in any order, with empty
attributes and children there or not, and gives the tree (`ofData?_of_writtenAs`); what is written
for a tree, also as JSON text, is written for no other one (`toData_faithful`).
-/

namespace Tagmark

namespace KeyMap

variable {α : Type}

theorem Entries.lookup_eq_some_iff_of_nodup {entries : Entries α}
    (hnodup : (entries.map (·.1)).Nodup) {name : String} {value : α} :
    entries.lookup name = some value ↔ (name, value) ∈ entries := by
  induction entries with
  | nil => simp
  | cons head tail induction =>
      obtain ⟨headName, headValue⟩ := head
      obtain ⟨hhead, htail⟩ := List.nodup_cons.1 hnodup
      by_cases h : name = headName
      · subst h
        have habsent : ∀ other, (name, other) ∉ tail := fun other hmem =>
          hhead (List.mem_map.2 ⟨_, hmem, rfl⟩)
        simp [habsent, eq_comm]
      · simp [List.lookup_cons, beq_false_of_ne h, h, induction htail]

theorem Entries.lookup_eq_of_perm {left right : Entries α} (hperm : left.Perm right)
    (hnodup : (right.map (·.1)).Nodup) (name : String) : left.lookup name = right.lookup name := by
  refine Option.ext fun value => ?_
  rw [lookup_eq_some_iff_of_nodup hnodup,
    lookup_eq_some_iff_of_nodup ((hperm.map _).nodup_iff.2 hnodup), hperm.mem_iff]

theorem nodup_names (source : KeyMap α) : source.names.Nodup :=
  source.ascending_names.imp fun {left right} hlt heq => by
    subst heq
    exact String.lt_irrefl left hlt

theorem ofList_of_perm {entries : List (String × α)} {source : KeyMap α}
    (hperm : entries.Perm source.entries) : ofList entries = source := by
  refine ext_get? fun name => ?_
  rw [get?_ofList]
  exact Entries.lookup_eq_of_perm ((List.reverse_perm entries).trans hperm) source.nodup_names name

end KeyMap

namespace Html

/-- The attributes of an element among its fields. They come in any order, and may be left out if
there are none. -/
inductive AttributesWrittenAs (attributes : KeyMap String) : List (String × Data) → Prop
  | leftOut (hempty : attributes = ∅) : AttributesWrittenAs attributes []
  | written {texts : List (String × String)} (htexts : texts.Perm attributes.entries) :
      AttributesWrittenAs attributes
        [("attributes", .mapping (texts.map fun entry => (entry.1, .text entry.2)))]

mutual

/-- The data that stand for a tree. The fields of an element come in any order. -/
inductive WrittenAs : Html → Data → Prop
  | text (value : String) : WrittenAs (.text value) (.mapping [("text", .text value)])
  | element {name : String} {attributes : KeyMap String} {children : List Html}
      {fields own inner : List (String × Data)}
      (hattributes : AttributesWrittenAs attributes own) (hchildren : ChildrenWrittenAs children inner)
      (hfields : fields.Perm (("name", .text name) :: (own ++ inner))) :
      WrittenAs (.element name attributes children) (.mapping [("element", .mapping fields)])

/-- The children of an element among its fields. They may be left out if there are none. -/
inductive ChildrenWrittenAs : List Html → List (String × Data) → Prop
  | leftOut : ChildrenWrittenAs [] []
  | written {children : List Html} {items : List Data} (hitems : AllWrittenAs children items) :
      ChildrenWrittenAs children [("children", .list items)]

inductive AllWrittenAs : List Html → List Data → Prop
  | nil : AllWrittenAs [] []
  | cons {node : Html} {rest : List Html} {item : Data} {items : List Data}
      (hnode : WrittenAs node item) (hrest : AllWrittenAs rest items) :
      AllWrittenAs (node :: rest) (item :: items)

end

theorem nodup_fields {name : String} {attributes : KeyMap String} {children : List Html}
    {own inner : List (String × Data)} (hattributes : AttributesWrittenAs attributes own)
    (hchildren : ChildrenWrittenAs children inner) :
    ((("name", Data.text name) :: (own ++ inner)).map (·.1)).Nodup := by
  cases hattributes <;> cases hchildren <;> simp

theorem mapM_text? (texts : List (String × String)) :
    (texts.map fun entry => (entry.1, Data.text entry.2)).mapM
      (fun (entry : String × Data) => entry.2.text?.map fun text => (entry.1, text)) =
        some texts := by
  induction texts with
  | nil => rfl
  | cons entry rest induction =>
      rw [List.map_cons, List.mapM_cons, induction]
      rfl

theorem attributesOf?_of_writtenAs {attributes : KeyMap String} {fields : List (String × Data)}
    {own : List (String × Data)} (hattributes : AttributesWrittenAs attributes own)
    (hlookup : fields.lookup "attributes" = own.lookup "attributes") :
    attributesOf? fields = some attributes := by
  unfold attributesOf?
  rw [hlookup]
  cases hattributes with
  | leftOut hempty =>
      rw [hempty]
      rfl
  | @written texts htexts =>
      rw [List.lookup_cons_self]
      dsimp only
      rw [mapM_text?, Option.map_some, KeyMap.ofList_of_perm htexts]

theorem ofData?_element {fields : List (String × Data)} {name : String}
    {attributes : KeyMap String} {children : List Html}
    (hname : fields.lookup "name" = some (.text name))
    (hattributes : attributesOf? fields = some attributes)
    (hchildren : fields.lookup "children" = none ∧ children = [] ∨
      ∃ items, fields.lookup "children" = some (.list items) ∧ allOfData? items = some children) :
    ofData? (.mapping [("element", .mapping fields)]) = some (.element name attributes children) := by
  rw [ofData?, hname, hattributes]
  dsimp only [Option.bind_some, Data.text?, bind]
  split
  · next hnone =>
      rcases hchildren with ⟨-, rfl⟩ | ⟨items, hsome, -⟩
      · rfl
      · cases hnone.symm.trans hsome
  · next items hsome =>
      rcases hchildren with ⟨hnone, -⟩ | ⟨items', hsome', hread⟩
      · cases hnone.symm.trans hsome
      · cases hsome.symm.trans hsome'
        rw [hread]
        rfl
  · next other hother hsome =>
      rcases hchildren with ⟨hnone, -⟩ | ⟨items, hsome', -⟩
      · cases hnone.symm.trans hsome
      · cases hsome.symm.trans hsome'
        exact absurd rfl (hother items)

mutual

theorem ofData?_of_writtenAs : (tree : Html) → {data : Data} → WrittenAs tree data →
    ofData? data = some tree
  | .text value, _, .text _ => by rw [ofData?]
  | .element name attributes children, _, @WrittenAs.element _ _ _ fields own inner hattributes
      hchildren hfields => by
      have hlookup := KeyMap.Entries.lookup_eq_of_perm hfields (nodup_fields hattributes hchildren)
      have hname : fields.lookup "name" = some (.text name) := by
        rw [hlookup, List.lookup_cons_self]
      have hown : fields.lookup "attributes" = own.lookup "attributes" := by
        rw [hlookup]
        cases hattributes <;> cases hchildren <;> rfl
      have hinner : fields.lookup "children" = inner.lookup "children" := by
        rw [hlookup]
        cases hattributes <;> cases hchildren <;> rfl
      refine ofData?_element hname (attributesOf?_of_writtenAs hattributes hown) ?_
      rw [hinner]
      match children, inner, hchildren with
      | _, _, .leftOut => exact .inl ⟨rfl, rfl⟩
      | children, _, .written hitems =>
          exact .inr ⟨_, rfl, allOfData?_of_writtenAs children hitems⟩

theorem allOfData?_of_writtenAs : (trees : List Html) → {items : List Data} →
    AllWrittenAs trees items → allOfData? items = some trees
  | [], _, .nil => by rw [allOfData?]
  | node :: rest, _, .cons hnode hrest => by
      rw [allOfData?, ofData?_of_writtenAs node hnode, allOfData?_of_writtenAs rest hrest]
      rfl

end

theorem attributesWrittenAs_attributesField (attributes : KeyMap String) :
    AttributesWrittenAs attributes (attributesField attributes) := by
  unfold attributesField
  split
  · next hempty => exact .leftOut (KeyMap.ext_entries (List.isEmpty_iff.1 hempty))
  · exact .written (.refl _)

theorem childrenWrittenAs_childrenField {children : List Html} {items : List Data}
    (hitems : AllWrittenAs children items) : ChildrenWrittenAs children (childrenField items) := by
  cases hitems with
  | nil => exact .leftOut
  | cons hnode hrest => exact .written (.cons hnode hrest)

mutual

theorem writtenAs_toData : (tree : Html) → WrittenAs tree tree.toData
  | .text value => .text value
  | .element _ attributes children =>
      .element (attributesWrittenAs_attributesField attributes)
        (childrenWrittenAs_childrenField (allWrittenAs_allToData children)) (.refl _)

theorem allWrittenAs_allToData : (trees : List Html) → AllWrittenAs trees (allToData trees)
  | [] => .nil
  | node :: rest => .cons (writtenAs_toData node) (allWrittenAs_allToData rest)

end

theorem entriesTextual_attributesField (attributes : KeyMap String) :
    Data.EntriesTextual (attributesField attributes) := by
  unfold attributesField
  split
  · trivial
  · exact ⟨Data.entriesTextual_texts attributes.entries, trivial⟩

theorem entriesTextual_childrenField {items : List Data} (hitems : Data.AllTextual items) :
    Data.EntriesTextual (childrenField items) := by
  unfold childrenField
  split
  · trivial
  · exact ⟨hitems, trivial⟩

mutual

theorem isTextual_toData : (tree : Html) → tree.toData.IsTextual
  | .text _ => ⟨trivial, trivial⟩
  | .element _ attributes children =>
      ⟨⟨trivial, (entriesTextual_attributesField attributes).append
        (entriesTextual_childrenField (allTextual_allToData children))⟩, trivial⟩

theorem allTextual_allToData : (trees : List Html) → Data.AllTextual (allToData trees)
  | [] => trivial
  | node :: rest => ⟨isTextual_toData node, allTextual_allToData rest⟩

end

theorem ofData?_toData (tree : Html) : ofData? tree.toData = some tree :=
  ofData?_of_writtenAs tree (writtenAs_toData tree)

/-- The data of a tree are read back as the tree, the JSON text of no other tree is the same at any
level, and all other ways to write the tree are read as the tree too. -/
theorem toData_faithful (tree : Html) :
    ofData? tree.toData = some tree ∧
      (∀ other : Html, ∀ level, other.toData.jsonAt level = tree.toData.jsonAt level →
        other = tree) ∧
      ∀ data, tree.WrittenAs data → ofData? data = some tree := by
  refine ⟨ofData?_toData tree, ?_, fun data => ofData?_of_writtenAs tree⟩
  intro other level heq
  have hjson : other.toData.jsonAt level ++ [] = tree.toData.jsonAt level ++ [] :=
    congrArg (· ++ []) heq
  obtain ⟨hdata, -⟩ := Data.jsonAt_append_inj other.toData (isTextual_toData other)
    (isTextual_toData tree) hjson
  have hread := ofData?_toData other
  rw [hdata, ofData?_toData tree] at hread
  exact (Option.some.inj hread).symm

theorem toData_faithful_written_out :
    WrittenAs (.element "p" (.ofList [("class", "a")]) [.text "x", .element "br" ∅ []])
        (.mapping [("element", .mapping
          [("children", .list [.mapping [("text", .text "x")],
              .mapping [("element", .mapping
                [("name", .text "br"), ("attributes", .mapping []), ("children", .list [])])]]),
            ("attributes", .mapping [("class", .text "a")]), ("name", .text "p")])]) ∧
      ofData? (.mapping [("element", .mapping
          [("children", .list [.mapping [("text", .text "x")],
              .mapping [("element", .mapping
                [("name", .text "br"), ("attributes", .mapping []), ("children", .list [])])]]),
            ("attributes", .mapping [("class", .text "a")]), ("name", .text "p")])]) =
        some (.element "p" (.ofList [("class", "a")]) [.text "x", .element "br" ∅ []]) := by
  have hbreak : WrittenAs (.element "br" ∅ []) (.mapping [("element", .mapping
      [("name", .text "br"), ("attributes", .mapping []), ("children", .list [])])]) :=
    .element (.written (@List.Perm.refl _ [])) (.written .nil) (.refl _)
  have hwritten : WrittenAs
      (.element "p" (.ofList [("class", "a")]) [.text "x", .element "br" ∅ []]) _ :=
    .element (.written (@List.Perm.refl _ [("class", "a")]))
      (.written (.cons (.text "x") (.cons hbreak .nil))) (List.reverse_perm _)
  exact ⟨hwritten, (toData_faithful _).2.2 _ hwritten⟩

end Html

end Tagmark
