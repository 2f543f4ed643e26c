import Tagmark.Proofs.Html.Normal

/-!
The names in HTML. `MadeOf` asks something of the name of every element in a tree and of the name of
every attribute; making elements and normal forms keeps it.
-/

namespace Tagmark

namespace KeyMap

universe u v

variable {α : Type u} {β : Type v}

theorem mem_insertAll {source : KeyMap α} {added : List (String × α)} {entry : String × α}
    (hmem : entry ∈ (source.insertAll added).entries) :
    entry ∈ source.entries ∨ entry ∈ added := by
  induction added generalizing source with
  | nil => exact .inl hmem
  | cons first rest induction =>
      rcases induction hmem with hinsert | hrest
      · rcases Entries.name_of_mem_insert hinsert with rfl | hold
        · exact .inr List.mem_cons_self
        · exact .inl hold
      · exact .inr (List.mem_cons_of_mem _ hrest)

theorem mem_ofList {entries : List (String × α)} {entry : String × α}
    (hmem : entry ∈ (ofList entries).entries) : entry ∈ entries := by
  rcases mem_insertAll hmem with hempty | hentries
  · cases hempty
  · exact hentries

end KeyMap

namespace Html

variable {isElement isAttribute : String → Bool}

mutual

/-- The names of all elements and of all their attributes are such names. -/
def MadeOf (isElement isAttribute : String → Bool) : Html → Prop
  | .text _ => True
  | .element name attributes children =>
      isElement name = true ∧ (∀ entry ∈ attributes.entries, isAttribute entry.1 = true) ∧
        AllMadeOf isElement isAttribute children

def AllMadeOf (isElement isAttribute : String → Bool) : List Html → Prop
  | [] => True
  | node :: rest => node.MadeOf isElement isAttribute ∧ AllMadeOf isElement isAttribute rest

end

mutual

def decideMadeOf : (node : Html) → Decidable (node.MadeOf isElement isAttribute)
  | .text _ => .isTrue trivial
  | .element name attributes children =>
      have := decideAllMadeOf children
      inferInstanceAs (Decidable (isElement name = true ∧
        (∀ entry ∈ attributes.entries, isAttribute entry.1 = true) ∧
          AllMadeOf isElement isAttribute children))

def decideAllMadeOf : (nodes : List Html) → Decidable (AllMadeOf isElement isAttribute nodes)
  | [] => .isTrue trivial
  | node :: rest =>
      have := decideMadeOf node
      have := decideAllMadeOf rest
      inferInstanceAs (Decidable (node.MadeOf isElement isAttribute ∧
        AllMadeOf isElement isAttribute rest))

end

mutual

theorem MadeOf.mono {isElement' isAttribute' : String → Bool}
    (helement : ∀ name, isElement name = true → isElement' name = true)
    (hattribute : ∀ name, isAttribute name = true → isAttribute' name = true) {node : Html}
    (hnode : node.MadeOf isElement isAttribute) : node.MadeOf isElement' isAttribute' := by
  cases node with
  | text value => trivial
  | element name attributes children =>
      obtain ⟨hname, hattributes, hchildren⟩ := hnode
      exact ⟨helement name hname, fun entry hmem => hattribute entry.1 (hattributes entry hmem),
        AllMadeOf.mono helement hattribute hchildren⟩

theorem AllMadeOf.mono {isElement' isAttribute' : String → Bool}
    (helement : ∀ name, isElement name = true → isElement' name = true)
    (hattribute : ∀ name, isAttribute name = true → isAttribute' name = true) {nodes : List Html}
    (hnodes : AllMadeOf isElement isAttribute nodes) : AllMadeOf isElement' isAttribute' nodes := by
  cases nodes with
  | nil => trivial
  | cons node rest =>
      exact ⟨MadeOf.mono helement hattribute hnodes.1, AllMadeOf.mono helement hattribute hnodes.2⟩

end

instance (node : Html) : Decidable (node.MadeOf isElement isAttribute) := decideMadeOf node

theorem allMadeOf_append {left right : List Html}
    (hleft : AllMadeOf isElement isAttribute left)
    (hright : AllMadeOf isElement isAttribute right) :
    AllMadeOf isElement isAttribute (left ++ right) := by
  induction left with
  | nil => exact hright
  | cons node rest induction => exact ⟨hleft.1, induction hleft.2⟩

theorem allMadeOf_of_forall {nodes : List Html}
    (hnodes : ∀ node ∈ nodes, node.MadeOf isElement isAttribute) :
    AllMadeOf isElement isAttribute nodes := by
  induction nodes with
  | nil => trivial
  | cons node rest induction =>
      obtain ⟨hnode, hrest⟩ := List.forall_mem_cons.1 hnodes
      exact ⟨hnode, induction hrest⟩

theorem madeOf_make {name : String} {attributes : List (String × String)} {children : List Html}
    (hname : isElement name = true)
    (hattributes : ∀ entry ∈ attributes, isAttribute entry.1 = true)
    (hchildren : AllMadeOf isElement isAttribute children) :
    (make name attributes children).MadeOf isElement isAttribute := by
  refine ⟨hname, fun entry hmem => ?_, hchildren⟩
  exact hattributes entry (KeyMap.mem_ofList hmem)

theorem madeOf_labelled {name : String} (hname : isElement name = true) (text : String) :
    (labelled name text).MadeOf isElement isAttribute :=
  madeOf_make hname (by simp) ⟨trivial, trivial⟩

theorem allMadeOf_joinText {node : Html} (hnode : node.MadeOf isElement isAttribute)
    {nodes : List Html} (hnodes : AllMadeOf isElement isAttribute nodes) :
    AllMadeOf isElement isAttribute (joinText node nodes) := by
  cases node with
  | element name attributes children => exact ⟨hnode, hnodes⟩
  | text value =>
      unfold joinText
      split
      · exact ⟨trivial, hnodes.2⟩
      · split
        · exact hnodes
        · exact ⟨trivial, hnodes⟩
      · exact ⟨trivial, hnodes⟩

mutual

theorem madeOf_normal {node : Html} (hnode : node.MadeOf isElement isAttribute) :
    node.normal.MadeOf isElement isAttribute := by
  cases node with
  | text value => trivial
  | element name attributes children =>
      obtain ⟨hname, hattributes, hchildren⟩ := hnode
      refine ⟨hname, hattributes, ?_⟩
      split
      · trivial
      · exact allMadeOf_normalAll hchildren

theorem allMadeOf_normalAll {nodes : List Html}
    (hnodes : AllMadeOf isElement isAttribute nodes) :
    AllMadeOf isElement isAttribute (normalAll nodes) := by
  cases nodes with
  | nil => trivial
  | cons node rest =>
      exact allMadeOf_joinText (madeOf_normal hnodes.1) (allMadeOf_normalAll hnodes.2)

end

end Html

end Tagmark
