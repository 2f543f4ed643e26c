import Tagmark.Page
import Tagmark.Proofs.Document.Places
import Tagmark.Proofs.Html.Markup
import Tagmark.Proofs.Markdown.Elements
import Tagmark.Proofs.Tag.Names
import Tagmark.Proofs.Transform.Checks

/-!
No text writes markup of its own. Whatever a text says and however its Markdown is read, the built-in
tags make HTML of the built-in elements, with identifiers as attribute names, and it is printed
as markup (`markup_of_htmlBy`).
-/

namespace Tagmark

open Html

/-- What a tag is turned into is made of such names, if its children are and the names of its
attributes are identifiers. -/
def Definition.Makes (isElement isAttribute : String → Bool) (definition : Definition) : Prop :=
  ∀ (tag : String) (declared : KeyMap Value) (bound : Bound) (children : List Html) (html : Html),
    definition.schema.resolve tag declared = .ok bound →
      (∀ entry ∈ declared.entries, Text.isName entry.1 = true) →
        AllMadeOf isElement isAttribute children →
          (definition.build bound children).result = .ok html → html.MadeOf isElement isAttribute

theorem KeyMap.forall_name_map {α β : Type} {f : α → β} {source : KeyMap α}
    {isAttribute : String → Bool}
    (hsource : ∀ entry ∈ source.entries, isAttribute entry.1 = true) :
    ∀ entry ∈ (source.map f).entries, isAttribute entry.1 = true := by
  intro entry hmem
  obtain ⟨old, hold, rfl⟩ := List.mem_map.1 hmem
  exact hsource old hold

theorem Bound.isName_printedExtra {bound : Bound} {own : List (String × String)}
    (hown : ∀ entry ∈ own, Text.isName entry.1 = true)
    (hextra : ∀ entry ∈ bound.extra.entries, Text.isName entry.1 = true) :
    ∀ entry ∈ ((KeyMap.ofList own).insertAll bound.printedExtra.entries).entries,
      Text.isName entry.1 = true := by
  intro entry hmem
  rcases KeyMap.mem_insertAll hmem with hlist | hprinted
  · exact hown entry (KeyMap.mem_ofList hlist)
  · exact KeyMap.forall_name_map hextra entry hprinted

theorem Column.madeOf_table (columns : List Column) : (table columns).MadeOfBuiltin := by
  have hclass : ∀ entry ∈ [("class", "datasource-table")], Text.isName entry.1 = true := by decide
  have hcells : ∀ texts : List String, AllMadeOfBuiltin (texts.map (labelled "td")) := by
    intro texts
    apply allMadeOf_of_forall
    intro node hmem
    obtain ⟨text, -, rfl⟩ := List.mem_map.1 hmem
    exact madeOf_labelled (by decide) text
  have hrows : AllMadeOfBuiltin (columns.map row) := by
    apply allMadeOf_of_forall
    intro node hmem
    obtain ⟨column, -, rfl⟩ := List.mem_map.1 hmem
    exact madeOf_make (by decide) (by simp)
      (hcells [column.name, column.type, column.path, column.description])
  refine madeOf_make (by decide) hclass ⟨?_, ?_, trivial⟩
  · decide
  · exact madeOf_make (by decide) (by simp) hrows

namespace Definition

variable {bound : Bound} {children : List Html} {html : Html}

theorem madeOf_query (hextra : ∀ entry ∈ bound.extra.entries, Text.isName entry.1 = true)
    (hbuild : (query.build bound children).result = .ok html) : html.MadeOfBuiltin := by
  obtain ⟨name, -, hpure⟩ := Noted.result_bind_eq_ok.1 hbuild
  cases hpure
  refine ⟨by decide, Bound.isName_printedExtra ?_ hextra, ?_, trivial⟩
  · have hname : Text.isName "name" = true := by decide
    simpa using hname
  apply madeOf_make (by decide) (by decide)
  split
  · trivial
  · exact ⟨trivial, trivial⟩

theorem madeOf_datasource (hextra : ∀ entry ∈ bound.extra.entries, Text.isName entry.1 = true)
    (hbuild : (datasource.build bound children).result = .ok html) : html.MadeOfBuiltin := by
  obtain ⟨delimiter, -, hbuild⟩ := Noted.result_bind_eq_ok.1 hbuild
  obtain ⟨name, -, hbuild⟩ := Noted.result_bind_eq_ok.1 hbuild
  obtain ⟨_, -, hpure⟩ := Noted.result_bind_eq_ok.1 hbuild
  cases hpure
  refine ⟨by decide, Bound.isName_printedExtra ?_ hextra, Column.madeOf_table _, trivial⟩
  have hnames : ∀ name ∈ ["class", "name", "delimiter"], Text.isName name = true := by decide
  simpa using hnames

end Definition

theorem forall_mem_contentToHtml {P : Html → Prop} (hP : HoldsOfContent P) (read : Markdown.Reader)
    (body : BodyMode) (value : String) : ∀ node ∈ contentToHtml read body value, P node := by
  cases body with
  | raw => exact List.forall_mem_singleton.2 (hP.text value)
  | markdown => exact Markdown.Tree.forall_mem_allToHtml hP false (read value)

theorem allMadeOf_contentToHtml (read : Markdown.Reader) (body : BodyMode) (value : String) :
    AllMadeOfBuiltin (contentToHtml read body value) :=
  allMadeOf_of_forall (forall_mem_contentToHtml holdsOfContent_madeOfBuiltin read body value)

theorem Schema.extra_of_resolve {schema : Schema} {tag : String} {declared : KeyMap Value}
    {bound : Bound} (hresolve : schema.resolve tag declared = .ok bound) :
    ∀ entry ∈ bound.extra.entries, entry ∈ declared.entries := by
  unfold resolve at hresolve
  cases hvalues : bindAll tag declared schema.entries with
  | error fault =>
      rw [hvalues] at hresolve
      cases hresolve
  | ok values =>
      rw [hvalues] at hresolve
      cases hresolve
      exact fun entry hmem => (List.mem_filter.1 hmem).1

namespace Registry

/-- All of these tags are turned into what is made of such names, and so is all that is made without
a definition. -/
structure Makes (registry : Registry) (isElement isAttribute : String → Bool) (tags : List Tag) :
    Prop where
  isElement_of_builtin : ∀ name, isBuiltinElement name = true → isElement name = true
  isAttribute_of_isName : ∀ name, Text.isName name = true → isAttribute name = true
  makes : ∀ tag ∈ tags, ∀ definition, registry.get? tag.name = some definition →
    definition.Makes isElement isAttribute

variable {registry : Registry} {isElement isAttribute : String → Bool} {tags : List Tag}

theorem Makes.of_subset (hmakes : registry.Makes isElement isAttribute tags) {fewer : List Tag}
    (hsubset : fewer ⊆ tags) : registry.Makes isElement isAttribute fewer :=
  { hmakes with makes := fun tag hmem => hmakes.makes tag (hsubset hmem) }

theorem makes_builtin (helement : ∀ name, isBuiltinElement name = true → isElement name = true)
    (hattribute : ∀ name, Text.isName name = true → isAttribute name = true) {name : String}
    {definition : Definition} (hget : builtin.get? name = some definition) :
    definition.Makes isElement isAttribute := by
  intro tag declared bound children html hbound hnamed _ hbuild
  have hextra : ∀ entry ∈ bound.extra.entries, Text.isName entry.1 = true :=
    fun entry hmem => hnamed entry (Schema.extra_of_resolve hbound entry hmem)
  have hmem := KeyMap.mem_ofList (KeyMap.get?_eq_some_iff.1 hget)
  simp only [builtinTags, List.mem_cons, List.not_mem_nil, or_false, Prod.mk.injEq] at hmem
  rcases hmem with ⟨-, rfl⟩ | ⟨-, rfl⟩
  · exact (Definition.madeOf_query hextra hbuild).mono helement hattribute
  · exact (Definition.madeOf_datasource hextra hbuild).mono helement hattribute

theorem makesBuiltin_builtin : builtin.Makes isBuiltinElement Text.isName tags where
  isElement_of_builtin := fun _ => id
  isAttribute_of_isName := fun _ => id
  makes := fun _ _ _ => makes_builtin (fun _ => id) fun _ => id

end Registry

section Nodes

variable {read : Markdown.Reader} {registry : Registry} {isElement isAttribute : String → Bool}

mutual

theorem Node.madeOf_toHtml {node : Node}
    (hregistry : registry.Makes isElement isAttribute node.tags) {body : BodyMode} {point : Point}
    {source : List Char} (hstands : node.StandsAt point source) {html : List Html}
    (hhtml : (node.toHtml read registry body).result = .ok html) :
    AllMadeOf isElement isAttribute html := by
  cases node with
  | content value span =>
      cases hhtml
      exact (allMadeOf_contentToHtml read body value).mono hregistry.isElement_of_builtin
        hregistry.isAttribute_of_isName
  | block tag children =>
      cases hget : registry.get? tag.name with
      | none =>
          rw [Node.toHtml, hget] at hhtml
          cases hhtml
      | some definition =>
          obtain ⟨bound, inner, made, hbound, hinner, hmade, rfl⟩ :=
            Node.exists_of_toHtml_block hget hhtml
          obtain ⟨hnamed, hchildren⟩ : (∀ entry ∈ tag.attributes.entries,
              Text.isName entry.1 = true) ∧ AllMadeOf isElement isAttribute inner := by
            obtain ⟨-, hstands⟩ := hstands
            split at hstands
            · obtain ⟨rfl, hwritten⟩ := hstands
              cases hinner
              exact ⟨hwritten.isNamed.2, trivial⟩
            · obtain ⟨opening, within, closing, -, hwritten, hlaid, -⟩ := hstands
              have hinside := hregistry.of_subset (List.subset_cons_self tag (tagsOf children))
              exact ⟨hwritten.isNamed.2, Node.madeOf_allToHtml hinside hlaid hinner⟩
          have hmakes := hregistry.makes tag List.mem_cons_self definition hget
          exact ⟨hmakes _ _ _ _ _ hbound hnamed hchildren hmade, trivial⟩

theorem Node.madeOf_allToHtml {nodes : List Node}
    (hregistry : registry.Makes isElement isAttribute (Node.tagsOf nodes)) {body : BodyMode}
    {point : Point} {text : List Char} (hlaid : Node.LaidOver nodes point text) {html : List Html}
    (hhtml : (Node.allToHtml read registry body nodes).result = .ok html) :
    AllMadeOf isElement isAttribute html := by
  cases nodes with
  | nil =>
      cases hhtml
      trivial
  | cons node rest =>
      rw [Node.allToHtml] at hhtml
      obtain ⟨first, hfirst, hhtml⟩ := Noted.result_bind_eq_ok.1 hhtml
      obtain ⟨others, hothers, hpure⟩ := Noted.result_bind_eq_ok.1 hhtml
      cases hpure
      obtain ⟨gap, source, after, -, -, hnode, hrest⟩ := hlaid
      have hhere := hregistry.of_subset (List.subset_append_left node.tags (tagsOf rest))
      have hlater := hregistry.of_subset (List.subset_append_right node.tags (tagsOf rest))
      exact allMadeOf_append (Node.madeOf_toHtml hhere hnode hfirst)
        (Node.madeOf_allToHtml hlater hrest hothers)

end

end Nodes

namespace Page

theorem madeOf_htmlBy {read : Markdown.Reader} {registry : Registry} {text : String} {html : Html}
    {isElement isAttribute : String → Bool}
    (hregistry : ∀ document, Document.parse text = .ok document →
      registry.Makes isElement isAttribute document.tags)
    (hhtml : (htmlBy read registry text).result = .ok html) :
    html.MadeOf isElement isAttribute := by
  obtain ⟨document, hparse, hhtml⟩ := Noted.result_bind_eq_ok.1 hhtml
  obtain ⟨children, hchildren, hpure⟩ := Noted.result_bind_eq_ok.1 hhtml
  cases hpure
  obtain ⟨block, lines, -, -, hlaid⟩ := Document.laidOver_of_parse hparse
  have hmakes := hregistry document hparse
  exact madeOf_make (hmakes.isElement_of_builtin "article" (by decide)) (by simp)
    (Node.madeOf_allToHtml hmakes hlaid hchildren)

/-- The HTML of a text under the built-in tags holds the built-in elements and nothing else that is
markup, whatever the Markdown in it is read as. -/
theorem markup_of_htmlBy {read : Markdown.Reader} {text : String} {html : Html}
    (hhtml : (htmlBy read .builtin text).result = .ok html) :
    html.MadeOf isBuiltinElement Text.isName ∧ Markup isBuiltinElement html.print.toList := by
  have hmade := madeOf_htmlBy (fun _ _ => Registry.makesBuiltin_builtin) hhtml
  exact ⟨hmade, hmade.markup⟩

theorem markup_of_htmlBy_query :
    let text := "<i>\n\x7b% query name=\"q\" note=\"\\\"><b>\" %\x7d\n1 < 2\n\x7b% /query %\x7d\n"
    let read : Markdown.Reader := fun value => [.html value]
    ∃ html, (htmlBy read .builtin text).result = .ok html ∧
      html.print = "<article>&lt;i&gt;<pre name=\"q\" note=\"&quot;&gt;&lt;b&gt;\">" ++
        "<code class=\"language-sql\">1 &lt; 2</code></pre></article>" ∧
      html.MadeOf isBuiltinElement Text.isName ∧ Markup isBuiltinElement html.print.toList := by
  intro text read
  have hprint : (htmlBy read .builtin text).result.toOption.map Html.print =
      some ("<article>&lt;i&gt;<pre name=\"q\" note=\"&quot;&gt;&lt;b&gt;\">" ++
        "<code class=\"language-sql\">1 &lt; 2</code></pre></article>") := by
    decide +kernel
  cases hresult : (htmlBy read .builtin text).result with
  | error fault =>
      rw [hresult] at hprint
      cases hprint
  | ok html =>
      rw [hresult] at hprint
      exact ⟨html, rfl, Option.some.inj hprint, markup_of_htmlBy hresult⟩

end Page

end Tagmark
