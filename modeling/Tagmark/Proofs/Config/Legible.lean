import Mathlib.Data.List.Infix
import Tagmark.Proofs.Config.Accepted
import Tagmark.Proofs.Html.Shown
import Tagmark.Proofs.Html.Unique
import Tagmark.Proofs.Page.Markup

/-!
What the HTML of a text says of it under a configuration. The names in a configuration are printed as
they are, so a name that looks like markup can make two texts alike. Where all names are legible, the
HTML says what it was printed from, up to what is never printed, and the content of declared tags is
in it unless a void element or a tag that rewrites its children is around it
(`Config.legible_htmlBy`).
-/

namespace Tagmark

open Html

theorem Html.isLegibleElement_of_builtin {name : String} (hname : isBuiltinElement name = true) :
    isLegibleElement name = true := by
  unfold isBuiltinElement at hname
  rcases Bool.or_eq_true_iff.1 hname with hlisted | hheading
  · exact List.all_eq_true.1 (by decide) name (List.contains_iff_mem.1 hlisted)
  · unfold isHeadingName at hheading
    split at hheading
    · next depth hlist =>
        have hdigits := List.all_eq_true.1 (Bool.and_eq_true_iff.1 hheading).2
        have hdepth : ∀ c ∈ depth, (c != ' ' && c != '>') = true := by
          intro c hmem
          have hspace : c ≠ ' ' := fun heq => by cases hdigits ' ' (heq ▸ hmem)
          have hbracket : c ≠ '>' := fun heq => by cases hdigits '>' (heq ▸ hmem)
          simp [hspace, hbracket]
        rw [isLegibleElement, hlist, List.all_cons, List.all_eq_true.2 hdepth]
        rfl
    · cases hheading

theorem Html.isLegibleAttribute_of_isName {name : String} (hname : Text.isName name = true) :
    isLegibleAttribute name = true := by
  have hequals : '=' ∉ name.toList := Text.not_mem_of_isName hname (by decide)
  exact List.all_eq_true.2 fun c hmem => bne_iff_ne.2 fun heq => hequals (heq ▸ hmem)

/-- The names that a declaration brings into HTML are legible. An attribute without a default is only
there if a tag has it. -/
structure TagConfig.IsLegible (tag : TagConfig) : Prop where
  element : isLegibleElement tag.element = true
  default : ∀ entry ∈ tag.schema.entries, entry.2.default.isSome = true →
    isLegibleAttribute entry.1 = true

instance (tag : TagConfig) : Decidable tag.IsLegible :=
  decidable_of_iff (isLegibleElement tag.element = true ∧ ∀ entry ∈ tag.schema.entries,
      entry.2.default.isSome = true → isLegibleAttribute entry.1 = true)
    ⟨fun ⟨helement, hdefault⟩ => ⟨helement, hdefault⟩, fun h => ⟨h.element, h.default⟩⟩

theorem TagConfig.IsLegible.makes {tag : TagConfig} (hlegible : tag.IsLegible) :
    tag.definition.Makes isLegibleElement isLegibleAttribute := by
  intro name declared bound children html hbound hnamed hchildren hbuild
  cases hbuild
  have hdeclared : ∀ entry ∈ declared.entries, isLegibleAttribute entry.1 = true :=
    fun entry hmem => isLegibleAttribute_of_isName (hnamed entry hmem)
  refine ⟨hlegible.element, fun entry hmem => ?_, hchildren⟩
  rcases KeyMap.mem_insertAll hmem with hprinted | hextra
  · obtain ⟨⟨key, value⟩, hentry, rfl⟩ := List.mem_map.1 hprinted
    rw [tag.schema_definition] at hbound
    obtain ⟨-, -, hvalues, -⟩ := Schema.resolve_eq_ok.1 hbound
    have hvalue := (hvalues key).symm.trans (KeyMap.get?_eq_some_iff.2 hentry)
    obtain ⟨spec, hspec, hvalue⟩ := Option.bind_eq_some_iff.1 hvalue
    rcases Option.or_eq_some_iff.1 hvalue with hown | ⟨-, hdefault⟩
    · exact hdeclared (key, value) (KeyMap.get?_eq_some_iff.1 hown)
    · exact hlegible.default (key, spec) (KeyMap.get?_eq_some_iff.1 hspec)
        (Option.isSome_iff_exists.2 ⟨value, hdefault⟩)
  · exact KeyMap.forall_name_map
      (fun extra hmem => hdeclared extra (Schema.extra_of_resolve hbound extra hmem)) entry hextra

namespace Config

variable {config : Config} {registry : Registry}

def IsLegibleIn (config : Config) (text : String) : Prop :=
  ∀ document, Document.parse text = .ok document → ∀ tag ∈ document.tags,
    ∀ declared, config.tags.get? tag.name = some declared → declared.IsLegible

theorem makes_registry (hget : ∀ name, registry.get? name =
      ((config.tags.get? name).map TagConfig.definition).or (Registry.builtin.get? name))
    {tags : List Tag} (hlegible : ∀ tag ∈ tags,
      ∀ declared, config.tags.get? tag.name = some declared → declared.IsLegible) :
    registry.Makes isLegibleElement isLegibleAttribute tags where
  isElement_of_builtin := fun _ => isLegibleElement_of_builtin
  isAttribute_of_isName := fun _ => isLegibleAttribute_of_isName
  makes := by
    intro tag hmem definition hdefinition
    rw [hget] at hdefinition
    rcases Option.or_eq_some_iff.1 hdefinition with hown | ⟨-, hbuiltin⟩
    · obtain ⟨declared, hdeclared, rfl⟩ := Option.map_eq_some_iff.1 hown
      exact (hlegible tag hmem declared hdeclared).makes
    · exact Registry.makes_builtin (fun _ => isLegibleElement_of_builtin)
        (fun _ => isLegibleAttribute_of_isName) hbuiltin

end Config

mutual

/-- Content with how it is read: what stands outside of tags, and what stands in declared tags whose
elements are not void. Other tags make what they need of the content in them. -/
def Node.shown (config : Config) (body : BodyMode) : Node → List (BodyMode × String)
  | .content value _ => [(body, value)]
  | .block tag children =>
      match config.tags.get? tag.name with
      | none => []
      | some declared =>
          if isVoid declared.element then [] else Node.shownOf config declared.body children

def Node.shownOf (config : Config) (body : BodyMode) : List Node → List (BodyMode × String)
  | [] => []
  | node :: rest => node.shown config body ++ Node.shownOf config body rest

end

section

variable {config : Config} {registry : Registry} {read : Markdown.Reader}

mutual

theorem Node.infix_of_shown (hget : ∀ name declared, config.tags.get? name = some declared →
      registry.get? name = some declared.definition) {node : Node} {body : BodyMode}
    {html : List Html} (hhtml : (node.toHtml read registry body).result = .ok html)
    {content : BodyMode × String} (hshown : content ∈ node.shown config body) :
    charsOf (contentToHtml read content.1 content.2) <:+: charsOf html := by
  cases node with
  | content value span =>
      cases hhtml
      cases List.mem_singleton.1 hshown
      exact List.infix_refl _
  | block tag children =>
      rw [Node.shown] at hshown
      cases hdeclared : config.tags.get? tag.name with
      | none =>
          rw [hdeclared] at hshown
          cases hshown
      | some declared =>
          rw [hdeclared] at hshown
          cases hvoid : isVoid declared.element with
          | true => simp [hvoid] at hshown
          | false =>
              simp only [hvoid, Bool.false_eq_true, if_false] at hshown
              obtain ⟨bound, inner, made, -, hinner, hmade, rfl⟩ :=
                Node.exists_of_toHtml_block (hget tag.name declared hdeclared) hhtml
              cases hmade
              have hinside := Node.infix_of_shownOf hget hinner hshown
              have helement := charsOf_infix_element hvoid bound.printed inner
              exact (hinside.trans helement).trans (chars_infix_charsOf List.mem_cons_self)

theorem Node.infix_of_shownOf (hget : ∀ name declared, config.tags.get? name = some declared →
      registry.get? name = some declared.definition) {nodes : List Node} {body : BodyMode}
    {html : List Html} (hhtml : (Node.allToHtml read registry body nodes).result = .ok html)
    {content : BodyMode × String} (hshown : content ∈ Node.shownOf config body nodes) :
    charsOf (contentToHtml read content.1 content.2) <:+: charsOf html := by
  cases nodes with
  | nil => cases hshown
  | cons node rest =>
      rw [Node.allToHtml] at hhtml
      obtain ⟨first, hfirst, hhtml⟩ := Noted.result_bind_eq_ok.1 hhtml
      obtain ⟨others, hothers, hpure⟩ := Noted.result_bind_eq_ok.1 hhtml
      cases hpure
      rw [charsOf_append]
      rcases List.mem_append.1 hshown with hhere | hlater
      · exact (Node.infix_of_shown hget hfirst hhere).trans List.infix_append_left
      · exact (Node.infix_of_shownOf hget hothers hlater).trans List.infix_append_right

end

end

namespace Config

/-- Under an accepted configuration, texts whose declared tags are legible have the same HTML only if
they have the same tree, children of void elements aside; and the texts in content that is shown
stand in the HTML. -/
theorem legible_htmlBy {decode : String → Except String Config} {source : String} {config : Config}
    (hread : readBy decode source = .ok config) (read : Markdown.Reader) :
    ∃ registry, config.registry.result = .ok registry ∧
      (∀ (text other : String) (html otherHtml : Html),
        (Page.htmlBy read registry text).result = .ok html →
        (Page.htmlBy read registry other).result = .ok otherHtml →
        config.IsLegibleIn text → config.IsLegibleIn other →
        html.print = otherHtml.print → html.normal = otherHtml.normal) ∧
      ∀ (text : String) (document : Document) (html : Html), Document.parse text = .ok document →
        (Page.htmlBy read registry text).result = .ok html →
        ∀ content ∈ Node.shownOf config .markdown document.children,
          ∀ part ∈ textsOf (contentToHtml read content.1 content.2),
            escape part.toList <:+: html.print.toList := by
  obtain ⟨registry, hresult, hget⟩ := exists_registry (check_of_readBy hread)
  refine ⟨registry, hresult, ?_, ?_⟩
  · intro text other html otherHtml hhtml hother htext hotherText hprint
    have hlegible : ∀ {text html}, (Page.htmlBy read registry text).result = .ok html →
        config.IsLegibleIn text → html.Legible := fun hhtml htext =>
      Page.madeOf_htmlBy (fun document hparse => makes_registry hget (htext document hparse)) hhtml
    exact normal_eq_of_print_eq (hlegible hhtml htext) (hlegible hother hotherText) hprint
  · intro text document html hparse hhtml content hshown part hpart
    obtain ⟨parsed, hparsed, hhtml⟩ := Noted.result_bind_eq_ok.1 hhtml
    cases hparse.symm.trans hparsed
    obtain ⟨children, hchildren, hpure⟩ := Noted.result_bind_eq_ok.1 hhtml
    cases hpure
    have hdeclared : ∀ name declared, config.tags.get? name = some declared →
        registry.get? name = some declared.definition := by
      intro name declared hname
      rw [hget, hname]
      rfl
    have hcontent := Node.infix_of_shownOf hdeclared hchildren hshown
    have hpart := escape_infix_charsOf
      (forall_mem_contentToHtml holdsOfContent_printsTexts read content.1 content.2) hpart
    rw [print, String.toList_ofList]
    exact (hpart.trans hcontent).trans (charsOf_infix_element (by decide) _ children)

theorem legible_htmlBy_note :
    let source := "[tags.x]\nrender = \"br\"\n[tags.note]\nrender = \"aside\"\n" ++
      "[tags.note.attributes]\nsize = \x7b type = \"number\", default = 1 \x7d\n"
    let text := "\x7b% note %\x7d\n1 < 2\n\x7b% x %\x7d\nlost\n\x7b% /x %\x7d\n\x7b% /note %\x7d\n"
    let other := "\x7b% note %\x7d\n1 < 2\n\x7b% x /%\x7d\n\x7b% /note %\x7d\n"
    ∃ config registry html otherHtml, read source = .ok config ∧
      config.registry.result = .ok registry ∧ config.IsLegibleIn text ∧
      (Page.html registry text).result = .ok html ∧
      (Page.html registry other).result = .ok otherHtml ∧ html.print = otherHtml.print ∧
      html.normal = otherHtml.normal ∧ escape "1 < 2".toList <:+: html.print.toList := by
  intro source text other
  let note : TagConfig :=
    { element := "aside"
      schema := .ofList [("size", { type := .number, default := some (.number (.ofInt 1)) })] }
  let config : Config := ⟨.ofList [("note", note), ("x", { element := "br" })]⟩
  have hread : read source = .ok config := eq_ok_of_toOption (by decide +kernel)
  have hlegible : ∀ text, config.IsLegibleIn text := by
    intro text document _ tag _ declared hget
    have hall : ∀ entry ∈ config.tags.entries, entry.2.IsLegible := by decide
    exact hall _ (KeyMap.get?_eq_some_iff.1 hget)
  obtain ⟨registry, hresult, hnormal, hshown⟩ := legible_htmlBy hread Markdown.read
  have hprinted : config.registry.result.toOption.map (fun registry =>
      ((Page.html registry text).result.toOption.map Html.print,
        (Page.html registry other).result.toOption.map Html.print)) =
      some (some "<article><aside size=\"1\"><p>1 &lt; 2</p><br></aside></article>",
        some "<article><aside size=\"1\"><p>1 &lt; 2</p><br></aside></article>") := by
    decide +kernel
  have hcontent : (Document.parse text).toOption.map (fun document =>
      Node.shownOf config .markdown document.children) = some [(.markdown, "1 < 2")] := by
    decide +kernel
  have hpart : "1 < 2" ∈ textsOf (contentToHtml Markdown.read .markdown "1 < 2") := by
    decide +kernel
  obtain ⟨_, hregistry, hprinted⟩ := exists_of_toOption_map hprinted
  cases hresult.symm.trans hregistry
  obtain ⟨htext, hother⟩ := Prod.mk.inj hprinted
  obtain ⟨html, hhtml, hprint⟩ := exists_of_toOption_map htext
  obtain ⟨otherHtml, hotherHtml, hotherPrint⟩ := exists_of_toOption_map hother
  obtain ⟨document, hparse, hcontent⟩ := exists_of_toOption_map hcontent
  have hsame := hprint.trans hotherPrint.symm
  refine ⟨config, registry, html, otherHtml, hread, hresult, hlegible text, hhtml, hotherHtml, hsame,
    hnormal text other html otherHtml hhtml hotherHtml (hlegible text) (hlegible other) hsame, ?_⟩
  exact hshown text document html hparse hhtml (.markdown, "1 < 2")
    (hcontent ▸ List.mem_singleton_self _) "1 < 2" hpart

def html? (source text : String) : Option Html := do
  let config ← (read source).toOption
  let registry ← config.registry.result.toOption
  (Page.html registry text).result.toOption

def Confuses (source text other : String) : Prop :=
  ∃ html ∈ html? source text, ∃ otherHtml ∈ html? source other,
    html.print = otherHtml.print ∧ html.tidy ≠ otherHtml.tidy

def Drops (source text part : String) : Prop :=
  ∃ html ∈ html? source text, ¬ escape part.toList <:+: html.print.toList

instance (source text other : String) : Decidable (Confuses source text other) :=
  decidable_of_iff (∃ html ∈ html? source text, ∃ otherHtml ∈ html? source other,
      html.chars = otherHtml.chars ∧ html.tidy ≠ otherHtml.tidy)
    (by simp only [Confuses, print, String.ofList_inj])

instance (source text part : String) : Decidable (Drops source text part) :=
  decidable_of_iff (∃ html ∈ html? source text, ¬ escape part.toList <:+: html.chars)
    (by simp only [Drops, print, String.toList_ofList])

/-- Void elements with content, the name of a closing tag, of a tag with content, of a void element
with an attribute, and of two attributes; and content in a void element, a data source and a query. -/
theorem confuses_and_drops :
    Confuses "[tags.x]\nrender = \"br\"\n" "\x7b% x %\x7d\nhello\n\x7b% /x %\x7d\n"
        "\x7b% x /%\x7d\n" ∧
      Confuses "[tags.x]\nrender = \"p\"\n[tags.y]\nrender = \"/p\"\n"
        ("\x7b% x /%\x7d\n\x7b% x %\x7d\n\x7b% y /%\x7d\n\x7b% /x %\x7d\n")
        ("\x7b% x %\x7d\n\x7b% y %\x7d\n\x7b% x /%\x7d\n\x7b% /y %\x7d\n\x7b% /x %\x7d\n") ∧
      Confuses "[tags.x]\nrender = \"p\"\n[tags.y]\nrender = \"p></p\"\n"
        "\x7b% x /%\x7d\n\x7b% y /%\x7d\n" "\x7b% y %\x7d\n\x7b% x /%\x7d\n\x7b% /y %\x7d\n" ∧
      Confuses "[tags.x]\nrender = \"br\"\n[tags.y]\nrender = 'br a=\"1\"'\n"
        "\x7b% x a=\"1\" /%\x7d\n\x7b% y /%\x7d\n"
        "\x7b% y %\x7d\n\x7b% x a=\"1\" /%\x7d\n\x7b% /y %\x7d\n" ∧
      Confuses ("[tags.x]\nrender = \"p\"\n[tags.x.attributes]\n" ++
          "'a=\"1\" b' = \x7b type = \"string\", default = \"2\" \x7d\n[tags.y]\nrender = \"p\"\n")
        "\x7b% x /%\x7d\n" "\x7b% y a=\"1\" b=\"2\" /%\x7d\n" ∧
      Drops "[tags.x]\nrender = \"br\"\n" "\x7b% x %\x7d\nhello\n\x7b% /x %\x7d\n" "hello" ∧
      Drops "[tags.x]\nrender = \"p\"\nbody = \"raw\"\n"
        ("\x7b% datasource name=\"d\" %\x7d\n\x7b% x %\x7d\nhello\n\x7b% /x %\x7d\n" ++
          "\x7b% /datasource %\x7d\n") "hello" ∧
      Drops "[tags.x]\nrender = \"p\"\nbody = \"raw\"\n"
        ("\x7b% query name=\"q\" %\x7d\n\x7b% x %\x7d\n\nhello\n\x7b% /x %\x7d\n" ++
          "\x7b% /query %\x7d\n") "\nhello" := by
  decide +kernel

end Config

end Tagmark
