import Tagmark.Config
import Tagmark.Page
import Tagmark.Proofs.Registry.Merge

/-!
What a document depends on. Registries that agree on the tags of a document give it the same HTML or
the same fault, with the same notes, so that definitions it does not use cannot change it
(`Page.same_of_unused`).
-/

namespace Tagmark

/-- The registries hold the same definition for each of the tags, or both hold none. -/
def Registry.AgreeOn (left right : Registry) (tags : List Tag) : Prop :=
  ∀ tag ∈ tags, left.get? tag.name = right.get? tag.name

section Agree

variable {read : Markdown.Reader} {left right : Registry}

mutual

theorem Node.toHtml_congr {node : Node} (hagree : left.AgreeOn right node.tags) (body : BodyMode) :
    node.toHtml read left body = node.toHtml read right body := by
  cases node with
  | content value span => rfl
  | block tag children =>
      obtain ⟨htag, hinside⟩ := List.forall_mem_cons.1 hagree
      have hchildren : ∀ body, Node.allToHtml read left body children =
          Node.allToHtml read right body children := Node.allToHtml_congr hinside
      rw [Node.toHtml, Node.toHtml, htag]
      cases right.get? tag.name with
      | none => rfl
      | some definition => simp only [hchildren]

theorem Node.allToHtml_congr {nodes : List Node} (hagree : left.AgreeOn right (Node.tagsOf nodes))
    (body : BodyMode) :
    Node.allToHtml read left body nodes = Node.allToHtml read right body nodes := by
  cases nodes with
  | nil => rfl
  | cons node rest =>
      obtain ⟨hnode, hrest⟩ := List.forall_mem_append.1 hagree
      rw [Node.allToHtml, Node.allToHtml, Node.toHtml_congr hnode body,
        Node.allToHtml_congr hrest body]

end

theorem Document.toHtmlBy_congr {document : Document}
    (hagree : left.AgreeOn right document.tags) :
    document.toHtmlBy read left = document.toHtmlBy read right := by
  rw [toHtmlBy, toHtmlBy, Node.allToHtml_congr hagree]

theorem Noted.bind_parse_congr {α : Type} {text : String} {next other : Document → Logged α}
    (hnext : ∀ document, Document.parse text = .ok document → next document = other document) :
    (Noted.ofExcept (Document.parse text) >>= next) =
      (Noted.ofExcept (Document.parse text) >>= other) := by
  cases hparse : Document.parse text with
  | error fault => rfl
  | ok document =>
      change Noted.bind (Noted.pure document) next = Noted.bind (Noted.pure document) other
      rw [Noted.bind_pure, Noted.bind_pure, hnext document hparse]

namespace Page

variable {text : String}

theorem htmlBy_congr (hagree : ∀ document, Document.parse text = .ok document →
    left.AgreeOn right document.tags) : htmlBy read left text = htmlBy read right text :=
  Noted.bind_parse_congr fun document hparse => Document.toHtmlBy_congr (hagree document hparse)

theorem readBy_congr {data : String → Except String Data}
    (hagree : ∀ document, Document.parse text = .ok document →
      left.AgreeOn right document.tags) :
    readBy data read left text = readBy data read right text := by
  refine Noted.bind_parse_congr fun document hparse => ?_
  rw [Document.toHtmlBy_congr (hagree document hparse)]

end Page

end Agree

theorem Config.exists_registry {config : Config} (hcheck : config.check = .ok ()) :
    ∃ registry, config.registry.result = .ok registry ∧
      ∀ name, registry.get? name =
        ((config.tags.get? name).map TagConfig.definition).or (Registry.builtin.get? name) := by
  obtain ⟨registry, hresult, hget⟩ :=
    Registry.exists_extended (config.tags.map TagConfig.definition)
  refine ⟨registry, ?_, fun name => ?_⟩
  · rw [registry_of_definitions (definitions_eq_ok.2 ⟨hcheck, rfl⟩), hresult]
  · rw [hget, KeyMap.get?_map]

namespace Page

/-- Definitions that a document does not use do not change its HTML, its fault or its notes; so a
text under a configuration that declares none of its tags is what it is without one. -/
theorem same_of_unused (read : Markdown.Reader) :
    (∀ (left right : Registry) (document : Document), left.AgreeOn right document.tags →
      document.toHtmlBy read left = document.toHtmlBy read right) ∧
    ∀ (decode : String → Except String Config) (source text : String) (config : Config),
      Config.readBy decode source = .ok config →
      (∀ document, Document.parse text = .ok document →
        ∀ tag ∈ document.tags, tag.name ∉ config.tags.names) →
      ∃ registry, config.registry.result = .ok registry ∧
        htmlBy read registry text = htmlBy read .builtin text ∧
        Page.read registry text = Page.read .builtin text := by
  refine ⟨fun _ _ _ => Document.toHtmlBy_congr, ?_⟩
  intro decode source text config hread hunused
  obtain ⟨registry, hresult, hget⟩ := Config.exists_registry (Config.check_of_readBy hread)
  have hagree : ∀ document, Document.parse text = .ok document →
      registry.AgreeOn .builtin document.tags := by
    intro document hparse tag hmem
    have hnone : config.tags.get? tag.name = none := by
      have hnot := hunused document hparse tag hmem
      rw [KeyMap.mem_names_iff, KeyMap.contains] at hnot
      exact Option.not_isSome_iff_eq_none.1 hnot
    rw [hget, hnone]
    rfl
  exact ⟨registry, hresult, htmlBy_congr hagree, readBy_congr hagree⟩

theorem same_of_unused_query :
    let source := "[tags.datasource]\nrender = \"p\"\n"
    let text := "\x7b% query name=\"q\" %\x7d\n1\n\x7b% /query %\x7d\n"
    let queries : Registry := .ofList [("query", .query)]
    ∃ document config registry, Document.parse text = .ok document ∧ document.tags ≠ [] ∧
      queries.AgreeOn .builtin document.tags ∧
      document.toHtml queries = document.toHtml .builtin ∧
      Config.read source = .ok config ∧ config.tags.names = ["datasource"] ∧
      (∀ tag ∈ document.tags, tag.name ∉ config.tags.names) ∧
      config.registry.result = .ok registry ∧
      htmlBy Markdown.read registry text = htmlBy Markdown.read .builtin text ∧
      Page.read registry text = Page.read .builtin text := by
  intro source text queries
  have htags : (Document.parse text).toOption.map (fun document => document.tags.map Tag.name) =
      some ["query"] := by
    decide +kernel
  have hnames : (Config.read source).toOption.map (fun config => config.tags.names) =
      some ["datasource"] := by
    decide +kernel
  cases hparse : Document.parse text with
  | error fault =>
      rw [hparse] at htags
      cases htags
  | ok document =>
      cases hread : Config.read source with
      | error fault =>
          rw [hread] at hnames
          cases hnames
      | ok config =>
          rw [hparse] at htags
          rw [hread] at hnames
          have htags : document.tags.map Tag.name = ["query"] := Option.some.inj htags
          have hnames : config.tags.names = ["datasource"] := Option.some.inj hnames
          have hname : ∀ tag ∈ document.tags, tag.name = "query" := fun tag hmem =>
            List.mem_singleton.1 (htags ▸ List.mem_map_of_mem hmem)
          have hagree : queries.AgreeOn .builtin document.tags := fun tag hmem => by
            rw [hname tag hmem]
            rfl
          have hunused : ∀ tag ∈ document.tags, tag.name ∉ config.tags.names := by
            intro tag hmem
            rw [hname tag hmem, hnames]
            decide
          obtain ⟨hsame, hconfig⟩ := same_of_unused Markdown.read
          obtain ⟨registry, hresult, hhtml, hpage⟩ := hconfig _ source text config hread
            fun other hother tag hmem => by
              cases hparse.symm.trans hother
              exact hunused tag hmem
          refine ⟨document, config, registry, rfl, ?_, hagree, hsame _ _ document hagree, rfl, hnames,
            hunused, hresult, hhtml, hpage⟩
          rintro hnone
          rw [hnone] at htags
          cases htags

end Page

end Tagmark
