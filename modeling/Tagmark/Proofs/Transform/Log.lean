import Mathlib.Data.List.Forall2
import Tagmark.Proofs.Registry.Merge
import Tagmark.Proofs.Transform.Checks

/-!
What is noted while a document is transformed. The notes that tags are transformed are in
post-order: a tag comes after all tags inside it. They are those of all tags, or of the tags up to
the one that cannot be transformed (`Document.log_toHtmlBy`).
-/

namespace Tagmark

mutual

def Node.postorder : Node → List (Tag × List Node)
  | .content _ _ => []
  | .block tag children => Node.postorderOf children ++ [(tag, children)]

def Node.postorderOf : List Node → List (Tag × List Node)
  | [] => []
  | node :: rest => node.postorder ++ Node.postorderOf rest

end

theorem Node.postorderOf_append (left right : List Node) :
    Node.postorderOf (left ++ right) = Node.postorderOf left ++ Node.postorderOf right := by
  induction left with
  | nil => rfl
  | cons node rest induction =>
      rw [List.cons_append, Node.postorderOf, induction, Node.postorderOf, List.append_assoc]

mutual

theorem Node.perm_postorder (node : Node) : (node.postorder.map Prod.fst).Perm node.tags := by
  cases node with
  | content value span => exact .nil
  | block tag children =>
      have hinside := (Node.perm_postorderOf children).append_right [tag]
      rw [Node.postorder, List.map_append]
      exact hinside.trans List.perm_append_comm

theorem Node.perm_postorderOf (nodes : List Node) :
    ((Node.postorderOf nodes).map Prod.fst).Perm (Node.tagsOf nodes) := by
  cases nodes with
  | nil => exact .nil
  | cons node rest =>
      rw [Node.postorderOf, List.map_append]
      exact (Node.perm_postorder node).append (Node.perm_postorderOf rest)

end

/-- A tag stands among nodes. In post-order, the tags of `before` come before those inside it, and
those of `behind` after itself. The tags around it, the innermost first, are `outer`. -/
inductive Node.At : List Node → List (Tag × List Node) → Tag × List Node →
    List (Tag × List Node) → List (Tag × List Node) → Prop
  | here (front back : List Node) (tag : Tag) (children : List Node) :
      At (front ++ .block tag children :: back) (postorderOf front) (tag, children) []
        (postorderOf back)
  | inside (front back : List Node) (around : Tag) {children : List Node}
      {before : List (Tag × List Node)} {block : Tag × List Node}
      {outer behind : List (Tag × List Node)} (hinside : At children before block outer behind) :
      At (front ++ .block around children :: back) (postorderOf front ++ before) block
        (outer ++ [(around, children)]) (behind ++ (around, children) :: postorderOf back)

namespace Node.At

variable {nodes : List Node} {before outer behind : List (Tag × List Node)}
  {block : Tag × List Node}

theorem postorder_eq (hat : At nodes before block outer behind) :
    Node.postorderOf nodes = before ++ (Node.postorderOf block.2 ++ block :: behind) := by
  induction hat with
  | here => simp [Node.postorderOf_append, Node.postorderOf, Node.postorder]
  | inside front back around hinside induction =>
      simp [Node.postorderOf_append, Node.postorderOf, Node.postorder, induction]

theorem outer_sublist (hat : At nodes before block outer behind) : outer.Sublist behind := by
  induction hat with
  | here => exact List.nil_sublist _
  | inside front back around hinside induction =>
      exact induction.append (.cons_cons _ (List.nil_sublist _))

theorem cons (hat : At nodes before block outer behind) (node : Node) :
    At (node :: nodes) (node.postorder ++ before) block outer behind := by
  cases hat with
  | here front back tag children => exact .here (node :: front) back tag children
  | inside front back around hinside =>
      rw [← List.append_assoc]
      exact .inside (node :: front) back around hinside

theorem first {node : Node} (hat : At [node] before block outer behind) (rest : List Node) :
    At (node :: rest) before block outer (behind ++ Node.postorderOf rest) := by
  generalize hnodes : [node] = nodes at hat
  cases hat with
  | here front back tag children =>
      obtain ⟨rfl, hnode⟩ | ⟨_, -, hnil⟩ := List.cons_eq_append_iff.1 hnodes
      · cases hnode
        exact .here [] rest tag children
      · simp at hnil
  | inside front back around hinside =>
      obtain ⟨rfl, hnode⟩ | ⟨_, -, hnil⟩ := List.cons_eq_append_iff.1 hnodes
      · cases hnode
        rw [List.append_assoc]
        exact .inside [] rest around hinside
      · simp at hnil

end Node.At

section

variable (read : Markdown.Reader) (registry : Registry)

/-- The notes of a tag that is built: that it is transformed, with the number of nodes that its
children have become, and then those of its definition. -/
def Node.Notes (block : Tag × List Node) (notes : List Note) : Prop :=
  ∃ definition bound inner, registry.get? block.1.name = some definition ∧
    definition.schema.resolve block.1.name block.1.attributes = .ok bound ∧
    (Node.allToHtml read registry definition.body block.2).result = .ok inner ∧
    notes = .transforming block.1.name block.1.span.start.line inner.length ::
      (definition.build bound inner).notes

def Tag.Refused (tag : Tag) (fault : Fault) : Prop :=
  (registry.get? tag.name = none ∧ fault = .unknownTag tag.name) ∨
    ∃ definition, registry.get? tag.name = some definition ∧
      definition.schema.resolve tag.name tag.attributes = .error fault

def Node.Unbuilt (block : Tag × List Node) (fault : Fault) : Prop :=
  ∃ definition bound inner, registry.get? block.1.name = some definition ∧
    definition.schema.resolve block.1.name block.1.attributes = .ok bound ∧
    (Node.allToHtml read registry definition.body block.2).result = .ok inner ∧
    (definition.build bound inner).result = .error fault

/-- How nodes are transformed, with the notes of each tag that is done. A tag that is refused leaves
no notes, nor do those inside it and around it. One that is not built leaves its own as the last. -/
inductive Node.Outcome {α : Type} (nodes : List Node) : List (List Note) → Except Fault α → Prop
  | done {notes : List (List Note)} (value : α)
      (hnotes : List.Forall₂ (Node.Notes read registry) (Node.postorderOf nodes) notes) :
      Outcome nodes notes (.ok value)
  | refused {notes : List (List Note)} {fault : Fault} {block : Tag × List Node}
      {before outer behind : List (Tag × List Node)} (hat : Node.At nodes before block outer behind)
      (hrefused : block.1.Refused registry fault)
      (hnotes : List.Forall₂ (Node.Notes read registry) before notes) :
      Outcome nodes notes (.error fault)
  | unbuilt {notes : List (List Note)} {fault : Fault} {block : Tag × List Node}
      {before outer behind : List (Tag × List Node)} (hat : Node.At nodes before block outer behind)
      (hunbuilt : Node.Unbuilt read registry block fault)
      (hnotes : List.Forall₂ (Node.Notes read registry)
        (before ++ (Node.postorderOf block.2 ++ [block])) notes) :
      Outcome nodes notes (.error fault)

variable {read registry}

namespace Node.Outcome

variable {α β : Type} {node : Node} {nodes rest : List Node} {notes later : List (List Note)}
  {fault : Fault}

theorem map {result : Except Fault α} (houtcome : Outcome read registry nodes notes result)
    (f : α → β) : Outcome read registry nodes notes (result.map f) := by
  cases houtcome with
  | done value hnotes => exact .done (f value) hnotes
  | refused hat hrefused hnotes => exact .refused hat hrefused hnotes
  | unbuilt hat hunbuilt hnotes => exact .unbuilt hat hunbuilt hnotes

theorem cons {value : α} {result : Except Fault β}
    (hnode : Outcome read registry [node] notes (.ok value))
    (hrest : Outcome read registry rest later result) :
    Outcome read registry (node :: rest) (notes ++ later) result := by
  cases hnode with
  | done _ hnode =>
      rw [Node.postorderOf, Node.postorderOf, List.append_nil] at hnode
      cases hrest with
      | done other hrest => exact .done other (List.rel_append hnode hrest)
      | refused hat hrefused hrest =>
          exact .refused (hat.cons node) hrefused (List.rel_append hnode hrest)
      | unbuilt hat hunbuilt hrest =>
          refine .unbuilt (hat.cons node) hunbuilt ?_
          rw [List.append_assoc]
          exact List.rel_append hnode hrest

theorem first_error (hnode : Outcome (α := α) read registry [node] notes (.error fault))
    (rest : List Node) : Outcome (α := β) read registry (node :: rest) notes (.error fault) := by
  cases hnode with
  | refused hat hrefused hnotes => exact .refused (hat.first rest) hrefused hnotes
  | unbuilt hat hunbuilt hnotes => exact .unbuilt (hat.first rest) hunbuilt hnotes

theorem block_refused {tag : Tag} (hrefused : tag.Refused registry fault) (children : List Node) :
    Outcome (α := α) read registry [.block tag children] [] (.error fault) :=
  .refused (.here [] [] tag children) hrefused .nil

theorem block_inside (around : Tag)
    (hinside : Outcome (α := α) read registry nodes notes (.error fault)) :
    Outcome (α := β) read registry [.block around nodes] notes (.error fault) := by
  cases hinside with
  | refused hat hrefused hnotes => exact .refused (.inside [] [] around hat) hrefused hnotes
  | unbuilt hat hunbuilt hnotes => exact .unbuilt (.inside [] [] around hat) hunbuilt hnotes

theorem block {tag : Tag} {definition : Definition} {bound : Bound} {inner : List Html}
    (hget : registry.get? tag.name = some definition)
    (hbound : definition.schema.resolve tag.name tag.attributes = .ok bound)
    (hinner : (Node.allToHtml read registry definition.body nodes).result = .ok inner)
    (hinside : Outcome read registry nodes notes (.ok inner)) :
    Outcome read registry [.block tag nodes]
      (notes ++ [.transforming tag.name tag.span.start.line inner.length ::
        (definition.build bound inner).notes]) (definition.build bound inner).result := by
  have hown : Node.Notes read registry (tag, nodes)
      (.transforming tag.name tag.span.start.line inner.length ::
        (definition.build bound inner).notes) :=
    ⟨definition, bound, inner, hget, hbound, hinner, rfl⟩
  cases hinside with
  | done _ hnotes =>
      have hall := List.rel_append hnotes (.cons hown .nil)
      cases hbuild : (definition.build bound inner).result with
      | ok html =>
          refine .done html ?_
          rw [Node.postorderOf, Node.postorderOf, List.append_nil]
          exact hall
      | error fault =>
          exact .unbuilt (.here [] [] tag nodes)
            ⟨definition, bound, inner, hget, hbound, hinner, hbuild⟩ hall

end Node.Outcome

mutual

theorem Node.outcome_toHtml (body : BodyMode) (node : Node) :
    ∃ notes, (node.toHtml read registry body).notes = notes.flatten ∧
      Node.Outcome read registry [node] notes (node.toHtml read registry body).result := by
  cases node with
  | content value span => exact ⟨[], rfl, .done _ .nil⟩
  | block tag children =>
      cases hget : registry.get? tag.name with
      | none =>
          rw [Node.toHtml, hget]
          exact ⟨[], rfl, .block_refused (.inl ⟨hget, rfl⟩) children⟩
      | some definition =>
          cases hbound : definition.schema.resolve tag.name tag.attributes with
          | error fault =>
              rw [Node.toHtml, hget]
              dsimp only
              rw [hbound]
              exact ⟨[], rfl, .block_refused (.inr ⟨definition, hget, hbound⟩) children⟩
          | ok bound =>
              obtain ⟨notes, hnotes, hinside⟩ := Node.outcome_allToHtml definition.body children
              cases hinner : (Node.allToHtml read registry definition.body children).result with
              | error fault =>
                  rw [Node.toHtml_block hget hbound, Noted.bind_of_error hinner]
                  rw [hinner] at hinside
                  exact ⟨notes, hnotes, hinside.block_inside tag⟩
              | ok inner =>
                  rw [Node.toHtml_of_inner hget hbound hinner]
                  rw [hinner] at hinside
                  exact ⟨_, by simp [hnotes], (hinside.block hget hbound hinner).map _⟩

theorem Node.outcome_allToHtml (body : BodyMode) (nodes : List Node) :
    ∃ notes, (Node.allToHtml read registry body nodes).notes = notes.flatten ∧
      Node.Outcome read registry nodes notes (Node.allToHtml read registry body nodes).result := by
  cases nodes with
  | nil => exact ⟨[], rfl, .done _ .nil⟩
  | cons node rest =>
      obtain ⟨notes, hnotes, hnode⟩ := Node.outcome_toHtml body node
      obtain ⟨later, hlater, hrest⟩ := Node.outcome_allToHtml body rest
      rw [Node.allToHtml]
      cases hfirst : (node.toHtml read registry body).result with
      | error fault =>
          rw [Noted.bind_of_error hfirst]
          rw [hfirst] at hnode
          exact ⟨notes, hnotes, hnode.first_error rest⟩
      | ok first =>
          rw [Noted.bind_of_ok hfirst]
          rw [hfirst] at hnode
          rw [Noted.bind_pure_comp]
          exact ⟨notes ++ later, by rw [hnotes, hlater, List.flatten_append],
            (hnode.cons hrest).map (first ++ ·)⟩

end

end

def Note.isTransforming : Note → Bool
  | .transforming _ _ _ => true
  | _ => false

/-- A definition that does not itself note that tags are transformed. -/
def Definition.Quiet (definition : Definition) : Prop :=
  ∀ bound children, ∀ note ∈ (definition.build bound children).notes, note.isTransforming = false

def Registry.Quiet (registry : Registry) : Prop :=
  ∀ name definition, registry.get? name = some definition → definition.Quiet

theorem Definition.quiet_element (name : String) (schema : Schema) (body : BodyMode) :
    (element name schema body).Quiet := by
  intro bound children note hmem
  exact absurd hmem List.not_mem_nil

theorem Definition.quiet_query : query.Quiet := by
  intro bound children note hmem
  obtain hname | ⟨_, helement⟩ := Noted.mem_notes_bind hmem
  · exact absurd hname List.not_mem_nil
  · exact absurd helement List.not_mem_nil

theorem Definition.quiet_datasource : datasource.Quiet := by
  intro bound children note hmem
  obtain hdelimiter | ⟨delimiter, hmem⟩ := Noted.mem_notes_bind hmem
  · exact absurd hdelimiter List.not_mem_nil
  obtain hname | ⟨name, hmem⟩ := Noted.mem_notes_bind hmem
  · exact absurd hname List.not_mem_nil
  obtain hrows | ⟨_, helement⟩ := Noted.mem_notes_bind hmem
  · obtain ⟨row, -, rfl⟩ := List.mem_map.1 hrows
    rfl
  · exact absurd helement List.not_mem_nil

theorem Registry.quiet_builtin : builtin.Quiet := by
  intro name definition hget
  have hmem : (name, definition) ∈ builtin.entries := KeyMap.get?_eq_some_iff.1 hget
  change (name, definition) ∈ [("datasource", Definition.datasource), ("query", .query)] at hmem
  obtain heq | hmem := List.mem_cons.1 hmem
  · cases heq
    exact Definition.quiet_datasource
  · cases List.mem_singleton.1 hmem
    exact Definition.quiet_query

theorem Registry.quiet_of_elements {registry : Registry} {tags : KeyMap Definition}
    (hregistry : (extended tags).result = .ok registry)
    (htags : ∀ name definition, tags.get? name = some definition → definition.Quiet) :
    registry.Quiet := by
  obtain ⟨made, hmade, hget⟩ := exists_extended tags
  cases hregistry.symm.trans hmade
  intro name definition hname
  rw [hget, Option.or_eq_some_iff] at hname
  obtain hown | ⟨-, hbuiltin⟩ := hname
  · exact htags name definition hown
  · exact quiet_builtin name definition hbuiltin

section

variable {read : Markdown.Reader} {registry : Registry}

theorem Node.Notes.filter_isTransforming {block : Tag × List Node} {notes : List Note}
    (hquiet : registry.Quiet) (hnotes : Node.Notes read registry block notes) :
    notes.filter Note.isTransforming = notes.head?.toList := by
  obtain ⟨definition, bound, inner, hget, -, -, rfl⟩ := hnotes
  have hown : (definition.build bound inner).notes.filter Note.isTransforming = [] :=
    List.filter_eq_nil_iff.2 fun note hmem =>
      Bool.eq_false_iff.1 (hquiet _ definition hget bound inner note hmem)
  rw [List.filter_cons_of_pos rfl, hown]
  rfl

theorem Node.filter_isTransforming {blocks : List (Tag × List Node)} {notes : List (List Note)}
    (hquiet : registry.Quiet) (hnotes : List.Forall₂ (Node.Notes read registry) blocks notes) :
    notes.flatten.filter Note.isTransforming = notes.filterMap List.head? := by
  induction hnotes with
  | nil => rfl
  | cons hfirst _ induction =>
      rw [List.flatten_cons, List.filter_append, hfirst.filter_isTransforming hquiet, induction]
      obtain ⟨_, _, _, -, -, -, rfl⟩ := hfirst
      rfl

theorem Node.Outcome.exists_blocks {α : Type} {nodes : List Node} {notes : List (List Note)}
    {result : Except Fault α} (houtcome : Node.Outcome read registry nodes notes result) :
    ∃ blocks, List.Forall₂ (Node.Notes read registry) blocks notes := by
  cases houtcome with
  | done _ hnotes => exact ⟨_, hnotes⟩
  | refused _ _ hnotes => exact ⟨_, hnotes⟩
  | unbuilt _ _ hnotes => exact ⟨_, hnotes⟩

variable (read registry)

/-- What is noted is noted tag by tag, in post-order, for all tags of a document or for those up to
the one where transforming stops. A tag that is refused and the tags around the one where it stops
are not among them: they come later. -/
theorem Document.log_toHtmlBy (document : Document) :
    ∃ notes, (document.toHtmlBy read registry).notes = notes.flatten ∧
      Node.Outcome read registry document.children notes
        (document.toHtmlBy read registry).result ∧
      (registry.Quiet → (document.toHtmlBy read registry).notes.filter Note.isTransforming =
        notes.filterMap List.head?) ∧
      ((Node.postorderOf document.children).map Prod.fst).Perm document.tags ∧
      ∀ before block outer behind, Node.At document.children before block outer behind →
        Node.postorderOf document.children =
          before ++ (Node.postorderOf block.2 ++ block :: behind) ∧
        outer.Sublist behind := by
  obtain ⟨notes, hnotes, houtcome⟩ :=
    @Node.outcome_allToHtml read registry .markdown document.children
  rw [Document.toHtmlBy, Noted.bind_pure_comp]
  refine ⟨notes, hnotes, houtcome.map _, fun hquiet => ?_, Node.perm_postorderOf document.children,
    fun before block outer behind hat => ⟨hat.postorder_eq, hat.outer_sublist⟩⟩
  obtain ⟨blocks, hblocks⟩ := houtcome.exists_blocks
  rw [hnotes]
  exact Node.filter_isTransforming hquiet hblocks

end

theorem Document.log_toHtmlBy_unknown :
    let registry : Registry := Registry.builtin.insert "note" (.element "div" ∅ .markdown)
    let text := "\x7b% note %\x7d\n\x7b% query name=\"q\" %\x7d\n1\n\x7b% /query %\x7d\n" ++
      "\none\n\ntwo\n\x7b% /note %\x7d\n\x7b% gone /%\x7d\n"
    ∃ document notes, parse text = .ok document ∧ registry.Quiet ∧
      (document.toHtmlBy Markdown.read registry).notes = notes.flatten ∧
      notes.filterMap List.head? = [.transforming "query" 2 1, .transforming "note" 1 3] ∧
      Node.Outcome Markdown.read registry document.children notes
        (document.toHtmlBy Markdown.read registry).result ∧
      (document.toHtmlBy Markdown.read registry).result.toOption = none := by
  intro registry text
  have hquiet : registry.Quiet := by
    refine @Registry.quiet_of_elements _ (.ofList [("note", .element "div" ∅ .markdown)]) rfl
      fun name definition hget => ?_
    cases List.mem_singleton.1 (KeyMap.get?_eq_some_iff.1 hget)
    exact Definition.quiet_element "div" ∅ .markdown
  have hlog : (parse text).toOption.map (fun document =>
      ((document.toHtmlBy Markdown.read registry).notes.filter Note.isTransforming,
        (document.toHtmlBy Markdown.read registry).result.toOption.isNone)) =
      some ([.transforming "query" 2 1, .transforming "note" 1 3], true) := by
    decide +kernel
  obtain ⟨document, hparse, hlog⟩ := exists_of_toOption_map hlog
  obtain ⟨hdone, hstop⟩ := Prod.mk.inj hlog
  obtain ⟨notes, hnotes, houtcome, hevents, -, -⟩ := log_toHtmlBy Markdown.read registry document
  exact ⟨document, notes, hparse, hquiet, hnotes, (hevents hquiet).symm.trans hdone, houtcome,
    Option.isNone_iff_eq_none.1 hstop⟩

end Tagmark
