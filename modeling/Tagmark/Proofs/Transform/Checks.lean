import Mathlib.Data.List.Basic
import Tagmark.Proofs.Document.Places
import Tagmark.Transform

/-!
The checks that a document has to pass. They are made tag by tag: a tag is looked up, its attributes
are bound, its children are checked, and then its element is built. The HTML of a document is there
exactly when all checks of all its tags pass, and otherwise the first one that does not pass says why
(`Document.toHtmlBy_eq_first_fault`).
-/

namespace Tagmark

theorem Node.toHtml_block {read : Markdown.Reader} {registry : Registry} {tag : Tag}
    {definition : Definition} {bound : Bound} (hget : registry.get? tag.name = some definition)
    (hbound : definition.schema.resolve tag.name tag.attributes = .ok bound) (body : BodyMode)
    (children : List Node) :
    (Node.block tag children).toHtml read registry body =
      Node.allToHtml read registry definition.body children >>= fun inner =>
        Noted.note (.transforming tag.name tag.span.start.line inner.length) >>= fun _ =>
          definition.build bound inner >>= fun html => Noted.pure [html] := by
  rw [Node.toHtml, hget]
  dsimp only
  rw [hbound]
  rfl

theorem Node.toHtml_of_inner {read : Markdown.Reader} {registry : Registry} {tag : Tag}
    {children : List Node} {definition : Definition} {bound : Bound} {inner : List Html}
    (hget : registry.get? tag.name = some definition)
    (hbound : definition.schema.resolve tag.name tag.attributes = .ok bound)
    (hinner : (Node.allToHtml read registry definition.body children).result = .ok inner)
    (body : BodyMode) :
    (Node.block tag children).toHtml read registry body =
      ⟨(Node.allToHtml read registry definition.body children).notes ++
          .transforming tag.name tag.span.start.line inner.length ::
            (definition.build bound inner).notes,
        (definition.build bound inner).result.map fun html => [html]⟩ := by
  rw [Node.toHtml_block hget hbound, Noted.bind_of_ok hinner, Noted.bind_pure_comp]
  rfl

theorem Node.exists_of_toHtml_block {read : Markdown.Reader} {registry : Registry} {tag : Tag}
    {children : List Node} {definition : Definition} {body : BodyMode} {html : List Html}
    (hget : registry.get? tag.name = some definition)
    (hhtml : ((Node.block tag children).toHtml read registry body).result = .ok html) :
    ∃ bound inner made, definition.schema.resolve tag.name tag.attributes = .ok bound ∧
      (Node.allToHtml read registry definition.body children).result = .ok inner ∧
      (definition.build bound inner).result = .ok made ∧ html = [made] := by
  rw [Node.toHtml, hget] at hhtml
  obtain ⟨bound, hbound, hhtml⟩ := Noted.result_bind_eq_ok.1 hhtml
  obtain ⟨inner, hinner, hhtml⟩ := Noted.result_bind_eq_ok.1 hhtml
  obtain ⟨_, -, hhtml⟩ := Noted.result_bind_eq_ok.1 hhtml
  obtain ⟨made, hmade, hpure⟩ := Noted.result_bind_eq_ok.1 hhtml
  cases hpure
  exact ⟨bound, inner, made, hbound, hinner, hmade, rfl⟩

inductive Check where
  | lookup (tag : Tag)
  | binding (tag : Tag)
  | building (tag : Tag) (children : List Node)

def Node.ownChecks : Node → List Check
  | .content _ _ => []
  | .block tag children => [.lookup tag, .binding tag, .building tag children]

/-! All checks in their order: those of the children of a tag are made before its element is built. -/

mutual

def Node.checks : Node → List Check
  | .content _ _ => []
  | .block tag children =>
      .lookup tag :: .binding tag :: (Node.checksOf children ++ [.building tag children])

def Node.checksOf : List Node → List Check
  | [] => []
  | node :: rest => node.checks ++ Node.checksOf rest

end

section

variable (read : Markdown.Reader) (registry : Registry)

/-! The HTML of nodes, where tags that do not pass their checks are left out. -/

mutual

def Node.html (body : BodyMode) : Node → List Html
  | .content value _ => contentToHtml read body value
  | .block tag children =>
      match registry.get? tag.name with
      | none => []
      | some definition =>
          match definition.schema.resolve tag.name tag.attributes with
          | .error _ => []
          | .ok bound =>
              (definition.build bound (Node.htmlOf definition.body children)).result.toOption.toList

def Node.htmlOf (body : BodyMode) : List Node → List Html
  | [] => []
  | node :: rest => node.html body ++ Node.htmlOf body rest

end

def reason? {α : Type} : Except Fault α → Option Fault
  | .ok _ => none
  | .error fault => some fault

/-- Why a check does not pass. What depends on a check that did not pass is not checked. -/
def Check.fault? : Check → Option Fault
  | .lookup tag =>
      match registry.get? tag.name with
      | none => some (.unknownTag tag.name)
      | some _ => none
  | .binding tag =>
      match registry.get? tag.name with
      | none => none
      | some definition => reason? (definition.schema.resolve tag.name tag.attributes)
  | .building tag children =>
      match registry.get? tag.name with
      | none => none
      | some definition =>
          match definition.schema.resolve tag.name tag.attributes with
          | .error _ => none
          | .ok bound =>
              reason? (definition.build bound
                (Node.htmlOf read registry definition.body children)).result

/-- The first fault that checks find, or the value. -/
def Check.after {α : Type} (checks : List Check) (value : α) : Except Fault α :=
  match checks.findSome? (Check.fault? read registry) with
  | some fault => .error fault
  | none => .ok value

variable {read registry}

namespace Check

theorem after_of_none {α : Type} {check : Check} (hcheck : check.fault? read registry = none)
    (rest : List Check) (value : α) :
    after read registry (check :: rest) value = after read registry rest value := by
  rw [after, List.findSome?_cons, hcheck]
  rfl

theorem after_of_some {α : Type} {check : Check} {fault : Fault}
    (hcheck : check.fault? read registry = some fault) (rest : List Check) (value : α) :
    after read registry (check :: rest) value = .error fault := by
  rw [after, List.findSome?_cons, hcheck]

theorem after_bind {α β : Type} (checks : List Check) (value : α) (next : α → Except Fault β) :
    (after read registry checks value).bind next =
      (after read registry checks ()).bind fun _ => next value := by
  unfold after
  cases checks.findSome? (fault? read registry) <;> rfl

theorem after_append {α : Type} (front back : List Check) (value : α) :
    after read registry (front ++ back) value =
      (after read registry front ()).bind fun _ => after read registry back value := by
  unfold after
  rw [List.findSome?_append]
  cases front.findSome? (fault? read registry) <;> rfl

theorem after_building {α : Type} {check : Check} {result : Except Fault α}
    (hcheck : check.fault? read registry = reason? result) :
    after read registry [check] result.toOption.toList = result.map fun value => [value] := by
  unfold after
  rw [List.findSome?_singleton, hcheck]
  cases result <;> rfl

end Check

mutual

theorem Node.result_toHtml (body : BodyMode) (node : Node) :
    (node.toHtml read registry body).result =
      Check.after read registry node.checks (node.html read registry body) := by
  cases node with
  | content value span => rfl
  | block tag children =>
      rw [Node.checks, Node.html]
      cases hget : registry.get? tag.name with
      | none =>
          have hlookup : (Check.lookup tag).fault? read registry = some (.unknownTag tag.name) := by
            rw [Check.fault?, hget]
          rw [Check.after_of_some hlookup, Node.toHtml, hget]
          rfl
      | some definition =>
          have hlookup : (Check.lookup tag).fault? read registry = none := by
            rw [Check.fault?, hget]
          have hbinding : (Check.binding tag).fault? read registry =
              reason? (definition.schema.resolve tag.name tag.attributes) := by
            rw [Check.fault?, hget]
          rw [Check.after_of_none hlookup]
          cases hresolve : definition.schema.resolve tag.name tag.attributes with
          | error fault =>
              rw [hresolve] at hbinding
              rw [Check.after_of_some hbinding, Node.toHtml, hget]
              dsimp only
              rw [hresolve]
              rfl
          | ok bound =>
              rw [hresolve] at hbinding
              have hbuilding : (Check.building tag children).fault? read registry =
                  reason? (definition.build bound
                    (Node.htmlOf read registry definition.body children)).result := by
                rw [Check.fault?, hget]
                dsimp only
                rw [hresolve]
              have hchildren := Node.result_allToHtml definition.body children
              rw [Check.after_of_none hbinding, Node.toHtml_block hget hresolve, Noted.result_bind,
                hchildren, Check.after_bind, Check.after_append]
              dsimp only
              rw [hresolve, Check.after_building hbuilding]
              refine congrArg (Except.bind _) (funext fun _ => ?_)
              change (definition.build bound _ >>= fun html => Noted.pure [html]).result = _
              rw [Noted.result_bind]
              rfl

theorem Node.result_allToHtml (body : BodyMode) (nodes : List Node) :
    (Node.allToHtml read registry body nodes).result =
      Check.after read registry (Node.checksOf nodes) (Node.htmlOf read registry body nodes) := by
  cases nodes with
  | nil => rfl
  | cons node rest =>
      have hrest := Node.result_allToHtml body rest
      have hnext : ∀ first : List Html,
          (Node.allToHtml read registry body rest >>= fun others =>
            Noted.pure (first ++ others)).result =
            Check.after read registry (Node.checksOf rest)
              (first ++ Node.htmlOf read registry body rest) := by
        intro first
        rw [Noted.result_bind, hrest]
        unfold Check.after
        cases (Node.checksOf rest).findSome? (Check.fault? read registry) <;> rfl
      rw [Node.allToHtml, Noted.result_bind, Node.result_toHtml body node, Check.after_bind, hnext,
        Node.checksOf, Node.htmlOf, Check.after_append]

end

mutual

theorem Node.mem_checks {node : Node} {check : Check} :
    check ∈ node.checks ↔ ∃ inner ∈ node.preorder, check ∈ inner.ownChecks := by
  cases node with
  | content value span => simp [Node.checks, Node.preorder, Node.ownChecks]
  | block tag children =>
      have hchildren : check ∈ Node.checksOf children ↔
          ∃ inner ∈ Node.preorderAll children, check ∈ inner.ownChecks := Node.mem_checksOf
      have hown : check ∈ (Node.block tag children).ownChecks ↔
          check = .lookup tag ∨ check = .binding tag ∨ check = .building tag children := by
        simp [Node.ownChecks]
      rw [Node.checks, Node.preorder, List.exists_mem_cons_iff, hown, ← hchildren]
      simp only [List.mem_cons, List.mem_append, List.not_mem_nil, or_false]
      constructor
      · rintro (hlookup | hbinding | hinside | hbuilding)
        · exact .inl (.inl hlookup)
        · exact .inl (.inr (.inl hbinding))
        · exact .inr hinside
        · exact .inl (.inr (.inr hbuilding))
      · rintro ((hlookup | hbinding | hbuilding) | hinside)
        · exact .inl hlookup
        · exact .inr (.inl hbinding)
        · exact .inr (.inr (.inr hbuilding))
        · exact .inr (.inr (.inl hinside))

theorem Node.mem_checksOf {nodes : List Node} {check : Check} :
    check ∈ Node.checksOf nodes ↔ ∃ inner ∈ Node.preorderAll nodes, check ∈ inner.ownChecks := by
  cases nodes with
  | nil => simp [Node.checksOf, Node.preorderAll]
  | cons node rest =>
      have hnode : check ∈ node.checks ↔ ∃ inner ∈ node.preorder, check ∈ inner.ownChecks :=
        Node.mem_checks
      have hrest : check ∈ Node.checksOf rest ↔
          ∃ inner ∈ Node.preorderAll rest, check ∈ inner.ownChecks := Node.mem_checksOf
      simp only [Node.checksOf, Node.preorderAll, List.mem_append, hnode, hrest, or_and_right,
        exists_or]

end

/-- A document has HTML exactly when every tag passes its checks, and otherwise the first check that
is not passed says why not. -/
theorem Document.toHtmlBy_eq_first_fault (document : Document) :
    (document.toHtmlBy read registry).result =
        (match (Node.checksOf document.children).findSome? (Check.fault? read registry) with
        | some fault => .error fault
        | none =>
            .ok (.make "article" [] (Node.htmlOf read registry .markdown document.children))) ∧
      ((∃ html, (document.toHtmlBy read registry).result = .ok html) ↔
        ∀ node ∈ Node.preorderAll document.children, ∀ check ∈ node.ownChecks,
          check.fault? read registry = none) ∧
      document.tags = (Node.preorderAll document.children).filterMap Node.tag? := by
  have hresult : (document.toHtmlBy read registry).result =
      Check.after read registry (Node.checksOf document.children)
        (.make "article" [] (Node.htmlOf read registry .markdown document.children)) := by
    have hchildren : (Node.allToHtml read registry .markdown document.children).result = _ :=
      Node.result_allToHtml .markdown document.children
    rw [Document.toHtmlBy, Noted.result_bind, hchildren, Check.after_bind]
    unfold Check.after
    cases (Node.checksOf document.children).findSome? (Check.fault? read registry) <;> rfl
  have hpassed : (∀ check ∈ Node.checksOf document.children,
        check.fault? read registry = none) ↔
      ∀ node ∈ Node.preorderAll document.children, ∀ check ∈ node.ownChecks,
        check.fault? read registry = none := by
    constructor
    · intro hall node hnode check hcheck
      exact hall check (Node.mem_checksOf.2 ⟨node, hnode, hcheck⟩)
    · intro hall check hcheck
      obtain ⟨node, hnode, hown⟩ := Node.mem_checksOf.1 hcheck
      exact hall node hnode check hown
  refine ⟨hresult, ?_, Node.tagsOf_eq_filterMap document.children⟩
  rw [hresult, ← hpassed, ← List.findSome?_eq_none_iff, Check.after]
  cases (Node.checksOf document.children).findSome? (Check.fault? read registry) <;> simp

end

end Tagmark
