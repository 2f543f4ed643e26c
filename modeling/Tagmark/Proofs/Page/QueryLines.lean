import Tagmark.Proofs.Html.Text
import Tagmark.Proofs.Page.Query
import Tagmark.Proofs.Text.Traced

/-!
The lines of a query's code. Contents of the body that have tags between them are put together with no
line end between them, so their lines stay apart only where the text of these tags, or line ends of the
contents themselves, keep them apart (`Document.query_lines_unfused_iff`).
-/

namespace Tagmark

namespace Node

section

variable (read : Markdown.Reader) (registry : Registry)

def rawText (node : Node) : List Char :=
  (Html.textContentOf (node.html read registry .raw)).toList

def rawTextOf (nodes : List Node) : List Char :=
  nodes.flatMap (rawText read registry)

def traced : Node → List Traced
  | .content value span => Traced.ofText span.start value.toList
  | .block tag children => Traced.ofNested ((Node.block tag children).rawText read registry)

def tracedOf (nodes : List Node) : List Traced :=
  nodes.flatMap (traced read registry)

/-- Of two contents with nothing but tags between them, the second goes on in the line in which the
first ends, or there is a newline between their texts: in the tags' text or in line ends around it. -/
def Separated (nodes : List Node) : Prop :=
  ∀ front value span between value' span' back,
    nodes = front ++ .content value span :: (between ++ .content value' span' :: back) →
    (∀ node ∈ between, node.tag?.isSome = true) →
      span.stop.line = span'.start.line ∨
        '\n' ∈ value.toList.rtakeWhile Definition.isLineEnd ++
          (rawTextOf read registry between ++ value'.toList.takeWhile Definition.isLineEnd)

def Follows (line? : Option Nat) (nodes : List Node) : Prop :=
  ∀ between value span back, nodes = between ++ .content value span :: back →
    (∀ node ∈ between, node.tag?.isSome = true) →
      (∀ m, line? = some m → m = span.start.line) ∨
        '\n' ∈ rawTextOf read registry between ++ value.toList.takeWhile Definition.isLineEnd

def IsPlaced : Node → Prop
  | .content value span =>
      span = .covering span.start value.toList ∧ ∃ c ∈ value.toList, Definition.isLineEnd c = false
  | .block _ _ => True

end

variable {read : Markdown.Reader} {registry : Registry}

theorem rawText_content (value : String) (span : Span) :
    (Node.content value span).rawText read registry = value.toList := by
  rw [rawText, html, contentToHtml, Html.textContentOf_singleton, Html.textContent_text]

theorem toList_textContentOf_htmlOf (nodes : List Node) :
    (Html.textContentOf (htmlOf read registry .raw nodes)).toList = rawTextOf read registry nodes := by
  induction nodes with
  | nil => rfl
  | cons node rest induction =>
      rw [htmlOf, Html.textContentOf_append, String.toList_append, induction]
      rfl

theorem chars_tracedOf (nodes : List Node) :
    Traced.chars (tracedOf read registry nodes) = rawTextOf read registry nodes := by
  induction nodes with
  | nil => rfl
  | cons node rest induction =>
      have hnode : Traced.chars (node.traced read registry) = node.rawText read registry := by
        cases node with
        | content value span => rw [traced, Traced.chars_ofText, rawText_content]
        | block tag children => exact Traced.chars_ofNested _
      change Traced.chars (node.traced read registry ++ tracedOf read registry rest) =
        node.rawText read registry ++ rawTextOf read registry rest
      rw [Traced.chars_append, hnode, induction]

theorem line?_tracedOf {nodes : List Node} :
    ∀ traced ∈ tracedOf read registry nodes, traced.endsLine = true → traced.line? = none := by
  intro traced hmem hends
  obtain ⟨node, -, hmem⟩ := List.mem_flatMap.1 hmem
  cases node with
  | content value span => exact Traced.line?_ofText traced hmem hends
  | block tag children => exact Traced.line?_ofNested traced hmem

theorem html_of_result {nodes : List Node} {body : BodyMode} {inner : List Html}
    (hinner : (allToHtml read registry body nodes).result = .ok inner) :
    inner = htmlOf read registry body nodes := by
  rw [result_allToHtml, Check.after] at hinner
  split at hinner
  · cases hinner
  · exact (Except.ok.inj hinner).symm

section

variable {line? : Option Nat} {nodes rest : List Node} {value : String} {span : Span} {tag : Tag}
  {children : List Node}

theorem follows_none : Follows read registry none nodes :=
  fun _ _ _ _ _ _ => .inl fun _ hline => by cases hline

theorem follows_content :
    Follows read registry line? (.content value span :: rest) ↔
      (∀ m, line? = some m → m = span.start.line) ∨
        '\n' ∈ value.toList.takeWhile Definition.isLineEnd := by
  constructor
  · exact fun hfollows => hfollows [] value span rest rfl (List.forall_mem_nil _)
  · intro hfirst between value' span' back hnodes hbetween
    cases between with
    | nil =>
        cases hnodes
        exact hfirst
    | cons node between =>
        obtain ⟨rfl, -⟩ := List.cons.inj hnodes
        cases hbetween _ List.mem_cons_self

theorem follows_block :
    Follows read registry line? (.block tag children :: rest) ↔
      Follows read registry
        (if '\n' ∈ (Node.block tag children).rawText read registry then none else line?) rest := by
  have htext : ∀ between, rawTextOf read registry (.block tag children :: between) =
      (Node.block tag children).rawText read registry ++ rawTextOf read registry between :=
    fun _ => List.flatMap_cons
  constructor
  · intro hfollows
    split
    · exact follows_none
    · next hnone =>
        intro between value span back hrest hbetween
        have hfirst := hfollows (.block tag children :: between) value span back (by rw [hrest]; rfl)
          (List.forall_mem_cons.2 ⟨rfl, hbetween⟩)
        rw [htext, List.append_assoc, List.mem_append, or_iff_right hnone] at hfirst
        exact hfirst
  · intro hfollows between value span back hnodes hbetween
    cases between with
    | nil => cases hnodes
    | cons node between =>
        obtain ⟨rfl, hrest⟩ := List.cons.inj hnodes
        rw [htext, List.append_assoc, List.mem_append]
        by_cases hnewline : '\n' ∈ (Node.block tag children).rawText read registry
        · exact .inr (.inl hnewline)
        · rw [if_neg hnewline] at hfollows
          exact (hfollows between value span back hrest
            (List.forall_mem_cons.1 hbetween).2).imp_right .inr

theorem separated_block :
    Separated read registry (.block tag children :: rest) ↔ Separated read registry rest := by
  constructor
  · intro hseparated front value span between value' span' back hrest
    exact hseparated (.block tag children :: front) value span between value' span' back
      (by rw [hrest]; rfl)
  · intro hseparated front value span between value' span' back hnodes
    cases front with
    | nil => cases hnodes
    | cons node front =>
        exact hseparated front value span between value' span' back (List.cons.inj hnodes).2

theorem separated_content :
    Separated read registry (.content value span :: rest) ↔
      Follows read registry (if '\n' ∈ value.toList.rtakeWhile Definition.isLineEnd then none
        else some span.stop.line) rest ∧ Separated read registry rest := by
  constructor
  · intro hseparated
    constructor
    · split
      · exact follows_none
      · next hnone =>
          intro between value' span' back hrest hbetween
          have hpair := hseparated [] value span between value' span' back (by rw [hrest]; rfl)
            hbetween
          rw [List.mem_append, or_iff_right hnone] at hpair
          exact hpair.imp_left fun hline m hm => (Option.some.inj hm).symm.trans hline
    · intro front value' span' between value'' span'' back hrest
      exact hseparated (.content value span :: front) value' span' between value'' span'' back
        (by rw [hrest]; rfl)
  · rintro ⟨hfollows, hseparated⟩ front value' span' between value'' span'' back hnodes hbetween
    cases front with
    | cons node front =>
        exact hseparated front value' span' between value'' span'' back (List.cons.inj hnodes).2
          hbetween
    | nil =>
        cases hnodes
        rw [List.mem_append]
        by_cases hnewline : '\n' ∈ value.toList.rtakeWhile Definition.isLineEnd
        · exact .inr (.inl hnewline)
        · rw [if_neg hnewline] at hfollows
          exact (hfollows between value'' span'' back rfl hbetween).imp
            (fun hline => hline _ rfl) .inr

end

theorem apart_tracedOf {nodes : List Node} (hplaced : ∀ node ∈ nodes, node.IsPlaced)
    {line? : Option Nat} :
    Traced.Apart line? (tracedOf read registry nodes) ↔
      Follows read registry line? nodes ∧ Separated read registry nodes := by
  induction nodes generalizing line? with
  | nil =>
      refine iff_of_true trivial ⟨fun between value span back hnodes => ?_,
        fun front value span between value' span' back hnodes => ?_⟩
      · simp at hnodes
      · simp at hnodes
  | cons node rest induction =>
      obtain ⟨hnode, hrest⟩ := List.forall_mem_cons.1 hplaced
      change Traced.Apart line? (node.traced read registry ++ tracedOf read registry rest) ↔ _
      rw [Traced.apart_append, induction hrest]
      cases node with
      | content value span =>
          obtain ⟨hspan, htext⟩ := hnode
          have hstop : span.stop = span.start.advance value.toList := congrArg Span.stop hspan
          rw [traced, Traced.apart_ofText_iff htext, Traced.after_ofText htext, ← hstop,
            follows_content, separated_content]
      | block tag children =>
          have hnone := @Traced.line?_ofNested ((Node.block tag children).rawText read registry)
          rw [traced, Traced.after_of_none hnone, Traced.chars_ofNested, follows_block,
            separated_block]
          exact and_iff_right (Traced.apart_of_none hnone)

theorem isPlaced_of_standsAt {node : Node} {point : Point} {source : List Char}
    (hstands : node.StandsAt point source) : node.IsPlaced := by
  cases node with
  | block tag children => trivial
  | content value span =>
      obtain ⟨rfl, hblank, rfl⟩ := hstands
      refine ⟨rfl, ?_⟩
      rw [Text.isBlankText, List.all_eq_false] at hblank
      obtain ⟨c, hmem, hc⟩ := hblank
      refine ⟨c, hmem, ?_⟩
      cases hend : Definition.isLineEnd c with
      | false => rfl
      | true =>
          rw [Definition.isLineEnd, Bool.or_eq_true, beq_iff_eq, beq_iff_eq] at hend
          rcases hend with rfl | rfl <;> exact absurd rfl hc

end Node

namespace Document

variable {text : String} {document : Document} {tag : Tag} {children : List Node}
  {registry : Registry} {bound : Bound} {inner : List Html} {read : Markdown.Reader}

/-- In the code of a query, text from different lines of its own content is on different lines exactly
when a newline comes between any two contents that follow each other: in the text of the tags between
them, or in line ends at the end of the first or the beginning of the second. -/
theorem query_lines_unfused_iff (hparse : parse text = .ok document)
    (hnode : .block tag children ∈ Node.preorderAll document.children)
    (hget : registry.get? tag.name = some .query)
    (hbound : Definition.query.schema.resolve tag.name tag.attributes = .ok bound)
    (hinner : (Node.allToHtml read registry .raw children).result = .ok inner) (mode : BodyMode) :
    let trace := Traced.trim (Node.tracedOf read registry children)
    ∃ pre code,
      ((Node.block tag children).toHtml read registry mode).result =
        .ok [.element "pre" pre [code]] ∧
      Traced.chars trace = code.textContent.toList ∧
      (∀ child ∈ children, child.Exact text.toList) ∧
      (Traced.Unfused trace ↔ Node.Separated read registry children) := by
  intro trace
  have htext : (Html.textContentOf inner).toList = Node.rawTextOf read registry children := by
    rw [Node.html_of_result hinner, Node.toList_textContentOf_htmlOf]
  obtain ⟨pre, hhtml⟩ := Node.exists_toHtml_query hget hbound hinner mode
  obtain ⟨block, lines, hsplit, -, hlaid⟩ := laidOver_of_parse hparse
  have hchild : ∀ child ∈ children, child ∈ Node.preorderAll document.children := by
    intro child hmem
    refine Node.mem_preorderAll_trans hnode (List.mem_cons_of_mem _ ?_)
    exact Node.mem_preorderAll.2 ⟨child, hmem, child.mem_preorder_self⟩
  have hplaced : ∀ child ∈ children, child.IsPlaced := by
    intro child hmem
    obtain ⟨_, _, _, -, hstands⟩ := Node.exists_standsAt_of_laidOver hlaid (hchild child hmem)
    exact Node.isPlaced_of_standsAt hstands
  refine ⟨pre, _, hhtml, ?_, fun child hmem => ?_, ?_⟩
  · rw [Traced.chars_trim, Node.chars_tracedOf, Definition.textContent_queryCode,
      String.toList_ofList, Definition.sql, ← htext]
    rfl
  · have hexact := Node.exact_of_laidOver [] hlaid (hchild child hmem)
    rwa [List.append_nil, ← List.flatten_append, ← hsplit, Text.flatten_splitLines] at hexact
  · rw [Traced.unfused_trim Node.line?_tracedOf, Traced.unfused_iff_apart,
      Node.apart_tracedOf hplaced]
    exact and_iff_right Node.follows_none

/-- Whether a node is a query that is accepted, with or without fused lines in its code. -/
def isQuery (unfused : Bool) : Node → Bool
  | .content _ _ => false
  | .block tag children =>
      tag.name == "query" &&
        (Definition.query.schema.resolve tag.name tag.attributes).toOption.isSome &&
        (Node.allToHtml Markdown.read .builtin .raw children).result.toOption.isSome &&
        decide (Traced.Unfused (Traced.trim (Node.tracedOf Markdown.read .builtin children))) ==
          unfused

structure HasQuery (text : String) (document : Document) (tag : Tag) (children : List Node) :
    Prop where
  parsed : parse text = .ok document
  mem : .block tag children ∈ Node.preorderAll document.children
  known : Registry.builtin.get? tag.name = some .query
  bound : ∃ bound, Definition.query.schema.resolve tag.name tag.attributes = .ok bound
  inner : ∃ inner, (Node.allToHtml Markdown.read .builtin .raw children).result = .ok inner

theorem exists_of_isSome {α : Type} {result : Except Fault α}
    (hsome : result.toOption.isSome = true) : ∃ value, result = .ok value := by
  cases result with
  | ok value => exact ⟨value, rfl⟩
  | error fault => cases hsome

theorem exists_query {text : String} {unfused : Bool}
    (hany : (parse text).toOption.any (fun document => document.children.any (isQuery unfused)) =
      true) :
    ∃ document tag children, HasQuery text document tag children ∧
      decide (Traced.Unfused (Traced.trim (Node.tracedOf Markdown.read .builtin children))) =
        unfused := by
  cases hparse : parse text with
  | error fault =>
      rw [hparse] at hany
      cases hany
  | ok document =>
      rw [hparse] at hany
      obtain ⟨node, hmem, hnode⟩ := List.any_eq_true.1 hany
      cases node with
      | content value span => cases hnode
      | block tag children =>
          rw [isQuery, Bool.and_eq_true, Bool.and_eq_true, Bool.and_eq_true, beq_iff_eq,
            beq_iff_eq] at hnode
          obtain ⟨⟨⟨hname, hbound⟩, hinner⟩, hunfused⟩ := hnode
          have hknown : Registry.builtin.get? tag.name = some .query := by
            rw [hname]
            rfl
          exact ⟨document, tag, children,
            ⟨hparse, Node.mem_preorderAll.2 ⟨_, hmem, Node.mem_preorder_self _⟩, hknown,
              exists_of_isSome hbound, exists_of_isSome hinner⟩, hunfused⟩

theorem query_lines_unfused_blank :
    let text := "\x7b% query name=\"a\" %\x7d\nselect 1\n\n\x7b% query name=\"b\" /%\x7d\n" ++
      "select 2\n\x7b% /query %\x7d\n"
    ∃ document tag children, HasQuery text document tag children ∧
      (∃ pre code, ((Node.block tag children).toHtml Markdown.read .builtin .markdown).result =
        .ok [.element "pre" pre [code]]) ∧
      Traced.Unfused (Traced.trim (Node.tracedOf Markdown.read .builtin children)) ∧
      Node.Separated Markdown.read .builtin children := by
  intro text
  have hany : (parse text).toOption.any (fun document => document.children.any (isQuery true)) =
      true := by
    decide +kernel
  obtain ⟨document, tag, children, hquery, hunfused⟩ := exists_query hany
  obtain ⟨bound, hbound⟩ := hquery.bound
  obtain ⟨inner, hinner⟩ := hquery.inner
  obtain ⟨pre, code, hhtml, -, -, hseparated⟩ :=
    query_lines_unfused_iff hquery.parsed hquery.mem hquery.known hbound hinner .markdown
  have hlines := of_decide_eq_true hunfused
  exact ⟨document, tag, children, hquery, ⟨pre, code, hhtml⟩, hlines, hseparated.1 hlines⟩

theorem query_lines_fused :
    let text := "\x7b% query name=\"a\" %\x7d\nselect 1\n\x7b% query name=\"b\" /%\x7d\nselect 2\n" ++
      "\x7b% /query %\x7d\n"
    (∃ document tag children, HasQuery text document tag children ∧
      ¬ Traced.Unfused (Traced.trim (Node.tracedOf Markdown.read .builtin children))) ∧
    ((Page.html .builtin text).result.map Html.print).toOption =
      some ("<article><pre name=\"a\"><code class=\"language-sql\">select 1select 2" ++
        "</code></pre></article>") := by
  intro text
  have hany : (parse text).toOption.any (fun document => document.children.any (isQuery false)) =
      true := by
    decide +kernel
  obtain ⟨document, tag, children, hquery, hfused⟩ := exists_query hany
  exact ⟨⟨document, tag, children, hquery, of_decide_eq_false hfused⟩, by decide +kernel⟩

end Document

end Tagmark
