import Tagmark.Proofs.Document.Within
import Tagmark.Proofs.Page.Query
import Tagmark.Proofs.Text.BlankLines

/-!
The code of a query anywhere in a document. It is the lines between the tags without the line ends
around them, which need not be without the blank lines around them
(`Document.query_code_iff`).
-/

namespace Tagmark

namespace Document

variable {front first body last back : List Char} {attributes : KeyMap Value} {registry : Registry}
  {bound : Bound} {document : Document}

/-- A query with plain lines between its tags becomes an element whose code is these lines without the
line ends around them. This takes off the blank lines around them, and nothing else, exactly when these
are empty and no carriage return begins or ends the lines that are left. -/
theorem query_code_iff (hfront : LeadsToTag front)
    (hblock : IsBlock "query" attributes first body last back)
    (hparse : parse (String.ofList (front ++ (first ++ (body ++ (last ++ back))))) = .ok document)
    (hget : registry.get? "query" = some .query)
    (hbound : Definition.query.schema.resolve "query" attributes = .ok bound)
    (read : Markdown.Reader) (mode : BodyMode) :
    ∃ span pre sql,
      let query := Node.block ⟨"query", attributes, false, span⟩
        (Node.ofBody (Point.origin.advance (front ++ first)) body)
      let code := Html.make "code" [("class", "language-sql")] sql
      query ∈ Node.preorderAll document.children ∧
        (query.toHtml read registry mode).result = .ok [.element "pre" pre [code]] ∧
        code.textContent = String.ofList (if Text.isBlankText body then []
          else Text.trimMatches Definition.isLineEnd body) ∧
        (code.textContent = String.ofList (Text.withoutBlankLines body) ↔
          Text.isBlankText body = true ∨
            (∀ line ∈ Text.outerLines (Text.splitLines body),
              ∀ c ∈ line, Definition.isLineEnd c = true) ∧
            Text.trimMatches Definition.isLineEnd (Text.withoutBlankLines body) =
              Text.withoutBlankLines body) := by
  obtain ⟨span, hmem⟩ := hfront.exists_block hblock hparse
  have hinner := congrArg Noted.result (Node.allToHtml_ofBody read registry
    (Point.origin.advance (front ++ first)) body)
  let tag : Tag := ⟨"query", attributes, false, span⟩
  have hknown : registry.get? tag.name = some .query := hget
  obtain ⟨pre, hhtml⟩ := Node.exists_toHtml_query hknown hbound hinner mode
  have hcode := Definition.textContent_queryCode (Html.ofRaw body)
  rw [Definition.sql_ofRaw] at hcode
  refine ⟨span, pre, _, hmem, hhtml, hcode, ?_⟩
  refine (Eq.congr_left hcode).trans (String.ofList_inj.trans ?_)
  cases hblank : Text.isBlankText body with
  | true => simp [Text.withoutBlankLines_of_blank hblank]
  | false =>
      rw [if_neg Bool.false_ne_true, Text.trimMatches_eq_withoutBlankLines_iff rfl rfl]
      simp

theorem query_code_nested :
    let front := "a\n\x7b% a %\x7d\n".toList
    let first := "  \x7b% query name=\"q\" %\x7d \n".toList
    let body := "\n  select 1\r\n\n from t\r\n\n".toList
    let last := "\x7b% /query %\x7d\n".toList
    let back := "\x7b% /a %\x7d\n".toList
    let attributes : KeyMap Value := .ofList [("name", .string "q")]
    LeadsToTag front ∧ IsBlock "query" attributes first body last back ∧
      ∃ document span pre sql,
        parse (String.ofList (front ++ (first ++ (body ++ (last ++ back))))) = .ok document ∧
        let query := Node.block ⟨"query", attributes, false, span⟩
          (Node.ofBody (Point.origin.advance (front ++ first)) body)
        let code := Html.make "code" [("class", "language-sql")] sql
        query ∈ Node.preorderAll document.children ∧
          (query.toHtml Markdown.read .builtin .markdown).result = .ok [.element "pre" pre [code]] ∧
          code.textContent = "  select 1\r\n\n from t" := by
  intro front first body last back attributes
  have hopen : parse (String.ofList front) = .error (.unclosedTag "a" ⟨2, 1, 2⟩) :=
    parse_of_fault? (by decide +kernel)
  have hfront := leadsToTag_of_unclosed hopen (by decide +kernel) (by decide +kernel)
  have hentries : ∀ entry ∈ [("name", Value.string "q")],
      Text.isName entry.1 = true ∧ entry.2.isWritable = true := by
    decide +kernel
  have hblock : IsBlock "query" attributes first body last back := by
    refine ⟨⟨[' ', ' '], _, [' ', '\n'], ?_, rfl, Header.writtenAs_opening (by decide) hentries false,
        rfl⟩, ⟨?_, ?_, fun _ => ?_⟩, ?_, fun _ => ?_,
      ⟨[], _, ['\n'], ?_, rfl, Header.writtenAs_write rfl, rfl⟩, ⟨?_, ?_, fun _ => ?_⟩⟩
    all_goals decide +kernel
  have hsome : (parse (String.ofList (front ++ (first ++ (body ++ (last ++ back)))))).toOption.isSome =
      true := by
    decide +kernel
  obtain ⟨document, hparse⟩ := exists_parse_of_isSome hsome
  have hget : Registry.builtin.get? "query" = some .query := rfl
  obtain ⟨span, pre, sql, hmem, hhtml, hcode, -⟩ := query_code_iff hfront hblock hparse hget
    (Definition.resolve_query "q") Markdown.read .markdown
  refine ⟨hfront, hblock, document, span, pre, sql, hparse, hmem, hhtml, hcode.trans ?_⟩
  have hkept : (if Text.isBlankText body then [] else Text.trimMatches Definition.isLineEnd body) =
      "  select 1\r\n\n from t".toList := by
    decide +kernel
  rw [hkept, String.ofList_toList]

theorem blank_line_before_code :
    let body := "   \nselect 1\n".toList
    Text.withoutBlankLines body = "select 1".toList ∧
      ((Page.html .builtin ("\x7b% query name=\"q\" %\x7d\n" ++ String.ofList body ++
        "\x7b% /query %\x7d\n")).result.map Html.print).toOption =
        some ("<article><pre name=\"q\"><code class=\"language-sql\">   \nselect 1" ++
          "</code></pre></article>") := by
  decide +kernel

end Document

end Tagmark
