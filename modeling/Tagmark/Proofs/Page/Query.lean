import Tagmark.Html.Print
import Tagmark.Proofs.Attribute.Binding
import Tagmark.Proofs.Page.Block

/-!
Queries in a page. What stands between the tags of a query is its code, character for character, but
for the line ends around it (`Page.html_query`).
-/

namespace Tagmark

namespace Definition

theorem sql_ofRaw (body : List Char) :
    sql (Html.ofRaw body) =
      if Text.isBlankText body then [] else Text.trimMatches isLineEnd body := by
  unfold Html.ofRaw
  split
  · rfl
  · have hjoin : String.join [Html.textContent (.text (String.ofList (Text.dropLineEnd body)))] =
        String.ofList (Text.dropLineEnd body) := by
      simp [Html.textContent, Html.texts, String.join]
    rw [sql, List.map_singleton, hjoin, String.toList_ofList, Text.trimMatches_dropLineEnd rfl rfl]

theorem sql_ofRaw_newline (text : List Char) :
    sql (Html.ofRaw (text ++ ['\n'])) =
      if Text.isBlankText text then [] else Text.trimMatches isLineEnd text := by
  have hblank : Text.isBlankText (text ++ ['\n']) = Text.isBlankText text := by
    simp [Text.isBlankText, Text.isBlank]
  have hnewline : ∀ c ∈ ['\n'], isLineEnd c = true := List.forall_mem_singleton.2 rfl
  rw [sql_ofRaw, hblank, Text.trimMatches_append_of_all hnewline]

theorem textContent_queryCode (children : List Html) :
    (queryCode children).textContent = String.ofList (sql children) := by
  rw [queryCode, Html.make]
  by_cases hnil : sql children = []
  · rw [if_pos hnil, hnil]
    rfl
  · rw [if_neg hnil]
    simp [Html.textContent, Html.texts, Html.textsOf, String.join]

theorem get?_schema_query (name : String) :
    query.schema.get? name =
      if name = "name" then some { type := .string, required := true } else none := by
  change (KeyMap.ofList _).get? name = _
  rw [KeyMap.get?_ofList]
  by_cases hname : name = "name"
  · simp [hname]
  · simp [hname, List.lookup_cons, beq_false_of_ne hname]

theorem contains_schema_query {name : String} :
    query.schema.contains name = true ↔ name = "name" := by
  rw [KeyMap.contains, get?_schema_query]
  split
  · next hname => exact iff_of_true rfl hname
  · next hname => exact iff_of_false Bool.false_ne_true hname

theorem typed_query : query.schema.Typed := by
  intro name spec hspec value hdefault
  rw [get?_schema_query] at hspec
  split at hspec
  · cases hspec
    cases hdefault
  · cases hspec

theorem resolve_query (name : String) :
    query.schema.resolve "query" (.ofList [("name", .string name)]) =
      .ok ⟨"query", .ofList [("name", .string name)], ∅⟩ := by
  rfl

theorem build_query_of_values {bound : Bound} {name : String}
    (hname : bound.values.get? "name" = some (.string name)) (children : List Html) :
    query.build bound children =
      .pure (.element "pre" ((KeyMap.ofList [("name", name)]).insertAll bound.printedExtra.entries)
        [queryCode children]) := by
  have hown : bound.requireText "name" = .ok name := by
    rw [Bound.requireText, hname]
  change (Noted.ofExcept (bound.requireText "name") >>= fun name => _) = _
  rw [hown]
  rfl

theorem build_query (name : String) (children : List Html) :
    query.build ⟨"query", .ofList [("name", .string name)], ∅⟩ children =
      .pure (.make "pre" [("name", name)] [queryCode children]) :=
  build_query_of_values rfl children

theorem chars_queryCode (children : List Html) :
    (queryCode children).chars =
      "<code class=\"language-sql\">".toList ++
        (Html.escape (sql children) ++ "</code>".toList) := by
  have hopening : Html.printOpening "code" (.ofList [("class", "language-sql")]) =
      "<code class=\"language-sql\">".toList := by decide
  have hclosing : Html.printClosing "code" = "</code>".toList := by decide
  have hvoid : Html.isVoid "code" = false := by decide
  have hcode : Html.charsOf (if sql children = [] then [] else
      [.text (String.ofList (sql children))]) = Html.escape (sql children) := by
    split
    · next hnil =>
        rw [hnil]
        rfl
    · simp [Html.charsOf, Html.chars]
  rw [queryCode, Html.make, Html.chars, hopening, hclosing, hvoid, if_neg Bool.false_ne_true, hcode]

theorem print_query (name : String) (children : List Html) :
    Html.print (.make "article" [] [.make "pre" [("name", name)] [queryCode children]]) =
      "<article><pre name=\"" ++ Html.escapeText name ++ "\"><code class=\"language-sql\">" ++
        Html.escapeText (String.ofList (sql children)) ++ "</code></pre></article>" := by
  have harticle : Html.printOpening "article" (.ofList []) = "<article>".toList := by decide
  have hpre : Html.printOpening "pre" (.ofList [("name", name)]) =
      "<pre name=\"".toList ++ (Html.escape name.toList ++ "\">".toList) := by
    have hentries : (KeyMap.ofList [("name", name)]).entries = [("name", name)] := rfl
    simp [Html.printOpening, Html.printAttribute, hentries]
  have hvoid : Html.isVoid "article" = false ∧ Html.isVoid "pre" = false := by decide
  apply String.toList_injective
  rw [Html.print, String.toList_ofList, Html.make, Html.make, Html.chars, Html.charsOf,
    Html.charsOf, Html.chars, Html.charsOf, Html.charsOf, chars_queryCode, harticle, hpre, hvoid.1,
    hvoid.2]
  simp [Html.escapeText, Html.printClosing]

end Definition

theorem Node.exists_toHtml_query {read : Markdown.Reader} {registry : Registry} {tag : Tag}
    {bound : Bound} {children : List Node} {inner : List Html}
    (hget : registry.get? tag.name = some .query)
    (hbound : Definition.query.schema.resolve tag.name tag.attributes = .ok bound)
    (hinner : (Node.allToHtml read registry .raw children).result = .ok inner) (mode : BodyMode) :
    ∃ pre, ((Node.block tag children).toHtml read registry mode).result =
      .ok [.element "pre" pre [Definition.queryCode inner]] := by
  obtain ⟨name, hname⟩ := Schema.exists_text_of_resolve Definition.typed_query hbound
    (Definition.get?_schema_query "name") rfl (.inl rfl)
  refine ⟨(KeyMap.ofList [("name", name)]).insertAll bound.printedExtra.entries, ?_⟩
  rw [Node.toHtml_block hget hbound, Noted.result_bind]
  change ((Node.allToHtml read registry .raw children).result).bind _ = _
  rw [hinner, Except.bind, Definition.build_query_of_values hname]
  rfl

namespace Page

/-- The code of a query is the text between its tags. -/
theorem html_query (name sql : String)
    (hplain : ∀ line ∈ Text.splitLines sql.toList, Text.IsPlain line) :
    let text := "\x7b% query name=" ++ String.ofList (Value.string name).write ++ " %\x7d\n" ++ sql ++
      "\n\x7b% /query %\x7d\n"
    let code := if Text.isBlankText sql.toList then [] else
      Text.trimMatches Definition.isLineEnd sql.toList
    (html .builtin text).result.map Html.print =
      .ok ("<article><pre name=\"" ++ Html.escapeText name ++ "\"><code class=\"language-sql\">" ++
        Html.escapeText (String.ofList code) ++ "</code></pre></article>") := by
  intro text code
  have hname : ∀ entry ∈ [("name", Value.string name)],
      Text.isName entry.1 = true ∧ entry.2.isWritable = true := by
    have hkey : Text.isName "name" = true := by decide
    intro entry hmem
    cases List.mem_singleton.1 hmem
    exact ⟨hkey, rfl⟩
  have hquery : Text.isName "query" = true := by decide
  have hended : sql.toList ++ ['\n'] ≠ [] → (sql.toList ++ ['\n']).getLast? = some '\n' :=
    fun _ => List.getLast?_concat
  obtain ⟨span, point, hparse⟩ := Document.parse_writtenBlock hquery hname hended
    (Text.isPlain_of_mem_concat_newline hplain) (.inr rfl)
  have htext : String.ofList (Header.block "query" [("name", .string name)]
      (sql.toList ++ ['\n']) ['\n']) = text := by
    apply String.toList_injective
    simp [text, Header.block, Header.insideOpening, Header.writeEntry, Header.write, Header.inside]
  rw [htext] at hparse
  have hget : Registry.builtin.get? "query" = some .query := rfl
  have hhtml := html_of_block hparse hget rfl (Definition.resolve_query name)
  rw [hhtml, Definition.build_query]
  refine congrArg Except.ok ?_
  rw [Definition.print_query, Definition.sql_ofRaw_newline]

theorem html_query_lines :
    let name := "a \"b\" \\"
    let sql := "\r\n  select '<b>'\r\n\n# *from* `t` & u\n\r\n"
    (∀ line ∈ Text.splitLines sql.toList, Text.IsPlain line) ∧
      (html .builtin ("\x7b% query name=" ++ String.ofList (Value.string name).write ++ " %\x7d\n" ++
        sql ++ "\n\x7b% /query %\x7d\n")).result.map Html.print =
        .ok ("<article><pre name=\"a &quot;b&quot; \\\"><code class=\"language-sql\">" ++
          "  select &#39;&lt;b&gt;&#39;\r\n\n# *from* `t` &amp; u</code></pre></article>") := by
  intro name sql
  have hplain : ∀ line ∈ Text.splitLines sql.toList, Text.IsPlain line := by decide +kernel
  refine ⟨hplain, (html_query name sql hplain).trans (congrArg Except.ok ?_)⟩
  decide +kernel

end Page

end Tagmark
