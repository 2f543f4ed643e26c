import Tagmark.Proofs.Attribute.Binding
import Tagmark.Proofs.Page.Block
import Tagmark.Proofs.Page.Columns

/-!
Data sources in a page. The table of a data source has one row for each column that is written
between its tags, and no other (`Page.html_datasource`).
-/

namespace Tagmark

theorem Column.rowsOf_ofRaw (delimiter body : List Char) :
    ((Html.textsOf (Html.ofRaw body)).map String.toList).flatMap (rowsOf delimiter) =
      rowsOf delimiter body := by
  unfold Html.ofRaw
  split
  · next hblank => exact (rowsOf_of_blank hblank).symm
  · simp [Html.textsOf, Html.texts, rowsOf_dropLineEnd]

theorem Schema.bind_of_type {spec : AttributeSpec} {value : Value} (htype : value.type = spec.type)
    (tag name : String) : bind tag name spec (some value) = .ok (some value) :=
  if_pos htype

namespace Definition

/-! The attributes of a data source, in the order in which they are kept. -/

section

variable {α : Type} (name delimiter : α)

theorem entries_nameDelimiter :
    (KeyMap.ofList [("name", name), ("delimiter", delimiter)]).entries =
      [("delimiter", delimiter), ("name", name)] := by
  have hlt : "delimiter" < "name" := by decide
  simp [KeyMap.ofList, KeyMap.insertAll, KeyMap.insert, KeyMap.empty, KeyMap.Entries.insert, hlt]

theorem get?_name :
    (KeyMap.ofList [("name", name), ("delimiter", delimiter)]).get? "name" = some name := by
  simp [KeyMap.ofList, KeyMap.insertAll]

theorem get?_delimiter :
    (KeyMap.ofList [("name", name), ("delimiter", delimiter)]).get? "delimiter" =
      some delimiter := by
  simp [KeyMap.ofList, KeyMap.insertAll]

end

theorem get?_schema_datasource (name : String) :
    datasource.schema.get? name =
      if name = "delimiter" then some { type := .string, default := some (.string "|") }
      else if name = "name" then some { type := .string, required := true } else none := by
  change (KeyMap.ofList _).get? name = _
  rw [KeyMap.get?_ofList]
  by_cases hdelimiter : name = "delimiter"
  · simp [hdelimiter]
  · by_cases hname : name = "name"
    · subst hname
      rfl
    · simp [hname, hdelimiter, List.lookup_cons, beq_false_of_ne hname, beq_false_of_ne hdelimiter]

theorem contains_schema_datasource {name : String} :
    datasource.schema.contains name = true ↔ name = "delimiter" ∨ name = "name" := by
  rw [KeyMap.contains, get?_schema_datasource]
  split
  · next hdelimiter => exact iff_of_true rfl (.inl hdelimiter)
  · next hdelimiter =>
      split
      · next hname => exact iff_of_true rfl (.inr hname)
      · next hname => exact iff_of_false Bool.false_ne_true (not_or.2 ⟨hdelimiter, hname⟩)

theorem typed_datasource : datasource.schema.Typed := by
  intro name spec hspec value hdefault
  rw [get?_schema_datasource] at hspec
  split at hspec
  · cases hspec
    cases hdefault
    rfl
  · split at hspec
    · cases hspec
      cases hdefault
    · cases hspec

theorem resolve_datasource (name delimiter : String) :
    datasource.schema.resolve "datasource"
        (.ofList [("name", .string name), ("delimiter", .string delimiter)]) =
      .ok ⟨"datasource", .ofList [("name", .string name), ("delimiter", .string delimiter)], ∅⟩ := by
  let declared := KeyMap.ofList [("name", Value.string name), ("delimiter", .string delimiter)]
  have hschema : datasource.schema.entries =
      [("delimiter", { type := .string, default := some (.string "|") }),
        ("name", { type := .string, required := true })] := entries_nameDelimiter _ _
  have hdeclared : declared.entries = [("delimiter", .string delimiter), ("name", .string name)] :=
    entries_nameDelimiter _ _
  have hbind : Schema.bindAll "datasource" declared datasource.schema.entries =
      .ok declared.entries := by
    have hname : declared.get? "name" = some (.string name) := get?_name _ _
    have hdelimiter : declared.get? "delimiter" = some (.string delimiter) := get?_delimiter _ _
    rw [hschema, hdeclared, Schema.bindAll, Schema.bindAll, Schema.bindAll, hname, hdelimiter,
      Schema.bind_of_type rfl, Schema.bind_of_type rfl]
    rfl
  have hvalues : KeyMap.ofList declared.entries = declared := KeyMap.insertAll_entries declared
  have hextra : declared.filter (fun name _ => !datasource.schema.contains name) = ∅ := by
    have hempty : (∅ : KeyMap Value).entries = [] := rfl
    apply KeyMap.ext_entries
    simp [KeyMap.filter, hdeclared, KeyMap.contains, KeyMap.get?, hschema, hempty]
  change (Schema.bindAll "datasource" declared datasource.schema.entries).bind (fun values =>
    .ok (Bound.mk "datasource" (.ofList values)
      (declared.filter fun name _ => !datasource.schema.contains name))) = _
  rw [hbind, hextra]
  exact congrArg (fun values => Except.ok (Bound.mk "datasource" values ∅)) hvalues

theorem build_datasource_of_values {bound : Bound} {name delimiter : String}
    (hname : bound.values.get? "name" = some (.string name))
    (hgiven : bound.values.get? "delimiter" = some (.string delimiter)) (hdelimiter : delimiter ≠ "")
    (children : List Html) :
    datasource.build bound children =
      let texts := (Html.textsOf children).map String.toList
      ⟨(Column.skipped delimiter.toList texts).map fun row =>
          .skippedRow (String.ofList row) delimiter,
        .ok (.element "div" ((KeyMap.ofList [("class", "datasource-container"), ("name", name),
          ("delimiter", delimiter)]).insertAll bound.printedExtra.entries)
          [Column.table (Column.extract delimiter.toList texts)])⟩ := by
  have hown : bound.requireText "name" = .ok name := by
    rw [Bound.requireText, hname]
  have hsplit : delimiterOf bound = .ok delimiter := by
    rw [delimiterOf, Bound.requireText, hgiven]
    exact if_neg hdelimiter
  change (Noted.ofExcept (delimiterOf bound) >>= fun delimiter =>
    Noted.ofExcept (bound.requireText "name") >>= fun name => _) = _
  rw [hsplit, hown]
  exact congrArg (fun notes => (⟨notes, .ok _⟩ : Logged Html)) (List.append_nil _)

theorem build_datasource (name : String) {delimiter : String} (hdelimiter : delimiter ≠ "")
    (children : List Html) :
    datasource.build
        ⟨"datasource", .ofList [("name", .string name), ("delimiter", .string delimiter)], ∅⟩
        children =
      let texts := (Html.textsOf children).map String.toList
      ⟨(Column.skipped delimiter.toList texts).map fun row =>
          .skippedRow (String.ofList row) delimiter,
        .ok (.make "div"
          [("class", "datasource-container"), ("name", name), ("delimiter", delimiter)]
          [Column.table (Column.extract delimiter.toList texts)])⟩ :=
  build_datasource_of_values (get?_name _ _) (get?_delimiter _ _) hdelimiter children

end Definition

namespace Page

theorem html_datasource_of_body (name : String) {delimiter : String} (hdelimiter : delimiter ≠ "")
    {body ending : List Char} (hended : body ≠ [] → body.getLast? = some '\n')
    (hplain : ∀ line ∈ Text.splitLines body, Text.IsPlain line)
    (hending : ending = [] ∨ ending = ['\n']) :
    let entries := [("name", Value.string name), ("delimiter", Value.string delimiter)]
    let rows := Column.rowsOf delimiter.toList body
    ∃ line, html .builtin (String.ofList (Header.block "datasource" entries body ending)) =
      ⟨.transforming "datasource" line (Html.ofRaw body).length ::
          ((rows.filter (·.2.isNone)).map (·.1)).map fun row =>
            .skippedRow (String.ofList row) delimiter,
        .ok (.make "article" [] [.make "div"
          [("class", "datasource-container"), ("name", name), ("delimiter", delimiter)]
          [Column.table (rows.filterMap (·.2))]])⟩ := by
  intro entries rows
  have hentries : ∀ entry ∈ entries, Text.isName entry.1 = true ∧ entry.2.isWritable = true := by
    have hnames : Text.isName "name" = true ∧ Text.isName "delimiter" = true := by decide
    rw [List.forall_mem_cons, List.forall_mem_singleton]
    exact ⟨⟨hnames.1, rfl⟩, hnames.2, rfl⟩
  have htag : Text.isName "datasource" = true := by decide
  obtain ⟨span, point, hparse⟩ :=
    Document.parse_writtenBlock htag hentries hended hplain hending
  have hget : Registry.builtin.get? "datasource" = some .datasource := rfl
  have hhtml := html_of_block hparse hget rfl (Definition.resolve_datasource name delimiter)
  rw [Definition.build_datasource name hdelimiter] at hhtml
  dsimp only at hhtml
  rw [Column.extract_eq, Column.skipped_eq, Column.rowsOf_ofRaw] at hhtml
  exact ⟨span.start.line, hhtml⟩

/-- The table of a data source has the written columns as its rows, and no line is skipped. -/
theorem html_datasource (name delimiter ending : String) (gap : List Char)
    (lines : List Column.Written) (hdelimiter : Text.IsDelimiter delimiter.toList)
    (hgap : Text.isBlankText gap = true) (hgapLine : '\n' ∉ gap)
    (hlines : ∀ line ∈ lines,
      line.IsWritable delimiter.toList (gap ++ (delimiter.toList ++ gap)))
    (hending : ending = "" ∨ ending = "\n") :
    let text := "\x7b% datasource name=" ++ String.ofList (Value.string name).write ++
      " delimiter=" ++ String.ofList (Value.string delimiter).write ++ " %\x7d\n" ++
      String.ofList (Column.write (gap ++ (delimiter.toList ++ gap)) lines) ++
      "\x7b% /datasource %\x7d" ++ ending
    let attributes :=
      [("class", "datasource-container"), ("name", name), ("delimiter", delimiter)]
    (html .builtin text).result =
      .ok (.make "article" [] [.make "div" attributes [
        .make "table" [("class", "datasource-table")] [
          .make "thead" [] [Column.header],
          .make "tbody" [] ((lines.filterMap Column.Written.column?).map fun column =>
            .make "tr" [] ([column.name, column.type, column.path, column.description].map
              (Html.labelled "td")))]]]) ∧
    ∀ note ∈ (html .builtin text).notes, note.isWarning = false := by
  intro text attributes
  have hne : delimiter ≠ "" := by
    rintro rfl
    exact hdelimiter.ne_nil rfl
  have hlast : ending.toList = [] ∨ ending.toList = ['\n'] := by
    rcases hending with rfl | rfl
    · exact .inl rfl
    · exact .inr rfl
  obtain ⟨line, hhtml⟩ := html_datasource_of_body name hne Column.getLast?_write
    (Column.isPlain_write hdelimiter hgapLine hlines) hlast
  have htext : String.ofList (Header.block "datasource"
        [("name", .string name), ("delimiter", .string delimiter)]
        (Column.write (gap ++ (delimiter.toList ++ gap)) lines) ending.toList) = text := by
    apply String.toList_injective
    simp [text, Header.block, Header.insideOpening, Header.writeEntry, Header.write, Header.inside]
  rw [htext, Column.filterMap_rowsOf_write hdelimiter hgap hgapLine hlines,
    Column.filter_rowsOf_write hdelimiter hgap hgapLine hlines] at hhtml
  rw [hhtml]
  refine ⟨rfl, ?_⟩
  intro note hmem
  obtain rfl := List.mem_singleton.1 hmem
  rfl

theorem html_datasource_overlapping :
    let gap := [' ']
    let first : Column := ⟨"id", "int", "$.id", ""⟩
    let second : Column := ⟨"name", "a b", "\x7b%", "<The> name"⟩
    let lines : List Column.Written :=
      [.row first none, .blank [' ', '\t'], .row second (some "| more || ~~~".toList)]
    let text := "\x7b% datasource name=" ++ String.ofList (Value.string "s").write ++
      " delimiter=" ++ String.ofList (Value.string "|||").write ++ " %\x7d\n" ++
      String.ofList (Column.write (gap ++ ("|||".toList ++ gap)) lines) ++
      "\x7b% /datasource %\x7d" ++ ""
    let attributes := [("class", "datasource-container"), ("name", "s"), ("delimiter", "|||")]
    ((Text.IsDelimiter "|||".toList ∧ Text.isBlankText gap = true ∧ '\n' ∉ gap) ∧
      (∀ line ∈ lines, line.IsWritable "|||".toList (gap ++ ("|||".toList ++ gap)))) ∧
    (html .builtin text).result =
      .ok (.make "article" [] [.make "div" attributes [
        .make "table" [("class", "datasource-table")] [
          .make "thead" [] [Column.header],
          .make "tbody" [] ([first, second].map fun column =>
            .make "tr" [] ([column.name, column.type, column.path, column.description].map
              (Html.labelled "td")))]]]) ∧
    ∀ note ∈ (html .builtin text).notes, note.isWarning = false := by
  intro gap first second lines text attributes
  have hdelimiter : Text.IsDelimiter "|||".toList := by decide +kernel
  have hgap : Text.isBlankText gap = true := by decide
  have hgapLine : '\n' ∉ gap := by decide
  have hlines : ∀ line ∈ lines,
      line.IsWritable "|||".toList (gap ++ ("|||".toList ++ gap)) := by decide +kernel
  exact ⟨⟨⟨hdelimiter, hgap, hgapLine⟩, hlines⟩,
    html_datasource "s" "|||" "" gap lines hdelimiter hgap hgapLine hlines (.inl rfl)⟩

end Page

end Tagmark
