import Tagmark.Proofs.Page.Datasource
import Tagmark.Proofs.Page.RowFields

/-!
Rows of a data source. Every line that is not blank describes a column or is noted as skipped, never
both, and columns and notes stand in the order of their lines (`Column.rows_sorted`). The table has one
row for each column.
-/

namespace Tagmark

/-- The lines of texts that are not blank. -/
def Text.rowLines (texts : List (List Char)) : List (List Char) :=
  (texts.flatMap lines).filter fun line => !isBlankText line

def Html.rowTexts? : Html → Option (List String)
  | .element "tr" _ cells => cells.mapM fun
      | .element "td" _ [.text value] => some value
      | _ => none
  | _ => none

/-- The texts in the body of a table, row by row. -/
def Html.bodyTexts? : Html → Option (List (List String))
  | .element "table" _ [_, .element "tbody" _ rows] => rows.mapM rowTexts?
  | _ => none

namespace Column

variable {delimiter : List Char} {lines texts : List (List Char)}

/-- Each line is a row of a column or is left over, trimmed, as one that describes none. -/
inductive Sorts (delimiter : List Char) :
    List (List Char) → List Column → List (List Char) → Prop
  | done : Sorts delimiter [] [] []
  | column {line : List Char} {lines rows : List (List Char)} {column : Column}
      {columns : List Column}
      (hpieces : column.HasPieces (Text.splitOn delimiter (Text.trim line)))
      (hrest : Sorts delimiter lines columns rows) :
      Sorts delimiter (line :: lines) (column :: columns) rows
  | skipped {line : List Char} {lines rows : List (List Char)} {columns : List Column}
      (hpieces : ∀ column : Column,
        ¬ column.HasPieces (Text.splitOn delimiter (Text.trim line)))
      (hrest : Sorts delimiter lines columns rows) :
      Sorts delimiter (line :: lines) columns (Text.trim line :: rows)

theorem sorts_iff {columns : List Column} {rows : List (List Char)} :
    Sorts delimiter lines columns rows ↔
      columns = lines.filterMap (ofLine? delimiter) ∧
        rows = (lines.filter fun line => (ofLine? delimiter line).isNone).map Text.trim := by
  constructor
  · intro hsorts
    induction hsorts with
    | done => exact ⟨rfl, rfl⟩
    | @column line lines rows column columns hpieces _ induction =>
        have hline := ofLine?_eq_some.2 hpieces
        rw [List.filterMap_cons_some hline, List.filter_cons_of_neg (by simp [hline])]
        exact ⟨congrArg _ induction.1, induction.2⟩
    | @skipped line lines rows columns hpieces _ induction =>
        have hline : ofLine? delimiter line = none :=
          Option.eq_none_iff_forall_ne_some.2 fun column hcolumn =>
            hpieces column (ofLine?_eq_some.1 hcolumn)
        rw [List.filterMap_cons_none hline, List.filter_cons_of_pos (by simp [hline]), List.map_cons]
        exact ⟨induction.1, congrArg _ induction.2⟩
  · rintro ⟨rfl, rfl⟩
    induction lines with
    | nil => exact .done
    | cons line lines induction =>
        cases hline : ofLine? delimiter line with
        | some column =>
            rw [List.filterMap_cons_some hline, List.filter_cons_of_neg (by simp [hline])]
            exact .column (ofLine?_eq_some.1 hline) induction
        | none =>
            rw [List.filterMap_cons_none hline, List.filter_cons_of_pos (by simp [hline])]
            refine .skipped (fun column hpieces => ?_) induction
            cases hline.symm.trans (ofLine?_eq_some.2 hpieces)

theorem sorts_rowLines {columns : List Column} {rows : List (List Char)} :
    Sorts delimiter (Text.rowLines texts) columns rows ↔
      columns = extract delimiter texts ∧ rows = skipped delimiter texts := by
  have hextract : extract delimiter texts = (Text.rowLines texts).filterMap (ofLine? delimiter) := by
    rw [extract, Column.rows, List.filterMap_map]
    rfl
  have hskipped : skipped delimiter texts =
      ((Text.rowLines texts).filter fun line => (ofLine? delimiter line).isNone).map Text.trim := by
    rw [skipped, Column.rows, List.filter_map, List.map_map]
    rfl
  rw [sorts_iff, hextract, hskipped]

theorem rows_append (delimiter : List Char) (texts more : List (List Char)) :
    rows delimiter (texts ++ more) = rows delimiter texts ++ rows delimiter more := by
  rw [rows, List.flatMap_append, List.filter_append, List.map_append]
  rfl

theorem extract_append (delimiter : List Char) (texts more : List (List Char)) :
    extract delimiter (texts ++ more) = extract delimiter texts ++ extract delimiter more := by
  rw [extract, rows_append, List.filterMap_append]
  rfl

theorem skipped_append (delimiter : List Char) (texts more : List (List Char)) :
    skipped delimiter (texts ++ more) = skipped delimiter texts ++ skipped delimiter more := by
  rw [skipped, rows_append, List.filter_append, List.map_append]
  rfl

theorem exists_ofLine?_iff {line : List Char} :
    (∃ column, ofLine? delimiter line = some column) ↔
      ∃ name type path more,
        Text.splitOn delimiter (Text.trim line) = name :: type :: path :: more ∧
          Text.trim name ≠ [] ∧ Text.trim type ≠ [] ∧ Text.trim path ≠ [] := by
  simp only [ofLine?_eq_some, ne_eq, Text.trim_eq_nil_iff, Bool.not_eq_true]
  constructor
  · rintro ⟨_, name, type, path, more, hsplit, hfields, -⟩
    exact ⟨name, type, path, more, hsplit, hfields⟩
  · rintro ⟨name, type, path, more, hsplit, hfields⟩
    exact ⟨_, name, type, path, more, hsplit, hfields, rfl⟩

theorem bodyTexts?_table (columns : List Column) :
    (table columns).bodyTexts? = some (columns.map fun column =>
      [column.name, column.type, column.path, column.description]) := by
  have hrows : (columns.map row).mapM Html.rowTexts? = some (columns.map fun column =>
      [column.name, column.type, column.path, column.description]) := by
    induction columns with
    | nil => rfl
    | cons column rest induction =>
        rw [List.map_cons, List.mapM_cons, induction]
        rfl
  exact hrows

/-- The lines of texts that are not blank are sorted into columns and skipped rows, in one way, and more
texts give more of both. A line is a row of a column if its first three pieces are not blank. The table
has one row for each column, and the skipped rows are noted. -/
theorem rows_sorted (delimiter : List Char) (texts : List (List Char)) :
    (∀ columns rows, Sorts delimiter (Text.rowLines texts) columns rows ↔
      columns = extract delimiter texts ∧ rows = skipped delimiter texts) ∧
    (∀ more,
      extract delimiter (texts ++ more) = extract delimiter texts ++ extract delimiter more ∧
      skipped delimiter (texts ++ more) = skipped delimiter texts ++ skipped delimiter more) ∧
    (∀ line, (∃ column, ofLine? delimiter line = some column) ↔
      ∃ name type path more,
        Text.splitOn delimiter (Text.trim line) = name :: type :: path :: more ∧
          Text.trim name ≠ [] ∧ Text.trim type ≠ [] ∧ Text.trim path ≠ []) ∧
    (∀ columns, (table columns).bodyTexts? = some (columns.map fun column =>
      [column.name, column.type, column.path, column.description])) ∧
    ∀ (bound : Bound) (children : List Html) (name given : String),
      bound.values.get? "name" = some (.string name) →
      bound.values.get? "delimiter" = some (.string given) → given ≠ "" →
      given.toList = delimiter → (Html.textsOf children).map String.toList = texts →
      (Definition.datasource.build bound children).notes =
        (skipped delimiter texts).map (fun row => .skippedRow (String.ofList row) given) ∧
      ∃ attributes, (Definition.datasource.build bound children).result =
        .ok (.element "div" attributes [table (extract delimiter texts)]) := by
  refine ⟨fun columns rows => sorts_rowLines,
    fun more => ⟨extract_append delimiter texts more, skipped_append delimiter texts more⟩,
    fun line => exists_ofLine?_iff, bodyTexts?_table, ?_⟩
  rintro bound children name given hname hgiven hne rfl rfl
  rw [Definition.build_datasource_of_values hname hgiven hne]
  exact ⟨rfl, _, rfl⟩

theorem rows_sorted_mixed :
    let bound : Bound :=
      ⟨"datasource", .ofList [("name", .string "events"), ("delimiter", .string "|")], ∅⟩
    let children : List Html :=
      [.text "id|Int32|/id|the id\r\n \t\n bad|Int32 \n", .text "name|String|/name|"]
    (bound.values.get? "name" = some (.string "events") ∧
      bound.values.get? "delimiter" = some (.string "|") ∧ "|" ≠ "") ∧
    (Definition.datasource.build bound children).notes = [.skippedRow "bad|Int32" "|"] ∧
    ∃ attributes, (Definition.datasource.build bound children).result =
      .ok (.element "div" attributes
        [table [⟨"id", "Int32", "/id", "the id"⟩, ⟨"name", "String", "/name", ""⟩]]) := by
  intro bound children
  let texts := (Html.textsOf children).map String.toList
  have hskipped : skipped "|".toList texts = ["bad|Int32".toList] := by decide +kernel
  have hextract : extract "|".toList texts =
      [⟨"id", "Int32", "/id", "the id"⟩, ⟨"name", "String", "/name", ""⟩] := by decide +kernel
  have hname : bound.values.get? "name" = some (.string "events") := rfl
  have hgiven : bound.values.get? "delimiter" = some (.string "|") := rfl
  have hne : "|" ≠ "" := by decide
  obtain ⟨-, -, -, -, hbuild⟩ := rows_sorted "|".toList texts
  have hmade := hbuild bound children "events" "|" hname hgiven hne rfl rfl
  rw [hskipped, hextract] at hmade
  exact ⟨⟨hname, hgiven, hne⟩, hmade⟩

end Column

end Tagmark
