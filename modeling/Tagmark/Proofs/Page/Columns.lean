import Mathlib.Data.List.Basic
import Tagmark.Columns
import Tagmark.Proofs.Document.Block

/-!
Columns in writing. Lines that are written for columns describe these columns, whatever their
delimiter, and every line that is not blank describes one (`Column.rowsOf_written`).
-/

namespace Tagmark

namespace Column

variable {delimiter : List Char}

/-- What a line says, trimmed: nothing if it is blank, and else itself with the column it
describes. -/
def row? (delimiter line : List Char) : Option (List Char × Option Column) :=
  if Text.isBlankText line then none else some (Text.trim line, ofLine? delimiter line)

def rowsOf (delimiter text : List Char) : List (List Char × Option Column) :=
  (Text.splitLines text).filterMap (row? delimiter)

theorem row?_congr {line other : List Char} (htrim : Text.trim line = Text.trim other) :
    row? delimiter line = row? delimiter other := by
  have hblank : Text.isBlankText line = Text.isBlankText other := by
    rw [Bool.eq_iff_iff, ← Text.trim_eq_nil_iff, ← Text.trim_eq_nil_iff, htrim]
  unfold row? ofLine? fields
  rw [hblank, htrim]

theorem map_rows (texts : List (List Char)) :
    (rows delimiter texts).map (fun row => (Text.trim row.1, row.2)) =
      texts.flatMap (rowsOf delimiter) := by
  have hlines : ∀ lines : List (List Char),
      (((lines.map Text.dropLineEnd).filter fun line => !Text.isBlankText line).map
        fun line => (line, ofLine? delimiter line)).map (fun row => (Text.trim row.1, row.2)) =
          lines.filterMap (row? delimiter) := by
    intro lines
    induction lines with
    | nil => rfl
    | cons line rest induction =>
        rw [List.filterMap_cons, ← row?_congr (Text.trim_dropLineEnd line), ← induction,
          List.map_cons, List.filter_cons, row?]
        cases Text.isBlankText (Text.dropLineEnd line) <;> rfl
  unfold rows
  induction texts with
  | nil => rfl
  | cons text rest induction =>
      rw [List.flatMap_cons, List.flatMap_cons, List.filter_append, List.map_append,
        List.map_append, induction, Text.lines, hlines, rowsOf]

theorem extract_eq (texts : List (List Char)) :
    extract delimiter texts = (texts.flatMap (rowsOf delimiter)).filterMap (·.2) := by
  rw [← map_rows, List.filterMap_map]
  rfl

theorem skipped_eq (texts : List (List Char)) :
    skipped delimiter texts =
      ((texts.flatMap (rowsOf delimiter)).filter (·.2.isNone)).map (·.1) := by
  rw [← map_rows, List.filter_map, List.map_map]
  rfl

theorem rowsOf_concat {c : Char} (hc : Text.isBlank c = true) (text : List Char) :
    rowsOf delimiter (text ++ [c]) = rowsOf delimiter text := by
  have hblank : Text.isBlankText [c] = true := by simpa [Text.isBlankText] using hc
  unfold rowsOf
  rcases Text.splitLines_concat text c with hown | ⟨front, last, htext, hends⟩
  · rw [hown, List.filterMap_append, List.filterMap_cons, row?, if_pos hblank]
    exact List.append_nil _
  · rw [htext, hends, List.filterMap_append, List.filterMap_append, List.filterMap_cons,
      List.filterMap_cons, row?_congr (Text.trim_append_of_blank hblank)]

theorem rowsOf_append_of_blank {ending : List Char} (hending : Text.isBlankText ending = true)
    (text : List Char) : rowsOf delimiter (text ++ ending) = rowsOf delimiter text := by
  induction ending generalizing text with
  | nil => rw [List.append_nil]
  | cons c rest induction =>
      obtain ⟨hc, hrest⟩ := Bool.and_eq_true_iff.1 hending
      rw [List.append_cons, induction hrest, rowsOf_concat hc]

theorem rowsOf_dropLineEnd (text : List Char) :
    rowsOf delimiter (Text.dropLineEnd text) = rowsOf delimiter text := by
  obtain ⟨ending, htext, hending⟩ := Text.exists_dropLineEnd_append text
  calc
    rowsOf delimiter (Text.dropLineEnd text) =
        rowsOf delimiter (Text.dropLineEnd text ++ ending) :=
      (rowsOf_append_of_blank hending _).symm
    _ = rowsOf delimiter text := by rw [← htext]

theorem rowsOf_of_blank {text : List Char} (hblank : Text.isBlankText text = true) :
    rowsOf delimiter text = [] :=
  rowsOf_append_of_blank hblank []

end Column

structure Text.IsDelimiter (delimiter : List Char) : Prop where
  ne_nil : delimiter ≠ []
  one_line : '\n' ∉ delimiter
  trimmed : Text.trim delimiter = delimiter

structure Text.IsField (delimiter field : List Char) : Prop where
  trimmed : Text.trim field = field
  one_line : '\n' ∉ field
  apart : ∀ c ∈ delimiter, c ∉ field

instance (delimiter : List Char) : Decidable (Text.IsDelimiter delimiter) :=
  decidable_of_iff
    (delimiter ≠ [] ∧ '\n' ∉ delimiter ∧ Text.trim delimiter = delimiter)
    ⟨fun ⟨hne, hline, htrim⟩ => ⟨hne, hline, htrim⟩, fun h => ⟨h.ne_nil, h.one_line, h.trimmed⟩⟩

instance (delimiter field : List Char) : Decidable (Text.IsField delimiter field) :=
  decidable_of_iff
    (Text.trim field = field ∧ '\n' ∉ field ∧ (delimiter.all (· ∉ field)) = true)
    ⟨fun ⟨htrim, hline, happart⟩ => ⟨htrim, hline, by simpa using happart⟩,
      fun h => ⟨h.trimmed, h.one_line, by simpa using h.apart⟩⟩

namespace Column

structure IsWritable (delimiter : List Char) (column : Column) : Prop where
  name : Text.IsField delimiter column.name.toList
  type : Text.IsField delimiter column.type.toList
  path : Text.IsField delimiter column.path.toList
  description : Text.IsField delimiter column.description.toList
  name_ne : column.name ≠ ""
  type_ne : column.type ≠ ""
  path_ne : column.path ≠ ""

instance (delimiter : List Char) (column : Column) : Decidable (column.IsWritable delimiter) :=
  decidable_of_iff
    ((Text.IsField delimiter column.name.toList ∧ Text.IsField delimiter column.type.toList ∧
        Text.IsField delimiter column.path.toList ∧
        Text.IsField delimiter column.description.toList) ∧
      column.name ≠ "" ∧ column.type ≠ "" ∧ column.path ≠ "")
    ⟨fun ⟨⟨hname, htype, hpath, hdescription⟩, hnameNe, htypeNe, hpathNe⟩ =>
        ⟨hname, htype, hpath, hdescription, hnameNe, htypeNe, hpathNe⟩,
      fun h => ⟨⟨h.name, h.type, h.path, h.description⟩, h.name_ne, h.type_ne, h.path_ne⟩⟩

/-- A line in writing: a column, perhaps with more behind its fields, or blank text. -/
inductive Written where
  | row (column : Column) (more : Option (List Char))
  | blank (text : List Char)

namespace Written

def column? : Written → Option Column
  | .row column _ => some column
  | .blank _ => none

/-- The text of a line, with `separator` between fields. -/
def text (separator : List Char) : Written → List Char
  | .row column more =>
      column.name.toList ++ (separator ++ (column.type.toList ++ (separator ++
        (column.path.toList ++ (separator ++ (column.description.toList ++
          more.elim [] (separator ++ ·)))))))
  | .blank text => text

def IsWritable (delimiter separator : List Char) : Written → Prop
  | .row column more =>
      column.IsWritable delimiter ∧ (∀ text ∈ more, '\n' ∉ text) ∧
        Text.IsPlain (text separator (.row column more))
  | .blank text => Text.isBlankText text = true ∧ '\n' ∉ text

instance (delimiter separator : List Char) :
    (line : Written) → Decidable (line.IsWritable delimiter separator)
  | .row _ _ => inferInstanceAs (Decidable (_ ∧ _ ∧ _))
  | .blank _ => inferInstanceAs (Decidable (_ ∧ _))

end Written

section

variable {gap : List Char} (hdelimiter : Text.IsDelimiter delimiter)
  (hgap : Text.isBlankText gap = true)

include hdelimiter hgap

theorem pieces_field {before field : List Char} (hbefore : Text.isBlankText before = true)
    (hfield : Text.IsField delimiter field) (rest : List Char) :
    (Text.splitOn delimiter (Text.trimEnd
        (before ++ (field ++ (gap ++ (delimiter ++ rest)))))).map Text.trim =
      field :: (Text.splitOn delimiter (Text.trimEnd rest)).map Text.trim := by
  have hkept : Text.trimEnd (before ++ (field ++ gap) ++ delimiter) =
      before ++ (field ++ gap) ++ delimiter :=
    Text.trimEnd_append_of_trim hdelimiter.trimmed hdelimiter.ne_nil _
  have htrim : Text.trimEnd (before ++ (field ++ (gap ++ (delimiter ++ rest)))) =
      before ++ (field ++ gap) ++ (delimiter ++ Text.trimEnd rest) := by
    simpa using Text.trimEnd_append hkept rest
  rw [htrim]
  cases hcases : delimiter with
  | nil => exact absurd hcases hdelimiter.ne_nil
  | cons head tail =>
      have hhead := Text.isBlank_head_of_trim hdelimiter.trimmed hcases
      have hnot : head ∉ before ++ (field ++ gap) := by
        have happart := hfield.apart head (by simp [hcases])
        simp [happart, Text.not_mem_of_blank hhead hbefore, Text.not_mem_of_blank hhead hgap]
      rw [Text.splitOn_append_of_not_mem hnot, List.map_cons, Text.trim_of_blank_append hbefore,
        Text.trim_append_of_blank hgap, hfield.trimmed]

theorem pieces_last {before field more : List Char} (hbefore : Text.isBlankText before = true)
    (hfield : Text.IsField delimiter field)
    (hmore : more = [] ∨ ∃ rest, more = gap ++ (delimiter ++ rest)) :
    ∃ others, (Text.splitOn delimiter (Text.trimEnd (before ++ (field ++ more)))).map Text.trim =
      field :: others := by
  rcases hmore with rfl | ⟨rest, rfl⟩
  · refine ⟨[], ?_⟩
    cases hcases : delimiter with
    | nil => exact absurd hcases hdelimiter.ne_nil
    | cons head tail =>
        have hhead := Text.isBlank_head_of_trim hdelimiter.trimmed hcases
        have hnot : head ∉ Text.trimEnd (before ++ (field ++ [])) := by
          obtain ⟨ending, htext, -⟩ := Text.exists_trimEnd_append (before ++ (field ++ []))
          have happart := hfield.apart head (by simp [hcases])
          have hwhole : head ∉ before ++ (field ++ []) := by
            simp [happart, Text.not_mem_of_blank hhead hbefore]
          rw [htext] at hwhole
          exact fun hmem => hwhole (List.mem_append_left _ hmem)
        rw [Text.splitOn_of_not_mem hnot, List.map_singleton, Text.trim_trimEnd,
          Text.trim_of_blank_append hbefore, List.append_nil, hfield.trimmed]
  · exact ⟨_, pieces_field hdelimiter hgap hbefore hfield rest⟩

theorem fields_row {column : Column} (hcolumn : column.IsWritable delimiter)
    (more : Option (List Char)) :
    ∃ others, fields delimiter ((Written.row column more).text (gap ++ (delimiter ++ gap))) =
      column.name.toList :: column.type.toList :: column.path.toList ::
        column.description.toList :: others := by
  have hname : Text.isBlankText column.name.toList = false :=
    Text.not_blank_of_trim hcolumn.name.trimmed (by simpa using hcolumn.name_ne)
  have hnil : Text.isBlankText [] = true := rfl
  have hmore : more.elim [] (gap ++ (delimiter ++ gap) ++ ·) = [] ∨
      ∃ rest, more.elim [] (gap ++ (delimiter ++ gap) ++ ·) = gap ++ (delimiter ++ rest) := by
    cases more with
    | none => exact .inl rfl
    | some text => exact .inr ⟨gap ++ text, by simp⟩
  obtain ⟨others, hlast⟩ := pieces_last hdelimiter hgap hgap hcolumn.description hmore
  refine ⟨others, ?_⟩
  rw [← hlast, ← pieces_field hdelimiter hgap hgap hcolumn.path,
    ← pieces_field hdelimiter hgap hgap hcolumn.type,
    ← pieces_field hdelimiter hgap hnil hcolumn.name]
  rw [fields, Text.trim, Written.text, Text.trimStart_append hname,
    Text.trimStart_of_trim hcolumn.name.trimmed]
  simp

theorem ofLine?_row {column : Column} (hcolumn : column.IsWritable delimiter)
    (more : Option (List Char)) :
    ofLine? delimiter ((Written.row column more).text (gap ++ (delimiter ++ gap))) =
      some column := by
  obtain ⟨others, hfields⟩ := fields_row hdelimiter hgap hcolumn more
  have hname : Text.isBlankText column.name.toList = false :=
    Text.not_blank_of_trim hcolumn.name.trimmed (by simpa using hcolumn.name_ne)
  have hblank : Text.isBlankText
      ((Written.row column more).text (gap ++ (delimiter ++ gap))) ≠ true := by
    rw [Written.text, ne_eq, Text.isBlankText_append, hname]
    simp
  have hempty : ¬ (column.name.toList = [] ∨ column.type.toList = [] ∨
      column.path.toList = []) := by
    simp [hcolumn.name_ne, hcolumn.type_ne, hcolumn.path_ne]
  rw [ofLine?, if_neg hblank, hfields, ofFields?, if_neg hempty]
  simp

theorem row?_written {line : Written}
    (hline : line.IsWritable delimiter (gap ++ (delimiter ++ gap))) :
    row? delimiter (line.text (gap ++ (delimiter ++ gap)) ++ ['\n']) =
      line.column?.map fun column =>
        (Text.trim (line.text (gap ++ (delimiter ++ gap))), some column) := by
  have hnewline : Text.isBlankText ['\n'] = true := rfl
  rw [row?_congr (Text.trim_append_of_blank hnewline)]
  cases line with
  | blank text => exact if_pos hline.1
  | row column more =>
      have hcolumn := ofLine?_row hdelimiter hgap hline.1 more
      have hblank : ¬ Text.isBlankText
          ((Written.row column more).text (gap ++ (delimiter ++ gap))) = true := by
        intro hblank
        rw [ofLine?, if_pos hblank] at hcolumn
        cases hcolumn
      rw [row?, if_neg hblank, hcolumn]
      rfl

omit hgap in
theorem newline_not_mem_written (hgapLine : '\n' ∉ gap) {line : Written}
    (hline : line.IsWritable delimiter (gap ++ (delimiter ++ gap))) :
    '\n' ∉ line.text (gap ++ (delimiter ++ gap)) := by
  cases line with
  | blank text => exact hline.2
  | row column more =>
      obtain ⟨hcolumn, hmore, -⟩ := hline
      have hrest : '\n' ∉ more.elim [] (gap ++ (delimiter ++ gap) ++ ·) := by
        cases more with
        | none => exact List.not_mem_nil
        | some text => simp [hgapLine, hdelimiter.one_line, hmore text rfl]
      simp [Written.text, hgapLine, hdelimiter.one_line, hcolumn.name.one_line,
        hcolumn.type.one_line, hcolumn.path.one_line, hcolumn.description.one_line, hrest,
        -List.append_assoc]

end

def write (separator : List Char) (lines : List Written) : List Char :=
  (lines.map (Written.text separator)).flatMap (· ++ ['\n'])

theorem getLast?_write {separator : List Char} {lines : List Written}
    (hne : write separator lines ≠ []) : (write separator lines).getLast? = some '\n' := by
  unfold write at hne ⊢
  rcases List.eq_nil_or_concat (lines.map (Written.text separator)) with hnil | ⟨front, last, hlast⟩
  · rw [hnil] at hne
    exact absurd rfl hne
  · rw [hlast, List.concat_eq_append, List.flatMap_append, List.flatMap_singleton,
      ← List.append_assoc, List.getLast?_concat]

section

variable {gap : List Char} (hdelimiter : Text.IsDelimiter delimiter)
  (hgap : Text.isBlankText gap = true) (hgapLine : '\n' ∉ gap) {lines : List Written}
  (hlines : ∀ line ∈ lines, line.IsWritable delimiter (gap ++ (delimiter ++ gap)))

include hdelimiter hgapLine hlines

theorem splitLines_write :
    Text.splitLines (write (gap ++ (delimiter ++ gap)) lines) =
      lines.map fun line => line.text (gap ++ (delimiter ++ gap)) ++ ['\n'] := by
  have hnewlines : ∀ text ∈ lines.map (Written.text (gap ++ (delimiter ++ gap))), '\n' ∉ text := by
    intro text hmem
    obtain ⟨line, hline, rfl⟩ := List.mem_map.1 hmem
    exact newline_not_mem_written hdelimiter hgapLine (hlines line hline)
  rw [write, Text.splitLines_flatMap hnewlines, List.map_map]
  rfl

theorem isPlain_write :
    ∀ text ∈ Text.splitLines (write (gap ++ (delimiter ++ gap)) lines), Text.IsPlain text := by
  rw [splitLines_write hdelimiter hgapLine hlines]
  intro text hmem
  obtain ⟨line, hline, rfl⟩ := List.mem_map.1 hmem
  have hwritable := hlines line hline
  cases line with
  | row column more => exact hwritable.2.2.concat_newline
  | blank text => exact (Text.isPlain_of_blank hwritable.1).concat_newline

include hgap

theorem rowsOf_write :
    rowsOf delimiter (write (gap ++ (delimiter ++ gap)) lines) =
      lines.filterMap fun line => line.column?.map fun column =>
        (Text.trim (line.text (gap ++ (delimiter ++ gap))), some column) := by
  rw [rowsOf, splitLines_write hdelimiter hgapLine hlines, List.filterMap_map]
  exact List.filterMap_congr fun line hmem => row?_written hdelimiter hgap (hlines line hmem)

theorem filterMap_rowsOf_write :
    (rowsOf delimiter (write (gap ++ (delimiter ++ gap)) lines)).filterMap (·.2) =
      lines.filterMap Written.column? := by
  rw [rowsOf_write hdelimiter hgap hgapLine hlines, List.filterMap_filterMap]
  refine List.filterMap_congr fun line _ => ?_
  cases line <;> rfl

theorem filter_rowsOf_write :
    (rowsOf delimiter (write (gap ++ (delimiter ++ gap)) lines)).filter (·.2.isNone) = [] := by
  rw [rowsOf_write hdelimiter hgap hgapLine hlines, List.filter_eq_nil_iff]
  intro row hmem
  obtain ⟨line, -, hrow⟩ := List.mem_filterMap.1 hmem
  obtain ⟨column, -, rfl⟩ := Option.map_eq_some_iff.1 hrow
  exact Bool.false_ne_true

end

end Column

end Tagmark
