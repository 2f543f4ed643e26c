import Tagmark.Columns
import Tagmark.Proofs.Text.TrimmedPieces

/-!
The fields of a line. A line is trimmed before it is cut at its delimiters, so its column has the pieces
of the trimmed line as its fields (`Column.ofLine?_eq_some`). These are the pieces of the line itself
where trimming takes nothing off a delimiter (`Column.fields_kept_iff`): always for a delimiter without
white space at its ends, but not for tabs, where a column without a name is read as one without a
description.
-/

namespace Tagmark

/-- Behind the text of pieces nothing is trimmed that is part of a delimiter between two of the first
four pieces or behind one of them. -/
def Text.KeepsEnd (delimiter : List Char) (pieces : List (List Char)) : Prop :=
  (trimEnd delimiter = delimiter ∨ isBlankText delimiter = true ∨
    ∀ last ∈ pieces.getLast?, isBlankText last = false) ∨ 5 < pieces.length

/-- Trimming takes nothing off a delimiter beside one of the first four pieces of the text. -/
structure Text.TrimsOutside (delimiter text : List Char) : Prop where
  front : trimStart delimiter = delimiter ∨
    ∀ first ∈ (splitOn delimiter text).head?, isBlankText first = false
  back : KeepsEnd delimiter (splitOn delimiter text)

theorem Text.exists_visible (other : Char) : ∃ c, isBlank c = false ∧ c ≠ other := by
  by_cases hother : other = 'a'
  · exact ⟨'b', rfl, by simp [hother]⟩
  · exact ⟨'a', rfl, fun heq => hother heq.symm⟩

theorem Text.exists_field {blank : Char} (hblank : isBlank blank = true) (other : Char)
    (count : Nat) :
    ∃ field, field.length = count + 1 ∧ trim field = field ∧ blank ∉ field ∧ other ∉ field := by
  obtain ⟨c, hc, hne⟩ := exists_visible other
  refine ⟨List.replicate (count + 1) c, List.length_replicate, trim_replicate hc _,
    fun hmem => ?_, fun hmem => hne (List.eq_of_mem_replicate hmem).symm⟩
  cases (List.eq_of_mem_replicate hmem ▸ hc).symm.trans hblank

namespace Column

variable {delimiter line : List Char} {column : Column}

/-- The column has the first pieces as its fields, trimmed. Of these the description alone may be blank
or missing. -/
def HasPieces (column : Column) (pieces : List (List Char)) : Prop :=
  ∃ name type path more, pieces = name :: type :: path :: more ∧
    (Text.isBlankText name = false ∧ Text.isBlankText type = false ∧
      Text.isBlankText path = false) ∧
    column =
      { name := String.ofList (Text.trim name)
        type := String.ofList (Text.trim type)
        path := String.ofList (Text.trim path)
        description := String.ofList (Text.trim (more.headD [])) }

theorem ofFields?_map_trim {pieces : List (List Char)} :
    ofFields? (pieces.map Text.trim) = some column ↔ column.HasPieces pieces := by
  match pieces with
  | [] | [_] | [_, _] =>
      refine iff_of_false (by simp [ofFields?]) ?_
      rintro ⟨_, _, _, _, heq, -⟩
      simp at heq
  | name :: type :: path :: more =>
      have hdescription : (more.map Text.trim).headD [] = Text.trim (more.headD []) := by
        cases more <;> rfl
      simp only [List.map_cons, ofFields?, hdescription, Text.trim_eq_nil_iff]
      constructor
      · intro hcolumn
        split at hcolumn
        · cases hcolumn
        · next hfull =>
            simp only [not_or, Bool.not_eq_true] at hfull
            exact ⟨name, type, path, more, rfl, hfull, (Option.some.inj hcolumn).symm⟩
      · rintro ⟨name, type, path, more, heq, ⟨hname, htype, hpath⟩, rfl⟩
        cases heq
        rw [if_neg (by simp [hname, htype, hpath])]

theorem ofLine?_eq_some :
    ofLine? delimiter line = some column ↔
      column.HasPieces (Text.splitOn delimiter (Text.trim line)) := by
  unfold ofLine?
  split
  · next hblank =>
      refine iff_of_false (by simp) ?_
      rw [Text.trim_eq_nil_iff.2 hblank]
      rintro ⟨_, _, _, _, hsplit, -⟩
      by_cases hdelimiter : delimiter = []
      · rw [Text.splitOn, dif_pos hdelimiter] at hsplit
        simp at hsplit
      · rw [Text.splitOn_nil hdelimiter] at hsplit
        simp at hsplit
  · exact ofFields?_map_trim

theorem ofFields?_take (fields : List (List Char)) : ofFields? (fields.take 4) = ofFields? fields := by
  match fields with
  | [] | [_] | [_, _] | [_, _, _] | _ :: _ :: _ :: _ :: _ => rfl

theorem ofFields?_append_replicate (fields : List (List Char)) (count : Nat) :
    ofFields? (fields ++ List.replicate count []) = ofFields? fields := by
  match fields, count with
  | [], 0 | [], 1 | [], 2 | [_], 0 | [_], 1 | [_, _], 0 | [_, _, _], 0 => rfl
  | [], _ + 3 | [_], _ + 2 | [_, _], _ + 1 => simp [ofFields?, List.replicate_succ]
  | [_, _, _], _ + 1 => rfl
  | _ :: _ :: _ :: _ :: _, _ => rfl

theorem hasPieces_congr {pieces others : List (List Char)}
    (hsame : (pieces.map Text.trim).take 4 = (others.map Text.trim).take 4) :
    column.HasPieces pieces ↔ column.HasPieces others := by
  rw [← ofFields?_map_trim, ← ofFields?_map_trim, ← ofFields?_take, hsame, ofFields?_take]

theorem hasPieces_of_append_replicate {pieces others : List (List Char)} {count : Nat}
    (hsame : pieces.map Text.trim = others.map Text.trim ++ List.replicate count []) :
    column.HasPieces pieces ↔ column.HasPieces others := by
  rw [← ofFields?_map_trim, ← ofFields?_map_trim, hsame, ofFields?_append_replicate]

section

variable {text : List Char} (hdelimiter : delimiter ≠ [])

include hdelimiter

theorem hasPieces_trimEnd (hends : Text.KeepsEnd delimiter (Text.splitOn delimiter text)) :
    column.HasPieces (Text.splitOn delimiter text) ↔
      column.HasPieces (Text.splitOn delimiter (Text.trimEnd text)) := by
  by_cases hwhole : Text.trimEnd delimiter = delimiter ∨ Text.isBlankText delimiter = true ∨
      ∀ last ∈ (Text.splitOn delimiter text).getLast?, Text.isBlankText last = false
  · obtain ⟨count, hcount⟩ := Text.exists_map_trim_splitOn hdelimiter hwhole
    exact hasPieces_of_append_replicate hcount
  · have hlong := hends.resolve_left hwhole
    simp only [not_or, not_forall, Bool.not_eq_true, Bool.not_eq_false] at hwhole
    obtain ⟨hcut, hvisible, last, hlast, hblank⟩ := hwhole
    obtain ⟨front, hfront⟩ := List.getLast?_eq_some_iff.1 hlast
    rw [hfront, List.length_append, List.length_singleton] at hlong
    obtain ⟨pieces, piece, rfl⟩ : ∃ pieces piece, front = pieces ++ [piece] :=
      (List.eq_nil_or_concat' front).resolve_left (by rintro rfl; simp at hlong)
    rw [List.append_assoc, List.singleton_append] at hfront
    rw [Text.splitOn_trimEnd_of_blank_last hdelimiter hvisible hcut hfront hblank, hfront]
    refine hasPieces_congr ?_
    rw [List.length_append, List.length_singleton] at hlong
    rw [List.map_append, List.map_append, List.take_append_of_le_length,
      List.take_append_of_le_length]
    all_goals
      rw [List.length_map]
      omega

theorem keepsEnd_of_hasPieces (hown : column.HasPieces (Text.splitOn delimiter text))
    (htrimmed : column.HasPieces (Text.splitOn delimiter (Text.trimEnd text))) :
    Text.KeepsEnd delimiter (Text.splitOn delimiter text) := by
  obtain ⟨name, type, path, more, hsplit, ⟨-, -, hpath⟩, hcolumn⟩ := hown
  by_contra hends
  simp only [Text.KeepsEnd, not_or, not_forall, Bool.not_eq_true, Bool.not_eq_false] at hends
  obtain ⟨⟨hcut, hvisible, last, hlast, hblank⟩, hshort⟩ := hends
  have hrest : Text.isBlankText (Text.trimEnd delimiter) = false := by
    rw [← Bool.not_eq_true, ← Text.trim_eq_nil_iff, Text.trim_trimEnd, Text.trim_eq_nil_iff, hvisible]
    exact Bool.false_ne_true
  have htaken : ∀ {pieces : List (List Char)} {piece : List Char},
      Text.splitOn delimiter text = pieces ++ [piece, last] →
      Text.splitOn delimiter (Text.trimEnd text) = pieces ++ [piece ++ Text.trimEnd delimiter] :=
    fun hpieces => Text.splitOn_trimEnd_of_blank_last hdelimiter hvisible hcut hpieces hblank
  rw [hsplit] at hlast hshort
  match more with
  | [] =>
      cases hlast
      cases hpath.symm.trans hblank
  | [_] =>
      cases hlast
      rw [@htaken [name, type] path hsplit] at htrimmed
      obtain ⟨_, _, _, _, heq, -, hother⟩ := htrimmed
      cases heq
      have hsame := congrArg Column.path (hcolumn.symm.trans hother)
      exact Text.trim_append_ne hrest path (String.ofList_injective hsame).symm
  | [piece, _] =>
      cases hlast
      rw [@htaken [name, type, path] piece hsplit] at htrimmed
      obtain ⟨_, _, _, _, heq, -, hother⟩ := htrimmed
      cases heq
      have hsame := congrArg Column.description (hcolumn.symm.trans hother)
      exact Text.trim_append_ne hrest piece (String.ofList_injective hsame).symm
  | _ :: _ :: _ :: _ => simp at hshort

section

variable {first : List Char} {rest : List (List Char)}
  (hsplit : Text.splitOn delimiter line = first :: rest)
  (hbegins : Text.trimStart delimiter = delimiter ∨ Text.isBlankText first = false)

include hsplit hbegins

theorem hasPieces_trimStart :
    column.HasPieces (Text.splitOn delimiter (Text.trimStart line)) ↔
      column.HasPieces (Text.splitOn delimiter line) := by
  obtain ⟨beginning, hfirst, hblank⟩ := Text.exists_trimStart_append first
  have htrim : Text.trim (Text.trimStart first) = Text.trim first := by
    rw [← Text.trim_of_blank_append hblank, ← hfirst]
  refine hasPieces_congr (congrArg (List.take 4) ?_)
  rw [Text.splitOn_trimStart hdelimiter hsplit hbegins, hsplit, List.map_cons, List.map_cons, htrim]

theorem keepsEnd_trimStart :
    Text.KeepsEnd delimiter (Text.splitOn delimiter (Text.trimStart line)) ↔
      Text.KeepsEnd delimiter (Text.splitOn delimiter line) := by
  rw [Text.splitOn_trimStart hdelimiter hsplit hbegins, hsplit]
  cases rest with
  | nil => simp [Text.KeepsEnd, Text.isBlankText_trimStart]
  | cons second others => exact Iff.rfl

end

/-- The column of a line has the pieces of the line itself exactly when trimming the line takes nothing
off the delimiters beside them. -/
theorem hasPieces_iff_trimsOutside (hline : ofLine? delimiter line = some column) :
    column.HasPieces (Text.splitOn delimiter line) ↔ Text.TrimsOutside delimiter line := by
  rw [ofLine?_eq_some] at hline
  obtain ⟨first, rest, hsplit⟩ := List.exists_cons_of_ne_nil (Text.splitOn_ne_nil hdelimiter line)
  constructor
  · intro hown
    obtain ⟨name, _, _, _, hpieces, ⟨hname, -, -⟩, -⟩ := id hown
    have hfirst : Text.isBlankText first = false := by
      cases hsplit.symm.trans hpieces
      exact hname
    refine ⟨.inr ?_, ?_⟩
    · rw [hsplit]
      rintro _ ⟨⟩
      exact hfirst
    · rw [← hasPieces_trimStart hdelimiter hsplit (.inr hfirst)] at hown
      rw [← keepsEnd_trimStart hdelimiter hsplit (.inr hfirst)]
      exact keepsEnd_of_hasPieces hdelimiter hown hline
  · rintro ⟨hfront, hback⟩
    have hbegins : Text.trimStart delimiter = delimiter ∨ Text.isBlankText first = false :=
      hfront.imp_right fun hfirst => hfirst first (by rw [hsplit]; rfl)
    rw [← keepsEnd_trimStart hdelimiter hsplit hbegins] at hback
    rw [← hasPieces_trimStart hdelimiter hsplit hbegins, hasPieces_trimEnd hdelimiter hback]
    exact hline

theorem exists_blank_first (hstart : Text.trimStart delimiter ≠ delimiter) :
    ∃ line column, ofLine? delimiter line = some column ∧
      ¬ column.HasPieces (Text.splitOn delimiter line) := by
  obtain ⟨head, tail, rfl⟩ := List.exists_cons_of_ne_nil hdelimiter
  have hhead : Text.isBlank head = true := by
    by_contra hvisible
    exact hstart (List.dropWhile_cons_of_neg hvisible)
  obtain ⟨last, hlast⟩ : ∃ last, (head :: tail).getLast? = some last :=
    ⟨_, List.getLast?_eq_some_getLast hdelimiter⟩
  obtain ⟨field, hlength, htrim, hheadField, hlastField⟩ := Text.exists_field hhead last tail.length
  have hne : field ≠ [] := List.ne_nil_of_length_eq_add_one hlength
  have hvisible := Text.not_blank_of_trim htrim hne
  have hpart : (Text.trimStart (head :: tail)).length < (head :: tail).length := by
    rw [Text.trimStart, List.dropWhile_cons_of_pos hhead, List.length_cons]
    exact Nat.lt_succ_of_le (List.dropWhile_sublist _).length_le
  have hline := Text.trim_append_between htrim hne (head :: tail)
    (head :: tail ++ (field ++ head :: tail))
  simp only [List.append_assoc] at hline
  have hpieces := Text.splitOn_of_cut hdelimiter (Text.cut?_append_of_ends_not_mem hlast hheadField
    hlastField hpart hlength.ge (field ++ (head :: tail ++ field)))
  rw [← hline, Text.splitOn_append_of_not_mem hheadField, Text.splitOn_of_not_mem hheadField]
    at hpieces
  have hfirst : Text.isBlankText (Text.trimStart (head :: tail) ++ field) = false := by
    rw [← Bool.not_eq_true, Text.isBlankText_append, hvisible]
    exact fun hblank => Bool.false_ne_true hblank.2
  refine ⟨_, _, ofLine?_eq_some.2
    ⟨_, field, field, [], hpieces, ⟨hfirst, hvisible, hvisible⟩, rfl⟩, ?_⟩
  rintro ⟨_, _, _, _, hsplit, ⟨hname, -, -⟩, -⟩
  rw [Text.splitOn_of_cut hdelimiter (Text.cut?_append_self hdelimiter _)] at hsplit
  obtain ⟨rfl, -⟩ := List.cons.inj hsplit
  cases hname

theorem exists_longer_path (hstart : Text.trimStart delimiter = delimiter)
    (hends : Text.trimEnd delimiter ≠ delimiter) :
    ∃ line column, ofLine? delimiter line = some column ∧
      ¬ column.HasPieces (Text.splitOn delimiter line) := by
  have hvisible := Text.not_blank_of_trimStart hstart hdelimiter
  obtain ⟨head, tail, rfl⟩ := List.exists_cons_of_ne_nil hdelimiter
  obtain ⟨c, hc, hne⟩ := Text.exists_visible head
  have hfield : head ∉ [c] := by simpa using hne.symm
  have hblank : Text.isBlankText [c] = false := by simp [Text.isBlankText, hc]
  let line := [c] ++ (head :: tail ++ ([c] ++ (head :: tail ++ ([c] ++ (head :: tail ++ [])))))
  have hline : Text.trimStart line = line := List.dropWhile_cons_of_neg (by simp [hc])
  have hsplit : Text.splitOn (head :: tail) line = [[c], [c]] ++ [[c], []] := by
    rw [Text.splitOn_append_of_not_mem hfield, Text.splitOn_append_of_not_mem hfield,
      Text.splitOn_append_of_not_mem hfield, Text.splitOn_nil hdelimiter]
    rfl
  have htrimmed : Text.splitOn (head :: tail) (Text.trim line) =
      [[c], [c], [c] ++ Text.trimEnd (head :: tail)] := by
    rw [Text.trim, hline]
    exact Text.splitOn_trimEnd_of_blank_last hdelimiter hvisible hends hsplit rfl
  have hpath : Text.isBlankText ([c] ++ Text.trimEnd (head :: tail)) = false := by
    simp [Text.isBlankText, hc]
  have hcolumn := ofLine?_eq_some.2 ⟨_, _, _, [], htrimmed, ⟨hblank, hblank, hpath⟩, rfl⟩
  refine ⟨line, _, hcolumn, fun hown => ?_⟩
  obtain ⟨-, hkept⟩ := (hasPieces_iff_trimsOutside hdelimiter hcolumn).1 hown
  rw [hsplit] at hkept
  rcases hkept with (hsame | habsurd | hlast) | hlong
  · exact hends hsame
  · cases hvisible.symm.trans habsurd
  · cases hlast [] rfl
  · simp at hlong

end

/-- The fields of a column are the pieces of its line exactly when trimming the line takes nothing off
the delimiters beside them. Lines with a blank piece where a name, type or path should be are skipped
for exactly those delimiters that have no white space at their ends. -/
theorem fields_kept_iff {delimiter : List Char} (hdelimiter : delimiter ≠ []) :
    (∀ line column, ofLine? delimiter line = some column →
      (column.HasPieces (Text.splitOn delimiter line) ↔ Text.TrimsOutside delimiter line)) ∧
    ((∀ line,
        (∀ column, ofLine? delimiter line = some column →
          column.HasPieces (Text.splitOn delimiter line)) ∧
        ((∃ piece ∈ (Text.splitOn delimiter line).take 3, Text.isBlankText piece = true) →
          ofLine? delimiter line = none)) ↔
      Text.trim delimiter = delimiter) := by
  refine ⟨fun line column hline => hasPieces_iff_trimsOutside hdelimiter hline, ?_, ?_⟩
  · intro hkept
    have hstart : Text.trimStart delimiter = delimiter := by
      by_contra hstart
      obtain ⟨line, column, hline, hother⟩ := exists_blank_first hdelimiter hstart
      exact hother ((hkept line).1 column hline)
    have hends : Text.trimEnd delimiter = delimiter := by
      by_contra hends
      obtain ⟨line, column, hline, hother⟩ := exists_longer_path hdelimiter hstart hends
      exact hother ((hkept line).1 column hline)
    rw [Text.trim, hstart, hends]
  · intro htrim line
    have hkept : ∀ column, ofLine? delimiter line = some column →
        column.HasPieces (Text.splitOn delimiter line) := fun column hline =>
      (hasPieces_iff_trimsOutside hdelimiter hline).2
        ⟨.inl (Text.trimStart_of_trim htrim), .inl (.inl (Text.trimEnd_of_trim htrim))⟩
    refine ⟨hkept, ?_⟩
    rintro ⟨piece, hmem, hblank⟩
    cases hline : ofLine? delimiter line with
    | none => rfl
    | some column =>
        obtain ⟨name, type, path, more, hsplit, ⟨hname, htype, hpath⟩, -⟩ := hkept column hline
        rw [hsplit] at hmem
        simp only [List.take_succ_cons, List.take_zero, List.mem_cons, List.not_mem_nil, or_false]
          at hmem
        rcases hmem with rfl | rfl | rfl
        · cases hname.symm.trans hblank
        · cases htype.symm.trans hblank
        · cases hpath.symm.trans hblank

theorem fields_kept_beside_more :
    let delimiter := "| ".toList
    let line := " id| Int32| $.id| the id| more| ".toList
    let column : Column := ⟨"id", "Int32", "$.id", "the id"⟩
    (delimiter ≠ [] ∧ ofLine? delimiter line = some column ∧ Text.TrimsOutside delimiter line ∧
      column.HasPieces (Text.splitOn delimiter line)) ∧
    (∃ piece ∈ (Text.splitOn ['|'] " |Int32|$.id".toList).take 3, Text.isBlankText piece = true) ∧
      ofLine? ['|'] " |Int32|$.id".toList = none := by
  intro delimiter line column
  have hdelimiter : delimiter ≠ [] := by decide
  have hline : ofLine? delimiter line = some column := by decide +kernel
  have hsplit : Text.splitOn delimiter line =
      [" id".toList, "Int32".toList, "$.id".toList, "the id".toList, "more".toList, []] := by
    decide +kernel
  have houtside : Text.TrimsOutside delimiter line := by
    refine ⟨.inl (by decide), .inr ?_⟩
    rw [hsplit]
    decide
  have hblank : ∃ piece ∈ (Text.splitOn ['|'] " |Int32|$.id".toList).take 3,
      Text.isBlankText piece = true := by decide +kernel
  exact ⟨⟨hdelimiter, hline, houtside,
      ((fields_kept_iff hdelimiter).1 line column hline).2 houtside⟩,
    hblank, (((fields_kept_iff (List.cons_ne_nil '|' [])).2.2 (by decide) _).2 hblank)⟩

theorem missing_name_shifts_fields :
    let line := "\tInt32\t$.id\tthe id".toList
    Text.splitOn ['\t'] line = [[], "Int32".toList, "$.id".toList, "the id".toList] ∧
      ofLine? ['\t'] line = some ⟨"Int32", "$.id", "the id", ""⟩ := by
  decide +kernel

end Column

end Tagmark
