import Tagmark.Proofs.Document.Front
import Tagmark.Proofs.Tag.Flaws

/-!
Tags that never end. When no closing delimiter follows the opening one, the tag is read to the end of
the document. It is reported as not terminated exactly when everything it takes in on the way is
tokens; any other text is reported first (`Document.parse_unterminated`).
-/

namespace Tagmark

/-- A tag line that has come to the opening delimiter of another tag: `before` is what stands on it so
far, with all its tags complete. It may go over newlines that are in these tags. -/
structure Line.UpToTag (point : Point) (before : List Char) : Prop where
  starts : startsWithTag ⟨before ++ ['{', '%'], point⟩ = true
  pending : ∀ front behind, before = front ++ '\n' :: behind →
    endsInTag ⟨front ++ ['\n'], point⟩ = true
  complete : ∃ cut, segments point before = .ok cut

variable {point : Point} {before after : List Char}

theorem Line.exists_brace_of_closed {body : List Char}
    (hunclosed : Text.contains ['%', '}'] body = false)
    (hclosed : endsInTag ⟨'{' :: '%' :: body, point⟩ = false) : ∃ rest, body = '}' :: rest := by
  cases body with
  | nil =>
      have hopen : endsInTag ⟨['{', '%'], point⟩ = true := endsInTag_of_unclosed rfl point
      cases hopen.symm.trans hclosed
  | cons c rest =>
      by_cases hc : c = '}'
      · exact ⟨rest, by rw [hc]⟩
      · have hprefix : ['%', '}'].isPrefixOf? ('%' :: c :: rest) = none := by
          simp [Text.isPrefixOf?_cons, Ne.symm hc]
        have hnone : Text.contains ['%', '}'] ('{' :: '%' :: c :: rest) = false := by
          rw [Text.contains, Option.isSome_eq_false_iff, Option.isNone_iff_eq_none] at hunclosed ⊢
          rw [Text.cut?_cons_of_ne (by decide), Text.cut?, hprefix]
          dsimp only
          rw [hunclosed]
          rfl
        cases (endsInTag_of_unclosed hnone point).symm.trans hclosed

theorem readTag_brace (start place : Point) (rest : List Char) :
    readTag start place ('}' :: rest) = .error (.invalidTag (.strayText "\x7d") place) :=
  readTag_error rfl rfl

/-- The lines that are gathered for a tag that never ends. They are all lines that are left, or a
brace behind the opening delimiter has it taken for closed; either way the tag reads the same. -/
theorem Line.UpToTag.exists_gathered (hline : UpToTag point before)
    (hunclosed : Text.contains ['%', '}'] after = false) :
    ∃ text rest, after = text ++ rest ∧ Gathered point (before ++ '{' :: '%' :: text) rest ∧
      ∀ start place, readTag start place text = readTag start place after := by
  by_cases hopen : StaysOpen after
  · refine ⟨after, [], (List.append_nil _).symm, ⟨?_, fun hne => absurd rfl hne⟩, fun _ _ => rfl⟩
    apply pending_opening hline.pending
    intro front behind hafter _
    rw [endsInTag_opening before _ point .origin]
    exact hopen front behind hafter
  · obtain ⟨seen, unseen, rfl, hseen, hclosed⟩ := exists_first_closed hopen
    have hsplit : seen ++ '\n' :: unseen = (seen ++ ['\n']) ++ unseen := by simp
    rw [hsplit] at hunclosed ⊢
    rw [Text.contains, Option.isSome_eq_false_iff, Option.isNone_iff_eq_none] at hunclosed
    have hfront : Text.contains ['%', '}'] (seen ++ ['\n']) = false := by
      rw [Text.contains, Text.cut?_of_append hunclosed]
      rfl
    refine ⟨seen ++ ['\n'], unseen, rfl, gathered_of_first_closed hline.pending hseen hclosed unseen,
      ?_⟩
    obtain ⟨rest, hbrace⟩ := exists_brace_of_closed hfront hclosed
    intro start place
    rw [hbrace, List.cons_append, readTag_brace, readTag_brace]

namespace Document

variable {front : List Char}

theorem LeadsToTag.parse_unclosed (hfront : LeadsToTag front)
    (hline : Line.UpToTag (Point.origin.advance front) before)
    (hunclosed : Text.contains ['%', '}'] after = false) {fault : Fault}
    (hread : readTag (Point.origin.advance (front ++ before))
      ((Point.origin.advance (front ++ before)).advance ['{', '%']) after = .error fault) :
    parse (String.ofList (front ++ (before ++ '{' :: '%' :: after))) = .error fault := by
  obtain ⟨text, rest, rfl, hgathered, hsame⟩ := hline.exists_gathered hunclosed
  obtain ⟨cut, hcut⟩ := hline.complete
  have hstart : Line.startsWithTag ⟨before ++ '{' :: '%' :: text, Point.origin.advance front⟩ =
      true := by
    rw [Line.startsWithTag_opening before text []]
    exact hline.starts
  have hsegments : segments (Point.origin.advance front) (before ++ '{' :: '%' :: text) =
      .error fault := by
    rw [Point.advance_append, ← hsame] at hread
    rw [Segment.leadTo_of_segments hcut text, hread]
    rfl
  have hparse := hfront.parse_fault rest hgathered hstart hsegments
  rwa [List.append_assoc] at hparse

/-- A tag behind which no closing delimiter stands is reported as not terminated, at its opening
delimiter, exactly when the text behind it is made of tokens to the end of the document. Otherwise the
report is of the first lexeme there that is no token. -/
theorem parse_unterminated (hfront : LeadsToTag front)
    (hline : Line.UpToTag (Point.origin.advance front) before)
    (hunclosed : Text.contains ['%', '}'] after = false) :
    let start := Point.origin.advance (front ++ before)
    let text := String.ofList (front ++ (before ++ '{' :: '%' :: after))
    (Text.IsTokens after ↔ parse text = .error (.unterminatedTag start)) ∧
      (¬ Text.IsTokens after → ∃ (flaw : TagFlaw) (lexeme : Lexeme) (place : Point),
        lexeme.StandsAt place (start.advance ['{', '%']) after ∧ lexeme.token = .error flaw ∧
          parse text = .error (.invalidTag flaw place)) := by
  intro start text
  rcases readTag_of_unclosed start (start.advance ['{', '%']) hunclosed with
    ⟨htokens, hread⟩ | ⟨hstray, flaw, lexeme, place, hstands, hflaw, hread⟩
  · have hparse := hfront.parse_unclosed hline hunclosed hread
    exact ⟨⟨fun _ => hparse, fun _ => htokens⟩, fun hstray => absurd htokens hstray⟩
  · have hparse := hfront.parse_unclosed hline hunclosed hread
    refine ⟨⟨fun htokens => absurd htokens hstray, fun hother => ?_⟩,
      fun _ => ⟨flaw, lexeme, place, hstands, hflaw, hparse⟩⟩
    cases hparse.symm.trans hother

theorem parse_unterminated_in_block :
    let front := "---\nt\n---\n\x7b% a %\x7d\n```\n```\n".toList
    let before := " \x7b% b /%\x7d x ".toList
    let after := [' ', 'c', ' ', 'k', '=', '\'', '1', '\n', '\'', '\n']
    LeadsToTag front ∧ Line.UpToTag (Point.origin.advance front) before ∧
      Text.contains ['%', '}'] after = false ∧
      parse (String.ofList (front ++ (before ++ '{' :: '%' :: after))) =
        .error (.unterminatedTag ⟨7, 13, 38⟩) := by
  intro front before after
  have hparse : parse (String.ofList front) = .error (.unclosedTag "a" ⟨4, 1, 10⟩) :=
    parse_of_fault? (by decide +kernel)
  have hfront := leadsToTag_of_unclosed hparse (by decide +kernel) (by decide +kernel)
  have hcut : (segments (Point.origin.advance front) before).toOption.isSome = true := by
    decide +kernel
  have hnewline : '\n' ∉ before := by decide +kernel
  have hline : Line.UpToTag (Point.origin.advance front) before := by
    refine ⟨by decide +kernel, fun seen unseen hbefore => ?_, ?_⟩
    · exact absurd (by simp [hbefore]) hnewline
    · cases hsegments : segments (Point.origin.advance front) before with
      | ok cut => exact ⟨cut, rfl⟩
      | error fault =>
          rw [hsegments] at hcut
          cases hcut
  have hunclosed : Text.contains ['%', '}'] after = false := by decide +kernel
  have htokens : Text.IsTokens after :=
    .cons rfl rfl (.cons rfl rfl (.cons rfl rfl (.cons rfl rfl (.cons rfl rfl (.cons rfl rfl
      (.cons rfl rfl .nil))))))
  have hplace : Point.origin.advance (front ++ before) = ⟨7, 13, 38⟩ := by decide +kernel
  have hreport := (parse_unterminated hfront hline hunclosed).1.1 htokens
  rw [hplace] at hreport
  exact ⟨hfront, hline, hunclosed, hreport⟩

theorem stray_text_before_unterminated :
    let after := " query name=\"q\"\nselect * from t\n".toList
    LeadsToTag [] ∧ Line.UpToTag .origin [] ∧ Text.contains ['%', '}'] after = false ∧
      parse (String.ofList ('{' :: '%' :: after)) =
        .error (.invalidTag (.strayText "*") ⟨2, 8, 25⟩) ∧
      parse (String.ofList ('{' :: '%' :: after)) ≠ .error (.unterminatedTag .origin) := by
  intro after
  have hempty : parse (String.ofList []) = .ok ⟨none, []⟩ := rfl
  have hfront : LeadsToTag [] := by
    refine ⟨fun hne => absurd rfl hne, by decide +kernel, fun fault hfault => ?_⟩
    cases hempty.symm.trans hfault
  have hline : Line.UpToTag .origin [] :=
    ⟨by decide +kernel, fun _ _ hbefore => by simp at hbefore, [], by decide +kernel⟩
  have hparse : parse (String.ofList ('{' :: '%' :: after)) =
      .error (.invalidTag (.strayText "*") ⟨2, 8, 25⟩) :=
    parse_of_fault? (by decide +kernel)
  refine ⟨hfront, hline, by decide +kernel, hparse, ?_⟩
  rw [hparse]
  exact fun h => by cases h

end Document

end Tagmark
