import Tagmark.Document.Tree
import Tagmark.Proofs.Tag.Frame
import Tagmark.Proofs.Text.Split

/-!
Lines at their places and the cut between frontmatter and body. The lines of the body are those
after the block of the frontmatter (`Document.cutFrontmatter_eq_ok`).
-/

namespace Tagmark

namespace Line

theorem endsInTag_of_closed (front : List Char) {text : List Char}
    (htext : Text.cut? ['{', '%'] text = none) (point : Point) :
    endsInTag ⟨front ++ '%' :: '}' :: text, point⟩ = false := by
  unfold endsInTag
  split
  · rfl
  · next found hlast =>
      obtain ⟨before, tail, hwhole, hfound⟩ := Text.exists_of_lastFrom? hlast
      have hcontains : Text.contains ['%', '}'] found = true := by
        rcases List.append_eq_append_iff.1 hwhole with ⟨more, -, hmore⟩ | ⟨more, -, hmore⟩
        · rw [hfound] at hmore
          match more, hmore with
          | [], hmore => cases hmore
          | [_], hmore => cases hmore
          | _ :: _ :: more, hmore =>
              obtain ⟨-, hrest⟩ := List.cons.inj hmore
              obtain ⟨-, rfl⟩ := List.cons.inj hrest
              have hopening := Text.contains_append ['{', '%'] more tail
              unfold Text.contains at hopening
              rw [show Text.cut? _ (more ++ (['{', '%'] ++ tail)) = none from htext] at hopening
              cases hopening
        · rw [hmore]
          exact Text.contains_append ['%', '}'] more text
      rw [hcontains]
      rfl

theorem endsInTag_append {text found : List Char} (front : List Char)
    (hlast : Text.lastFrom? ['{', '%'] text = some found) (point point' : Point) :
    endsInTag ⟨front ++ text, point⟩ = endsInTag ⟨text, point'⟩ := by
  unfold endsInTag
  rw [Text.lastFrom?_append front hlast, hlast]

theorem endsInTag_opening (front text : List Char) (point point' : Point) :
    endsInTag ⟨front ++ '{' :: '%' :: text, point⟩ = endsInTag ⟨'{' :: '%' :: text, point'⟩ := by
  cases hlast : Text.lastFrom? ['{', '%'] ('{' :: '%' :: text) with
  | some found => exact endsInTag_append front hlast point point'
  | none =>
      have hcut := Text.cut?_eq_none_of_lastFrom? (List.cons_ne_nil _ _) hlast
      rw [Text.cut?_opening] at hcut
      cases hcut

theorem endsInTag_closing (front other text : List Char) (point point' : Point) :
    endsInTag ⟨front ++ '%' :: '}' :: text, point⟩ =
      endsInTag ⟨other ++ '%' :: '}' :: text, point'⟩ := by
  cases hlast : Text.lastFrom? ['{', '%'] text with
  | some found =>
      have hfront := endsInTag_append (front ++ ['%', '}']) hlast point point
      have hother := endsInTag_append (other ++ ['%', '}']) hlast point' point
      rw [List.append_assoc] at hfront hother
      exact hfront.trans hother.symm
  | none =>
      have hcut := Text.cut?_eq_none_of_lastFrom? (List.cons_ne_nil _ _) hlast
      rw [endsInTag_of_closed front hcut, endsInTag_of_closed other hcut]

theorem startsWithTag_iff {text : List Char} {point : Point} :
    startsWithTag ⟨text, point⟩ = true ↔
      ∃ gap rest, Text.isBlankText gap = true ∧ text = gap ++ '{' :: '%' :: rest := by
  unfold startsWithTag Text.trimStart
  constructor
  · intro hstart
    obtain ⟨rest, hrest⟩ := List.isPrefixOf_iff_prefix.1 hstart
    refine ⟨text.takeWhile Text.isBlank, rest, ?_, ?_⟩
    · exact List.all_takeWhile
    · calc
        text = text.takeWhile Text.isBlank ++ text.dropWhile Text.isBlank :=
          List.takeWhile_append_dropWhile.symm
        _ = text.takeWhile Text.isBlank ++ '{' :: '%' :: rest := by
          rw [← hrest]
          rfl
  · rintro ⟨gap, rest, hgap, rfl⟩
    have hdrop : (gap ++ '{' :: '%' :: rest).dropWhile Text.isBlank = '{' :: '%' :: rest := by
      rw [List.dropWhile_append_of_pos (fun c hmem => List.all_eq_true.1 hgap c hmem)]
      rfl
    rw [hdrop]
    rfl

theorem not_hyphens_of_startsWithTag {line : List Char} {point : Point}
    (hstart : startsWithTag ⟨line, point⟩ = true) : Text.trimEnd line ≠ ['-', '-', '-'] := by
  obtain ⟨gap, rest, -, rfl⟩ := startsWithTag_iff.1 hstart
  intro hhyphens
  have hmem : '{' ∈ (gap ++ '{' :: '%' :: rest).reverse := by simp
  have hsplit := List.takeWhile_append_dropWhile (p := Text.isBlank)
    (l := (gap ++ '{' :: '%' :: rest).reverse)
  rw [← hsplit, List.mem_append] at hmem
  rcases hmem with hblank | hkept
  · exact absurd (List.all_eq_true.1 List.all_takeWhile _ hblank) (by decide)
  · have htrimmed : '{' ∈ Text.trimEnd (gap ++ '{' :: '%' :: rest) := List.mem_reverse.2 hkept
    rw [hhyphens] at htrimmed
    exact absurd htrimmed (by decide)

theorem startsWithTag_append {text : List Char} {point : Point} (more : List Char)
    (hstart : startsWithTag ⟨text, point⟩ = true) :
    startsWithTag ⟨text ++ more, point⟩ = true := by
  obtain ⟨gap, rest, hgap, rfl⟩ := startsWithTag_iff.1 hstart
  refine startsWithTag_iff.2 ⟨gap, rest ++ more, hgap, ?_⟩
  rw [List.append_assoc, List.cons_append, List.cons_append]

theorem startsWithTag_opening (front text other : List Char) (point : Point) :
    startsWithTag ⟨front ++ '{' :: '%' :: text, point⟩ =
      startsWithTag ⟨front ++ '{' :: '%' :: other, point⟩ := by
  have hbrace : Text.isBlank '{' = false := by decide
  unfold startsWithTag Text.trimStart
  rw [Lexeme.dropWhile_append_cons hbrace, Lexeme.dropWhile_append_cons hbrace]
  rcases front.dropWhile Text.isBlank with _ | ⟨c, _ | ⟨d, rest⟩⟩
  · rfl
  · rfl
  · rfl

theorem startsWithTag_of_concat_newline {text : List Char} {point : Point}
    (hstart : startsWithTag ⟨text ++ ['\n'], point⟩ = true) :
    startsWithTag ⟨text, point⟩ = true := by
  obtain ⟨gap, rest, hgap, htext⟩ := startsWithTag_iff.1 hstart
  rcases List.eq_nil_or_concat rest with rfl | ⟨before, last, rfl⟩
  · have hlast := congrArg List.getLast? htext
    simp at hlast
  · have hsplit : text ++ ['\n'] = (gap ++ '{' :: '%' :: before) ++ [last] := by
      rw [htext]
      simp
    obtain ⟨hfront, -⟩ := List.append_inj' hsplit rfl
    exact startsWithTag_iff.2 ⟨gap, before, hgap, hfront⟩

theorem place_append (point : Point) (front back : List (List Char)) :
    place point (front ++ back) =
      place point front ++ place (point.advance front.flatten) back := by
  induction front generalizing point with
  | nil => rfl
  | cons line rest induction =>
      rw [List.cons_append, place, place, induction, List.flatten_cons, Point.advance_append]
      rfl

theorem cutAtFence?_place {point : Point} {raw body : List (List Char)} {fence : List Char}
    (hraw : ∀ line ∈ raw, Text.trimEnd line ≠ ['-', '-', '-'])
    (hfence : Text.trimEnd fence = ['-', '-', '-']) :
    cutAtFence? (place point (raw ++ fence :: body)) =
      some (place point raw, place (point.advance (raw.flatten ++ fence)) body) := by
  induction raw generalizing point with
  | nil => simp [place, cutAtFence?, isFrontmatterFence, hfence]
  | cons line rest induction =>
      obtain ⟨hline, hrest⟩ := List.forall_mem_cons.1 hraw
      rw [List.cons_append, place, cutAtFence?, induction hrest]
      simp [isFrontmatterFence, hline, place, Point.advance_append]

theorem exists_of_cutAtFence? {point : Point} {texts : List (List Char)} {before after : List Line}
    (hcut : cutAtFence? (place point texts) = some (before, after)) :
    ∃ raw fence body, texts = raw ++ fence :: body ∧ before = place point raw ∧
      (∀ line ∈ raw, Text.trimEnd line ≠ ['-', '-', '-']) ∧
      Text.trimEnd fence = ['-', '-', '-'] ∧
      after = place (point.advance (raw.flatten ++ fence)) body := by
  induction texts generalizing point before after with
  | nil => cases hcut
  | cons line rest induction =>
      by_cases hline : Text.trimEnd line = ['-', '-', '-']
      · have hhere : cutAtFence? (place point ([] ++ line :: rest)) = _ :=
          cutAtFence?_place (by simp) hline
        cases hcut.symm.trans hhere
        exact ⟨[], line, rest, rfl, rfl, by simp, hline, rfl⟩
      · rw [place, cutAtFence?] at hcut
        simp only [isFrontmatterFence, beq_iff_eq, hline, if_false] at hcut
        obtain ⟨⟨before', after'⟩, hrest, heq⟩ := Option.map_eq_some_iff.1 hcut
        cases heq
        obtain ⟨raw, fence, body, rfl, rfl, hraw, hfence, rfl⟩ := induction hrest
        refine ⟨line :: raw, fence, body, rfl, rfl, ?_, hfence, ?_⟩
        · exact List.forall_mem_cons.2 ⟨hline, hraw⟩
        · rw [List.flatten_cons, List.append_assoc, Point.advance_append point line]

end Line

namespace Document

/-- The lines at the head of a document with the given frontmatter: none, or a fence, the lines of
the frontmatter and the next fence. -/
inductive Heads : Option String → List (List Char) → Prop
  | none : Heads none []
  | some {opening closing : List Char} {raw : List (List Char)}
      (hopening : Text.trimEnd opening = ['-', '-', '-'])
      (hraw : ∀ line ∈ raw, Text.trimEnd line ≠ ['-', '-', '-'])
      (hclosing : Text.trimEnd closing = ['-', '-', '-']) :
      Heads (some (String.ofList (Text.dropLineEnd raw.flatten))) (opening :: (raw ++ [closing]))

theorem cutFrontmatter_of_heads {text : List Char} {frontmatter : Option String}
    {block lines : List (List Char)} (hheads : Heads frontmatter block)
    (hsplit : Text.splitLines text = block ++ lines)
    (hnone : frontmatter = none → ∀ line ∈ lines.head?, Text.trimEnd line ≠ ['-', '-', '-']) :
    cutFrontmatter (Line.ofText text) =
      .ok (frontmatter, Line.place (Point.origin.advance block.flatten) lines) := by
  unfold Line.ofText
  rw [hsplit]
  cases hheads with
  | none =>
      cases lines with
      | nil => rfl
      | cons first rest =>
          have hfirst : Line.isFrontmatterFence ⟨first, Point.origin⟩ = false :=
            beq_eq_false_iff_ne.2 (hnone rfl first rfl)
          rw [List.nil_append, Line.place, cutFrontmatter, hfirst]
          rfl
  | @some opening closing raw hopening hraw hclosing =>
      have hfirst : Line.isFrontmatterFence ⟨opening, Point.origin⟩ = true := beq_iff_eq.2 hopening
      rw [List.cons_append, List.append_assoc, List.singleton_append, Line.place, cutFrontmatter,
        if_pos hfirst, Line.cutAtFence?_place hraw hclosing]
      dsimp only
      rw [Line.flatten_place, List.flatten_cons, List.flatten_concat, Point.advance_append _ opening]

theorem cutFrontmatter_eq_ok {text : List Char} {frontmatter : Option String} {body : List Line}
    (hcut : cutFrontmatter (Line.ofText text) = .ok (frontmatter, body)) :
    ∃ block lines, Text.splitLines text = block ++ lines ∧ Heads frontmatter block ∧
      body = Line.place (Point.origin.advance block.flatten) lines := by
  unfold Line.ofText at hcut
  cases hsplit : Text.splitLines text with
  | nil =>
      rw [hsplit] at hcut
      cases hcut
      exact ⟨[], [], rfl, .none, rfl⟩
  | cons first rest =>
      rw [hsplit, Line.place, cutFrontmatter] at hcut
      split at hcut
      · next hfirst =>
          split at hcut
          · cases hcut
          · next before after hfence =>
              cases hcut
              obtain ⟨raw, fence, lines, rfl, rfl, hraw, hclosing, rfl⟩ :=
                Line.exists_of_cutAtFence? hfence
              have hopening : Text.trimEnd first = ['-', '-', '-'] := by
                simpa [Line.isFrontmatterFence] using hfirst
              refine ⟨first :: (raw ++ [fence]), lines, ?_, ?_, ?_⟩
              · rw [List.cons_append, List.append_assoc, List.singleton_append]
              · rw [Line.flatten_place]
                exact .some hopening hraw hclosing
              · rw [List.flatten_cons, List.flatten_concat, Point.advance_append _ first]
      · cases hcut
        exact ⟨[], first :: rest, rfl, .none, rfl⟩

end Document

end Tagmark
