import Tagmark.Proofs.Document.Print

/-!
A block that stands alone. The lines between its tags are its only content when they neither start
with a tag nor open a fence (`Document.parse_block`).
-/

namespace Tagmark

/-- A line that is content where no fence is open, and leaves none open. -/
structure Text.IsPlain (line : List Char) : Prop where
  not_tag : Line.startsWithTag ⟨line, .origin⟩ = false
  not_fence : Fence.ofLine? ⟨line, .origin⟩ = none

instance (line : List Char) : Decidable (Text.IsPlain line) :=
  decidable_of_iff
    (Line.startsWithTag ⟨line, .origin⟩ = false ∧ Fence.ofLine? ⟨line, .origin⟩ = none)
    ⟨fun ⟨htag, hfence⟩ => ⟨htag, hfence⟩, fun hplain => ⟨hplain.not_tag, hplain.not_fence⟩⟩

theorem Text.IsPlain.fence_next {line : List Char} (hplain : Text.IsPlain line) (point : Point) :
    Fence.next none ⟨line, point⟩ = none := by
  have halike := Fence.alike_ofLine? line point .origin
  rw [hplain.not_fence] at halike
  exact halike.eq_none

theorem Text.IsPlain.concat_newline {line : List Char} (hplain : Text.IsPlain line) :
    Text.IsPlain (line ++ ['\n']) := by
  constructor
  · cases hstart : Line.startsWithTag ⟨line ++ ['\n'], .origin⟩ with
    | false => rfl
    | true => exact (Line.startsWithTag_of_concat_newline hstart).symm.trans hplain.not_tag
  · exact (Fence.next_concat_newline none line .origin).trans hplain.not_fence

theorem Text.isPlain_of_blank {line : List Char} (hblank : Text.isBlankText line = true) :
    Text.IsPlain line := by
  constructor
  · rw [Line.startsWithTag, Text.trimStart_eq_nil_iff.2 hblank]
    rfl
  · rw [Fence.ofLine?, Text.trimEnd_eq_nil_iff.2 hblank]
    rfl

theorem Text.isPlain_of_mem_concat_newline {text : List Char}
    (hplain : ∀ line ∈ Text.splitLines text, Text.IsPlain line) :
    ∀ line ∈ Text.splitLines (text ++ ['\n']), Text.IsPlain line :=
  Text.forall_mem_splitLines_concat_newline (Text.isPlain_of_blank rfl)
    (fun _ hline => hline.concat_newline) hplain

theorem Scan.scan_plain {lines : List (List Char)} (hplain : ∀ line ∈ lines, Text.IsPlain line)
    (point : Point) (back : List (List Char)) :
    scan none none (Line.place point (lines ++ back)) =
      let after := scan none none (Line.place (point.advance lines.flatten) back)
      { after with items := (Line.place point lines).map .content ++ after.items } := by
  have hclosed : Fence.after none (Line.place point lines) = none := by
    induction lines generalizing point with
    | nil => rfl
    | cons line rest induction =>
        obtain ⟨hline, hrest⟩ := List.forall_mem_cons.1 hplain
        change Fence.after (Fence.next none ⟨line, point⟩) _ = none
        rw [hline.fence_next]
        exact induction hrest _
  have hfenced : ∀ before line after, lines = before ++ line :: after →
      Line.startsWithTag ⟨line, point⟩ = true →
        (Fence.after none (Line.place point before)).isSome = true := by
    rintro before line after rfl hstart
    have hline := hplain line (by simp)
    cases hstart.symm.trans hline.not_tag
  rw [scan_content hfenced, hclosed]

/-- The nodes of a body that starts at `point` and holds no tags. -/
def Node.ofBody (point : Point) (body : List Char) : List Node :=
  if Text.isBlankText body then []
  else
    let value := Text.dropLineEnd body
    [.content (String.ofList value) (.covering point value)]

theorem assemble_block (fence : Option Fence) (stack : List OpenTag) (nodes : List Node)
    (name : String) (attributes : KeyMap Value) (start point : Point) (body : List Char)
    (span : Span) (rest : List Mark) :
    assemble fence stack nodes (.opening name attributes start ::
        ((Mark.ofItem? (.content ⟨body, point⟩)).toList ++ .closing name span :: rest)) =
      assemble fence stack
        (.block ⟨name, attributes, false, ⟨start, span.stop⟩⟩ (Node.ofBody point body) :: nodes)
        rest := by
  rw [Mark.ofItem?, Node.ofBody]
  cases Text.isBlankText body with
  | true => simp [assemble]
  | false => simp [assemble]

theorem Scan.scan_block {first last : Header} {opening closing : List Char}
    (hopening : first.WrittenAs opening) (hclosing : last.WrittenAs closing)
    {body ending : List Char} (hended : body ≠ [] → body.getLast? = some '\n')
    (hplain : ∀ line ∈ Text.splitLines body, Text.IsPlain line)
    (hending : ending = [] ∨ ending = ['\n']) (point : Point) :
    ∃ before after : TokenGroup, before.header = .ok first ∧ after.header = .ok last ∧
      scan none none (Line.place point (Text.splitLines
          ((opening ++ ['\n']) ++ (body ++ (closing ++ ending))))) =
        ⟨.tag before :: ((Line.place (point.advance (opening ++ ['\n']))
          (Text.splitLines body)).map .content ++ [.tag after]), none⟩ := by
  have hnewline : Text.isBlankText ['\n'] = true := rfl
  have hblank : Text.isBlankText ending = true := by
    rcases hending with rfl | rfl <;> rfl
  have hfirst := Text.isLine_concat_newline hopening.one_line (body ++ (closing ++ ending))
  have hlast : Text.IsLine (closing ++ ending) [] := by
    rcases hending with rfl | rfl
    · exact hclosing.isLine
    · exact Text.isLine_concat_newline hclosing.one_line []
  have hsplit : Text.splitLines (body ++ (closing ++ ending)) =
      Text.splitLines body ++ Text.splitLines (closing ++ ending ++ []) := by
    rw [List.append_nil]
    by_cases hbody : body = []
    · rw [hbody]
      rfl
    · exact Text.splitLines_append_of_ended (hended hbody) _
  obtain ⟨before, hbefore, hfirstScan⟩ := scan_tagLine hopening hnewline hfirst point
  obtain ⟨after, hafter, hlastScan⟩ := scan_tagLine hclosing hblank hlast
    ((point.advance (opening ++ ['\n'])).advance body)
  refine ⟨before, after, hbefore, hafter, ?_⟩
  rw [hfirstScan, hsplit, scan_plain hplain, Text.flatten_splitLines, hlastScan]
  rfl

namespace Document

variable {name : String} {attributes : KeyMap Value} {opening closing : List Char}

theorem parse_block (hopening : (Header.opening name attributes false).WrittenAs opening)
    (hclosing : (Header.closing name).WrittenAs closing) {body ending : List Char}
    (hended : body ≠ [] → body.getLast? = some '\n')
    (hplain : ∀ line ∈ Text.splitLines body, Text.IsPlain line)
    (hending : ending = [] ∨ ending = ['\n']) :
    ∃ span, parse (String.ofList ((opening ++ ['\n']) ++ (body ++ (closing ++ ending)))) =
      .ok ⟨none, [.block ⟨name, attributes, false, span⟩
        (Node.ofBody (Point.origin.advance (opening ++ ['\n'])) body)]⟩ := by
  have hfirst := Text.isLine_concat_newline hopening.one_line (body ++ (closing ++ ending))
  have hcut : cutFrontmatter (Line.ofText
        ((opening ++ ['\n']) ++ (body ++ (closing ++ ending)))) =
      .ok (none, Line.ofText ((opening ++ ['\n']) ++ (body ++ (closing ++ ending)))) := by
    apply cutFrontmatter_of_head
    rw [Text.splitLines_append hfirst]
    intro line hmem
    cases hmem
    exact Line.not_hyphens_of_startsWithTag (hopening.startsWithTag ['\n'] .origin)
  obtain ⟨before, after, hbefore, hafter, hscan⟩ :=
    Scan.scan_block hopening hclosing hended hplain hending .origin
  have hlast : Mark.ofItems [.tag after] = [.closing name after.span] := by
    simp [Mark.ofItems, Mark.joinContent, Mark.ofItem?, hafter]
  have hapart : ∀ line rest, Mark.joinContent [.tag after] ≠ .content line :: rest := by
    intro line rest h
    cases h
  have hmarks : Mark.ofLines (Line.ofText
        ((opening ++ ['\n']) ++ (body ++ (closing ++ ending)))) =
      .opening name attributes before.span.start ::
        ((Mark.ofItem? (.content ⟨body, Point.origin.advance (opening ++ ['\n'])⟩)).toList ++
          [.closing name after.span]) := by
    have hrun := Mark.ofItems_run (Point.origin.advance (opening ++ ['\n'])) body hapart
    rw [hlast] at hrun
    rw [← hrun, Mark.ofLines, Scan.ofLines, Line.ofText, hscan]
    exact List.filterMap_cons_some (by simp [Mark.ofItem?, hbefore])
  refine ⟨⟨before.span.start, after.span.stop⟩, ?_⟩
  rw [parse_eq_map (by rwa [String.toList_ofList]), hmarks, assemble_block]
  rfl

end Document

/-- The text of a block: its opening tag with entries in the order of a list, the lines of its body,
and its closing tag. -/
def Header.block (name : String) (entries : List (String × Value)) (body ending : List Char) :
    List Char :=
  ('{' :: '%' :: insideOpening name entries false ++ ['\n']) ++
    (body ++ ((closing name).write ++ ending))

theorem Document.parse_writtenBlock {name : String} (hname : Text.isName name = true)
    {entries : List (String × Value)}
    (hentries : ∀ entry ∈ entries, Text.isName entry.1 = true ∧ entry.2.isWritable = true)
    {body ending : List Char} (hended : body ≠ [] → body.getLast? = some '\n')
    (hplain : ∀ line ∈ Text.splitLines body, Text.IsPlain line)
    (hending : ending = [] ∨ ending = ['\n']) :
    ∃ span point, parse (String.ofList (Header.block name entries body ending)) =
      .ok ⟨none, [.block ⟨name, .ofList entries, false, span⟩ (Node.ofBody point body)]⟩ := by
  have hopening := Header.writtenAs_opening hname hentries false
  have hclosing : (Header.closing name).WrittenAs (Header.closing name).write :=
    Header.writtenAs_write hname
  obtain ⟨span, hparse⟩ := parse_block hopening hclosing hended hplain hending
  exact ⟨span, _, hparse⟩

end Tagmark
