import Tagmark.Proofs.Document.Reading
import Tagmark.Proofs.Tag.Retelling

/-!
Documents told again with other line ends. Fences, gathered tags, items and marks are the same under
a view that does not see the ends of lines, and so are documents (`Retelling.parse_tell`).
-/

namespace Tagmark

open Text (endLines IsEnding)

namespace Retelling

variable (told : Retelling)

structure SameLine (left right : Line) : Prop where
  text : right.text = told.tell left.text
  start : told.place left.start = told.place right.start
  suits : told.Suits left.text

structure SameFence (left right : Option Fence) : Prop where
  seen : left.map told.fence = right.map told.fence
  inner : ∀ fence ∈ left, Text.IsInner fence.mark

theorem unindent?_tell (text : List Char) :
    Fence.unindent? (told.tell text) = (Fence.unindent? text).map told.tell := by
  unfold Fence.unindent? tell
  rw [Text.takeWhile_endLines_of_false told.isEnding (by decide) (by decide),
    Text.dropWhile_endLines told.isEnding (by decide)]
  split <;> rfl

theorem run?_tell {mark : Char} (hmark : Text.IsInner mark) (text : List Char) :
    Fence.run? mark (told.tell text) = Fence.run? mark text := by
  have hnewline : ('\n' == mark) = false := beq_false_of_ne (Ne.symm hmark.1)
  have hreturn : ('\r' == mark) = false := beq_false_of_ne (Ne.symm hmark.2)
  unfold Fence.run?
  rw [unindent?_tell]
  cases Fence.unindent? text with
  | none => rfl
  | some unindented =>
      have htick : (endLines told.ending (unindented.dropWhile (· == mark))).contains '`' =
          (unindented.dropWhile (· == mark)).contains '`' := by
        rw [Bool.eq_iff_iff, List.contains_iff_mem, List.contains_iff_mem]
        exact Text.mem_endLines told.isEnding (by decide)
      have hruns : ((told.tell unindented).takeWhile (· == mark)) =
          unindented.takeWhile (· == mark) :=
        Text.takeWhile_endLines_of_false told.isEnding hnewline hreturn unindented
      have hafter : (told.tell unindented).drop (unindented.takeWhile (· == mark)).length =
          endLines told.ending (unindented.dropWhile (· == mark)) := by
        rw [← hruns, Text.drop_takeWhile, tell,
          Text.dropWhile_endLines told.isEnding (hreturn.trans hnewline.symm)]
      simp only [Option.map_some, Option.bind_eq_bind, Option.bind_some]
      rw [hruns, hafter, htick, Text.drop_takeWhile]

variable {told} {left right : Line}

theorem SameLine.trimEnd (hline : told.SameLine left right) :
    Text.trimEnd right.text = told.tell (Text.trimEnd left.text) := by
  rw [hline.text]
  exact Text.trimEnd_endLines told.isEnding left.text

theorem SameLine.ofLine? (hline : told.SameLine left right) :
    told.SameFence (Fence.ofLine? left) (Fence.ofLine? right) := by
  unfold Fence.ofLine?
  dsimp only
  rw [hline.trimEnd, told.run?_tell (by decide), told.run?_tell (by decide)]
  cases Fence.run? '`' (Text.trimEnd left.text) with
  | some length =>
      refine ⟨?_, ?_⟩
      · simp [View.fence, hline.start]
      · simp [Text.IsInner]
  | none =>
      cases Fence.run? '~' (Text.trimEnd left.text) with
      | none => exact ⟨rfl, by simp⟩
      | some length =>
          refine ⟨?_, ?_⟩
          · simp [View.fence, hline.start]
          · simp [Text.IsInner]

theorem SameLine.closedBy (hline : told.SameLine left right) {fence other : Fence}
    (hfence : told.fence fence = told.fence other) (hinner : Text.IsInner fence.mark) :
    other.closedBy right = fence.closedBy left := by
  obtain ⟨hmark, hlength⟩ : fence.mark = other.mark ∧ fence.length = other.length := by
    injection hfence with hmark hlength
    exact ⟨hmark, hlength⟩
  have hnewline : ('\n' == fence.mark) = false := beq_false_of_ne (Ne.symm hinner.1)
  have hreturn : ('\r' == fence.mark) = false := beq_false_of_ne (Ne.symm hinner.2)
  unfold Fence.closedBy
  rw [hline.trimEnd, told.unindent?_tell, ← hmark, ← hlength]
  cases Fence.unindent? (Text.trimEnd left.text) with
  | none => rfl
  | some unindented =>
      simp only [Option.map_some, tell]
      rw [Text.takeWhile_endLines_of_false told.isEnding hnewline hreturn,
        Text.dropWhile_endLines told.isEnding (hreturn.trans hnewline.symm),
        Text.isBlankText_endLines told.isEnding]

theorem SameFence.isSome_eq {fence other : Option Fence} (hfence : told.SameFence fence other) :
    fence.isSome = other.isSome := by
  have hsome := congrArg Option.isSome hfence.seen
  rwa [Option.isSome_map, Option.isSome_map] at hsome

theorem SameFence.next {fence other : Option Fence} (hfence : told.SameFence fence other)
    (hline : told.SameLine left right) :
    told.SameFence (Fence.next fence left) (Fence.next other right) := by
  obtain ⟨hseen, hinner⟩ := hfence
  cases fence with
  | none =>
      obtain rfl := Option.map_eq_none_iff.1 hseen.symm
      exact hline.ofLine?
  | some fence =>
      obtain ⟨other, rfl, hother⟩ := Option.map_eq_some_iff.1 hseen.symm
      have hclosed := hline.closedBy hother.symm (hinner fence rfl)
      unfold Fence.next
      dsimp only
      rw [hclosed]
      split
      · exact ⟨rfl, by simp⟩
      · exact ⟨hseen, hinner⟩

theorem SameLine.append {next other : Line} (hline : told.SameLine left right)
    (hnext : told.SameLine next other) :
    told.SameLine (left.append next) (right.append other) := by
  refine ⟨?_, hline.start, told.suits_append.2 ⟨hline.suits, hnext.suits⟩⟩
  rw [Line.append, hline.text, hnext.text, ← told.tell_append]
  rfl

theorem SameLine.startsWithTag (hline : told.SameLine left right) :
    right.startsWithTag = left.startsWithTag := by
  have hinner : ∀ c ∈ ['{', '%'], Text.IsInner c := by simp [Text.IsInner]
  unfold Line.startsWithTag Text.trimStart
  rw [hline.text, tell, Text.dropWhile_endLines told.isEnding (by decide),
    Text.isPrefixOf_endLines told.isEnding hinner]

theorem SameLine.endsInTag (hline : told.SameLine left right) :
    right.endsInTag = left.endsInTag := by
  have hopening : ∀ c ∈ ['{', '%'], Text.IsInner c := by simp [Text.IsInner]
  have hclosing : ∀ c ∈ ['%', '}'], Text.IsInner c := by simp [Text.IsInner]
  unfold Line.endsInTag
  rw [hline.text, tell, Text.lastFrom?_endLines told.isEnding hopening]
  cases Text.lastFrom? ['{', '%'] left.text with
  | none => rfl
  | some rest => exact congrArg not (Text.contains_endLines told.isEnding hclosing rest)

variable (told) in
inductive SameItem : Item → Item → Prop
  | content {left right : Line} (hline : told.SameLine left right) :
      SameItem (.content left) (.content right)
  | tag {left right : TokenGroup} (hsame : told.SameGroup left right) :
      SameItem (.tag left) (.tag right)
  | fault {left right : Fault} (hsame : told.fault left = told.fault right) :
      SameItem (.fault left) (.fault right)

theorem sameItems_of_segments {cut cut' : List Segment}
    (hcut : List.Forall₂ told.SameSegment cut cut') :
    List.Forall₂ told.SameItem (Segment.items cut) (Segment.items cut') := by
  induction hcut with
  | nil => exact .nil
  | cons hsegment _ induction =>
      cases hsegment with
      | tag hsame => exact .cons (.tag hsame) induction
      | text hsuits hplace =>
          rw [Segment.items, Segment.items, tell, Text.isBlankText_endLines told.isEnding]
          split
          · exact induction
          · exact .cons (.content ⟨rfl, hplace, hsuits⟩) induction

theorem SameFence.after {fence other : Option Fence} (hfence : told.SameFence fence other)
    {items items' : List Item} (hitems : List.Forall₂ told.SameItem items items') :
    told.SameFence (Item.fenceAfter fence items) (Item.fenceAfter other items') := by
  induction hitems generalizing fence other with
  | nil => exact hfence
  | cons hitem _ induction =>
      cases hitem with
      | content hline => exact induction (hfence.next hline)
      | tag | fault => exact induction hfence

variable (told) in
structure SameScan (left right : Scan) : Prop where
  items : List.Forall₂ told.SameItem left.items right.items
  fence : told.SameFence left.fence right.fence

section Scan

variable {fence other : Option Fence}

theorem sameScan_ofTagLine (hfence : told.SameFence fence other)
    (hline : told.SameLine left right) {next next' : Option Fence → Scan}
    (hnext : ∀ {fence other}, told.SameFence fence other →
      told.SameScan (next fence) (next' other)) :
    told.SameScan (Scan.ofTagLine fence next left) (Scan.ofTagLine other next' right) := by
  have hcut := told.segments_tell hline.start hline.suits
  rw [← hline.text] at hcut
  unfold Scan.ofTagLine
  generalize segments left.start left.text = cut at hcut
  generalize segments right.start right.text = cut' at hcut
  cases hcut with
  | error hfault => exact ⟨.cons (.fault hfault) .nil, hfence⟩
  | ok hcut =>
      have hitems := sameItems_of_segments hcut
      obtain ⟨hrest, hafter⟩ := hnext (hfence.after hitems)
      dsimp only
      rw [Scan.ofSegments_eq, Scan.ofSegments_eq]
      exact ⟨List.rel_append hitems hrest, hafter⟩

theorem sameScan_scan {lines lines' : List Line}
    (hlines : List.Forall₂ told.SameLine lines lines') :
    (∀ {fence other}, told.SameFence fence other →
      told.SameScan (Scan.scan fence none lines) (Scan.scan other none lines')) ∧
    ∀ {fence other left right}, told.SameFence fence other → told.SameLine left right →
      told.SameScan (Scan.scan fence (some left) lines)
        (Scan.scan other (some right) lines') := by
  have hdone : ∀ {fence other}, told.SameFence fence other →
      told.SameScan ⟨[], fence⟩ ⟨[], other⟩ := fun hfence => ⟨.nil, hfence⟩
  induction hlines with
  | nil => exact ⟨hdone, fun hfence hline => sameScan_ofTagLine hfence hline hdone⟩
  | cons hline hrest induction =>
      obtain ⟨hfresh, hgathering⟩ := induction
      constructor
      · intro fence other hfence
        rw [Scan.scan, Scan.scan, hfence.isSome_eq, hline.startsWithTag, hline.endsInTag]
        dsimp only
        split
        · obtain ⟨hitems, hafter⟩ := hfresh (hfence.next hline)
          exact ⟨.cons (.content hline) hitems, hafter⟩
        · split
          · exact hgathering hfence hline
          · exact sameScan_ofTagLine hfence hline hfresh
      · intro fence other before before' hfence hbefore
        have happend := hbefore.append hline
        rw [Scan.scan, Scan.scan, happend.endsInTag]
        split
        · exact hgathering hfence happend
        · exact sameScan_ofTagLine hfence happend hfresh

end Scan

theorem sameItems_joinContent {items items' : List Item}
    (hitems : List.Forall₂ told.SameItem items items') :
    List.Forall₂ told.SameItem (Mark.joinContent items) (Mark.joinContent items') := by
  induction hitems with
  | nil => exact .nil
  | cons hitem _ induction =>
      cases hitem with
      | tag hsame => exact .cons (.tag hsame) induction
      | fault hsame => exact .cons (.fault hsame) induction
      | content hline =>
          rw [Mark.joinContent, Mark.joinContent]
          generalize Mark.joinContent _ = joined at induction
          generalize Mark.joinContent _ = joined' at induction
          cases induction with
          | nil => exact .cons (.content hline) .nil
          | cons hnext hafter =>
              cases hnext with
              | content hnext => exact .cons (.content (hline.append hnext)) hafter
              | tag hsame => exact .cons (.content hline) (.cons (.tag hsame) hafter)
              | fault hsame => exact .cons (.content hline) (.cons (.fault hsame) hafter)

theorem dropLineEnd_tell {text : List Char} (hsuits : told.Suits text) :
    Text.dropLineEnd (told.tell text) = told.tell (Text.dropLineEnd text) :=
  Text.dropLineEnd_endLines told.isEnding hsuits

theorem text_tell (text : List Char) :
    told.text (String.ofList (told.tell text)) = told.text (String.ofList text) := by
  rw [View.text_ofList, View.text_ofList, tell, Text.filter_endLines told.keeps_ending]

theorem mark_ofItem? {item item' : Item} (hitem : told.SameItem item item') :
    (Mark.ofItem? item).map told.mark = (Mark.ofItem? item').map told.mark := by
  cases hitem with
  | fault hsame => exact congrArg (fun fault => some (Mark.fault fault)) hsame
  | tag hsame => exact told.mark_tag_congr hsame
  | @content left right hline =>
      have hvalue : Text.dropLineEnd right.text = told.tell (Text.dropLineEnd left.text) := by
        rw [hline.text, dropLineEnd_tell hline.suits]
      have hblank : Text.isBlankText right.text = Text.isBlankText left.text := by
        rw [hline.text]
        exact Text.isBlankText_endLines told.isEnding left.text
      have hstop := told.place_advance hline.start (Text.dropLineEnd left.text)
      simp only [Mark.ofItem?, hvalue, hblank]
      split
      · rfl
      · simp only [Option.map_some, View.mark, text_tell]
        exact congrArg (fun span => some (Mark.content _ span))
          (congrArg₂ Span.mk hline.start hstop)

theorem marks_ofItems {items items' : List Item}
    (hitems : List.Forall₂ told.SameItem items items') :
    (Mark.ofItems items).map told.mark = (Mark.ofItems items').map told.mark := by
  have hjoined := sameItems_joinContent hitems
  unfold Mark.ofItems
  generalize Mark.joinContent items = joined at hjoined
  generalize Mark.joinContent items' = joined' at hjoined
  rw [List.map_filterMap, List.map_filterMap]
  induction hjoined with
  | nil => rfl
  | cons hitem _ induction =>
      rw [List.filterMap_cons, List.filterMap_cons, mark_ofItem? hitem, induction]

theorem nodes_assemble {scan other : Scan} (hsame : told.SameScan scan other) :
    told.result told.nodes (assemble scan.fence [] [] (Mark.ofItems scan.items)) =
      told.result told.nodes (assemble other.fence [] [] (Mark.ofItems other.items)) :=
  told.assemble_congr hsame.fence.seen (marks_ofItems hsame.items)

theorem nodes_ofLines {lines lines' : List Line}
    (hlines : List.Forall₂ told.SameLine lines lines') :
    told.result told.nodes (Node.ofLines lines) = told.result told.nodes (Node.ofLines lines') := by
  have hnone : told.SameFence none none := ⟨rfl, by simp⟩
  exact nodes_assemble ((sameScan_scan hlines).1 hnone)

theorem SameLine.isFrontmatterFence (hline : told.SameLine left right) :
    right.isFrontmatterFence = left.isFrontmatterFence := by
  have hinner : ∀ c ∈ ['-', '-', '-'], Text.IsInner c := by simp [Text.IsInner]
  unfold Line.isFrontmatterFence
  rw [hline.trimEnd, Bool.eq_iff_iff, beq_iff_eq, beq_iff_eq]
  exact Text.endLines_eq_iff told.isEnding hinner

variable (told) in
def SameCut (left right : List Line × List Line) : Prop :=
  List.Forall₂ told.SameLine left.1 right.1 ∧ List.Forall₂ told.SameLine left.2 right.2

theorem cutAtFence?_tell {lines lines' : List Line}
    (hlines : List.Forall₂ told.SameLine lines lines') :
    Option.Rel told.SameCut (Line.cutAtFence? lines) (Line.cutAtFence? lines') := by
  induction hlines with
  | nil => exact .none
  | cons hline hrest induction =>
      rw [Line.cutAtFence?, Line.cutAtFence?, hline.isFrontmatterFence]
      split
      · exact .some ⟨.nil, hrest⟩
      · generalize Line.cutAtFence? _ = cut at induction
        generalize Line.cutAtFence? _ = cut' at induction
        cases induction with
        | none => exact .none
        | some hcut => exact .some ⟨.cons hline hcut.1, hcut.2⟩

theorem flatten_tell {lines lines' : List Line}
    (hlines : List.Forall₂ told.SameLine lines lines') :
    (lines'.map (·.text)).flatten = told.tell (lines.map (·.text)).flatten ∧
      told.Suits (lines.map (·.text)).flatten := by
  induction hlines with
  | nil => exact ⟨rfl, .inr List.not_mem_nil⟩
  | cons hline _ induction =>
      obtain ⟨htext, hsuits⟩ := induction
      rw [List.map_cons, List.map_cons, List.flatten_cons, List.flatten_cons, told.tell_append,
        hline.text, htext]
      exact ⟨rfl, told.suits_append.2 ⟨hline.suits, hsuits⟩⟩

variable (told) in
def SameBody (left right : Option String × List Line) : Prop :=
  left.1.map told.text = right.1.map told.text ∧ List.Forall₂ told.SameLine left.2 right.2

theorem cutFrontmatter_tell {lines lines' : List Line}
    (hlines : List.Forall₂ told.SameLine lines lines') :
    told.SameResult told.SameBody (Document.cutFrontmatter lines)
      (Document.cutFrontmatter lines') := by
  cases hlines with
  | nil => exact .ok ⟨rfl, .nil⟩
  | cons hline hrest =>
      rw [Document.cutFrontmatter, Document.cutFrontmatter, hline.isFrontmatterFence]
      split
      · have hcut := cutAtFence?_tell hrest
        generalize Line.cutAtFence? _ = cut at hcut
        generalize Line.cutAtFence? _ = cut' at hcut
        cases hcut with
        | none => exact .error rfl
        | some hcut =>
            obtain ⟨hraw, hbody⟩ := hcut
            obtain ⟨htext, hsuits⟩ := flatten_tell hraw
            refine .ok ⟨?_, hbody⟩
            simp only [htext, Option.map_some, dropLineEnd_tell hsuits, text_tell]
      · exact .ok ⟨rfl, .cons hline hrest⟩

theorem sameLines_place {start start' : Point} (hplace : told.place start = told.place start')
    {lines : List (List Char)} (hsuits : told.Suits lines.flatten) :
    List.Forall₂ told.SameLine (Line.place start lines)
      (Line.place start' (lines.map told.tell)) := by
  induction lines generalizing start start' with
  | nil => exact .nil
  | cons line rest induction =>
      rw [List.flatten_cons, told.suits_append] at hsuits
      exact .cons ⟨rfl, hplace, hsuits.1⟩ (induction (told.place_advance hplace line) hsuits.2)

theorem parse_tell {text : String} (hsuits : told.Suits text.toList) :
    told.SameResult (fun left right => told.document left = told.document right)
      (Document.parse text) (Document.parse (String.ofList (told.tell text.toList))) := by
  have hlines : List.Forall₂ told.SameLine (Line.ofText text.toList)
      (Line.ofText (told.tell text.toList)) := by
    have hflatten := Text.flatten_splitLines text.toList
    unfold Line.ofText
    rw [tell, Text.splitLines_endLines told.isEnding]
    exact sameLines_place rfl (hflatten.symm ▸ hsuits)
  have hcut := cutFrontmatter_tell hlines
  unfold Document.parse
  rw [String.toList_ofList]
  generalize Document.cutFrontmatter (Line.ofText text.toList) = cut at hcut
  generalize Document.cutFrontmatter (Line.ofText (told.tell text.toList)) = cut' at hcut
  cases hcut with
  | error hfault => exact .error hfault
  | @ok left right hbody =>
      obtain ⟨hfrontmatter, hbody⟩ := hbody
      have hparse : ∀ body : Option String × List Line,
          (do return Document.mk body.1 (← Node.ofLines body.2) : Except Fault Document) =
            (Node.ofLines body.2).map (Document.mk body.1) := by
        intro body
        cases Node.ofLines body.2 <;> rfl
      change told.SameResult _ (do return Document.mk left.1 (← Node.ofLines left.2))
        (do return Document.mk right.1 (← Node.ofLines right.2))
      rw [hparse, hparse, View.sameResult_iff, View.result_document, View.result_document,
        hfrontmatter, nodes_ofLines hbody]

end Retelling

/-- The view of lines and columns, and of texts without their carriage returns. -/
def View.returnless : View :=
  ⟨fun place => { place with offset := 0 }, (· != '\r')⟩

def Retelling.crlf : Retelling where
  toView := .returnless
  ending := ['\r', '\n']
  isEnding := .inr rfl
  keeps_ending := by decide
  place_step := by
    intro left right hplace c
    obtain ⟨hline, hcolumn, -⟩ := Point.mk.inj hplace
    simp only [View.returnless, Point.step, hline, hcolumn]
    split <;> rfl
  place_ending := by
    intro left right hplace
    obtain ⟨hline, -, -⟩ := Point.mk.inj hplace
    simp [View.returnless, Point.step, hline]

/-- With a carriage return before each newline, a text without any is read as the same document but
for the carriage returns, with the same lines and columns, or refused for the same reason at the same
line and column. -/
theorem Document.parse_crlf {text : String} (htext : '\r' ∉ text.toList) :
    View.returnless.SameResult
      (fun left right => View.returnless.document left = View.returnless.document right)
      (parse text) (parse (String.ofList (Text.endLines ['\r', '\n'] text.toList))) :=
  Retelling.crlf.parse_tell (.inr htext)

theorem Document.parse_crlf_quoted :
    let text := "---\nt: 1\n---\né\n\x7b% a k=\"x\ny\" %\x7d\n```\n\x7b%\n```\n\x7b% /a %\x7d\n"
    '\r' ∉ text.toList ∧ (parse text).toOption.isSome = true ∧
      View.returnless.SameResult
        (fun left right => View.returnless.document left = View.returnless.document right)
        (parse text) (parse (String.ofList (Text.endLines ['\r', '\n'] text.toList))) := by
  intro text
  have htext : '\r' ∉ text.toList := by decide
  have hparse : (parse text).toOption.isSome = true := by decide +kernel
  exact ⟨htext, hparse, parse_crlf htext⟩

end Tagmark
