import Tagmark.Proofs.Document.Fenced
import Tagmark.Proofs.Document.Layout
import Tagmark.Proofs.Tag.Print

/-!
Documents in writing. A document that is printed is parsed as the same document, places apart
(`Document.parse_print`).
-/

namespace Tagmark

/-- A tag on a line of its own. -/
def Header.line (header : Header) : List Char :=
  header.write ++ ['\n']

mutual

def Node.print : Node → List Char
  | .content value _ => value.toList ++ ['\n']
  | .block tag children =>
      if tag.selfClosing then (Header.opening tag.name tag.attributes true).line
      else
        (Header.opening tag.name tag.attributes false).line ++
          (Node.printAll children ++ (Header.closing tag.name).line)

def Node.printAll : List Node → List Char
  | [] => []
  | node :: rest => node.print ++ Node.printAll rest

end

def Document.print (document : Document) : String :=
  let body := Node.printAll document.children
  match document.frontmatter with
  | none => String.ofList body
  | some raw => String.ofList
      (['-', '-', '-', '\n'] ++ ((raw.toList ++ ['\n']) ++ (['-', '-', '-', '\n'] ++ body)))

structure Text.IsContent (value : String) : Prop where
  not_blank : Text.isBlankText value.toList = false
  not_returned : value.toList.getLast? ≠ some '\r'
  fenced : Line.TagsFenced .origin value.toList
  closed : Fence.after none (Line.place .origin (Text.splitLines value.toList)) = none

def Node.isContent : Node → Bool
  | .content _ _ => true
  | .block _ _ => false

mutual

def Node.Printable : Node → Prop
  | .content value _ => Text.IsContent value
  | .block tag children =>
      (Header.opening tag.name tag.attributes tag.selfClosing).isWritable = true ∧
        (tag.selfClosing = true → children = []) ∧ Node.AllPrintable children

def Node.AllPrintable : List Node → Prop
  | [] => True
  | node :: rest =>
      node.Printable ∧
        (node.isContent = true → ∀ next ∈ rest.head?, next.isContent = false) ∧
          Node.AllPrintable rest

end

structure Document.Printable (document : Document) : Prop where
  children : Node.AllPrintable document.children
  frontmatter : ∀ raw, document.frontmatter = some raw →
    (∀ line ∈ Text.splitLines raw.toList, Text.trimEnd line ≠ ['-', '-', '-']) ∧
      raw.toList.getLast? ≠ some '\r'
  head : document.frontmatter = none →
    ∀ line ∈ (Text.splitLines (Node.printAll document.children)).head?,
      Text.trimEnd line ≠ ['-', '-', '-']

def Document.relocate (move : Point → Point) (document : Document) : Document :=
  ⟨document.frontmatter, Node.relocateAll move document.children⟩

namespace Visit

def isContent : Visit → Bool
  | .content _ _ => true
  | _ => false

def print : Visit → List Char
  | .content value _ => value.toList ++ ['\n']
  | .leaf tag => (Header.opening tag.name tag.attributes true).line
  | .opening name attributes _ => (Header.opening name attributes false).line
  | .closing name _ => (Header.closing name).line

def Printable : Visit → Prop
  | .content value _ => Text.IsContent value
  | .leaf tag =>
      tag.selfClosing = true ∧ (Header.opening tag.name tag.attributes true).isWritable = true
  | .opening name attributes _ => (Header.opening name attributes false).isWritable = true
  | .closing name _ => (Header.closing name).isWritable = true

def AllPrintable : List Visit → Prop
  | [] => True
  | visit :: rest =>
      visit.Printable ∧
        (visit.isContent = true → ∀ next ∈ rest.head?, next.isContent = false) ∧
          AllPrintable rest

end Visit

mutual

theorem Node.print_eq_flatMap (node : Node) : node.print = node.walk.flatMap Visit.print := by
  cases node with
  | content value span => simp [Node.print, Node.walk, Visit.print]
  | block tag children =>
      have hchildren := Node.printAll_eq_flatMap children
      cases hself : tag.selfClosing with
      | true => simp [Node.print, Node.walk, Visit.print, hself]
      | false => simp [Node.print, Node.walk, Visit.print, hself, hchildren]

theorem Node.printAll_eq_flatMap (nodes : List Node) :
    Node.printAll nodes = (Node.walkAll nodes).flatMap Visit.print := by
  cases nodes with
  | nil => rfl
  | cons node rest =>
      rw [Node.printAll, Node.walkAll, List.flatMap_append, Node.print_eq_flatMap node,
        Node.printAll_eq_flatMap rest]

end

mutual

theorem Node.printable_walk {node : Node} (hprintable : node.Printable) {rest : List Visit}
    (hrest : Visit.AllPrintable rest)
    (hnext : node.isContent = true → ∀ next ∈ rest.head?, next.isContent = false) :
    Visit.AllPrintable (node.walk ++ rest) ∧
      ∀ next ∈ (node.walk ++ rest).head?, next.isContent = node.isContent := by
  cases node with
  | content value span =>
      refine ⟨⟨hprintable, fun _ => hnext rfl, hrest⟩, ?_⟩
      intro _ h
      cases h
      rfl
  | block tag children =>
      obtain ⟨hwritable, hempty, hchildren⟩ := hprintable
      cases hself : tag.selfClosing with
      | true =>
          rw [hself] at hwritable
          rw [Node.walk, if_pos hself]
          refine ⟨⟨⟨hself, hwritable⟩, fun h => Bool.noConfusion h, hrest⟩, ?_⟩
          intro _ h
          cases h
          rfl
      | false =>
          rw [hself] at hwritable
          have hname : Text.isName tag.name = true := (Bool.and_eq_true_iff.1 hwritable).1
          have hclosing : Visit.AllPrintable (.closing tag.name tag.span.stop :: rest) :=
            ⟨hname, fun h => Bool.noConfusion h, hrest⟩
          have hinner := Node.printable_walkAll hchildren hclosing fun _ => by
            intro _ h
            cases h
            rfl
          rw [Node.walk, if_neg (Bool.eq_false_iff.1 hself), List.cons_append, List.append_assoc]
          refine ⟨⟨hwritable, fun h => Bool.noConfusion h, hinner.1⟩, ?_⟩
          intro _ h
          cases h
          rfl

theorem Node.printable_walkAll {nodes : List Node} (hprintable : Node.AllPrintable nodes)
    {rest : List Visit} (hrest : Visit.AllPrintable rest)
    (hnext : nodes ≠ [] → ∀ next ∈ rest.head?, next.isContent = false) :
    Visit.AllPrintable (Node.walkAll nodes ++ rest) ∧
      ∀ node ∈ nodes.head?, ∀ next ∈ (Node.walkAll nodes ++ rest).head?,
        next.isContent = node.isContent := by
  cases nodes with
  | nil =>
      refine ⟨hrest, ?_⟩
      intro _ h
      cases h
  | cons node tail =>
      obtain ⟨hnode, happart, htail⟩ := hprintable
      have hlater := Node.printable_walkAll htail hrest fun _ => hnext (List.cons_ne_nil _ _)
      rw [Node.walkAll, List.append_assoc]
      have hhead : node.isContent = true →
          ∀ next ∈ (Node.walkAll tail ++ rest).head?, next.isContent = false := by
        intro hcontent next hmem
        cases tail with
        | nil => exact hnext (List.cons_ne_nil _ _) next hmem
        | cons other more =>
            rw [hlater.2 other rfl next hmem]
            exact happart hcontent other rfl
      have hall := Node.printable_walk hnode hlater.1 hhead
      refine ⟨hall.1, ?_⟩
      intro _ h
      cases h
      exact hall.2

end

theorem Header.isLine_line {header : Header} (hwritable : header.isWritable = true)
    (rest : List Char) : Text.IsLine header.line rest :=
  Text.isLine_concat_newline (Header.writtenAs_write hwritable).one_line rest

theorem Header.WrittenAs.startsWithTag {header : Header} {text : List Char}
    (hwritten : header.WrittenAs text) (ending : List Char) (point : Point) :
    Line.startsWithTag ⟨text ++ ending, point⟩ = true := by
  obtain ⟨front, rfl⟩ := hwritten.delimited
  exact Line.startsWithTag_iff.2 ⟨[], front ++ ['%', '}'] ++ ending, rfl, rfl⟩

theorem Header.WrittenAs.isLine {header : Header} {text : List Char}
    (hwritten : header.WrittenAs text) : Text.IsLine (text ++ []) [] := by
  obtain ⟨front, hfront⟩ := hwritten.delimited
  rw [List.append_nil]
  refine ⟨by simp [hfront], ?_, fun h => absurd rfl h⟩
  exact fun hmem => hwritten.one_line ((List.dropLast_sublist text).subset hmem)

theorem Scan.scan_tagLine {header : Header} {text ending rest : List Char}
    (hwritten : header.WrittenAs text) (hending : Text.isBlankText ending = true)
    (hline : Text.IsLine (text ++ ending) rest) (point : Point) :
    ∃ group, group.header = .ok header ∧
      scan none none (Line.place point (Text.splitLines (text ++ ending ++ rest))) =
        let after :=
          scan none none (Line.place (point.advance (text ++ ending)) (Text.splitLines rest))
        { after with items := .tag group :: after.items } := by
  obtain ⟨front, hfront⟩ := hwritten.delimited
  have hopening : Text.cut? ['{', '%'] ending = none :=
    Text.cut?_eq_none_of_not_mem
      (fun hmem => absurd (List.all_eq_true.1 hending _ hmem) (by decide)) _
  have hstart := hwritten.startsWithTag ending point
  have hcomplete : Line.endsInTag ⟨text ++ ending, point⟩ = false := by
    have hclosed := Line.endsInTag_of_closed ('{' :: '%' :: front) hopening point
    rw [hfront]
    simpa using hclosed
  obtain ⟨group, stop, hsegments, hheader⟩ := hwritten.segments_append point hopening
  have hitems : Segment.items (.tag group :: Segment.ofText stop ending) = [.tag group] := by
    have hblank := Segment.items_ofText_append stop ending []
    rw [List.append_nil, if_pos hending] at hblank
    rw [Segment.items, hblank]
    rfl
  refine ⟨group, hheader, ?_⟩
  rw [Text.splitLines_append hline, Line.place, scan]
  rw [if_neg (by simp [hstart]), if_neg (by simp [hcomplete]), ofTagLine]
  split
  · next hfault => cases hsegments.symm.trans hfault
  · next hcut =>
      cases hsegments.symm.trans hcut
      rw [ofSegments_eq, hitems]
      rfl

theorem Scan.scan_line {header : Header} (hwritable : header.isWritable = true) (point : Point)
    (rest : List Char) :
    ∃ group, group.header = .ok header ∧
      scan none none (Line.place point (Text.splitLines (header.line ++ rest))) =
        let after := scan none none (Line.place (point.advance header.line) (Text.splitLines rest))
        { after with items := .tag group :: after.items } := by
  have hnewline : Text.isBlankText ['\n'] = true := rfl
  exact Scan.scan_tagLine (Header.writtenAs_write hwritable) hnewline
    (Header.isLine_line hwritable rest) point

theorem Scan.scan_content {fence : Option Fence} {point : Point} {front : List (List Char)}
    (hfenced : ∀ before line after, front = before ++ line :: after →
      Line.startsWithTag ⟨line, point⟩ = true →
        (Fence.after fence (Line.place point before)).isSome = true)
    (back : List (List Char)) :
    scan fence none (Line.place point (front ++ back)) =
      let after := scan (Fence.after fence (Line.place point front)) none
        (Line.place (point.advance front.flatten) back)
      { after with items := (Line.place point front).map .content ++ after.items } := by
  induction front generalizing fence point with
  | nil => rfl
  | cons line rest induction =>
      have hline : (fence.isSome || !Line.startsWithTag ⟨line, point⟩) = true := by
        cases hstart : Line.startsWithTag ⟨line, point⟩ with
        | false => exact Bool.or_true _
        | true =>
            rw [show fence.isSome = true from hfenced [] line rest rfl hstart]
            rfl
      have hrest : ∀ before next after, rest = before ++ next :: after →
          Line.startsWithTag ⟨next, point.advance line⟩ = true →
            (Fence.after (Fence.next fence ⟨line, point⟩)
              (Line.place (point.advance line) before)).isSome = true := by
        rintro before next after rfl hstart
        exact hfenced (line :: before) next after rfl hstart
      rw [List.cons_append, Line.place, scan, if_pos hline, induction hrest, List.flatten_cons,
        Point.advance_append]
      rfl

theorem Mark.joinContent_run {point : Point} {text : List Char} {texts : List (List Char)}
    {rest : List Item} (hrest : ∀ line after, joinContent rest ≠ .content line :: after) :
    joinContent ((Line.place point (text :: texts)).map .content ++ rest) =
      .content ⟨(text :: texts).flatten, point⟩ :: joinContent rest := by
  induction texts generalizing point text with
  | nil =>
      change joinContent (.content ⟨text, point⟩ :: rest) = _
      rw [joinContent]
      split
      · next next after hjoin => exact absurd hjoin (hrest next after)
      · rw [List.flatten_cons, List.flatten_nil, List.append_nil]
  | cons next texts induction =>
      change joinContent (.content ⟨text, point⟩ ::
        ((Line.place (point.advance text) (next :: texts)).map .content ++ rest)) = _
      rw [joinContent, induction]
      rfl

theorem Mark.ofItems_run (point : Point) (text : List Char) {items : List Item}
    (hapart : ∀ line after, joinContent items ≠ .content line :: after) :
    ofItems ((Line.place point (Text.splitLines text)).map .content ++ items) =
      (ofItem? (.content ⟨text, point⟩)).toList ++ ofItems items := by
  have hflatten := Text.flatten_splitLines text
  cases hsplit : Text.splitLines text with
  | nil =>
      rw [hsplit] at hflatten
      subst hflatten
      rfl
  | cons line lines =>
      rw [hsplit] at hflatten
      unfold ofItems
      rw [joinContent_run hapart, hflatten]
      cases hmark : ofItem? (.content ⟨text, point⟩) with
      | none => exact List.filterMap_cons_none hmark
      | some mark => exact List.filterMap_cons_some hmark

section Unplaced

/-- All places are as good as one. -/
abbrev Point.forget (_ : Point) : Point := .origin

theorem Visit.exists_header {visit : Visit} (hprintable : visit.Printable)
    (hcontent : visit.isContent = false) :
    ∃ header : Header, header.isWritable = true ∧ visit.print = header.line ∧
      ∀ group : TokenGroup, group.header = .ok header →
        ∃ mark, Mark.ofItem? (.tag group) = some mark ∧
          mark.movedVisit? Point.forget = some (visit.relocate Point.forget) := by
  cases visit with
  | content value span => cases hcontent
  | leaf tag =>
      obtain ⟨name, attributes, selfClosing, span⟩ := tag
      obtain ⟨rfl, hwritable⟩ := hprintable
      refine ⟨_, hwritable, rfl, ?_⟩
      intro group hheader
      exact ⟨.leaf ⟨name, attributes, true, group.span⟩, by simp [Mark.ofItem?, hheader], rfl⟩
  | opening name attributes start =>
      refine ⟨_, hprintable, rfl, ?_⟩
      intro group hheader
      exact ⟨.opening name attributes group.span.start, by simp [Mark.ofItem?, hheader], rfl⟩
  | closing name stop =>
      refine ⟨_, hprintable, rfl, ?_⟩
      intro group hheader
      exact ⟨.closing name group.span, by simp [Mark.ofItem?, hheader], rfl⟩

theorem Mark.ofItem?_content {value : String} (hvalue : Text.IsContent value) (point : Point) :
    ∃ span, Mark.ofItem? (.content ⟨value.toList ++ ['\n'], point⟩) =
      some (.content value span) := by
  have hblank : Text.isBlankText (value.toList ++ ['\n']) = false := by
    have hnot := hvalue.not_blank
    unfold Text.isBlankText at hnot ⊢
    rw [List.all_append, hnot]
    rfl
  refine ⟨.covering point value.toList, ?_⟩
  rw [Mark.ofItem?]
  dsimp only
  rw [hblank, Text.dropLineEnd_concat hvalue.not_returned, String.ofList_toList]
  rfl

theorem Scan.scan_contentLines {value : String} (hvalue : Text.IsContent value) (point : Point)
    (rest : List Char) :
    ∃ run : List Item,
      scan none none (Line.place point (Text.splitLines (value.toList ++ ['\n'] ++ rest))) =
        (let after := scan none none
          (Line.place (point.advance (value.toList ++ ['\n'])) (Text.splitLines rest))
        { after with items := run ++ after.items }) ∧
      ∀ items, (∀ line after, Mark.joinContent items ≠ .content line :: after) →
        ∃ span, Mark.ofItems (run ++ items) = .content value span :: Mark.ofItems items := by
  have hended : (value.toList ++ ['\n']).getLast? = some '\n' := List.getLast?_concat
  have hfenced := hvalue.fenced.concat_newline point
  have hclosed := Fence.after_concat_newline hvalue.closed point
  have hflatten := Text.flatten_splitLines (value.toList ++ ['\n'])
  refine ⟨(Line.place point (Text.splitLines (value.toList ++ ['\n']))).map .content, ?_, ?_⟩
  · rw [Text.splitLines_append_of_ended hended, scan_content hfenced, hclosed, hflatten]
  · intro items hapart
    obtain ⟨span, hsome⟩ := Mark.ofItem?_content hvalue point
    refine ⟨span, ?_⟩
    rw [Mark.ofItems_run point _ hapart, hsome]
    rfl

theorem Scan.scan_print {visits : List Visit} (hprintable : Visit.AllPrintable visits)
    (point : Point) :
    ∃ items, scan none none (Line.place point (Text.splitLines (visits.flatMap Visit.print))) =
        ⟨items, none⟩ ∧
      (Mark.ofItems items).map (Mark.movedVisit? Point.forget) =
        (visits.map (Visit.relocate Point.forget)).map some ∧
      ((∀ next ∈ visits.head?, next.isContent = false) →
        ∀ line after, Mark.joinContent items ≠ .content line :: after) := by
  induction visits generalizing point with
  | nil =>
      refine ⟨[], rfl, rfl, ?_⟩
      intro _ line after h
      cases h
  | cons visit rest induction =>
      obtain ⟨hvisit, hnext, hrest⟩ := hprintable
      rw [List.flatMap_cons]
      cases hcontent : visit.isContent with
      | false =>
          obtain ⟨header, hwritable, hprint, hmark⟩ := Visit.exists_header hvisit hcontent
          obtain ⟨group, hheader, hscan⟩ :=
            Scan.scan_line hwritable point (rest.flatMap Visit.print)
          obtain ⟨items, hitems, hmarks, -⟩ := induction hrest (point.advance header.line)
          obtain ⟨mark, hsome, hmoved⟩ := hmark group hheader
          refine ⟨.tag group :: items, ?_, ?_, ?_⟩
          · rw [hprint, hscan, hitems]
          · change (List.filterMap Mark.ofItem? (.tag group :: Mark.joinContent items)).map _ = _
            rw [List.filterMap_cons_some hsome, List.map_cons, hmoved]
            exact congrArg _ hmarks
          · intro _ line after h
            cases h
      | true =>
          cases visit with
          | content value span =>
              obtain ⟨run, hscan, hrun⟩ :=
                Scan.scan_contentLines hvisit point (rest.flatMap Visit.print)
              obtain ⟨items, hitems, hmarks, hapart⟩ :=
                induction hrest (point.advance (value.toList ++ ['\n']))
              obtain ⟨place, hmark⟩ := hrun items (hapart (hnext hcontent))
              refine ⟨run ++ items, ?_, ?_, ?_⟩
              · rw [Visit.print, hscan, hitems]
              · rw [hmark, List.map_cons]
                exact congrArg _ hmarks
              · intro hhead
                have hnot := hhead _ rfl
                cases hcontent.symm.trans hnot
          | leaf tag => cases hcontent
          | opening name attributes start => cases hcontent
          | closing name stop => cases hcontent

mutual

theorem Node.Printable.proper {node : Node} (hprintable : node.Printable) : node.Proper := by
  cases node with
  | content value span => exact Node.proper_content
  | block tag children =>
      obtain ⟨-, hempty, hchildren⟩ := hprintable
      exact Node.proper_block.2 ⟨hempty, Node.AllPrintable.allProper hchildren⟩

theorem Node.AllPrintable.allProper {nodes : List Node} (hprintable : Node.AllPrintable nodes) :
    Node.AllProper nodes := by
  cases nodes with
  | nil => exact Node.allProper_nil
  | cons node rest =>
      obtain ⟨hnode, -, hrest⟩ := hprintable
      exact Node.allProper_cons.2 ⟨hnode.proper, Node.AllPrintable.allProper hrest⟩

end

theorem Node.ofLines_printAll {nodes : List Node} (hprintable : Node.AllPrintable nodes)
    (point : Point) :
    ∃ built, Node.ofLines (Line.place point (Text.splitLines (Node.printAll nodes))) = .ok built ∧
      Node.relocateAll Point.forget built = Node.relocateAll Point.forget nodes := by
  have hvisits : Visit.AllPrintable (Node.walkAll nodes) := by
    have hnone : Visit.AllPrintable [] := trivial
    have hall := (Node.printable_walkAll hprintable hnone (by simp)).1
    rwa [List.append_nil] at hall
  obtain ⟨items, hscan, hmarks, -⟩ := Scan.scan_print hvisits point
  rw [← Node.walkAll_relocateAll] at hmarks
  have hproper := (Node.allProper_relocateAll Point.forget nodes).2 hprintable.allProper
  obtain ⟨built, hbuilt, hplaces⟩ := assemble_eq_ok_of_walk none hproper hmarks
  refine ⟨built, ?_, hplaces⟩
  rw [Node.printAll_eq_flatMap, Node.ofLines, Scan.ofLines, hscan]
  exact hbuilt

end Unplaced

namespace Document

theorem cutFrontmatter_of_head {body : List Char}
    (hhead : ∀ line ∈ (Text.splitLines body).head?, Text.trimEnd line ≠ ['-', '-', '-']) :
    cutFrontmatter (Line.ofText body) = .ok (none, Line.ofText body) := by
  exact cutFrontmatter_of_heads .none (List.nil_append _).symm fun _ => hhead

def rawBlock (raw : List Char) : List (List Char) :=
  ['-', '-', '-', '\n'] :: (Text.splitLines (raw ++ ['\n']) ++ [['-', '-', '-', '\n']])

theorem flatten_rawBlock (raw : List Char) :
    (rawBlock raw).flatten = ['-', '-', '-', '\n'] ++ ((raw ++ ['\n']) ++ ['-', '-', '-', '\n']) := by
  rw [rawBlock, List.flatten_cons, List.flatten_concat, Text.flatten_splitLines]

theorem splitLines_rawBlock (raw body : List Char) :
    Text.splitLines ((rawBlock raw).flatten ++ body) = rawBlock raw ++ Text.splitLines body := by
  have hended : (raw ++ ['\n']).getLast? = some '\n' := List.getLast?_concat
  have hfenceEnded : ['-', '-', '-', '\n'].getLast? = some '\n' := rfl
  have hfence : Text.splitLines ['-', '-', '-', '\n'] = [['-', '-', '-', '\n']] := rfl
  rw [flatten_rawBlock, List.append_assoc, List.append_assoc,
    Text.splitLines_append_of_ended hfenceEnded, Text.splitLines_append_of_ended hended,
    Text.splitLines_append_of_ended hfenceEnded, hfence]
  simp [rawBlock]

theorem heads_rawBlock {raw : List Char}
    (hraw : ∀ line ∈ Text.splitLines raw, Text.trimEnd line ≠ ['-', '-', '-'])
    (hreturn : raw.getLast? ≠ some '\r') : Heads (some (String.ofList raw)) (rawBlock raw) := by
  have hhyphens : Text.trimEnd ['-', '-', '-', '\n'] = ['-', '-', '-'] := rfl
  have hlines : ∀ line ∈ Text.splitLines (raw ++ ['\n']),
      Text.trimEnd line ≠ ['-', '-', '-'] := by
    apply Text.forall_mem_splitLines_concat_newline (by decide) _ hraw
    intro line hline
    rwa [Fence.trimEnd_concat_newline]
  have hsome := Heads.some hhyphens hlines hhyphens
  rwa [Text.flatten_splitLines, Text.dropLineEnd_concat hreturn] at hsome

theorem cutFrontmatter_of_raw {raw : List Char}
    (hraw : ∀ line ∈ Text.splitLines raw, Text.trimEnd line ≠ ['-', '-', '-'])
    (hreturn : raw.getLast? ≠ some '\r') (body : List Char) :
    ∃ point, cutFrontmatter (Line.ofText
        (['-', '-', '-', '\n'] ++ ((raw ++ ['\n']) ++ (['-', '-', '-', '\n'] ++ body)))) =
      .ok (some (String.ofList raw), Line.place point (Text.splitLines body)) := by
  have hsplit := splitLines_rawBlock raw body
  rw [flatten_rawBlock, List.append_assoc, List.append_assoc] at hsplit
  exact ⟨_, cutFrontmatter_of_heads (heads_rawBlock hraw hreturn) hsplit (by simp)⟩

/-- Parsing undoes printing, places apart. -/
theorem parse_print {document : Document} (hprintable : document.Printable) :
    ∃ parsed, parse document.print = .ok parsed ∧
      parsed.relocate Point.forget = document.relocate Point.forget := by
  obtain ⟨frontmatter, children⟩ := document
  have hcut : ∃ point, cutFrontmatter (Line.ofText (print ⟨frontmatter, children⟩).toList) =
      .ok (frontmatter, Line.place point (Text.splitLines (Node.printAll children))) := by
    unfold print
    cases frontmatter with
    | none =>
        rw [String.toList_ofList]
        exact ⟨Point.origin, cutFrontmatter_of_head (hprintable.head rfl)⟩
    | some raw =>
        obtain ⟨hraw, hreturn⟩ := hprintable.frontmatter raw rfl
        obtain ⟨point, hpoint⟩ := cutFrontmatter_of_raw hraw hreturn (Node.printAll children)
        rw [String.ofList_toList] at hpoint
        rw [String.toList_ofList]
        exact ⟨point, hpoint⟩
  obtain ⟨point, hpoint⟩ := hcut
  obtain ⟨built, hbuilt, hplaces⟩ := Node.ofLines_printAll hprintable.children point
  refine ⟨⟨frontmatter, built⟩, ?_, ?_⟩
  · unfold parse
    rw [hpoint]
    change (do return Document.mk frontmatter (← Node.ofLines _)) = _
    rw [hbuilt]
    rfl
  · unfold relocate
    rw [hplaces]

theorem parse_print_nested :
    let attributes : KeyMap Value :=
      .ofList [("on", .boolean true), ("k-1", .string "\"%\x7d\\ \x7b%\r\n")]
    let inner : List Node :=
      [.content "```\n\x7b% b %\x7d\n```\n" {}, .block ⟨"leaf", attributes, true, {}⟩ []]
    let document : Document :=
      ⟨some "t: 1", [.block ⟨"a", attributes, false, {}⟩ inner, .content "é" {}]⟩
    document.Printable ∧ ∃ parsed, parse document.print = .ok parsed ∧
      parsed.relocate Point.forget = document.relocate Point.forget := by
  intro attributes inner document
  have hfence : Text.IsContent "```\n\x7b% b %\x7d\n```\n" :=
    ⟨by decide +kernel, by decide +kernel, by decide +kernel, by decide +kernel⟩
  have hword : Text.IsContent "é" :=
    ⟨by decide +kernel, by decide +kernel, by decide +kernel, by decide +kernel⟩
  have hleaf : (Header.opening "leaf" attributes true).isWritable = true := by decide +kernel
  have hopening : (Header.opening "a" attributes false).isWritable = true := by decide +kernel
  have hinner : Node.AllPrintable inner := by
    refine ⟨hfence, ?_, ⟨hleaf, fun _ => rfl, trivial⟩, ?_, trivial⟩
    · intro _ _ h
      cases h
      rfl
    · intro h
      cases h
  have hprintable : document.Printable := by
    refine ⟨⟨⟨hopening, ?_, hinner⟩, ?_, hword, ?_, trivial⟩, ?_, ?_⟩
    · intro h
      cases h
    · intro h
      cases h
    · intro _ _ h
      cases h
    · intro raw h
      cases h
      decide +kernel
    · intro h
      cases h
  exact ⟨hprintable, parse_print hprintable⟩

end Document

end Tagmark
