import Tagmark.Proofs.Document.Respaced

/-!
What stands in front of a tag line. It settles the frontmatter, the open tags and the nodes before the
line, whatever this line and the text after it are (`Document.LeadsToTag.parse_append`).
-/

namespace Tagmark

theorem Line.endsInTag_of_cut_none {text : List Char} (hnone : Text.cut? ['{', '%'] text = none)
    (point : Point) : endsInTag ⟨text, point⟩ = false := by
  unfold endsInTag
  split
  · rfl
  · next found hlast =>
      obtain ⟨before, tail, rfl, rfl⟩ := Text.exists_of_lastFrom? hlast
      have hfound := Text.contains_append ['{', '%'] before tail
      unfold Text.contains at hfound
      rw [hnone] at hfound
      cases hfound

theorem Segment.Tiles.not_endsInTag {point : Point} {text : List Char} {cut : List Segment}
    (htiles : Segment.Tiles point text cut) (place : Point) :
    Line.endsInTag ⟨text, place⟩ = false := by
  induction htiles with
  | text hcut => exact Line.endsInTag_of_cut_none hcut place
  | @tag point before body after group rest _ hreads _ induction =>
      obtain ⟨front, hsource, -⟩ := hreads.source
      have htext : before ++ '{' :: '%' :: (body ++ after) =
          before ++ '{' :: '%' :: front ++ '%' :: '}' :: after := by
        rw [List.cons.inj (List.cons.inj hsource).2 |>.2]
        simp
      cases hlast : Text.lastFrom? ['{', '%'] after with
      | some found =>
          have happend := Line.endsInTag_append (before ++ '{' :: '%' :: body) hlast place place
          rw [List.append_assoc] at happend
          exact happend.trans induction
      | none =>
          rw [htext]
          exact Line.endsInTag_of_closed _
            (Text.cut?_eq_none_of_lastFrom? (List.cons_ne_nil _ _) hlast) place

theorem Line.endsInTag_of_segments {point : Point} {text : List Char} {cut : List Segment}
    (hcut : segments point text = .ok cut) (place : Point) : endsInTag ⟨text, place⟩ = false :=
  (tiles_of_segments hcut).not_endsInTag place

theorem Text.getLast?_of_append {front back : List Char}
    (hwhole : front ++ back ≠ [] → (front ++ back).getLast? = some '\n') (hback : back ≠ []) :
    back.getLast? = some '\n' := by
  have hlast := hwhole (List.append_ne_nil_of_right_ne_nil _ hback)
  rwa [List.getLast?_append_of_ne_nil _ hback] at hlast

theorem Scan.Reads.append {fence : Option Fence} {point : Point} {text rest : List Char}
    {scan other : Scan} (hreads : Reads fence point text scan)
    (hwhole : text ≠ [] → text.getLast? = some '\n') (hclean : ∀ fault, .fault fault ∉ scan.items)
    (hrest : Reads scan.fence (point.advance text) rest other) :
    Reads fence point (text ++ rest) { other with items := scan.items ++ other.items } := by
  induction hreads with
  | done => exact hrest
  | fault => exact absurd (List.mem_singleton_self _) (hclean _)
  | @line fence point line behind scan hline hcontent _ induction =>
      rw [Point.advance_append] at hrest
      have hlater := induction (Text.getLast?_of_append hwhole)
        (fun fault hmem => hclean fault (List.mem_cons_of_mem _ hmem)) hrest
      rw [List.append_assoc]
      refine .line ⟨hline.ne_nil, hline.newline_last, fun _ => ?_⟩ hcontent hlater
      by_cases hbehind : behind = []
      · subst hbehind
        rw [List.append_nil] at hwhole
        exact hwhole hline.ne_nil
      · exact hline.ended hbehind
  | @tags point source behind cut scan hgathered hstart hcut _ induction =>
      rw [Point.advance_append] at hrest
      have hlater := induction (Text.getLast?_of_append hwhole)
        (fun fault hmem => hclean fault (List.mem_append_right _ hmem)) hrest
      rw [List.append_assoc, List.append_assoc]
      refine .tags ⟨hgathered.pending, fun _ => ?_⟩ hstart hcut hlater
      refine ⟨?_, Line.endsInTag_of_segments hcut point⟩
      by_cases hbehind : behind = []
      · subst hbehind
        have hne := Line.append_ne_nil_of_startsWithTag hstart []
        rw [List.append_nil] at hwhole hne
        exact hwhole hne
      · exact (hgathered.complete hbehind).1

theorem Scan.Reads.apart {point : Point} {source rest : List Char} {scan : Scan}
    (hgathered : Line.Gathered point source rest)
    (hstart : Line.startsWithTag ⟨source, point⟩ = true)
    (hreads : Reads none point (source ++ rest) scan) (line : Line) (after : List Item) :
    Mark.joinContent scan.items ≠ .content line :: after := by
  have hfirst : (∃ group more, scan.items = .tag group :: more) ∨
      ∃ fault, scan.items = [.fault fault] := by
    generalize htext : source ++ rest = text at hreads
    generalize hfence : none = fence at hreads
    cases hreads with
    | done => exact absurd htext (Line.append_ne_nil_of_startsWithTag hstart rest)
    | line hline hcontent =>
        subst hfence
        exact absurd hcontent (hgathered.not_content hstart hline htext.symm)
    | tags hgathered' hstart' hcut hrest =>
        have htag : TagLine _ _ _ _ _ := ⟨hgathered', hstart', hcut, hrest⟩
        obtain ⟨group, more, hitems⟩ := htag.exists_tag
        exact .inl ⟨group, _, by rw [hitems]; rfl⟩
    | fault => exact .inr ⟨_, rfl⟩
  rcases hfirst with ⟨group, more, hitems⟩ | ⟨fault, hitems⟩
  · rw [hitems]
    exact fun h => by cases h
  · rw [hitems]
    exact fun h => by cases h

theorem assemble_append {marks : List Mark}
    (htags : ∀ fault, .fault fault ∈ marks → fault.isOfTag = true) (stack : List OpenTag)
    (nodes : List Node) :
    ((∀ fault, .fault fault ∉ marks) ∧ ∃ opened built, ∀ fence rest,
      assemble fence stack nodes (marks ++ rest) = assemble fence opened built rest) ∨
    ∃ fault, (∀ name start, fault ≠ .unclosedTag name start) ∧
      ∀ fence, assemble fence stack nodes marks = .error fault := by
  induction marks generalizing stack nodes with
  | nil => exact .inl ⟨fun _ => List.not_mem_nil, stack, nodes, fun _ _ => rfl⟩
  | cons mark rest induction =>
      have hlater := induction fun fault hmem => htags fault (List.mem_cons_of_mem _ hmem)
      have hclean : (∀ fault, mark ≠ .fault fault) → (∀ fault, .fault fault ∉ rest) →
          ∀ fault, .fault fault ∉ mark :: rest := fun hmark hrest fault hmem =>
        (List.mem_cons.1 hmem).elim (fun heq => hmark fault heq.symm) (hrest fault)
      cases mark with
      | content value span => exact (hlater stack _).imp_left (And.imp_left (hclean (by simp)))
      | leaf tag => exact (hlater stack _).imp_left (And.imp_left (hclean (by simp)))
      | opening name attributes start =>
          exact (hlater _ []).imp_left (And.imp_left (hclean (by simp)))
      | closing name span =>
          cases stack with
          | nil => exact .inr ⟨.unexpectedClosing name span.start, by simp, fun _ => rfl⟩
          | cons innermost outer =>
              simp only [List.cons_append, assemble]
              split
              · exact (hlater outer _).imp_left (And.imp_left (hclean (by simp)))
              · exact .inr ⟨.unexpectedClosing name span.start, by simp, fun _ => rfl⟩
      | fault fault =>
          refine .inr ⟨fault, ?_, fun _ => rfl⟩
          rintro name start rfl
          cases htags _ List.mem_cons_self

theorem Text.splitLines_append_of_whole {front : List Char}
    (hwhole : front ≠ [] → front.getLast? = some '\n') (rest : List Char) :
    splitLines (front ++ rest) = splitLines front ++ splitLines rest := by
  by_cases hfront : front = []
  · rw [hfront]
    rfl
  · exact splitLines_append_of_ended (hwhole hfront) rest

namespace Document

/-- `front` can stand in front of a tag line: it is whole lines that are read to their end without a
fault, and no code fence is open after them. Tags may be open there. -/
structure LeadsToTag (front : List Char) : Prop where
  whole : front ≠ [] → front.getLast? = some '\n'
  unfenced : Item.fenceAfter none (items (String.ofList front)) = none
  unrefused : ∀ fault, parse (String.ofList front) = .error fault →
    ∃ name start, fault = .unclosedTag name start

variable {front : List Char}

theorem leadsToTag_of_unclosed {name : String} {start : Point}
    (hopen : parse (String.ofList front) = .error (.unclosedTag name start))
    (hwhole : front.getLast? = some '\n')
    (hunfenced : Item.fenceAfter none (items (String.ofList front)) = none) : LeadsToTag front :=
  ⟨fun _ => hwhole, hunfenced,
    fun _ hfault => ⟨name, start, Except.error.inj (hfault.symm.trans hopen)⟩⟩

/-- `front` can stand in front of a tag line: it is whole lines behind a block of frontmatter that
ends, if there is one, they are read without a fault, and no code fence is open after them. Tags may
be open there, or be closed that are not open. -/
structure ReachesTag (front : List Char) : Prop where
  whole : front ≠ [] → front.getLast? = some '\n'
  headed : ∃ frontmatter body, cutFrontmatter (Line.ofText front) = .ok (frontmatter, body)
  unfaulted : ∀ fault, .fault fault ∉ items (String.ofList front)
  unfenced : Item.fenceAfter none (items (String.ofList front)) = none

theorem LeadsToTag.exists_marks (hfront : LeadsToTag front) :
    ReachesTag front ∧ ∃ opened built, ∀ fence rest,
      assemble fence [] [] (Mark.ofItems (items (String.ofList front)) ++ rest) =
        assemble fence opened built rest := by
  cases hcut : cutFrontmatter (Line.ofText (String.ofList front).toList) with
  | error fault =>
      have hparse : parse (String.ofList front) = .error fault := by
        unfold parse
        rw [hcut]
        rfl
      obtain ⟨name, start, rfl⟩ := hfront.unrefused fault hparse
      cases eq_of_cutFrontmatter hcut
  | ok pair =>
      obtain ⟨frontmatter, body⟩ := pair
      obtain ⟨_, _, -, -, hreads⟩ := reads_of_cut hcut
      have hitems := items_of_cut hcut
      have htags : ∀ fault, .fault fault ∈ Mark.ofLines body → fault.isOfTag = true :=
        fun fault hmem => Mark.isOfTag_of_mem hmem fun _ => hreads.isOfTag
      rcases assemble_append htags [] [] with ⟨hclean, opened, built, hopened⟩ | ⟨fault, hne, hfault⟩
      · refine ⟨⟨hfront.whole, ?_, ?_, hfront.unfenced⟩, opened, built, ?_⟩
        · rw [String.toList_ofList] at hcut
          exact ⟨frontmatter, body, hcut⟩
        · rw [hitems]
          exact fun fault hmem => hclean fault (Mark.fault_mem_of_item hmem)
        · rw [hitems]
          exact hopened
      · have hparse : parse (String.ofList front) = .error fault := by
          rw [parse_eq_map hcut, hfault]
          rfl
        obtain ⟨name, start, rfl⟩ := hfront.unrefused fault hparse
        exact absurd rfl (hne name start)

theorem ReachesTag.parse_append (hfront : ReachesTag front) :
    ∃ frontmatter, ∀ source rest scan,
      Line.Gathered (Point.origin.advance front) source rest →
      Line.startsWithTag ⟨source, Point.origin.advance front⟩ = true →
      Scan.Reads none (Point.origin.advance front) (source ++ rest) scan →
      parse (String.ofList (front ++ (source ++ rest))) =
        (assemble scan.fence [] []
          (Mark.ofItems (items (String.ofList front) ++ scan.items))).map
            (Document.mk frontmatter) := by
  obtain ⟨frontmatter, body, hcut⟩ := hfront.headed
  refine ⟨frontmatter, ?_⟩
  intro source rest scan hgathered hstart hrest
  have hunfaulted := hfront.unfaulted
  have hunfenced := hfront.unfenced
  have hbodyCut := hcut
  rw [← String.toList_ofList (l := front)] at hbodyCut
  obtain ⟨block, lines, hsplit, hheads, hreads⟩ := reads_of_cut hbodyCut
  have hitems := items_of_cut hbodyCut
  rw [hitems] at hunfaulted hunfenced ⊢
  rw [← hreads.fence_eq] at hunfenced
  rw [String.toList_ofList] at hsplit
  have hlines : front = block.flatten ++ lines.flatten := by
    rw [← List.flatten_append, ← hsplit, Text.flatten_splitLines]
  have hwhole := hfront.whole
  rw [hlines] at hwhole
  have hplace : Point.origin.advance front =
      (Point.origin.advance block.flatten).advance lines.flatten := by
    rw [hlines, Point.advance_append]
  have hjoined := hreads.append (Text.getLast?_of_append hwhole) hunfaulted
    (by rw [hunfenced, ← hplace]; exact hrest)
  have hwholeSplit : Text.splitLines (front ++ (source ++ rest)) =
      block ++ (lines ++ Text.splitLines (source ++ rest)) := by
    rw [Text.splitLines_append_of_whole hfront.whole, hsplit, List.append_assoc]
  have hbody := Text.splitLines_replace hwholeSplit
    (by simp [Line.append_ne_nil_of_startsWithTag hstart]) (lines.flatten ++ (source ++ rest))
  have hhead : frontmatter = none →
      ∀ line ∈ (Text.splitLines (lines.flatten ++ (source ++ rest))).head?,
        Text.trimEnd line ≠ ['-', '-', '-'] := by
    rintro rfl
    cases hheads
    rw [List.flatten_nil, List.nil_append] at hlines
    rw [← hlines]
    by_cases hne : front = []
    · subst hne
      exact hgathered.head hstart
    · rw [head_append hne (hfront.whole hne) _ [], List.append_nil]
      exact head_of_cut_none hcut
  rw [hlines, List.append_assoc, parse_of_reads hheads hbody hhead hjoined]

theorem LeadsToTag.parse_append (hfront : LeadsToTag front) :
    ∃ frontmatter opened built, ∀ source rest scan,
      Line.Gathered (Point.origin.advance front) source rest →
      Line.startsWithTag ⟨source, Point.origin.advance front⟩ = true →
      Scan.Reads none (Point.origin.advance front) (source ++ rest) scan →
      parse (String.ofList (front ++ (source ++ rest))) =
        (assemble scan.fence opened built (Mark.ofItems scan.items)).map
          (Document.mk frontmatter) := by
  obtain ⟨hreaches, opened, built, hopened⟩ := hfront.exists_marks
  obtain ⟨frontmatter, hparse⟩ := hreaches.parse_append
  refine ⟨frontmatter, opened, built, ?_⟩
  intro source rest scan hgathered hstart hrest
  rw [hparse source rest scan hgathered hstart hrest,
    Mark.ofItems_append (hrest.apart hgathered hstart), hopened]

theorem LeadsToTag.parse_fault (hfront : LeadsToTag front) {source : List Char} {fault : Fault}
    (rest : List Char) (hgathered : Line.Gathered (Point.origin.advance front) source rest)
    (hstart : Line.startsWithTag ⟨source, Point.origin.advance front⟩ = true)
    (hcut : segments (Point.origin.advance front) source = .error fault) :
    parse (String.ofList (front ++ (source ++ rest))) = .error fault := by
  obtain ⟨frontmatter, opened, built, hparse⟩ := hfront.parse_append
  rw [hparse source rest _ hgathered hstart (.fault hgathered hstart hcut)]
  rfl

end Document

end Tagmark
