import Tagmark.Proofs.Document.FenceScope
import Tagmark.Proofs.Document.Print
import Tagmark.Proofs.Document.Retelling
import Tagmark.Proofs.Tag.Respaced

/-!
Tags with other white space in documents. The lines of a tag are gathered by a search for
delimiters that does not know quoted text. As long as this search takes the tag for open at each
newline in it, white space between its tokens has no meaning; otherwise the tag is cut off at a
newline and the document is refused (`Document.parse_respaced`).
-/

namespace Tagmark

/-- Up to each newline in the text of a tag, the tag is taken for open. -/
def Line.StaysOpen (body : List Char) : Prop :=
  ∀ front back, body = front ++ '\n' :: back →
    Line.endsInTag ⟨'{' :: '%' :: (front ++ ['\n']), .origin⟩ = true

theorem Line.endsInTag_of_unclosed {body : List Char}
    (hunclosed : Text.contains ['%', '}'] ('{' :: '%' :: body) = false) (point : Point) :
    endsInTag ⟨'{' :: '%' :: body, point⟩ = true := by
  unfold endsInTag
  split
  · next hlast =>
      have hopening := Text.cut?_eq_none_of_lastFrom? (List.cons_ne_nil _ _) hlast
      rw [Text.cut?_opening] at hopening
      cases hopening
  · next found hlast =>
      obtain ⟨left, tail, hsource, -⟩ := Text.exists_of_lastFrom? hlast
      dsimp only at hsource
      rw [Text.contains, hsource, Option.isSome_eq_false_iff, Option.isNone_iff_eq_none]
        at hunclosed
      unfold Text.contains
      rw [Text.cut?_of_append_right hunclosed]
      rfl

theorem Line.staysOpen_of_cut {body front : List Char}
    (hcut : Text.cut? ['%', '}'] ('{' :: '%' :: body) = some (front, [])) :
    Line.StaysOpen body := by
  intro seen unseen hbody
  have hwhole := Text.cut?_eq_some hcut
  rw [List.append_nil, hbody] at hwhole
  have hprefix : ∃ more, front = '{' :: '%' :: (seen ++ ['\n']) ++ more := by
    have hsplit : front ++ ['%', '}'] = '{' :: '%' :: seen ++ '\n' :: unseen := by
      rw [← hwhole]
      rfl
    rcases Text.append_eq_split hsplit with ⟨more, rfl, -⟩ | ⟨more, -, hdelimiter⟩
    · exact ⟨more, by simp⟩
    · have hmem : '\n' ∈ ['%', '}'] := by simp [hdelimiter]
      exact absurd hmem (by decide)
  obtain ⟨more, rfl⟩ := hprefix
  apply Line.endsInTag_of_unclosed
  unfold Text.contains
  rw [Text.cut?_of_append (Text.cut?_before hcut (List.cons_ne_nil _ _))]
  rfl

section Segments

variable {start : Point} {before body variant : List Char} {front : List Segment}

theorem Retelling.sameSegment_refl (segment : Segment) :
    unplaced.SameSegment segment segment := by
  cases segment with
  | tag group => exact .tag ⟨rfl, rfl⟩
  | text text start =>
      have hsame : unplaced.SameSegment (.text text start) (.text (unplaced.tell text) start) :=
        .text (.inl rfl) rfl
      rwa [tell_unplaced] at hsame

theorem Retelling.segments_unplaced (start start' : Point) (text : List Char) :
    unplaced.SameResult (List.Forall₂ unplaced.SameSegment) (segments start text)
      (segments start' text) := by
  have hsame : unplaced.SameResult (List.Forall₂ unplaced.SameSegment) (segments start text)
      (segments start' (unplaced.tell text)) :=
    unplaced.segments_tell (place_unplaced start start') (.inl rfl)
  rwa [tell_unplaced] at hsame

theorem Retelling.sameItem_refl (item : Item) : unplaced.SameItem item item := by
  cases item with
  | content line => exact .content ⟨(tell_unplaced _).symm, rfl, .inl rfl⟩
  | tag group => exact .tag ⟨rfl, rfl⟩
  | fault fault => exact .fault rfl

theorem Segment.LeadTo.respaced (hlead : Segment.LeadTo start before front)
    (hspaced : Respaced body variant) (back : List Char) :
    Retelling.unplaced.SameResult (List.Forall₂ Retelling.unplaced.SameSegment)
      (segments start (before ++ '{' :: '%' :: (body ++ back)))
      (segments start (before ++ '{' :: '%' :: (variant ++ back))) := by
  rw [hlead, hlead]
  have hread := hspaced.readTag (start.advance before)
    ((start.advance before).advance ['{', '%']) (start.advance before)
    ((start.advance before).advance ['{', '%']) back
  generalize readTag _ _ (body ++ back) = left at hread
  generalize readTag _ _ (variant ++ back) = right at hread
  cases hread with
  | error hfault => exact .error hfault
  | @ok tag tag' hsame =>
      have hafter : tag'.after = tag.after := hsame.after.trans (Retelling.tell_unplaced _)
      dsimp only [Except.bind]
      rw [hafter]
      apply (Retelling.segments_unplaced tag.stop tag'.stop tag.after).map
      intro rest rest' hrest
      have hgroup : Retelling.unplaced.SameGroup (tag.group (start.advance before))
          (tag'.group (start.advance before)) :=
        ⟨Retelling.unplaced.significant_cons_congr rfl rfl hsame.tokens, rfl⟩
      have hfront : List.Forall₂ Retelling.unplaced.SameSegment front front :=
        List.forall₂_same.2 fun segment _ => Retelling.sameSegment_refl segment
      exact List.rel_append hfront (.cons (.tag hgroup) hrest)

theorem Segment.LeadTo.respaced_cut (hlead : Segment.LeadTo start before front)
    (hspaced : Respaced body variant) (hline : '\n' ∉ body) {seen unseen : List Char}
    (hvariant : variant = seen ++ '\n' :: unseen) :
    segments start (before ++ '{' :: '%' :: (seen ++ ['\n'])) =
      .error (.unterminatedTag (start.advance before)) := by
  rw [hlead, hspaced.readTag_cut hline hvariant]
  rfl

end Segments

section Gathered

variable {point : Point} {before body variant back rest : List Char}

theorem Line.pending_opening {text : List Char}
    (hbefore : ∀ front behind, before = front ++ '\n' :: behind →
      Line.endsInTag ⟨front ++ ['\n'], point⟩ = true)
    (htext : ∀ front behind, text = front ++ '\n' :: behind → behind ≠ [] →
      Line.endsInTag ⟨before ++ '{' :: '%' :: (front ++ ['\n']), point⟩ = true)
    (front behind : List Char) (heq : before ++ '{' :: '%' :: text = front ++ '\n' :: behind)
    (hbehind : behind ≠ []) : Line.endsInTag ⟨front ++ ['\n'], point⟩ = true := by
  have hsplit : before ++ ['{', '%'] ++ text = front ++ '\n' :: behind := by
    rw [List.append_assoc]
    exact heq
  rcases Text.append_eq_split hsplit with ⟨more, hmore, -⟩ | ⟨more, rfl, hmore⟩
  · rcases Text.append_eq_split hmore with ⟨between, hbetween, -⟩ | ⟨between, -, hdelimiter⟩
    · exact hbefore front between hbetween
    · have hmem : '\n' ∈ ['{', '%'] := by simp [hdelimiter]
      exact absurd hmem (by decide)
  · simpa using htext more behind hmore hbehind

theorem Line.Gathered.before_opening {text : List Char}
    (hgathered : Line.Gathered point (before ++ '{' :: '%' :: text) rest) (front behind : List Char)
    (hbefore : before = front ++ '\n' :: behind) :
    Line.endsInTag ⟨front ++ ['\n'], point⟩ = true :=
  hgathered.pending front (behind ++ '{' :: '%' :: text) (by simp [hbefore]) (by simp)

theorem Line.Gathered.respaced
    (hgathered : Line.Gathered point (before ++ '{' :: '%' :: (body ++ back)) rest)
    (hspaced : Respaced body variant) (hopen : Line.StaysOpen variant) :
    Line.Gathered point (before ++ '{' :: '%' :: (variant ++ back)) rest := by
  obtain ⟨inner, hbody⟩ := hspaced.refl.exists_closing
  obtain ⟨inner', hvariant⟩ := hspaced.exists_closing
  have hsame : ∀ text, Line.endsInTag ⟨before ++ '{' :: '%' :: (variant ++ text), point⟩ =
      Line.endsInTag ⟨before ++ '{' :: '%' :: (body ++ text), point⟩ := by
    intro text
    have hclosing := Line.endsInTag_closing (before ++ '{' :: '%' :: inner')
      (before ++ '{' :: '%' :: inner) text point point
    rw [hbody, hvariant]
    simpa using hclosing
  constructor
  · apply Line.pending_opening hgathered.before_opening
    intro front behind htext hbehind
    rcases Text.append_eq_split htext with ⟨more, hmore, -⟩ | ⟨more, rfl, hback⟩
    · rw [Line.endsInTag_opening before _ point .origin]
      exact hopen front more hmore
    · rw [List.append_assoc, hsame]
      have hpending := hgathered.pending (before ++ '{' :: '%' :: (body ++ more)) behind
        (by simp [hback]) hbehind
      simpa using hpending
  · intro hrest
    obtain ⟨hlast, hclosed⟩ := hgathered.complete hrest
    refine ⟨?_, (hsame back).trans hclosed⟩
    rcases List.eq_nil_or_concat back with rfl | ⟨back, last, rfl⟩
    · have hsource : before ++ '{' :: '%' :: (body ++ []) =
          (before ++ '{' :: '%' :: (inner ++ ['%'])) ++ ['}'] := by
        simp [hbody]
      rw [hsource, List.getLast?_concat] at hlast
      cases hlast
    · have hends : ∀ text, (before ++ '{' :: '%' :: (text ++ back.concat last)).getLast? =
          some last := by
        intro text
        have hsource : before ++ '{' :: '%' :: (text ++ back.concat last) =
            (before ++ '{' :: '%' :: (text ++ back)) ++ [last] := by
          simp
        rw [hsource, List.getLast?_concat]
      rw [hends] at hlast ⊢
      exact hlast

theorem Line.gathered_of_first_closed
    (hbefore : ∀ front behind, before = front ++ '\n' :: behind →
      Line.endsInTag ⟨front ++ ['\n'], point⟩ = true)
    {seen : List Char} (hopen : Line.StaysOpen seen)
    (hclosed : Line.endsInTag ⟨'{' :: '%' :: (seen ++ ['\n']), .origin⟩ = false)
    (unseen : List Char) :
    Line.Gathered point (before ++ '{' :: '%' :: (seen ++ ['\n'])) unseen := by
  constructor
  · apply Line.pending_opening hbefore
    intro front behind htext hbehind
    rcases Text.append_eq_split htext with ⟨more, hmore, -⟩ | ⟨more, rfl, hmore⟩
    · rw [Line.endsInTag_opening before _ point .origin]
      exact hopen front more hmore
    · rcases more with _ | ⟨c, more⟩
      · exact absurd (List.cons.inj hmore).2.symm hbehind
      · simp at hmore
  · intro _
    have hlast : (before ++ '{' :: '%' :: (seen ++ ['\n'])).getLast? = some '\n' := by
      rw [← List.cons_append, ← List.cons_append, ← List.append_assoc, List.getLast?_concat]
    refine ⟨hlast, ?_⟩
    rw [Line.endsInTag_opening before _ point .origin]
    exact hclosed

theorem Line.exists_first_closed (hclosed : ¬ Line.StaysOpen variant) :
    ∃ seen unseen, variant = seen ++ '\n' :: unseen ∧ Line.StaysOpen seen ∧
      Line.endsInTag ⟨'{' :: '%' :: (seen ++ ['\n']), .origin⟩ = false := by
  induction hlength : variant.length using Nat.strongRecOn generalizing variant with
  | ind length induction =>
      subst hlength
      have hfound := hclosed
      simp only [Line.StaysOpen, Classical.not_forall, Bool.not_eq_true] at hfound
      obtain ⟨seen, unseen, hvariant, hhere⟩ := hfound
      by_cases hopen : Line.StaysOpen seen
      · exact ⟨seen, unseen, hvariant, hopen, hhere⟩
      · obtain ⟨first, more, rfl, hfirst⟩ :=
          induction seen.length (by simp [hvariant]) hopen rfl
        exact ⟨first, more ++ '\n' :: unseen, by simp [hvariant], hfirst⟩

end Gathered

theorem Scan.Reads.unplaced {fence other : Option Fence} {point : Point} {text : List Char}
    {scan : Scan} (hreads : Reads fence point text scan)
    (hfence : Retelling.unplaced.SameFence fence other) (place : Point) :
    ∃ scan', Reads other place text scan' ∧ Retelling.unplaced.SameScan scan scan' := by
  have hlines := Text.areLines_splitLines text
  have hown := (reads_scan hlines).1 fence point
  have hother := (reads_scan hlines).1 other place
  rw [Text.flatten_splitLines] at hown hother
  obtain rfl := hreads.unique hown
  have hplaces : List.Forall₂ Retelling.unplaced.SameLine (Line.place point (Text.splitLines text))
      (Line.place place ((Text.splitLines text).map Retelling.unplaced.tell)) :=
    Retelling.unplaced.sameLines_place (Retelling.place_unplaced point place) (.inl rfl)
  rw [funext Retelling.tell_unplaced, List.map_id'] at hplaces
  exact ⟨_, hother, (Retelling.sameScan_scan hplaces).1 hfence⟩

section TagLine

variable {point : Point} {before body variant back rest : List Char} {cut : List Segment}
  {after : Scan} {front : List Segment}

theorem Scan.TagLine.respaced
    (htag : Scan.TagLine point (before ++ '{' :: '%' :: (body ++ back)) rest cut after)
    (hlead : Segment.LeadTo point before front) (hspaced : Respaced body variant)
    (hopen : Line.StaysOpen variant) :
    ∃ cut' after', Scan.TagLine point (before ++ '{' :: '%' :: (variant ++ back)) rest cut' after' ∧
      List.Forall₂ Retelling.unplaced.SameItem (Segment.items cut) (Segment.items cut') ∧
      Retelling.unplaced.SameScan after after' := by
  obtain ⟨hgathered, hstart, hcut, hreads⟩ := htag
  have hsegments := hlead.respaced hspaced back
  rw [hcut] at hsegments
  generalize hcut' : segments point (before ++ '{' :: '%' :: (variant ++ back)) = result
    at hsegments
  cases hsegments with
  | @ok _ cut' hsame =>
      have hitems := Retelling.sameItems_of_segments hsame
      have hnone : Retelling.unplaced.SameFence none none := ⟨rfl, by simp⟩
      obtain ⟨after', hreads', hafter⟩ := hreads.unplaced (hnone.after hitems)
        (point.advance (before ++ '{' :: '%' :: (variant ++ back)))
      refine ⟨cut', after', ⟨hgathered.respaced hspaced hopen, ?_, hcut', hreads'⟩, hitems, hafter⟩
      rw [Line.startsWithTag_opening before _ (body ++ back)]
      exact hstart

theorem Scan.TagLine.respaced_cut
    (htag : Scan.TagLine point (before ++ '{' :: '%' :: (body ++ back)) rest cut after)
    (hlead : Segment.LeadTo point before front) (hspaced : Respaced body variant)
    (hline : '\n' ∉ body) (hclosed : ¬ Line.StaysOpen variant) :
    ∃ source unseen, before ++ '{' :: '%' :: (variant ++ back) ++ rest = source ++ unseen ∧
      Line.Gathered point source unseen ∧ Line.startsWithTag ⟨source, point⟩ = true ∧
      segments point source = .error (.unterminatedTag (point.advance before)) := by
  obtain ⟨seen, unseen, hvariant, hopen, hhere⟩ := Line.exists_first_closed hclosed
  refine ⟨before ++ '{' :: '%' :: (seen ++ ['\n']), unseen ++ back ++ rest, ?_,
    Line.gathered_of_first_closed htag.gathered.before_opening hopen hhere _, ?_,
    hlead.respaced_cut hspaced hline hvariant⟩
  · simp [hvariant]
  · rw [Line.startsWithTag_opening before _ (body ++ back)]
    exact htag.starts

end TagLine

theorem Mark.joinContent_append {front back : List Item}
    (hback : ∀ line after, joinContent back ≠ .content line :: after) :
    joinContent (front ++ back) = joinContent front ++ joinContent back := by
  induction front with
  | nil => rfl
  | cons item front induction =>
      cases item with
      | tag group => exact congrArg (Item.tag group :: ·) induction
      | fault fault => exact congrArg (Item.fault fault :: ·) induction
      | content line =>
          rw [List.cons_append, joinContent, joinContent, induction]
          cases joinContent front with
          | nil =>
              rw [List.nil_append]
              split
              · next next after hjoin => exact absurd hjoin (hback next after)
              · rfl
          | cons first more => cases first <;> rfl

theorem Mark.ofItems_append {front back : List Item}
    (hback : ∀ line after, joinContent back ≠ .content line :: after) :
    ofItems (front ++ back) = ofItems front ++ ofItems back := by
  rw [ofItems, joinContent_append hback, List.filterMap_append]
  rfl

theorem assemble_fault {fence : Option Fence} {stack : List OpenTag} {nodes tree : List Node}
    {front back : List Mark} (htree : assemble fence stack nodes (front ++ back) = .ok tree)
    (other : Option Fence) (fault : Fault) :
    assemble other stack nodes (front ++ [.fault fault]) = .error fault := by
  induction front generalizing stack nodes with
  | nil => rfl
  | cons mark front induction =>
      cases mark with
      | content value span => exact induction htree
      | leaf tag => exact induction htree
      | opening name attributes start => exact induction htree
      | fault fault => cases htree
      | closing name span =>
          cases stack with
          | nil => cases htree
          | cons innermost outer =>
              rw [List.cons_append, assemble] at htree ⊢
              split
              · next hname =>
                  rw [if_pos hname] at htree
                  exact induction htree
              · next hname =>
                  rw [if_neg hname] at htree
                  cases htree

theorem Scan.TagLine.exists_tag {point : Point} {source rest : List Char} {cut : List Segment}
    {after : Scan} (htag : Scan.TagLine point source rest cut after) :
    ∃ group more, Segment.items cut = .tag group :: more := by
  obtain ⟨gap, behind, hgap, rfl⟩ := Line.startsWithTag_iff.1 htag.starts
  have hmem : '{' ∉ gap := fun hmem => absurd (List.all_eq_true.1 hgap _ hmem) (by decide)
  have hopening := Text.cut?_opening_of_not_mem hmem behind
  rcases segments_eq_ok htag.cut_eq with ⟨hnone, -⟩ | ⟨before, text, tag, rest, hcut, -, -, rfl⟩
  · cases hnone.symm.trans hopening
  · cases hcut.symm.trans hopening
    rw [Segment.items_ofText_append, if_pos hgap]
    exact ⟨_, _, rfl⟩

theorem Line.Gathered.head {point : Point} {source rest : List Char}
    (hgathered : Line.Gathered point source rest)
    (hstart : Line.startsWithTag ⟨source, point⟩ = true) :
    ∀ line ∈ (Text.splitLines (source ++ rest)).head?, Text.trimEnd line ≠ ['-', '-', '-'] := by
  intro line hmem
  have hlines := Text.areLines_splitLines (source ++ rest)
  have hflatten := Text.flatten_splitLines (source ++ rest)
  cases hsplit : Text.splitLines (source ++ rest) with
  | nil =>
      rw [hsplit] at hmem
      cases hmem
  | cons first others =>
      rw [hsplit] at hmem hlines hflatten
      cases hmem
      exact Line.not_hyphens_of_startsWithTag
        (hgathered.startsWithTag_line hstart hlines.1 hflatten)

namespace Document

theorem head_of_cut_none {text : List Char} {body : List Line}
    (hcut : cutFrontmatter (Line.ofText text) = .ok (none, body)) :
    ∀ line ∈ (Text.splitLines text).head?, Text.trimEnd line ≠ ['-', '-', '-'] := by
  intro line hmem
  unfold Line.ofText at hcut
  cases hsplit : Text.splitLines text with
  | nil =>
      rw [hsplit] at hmem
      cases hmem
  | cons first rest =>
      rw [hsplit] at hmem hcut
      cases hmem
      rw [Line.place, cutFrontmatter] at hcut
      split at hcut
      · split at hcut <;> cases hcut
      · next hplain => simpa [Line.isFrontmatterFence] using hplain

theorem eq_ok_of_map {result : Except Fault (List Node)} {frontmatter : Option String}
    {document : Document} (hmap : result.map (Document.mk frontmatter) = .ok document) :
    result = .ok document.children ∧ document.frontmatter = frontmatter := by
  cases result with
  | error fault => cases hmap
  | ok nodes =>
      cases hmap
      exact ⟨rfl, rfl⟩

theorem head_append {front : List Char} (hne : front ≠ []) (hended : front.getLast? = some '\n')
    (rest other : List Char) :
    (Text.splitLines (front ++ rest)).head? = (Text.splitLines (front ++ other)).head? := by
  have hlines : Text.splitLines front ≠ [] := by
    intro hnil
    have hflatten := Text.flatten_splitLines front
    rw [hnil] at hflatten
    exact hne hflatten.symm
  rw [Text.splitLines_append_of_ended hended, Text.splitLines_append_of_ended hended,
    List.head?_append_of_ne_nil _ hlines, List.head?_append_of_ne_nil _ hlines]

/-- A tag of a document is one of a tag line in its body. Whatever tag line and text are in the place
of that line and the text after it, the frontmatter and the items before it are the same. -/
theorem around {text : List Char} {document : Document} {group : TokenGroup}
    (hparse : parse (String.ofList text) = .ok document)
    (hgroup : .tag group ∈ items (String.ofList text)) :
    ∃ front source rest cut before after, text = front ++ (source ++ rest) ∧
      Scan.TagLine (Point.origin.advance front) source rest cut after ∧ .tag group ∈ cut ∧
      assemble after.fence [] [] (Mark.ofItems (before ++ (Segment.items cut ++ after.items))) =
        .ok document.children ∧
      ∀ source' rest' scan, Line.Gathered (Point.origin.advance front) source' rest' →
        Line.startsWithTag ⟨source', Point.origin.advance front⟩ = true →
        Scan.Reads none (Point.origin.advance front) (source' ++ rest') scan →
        parse (String.ofList (front ++ (source' ++ rest'))) =
          (assemble scan.fence [] [] (Mark.ofItems (before ++ scan.items))).map
            (Document.mk document.frontmatter) := by
  cases hcut : cutFrontmatter (Line.ofText (String.ofList text).toList) with
  | error fault =>
      unfold parse at hparse
      rw [hcut] at hparse
      cases hparse
  | ok pair =>
      obtain ⟨frontmatter, body⟩ := pair
      obtain ⟨block, lines, hsplit, hheads, hreads⟩ := reads_of_cut hcut
      rw [items_of_cut hcut] at hgroup
      obtain ⟨front, source, rest, cut, before, after, hlines, hended, hscan, htag, hmem, hother⟩ :=
        hreads.around hgroup
      rw [parse_eq_map hcut, Mark.ofLines, hscan] at hparse
      obtain ⟨htree, rfl⟩ := eq_ok_of_map hparse
      rw [String.toList_ofList] at hcut hsplit
      have htext : text = block.flatten ++ front ++ (source ++ rest) := by
        rw [List.append_assoc, ← hlines, ← List.flatten_append, ← hsplit, Text.flatten_splitLines]
      refine ⟨block.flatten ++ front, source, rest, cut, before, after, htext, ?_, hmem, htree, ?_⟩
      · rw [Point.advance_append]
        exact htag
      · intro source' rest' scan hgathered hstart hread
        rw [Point.advance_append] at hgathered hstart hread
        have hnew : Text.splitLines (block.flatten ++ (front ++ (source' ++ rest'))) =
            block ++ Text.splitLines (front ++ (source' ++ rest')) := by
          apply Text.splitLines_replace hsplit
          rw [hlines]
          simp [Line.append_ne_nil_of_startsWithTag htag.starts]
        have hhead : document.frontmatter = none →
            ∀ line ∈ (Text.splitLines (front ++ (source' ++ rest'))).head?,
              Text.trimEnd line ≠ ['-', '-', '-'] := by
          intro hnone
          rw [hnone] at hheads hcut
          cases hheads
          by_cases hne : front = []
          · subst hne
            exact hgathered.head hstart
          · have hold := head_of_cut_none hcut
            rw [htext] at hold
            rw [head_append hne (hended hne) _ (source ++ rest)]
            exact hold
        rw [List.append_assoc]
        exact parse_of_reads hheads hnew hhead (hother _ _ hread)

theorem tagLine_of_span {before body after front source rest : List Char} {cut : List Segment}
    {later : Scan} {group : TokenGroup}
    (htext : before ++ '{' :: '%' :: (body ++ after) = front ++ (source ++ rest))
    (htag : Scan.TagLine (Point.origin.advance front) source rest cut later)
    (hmem : .tag group ∈ cut)
    (hspan : group.span = .covering (Point.origin.advance before) ('{' :: '%' :: body)) :
    ∃ gap back leading, before = front ++ gap ∧ after = back ++ rest ∧
      source = gap ++ '{' :: '%' :: (body ++ back) ∧
      Segment.LeadTo (Point.origin.advance front) gap leading := by
  obtain ⟨gap, text, tag, leading, rfl, hread, rfl, hlead⟩ := segments_around htag.cut_eq hmem
  obtain ⟨inner, rfl, hstop, -⟩ := readTag_frame hread
  obtain ⟨hstart, hend⟩ := Span.mk.inj hspan
  rw [hstop, ← Point.advance_append, ← Point.advance_append, ← Point.advance_append,
    ← Point.advance_append] at hend
  rw [← Point.advance_append] at hstart
  have hsplit : before ++ '{' :: '%' :: (body ++ after) =
      (front ++ gap) ++ '{' :: '%' :: (inner ++ ['%', '}'] ++ (tag.after ++ rest)) := by
    rw [htext]
    simp
  obtain ⟨rfl, hbehind⟩ := Point.append_inj hstart.symm hsplit
  obtain ⟨-, hbehind⟩ := List.cons.inj hbehind
  obtain ⟨-, hbehind⟩ := List.cons.inj hbehind
  have hwhole : front ++ gap ++ '{' :: '%' :: body ++ after =
      front ++ gap ++ ['{', '%'] ++ (inner ++ ['%', '}']) ++ (tag.after ++ rest) := by
    simp [hbehind]
  obtain ⟨hbody, rfl⟩ := Point.append_inj (by simpa using hend.symm) hwhole
  refine ⟨gap, tag.after, leading, rfl, rfl, ?_, hlead⟩
  simp at hbody
  simp [hbody]

/-- White space between the tokens of a tag on one line has no meaning as long as, up to each newline
in it, the tag is taken for open. Otherwise the document is refused, for a tag that does not end. -/
theorem parse_respaced {before body variant after : List Char} {document : Document}
    {group : TokenGroup}
    (hparse : parse (String.ofList (before ++ '{' :: '%' :: (body ++ after))) = .ok document)
    (hgroup : .tag group ∈ items (String.ofList (before ++ '{' :: '%' :: (body ++ after))))
    (hspan : group.span = .covering (Point.origin.advance before) ('{' :: '%' :: body))
    (hline : '\n' ∉ body) (hspaced : Respaced body variant) :
    (Line.StaysOpen variant → ∃ respaced,
      parse (String.ofList (before ++ '{' :: '%' :: (variant ++ after))) = .ok respaced ∧
        respaced.relocate Point.forget = document.relocate Point.forget) ∧
    (¬ Line.StaysOpen variant →
      parse (String.ofList (before ++ '{' :: '%' :: (variant ++ after))) =
        .error (.unterminatedTag (Point.origin.advance before))) := by
  obtain ⟨front, source, rest, cut, earlier, later, htext, htag, hmem, htree, hother⟩ :=
    around hparse hgroup
  obtain ⟨gap, back, leading, rfl, rfl, rfl, hlead⟩ := tagLine_of_span htext htag hmem hspan
  have hwhole : front ++ gap ++ '{' :: '%' :: (variant ++ (back ++ rest)) =
      front ++ (gap ++ '{' :: '%' :: (variant ++ back) ++ rest) := by
    simp
  rw [hwhole]
  constructor
  · intro hopen
    obtain ⟨cut', later', htag', hitems, hlater⟩ := htag.respaced hlead hspaced hopen
    have hearlier : List.Forall₂ Retelling.unplaced.SameItem earlier earlier :=
      List.forall₂_same.2 fun item _ => Retelling.sameItem_refl item
    have hscan : Retelling.unplaced.SameScan
        ⟨earlier ++ (Segment.items cut ++ later.items), later.fence⟩
        ⟨earlier ++ (Segment.items cut' ++ later'.items), later'.fence⟩ :=
      ⟨List.rel_append hearlier (List.rel_append hitems hlater.items), hlater.fence⟩
    have hnodes := Retelling.nodes_assemble hscan
    rw [htree] at hnodes
    obtain ⟨nodes, hnodes', hsame⟩ := Retelling.unplaced.exists_of_result_eq_ok hnodes.symm
    refine ⟨⟨document.frontmatter, nodes⟩, ?_, ?_⟩
    · rw [hother _ _ _ htag'.gathered htag'.starts
        (.tags htag'.gathered htag'.starts htag'.cut_eq htag'.reads)]
      exact congrArg (Except.map (Document.mk document.frontmatter)) hnodes'
    · unfold relocate
      rw [← View.nodes_ofPlaces, ← View.nodes_ofPlaces]
      exact congrArg (Document.mk document.frontmatter) hsame
  · intro hclosed
    obtain ⟨source, unseen, hsource, hgathered, hstart, hcut⟩ :=
      htag.respaced_cut hlead hspaced hline hclosed
    obtain ⟨first, more, hfirst⟩ := htag.exists_tag
    rw [hsource, hother _ _ _ hgathered hstart (.fault hgathered hstart hcut)]
    rw [hfirst, List.cons_append, Mark.ofItems_append (by simp [Mark.joinContent])] at htree
    rw [Mark.ofItems_append (by simp [Mark.joinContent])]
    have hfault := assemble_fault htree none
      (.unterminatedTag ((Point.origin.advance front).advance gap))
    rw [Point.advance_append]
    exact congrArg (Except.map (Document.mk document.frontmatter)) hfault

def covers (span : Span) : Item → Bool
  | .tag group => group.span == span
  | _ => false

theorem exists_of_any_covers {span : Span} {items : List Item}
    (hany : items.any (covers span) = true) : ∃ group, .tag group ∈ items ∧ group.span = span := by
  obtain ⟨item, hmem, hitem⟩ := List.any_eq_true.1 hany
  cases item with
  | content line => cases hitem
  | tag group => exact ⟨group, hmem, eq_of_beq hitem⟩
  | fault fault => cases hitem

theorem parse_respaced_lines :
    let before := "---\n---\n```\n```\n".toList
    let body := [' ', 'a', ' ', 'k', '=', '"', '{', '%', '"', ' ', 'l', '=', '1', '%', '}']
    let variant := ['\n', ' ', 'a', '\r', '\n', 'k', '=', '"', '{', '%', '"', '\t', '\n', 'l', '=',
      '1', '%', '}']
    let after := "\nb\n\x7b% /a %\x7d\n".toList
    '\n' ∉ body ∧ Respaced body variant ∧ Line.StaysOpen variant ∧
      ∃ document respaced,
        parse (String.ofList (before ++ '{' :: '%' :: (body ++ after))) = .ok document ∧
        parse (String.ofList (before ++ '{' :: '%' :: (variant ++ after))) = .ok respaced ∧
        respaced.relocate Point.forget = document.relocate Point.forget := by
  intro before body variant after
  have hline : '\n' ∉ body := by decide
  have hspaced : Respaced body variant := by
    refine @Respaced.spaces [' '] ['\n', ' '] _ _ (by decide) (by decide) (by decide)
      (by decide) (.lexeme (c := 'a') rfl rfl rfl ?_)
    refine @Respaced.spaces [' '] ['\r', '\n'] _ _ (by decide) (by decide) (by decide)
      (by decide) (.lexeme (c := 'k') rfl rfl rfl (.lexeme (c := '=') rfl rfl rfl
        (.lexeme (c := '"') rfl rfl rfl ?_)))
    exact @Respaced.spaces [' '] ['\t', '\n'] _ _ (by decide) (by decide) (by decide)
      (by decide) (.lexeme (c := 'l') rfl rfl rfl (.lexeme (c := '=') rfl rfl rfl
        (.lexeme (c := '1') rfl rfl rfl .closing)))
  have hcut : Text.cut? ['%', '}'] ('{' :: '%' :: variant) =
      some (('{' :: '%' :: variant).take 18, []) := by
    decide +kernel
  have hopen := Line.staysOpen_of_cut hcut
  have hany : (items (String.ofList (before ++ '{' :: '%' :: (body ++ after)))).any
      (covers (.covering (Point.origin.advance before) ('{' :: '%' :: body))) = true := by
    decide +kernel
  obtain ⟨group, hgroup, hspan⟩ := exists_of_any_covers hany
  have hsome : (parse (String.ofList (before ++ '{' :: '%' :: (body ++ after)))).toOption.isSome =
      true := by
    decide +kernel
  obtain ⟨document, hparse⟩ := exists_parse_of_isSome hsome
  obtain ⟨respaced, hrespaced, hsame⟩ :=
    (parse_respaced hparse hgroup hspan hline hspaced).1 hopen
  exact ⟨hline, hspaced, hopen, document, respaced, hparse, hrespaced, hsame⟩

/-- A closing delimiter in quoted text cuts a tag off at a newline behind it, where the same tag on
one line is read to its end. -/
theorem quoted_closing_cuts_tag :
    let body := [' ', 'a', ' ', 'x', '=', '"', '%', '}', '"', ' ', 'y', '=', '1', '/', '%', '}']
    let variant := [' ', 'a', ' ', 'x', '=', '"', '%', '}', '"', '\n', 'y', '=', '1', '/', '%', '}']
    '\n' ∉ body ∧ Respaced body variant ∧
      (∃ document, parse (String.ofList ('{' :: '%' :: (body ++ ['\n']))) = .ok document) ∧
      parse (String.ofList ('{' :: '%' :: (variant ++ ['\n']))) =
        .error (.unterminatedTag Point.origin) := by
  intro body variant
  have hspaced : Respaced body variant := by
    refine @Respaced.spaces [' '] [' '] _ _ (by decide) (by decide) (by decide)
      (by decide) (.lexeme (c := 'a') rfl rfl rfl ?_)
    refine @Respaced.spaces [' '] [' '] _ _ (by decide) (by decide) (by decide)
      (by decide) (.lexeme (c := 'x') rfl rfl rfl (.lexeme (c := '=') rfl rfl rfl
        (.lexeme (c := '"') rfl rfl rfl ?_)))
    exact @Respaced.spaces [' '] ['\n'] _ _ (by decide) (by decide) (by decide)
      (by decide) (.lexeme (c := 'y') rfl rfl rfl (.lexeme (c := '=') rfl rfl rfl
        (.lexeme (c := '1') rfl rfl rfl .selfClosing)))
  have hsome : (parse (String.ofList ('{' :: '%' :: (body ++ ['\n'])))).toOption.isSome = true := by
    decide +kernel
  have hfault : fault? (String.ofList ('{' :: '%' :: (variant ++ ['\n']))) =
      some (.unterminatedTag Point.origin) := by
    decide +kernel
  exact ⟨by decide, hspaced, exists_parse_of_isSome hsome, parse_of_fault? hfault⟩

end Document

end Tagmark
