import Tagmark.Proofs.Document.Within
import Tagmark.Proofs.Tag.Coverage

/-!
Tag lines that are parted. Tags and text that share a line are read as if each of them stood on a
line of its own, as long as no text among them opens a code fence (`Document.parse_parted`). Every tag
of a text is on such a line (`Document.exists_hasTagLine`).
-/

namespace Tagmark

/-- The texts of segments with newlines before the tags behind the first one and before all text that
is not blank. -/
def Segment.parted (first : Bool) : List Segment → List (List Char) → List Char
  | .text value _ :: rest, source :: sources =>
      (if Text.isBlankText value then source else '\n' :: source) ++ parted first rest sources
  | .tag _ :: rest, source :: sources =>
      (if first then source else '\n' :: source) ++ parted false rest sources
  | _, _ => []

theorem Segment.parted_ofText (first : Bool) (point : Point) (text : List Char)
    (rest : List Segment) (sources : List (List Char)) :
    parted first (ofText point text ++ rest) (sourcesOf text ++ sources) =
      (if Text.isBlankText text then text else '\n' :: text) ++ parted first rest sources := by
  unfold ofText sourcesOf
  split
  · next hempty =>
      subst hempty
      rfl
  · rfl

/-- No text opens a code fence. -/
def Segment.Unfenced (cut : List Segment) : Prop :=
  ∀ text start, .text text start ∈ cut → Fence.ofLine? ⟨text, start⟩ = none

theorem Segment.Unfenced.ofText {point : Point} {text : List Char} {cut : List Segment}
    (hunfenced : Segment.Unfenced cut) (htext : Segment.ofText point text ⊆ cut) (hne : text ≠ []) :
    Fence.ofLine? ⟨text, point⟩ = none := by
  refine hunfenced text point (htext ?_)
  rw [Segment.ofText, if_neg hne]
  exact List.mem_singleton_self _

theorem Segment.Unfenced.fenceAfter {cut : List Segment} (hunfenced : Segment.Unfenced cut) :
    Item.fenceAfter none (Segment.items cut) = none := by
  induction cut with
  | nil => rfl
  | cons segment rest induction =>
      have hrest := induction fun text start hmem =>
        hunfenced text start (List.mem_cons_of_mem _ hmem)
      cases segment with
      | tag group => exact hrest
      | text text start =>
          rw [Segment.items]
          split
          · exact hrest
          · rw [Item.fenceAfter, Fence.next, hunfenced text start List.mem_cons_self]
            exact hrest

theorem TokenGroup.ReadsFrom.segments_append {group : TokenGroup} {start : Point}
    {source text : List Char} (hreads : group.ReadsFrom start source)
    (htext : Text.cut? ['{', '%'] text = none) :
    segments start (source ++ text) =
      .ok (.tag group :: Segment.ofText (start.advance source) text) := by
  obtain ⟨tag, body, rfl, hread, hafter, rfl⟩ := hreads.exists_readTag
  obtain ⟨front, hbody, hstop, hframe⟩ := segments_frame (Text.cut?_opening body) hread
  rw [hafter] at hbody
  have hother := hframe text
  rw [segments_of_cut_none _ htext, hstop] at hother
  rw [hbody]
  simpa [Segment.ofText, Except.map] using hother

theorem TokenGroup.ReadsFrom.exists_at {group : TokenGroup} {start : Point} {source : List Char}
    (hreads : group.ReadsFrom start source) (place : Point) :
    ∃ other : TokenGroup, other.ReadsFrom place source ∧
      Retelling.unplaced.SameGroup group other := by
  have hsame := Retelling.segments_unplaced start place source
  rw [show segments start source = .ok [.tag group] from hreads] at hsame
  generalize hcut : segments place source = result at hsame
  cases hsame with
  | ok hsame =>
      cases hsame with
      | cons hfirst hrest =>
          cases hrest
          cases hfirst with
          | tag hgroup => exact ⟨_, hcut, hgroup⟩

structure Line.HoldsTag (point : Point) (source : List Char) (group : TokenGroup) : Prop where
  starts : startsWithTag ⟨source, point⟩ = true
  pending : ∀ front back, source = front ++ '\n' :: back → endsInTag ⟨front ++ ['\n'], point⟩ = true
  cut : ∀ blank, Text.isBlankText blank = true →
    ∃ cut, segments point (source ++ blank) = .ok cut ∧ Segment.items cut = [.tag group]

theorem Line.holdsTag {point : Point} {gap body : List Char} {group : TokenGroup}
    (hgap : Text.isBlankText gap = true)
    (hpending : ∀ front back, gap = front ++ '\n' :: back →
      Line.endsInTag ⟨front ++ ['\n'], point⟩ = true)
    (hopen : Line.StaysOpen body)
    (hreads : group.ReadsFrom (point.advance gap) ('{' :: '%' :: body)) :
    Line.HoldsTag point (gap ++ '{' :: '%' :: body) group := by
  refine ⟨startsWithTag_iff.2 ⟨gap, body, hgap, rfl⟩, ?_, ?_⟩
  · obtain ⟨inner, hinner, -⟩ := hreads.source
    obtain ⟨-, hbody⟩ := List.cons.inj (List.cons.inj hinner).2
    intro front back hsplit
    refine pending_opening hpending (fun seen unseen heq _ => ?_) front back hsplit ?_
    · rw [endsInTag_opening gap _ point .origin]
      exact hopen seen unseen heq
    · rintro rfl
      have hsource : gap ++ '{' :: '%' :: body = gap ++ '{' :: '%' :: (inner ++ ['%']) ++ ['}'] := by
        simp [hbody]
      have hlast := congrArg List.getLast? (hsource.symm.trans hsplit)
      rw [List.getLast?_concat, List.getLast?_concat] at hlast
      cases hlast
  · intro blank hblank
    have hown := hreads.segments_append (Text.cut?_opening_of_blank hblank)
    rw [List.append_assoc]
    exact Segment.exists_items_tag hgap hblank hown

theorem Line.HoldsTag.reads {point : Point} {source rest : List Char} {group : TokenGroup}
    {scan : Scan} (hholds : Line.HoldsTag point source group) (blank : List Char)
    (hblank : Text.isBlankText blank = true) (hnewline : '\n' ∉ blank.dropLast)
    (hended : rest ≠ [] → blank.getLast? = some '\n')
    (hrest : Scan.Reads none (point.advance (source ++ blank)) rest scan) :
    Scan.Reads none point (source ++ (blank ++ rest))
      { scan with items := .tag group :: scan.items } := by
  obtain ⟨cut, hcut, hitems⟩ := hholds.cut blank hblank
  have hgathered : Line.Gathered point (source ++ blank) rest := by
    refine ⟨fun front back hsplit hback => ?_,
      fun hmore => ⟨?_, Line.endsInTag_of_segments hcut point⟩⟩
    · rcases Text.append_eq_split hsplit with ⟨more, hsource, -⟩ | ⟨more, rfl, hmore⟩
      · exact hholds.pending front more hsource
      · rw [hmore, List.dropLast_append_of_ne_nil (List.cons_ne_nil _ _),
          List.dropLast_cons_of_ne_nil hback] at hnewline
        exact absurd (by simp) hnewline
    · have hlast := hended hmore
      rw [List.getLast?_append, hlast]
      rfl
  have hreads : Scan.Reads none point (source ++ blank ++ rest)
      { scan with items := Segment.items cut ++ scan.items } :=
    .tags hgathered (Line.startsWithTag_append blank hholds.starts) hcut (by rwa [hitems])
  rwa [hitems, List.append_assoc] at hreads

theorem Fence.ofLine?_eq_none {line other : Line} (hnone : ofLine? line = none)
    (htext : Text.trimEnd other.text = Text.trimEnd line.text) : ofLine? other = none := by
  unfold ofLine? at hnone ⊢
  rw [Option.or_eq_none_iff, Option.map_eq_none_iff, Option.map_eq_none_iff] at hnone ⊢
  rw [htext]
  exact hnone

theorem Text.dropLineEnd_newline {text : List Char} (hnewline : '\n' ∉ text) :
    dropLineEnd (text ++ ['\n']) = dropLineEnd text := by
  have hnone : text.getLast? ≠ some '\n' := fun hlast => hnewline (List.mem_of_getLast? hlast)
  have hkeep : dropLast '\n' text = text := if_neg hnone
  have hdrop : dropLast '\n' (text ++ ['\n']) = text := by
    rw [dropLast, if_pos List.getLast?_concat, List.dropLast_concat]
  rw [dropLineEnd, dropLineEnd, hdrop, hkeep]

theorem Retelling.ofItem?_newline {text : List Char} (hnewline : '\n' ∉ text)
    (point place : Point) :
    (Mark.ofItem? (.content ⟨text ++ ['\n'], place⟩)).map unplaced.mark =
      (Mark.ofItem? (.content ⟨text, point⟩)).map unplaced.mark := by
  have hblank : Text.isBlankText (text ++ ['\n']) = Text.isBlankText text := by
    simp [Text.isBlankText, show Text.isBlank '\n' = true by decide]
  simp only [Mark.ofItem?, hblank, Text.dropLineEnd_newline hnewline]
  split <;> rfl

structure Scan.SameMarks (left right : Scan) : Prop where
  marks : (Mark.ofItems left.items).map Retelling.unplaced.mark =
    (Mark.ofItems right.items).map Retelling.unplaced.mark
  fence : left.fence.map Retelling.unplaced.fence = right.fence.map Retelling.unplaced.fence

namespace Scan.SameMarks

variable {left right : Scan} {group other : TokenGroup}

theorem of_sameScan (hsame : Retelling.unplaced.SameScan left right) : SameMarks left right :=
  ⟨Retelling.marks_ofItems hsame.items, hsame.fence.seen⟩

theorem tag (hgroup : Retelling.unplaced.SameGroup group other) (hsame : SameMarks left right) :
    SameMarks { left with items := .tag group :: left.items }
      { right with items := .tag other :: right.items } := by
  have hmark := Retelling.unplaced.mark_tag_congr hgroup
  rw [View.ofItem?_tag, View.ofItem?_tag] at hmark
  refine ⟨?_, hsame.fence⟩
  dsimp only
  rw [Mark.ofItems_tag (View.ofItem?_tag group), Mark.ofItems_tag (View.ofItem?_tag other),
    List.map_cons, List.map_cons, hsame.marks, Option.some.inj hmark]

theorem content_tag {text : List Char} (hnewline : '\n' ∉ text) (point place : Point)
    {items items' : List Item} (hleft : left.items = .tag group :: items)
    (hright : right.items = .tag other :: items') (hsame : SameMarks left right) :
    SameMarks { left with items := .content ⟨text, point⟩ :: left.items }
      { right with items := .content ⟨text ++ ['\n'], place⟩ :: right.items } := by
  have halone : ∀ (line : Line) (group : TokenGroup) (items : List Item),
      Mark.ofItems (.content line :: .tag group :: items) =
        (Mark.ofItem? (.content line)).toList ++ Mark.ofItems (.tag group :: items) := by
    intro line group items
    have hfront : Mark.ofItems [.content line] = (Mark.ofItem? (.content line)).toList := by
      change List.filterMap Mark.ofItem? [.content line] = _
      cases hmark : Mark.ofItem? (.content line) <;> simp [hmark]
    have happend : Mark.ofItems ([.content line] ++ .tag group :: items) =
        Mark.ofItems [.content line] ++ Mark.ofItems (.tag group :: items) :=
      Mark.ofItems_append fun _ _ h => by cases h
    rw [← hfront, ← happend]
    rfl
  have hcontent := Retelling.ofItem?_newline hnewline point place
  have hmarks := hsame.marks
  rw [hleft, hright] at hmarks
  refine ⟨?_, hsame.fence⟩
  dsimp only
  rw [hleft, hright, halone, halone, List.map_append, List.map_append, hmarks,
    ← Option.toList_map, ← Option.toList_map, hcontent]

end Scan.SameMarks

theorem Line.Gathered.staysOpen {start : Point} {source rest : List Char}
    (hgathered : Line.Gathered start source rest) (front inner after : List Char)
    (hsource : source = front ++ '{' :: '%' :: (inner ++ ['%', '}'] ++ after)) :
    Line.StaysOpen (inner ++ ['%', '}']) := by
  intro seen unseen hsplit
  rcases Text.append_eq_split hsplit with ⟨more, rfl, rfl⟩ | ⟨more, -, hmore⟩
  · have hopen := hgathered.pending (front ++ '{' :: '%' :: seen) (more ++ ['%', '}'] ++ after)
      (by simp [hsource]) (by simp)
    rw [List.append_assoc, List.cons_append, List.cons_append,
      Line.endsInTag_opening front _ start .origin] at hopen
    exact hopen
  · have hmem : '\n' ∈ ['%', '}'] := by simp [hmore]
    exact absurd hmem (by decide)

theorem Scan.Reads.content {point : Point} {text rest : List Char} {scan : Scan}
    (hline : Text.IsLine text rest) (hplain : Line.startsWithTag ⟨text, point⟩ = false)
    (hunfenced : Fence.ofLine? ⟨text, point⟩ = none)
    (hrest : Reads none (point.advance text) rest scan) :
    Reads none point (text ++ rest) { scan with items := .content ⟨text, point⟩ :: scan.items } := by
  refine .line hline (.inr hplain) ?_
  rw [Fence.next, hunfenced]
  exact hrest

section Parted

variable {start : Point} {source rest : List Char} {after : Scan}

/-- Behind any tag on any line, the segments of a tag line on lines of their own, and the text after
it, are read with the same marks as before. -/
def Segment.ReadsParted (rest : List Char) (after : Scan) (cut : List Segment)
    (sources : List (List Char)) : Prop :=
  ∀ place lead group, Line.HoldsTag place lead group → ∃ other,
    Scan.Reads none place (lead ++ (Segment.parted false cut sources ++ rest))
      { other with items := .tag group :: other.items } ∧
    Scan.SameMarks { after with items := Segment.items cut ++ after.items } other

theorem Segment.readsParted_ofText (hgathered : Line.Gathered start source rest)
    (hafter : Scan.Reads none (start.advance source) rest after) {point : Point} {text : List Char}
    (hcut : Text.cut? ['{', '%'] text = none) (hunfenced : Segment.Unfenced (Segment.ofText point text))
    {front : List Char} (hsource : source = front ++ '%' :: '}' :: text) :
    Segment.ReadsParted rest after (Segment.ofText point text) (Segment.sourcesOf text) := by
  intro place lead group hholds
  have hnone : Retelling.unplaced.SameFence none none := ⟨rfl, by simp⟩
  have hparted := Segment.parted_ofText false point text [] []
  have hitems := Segment.items_ofText_append point text []
  rw [List.append_nil] at hitems
  rw [List.append_nil, List.append_nil] at hparted
  have hwhole : source = front ++ '%' :: '}' :: (text ++ []) := by rw [hsource, List.append_nil]
  have hlast := hgathered.newline_last hwhole hcut
  have hended := hgathered.ended_last hsource
  rw [hparted, hitems]
  cases hblank : Text.isBlankText text with
  | true =>
      obtain ⟨other, hother, hsame⟩ := hafter.unplaced hnone (place.advance (lead ++ text))
      refine ⟨other, ?_, .of_sameScan hsame⟩
      simpa [Segment.parted] using hholds.reads text hblank hlast hended hother
  | false =>
      let below := place.advance (lead ++ ['\n'])
      obtain ⟨other, hother, hitems, hfence⟩ := hafter.unplaced hnone (below.advance text)
      have hline : Text.IsLine text rest := ⟨Text.ne_nil_of_not_blank hblank, hlast, hended⟩
      have hcontent : Fence.ofLine? ⟨text, below⟩ = none :=
        Fence.ofLine?_eq_none (hunfenced.ofText (List.Subset.refl _) hline.ne_nil) rfl
      refine ⟨{ other with items := .content ⟨text, below⟩ :: other.items }, ?_,
        .of_sameScan ⟨?_, hfence⟩⟩
      · have hread := hholds.reads ['\n'] (by decide) (by decide) (fun _ => rfl)
          (.content hline (Line.not_startsWithTag_of_cut hcut) hcontent hother)
        simpa [Segment.parted] using hread
      · exact .cons (.content ⟨(Retelling.tell_unplaced _).symm, rfl, .inl rfl⟩) hitems

section Tag

variable {point : Point} {before body : List Char} {group : TokenGroup} {cut : List Segment}
  {sources : List (List Char)}
  (hown : ∀ below, ∃ other : TokenGroup, Retelling.unplaced.SameGroup group other ∧
    Line.HoldsTag below ('{' :: '%' :: body) other)
  (hnewline : '\n' ∉ before) (hparted : Segment.ReadsParted rest after cut sources)

include hown hnewline hparted

theorem Segment.readsParted_tag_of_blank (hblank : Text.isBlankText before = true) :
    Segment.ReadsParted rest after (Segment.ofText point before ++ .tag group :: cut)
      (Segment.sourcesOf before ++ ('{' :: '%' :: body) :: sources) := by
  intro place lead first hholds
  rw [Segment.parted_ofText, Segment.items_ofText_append, Segment.parted, Segment.items, if_pos hblank,
    if_pos hblank]
  obtain ⟨other, hgroup, hholds'⟩ := hown (place.advance (lead ++ (before ++ ['\n'])))
  obtain ⟨scan, hscan, hsame⟩ := hparted _ _ other hholds'
  refine ⟨_, ?_, hsame.tag hgroup⟩
  have hread := hholds.reads (before ++ ['\n'])
    (Text.isBlankText_append.2 ⟨hblank, by decide⟩) (by simpa using hnewline)
    (fun _ => List.getLast?_concat) hscan
  simpa using hread

theorem Segment.readsParted_tag_of_content (hblank : Text.isBlankText before = false)
    (hcut : Text.cut? ['{', '%'] before = none)
    (hunfenced : Fence.ofLine? ⟨before, point⟩ = none) :
    Segment.ReadsParted rest after (Segment.ofText point before ++ .tag group :: cut)
      (Segment.sourcesOf before ++ ('{' :: '%' :: body) :: sources) := by
  intro place lead first hholds
  rw [Segment.parted_ofText, Segment.items_ofText_append, Segment.parted, Segment.items, hblank]
  let above := place.advance (lead ++ ['\n'])
  obtain ⟨other, hgroup, hholds'⟩ := hown (above.advance (before ++ ['\n']))
  obtain ⟨scan, hscan, hsame⟩ := hparted _ _ other hholds'
  have hcontent : Fence.ofLine? ⟨before ++ ['\n'], above⟩ = none :=
    Fence.ofLine?_eq_none hunfenced (Text.trimEnd_append_of_blank (by decide))
  have hstart : Line.startsWithTag ⟨before ++ ['\n'], above⟩ = false := by
    refine Bool.eq_false_iff.2 fun hstart => ?_
    have hbefore := Line.startsWithTag_of_concat_newline hstart
    rw [Line.not_startsWithTag_of_cut hcut] at hbefore
    cases hbefore
  refine ⟨_, ?_, .content_tag hnewline point above rfl rfl (hsame.tag hgroup)⟩
  have hread := hholds.reads ['\n'] (by decide) (by decide) (fun _ => rfl)
    (.content (Text.isLine_concat_newline hnewline _) hstart hcontent hscan)
  simpa using hread

end Tag

theorem Line.Gathered.holdsTag (hgathered : Line.Gathered start source rest) {point : Point}
    {body behind : List Char} {group : TokenGroup} (front : List Char)
    (hreads : group.ReadsFrom point ('{' :: '%' :: body))
    (hsource : source = front ++ '{' :: '%' :: (body ++ behind)) (below : Point) :
    ∃ other : TokenGroup, Retelling.unplaced.SameGroup group other ∧
      Line.HoldsTag below ('{' :: '%' :: body) other := by
  obtain ⟨inner, hinner, -⟩ := hreads.source
  obtain ⟨-, hbody⟩ := List.cons.inj (List.cons.inj hinner).2
  have hopen := hgathered.staysOpen front inner behind (by rw [hsource, hbody])
  obtain ⟨other, hother, hgroup⟩ := hreads.exists_at below
  exact ⟨other, hgroup, @Line.holdsTag below [] _ other rfl (by simp) (hbody ▸ hopen) hother⟩

theorem Segment.Tiles.exists_parted (hgathered : Line.Gathered start source rest)
    (hafter : Scan.Reads none (start.advance source) rest after) {point : Point} {text : List Char}
    {cut : List Segment} (htiles : Segment.Tiles point text cut)
    (hunfenced : Segment.Unfenced cut) (front : List Char)
    (hsource : source = front ++ '%' :: '}' :: text) :
    ∃ sources, sources.flatten = text ∧ Consecutive Segment.Covers point cut sources ∧
      Segment.ReadsParted rest after cut sources := by
  induction htiles generalizing front with
  | @text point text hcut =>
      exact ⟨Segment.sourcesOf text, Segment.flatten_sourcesOf text,
        Segment.consecutive_ofText hcut point,
        Segment.readsParted_ofText hgathered hafter hcut hunfenced hsource⟩
  | @tag point before body behind group cut hcut hreads _ induction =>
      obtain ⟨inner, hinner, -⟩ := hreads.source
      obtain ⟨-, hbody⟩ := List.cons.inj (List.cons.inj hinner).2
      obtain ⟨sources, hflatten, hcovers, hparted⟩ := induction
        (fun value place hmem => hunfenced value place (by simp [hmem]))
        (front ++ '%' :: '}' :: (before ++ '{' :: '%' :: inner)) (by simp [hsource, hbody])
      refine ⟨Segment.sourcesOf before ++ ('{' :: '%' :: body) :: sources,
        by simp [Segment.flatten_sourcesOf, hflatten],
        Segment.consecutive_tag hcut hreads hcovers, ?_⟩
      have hplain := Text.cut?_before hcut (List.cons_ne_nil _ _)
      have hnewline := hgathered.not_mem_newline hsource (List.cons_ne_nil _ _) hplain
      have hown := hgathered.holdsTag (front ++ '%' :: '}' :: before) hreads
        (by rw [hsource, List.append_assoc]; rfl)
      cases hblank : Text.isBlankText before with
      | true => exact Segment.readsParted_tag_of_blank hown hnewline hparted hblank
      | false =>
          exact Segment.readsParted_tag_of_content hown hnewline hparted hblank hplain
            (hunfenced.ofText (List.subset_append_left _ _) (Text.ne_nil_of_not_blank hblank))

theorem Scan.TagLine.exists_parted {point : Point} {cut : List Segment}
    (htag : Scan.TagLine point source rest cut after) (hunfenced : Segment.Unfenced cut) :
    ∃ sources, sources.flatten = source ∧ Consecutive Segment.Covers point cut sources ∧
      ∃ other group items, Scan.Reads none point (Segment.parted true cut sources ++ rest) other ∧
        other.items = .tag group :: items ∧
        Scan.SameMarks { after with items := Segment.items cut ++ after.items } other := by
  obtain ⟨hgathered, hstart, hcut, hafter⟩ := htag
  rw [hunfenced.fenceAfter] at hafter
  have htiles := tiles_of_segments hcut
  clear hcut
  cases htiles with
  | text hnone => exact absurd hnone (Line.cut?_ne_none_of_startsWithTag hstart)
  | @tag _ gap body behind group cut hcut hreads htiles =>
      obtain ⟨space, tail, hspace, hsource⟩ := Line.startsWithTag_iff.1 hstart
      have hmem : '{' ∉ space := Text.not_mem_of_blank (by decide) hspace
      obtain rfl : gap = space := by
        rw [hsource, Text.cut?_opening_of_not_mem hmem] at hcut
        exact (Prod.mk.inj (Option.some.inj hcut)).1.symm
      obtain ⟨inner, hinner, -⟩ := hreads.source
      obtain ⟨-, hbody⟩ := List.cons.inj (List.cons.inj hinner).2
      have hopen := hgathered.staysOpen gap inner behind (by simp [hbody])
      obtain ⟨sources, hflatten, hcovers, hparted⟩ := htiles.exists_parted hgathered hafter
        (fun value place hmem => hunfenced value place (by simp [hmem]))
        (gap ++ '{' :: '%' :: inner) (by simp [hbody])
      have hholds := Line.holdsTag hspace hgathered.before_opening (hbody ▸ hopen) hreads
      obtain ⟨other, hother, hsame⟩ := hparted point _ group hholds
      refine ⟨_, ?_, Segment.consecutive_tag hcut hreads hcovers,
        { other with items := .tag group :: other.items }, group, other.items, ?_, rfl, ?_⟩
      · simp [Segment.flatten_sourcesOf, hflatten]
      · rw [Segment.parted_ofText, if_pos hspace]
        simpa [Segment.parted] using hother
      · rw [Segment.items_ofText_append, if_pos hspace]
        exact hsame.tag ⟨rfl, rfl⟩

end Parted

theorem Scan.Reads.exists_gathered {fence : Option Fence} {point : Point} {text : List Char}
    {scan : Scan} (hreads : Reads fence point text scan) {group : TokenGroup} {items : List Item}
    (hitems : scan.items = .tag group :: items) :
    ∃ source rest, text = source ++ rest ∧ Line.Gathered point source rest ∧
      Line.startsWithTag ⟨source, point⟩ = true := by
  cases hreads with
  | done => cases hitems
  | line => cases hitems
  | tags hgathered hstart => exact ⟨_, _, rfl, hgathered, hstart⟩
  | fault => cases hitems

theorem Line.gathered_of_take {point : Point} {source rest : List Char}
    (hpending : ∀ count < source.length, source[count]? = some '\n' → count + 1 < source.length →
      endsInTag ⟨source.take (count + 1), point⟩ = true)
    (hcomplete : rest ≠ [] → source.getLast? = some '\n' ∧ endsInTag ⟨source, point⟩ = false) :
    Gathered point source rest := by
  refine ⟨?_, hcomplete⟩
  rintro front back rfl hback
  have hpositive := List.length_pos_iff.2 hback
  have hlength : (front ++ '\n' :: back).length = front.length + (back.length + 1) := by simp
  have hopen := hpending front.length (by omega) (by simp) (by omega)
  rwa [List.append_cons, List.take_left' (by simp)] at hopen

namespace Document

theorem toOption_congr {left right : Except Fault (List Node)}
    (hsame : Retelling.unplaced.result Retelling.unplaced.nodes left =
      Retelling.unplaced.result Retelling.unplaced.nodes right) (frontmatter : Option String) :
    (left.map (Document.mk frontmatter)).toOption.map (relocate Point.forget) =
      (right.map (Document.mk frontmatter)).toOption.map (relocate Point.forget) := by
  have hnodes : ∀ nodes, Retelling.unplaced.nodes nodes = Node.relocateAll Point.forget nodes :=
    View.nodes_ofPlaces _
  cases left with
  | error fault =>
      cases right with
      | error other => rfl
      | ok nodes => cases hsame
  | ok nodes =>
      cases right with
      | error fault => cases hsame
      | ok others =>
          have heq := Except.ok.inj hsame
          rw [hnodes, hnodes] at heq
          exact congrArg (fun nodes => some (Document.mk frontmatter nodes)) heq

theorem ReachesTag.parse_congr {front text other : List Char} (hfront : ReachesTag front)
    {scan scan' : Scan} {group group' : TokenGroup} {later later' : List Item}
    (hreads : Scan.Reads none (Point.origin.advance front) text scan)
    (hitems : scan.items = .tag group :: later)
    (hother : Scan.Reads none (Point.origin.advance front) other scan')
    (hitems' : scan'.items = .tag group' :: later') (hsame : Scan.SameMarks scan scan') :
    (parse (String.ofList (front ++ text))).toOption.map (relocate Point.forget) =
      (parse (String.ofList (front ++ other))).toOption.map (relocate Point.forget) := by
  obtain ⟨frontmatter, hparse⟩ := hfront.parse_append
  have hread : ∀ {text scan} {group : TokenGroup} {later : List Item},
      Scan.Reads none (Point.origin.advance front) text scan → scan.items = .tag group :: later →
      parse (String.ofList (front ++ text)) = (assemble scan.fence [] []
        (Mark.ofItems (items (String.ofList front)) ++ Mark.ofItems scan.items)).map
          (Document.mk frontmatter) := by
    intro text scan group later hreads hitems
    obtain ⟨source, rest, rfl, hgathered, hstart⟩ := hreads.exists_gathered hitems
    rw [hparse source rest scan hgathered hstart hreads,
      Mark.ofItems_append (hreads.apart hgathered hstart)]
  rw [hread hreads hitems, hread hother hitems']
  refine toOption_congr (Retelling.unplaced.assemble_congr hsame.fence ?_) frontmatter
  rw [List.map_append, List.map_append, hsame.marks]

/-- A tag line among the lines in front of it and the text behind it, with its segments. -/
structure HasTagLine (front source rest : List Char) (cut : List Segment) : Prop where
  reaches : ReachesTag front
  gathered : Line.Gathered (Point.origin.advance front) source rest
  starts : Line.startsWithTag ⟨source, Point.origin.advance front⟩ = true
  cut_eq : segments (Point.origin.advance front) source = .ok cut

theorem ended_of_areLines {front back : List (List Char)} (hlines : Text.AreLines (front ++ back))
    (hback : back.flatten ≠ []) (hfront : front.flatten ≠ []) :
    front.flatten.getLast? = some '\n' := by
  induction front with
  | nil => exact absurd rfl hfront
  | cons line rest induction =>
      obtain ⟨hline, hrest⟩ := hlines
      rw [List.flatten_cons, List.getLast?_append]
      by_cases hnil : rest.flatten = []
      · have hmore : (rest ++ back).flatten ≠ [] := by simp [hnil, hback]
        rw [hnil, hline.ended hmore]
        rfl
      · rw [induction hrest hnil]
        rfl

theorem not_fault_mem_of_runs {inline : Bool} {fence : Option Fence} {front back : List Item}
    (hruns : Item.Runs inline fence (front ++ back)) (hback : back ≠ []) (fault : Fault) :
    .fault fault ∉ front := by
  induction front generalizing inline fence with
  | nil => exact List.not_mem_nil
  | cons item rest induction =>
      cases item with
      | content line => simpa using induction hruns.2
      | tag group => simpa using induction hruns
      | fault reason => exact absurd (List.append_eq_nil_iff.1 hruns).2 hback

theorem reachesTag_of_reads {frontmatter : Option String} {block : List (List Char)}
    {front : List Char} {before : List Item} (hheads : Heads frontmatter block)
    (hsplit : Text.splitLines (block.flatten ++ front) = block ++ Text.splitLines front)
    (hhead : frontmatter = none →
      ∀ line ∈ (Text.splitLines front).head?, Text.trimEnd line ≠ ['-', '-', '-'])
    (hreads : Scan.Reads none (Point.origin.advance block.flatten) front ⟨before, none⟩)
    (hwhole : block.flatten ++ front ≠ [] → (block.flatten ++ front).getLast? = some '\n')
    (hunfaulted : ∀ fault, .fault fault ∉ before) : ReachesTag (block.flatten ++ front) := by
  have hcut := cutFrontmatter_of_heads hheads hsplit hhead
  have hown := Scan.reads_ofLines (Text.areLines_splitLines front)
    (Point.origin.advance block.flatten)
  rw [Text.flatten_splitLines] at hown
  have hitems : items (String.ofList (block.flatten ++ front)) = before := by
    rw [← String.toList_ofList (l := block.flatten ++ front)] at hcut
    rw [items_of_cut hcut, hown.unique hreads]
  exact ⟨hwhole, ⟨frontmatter, _, hcut⟩, hitems ▸ hunfaulted, hitems ▸ hreads.fence_eq.symm⟩

/-- Every tag of a text is on a tag line. -/
theorem exists_hasTagLine {text : String} {group : TokenGroup} (hmem : .tag group ∈ items text) :
    ∃ front source rest cut, text.toList = front ++ (source ++ rest) ∧
      HasTagLine front source rest cut ∧ .tag group ∈ cut := by
  cases hcut : cutFrontmatter (Line.ofText text.toList) with
  | error fault =>
      unfold items at hmem
      rw [hcut] at hmem
      cases hmem
  | ok pair =>
      obtain ⟨frontmatter, body⟩ := pair
      rw [items_of_cut hcut] at hmem
      obtain ⟨block, lines, hsplit, hheads, hreads⟩ := reads_of_cut hcut
      obtain ⟨front, source, rest, cut, before, after, hlines, hended, hscan, htag, hgroup,
        hother⟩ :=
        hreads.around hmem
      have hmore : source ++ rest ≠ [] := Line.append_ne_nil_of_startsWithTag htag.starts rest
      have hblock : lines.flatten ≠ [] := hlines ▸ List.append_ne_nil_of_right_ne_nil front hmore
      have htext : text.toList = block.flatten ++ (front ++ (source ++ rest)) := by
        rw [← hlines, ← List.flatten_append, ← hsplit, Text.flatten_splitLines]
      have hwhole : block.flatten ++ front ≠ [] →
          (block.flatten ++ front).getLast? = some '\n' := by
        intro hne
        by_cases hfront : front = []
        · subst hfront
          rw [List.append_nil] at hne ⊢
          exact ended_of_areLines (hsplit ▸ Text.areLines_splitLines text.toList) hblock hne
        · rw [List.getLast?_append, hended hfront]
          rfl
      have hhead : frontmatter = none →
          ∀ line ∈ (Text.splitLines front).head?, Text.trimEnd line ≠ ['-', '-', '-'] := by
        rintro rfl
        cases hheads
        by_cases hfront : front = []
        · subst hfront
          exact fun line hmem => by cases hmem
        · have hold := head_of_cut_none hcut
          rw [htext, List.flatten_nil, List.nil_append,
            head_append hfront (hended hfront) _ [], List.append_nil] at hold
          exact hold
      have hunfaulted : ∀ fault, .fault fault ∉ before := by
        obtain ⟨first, more, hfirst⟩ := htag.exists_tag
        have hruns := hreads.runs false
        rw [hscan] at hruns
        exact not_fault_mem_of_runs hruns (by simp [hfirst])
      have hbefore := hother [] ⟨[], none⟩ .done
      rw [List.append_nil] at hbefore
      have hreaches := reachesTag_of_reads hheads (Text.splitLines_replace hsplit hblock front) hhead
        hbefore hwhole (by simpa using hunfaulted)
      refine ⟨block.flatten ++ front, source, rest, cut, ?_, ⟨hreaches, ?_, ?_, ?_⟩, hgroup⟩
      · rw [List.append_assoc, htext]
      · rw [Point.advance_append]
        exact htag.gathered
      · rw [Point.advance_append]
        exact htag.starts
      · rw [Point.advance_append]
        exact htag.cut_eq

/-- A text with a tag line of which all tags behind the first one and all text are put on lines of
their own is accepted if and only if the text itself is, and then as the same document up to
places. No text on the tag line may open a code fence. -/
theorem parse_parted {front source rest : List Char} {cut : List Segment}
    (hline : HasTagLine front source rest cut) (hunfenced : Segment.Unfenced cut) :
    ∃ sources, sources.flatten = source ∧
      Consecutive Segment.Covers (Point.origin.advance front) cut sources ∧
      (parse (String.ofList (front ++ (source ++ rest)))).toOption.map (relocate Point.forget) =
        (parse (String.ofList
          (front ++ (Segment.parted true cut sources ++ rest)))).toOption.map
            (relocate Point.forget) := by
  obtain ⟨hreaches, hgathered, hstart, hcut⟩ := hline
  have hafter := (Scan.reads_scan (Text.areLines_splitLines rest)).1
    (Item.fenceAfter none (Segment.items cut)) ((Point.origin.advance front).advance source)
  rw [Text.flatten_splitLines] at hafter
  have htag : Scan.TagLine _ source rest cut _ := ⟨hgathered, hstart, hcut, hafter⟩
  obtain ⟨first, more, hfirst⟩ := htag.exists_tag
  obtain ⟨sources, hflatten, hcovers, other, group, behind, hother, hitems, hsame⟩ :=
    htag.exists_parted hunfenced
  refine ⟨sources, hflatten, hcovers, ?_⟩
  exact hreaches.parse_congr (.tags hgathered hstart hcut hafter) (by rw [hfirst]; rfl) hother hitems
    hsame

theorem parse_parted_lines :
    let front := "---\nt: 1\n---\nx\n".toList
    let source := " \x7b% a %\x7d one \x7b% b\n k=1 /%\x7d \t\x7b% /a %\x7d two\n".toList
    let rest := "three\n".toList
    ∃ cut sources, HasTagLine front source rest cut ∧ Segment.Unfenced cut ∧
      sources.flatten = source ∧
      (parse (String.ofList (front ++ (source ++ rest)))).toOption.isSome = true ∧
      (parse (String.ofList (front ++ (source ++ rest)))).toOption.map (relocate Point.forget) =
        (parse (String.ofList
          (front ++ (Segment.parted true cut sources ++ rest)))).toOption.map
            (relocate Point.forget) := by
  intro front source rest
  have hitems : items (String.ofList front) = [.content ⟨['x', '\n'], ⟨4, 1, 13⟩⟩] := by
    decide +kernel
  have hheaded : (cutFrontmatter (Line.ofText front)).toOption.isSome = true := by decide +kernel
  have hreaches : ReachesTag front := by
    refine ⟨fun _ => by decide +kernel, ?_, ?_, ?_⟩
    · cases hcut : cutFrontmatter (Line.ofText front) with
      | error fault =>
          rw [hcut] at hheaded
          cases hheaded
      | ok pair => exact ⟨pair.1, pair.2, rfl⟩
    · simp [hitems]
    · rw [hitems]
      decide +kernel
  have hgathered : Line.Gathered (Point.origin.advance front) source rest :=
    Line.gathered_of_take (by decide +kernel) fun _ => by decide +kernel
  have hplain : (segments (Point.origin.advance front) source).toOption.map
      (fun cut => cut.filterMap fun
        | .text text start => Fence.ofLine? ⟨text, start⟩
        | .tag _ => none) = some [] := by
    decide +kernel
  have hsome : (parse (String.ofList (front ++ (source ++ rest)))).toOption.isSome = true := by
    decide +kernel
  obtain ⟨cut, hcut, hplain⟩ := exists_of_toOption_map hplain
  have hunfenced : Segment.Unfenced cut := fun text start hmem =>
    List.filterMap_eq_nil_iff.1 hplain _ hmem
  have hline : HasTagLine front source rest cut := ⟨hreaches, hgathered, by decide +kernel, hcut⟩
  obtain ⟨sources, hflatten, -, hsame⟩ := parse_parted hline hunfenced
  exact ⟨cut, sources, hline, hunfenced, hflatten, hsome, hsame⟩

end Document

end Tagmark
