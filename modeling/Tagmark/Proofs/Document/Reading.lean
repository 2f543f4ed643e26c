import Tagmark.Proofs.Document.Brackets
import Tagmark.Proofs.Document.Lines
import Tagmark.Proofs.Tag.Tiling

/-!
How the scan of a body goes on, one line or one gathered tag line at a time. `Scan.reads_ofLines`
says that every scan is such a reading, so that facts about scans are inductions over readings.
-/

namespace Tagmark

/-- The items of segments, with blank text left out. -/
def Segment.items : List Segment → List Item
  | [] => []
  | .tag group :: rest => .tag group :: Segment.items rest
  | .text between start :: rest =>
      if Text.isBlankText between then Segment.items rest
      else .content ⟨between, start⟩ :: Segment.items rest

def Item.fenceAfter (fence : Option Fence) : List Item → Option Fence
  | [] => fence
  | .content line :: rest => Item.fenceAfter (Fence.next fence line) rest
  | .tag _ :: rest => Item.fenceAfter fence rest
  | .fault _ :: rest => Item.fenceAfter fence rest

theorem Item.fenceAfter_append (fence : Option Fence) (front back : List Item) :
    Item.fenceAfter fence (front ++ back) =
      Item.fenceAfter (Item.fenceAfter fence front) back := by
  induction front generalizing fence with
  | nil => rfl
  | cons item rest induction => cases item <;> exact induction _

/-- The lines of `source` belong to one tag line with `rest` after it: up to each newline inside it
some tag is open, and at its end none is. -/
structure Line.Gathered (point : Point) (source rest : List Char) : Prop where
  pending : ∀ front back, source = front ++ '\n' :: back → back ≠ [] →
    Line.endsInTag ⟨front ++ ['\n'], point⟩ = true
  complete : rest ≠ [] → source.getLast? = some '\n' ∧ Line.endsInTag ⟨source, point⟩ = false

theorem Line.cut?_ne_none_of_startsWithTag {text : List Char} {point : Point}
    (hstart : startsWithTag ⟨text, point⟩ = true) : Text.cut? ['{', '%'] text ≠ none := by
  obtain ⟨gap, rest, hgap, rfl⟩ := startsWithTag_iff.1 hstart
  have hmem : '{' ∉ gap := fun hmem => absurd (List.all_eq_true.1 hgap _ hmem) (by decide)
  rw [Text.cut?_opening_of_not_mem hmem rest]
  exact Option.some_ne_none _

namespace Scan

/-- The reading of a text from a place on, with a fence that may be open. -/
inductive Reads : Option Fence → Point → List Char → Scan → Prop
  | done {fence : Option Fence} {point : Point} : Reads fence point [] ⟨[], fence⟩
  | line {fence : Option Fence} {point : Point} {text rest : List Char} {scan : Scan}
      (hline : Text.IsLine text rest)
      (hcontent : fence.isSome = true ∨ Line.startsWithTag ⟨text, point⟩ = false)
      (hrest : Reads (Fence.next fence ⟨text, point⟩) (point.advance text) rest scan) :
      Reads fence point (text ++ rest) { scan with items := .content ⟨text, point⟩ :: scan.items }
  | tags {point : Point} {source rest : List Char} {cut : List Segment} {scan : Scan}
      (hgathered : Line.Gathered point source rest)
      (hstart : Line.startsWithTag ⟨source, point⟩ = true)
      (hcut : segments point source = .ok cut)
      (hrest : Reads (Item.fenceAfter none (Segment.items cut)) (point.advance source) rest scan) :
      Reads none point (source ++ rest) { scan with items := Segment.items cut ++ scan.items }
  | fault {point : Point} {source rest : List Char} {fault : Fault}
      (hgathered : Line.Gathered point source rest)
      (hstart : Line.startsWithTag ⟨source, point⟩ = true)
      (hcut : segments point source = .error fault) :
      Reads none point (source ++ rest) ⟨[.fault fault], none⟩

theorem Reads.fence_eq {fence : Option Fence} {point : Point} {text : List Char} {scan : Scan}
    (hreads : Reads fence point text scan) :
    scan.fence = Item.fenceAfter fence scan.items := by
  induction hreads with
  | done => rfl
  | line _ _ _ induction => exact induction
  | tags _ _ _ _ induction =>
      rw [Item.fenceAfter_append]
      exact induction
  | fault => rfl

theorem ofSegments_eq (fence : Option Fence) (next : Option Fence → Scan) (cut : List Segment) :
    ofSegments fence next cut =
      { next (Item.fenceAfter fence (Segment.items cut)) with
        items := Segment.items cut ++
          (next (Item.fenceAfter fence (Segment.items cut))).items } := by
  induction cut generalizing fence with
  | nil => rfl
  | cons segment rest induction =>
      cases segment with
      | tag group =>
          rw [ofSegments, induction]
          rfl
      | text text start =>
          cases hblank : Text.isBlankText text with
          | true => simp only [ofSegments, Segment.items, hblank, if_true, induction]
          | false =>
              simp only [ofSegments, Segment.items, hblank, induction]
              rfl

theorem reads_ofTagLine {point : Point} {source rest : List Char} {next : Option Fence → Scan}
    (hgathered : Line.Gathered point source rest)
    (hstart : Line.startsWithTag ⟨source, point⟩ = true)
    (hnext : ∀ fence, Reads fence (point.advance source) rest (next fence)) :
    Reads none point (source ++ rest) (ofTagLine none next ⟨source, point⟩) := by
  unfold ofTagLine
  split
  · next fault hcut => exact .fault hgathered hstart hcut
  · next cut hcut =>
      rw [ofSegments_eq]
      exact .tags hgathered hstart hcut (hnext _)

theorem reads_scan {lines : List (List Char)} (hlines : Text.AreLines lines) :
    (∀ fence point, Reads fence point lines.flatten (scan fence none (Line.place point lines))) ∧
      ∀ point source, Line.startsWithTag ⟨source, point⟩ = true →
        (∀ front back, source = front ++ '\n' :: back →
          Line.endsInTag ⟨front ++ ['\n'], point⟩ = true) →
        Reads none point (source ++ lines.flatten)
          (scan none (some ⟨source, point⟩) (Line.place (point.advance source) lines)) := by
  induction lines with
  | nil =>
      refine ⟨fun fence point => .done, ?_⟩
      intro point source hstart hpending
      exact reads_ofTagLine ⟨fun front back heq _ => hpending front back heq, fun h => absurd rfl h⟩
        hstart fun fence => .done
  | cons line rest induction =>
      obtain ⟨hline, hrest⟩ := hlines
      obtain ⟨hfresh, hgathering⟩ := induction hrest
      have hended : rest.flatten ≠ [] → ∀ before : List Char,
          (before ++ line).getLast? = some '\n' := by
        intro hmore before
        rw [List.getLast?_append, hline.ended hmore]
        rfl
      constructor
      · intro fence point
        rw [List.flatten_cons, Line.place, scan]
        split
        · next hcontent => exact .line hline (by simpa using hcontent) (hfresh _ _)
        · next htag =>
            obtain ⟨rfl, hstart⟩ : fence = none ∧ Line.startsWithTag ⟨line, point⟩ = true := by
              simpa using htag
            split
            · next hopen =>
                apply hgathering point line hstart
                intro front back heq
                obtain rfl := hline.eq_nil_of_eq heq
                rw [← heq]
                exact hopen
            · next hclosed =>
                refine reads_ofTagLine ⟨?_, ?_⟩ hstart fun fence => hfresh fence _
                · intro front back heq hback
                  exact absurd (hline.eq_nil_of_eq heq) hback
                · intro hmore
                  exact ⟨hended hmore [], Bool.eq_false_iff.2 hclosed⟩
      · intro point source hstart hpending
        rw [List.flatten_cons, Line.place, scan, ← List.append_assoc]
        have hstart' := Line.startsWithTag_append line hstart
        split
        · next hopen =>
            rw [← Point.advance_append]
            apply hgathering point (source ++ line) hstart'
            intro front back heq
            rcases hline.newline_split heq with ⟨back', hsource, -⟩ | rfl
            · exact hpending front back' hsource
            · rw [← heq]
              exact hopen
        · next hclosed =>
            refine reads_ofTagLine ⟨?_, ?_⟩ hstart' ?_
            · intro front back heq hback
              rcases hline.newline_split heq with ⟨back', hsource, -⟩ | hnil
              · exact hpending front back' hsource
              · exact absurd hnil hback
            · intro hmore
              exact ⟨hended hmore source, Bool.eq_false_iff.2 hclosed⟩
            · intro fence
              rw [Point.advance_append]
              exact hfresh fence _

theorem reads_ofLines {lines : List (List Char)} (hlines : Text.AreLines lines) (point : Point) :
    Reads none point lines.flatten (ofLines (Line.place point lines)) :=
  (reads_scan hlines).1 none point

end Scan

theorem Line.endsInTag_of_not_mem {text : List Char} (htext : '{' ∉ text) (point : Point) :
    endsInTag ⟨text, point⟩ = false := by
  unfold endsInTag
  split
  · rfl
  · next found hlast =>
      obtain ⟨before, tail, rfl, rfl⟩ := Text.exists_of_lastFrom? hlast
      exact absurd (by simp) htext

theorem Line.Gathered.append_inj {point : Point} {source source' rest rest' : List Char}
    (hsource : Gathered point source rest) (hsource' : Gathered point source' rest')
    (heq : source ++ rest = source' ++ rest') : source = source' ∧ rest = rest' := by
  have hends : ∀ {source rest more : List Char}, Gathered point source (more ++ rest) →
      Gathered point (source ++ more) rest → more = [] := by
    intro source rest more hshort hlong
    cases more with
    | nil => rfl
    | cons c more =>
        obtain ⟨hlast, hclosed⟩ := hshort.complete (by simp)
        obtain ⟨front, rfl⟩ := List.getLast?_eq_some_iff.1 hlast
        have hopen := hlong.pending front (c :: more) (by simp) (by simp)
        rw [hclosed] at hopen
        cases hopen
  rcases List.append_eq_append_iff.1 heq with ⟨more, rfl, rfl⟩ | ⟨more, rfl, rfl⟩
  · obtain rfl := hends hsource hsource'
    simp
  · obtain rfl := hends hsource' hsource
    simp

theorem Line.Gathered.startsWithTag_line {point : Point} {source rest line more : List Char}
    (hsource : Gathered point source rest) (hstart : startsWithTag ⟨source, point⟩ = true)
    (hline : Text.IsLine line more) (heq : line ++ more = source ++ rest) :
    startsWithTag ⟨line, point⟩ = true := by
  obtain ⟨gap, tail, hgap, rfl⟩ := startsWithTag_iff.1 hstart
  have hnewline : '\n' ∉ gap := by
    intro hmem
    obtain ⟨front, back, rfl⟩ := List.append_of_mem hmem
    have hopen := hsource.pending front (back ++ '{' :: '%' :: tail) (by simp) (by simp)
    rw [endsInTag_of_not_mem] at hopen
    · cases hopen
    · intro hbrace
      have hall := List.all_eq_true.1 (Text.isBlankText_append.1 hgap).1
      rcases List.mem_append.1 hbrace with hfront | hlast
      · cases hall _ hfront
      · simp at hlast
  have hopening : line ++ more = gap ++ ['{', '%'] ++ (tail ++ rest) := by simpa using heq
  obtain ⟨behind, rfl⟩ := hline.exists_append hopening (by simp [hnewline])
  exact startsWithTag_iff.2 ⟨gap, behind, hgap, by simp⟩

theorem Line.Gathered.not_content {point : Point} {source rest line more : List Char}
    (hsource : Gathered point source rest) (hstart : startsWithTag ⟨source, point⟩ = true)
    (hline : Text.IsLine line more) (heq : line ++ more = source ++ rest) :
    ¬ ((none : Option Fence).isSome = true ∨ startsWithTag ⟨line, point⟩ = false) := by
  rw [hsource.startsWithTag_line hstart hline heq]
  rintro (hsome | hplain)
  · cases hsome
  · cases hplain

theorem Line.append_ne_nil_of_startsWithTag {point : Point} {source : List Char}
    (hstart : startsWithTag ⟨source, point⟩ = true) (rest : List Char) : source ++ rest ≠ [] := by
  intro heq
  rw [(List.append_eq_nil_iff.1 heq).1] at hstart
  cases hstart

theorem Scan.Reads.unique {fence : Option Fence} {point : Point} {text : List Char}
    {scan other : Scan} (hscan : Reads fence point text scan)
    (hother : Reads fence point text other) : scan = other := by
  induction hscan generalizing other with
  | done =>
      generalize htext : [] = text at hother
      cases hother with
      | done => rfl
      | line hline => exact absurd (List.append_eq_nil_iff.1 htext.symm).1 hline.ne_nil
      | tags _ hstart | fault _ hstart =>
          exact absurd htext.symm (Line.append_ne_nil_of_startsWithTag hstart _)
  | @line fence point text rest scan hline hcontent hrest induction =>
      generalize htext : text ++ rest = whole at hother
      cases hother with
      | done => exact absurd (List.append_eq_nil_iff.1 htext).1 hline.ne_nil
      | line hline' _ hrest' =>
          obtain ⟨rfl, rfl⟩ := hline.append_inj hline' htext
          rw [induction hrest']
      | tags hgathered hstart | fault hgathered hstart =>
          exact absurd hcontent (hgathered.not_content hstart hline htext)
  | @tags point source rest cut scan hgathered hstart hcut hrest induction =>
      generalize htext : source ++ rest = whole at hother
      cases hother with
      | done => exact absurd htext (Line.append_ne_nil_of_startsWithTag hstart rest)
      | line hline hcontent =>
          exact absurd hcontent (hgathered.not_content hstart hline htext.symm)
      | tags hgathered' _ hcut' hrest' =>
          obtain ⟨rfl, rfl⟩ := hgathered.append_inj hgathered' htext
          cases hcut.symm.trans hcut'
          rw [induction hrest']
      | fault hgathered' _ hcut' =>
          obtain ⟨rfl, rfl⟩ := hgathered.append_inj hgathered' htext
          cases hcut.symm.trans hcut'
  | @fault point source rest fault hgathered hstart hcut =>
      generalize htext : source ++ rest = whole at hother
      cases hother with
      | done => exact absurd htext (Line.append_ne_nil_of_startsWithTag hstart rest)
      | line hline hcontent =>
          exact absurd hcontent (hgathered.not_content hstart hline htext.symm)
      | tags hgathered' _ hcut' =>
          obtain ⟨rfl, rfl⟩ := hgathered.append_inj hgathered' htext
          cases hcut.symm.trans hcut'
      | fault hgathered' _ hcut' =>
          obtain ⟨rfl, rfl⟩ := hgathered.append_inj hgathered' htext
          cases hcut.symm.trans hcut'
          rfl

/-- A tag line, cut into segments, with the scan of the text after it. -/
structure Scan.TagLine (point : Point) (source rest : List Char) (cut : List Segment) (after : Scan) :
    Prop where
  gathered : Line.Gathered point source rest
  starts : Line.startsWithTag ⟨source, point⟩ = true
  cut_eq : segments point source = .ok cut
  reads : Reads (Item.fenceAfter none (Segment.items cut)) (point.advance source) rest after

theorem Line.Gathered.of_ne_nil {point : Point} {source rest : List Char}
    (hsource : Gathered point source rest) (hrest : rest ≠ []) (other : List Char) :
    Gathered point source other :=
  ⟨hsource.pending, fun _ => hsource.complete hrest⟩

theorem Segment.tag_mem_items {group : TokenGroup} {cut : List Segment} :
    .tag group ∈ Segment.items cut ↔ .tag group ∈ cut := by
  induction cut with
  | nil => simp [Segment.items]
  | cons segment rest induction =>
      cases segment with
      | tag other => simp [Segment.items, induction]
      | text text start =>
          rw [Segment.items]
          split <;> simp [induction]

theorem Scan.Reads.around {fence : Option Fence} {point : Point} {text : List Char} {scan : Scan}
    (hreads : Reads fence point text scan) {group : TokenGroup} (hmem : .tag group ∈ scan.items) :
    ∃ front source rest cut items after, text = front ++ (source ++ rest) ∧
      (front ≠ [] → front.getLast? = some '\n') ∧
      scan = { after with items := items ++ (Segment.items cut ++ after.items) } ∧
      TagLine (point.advance front) source rest cut after ∧ .tag group ∈ cut ∧
      ∀ other scan', Reads none (point.advance front) other scan' →
        Reads fence point (front ++ other) { scan' with items := items ++ scan'.items } := by
  have hended : ∀ {first front : List Char}, first.getLast? = some '\n' →
      (front ≠ [] → front.getLast? = some '\n') → (first ++ front).getLast? = some '\n' := by
    intro first front hfirst hfront
    cases front with
    | nil => rwa [List.append_nil]
    | cons c front =>
        rw [List.getLast?_append, hfront (List.cons_ne_nil _ _)]
        rfl
  induction hreads with
  | done => cases hmem
  | fault => simp at hmem
  | @line fence point text rest scan hline hcontent hrest induction =>
      obtain ⟨front, source, behind, cut, items, after, rfl, hfront, rfl, htag, hgroup, hother⟩ :=
        induction (by simpa using hmem)
      rw [← Point.advance_append] at htag hother
      have hbehind : front ++ (source ++ behind) ≠ [] := by
        simp [Line.append_ne_nil_of_startsWithTag htag.starts]
      refine ⟨text ++ front, source, behind, cut, .content ⟨text, point⟩ :: items, after,
        (List.append_assoc ..).symm, fun _ => hended (hline.ended hbehind) hfront, rfl, htag,
        hgroup, ?_⟩
      intro other scan' hread
      rw [List.append_assoc]
      exact .line (hline.of_ne_nil hbehind _) hcontent (hother other scan' hread)
  | @tags point source rest cut scan hgathered hstart hcut hrest induction =>
      rcases List.mem_append.1 hmem with hhere | hlater
      · exact ⟨[], source, rest, cut, [], scan, rfl, fun hne => absurd rfl hne, rfl,
          ⟨hgathered, hstart, hcut, hrest⟩, Segment.tag_mem_items.1 hhere, fun _ _ hread => hread⟩
      · obtain ⟨front, source', behind, cut', items, after, rfl, hfront, rfl, htag, hgroup,
          hother⟩ := induction hlater
        rw [← Point.advance_append] at htag hother
        have hbehind : front ++ (source' ++ behind) ≠ [] := by
          simp [Line.append_ne_nil_of_startsWithTag htag.starts]
        refine ⟨source ++ front, source', behind, cut', Segment.items cut ++ items, after,
          (List.append_assoc ..).symm, fun _ => hended (hgathered.complete hbehind).1 hfront,
          by simp, htag, hgroup, ?_⟩
        intro other scan' hread
        rw [List.append_assoc, List.append_assoc]
        exact .tags (hgathered.of_ne_nil hbehind _) hstart hcut (hother other scan' hread)

theorem Document.reads_of_cut {text : List Char} {frontmatter : Option String} {body : List Line}
    (hcut : cutFrontmatter (Line.ofText text) = .ok (frontmatter, body)) :
    ∃ block lines, Text.splitLines text = block ++ lines ∧ Heads frontmatter block ∧
      Scan.Reads none (Point.origin.advance block.flatten) lines.flatten (Scan.ofLines body) := by
  obtain ⟨block, lines, hsplit, hheads, rfl⟩ := cutFrontmatter_eq_ok hcut
  refine ⟨block, lines, hsplit, hheads, ?_⟩
  have hlines : Text.AreLines lines := by
    have hall := Text.areLines_splitLines text
    rw [hsplit] at hall
    exact hall.of_append
  exact Scan.reads_ofLines hlines (Point.origin.advance block.flatten)

theorem Document.parse_of_reads {frontmatter : Option String} {block : List (List Char)} {text : List Char}
    {scan : Scan} (hheads : Heads frontmatter block)
    (hsplit : Text.splitLines (block.flatten ++ text) = block ++ Text.splitLines text)
    (hhead : frontmatter = none →
      ∀ line ∈ (Text.splitLines text).head?, Text.trimEnd line ≠ ['-', '-', '-'])
    (hreads : Scan.Reads none (Point.origin.advance block.flatten) text scan) :
    parse (String.ofList (block.flatten ++ text)) =
      (assemble scan.fence [] [] (Mark.ofItems scan.items)).map (Document.mk frontmatter) := by
  have hcut := cutFrontmatter_of_heads hheads hsplit hhead
  rw [← String.toList_ofList (l := block.flatten ++ text)] at hcut
  have hown := Scan.reads_ofLines (Text.areLines_splitLines text)
    (Point.origin.advance block.flatten)
  rw [Text.flatten_splitLines] at hown
  rw [parse_eq_map hcut, Mark.ofLines, hown.unique hreads]

end Tagmark
