import Tagmark.Proofs.Document.Layout

/-!
Runs of content. Between two tags there is the text between them on one line, or what is left of the
line of a tag and whole lines after it (`Scan.Reads.runs`).
-/

namespace Tagmark

/-- What is known of a piece of content that stands before `rest`, right after a tag if `inline`:
it is a line or a part of one, and goes on in the next piece. A tag follows at the start of a line
outside a fence, or on the same line. -/
structure Line.InRun (inline : Bool) (fence : Option Fence) (line : Line) (rest : List Item) :
    Prop where
  ne_nil : line.text ≠ []
  newline_last : '\n' ∉ line.text.dropLast
  fenced : line.startsWithTag = true → fence.isSome = true
  next : ∀ next after, rest = .content next :: after →
    next.start = line.start.advance line.text ∧ line.text.getLast? = some '\n'
  tag : ∀ group after, rest = .tag group :: after →
    (line.text.getLast? = some '\n' ∧ Fence.next fence line = none) ∨
      (line.text.getLast? ≠ some '\n' ∧ inline = true)

def Item.Runs : Bool → Option Fence → List Item → Prop
  | _, _, [] => True
  | inline, fence, .content line :: rest =>
      line.InRun inline fence rest ∧ Item.Runs false (Fence.next fence line) rest
  | _, fence, .tag _ :: rest => Item.Runs true fence rest
  | _, _, .fault _ :: rest => rest = []

theorem Line.not_startsWithTag_of_cut {text : List Char} {point : Point}
    (hnone : Text.cut? ['{', '%'] text = none) : startsWithTag ⟨text, point⟩ = false := by
  cases hstart : startsWithTag ⟨text, point⟩ with
  | false => rfl
  | true => exact absurd hnone (cut?_ne_none_of_startsWithTag hstart)

section Gathered

variable {start : Point} {source rest front text after : List Char}

theorem Line.Gathered.eq_nil_of_newline (hgathered : Line.Gathered start source rest)
    (hsource : source = front ++ '%' :: '}' :: (text ++ after))
    (hnone : Text.cut? ['{', '%'] text = none) {left right : List Char}
    (htext : text = left ++ '\n' :: right) : right ++ after = [] := by
  cases hmore : right ++ after with
  | nil => rfl
  | cons c more =>
      have hsplit : source = (front ++ '%' :: '}' :: left) ++ '\n' :: (right ++ after) := by
        rw [hsource, htext]
        simp
      have hpending := hgathered.pending _ _ hsplit (by simp [hmore])
      have hleft : Text.cut? ['{', '%'] (left ++ ['\n']) = none := by
        rw [htext, List.append_cons] at hnone
        exact Text.cut?_of_append hnone
      have hclosed := Line.endsInTag_of_closed front hleft start
      rw [List.append_assoc, List.cons_append, List.cons_append, hclosed] at hpending
      cases hpending

theorem Line.Gathered.newline_last (hgathered : Line.Gathered start source rest)
    (hsource : source = front ++ '%' :: '}' :: (text ++ after))
    (hnone : Text.cut? ['{', '%'] text = none) : '\n' ∉ text.dropLast := by
  intro hmem
  obtain ⟨left, right, hdrop⟩ := List.append_of_mem hmem
  have hne : text ≠ [] := by
    rintro rfl
    cases hmem
  have htext : text = left ++ '\n' :: (right ++ [text.getLast hne]) := by
    rw [← List.cons_append, ← List.append_assoc, ← hdrop]
    exact (List.dropLast_concat_getLast hne).symm
  have hnil := hgathered.eq_nil_of_newline hsource hnone htext
  simp at hnil

theorem Line.Gathered.not_mem_newline (hgathered : Line.Gathered start source rest)
    (hsource : source = front ++ '%' :: '}' :: (text ++ after)) (hafter : after ≠ [])
    (hnone : Text.cut? ['{', '%'] text = none) : '\n' ∉ text := by
  intro hmem
  obtain ⟨left, right, hsplit⟩ := List.append_of_mem hmem
  have hnil := hgathered.eq_nil_of_newline hsource hnone hsplit
  exact hafter (List.append_eq_nil_iff.1 hnil).2

theorem Line.Gathered.ended_last (hgathered : Line.Gathered start source rest)
    (hsource : source = front ++ '%' :: '}' :: text) (hrest : rest ≠ []) :
    text.getLast? = some '\n' := by
  have hlast := (hgathered.complete hrest).1
  rcases List.eq_nil_or_concat text with rfl | ⟨init, last, rfl⟩
  · rw [hsource, List.append_cons, List.getLast?_concat] at hlast
    cases hlast
  · rw [List.concat_eq_append] at hsource ⊢
    rw [hsource, ← List.cons_append, ← List.cons_append, ← List.append_assoc,
      List.getLast?_concat] at hlast
    rw [List.getLast?_concat, hlast]

theorem Line.Gathered.inRun_between (hgathered : Line.Gathered start source rest)
    (hsource : source = front ++ '%' :: '}' :: (text ++ after)) (hafter : after ≠ [])
    (hnone : Text.cut? ['{', '%'] text = none) (hne : text ≠ []) (point : Point)
    (fence : Option Fence) (group : TokenGroup) (more : List Item) :
    Line.InRun true fence ⟨text, point⟩ (.tag group :: more) := by
  have hnewline := hgathered.not_mem_newline hsource hafter hnone
  refine ⟨hne, ?_, ?_, ?_, ?_⟩
  · intro hmem
    exact hnewline ((List.dropLast_sublist text).subset hmem)
  · intro hstart
    rw [Line.not_startsWithTag_of_cut hnone] at hstart
    cases hstart
  · intro _ _ heq
    cases heq
  · intro _ _ _
    right
    exact ⟨fun hlast => hnewline (List.mem_of_getLast? hlast), rfl⟩

theorem Line.Gathered.inRun_last (hgathered : Line.Gathered start source rest)
    (hsource : source = front ++ '%' :: '}' :: text) (hnone : Text.cut? ['{', '%'] text = none)
    (hne : text ≠ []) {items : List Item} (hitems : items ≠ [] → rest ≠ [])
    (hnext : ∀ next after, items = .content next :: after → next.start = start.advance source)
    {point : Point} (hpoint : point = start.advance (front ++ ['%', '}'])) {fence : Option Fence}
    (htag : ∀ group after, items = .tag group :: after → Fence.next fence ⟨text, point⟩ = none) :
    Line.InRun true fence ⟨text, point⟩ items := by
  have hwhole : source = front ++ '%' :: '}' :: (text ++ []) := by
    rw [List.append_nil]
    exact hsource
  have hended : items ≠ [] → text.getLast? = some '\n' := fun hmore =>
    hgathered.ended_last hsource (hitems hmore)
  have hstop : point.advance text = start.advance source := by
    rw [hpoint, ← Point.advance_append, hsource, List.append_assoc]
    rfl
  refine ⟨hne, hgathered.newline_last hwhole hnone, ?_, ?_, ?_⟩
  · intro hstart
    rw [Line.not_startsWithTag_of_cut hnone] at hstart
    cases hstart
  · intro next after hitem
    refine ⟨(hnext next after hitem).trans hstop.symm, hended ?_⟩
    rw [hitem]
    exact List.cons_ne_nil _ _
  · intro group after hitem
    left
    refine ⟨hended ?_, htag group after hitem⟩
    rw [hitem]
    exact List.cons_ne_nil _ _

end Gathered

theorem Segment.Tiles.runs {start : Point} {source rest : List Char} {items : List Item}
    (hgathered : Line.Gathered start source rest) (hitems : items ≠ [] → rest ≠ [])
    (hnext : ∀ next after, items = .content next :: after → next.start = start.advance source)
    {point : Point} {text : List Char} {cut : List Segment} (htiles : Segment.Tiles point text cut)
    (front : List Char) (hsource : source = front ++ '%' :: '}' :: text)
    (hpoint : point = start.advance (front ++ ['%', '}'])) {fence : Option Fence}
    (htag : ∀ group after, items = .tag group :: after →
      Item.fenceAfter fence (Segment.items cut) = none)
    (hruns : ∀ inline, Item.Runs inline (Item.fenceAfter fence (Segment.items cut)) items) :
    Item.Runs true fence (Segment.items cut ++ items) := by
  induction htiles generalizing front fence with
  | @text point text hcut =>
      have hsegment := Segment.items_ofText_append point text []
      rw [List.append_nil] at hsegment
      cases hblank : Text.isBlankText text with
      | true =>
          rw [hsegment, if_pos hblank] at hruns ⊢
          exact hruns true
      | false =>
          rw [hsegment, if_neg (Bool.eq_false_iff.1 hblank)] at htag hruns ⊢
          have hne := Text.ne_nil_of_not_blank hblank
          exact ⟨hgathered.inRun_last hsource hcut hne hitems hnext hpoint htag, hruns false⟩
  | @tag point before body behind group more hcut hreads _ induction =>
      obtain ⟨inner, hinner, -⟩ := hreads.source
      obtain ⟨-, hbody⟩ := List.cons.inj (List.cons.inj hinner).2
      subst hbody
      have hwhole : source = (front ++ '%' :: '}' :: (before ++ '{' :: '%' :: inner)) ++
          '%' :: '}' :: behind := by
        rw [hsource]
        simp
      have hplace : point.advance (before ++ '{' :: '%' :: (inner ++ ['%', '}'])) =
          start.advance
            ((front ++ '%' :: '}' :: (before ++ '{' :: '%' :: inner)) ++ ['%', '}']) := by
        rw [hpoint, ← Point.advance_append]
        simp
      have hsegment := Segment.items_ofText_append point before (.tag group :: more)
      cases hblank : Text.isBlankText before with
      | true =>
          rw [hsegment, if_pos hblank] at htag hruns ⊢
          exact induction _ hwhole hplace htag hruns
      | false =>
          rw [hsegment, if_neg (Bool.eq_false_iff.1 hblank)] at htag hruns ⊢
          have hnone : Text.cut? ['{', '%'] before = none :=
            Text.cut?_before hcut (List.cons_ne_nil _ _)
          have hne := Text.ne_nil_of_not_blank hblank
          refine ⟨?_, induction _ hwhole hplace htag hruns⟩
          exact hgathered.inRun_between hsource (List.cons_ne_nil _ _) hnone hne _ _ _ _

namespace Scan.Reads

variable {fence : Option Fence} {point : Point} {text : List Char} {scan : Scan}

theorem text_ne_nil (hreads : Reads fence point text scan) (hitems : scan.items ≠ []) :
    text ≠ [] := by
  have hsource : ∀ {source : List Char}, Line.startsWithTag ⟨source, point⟩ = true →
      source ≠ [] := by
    rintro _ hstart rfl
    cases hstart
  cases hreads with
  | done => exact absurd rfl hitems
  | line hline => exact List.append_ne_nil_of_left_ne_nil hline.ne_nil _
  | tags _ hstart => exact List.append_ne_nil_of_left_ne_nil (hsource hstart) _
  | fault _ hstart => exact List.append_ne_nil_of_left_ne_nil (hsource hstart) _

theorem fence_eq_none (hreads : Reads fence point text scan) {group : TokenGroup}
    {after : List Item} (hitems : scan.items = .tag group :: after) : fence = none := by
  cases hreads with
  | done => cases hitems
  | line => cases hitems
  | tags => rfl
  | fault => rfl

theorem start_of_content (hreads : Reads fence point text scan) {line : Line} {after : List Item}
    (hitems : scan.items = .content line :: after) : line.start = point := by
  have hlaid := hreads.laidOver true
  rw [hitems] at hlaid
  cases hlaid with
  | content _ hrun hstart _ =>
      rw [hrun rfl] at hstart
      exact hstart

theorem runs (hreads : Reads fence point text scan) (inline : Bool) :
    Item.Runs inline fence scan.items := by
  induction hreads generalizing inline with
  | done => trivial
  | @line fence point text rest scan hline hcontent hrest induction =>
      have hended : scan.items ≠ [] → text.getLast? = some '\n' := fun hitems =>
        hline.ended (hrest.text_ne_nil hitems)
      refine ⟨⟨hline.ne_nil, hline.newline_last, ?_, ?_, ?_⟩, induction false⟩
      · intro hstart
        rcases hcontent with hopen | hplain
        · exact hopen
        · rw [hplain] at hstart
          cases hstart
      · intro next after hafter
        refine ⟨hrest.start_of_content hafter, hended ?_⟩
        rw [hafter]
        exact List.cons_ne_nil _ _
      · intro group after hafter
        refine .inl ⟨hended ?_, hrest.fence_eq_none hafter⟩
        rw [hafter]
        exact List.cons_ne_nil _ _
  | @tags point source rest cut scan hgathered hstart hcut hrest induction =>
      cases tiles_of_segments hcut with
      | text hnone => exact absurd hnone (Line.cut?_ne_none_of_startsWithTag hstart)
      | @tag _ before body behind group more hopening hread hmore =>
          obtain ⟨gap, tail, hgap, hsource⟩ := Line.startsWithTag_iff.1 hstart
          have hmem : '{' ∉ gap := fun hmem => absurd (List.all_eq_true.1 hgap _ hmem) (by decide)
          have hbefore : before = gap := by
            rw [hsource, Text.cut?_opening_of_not_mem hmem] at hopening
            exact (Prod.mk.inj (Option.some.inj hopening)).1.symm
          subst hbefore
          have hsegment := Segment.items_ofText_append point before (.tag group :: more)
          rw [if_pos hgap] at hsegment
          rw [hsegment] at hrest induction ⊢
          obtain ⟨inner, hinner, -⟩ := hread.source
          obtain ⟨-, rfl⟩ := List.cons.inj (List.cons.inj hinner).2
          refine Segment.Tiles.runs hgathered hrest.text_ne_nil ?_ hmore
            (before ++ '{' :: '%' :: inner) ?_ ?_ ?_ induction
          · exact fun next after hafter => hrest.start_of_content hafter
          · simp
          · simp
          · exact fun other after hafter => hrest.fence_eq_none hafter
  | fault => rfl

end Scan.Reads

end Tagmark
