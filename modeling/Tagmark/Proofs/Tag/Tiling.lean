import Tagmark.Proofs.Tag.Frame
import Tagmark.Proofs.Text.Split

/-!
Text cut into tags and text between them. The segments tile their source (`tiles_of_segments`): each
tag is read from its own stretch of text alone, each text stands where its segment says, and nothing
lies between them.
-/

namespace Tagmark

open Text (cut?)

/-- The text before a tag, where there is some. -/
def Segment.ofText (start : Point) (text : List Char) : List Segment :=
  if text = [] then [] else [.text text start]

def TagRest.group (tag : TagRest) (start : Point) : TokenGroup :=
  ⟨⟨.opening, start⟩ :: tag.tokens, ⟨start, tag.stop⟩⟩

theorem segments_of_cut_none (start : Point) {text : List Char}
    (hcut : cut? ['{', '%'] text = none) :
    segments start text = .ok (Segment.ofText start text) := by
  rw [segments]
  split
  · rfl
  · next before after hsome => cases hcut.symm.trans hsome

theorem segments_of_cut {start : Point} {text before after : List Char} {tag : TagRest}
    (hcut : cut? ['{', '%'] text = some (before, after))
    (hread : readTag (start.advance before) ((start.advance before).advance ['{', '%']) after =
      .ok tag) :
    segments start text = (segments tag.stop tag.after).map fun rest =>
      Segment.ofText start before ++ .tag (tag.group (start.advance before)) :: rest := by
  rw [segments]
  split
  · next hnone => cases hcut.symm.trans hnone
  · next before' after' hsome =>
      cases hcut.symm.trans hsome
      dsimp only
      split
      · next fault hfault => cases hread.symm.trans hfault
      · next tag' hread' =>
          cases hread.symm.trans hread'
          cases segments tag.stop tag.after with
          | error fault => rfl
          | ok rest =>
              by_cases hbefore : before = []
              · simp [Segment.ofText, hbefore, TagRest.group, Except.map]
              · simp [Segment.ofText, hbefore, TagRest.group, Except.map]

theorem segments_of_fault {start : Point} {text before after : List Char} {fault : Fault}
    (hcut : cut? ['{', '%'] text = some (before, after))
    (hread : readTag (start.advance before) ((start.advance before).advance ['{', '%']) after =
      .error fault) : segments start text = .error fault := by
  rw [segments]
  split
  · next hnone => cases hcut.symm.trans hnone
  · next before' after' hsome =>
      cases hcut.symm.trans hsome
      dsimp only
      split
      · next fault' hfault =>
          cases hread.symm.trans hfault
          rfl
      · next tag hok => cases hread.symm.trans hok

theorem segments_cut {start : Point} {text before after : List Char}
    (hcut : cut? ['{', '%'] text = some (before, after)) :
    segments start text =
      (readTag (start.advance before) ((start.advance before).advance ['{', '%']) after).bind
        fun tag => (segments tag.stop tag.after).map fun rest =>
          Segment.ofText start before ++ .tag (tag.group (start.advance before)) :: rest := by
  cases hread : readTag (start.advance before)
      ((start.advance before).advance ['{', '%']) after with
  | error fault => exact segments_of_fault hcut hread
  | ok tag => exact segments_of_cut hcut hread

/-- What segments are: text without an opening delimiter, or the text before the first one, its tag
and the segments after that. -/
theorem segments_eq_ok {start : Point} {text : List Char} {cut : List Segment}
    (hsegments : segments start text = .ok cut) :
    (cut? ['{', '%'] text = none ∧ cut = Segment.ofText start text) ∨
      ∃ before after tag rest, cut? ['{', '%'] text = some (before, after) ∧
        readTag (start.advance before) ((start.advance before).advance ['{', '%']) after =
          .ok tag ∧
        segments tag.stop tag.after = .ok rest ∧
        cut = Segment.ofText start before ++ .tag (tag.group (start.advance before)) :: rest := by
  cases hcut : cut? ['{', '%'] text with
  | none =>
      rw [segments_of_cut_none start hcut] at hsegments
      exact .inl ⟨rfl, (Except.ok.inj hsegments).symm⟩
  | some pair =>
      obtain ⟨before, after⟩ := pair
      cases hread : readTag (start.advance before)
          ((start.advance before).advance ['{', '%']) after with
      | error fault =>
          rw [segments] at hsegments
          split at hsegments
          · next hnone => cases hcut.symm.trans hnone
          · next hsome =>
              cases hcut.symm.trans hsome
              dsimp only at hsegments
              split at hsegments
              · cases hsegments
              · next hok => cases hread.symm.trans hok
      | ok tag =>
          rw [segments_of_cut hcut hread] at hsegments
          cases hrest : segments tag.stop tag.after with
          | error fault =>
              rw [hrest] at hsegments
              cases hsegments
          | ok rest =>
              rw [hrest] at hsegments
              exact .inr ⟨before, after, tag, rest, rfl, hread, hrest,
                (Except.ok.inj hsegments).symm⟩

theorem segments_frame {start : Point} {text before after : List Char} {tag : TagRest}
    (hcut : cut? ['{', '%'] text = some (before, after))
    (hread : readTag (start.advance before) ((start.advance before).advance ['{', '%']) after =
      .ok tag) :
    ∃ front, after = front ++ '%' :: '}' :: tag.after ∧
      tag.stop = start.advance (before ++ '{' :: '%' :: (front ++ ['%', '}'])) ∧
      ∀ other, segments start (before ++ '{' :: '%' :: (front ++ '%' :: '}' :: other)) =
        (segments tag.stop other).map fun rest =>
          Segment.ofText start before ++ .tag (tag.group (start.advance before)) :: rest := by
  obtain ⟨front, hafter, hstop, hframe⟩ := readTag_frame hread
  refine ⟨front, hafter, ?_, ?_⟩
  · rw [hstop, ← Point.advance_append, ← Point.advance_append]
    rfl
  · intro other
    have hother := Text.cut?_replace hcut (List.cons_ne_nil _ _) (front ++ '%' :: '}' :: other)
    exact segments_of_cut hother (hframe other)

/-- Behind `before` stands a tag, with the segments `front` before it, whatever its text is. -/
def Segment.LeadTo (start : Point) (before : List Char) (front : List Segment) : Prop :=
  ∀ after, segments start (before ++ '{' :: '%' :: after) =
    (readTag (start.advance before) ((start.advance before).advance ['{', '%']) after).bind
      fun tag => (segments tag.stop tag.after).map fun rest =>
        front ++ .tag (tag.group (start.advance before)) :: rest

theorem segments_around {start : Point} {text : List Char} {cut : List Segment}
    {group : TokenGroup} (hsegments : segments start text = .ok cut) (hmem : .tag group ∈ cut) :
    ∃ before after tag front, text = before ++ '{' :: '%' :: after ∧
      readTag (start.advance before) ((start.advance before).advance ['{', '%']) after =
        .ok tag ∧
      group = tag.group (start.advance before) ∧ Segment.LeadTo start before front := by
  have hne : ['{', '%'] ≠ [] := List.cons_ne_nil _ _
  induction hlength : text.length using Nat.strongRecOn generalizing start text cut with
  | ind length induction =>
      subst hlength
      rcases segments_eq_ok hsegments with
        ⟨-, rfl⟩ | ⟨before, after, tag, rest, hcut, hread, hrest, rfl⟩
      · unfold Segment.ofText at hmem
        split at hmem <;> simp at hmem
      · have htext := Text.cut?_eq_some hcut
        rw [List.append_assoc] at htext
        have hhead : ¬ .tag group ∈ Segment.ofText start before := by
          unfold Segment.ofText
          split <;> simp
        rcases List.mem_cons.1 ((List.mem_append.1 hmem).resolve_left hhead) with hhere | hlater
        · refine ⟨before, after, tag, Segment.ofText start before, htext, hread,
            Segment.tag.inj hhere, ?_⟩
          intro other
          exact segments_cut (Text.cut?_replace hcut hne other)
        · obtain ⟨front, rfl, hstop, hframe⟩ := segments_frame hcut hread
          have hshort := Nat.lt_of_le_of_lt (length_after_le hread)
            (Text.length_lt_of_cut? hne hcut)
          obtain ⟨middle, behind, found, between, hafter, hfound, hgroup, haround⟩ :=
            induction _ hshort hrest hlater rfl
          have hplace : start.advance (before ++ '{' :: '%' :: (front ++ '%' :: '}' :: middle)) =
              tag.stop.advance middle := by
            rw [hstop, ← Point.advance_append]
            simp
          refine ⟨before ++ '{' :: '%' :: (front ++ '%' :: '}' :: middle), behind, found,
            Segment.ofText start before ++ .tag (tag.group (start.advance before)) :: between,
            ?_, hplace ▸ hfound, hplace ▸ hgroup, ?_⟩
          · rw [htext, hafter]
            simp
          · intro other
            have hother := hframe (middle ++ '{' :: '%' :: other)
            rw [haround other] at hother
            rw [hplace, List.append_assoc, List.cons_append, List.cons_append, List.append_assoc,
              List.cons_append, List.cons_append, hother]
            cases readTag (tag.stop.advance middle)
                ((tag.stop.advance middle).advance ['{', '%']) other with
            | error fault => rfl
            | ok tag' =>
                dsimp only [Except.bind]
                cases segments tag'.stop tag'.after <;> simp [Except.map]

theorem Segment.leadTo_of_segments {start : Point} {before : List Char} {front : List Segment}
    (hsegments : segments start before = .ok front) : Segment.LeadTo start before front := by
  induction hlength : before.length using Nat.strongRecOn generalizing start before front with
  | ind length induction =>
      subst hlength
      rcases segments_eq_ok hsegments with
        ⟨hnone, rfl⟩ | ⟨gap, after, tag, rest, hcut, hread, hrest, rfl⟩
      · intro other
        exact segments_cut (Text.cut?_opening_of_none hnone other)
      · have htext := Text.cut?_eq_some hcut
        have hshort := Nat.lt_of_le_of_lt (length_after_le hread)
          (Text.length_lt_of_cut? (List.cons_ne_nil _ _) hcut)
        obtain ⟨body, rfl, hstop, hframe⟩ := segments_frame hcut hread
        have hplace : start.advance before = tag.stop.advance tag.after := by
          rw [hstop, htext, ← Point.advance_append]
          simp
        intro other
        have hlater := hframe (tag.after ++ '{' :: '%' :: other)
        rw [induction _ hshort hrest rfl] at hlater
        rw [hplace, htext]
        simp only [List.append_assoc, List.cons_append, List.nil_append]
        rw [hlater]
        cases readTag (tag.stop.advance tag.after)
            ((tag.stop.advance tag.after).advance ['{', '%']) other with
        | error fault => rfl
        | ok found =>
            dsimp only [Except.bind]
            cases segments found.stop found.after <;> simp [Except.map]

theorem segments_append_of_none (start : Point) {gap : List Char}
    (hgap : cut? ['{', '%'] gap = none) (after : List Char) :
    segments start (gap ++ '{' :: '%' :: after) =
      (segments (start.advance gap) ('{' :: '%' :: after)).map (Segment.ofText start gap ++ ·) := by
  rw [segments_cut (Text.cut?_opening_of_none hgap after), segments_cut (Text.cut?_opening after),
    Point.advance_nil]
  cases readTag (start.advance gap) ((start.advance gap).advance ['{', '%']) after with
  | error fault => rfl
  | ok tag =>
      dsimp only [Except.bind]
      cases segments tag.stop tag.after <;> rfl

/-- The group is what `source` alone reads as, from `start` on. -/
def TokenGroup.ReadsFrom (group : TokenGroup) (start : Point) (source : List Char) : Prop :=
  segments start source = .ok [.tag group]

/-- Segments follow on each other from `point` on and make up the text: the text before a tag has no
opening delimiter, and a tag is read from its own text. -/
inductive Segment.Tiles : Point → List Char → List Segment → Prop
  | text {point : Point} {text : List Char} (hcut : cut? ['{', '%'] text = none) :
      Tiles point text (ofText point text)
  | tag {point : Point} {before body after : List Char} {group : TokenGroup}
      {rest : List Segment}
      (hcut : cut? ['{', '%'] (before ++ '{' :: '%' :: (body ++ after)) =
        some (before, body ++ after))
      (hreads : group.ReadsFrom (point.advance before) ('{' :: '%' :: body))
      (hrest : Tiles (point.advance (before ++ '{' :: '%' :: body)) after rest) :
      Tiles point (before ++ '{' :: '%' :: (body ++ after))
        (ofText point before ++ .tag group :: rest)

theorem TokenGroup.readsFrom_of_readTag {start : Point} {text : List Char} {tag : TagRest}
    (hread : readTag start (start.advance ['{', '%']) text = .ok tag) :
    ∃ front, text = front ++ '%' :: '}' :: tag.after ∧
      tag.stop = start.advance ('{' :: '%' :: (front ++ ['%', '}'])) ∧
      (tag.group start).ReadsFrom start ('{' :: '%' :: (front ++ ['%', '}'])) := by
  obtain ⟨front, htext, hstop, hframe⟩ := readTag_frame hread
  refine ⟨front, htext, ?_, ?_⟩
  · rw [hstop, ← Point.advance_append]
    rfl
  · have halone := hframe []
    unfold ReadsFrom
    have hnothing : Text.cut? ['{', '%'] [] = none := rfl
    rw [segments_of_cut (Text.cut?_opening _) halone, segments_of_cut_none tag.stop hnothing]
    rfl

theorem tiles_of_segments {start : Point} {text : List Char} {cut : List Segment}
    (hsegments : segments start text = .ok cut) : Segment.Tiles start text cut := by
  induction hlength : text.length using Nat.strongRecOn generalizing start text cut with
  | ind length induction =>
      subst hlength
      rcases segments_eq_ok hsegments with
        ⟨hnone, rfl⟩ | ⟨before, after, tag, rest, hcut, hread, hrest, rfl⟩
      · exact .text hnone
      · obtain ⟨front, rfl, hstop, hreads⟩ := TokenGroup.readsFrom_of_readTag hread
        have hshorter : tag.after.length < text.length :=
          Nat.lt_of_le_of_lt (length_after_le hread)
            (Text.length_lt_of_cut? (List.cons_ne_nil _ _) hcut)
        have htiles := induction _ hshorter hrest rfl
        rw [hstop, ← Point.advance_append] at htiles
        have htext := Text.cut?_eq_some hcut
        have hsplit : front ++ '%' :: '}' :: tag.after = front ++ ['%', '}'] ++ tag.after := by
          simp
        rw [hsplit] at hcut htext
        rw [List.append_assoc, List.cons_append, List.cons_append, List.nil_append] at htext
        subst htext
        exact .tag hcut hreads htiles

theorem Segment.Tiles.eq_nil {point : Point} {text : List Char}
    (htiles : Segment.Tiles point text []) : text = [] := by
  generalize hcut : ([] : List Segment) = cut at htiles
  cases htiles with
  | text =>
      by_cases hempty : text = []
      · exact hempty
      · simp [Segment.ofText, hempty] at hcut
  | tag => simp at hcut

theorem TokenGroup.ReadsFrom.exists_readTag {group : TokenGroup} {start : Point}
    {source : List Char} (hreads : group.ReadsFrom start source) :
    ∃ tag body, source = '{' :: '%' :: body ∧
      readTag start (start.advance ['{', '%']) body = .ok tag ∧ tag.after = [] ∧
      group = tag.group start := by
  rcases segments_eq_ok hreads with ⟨_, hcut⟩ | ⟨before, after, tag, rest, hcut, hread, hrest, heq⟩
  · unfold Segment.ofText at hcut
    split at hcut <;> simp at hcut
  · cases before with
    | cons head tail => simp [Segment.ofText] at heq
    | nil =>
        simp only [Segment.ofText, if_true, List.nil_append, List.cons.injEq, Segment.tag.injEq]
          at heq
        obtain ⟨hgroup, rfl⟩ := heq
        exact ⟨tag, after, Text.cut?_eq_some hcut, hread, (tiles_of_segments hrest).eq_nil, hgroup⟩

theorem TokenGroup.ReadsFrom.source {group : TokenGroup} {start : Point} {source : List Char}
    (hreads : group.ReadsFrom start source) :
    ∃ front, source = '{' :: '%' :: (front ++ ['%', '}']) ∧
      group.span = .covering start source := by
  obtain ⟨tag, body, rfl, hread, hafter, rfl⟩ := hreads.exists_readTag
  obtain ⟨front, rfl, hstop, -⟩ := TokenGroup.readsFrom_of_readTag hread
  rw [hafter]
  exact ⟨front, rfl, congrArg (Span.mk start) hstop⟩

end Tagmark
