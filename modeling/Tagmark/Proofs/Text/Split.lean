import Tagmark.Text.Blank
import Tagmark.Text.Split

/-!
What cuts of a text say about its parts. A pattern is cut at its first occurrence (`cut?_before`),
and a text is put together from its lines in one way only (`splitLines_flatten`).
-/

namespace Tagmark.Text

theorem cut?_append_self {pattern : List Char} (hpattern : pattern ≠ []) (rest : List Char) :
    cut? pattern (pattern ++ rest) = some ([], rest) := by
  cases pattern with
  | nil => exact absurd rfl hpattern
  | cons head tail =>
      have hprefix : (head :: tail).isPrefixOf? (head :: tail ++ rest) = some rest :=
        isPrefixOf?_eq_some.2 rfl
      rw [List.cons_append] at hprefix ⊢
      rw [cut?, hprefix]

theorem cut?_opening (rest : List Char) :
    cut? ['{', '%'] ('{' :: '%' :: rest) = some ([], rest) :=
  cut?_append_self (List.cons_ne_nil _ _) rest

theorem cut?_append_of_not_mem {head : Char} {before : List Char} (hbefore : head ∉ before)
    (tail text : List Char) :
    cut? (head :: tail) (before ++ text) =
      (cut? (head :: tail) text).map fun (front, back) => (before ++ front, back) := by
  induction before with
  | nil => simp
  | cons c rest induction =>
      obtain ⟨hc, hrest⟩ := not_or.1 (mt List.mem_cons.2 hbefore)
      have hprefix : (head :: tail).isPrefixOf? (c :: (rest ++ text)) = none := by
        rw [isPrefixOf?_cons]
        simp [hc]
      rw [List.cons_append, cut?, hprefix]
      dsimp only
      rw [induction hrest, Option.map_map]
      rfl

theorem cut?_eq_none_of_not_mem {head : Char} {text : List Char} (htext : head ∉ text)
    (tail : List Char) : cut? (head :: tail) text = none := by
  have hcut := cut?_append_of_not_mem htext tail []
  rwa [List.append_nil] at hcut

theorem cut?_opening_of_not_mem {before : List Char} (hbefore : '{' ∉ before)
    (rest : List Char) :
    cut? ['{', '%'] (before ++ '{' :: '%' :: rest) = some (before, rest) := by
  rw [cut?_append_of_not_mem hbefore, cut?_opening]
  simp

theorem cut?_opening_of_none {before : List Char} (hbefore : cut? ['{', '%'] before = none)
    (rest : List Char) :
    cut? ['{', '%'] (before ++ '{' :: '%' :: rest) = some (before, rest) := by
  induction before with
  | nil => exact cut?_opening rest
  | cons c before induction =>
      unfold cut? at hbefore
      split at hbefore
      · cases hbefore
      · next hhead =>
          have hnone : ['{', '%'].isPrefixOf? (c :: (before ++ '{' :: '%' :: rest)) = none := by
            rw [isPrefixOf?_cons] at hhead ⊢
            split at hhead
            · next hc =>
                rw [if_pos hc]
                cases before with
                | nil => rfl
                | cons d before => simpa [isPrefixOf?_cons, isPrefixOf?_nil] using hhead
            · next hc => rw [if_neg hc]
          rw [List.cons_append, cut?, hnone]
          dsimp only
          rw [induction (Option.map_eq_none_iff.1 hbefore)]
          rfl

theorem exists_of_lastFrom? {pattern text found : List Char}
    (hlast : lastFrom? pattern text = some found) :
    ∃ before tail, text = before ++ found ∧ found = pattern ++ tail := by
  induction text with
  | nil => cases hlast
  | cons c rest induction =>
      rw [lastFrom?] at hlast
      split at hlast
      · next later hlater =>
          cases hlast
          obtain ⟨before, tail, rfl, hfound⟩ := induction hlater
          exact ⟨c :: before, tail, rfl, hfound⟩
      · split at hlast
        · next hprefix =>
            cases hlast
            obtain ⟨tail, htail⟩ := List.isPrefixOf_iff_prefix.1 hprefix
            exact ⟨[], tail, rfl, htail.symm⟩
        · cases hlast

theorem contains_append (pattern before after : List Char) :
    contains pattern (before ++ (pattern ++ after)) = true := by
  unfold contains
  induction before with
  | nil =>
      cases pattern with
      | nil => cases after <;> rfl
      | cons head tail =>
          have hprefix : (head :: tail).isPrefixOf? (head :: (tail ++ after)) = some after :=
            isPrefixOf?_eq_some.2 rfl
          rw [List.nil_append, List.cons_append, cut?, hprefix]
          rfl
  | cons c rest induction =>
      rw [List.cons_append, cut?]
      split
      · rfl
      · rw [Option.isSome_map]
        exact induction

theorem cut?_of_append {pattern left right : List Char}
    (hcut : cut? pattern (left ++ right) = none) : cut? pattern left = none := by
  cases hleft : cut? pattern left with
  | none => rfl
  | some pair =>
      have hcontains := contains_append pattern pair.1 (pair.2 ++ right)
      rw [← List.append_assoc pattern, ← List.append_assoc pair.1, ← List.append_assoc pair.1,
        ← cut?_eq_some hleft] at hcontains
      unfold contains at hcontains
      rw [hcut] at hcontains
      cases hcontains

theorem cut?_of_append_right {pattern left right : List Char}
    (hcut : cut? pattern (left ++ right) = none) : cut? pattern right = none := by
  cases hright : cut? pattern right with
  | none => rfl
  | some pair =>
      have hcontains := contains_append pattern (left ++ pair.1) pair.2
      rw [List.append_assoc, ← List.append_assoc pair.1, ← cut?_eq_some hright] at hcontains
      unfold contains at hcontains
      rw [hcut] at hcontains
      cases hcontains

theorem cut?_before {pattern text before after : List Char}
    (hcut : cut? pattern text = some (before, after)) (hpattern : pattern ≠ []) :
    cut? pattern before = none := by
  induction text generalizing before after with
  | nil =>
      rw [cut?, if_neg hpattern] at hcut
      cases hcut
  | cons c rest induction =>
      rw [cut?] at hcut
      split at hcut
      · cases hcut
        rw [cut?, if_neg hpattern]
      · next hprefix =>
          obtain ⟨⟨before', after'⟩, hrest, heq⟩ := Option.map_eq_some_iff.1 hcut
          cases heq
          have hhead : pattern.isPrefixOf? (c :: before') = none := by
            cases hfound : pattern.isPrefixOf? (c :: before') with
            | none => rfl
            | some tail =>
                have hwhole : c :: rest = pattern ++ (tail ++ pattern ++ after) := by
                  rw [cut?_eq_some hrest, List.append_assoc, List.append_assoc,
                    ← List.cons_append, isPrefixOf?_eq_some.1 hfound, List.append_assoc]
                rw [isPrefixOf?_eq_some.2 hwhole] at hprefix
                cases hprefix
          rw [cut?, hhead, induction hrest]
          rfl

theorem cut?_replace {pattern text before after : List Char}
    (hcut : cut? pattern text = some (before, after)) (hpattern : pattern ≠ [])
    (other : List Char) : cut? pattern (before ++ (pattern ++ other)) = some (before, other) := by
  induction text generalizing before after with
  | nil =>
      rw [cut?, if_neg hpattern] at hcut
      cases hcut
  | cons c rest induction =>
      rw [cut?] at hcut
      split at hcut
      · cases hcut
        exact cut?_append_self hpattern other
      · next hprefix =>
          obtain ⟨⟨before', after'⟩, hrest, heq⟩ := Option.map_eq_some_iff.1 hcut
          cases heq
          have hnone : pattern.isPrefixOf? (c :: (before' ++ (pattern ++ other))) = none := by
            cases hfound : pattern.isPrefixOf? (c :: (before' ++ (pattern ++ other))) with
            | none => rfl
            | some tail =>
                have hlong : pattern <+: c :: before' ++ pattern ++ other :=
                  ⟨tail, by simpa using (isPrefixOf?_eq_some.1 hfound).symm⟩
                have hlength : pattern.length ≤ (c :: before' ++ pattern).length := by
                  rw [List.length_append]
                  exact Nat.le_add_left _ _
                obtain ⟨more, hmore⟩ :=
                  List.prefix_of_prefix_length_le hlong (List.prefix_append _ other) hlength
                have hwhole : c :: rest = pattern ++ (more ++ after) := by
                  rw [cut?_eq_some hrest, ← List.append_assoc, hmore]
                  simp
                rw [isPrefixOf?_eq_some.2 hwhole] at hprefix
                cases hprefix
          rw [List.cons_append, cut?, hnone, induction hrest]
          rfl

theorem lastFrom?_append {pattern text found : List Char} (before : List Char)
    (hlast : lastFrom? pattern text = some found) :
    lastFrom? pattern (before ++ text) = some found := by
  induction before with
  | nil => exact hlast
  | cons c before induction => rw [List.cons_append, lastFrom?, induction]

theorem cut?_eq_none_of_lastFrom? {pattern text : List Char} (hpattern : pattern ≠ [])
    (hlast : lastFrom? pattern text = none) : cut? pattern text = none := by
  cases hcut : cut? pattern text with
  | none => rfl
  | some pair =>
      cases hlater : lastFrom? pattern (pattern ++ pair.2) with
      | some found =>
          have hfound := lastFrom?_append pair.1 hlater
          rw [← List.append_assoc, ← cut?_eq_some hcut, hlast] at hfound
          cases hfound
      | none =>
          cases pattern with
          | nil => exact absurd rfl hpattern
          | cons head tail =>
              rw [List.cons_append, lastFrom?] at hlater
              split at hlater
              · cases hlater
              · have hprefix : (head :: tail).isPrefixOf (head :: (tail ++ pair.2)) = true :=
                  List.isPrefixOf_iff_prefix.2 ⟨pair.2, rfl⟩
                rw [if_pos hprefix] at hlater
                cases hlater

theorem drop_takeWhile (p : Char → Bool) (text : List Char) :
    text.drop (text.takeWhile p).length = text.dropWhile p := by
  induction text with
  | nil => rfl
  | cons head tail induction => cases hhead : p head <;> simp [hhead, induction]

theorem append_eq_split {c : Char} {left right front back : List Char}
    (heq : left ++ right = front ++ c :: back) :
    (∃ more, left = front ++ c :: more ∧ back = more ++ right) ∨
      ∃ more, front = left ++ more ∧ right = more ++ c :: back := by
  rcases List.append_eq_append_iff.1 heq with ⟨more, hfront, hright⟩ | ⟨more, hleft, hback⟩
  · exact .inr ⟨more, hfront, hright⟩
  · cases more with
    | nil => exact .inr ⟨[], by simp [hleft], hback.symm⟩
    | cons d more =>
        obtain ⟨rfl, rfl⟩ := List.cons.inj hback
        exact .inl ⟨more, hleft, rfl⟩

section

variable {delimiter text : List Char} (hdelimiter : delimiter ≠ [])

include hdelimiter

theorem splitOn_of_cut_none (hcut : cut? delimiter text = none) :
    splitOn delimiter text = [text] := by
  rw [splitOn, dif_neg hdelimiter, pieces]
  split
  · rfl
  · next hsome => cases hcut.symm.trans hsome

theorem splitOn_of_cut {before after : List Char}
    (hcut : cut? delimiter text = some (before, after)) :
    splitOn delimiter text = before :: splitOn delimiter after := by
  rw [splitOn, dif_neg hdelimiter, pieces]
  split
  · next hnone => cases hcut.symm.trans hnone
  · next hsome =>
      cases hcut.symm.trans hsome
      rw [splitOn, dif_neg hdelimiter]

end

section

variable {head : Char} {field : List Char} (hfield : head ∉ field)

include hfield

theorem splitOn_of_not_mem (tail : List Char) : splitOn (head :: tail) field = [field] :=
  splitOn_of_cut_none (List.cons_ne_nil _ _) (cut?_eq_none_of_not_mem hfield tail)

theorem splitOn_append_of_not_mem (tail rest : List Char) :
    splitOn (head :: tail) (field ++ (head :: tail ++ rest)) =
      field :: splitOn (head :: tail) rest := by
  have hcut : cut? (head :: tail) (field ++ (head :: tail ++ rest)) = some (field, rest) := by
    rw [cut?_append_of_not_mem hfield, cut?_append_self (List.cons_ne_nil _ _)]
    simp
  exact splitOn_of_cut (List.cons_ne_nil _ _) hcut

end

/-- A line with `rest` after it: a newline stands at its end only, and there it must stand where
something follows. -/
structure IsLine (line rest : List Char) : Prop where
  ne_nil : line ≠ []
  newline_last : '\n' ∉ line.dropLast
  ended : rest ≠ [] → line.getLast? = some '\n'

def AreLines : List (List Char) → Prop
  | [] => True
  | line :: rest => IsLine line rest.flatten ∧ AreLines rest

theorem IsLine.of_ne_nil {line rest : List Char} (hline : IsLine line rest) (hrest : rest ≠ [])
    (other : List Char) : IsLine line other :=
  ⟨hline.ne_nil, hline.newline_last, fun _ => hline.ended hrest⟩

theorem AreLines.append_replace {front back other : List (List Char)}
    (hlines : AreLines (front ++ back)) (hback : back.flatten ≠ []) (hother : AreLines other) :
    AreLines (front ++ other) := by
  induction front with
  | nil => exact hother
  | cons line front induction =>
      obtain ⟨hline, hrest⟩ := hlines
      have hbehind : (front ++ back).flatten ≠ [] := by
        rw [List.flatten_append]
        exact List.append_ne_nil_of_right_ne_nil _ hback
      exact ⟨hline.of_ne_nil hbehind _, induction hrest⟩

theorem IsLine.eq_nil_of_eq {line rest front back : List Char} (hline : IsLine line rest)
    (heq : line = front ++ '\n' :: back) : back = [] := by
  cases back with
  | nil => rfl
  | cons head tail =>
      refine absurd ?_ hline.newline_last
      rw [heq, List.dropLast_append_cons, List.dropLast_cons_of_ne_nil (List.cons_ne_nil _ _)]
      exact List.mem_append_right _ List.mem_cons_self

theorem IsLine.newline_split {line rest : List Char} (hline : IsLine line rest)
    {text front back : List Char} (heq : text ++ line = front ++ '\n' :: back) :
    (∃ back', text = front ++ '\n' :: back' ∧ back = back' ++ line) ∨ back = [] := by
  rcases append_eq_split heq with htext | ⟨middle, -, htail⟩
  · exact .inl htext
  · exact .inr (hline.eq_nil_of_eq htail)

theorem isLine_newline (rest : List Char) : IsLine ['\n'] rest :=
  ⟨List.cons_ne_nil _ _, List.not_mem_nil, fun _ => rfl⟩

theorem isLine_concat_newline {text : List Char} (htext : '\n' ∉ text) (rest : List Char) :
    IsLine (text ++ ['\n']) rest := by
  refine ⟨by simp, ?_, fun _ => List.getLast?_concat⟩
  rwa [List.dropLast_concat]

theorem IsLine.cons {c : Char} {line rest : List Char} (hc : c ≠ '\n') (hline : IsLine line rest) :
    IsLine (c :: line) rest := by
  obtain ⟨hne, hlast, hended⟩ := hline
  refine ⟨List.cons_ne_nil _ _, ?_, ?_⟩
  · rw [List.dropLast_cons_of_ne_nil hne, List.mem_cons, not_or]
    exact ⟨fun heq => hc heq.symm, hlast⟩
  · intro hrest
    rw [List.getLast?_cons, hended hrest]
    rfl

theorem areLines_splitLines (text : List Char) : AreLines (splitLines text) := by
  induction text with
  | nil => trivial
  | cons c rest induction =>
      unfold splitLines
      split
      · next hc =>
          subst hc
          exact ⟨isLine_newline _, induction⟩
      · next hc =>
          split
          · exact ⟨⟨List.cons_ne_nil _ _, List.not_mem_nil, fun hne => absurd rfl hne⟩, trivial⟩
          · next line lines hlines =>
              rw [hlines] at induction
              exact ⟨induction.1.cons hc, induction.2⟩

theorem splitLines_append {line rest : List Char} (hline : IsLine line rest) :
    splitLines (line ++ rest) = line :: splitLines rest := by
  induction line with
  | nil => exact absurd rfl hline.ne_nil
  | cons c tail induction =>
      cases tail with
      | nil =>
          by_cases hc : c = '\n'
          · simp [splitLines, hc]
          · have hrest : rest = [] := by
              by_cases hrest : rest = []
              · exact hrest
              · exact absurd (by simpa using hline.ended hrest) hc
            simp [splitLines, hc, hrest]
      | cons d tail =>
          have hlast := hline.newline_last
          rw [List.dropLast_cons_of_ne_nil (List.cons_ne_nil _ _), List.mem_cons, not_or] at hlast
          have hc : c ≠ '\n' := fun heq => hlast.1 heq.symm
          have htail : IsLine (d :: tail) rest := by
            refine ⟨List.cons_ne_nil _ _, hlast.2, ?_⟩
            intro hrest
            have hended := hline.ended hrest
            rwa [List.getLast?_cons_cons] at hended
          have hsplit := induction htail
          rw [List.cons_append, splitLines, if_neg hc, hsplit]

theorem IsLine.append_inj {line line' rest rest' : List Char} (hline : IsLine line rest)
    (hline' : IsLine line' rest') (heq : line ++ rest = line' ++ rest') :
    line = line' ∧ rest = rest' := by
  have hsplit := congrArg splitLines heq
  rw [splitLines_append hline, splitLines_append hline'] at hsplit
  obtain ⟨rfl, -⟩ := List.cons.inj hsplit
  exact ⟨rfl, List.append_cancel_left heq⟩

theorem IsLine.exists_append {line rest front back : List Char} (hline : IsLine line rest)
    (heq : line ++ rest = front ++ back) (hfront : '\n' ∉ front) :
    ∃ more, line = front ++ more := by
  rcases List.append_eq_append_iff.1 heq with ⟨more, rfl, hrest⟩ | ⟨more, rfl, -⟩
  · cases more with
    | nil => exact ⟨[], by simp⟩
    | cons c more =>
        have hmore : rest ≠ [] := by simp [hrest]
        exact absurd (List.mem_append_left _ (List.mem_of_getLast? (hline.ended hmore))) hfront
  · exact ⟨more, rfl⟩

theorem splitLines_flatten {lines : List (List Char)} (hlines : AreLines lines) :
    splitLines lines.flatten = lines := by
  induction lines with
  | nil => rfl
  | cons line rest induction =>
      rw [List.flatten_cons, splitLines_append hlines.1, induction hlines.2]

theorem splitLines_flatMap {lines : List (List Char)} (hlines : ∀ line ∈ lines, '\n' ∉ line) :
    splitLines (lines.flatMap (· ++ ['\n'])) = lines.map (· ++ ['\n']) := by
  induction lines with
  | nil => rfl
  | cons line rest induction =>
      obtain ⟨hline, hrest⟩ := List.forall_mem_cons.1 hlines
      rw [List.flatMap_cons, splitLines_append (isLine_concat_newline hline _), induction hrest,
        List.map_cons]

theorem splitLines_replace {text : List Char} {front back : List (List Char)}
    (hsplit : splitLines text = front ++ back) (hback : back.flatten ≠ []) (other : List Char) :
    splitLines (front.flatten ++ other) = front ++ splitLines other := by
  have hlines := areLines_splitLines text
  rw [hsplit] at hlines
  have hreplaced := splitLines_flatten (hlines.append_replace hback (areLines_splitLines other))
  rwa [List.flatten_append, flatten_splitLines] at hreplaced

theorem splitLines_append_of_ended {text : List Char} (hended : text.getLast? = some '\n')
    (rest : List Char) : splitLines (text ++ rest) = splitLines text ++ splitLines rest := by
  induction text with
  | nil => cases hended
  | cons c tail induction =>
      cases tail with
      | nil =>
          obtain rfl : c = '\n' := by simpa using hended
          rfl
      | cons d tail =>
          rw [List.getLast?_cons_cons] at hended
          have hsplit := induction hended
          rw [List.cons_append, splitLines, splitLines, hsplit]
          split
          · rfl
          · cases hlines : splitLines (d :: tail) with
            | nil =>
                have hflatten := flatten_splitLines (d :: tail)
                rw [hlines] at hflatten
                cases hflatten
            | cons line lines => rfl

theorem splitLines_concat (text : List Char) (d : Char) :
    splitLines (text ++ [d]) = splitLines text ++ [[d]] ∨
      ∃ front last, splitLines text = front ++ [last] ∧
        splitLines (text ++ [d]) = front ++ [last ++ [d]] := by
  induction text with
  | nil =>
      left
      by_cases hd : d = '\n' <;> simp [splitLines, hd]
  | cons c rest induction =>
      rw [List.cons_append, splitLines, splitLines]
      split
      · rcases induction with hown | ⟨front, last, htext, hends⟩
        · rw [hown]
          exact .inl rfl
        · rw [htext, hends]
          exact .inr ⟨[c] :: front, last, rfl, rfl⟩
      · rcases induction with hown | ⟨front, last, htext, hends⟩
        · rw [hown]
          cases splitLines rest with
          | nil => exact .inr ⟨[], [c], rfl, rfl⟩
          | cons line lines => exact .inl rfl
        · rw [htext, hends]
          cases front with
          | nil => exact .inr ⟨[], c :: last, rfl, rfl⟩
          | cons line lines => exact .inr ⟨(c :: line) :: lines, last, rfl, rfl⟩

theorem splitLines_concat_newline (text : List Char) :
    splitLines (text ++ ['\n']) = splitLines text ++ [['\n']] ∨
      ∃ front last, splitLines text = front ++ [last] ∧
        splitLines (text ++ ['\n']) = front ++ [last ++ ['\n']] :=
  splitLines_concat text '\n'

theorem forall_mem_splitLines_concat_newline {p : List Char → Prop} {text : List Char}
    (hnewline : p ['\n']) (hconcat : ∀ line, p line → p (line ++ ['\n']))
    (hall : ∀ line ∈ splitLines text, p line) : ∀ line ∈ splitLines (text ++ ['\n']), p line := by
  rcases splitLines_concat_newline text with hown | ⟨front, last, htext, hends⟩
  · rw [hown, List.forall_mem_append, List.forall_mem_singleton]
    exact ⟨hall, hnewline⟩
  · rw [htext, List.forall_mem_append, List.forall_mem_singleton] at hall
    rw [hends, List.forall_mem_append, List.forall_mem_singleton]
    exact ⟨hall.1, hconcat last hall.2⟩

theorem splitLines_append_of_split {text : List Char} {front back : List (List Char)}
    {line : List Char} (hsplit : splitLines text = front ++ line :: back) (more : List Char) :
    ∃ ending behind, splitLines (text ++ more) = front ++ (line ++ ending) :: behind := by
  induction text generalizing front line back with
  | nil => cases front <;> cases hsplit
  | cons c rest induction =>
      rw [splitLines] at hsplit
      rw [List.cons_append, splitLines]
      split at hsplit
      · next hnewline =>
          rw [if_pos hnewline]
          cases front with
          | nil =>
              cases hsplit
              exact ⟨[], splitLines (rest ++ more), rfl⟩
          | cons first front =>
              obtain ⟨rfl, hrest⟩ := List.cons.inj hsplit
              obtain ⟨ending, behind, hmore⟩ := induction hrest
              exact ⟨ending, behind, by rw [hmore]; rfl⟩
      · next hnewline =>
          rw [if_neg hnewline]
          cases hlines : splitLines rest with
          | nil =>
              rw [hlines] at hsplit
              have hrest : rest = [] := by
                rw [← flatten_splitLines rest, hlines]
                rfl
              subst hrest
              obtain ⟨rfl, hline⟩ : front = [] ∧ [c] = line := by
                cases front with
                | nil => exact ⟨rfl, (List.cons.inj hsplit).1⟩
                | cons first front => simp at hsplit
              subst hline
              rw [List.nil_append]
              cases splitLines more with
              | nil => exact ⟨[], [], rfl⟩
              | cons next others => exact ⟨next, others, rfl⟩
          | cons next others =>
              rw [hlines] at hsplit
              cases front with
              | nil =>
                  cases hsplit
                  have hrest : splitLines rest = [] ++ next :: back := hlines
                  obtain ⟨ending, behind, hmore⟩ := induction hrest
                  exact ⟨ending, behind, by rw [hmore]; rfl⟩
              | cons first front =>
                  obtain ⟨rfl, rfl⟩ := List.cons.inj hsplit
                  have hrest : splitLines rest = (next :: front) ++ line :: back := hlines
                  obtain ⟨ending, behind, hmore⟩ := induction hrest
                  exact ⟨ending, behind, by rw [hmore]; rfl⟩

theorem AreLines.of_append {front back : List (List Char)} (hlines : AreLines (front ++ back)) :
    AreLines back := by
  induction front with
  | nil => exact hlines
  | cons line rest induction => exact induction hlines.2

theorem isBlankText_append {left right : List Char} :
    isBlankText (left ++ right) = true ↔
      isBlankText left = true ∧ isBlankText right = true := by
  unfold isBlankText
  rw [List.all_append, Bool.and_eq_true]

theorem ne_nil_of_not_blank {text : List Char} (hblank : isBlankText text = false) :
    text ≠ [] := by
  rintro rfl
  cases hblank

theorem exists_dropLast_append (c : Char) (text : List Char) :
    ∃ ending, text = dropLast c text ++ ending ∧ (ending = [] ∨ ending = [c]) := by
  unfold dropLast
  split
  · next hlast =>
      obtain ⟨front, rfl⟩ := List.getLast?_eq_some_iff.1 hlast
      exact ⟨[c], by rw [List.dropLast_concat], .inr rfl⟩
  · exact ⟨[], (List.append_nil text).symm, .inl rfl⟩

theorem exists_lineEnd (text : List Char) :
    ∃ ending, text = dropLineEnd text ++ ending ∧ ∀ c ∈ ending, c = '\n' ∨ c = '\r' := by
  obtain ⟨newline, hnewline, hfirst⟩ := exists_dropLast_append '\n' text
  obtain ⟨carriage, hcarriage, hsecond⟩ :=
    exists_dropLast_append '\r' (dropLast '\n' text)
  refine ⟨carriage ++ newline, ?_, ?_⟩
  · rw [← List.append_assoc]
    unfold dropLineEnd
    rw [← hcarriage, ← hnewline]
  · rcases hfirst with rfl | rfl <;> rcases hsecond with rfl | rfl <;> simp

theorem exists_dropLineEnd_append (text : List Char) :
    ∃ ending, text = dropLineEnd text ++ ending ∧ isBlankText ending = true := by
  obtain ⟨ending, htext, hending⟩ := exists_lineEnd text
  refine ⟨ending, htext, List.all_eq_true.2 ?_⟩
  intro c hmem
  rcases hending c hmem with rfl | rfl <;> decide

theorem dropLineEnd_concat {text : List Char} (hreturn : text.getLast? ≠ some '\r') :
    dropLineEnd (text ++ ['\n']) = text := by
  have hnewline : dropLast '\n' (text ++ ['\n']) = text := by
    rw [dropLast, if_pos List.getLast?_concat, List.dropLast_concat]
  rw [dropLineEnd, hnewline, dropLast, if_neg hreturn]

end Tagmark.Text
