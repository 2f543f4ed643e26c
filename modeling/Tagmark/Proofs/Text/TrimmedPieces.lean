import Tagmark.Proofs.Text.BlankLines

/-!
Pieces of a text that is trimmed first. Where a delimiter has white space at an end of its own, trimming
may take that off as well, and with it the delimiter. In front this happens only if the first piece is
blank (`splitOn_trimStart`). Behind, the last piece is blank and the one before it takes in what is
left of the delimiter (`splitOn_trimEnd_of_blank_last`); otherwise all that is lost are blank pieces
(`exists_map_trim_splitOn`).
-/

namespace Tagmark.Text

theorem exists_trimStart_append (text : List Char) :
    ∃ beginning, text = beginning ++ trimStart text ∧ isBlankText beginning = true :=
  ⟨text.takeWhile isBlank, List.takeWhile_append_dropWhile.symm, List.all_takeWhile⟩

theorem trimStart_of_blank_append {left : List Char} (hleft : isBlankText left = true)
    (right : List Char) : trimStart (left ++ right) = trimStart right :=
  List.dropWhile_append_of_pos (List.all_eq_true.1 hleft)

theorem trimStart_append_of_trimmed {right : List Char} (hright : trimStart right = right)
    (left : List Char) : trimStart (left ++ right) = trimStart left ++ right := by
  cases hleft : isBlankText left with
  | true => rw [trimStart_of_blank_append hleft, hright, trimStart_eq_nil_iff.2 hleft, List.nil_append]
  | false => exact trimStart_append hleft right

theorem trim_replicate {c : Char} (hc : isBlank c = false) (count : Nat) :
    trim (List.replicate count c) = List.replicate count c := by
  cases count with
  | zero => rfl
  | succ count => simp [trim, trimStart, trimEnd, hc]

theorem not_blank_of_trimStart {text : List Char} (htext : trimStart text = text) (hne : text ≠ []) :
    isBlankText text = false := by
  rw [← Bool.not_eq_true, ← trimStart_eq_nil_iff, htext]
  exact hne

theorem isBlankText_trimStart (text : List Char) :
    isBlankText (trimStart text) = isBlankText text := by
  obtain ⟨beginning, htext, hbeginning⟩ := exists_trimStart_append text
  rw [Bool.eq_iff_iff]
  conv_rhs => rw [htext]
  rw [isBlankText_append, and_iff_right hbeginning]

theorem trimEnd_append_of_not_blank {right : List Char} (hright : isBlankText right = false)
    (left : List Char) : trimEnd (left ++ right) = left ++ trimEnd right := by
  have hne : trimEnd right ≠ [] := by
    rw [ne_eq, trimEnd_eq_nil_iff, hright]
    exact Bool.false_ne_true
  unfold trimEnd at hne ⊢
  rw [List.reverse_append, List.dropWhile_append,
    if_neg (by simpa [List.isEmpty_iff] using hne), List.reverse_append, List.reverse_reverse]

theorem trim_append_between {text : List Char} (htext : trim text = text) (hne : text ≠ [])
    (left middle : List Char) :
    trim (left ++ (text ++ (middle ++ text))) = trimStart left ++ (text ++ (middle ++ text)) := by
  have hbegins : trimStart (text ++ (middle ++ text)) = text ++ (middle ++ text) := by
    rw [trimStart_append (not_blank_of_trim htext hne), trimStart_of_trim htext]
  have hends := trimEnd_append_of_trim htext hne (trimStart left ++ (text ++ middle))
  rw [trim, trimStart_append_of_trimmed hbegins]
  simpa only [List.append_assoc] using hends

theorem trim_append_ne {right : List Char} (hright : isBlankText right = false)
    (left : List Char) : trim (left ++ right) ≠ trim left := by
  intro htrim
  have hcount : ∀ text, (trim text).countP (fun c => !isBlank c) = text.countP fun c => !isBlank c :=
    countP_trimMatches isBlank
  have hsame : (left ++ right).countP (fun c => !isBlank c) = left.countP fun c => !isBlank c := by
    rw [← hcount, htrim, hcount]
  rw [List.countP_append] at hsame
  have hnone : right.countP (fun c => !isBlank c) = 0 := by omega
  have hall : isBlankText right = true := by
    rw [isBlankText, List.all_eq_true]
    intro c hmem
    simpa using List.countP_eq_zero.1 hnone c hmem
  cases hright.symm.trans hall

section

variable {delimiter text front before after : List Char}

theorem cut?_of_append_front (hcut : cut? delimiter (front ++ text) = some (front ++ before, after)) :
    cut? delimiter text = some (before, after) := by
  induction front with
  | nil => exact hcut
  | cons c front induction =>
      rw [List.cons_append, List.cons_append, cut?] at hcut
      split at hcut
      · cases hcut
      · obtain ⟨pair, hrest, heq⟩ := Option.map_eq_some_iff.1 hcut
        obtain ⟨hbefore, hafter⟩ := Prod.mk.inj heq
        refine induction (hrest.trans (congrArg some (Prod.ext ?_ hafter)))
        exact (List.cons.inj hbefore).2

variable (hdelimiter : delimiter ≠ [])

include hdelimiter

theorem cut?_append (hcut : cut? delimiter text = some (before, after)) (more : List Char) :
    cut? delimiter (text ++ more) = some (before, after ++ more) := by
  have hreplace := cut?_replace hcut hdelimiter (after ++ more)
  rw [cut?_eq_some hcut]
  simpa using hreplace

theorem cut?_append_part (hcut : cut? delimiter text = some (before, after)) {part ending : List Char}
    (hpart : delimiter = part ++ ending) (hending : ending ≠ []) :
    cut? delimiter (before ++ part) = none := by
  cases hfound : cut? delimiter (before ++ part) with
  | none => rfl
  | some pair =>
      have htext : text = before ++ part ++ (ending ++ after) := by
        rw [cut?_eq_some hcut, hpart]
        simp
      have hfirst := cut?_append hdelimiter hfound (ending ++ after)
      rw [← htext, hcut] at hfirst
      have hbefore : pair.1 = before := (congrArg Prod.fst (Option.some.inj hfirst)).symm
      have hlength := congrArg List.length (cut?_eq_some hfound)
      have hpos := List.length_pos_iff.2 hending
      rw [hbefore, hpart] at hlength
      simp only [List.length_append] at hlength
      omega

omit hdelimiter in
/-- No delimiter is found in what is left of one and a long text without the characters that a delimiter
begins and ends with. -/
theorem cut?_append_of_ends_not_mem {head last : Char} {tail part gap : List Char}
    (hlast : (head :: tail).getLast? = some last) (hhead : head ∉ gap) (hgap : last ∉ gap)
    (hpart : part.length < (head :: tail).length) (hlong : (head :: tail).length ≤ gap.length)
    (rest : List Char) :
    cut? (head :: tail) (part ++ (gap ++ (head :: tail ++ rest))) = some (part ++ gap, rest) := by
  induction part with
  | nil =>
      rw [List.nil_append, cut?_append_of_not_mem hhead, cut?_append_self (List.cons_ne_nil _ _)]
      simp
  | cons c part induction =>
      have hnone : (head :: tail).isPrefixOf? (c :: (part ++ (gap ++ (head :: tail ++ rest)))) =
          none := by
        cases hfound : (head :: tail).isPrefixOf? (c :: (part ++ (gap ++ (head :: tail ++ rest)))) with
        | none => rfl
        | some behind =>
            have htext : head :: tail ++ behind = c :: part ++ gap ++ (head :: tail ++ rest) := by
              rw [List.append_assoc]
              exact (isPrefixOf?_eq_some.1 hfound).symm
            have hlength : (head :: tail).length ≤ (c :: part ++ gap).length := by
              rw [List.length_append]
              omega
            obtain ⟨more, hmore⟩ := List.prefix_of_prefix_length_le
              ⟨behind, htext⟩ (List.prefix_append _ _) hlength
            rcases List.append_eq_append_iff.1 hmore with ⟨excess, hexcess, -⟩ | ⟨excess, hexcess, rfl⟩
            · rw [hexcess, List.length_append] at hpart
              omega
            · have hne : excess ≠ [] := by
                rintro rfl
                rw [hexcess, List.append_nil] at hpart
                exact Nat.lt_irrefl _ hpart
              rw [hexcess, List.getLast?_append_of_ne_nil _ hne] at hlast
              exact absurd (List.mem_append_left _ (List.mem_of_getLast? hlast)) hgap
      rw [List.cons_append, cut?, hnone]
      dsimp only
      rw [induction (Nat.lt_of_succ_lt hpart)]
      rfl

theorem cut_induction {motive : List Char → Prop}
    (whole : ∀ text, cut? delimiter text = none → motive text)
    (piece : ∀ text before after, cut? delimiter text = some (before, after) → motive after →
      motive text) (text : List Char) : motive text := by
  cases hcut : cut? delimiter text with
  | none => exact whole text hcut
  | some pair =>
      have hshorter : pair.2.length < text.length := length_lt_of_cut? hdelimiter hcut
      exact piece text pair.1 pair.2 hcut (cut_induction whole piece pair.2)
termination_by text.length

theorem splitOn_ne_nil (text : List Char) : splitOn delimiter text ≠ [] := by
  cases hcut : cut? delimiter text with
  | none =>
      rw [splitOn_of_cut_none hdelimiter hcut]
      exact List.cons_ne_nil _ _
  | some pair =>
      rw [splitOn_of_cut hdelimiter hcut]
      exact List.cons_ne_nil _ _

theorem splitOn_nil : splitOn delimiter [] = [[]] :=
  splitOn_of_cut_none hdelimiter (by rw [cut?, if_neg hdelimiter])

theorem eq_of_splitOn_singleton {piece : List Char} (hsplit : splitOn delimiter text = [piece]) :
    piece = text := by
  cases hcut : cut? delimiter text with
  | none =>
      rw [splitOn_of_cut_none hdelimiter hcut] at hsplit
      exact (List.cons.inj hsplit).1.symm
  | some pair =>
      rw [splitOn_of_cut hdelimiter hcut] at hsplit
      exact absurd (List.cons.inj hsplit).2 (splitOn_ne_nil hdelimiter _)

theorem splitOn_of_blank (hvisible : isBlankText delimiter = false) (hblank : isBlankText text = true) :
    splitOn delimiter text = [text] := by
  cases hcut : cut? delimiter text with
  | none => exact splitOn_of_cut_none hdelimiter hcut
  | some pair =>
      rw [cut?_eq_some hcut, isBlankText_append, isBlankText_append, hvisible] at hblank
      exact absurd hblank.1.2 Bool.false_ne_true

theorem map_trim_splitOn_of_blank (hblank : isBlankText text = true) :
    ∃ count, (splitOn delimiter text).map trim = List.replicate count [] := by
  induction text using cut_induction hdelimiter with
  | whole text hcut =>
      rw [splitOn_of_cut_none hdelimiter hcut, List.map_singleton, trim_eq_nil_iff.2 hblank]
      exact ⟨1, rfl⟩
  | piece text before after hcut induction =>
      rw [cut?_eq_some hcut, isBlankText_append, isBlankText_append] at hblank
      obtain ⟨count, hafter⟩ := induction hblank.2
      rw [splitOn_of_cut hdelimiter hcut, List.map_cons, hafter, trim_eq_nil_iff.2 hblank.1.1]
      exact ⟨count + 1, rfl⟩

theorem splitOn_trimStart {first : List Char} {rest : List (List Char)}
    (hsplit : splitOn delimiter text = first :: rest)
    (hbegins : trimStart delimiter = delimiter ∨ isBlankText first = false) :
    splitOn delimiter (trimStart text) = trimStart first :: rest := by
  cases hcut : cut? delimiter text with
  | none =>
      rw [splitOn_of_cut_none hdelimiter hcut] at hsplit
      cases hsplit
      obtain ⟨beginning, htext, -⟩ := exists_trimStart_append text
      rw [htext] at hcut
      exact splitOn_of_cut_none hdelimiter (cut?_of_append_right hcut)
  | some pair =>
      obtain ⟨before, after⟩ := pair
      rw [splitOn_of_cut hdelimiter hcut] at hsplit
      obtain ⟨rfl, rfl⟩ := List.cons.inj hsplit
      have htext : text = before ++ (delimiter ++ after) := by
        rw [cut?_eq_some hcut, List.append_assoc]
      cases hblank : isBlankText before with
      | true =>
          have hstart := hbegins.resolve_right (by simp [hblank])
          have hbehind : trimStart (delimiter ++ after) = delimiter ++ after := by
            rw [trimStart_append (not_blank_of_trimStart hstart hdelimiter), hstart]
          rw [htext, trimStart_of_blank_append hblank, hbehind, trimStart_eq_nil_iff.2 hblank]
          exact splitOn_of_cut hdelimiter (cut?_append_self hdelimiter after)
      | false =>
          obtain ⟨beginning, hbefore, -⟩ := exists_trimStart_append before
          have hwhole : text = beginning ++ trimStart text := by
            rw [htext, trimStart_append hblank, ← List.append_assoc beginning, ← hbefore]
          rw [hwhole, hbefore] at hcut
          exact splitOn_of_cut hdelimiter (cut?_of_append_front hcut)

/-- Where the text goes on with more than white space behind a delimiter, this one is still a delimiter
when the text is trimmed. -/
theorem splitOn_trimEnd_of_cut (hcut : cut? delimiter text = some (before, after))
    (hafter : isBlankText after = false) :
    splitOn delimiter (trimEnd text) = before :: splitOn delimiter (trimEnd after) := by
  have htext : trimEnd text = before ++ (delimiter ++ trimEnd after) := by
    rw [cut?_eq_some hcut, trimEnd_append_of_not_blank hafter, List.append_assoc]
  rw [htext]
  exact splitOn_of_cut hdelimiter (cut?_replace hcut hdelimiter _)

theorem exists_map_trim_splitOn_of_blank (hcut : cut? delimiter text = some (before, after))
    (hafter : isBlankText after = true)
    (hends : trimEnd delimiter = delimiter ∨ isBlankText delimiter = true) :
    ∃ count, (splitOn delimiter text).map trim =
      (splitOn delimiter (trimEnd text)).map trim ++ List.replicate count [] := by
  have htext : trimEnd text = trimEnd (before ++ delimiter) := by
    rw [cut?_eq_some hcut, trimEnd_append_of_blank hafter]
  rw [splitOn_of_cut hdelimiter hcut, htext, List.map_cons]
  cases hblank : isBlankText delimiter with
  | true =>
      obtain ⟨ending, hbefore, -⟩ := exists_trimEnd_append before
      have hnone : cut? delimiter (trimEnd before) = none := by
        have hwhole := cut?_before hcut hdelimiter
        rw [hbefore] at hwhole
        exact cut?_of_append hwhole
      obtain ⟨count, hcount⟩ := map_trim_splitOn_of_blank hdelimiter hafter
      rw [trimEnd_append_of_blank hblank, splitOn_of_cut_none hdelimiter hnone, hcount,
        List.map_singleton, trim_trimEnd]
      exact ⟨count, rfl⟩
  | false =>
      have hkept := hends.resolve_right (by simp [hblank])
      have hend : cut? delimiter (before ++ delimiter) = some (before, []) := by
        simpa using cut?_replace hcut hdelimiter []
      have hpiece : trim after = trim [] := trim_eq_nil_iff.2 hafter
      rw [trimEnd_append_of_not_blank hblank, hkept, splitOn_of_cut hdelimiter hend,
        splitOn_nil hdelimiter, splitOn_of_blank hdelimiter hblank hafter]
      exact ⟨0, by simp [hpiece]⟩

theorem exists_map_trim_splitOn (hends : trimEnd delimiter = delimiter ∨ isBlankText delimiter = true ∨
      ∀ last ∈ (splitOn delimiter text).getLast?, isBlankText last = false) :
    ∃ count, (splitOn delimiter text).map trim =
      (splitOn delimiter (trimEnd text)).map trim ++ List.replicate count [] := by
  induction text using cut_induction hdelimiter with
  | whole text hcut =>
      obtain ⟨ending, htext, -⟩ := exists_trimEnd_append text
      have htrimmed : cut? delimiter (trimEnd text) = none := by
        rw [htext] at hcut
        exact cut?_of_append hcut
      rw [splitOn_of_cut_none hdelimiter hcut, splitOn_of_cut_none hdelimiter htrimmed,
        List.map_singleton, List.map_singleton, trim_trimEnd]
      exact ⟨0, rfl⟩
  | piece text before after hcut induction =>
      have hsplit := splitOn_of_cut hdelimiter hcut
      have hlast : (splitOn delimiter text).getLast? = (splitOn delimiter after).getLast? := by
        rw [hsplit, List.getLast?_cons_of_ne_nil (splitOn_ne_nil hdelimiter after)]
      rw [hlast] at hends
      cases hafter : isBlankText after with
      | false =>
          obtain ⟨count, hcount⟩ := induction hends
          rw [hsplit, splitOn_trimEnd_of_cut hdelimiter hcut hafter, List.map_cons, hcount]
          exact ⟨count, rfl⟩
      | true =>
          refine exists_map_trim_splitOn_of_blank hdelimiter hcut hafter
            (hends.imp_right fun hrest => hrest.elim id fun hvisible => ?_)
          by_contra hblank
          rw [splitOn_of_blank hdelimiter (Bool.not_eq_true _ ▸ hblank) hafter] at hvisible
          cases hafter.symm.trans (hvisible after rfl)

/-- Otherwise the last piece is blank, and what is left of the delimiter before it belongs to the
piece before that. -/
theorem splitOn_trimEnd_of_blank_last (hvisible : isBlankText delimiter = false)
    (hends : trimEnd delimiter ≠ delimiter) {pieces : List (List Char)} {piece last : List Char}
    (hsplit : splitOn delimiter text = pieces ++ [piece, last]) (hlast : isBlankText last = true) :
    splitOn delimiter (trimEnd text) = pieces ++ [piece ++ trimEnd delimiter] := by
  induction text using cut_induction hdelimiter generalizing pieces with
  | whole text hcut =>
      rw [splitOn_of_cut_none hdelimiter hcut] at hsplit
      have hlength := congrArg List.length hsplit
      simp at hlength
  | piece text before after hcut induction =>
      rw [splitOn_of_cut hdelimiter hcut] at hsplit
      cases pieces with
      | nil =>
          obtain ⟨rfl, hafter⟩ := List.cons.inj hsplit
          cases eq_of_splitOn_singleton hdelimiter hafter
          have htext : trimEnd text = before ++ trimEnd delimiter := by
            rw [cut?_eq_some hcut, trimEnd_append_of_blank hlast,
              trimEnd_append_of_not_blank hvisible]
          obtain ⟨ending, hending, -⟩ := exists_trimEnd_append delimiter
          have hne : ending ≠ [] := by
            rintro rfl
            rw [List.append_nil] at hending
            exact hends hending.symm
          rw [htext]
          exact splitOn_of_cut_none hdelimiter (cut?_append_part hdelimiter hcut hending hne)
      | cons first others =>
          obtain ⟨rfl, hafter⟩ := List.cons.inj hsplit
          have hgoesOn : isBlankText after = false := by
            cases hblank : isBlankText after with
            | false => rfl
            | true =>
                rw [splitOn_of_blank hdelimiter hvisible hblank] at hafter
                have hlength := congrArg List.length hafter
                simp at hlength
          rw [splitOn_trimEnd_of_cut hdelimiter hcut hgoesOn, induction hafter]
          rfl

end

end Tagmark.Text
