import Tagmark.Proofs.Document.Fenced
import Tagmark.Proofs.Text.TrimmedPieces

/-!
Which code fence is open after lines, by a rule for what opens and what closes one. Lines are
settled, or one of them after settled ones opens a fence that no later line closes
(`Fence.after_rule`).
-/

namespace Tagmark

namespace Text

theorem exists_run (c : Char) (text : List Char) :
    ∃ length rest, text = List.replicate length c ++ rest ∧ rest.head? ≠ some c := by
  induction text with
  | nil => exact ⟨0, [], rfl, by simp⟩
  | cons first text induction =>
      by_cases hfirst : first = c
      · obtain ⟨length, rest, rfl, hrest⟩ := induction
        exact ⟨length + 1, rest, by rw [hfirst]; rfl, hrest⟩
      · exact ⟨0, first :: text, rfl, by simpa using hfirst⟩

variable {c : Char} {rest : List Char} (hrest : rest.head? ≠ some c) (length : Nat)

include hrest

theorem takeWhile_run :
    (List.replicate length c ++ rest).takeWhile (· == c) = List.replicate length c := by
  rw [List.takeWhile_append_of_pos (by simp)]
  cases rest with
  | nil => simp
  | cons first rest => simp [show ¬ first = c by simpa using hrest]

theorem dropWhile_run : (List.replicate length c ++ rest).dropWhile (· == c) = rest := by
  rw [List.dropWhile_append_of_pos (by simp)]
  cases rest with
  | nil => rfl
  | cons first rest => simp [show ¬ first = c by simpa using hrest]

end Text

namespace Fence

def IsMark (mark : Char) : Prop :=
  mark = '`' ∨ mark = '~'

theorem IsMark.not_blank {mark : Char} (hmark : IsMark mark) : Text.isBlank mark = false := by
  rcases hmark with rfl | rfl <;> decide

end Fence

/-- The line, without the white space at its end, is at most three spaces and then a run of three or
more marks. After backticks there is no other backtick. -/
def Line.Opens (line : Line) (mark : Char) (length : Nat) : Prop :=
  Fence.IsMark mark ∧ 3 ≤ length ∧ ∃ indent rest, indent ≤ 3 ∧
    Text.trimEnd line.text = List.replicate indent ' ' ++ (List.replicate length mark ++ rest) ∧
    rest.head? ≠ some mark ∧ (mark = '`' → '`' ∉ rest)

/-- The line is at most three spaces, then at least `length` marks, and then white space only. -/
def Line.Closes (line : Line) (mark : Char) (length : Nat) : Prop :=
  ∃ indent run blank, indent ≤ 3 ∧ length ≤ run ∧ Text.isBlankText blank = true ∧
    line.text = List.replicate indent ' ' ++ (List.replicate run mark ++ blank)

namespace Fence

theorem unindent?_run {rest : List Char} (hrest : rest.head? ≠ some ' ') (indent : Nat) :
    unindent? (List.replicate indent ' ' ++ rest) = if indent ≤ 3 then some rest else none := by
  unfold unindent?
  rw [Text.takeWhile_run hrest, Text.dropWhile_run hrest, List.length_replicate]

theorem run?_run {mark : Char} {length : Nat} {rest : List Char}
    (hunindented : (List.replicate length mark ++ rest).head? ≠ some ' ')
    (hrest : rest.head? ≠ some mark) (indent : Nat) :
    run? mark (List.replicate indent ' ' ++ (List.replicate length mark ++ rest)) =
      if indent ≤ 3 ∧ 3 ≤ length ∧ (mark = '`' → '`' ∉ rest) then some length else none := by
  have hdrop : (List.replicate length mark ++ rest).drop length = rest :=
    List.drop_left' List.length_replicate
  have hrefused : (decide (length < 3) || (mark == '`' && rest.contains '`')) = true ↔
      ¬ (3 ≤ length ∧ (mark = '`' → '`' ∉ rest)) := by
    by_cases hshort : length < 3
    · simp [hshort, Nat.not_le.2 hshort]
    · simp [hshort, Nat.not_lt.1 hshort]
  unfold run?
  rw [unindent?_run hunindented]
  by_cases hindent : indent ≤ 3
  · rw [if_pos hindent, Option.bind_eq_bind, Option.bind_some, Text.takeWhile_run hrest,
      List.length_replicate]
    dsimp only
    rw [hdrop]
    by_cases hopens : 3 ≤ length ∧ (mark = '`' → '`' ∉ rest)
    · rw [if_neg (mt hrefused.1 (not_not_intro hopens)), if_pos ⟨hindent, hopens⟩]
    · rw [if_pos (hrefused.2 hopens), if_neg (mt And.right hopens)]
  · rw [if_neg hindent, if_neg (mt And.left hindent)]
    rfl

theorem IsMark.head_run {mark : Char} (hmark : IsMark mark) {length : Nat} (hlength : 0 < length)
    (rest : List Char) : (List.replicate length mark ++ rest).head? ≠ some ' ' := by
  obtain ⟨more, rfl⟩ := Nat.exists_eq_add_of_lt hlength
  rcases hmark with rfl | rfl <;> simp [List.replicate_succ]

theorem run?_eq_some_iff {mark : Char} (hmark : IsMark mark) {text : List Char} {length : Nat} :
    run? mark text = some length ↔ 3 ≤ length ∧ ∃ indent rest, indent ≤ 3 ∧
      text = List.replicate indent ' ' ++ (List.replicate length mark ++ rest) ∧
      rest.head? ≠ some mark ∧ (mark = '`' → '`' ∉ rest) := by
  constructor
  · intro hrun
    obtain ⟨indent, unindented, rfl, hunindented⟩ := Text.exists_run ' ' text
    obtain ⟨run, rest, rfl, hrest⟩ := Text.exists_run mark unindented
    rw [run?_run hunindented hrest] at hrun
    split at hrun
    · next hopens =>
        cases hrun
        exact ⟨hopens.2.1, indent, rest, hopens.1, rfl, hrest, hopens.2.2⟩
    · cases hrun
  · rintro ⟨hlength, indent, rest, hindent, rfl, hrest, hinfo⟩
    rw [run?_run (hmark.head_run (by omega) rest) hrest, if_pos ⟨hindent, hlength, hinfo⟩]

theorem opens_iff_run? {line : Line} {mark : Char} (hmark : IsMark mark) {length : Nat} :
    line.Opens mark length ↔ run? mark (Text.trimEnd line.text) = some length := by
  rw [run?_eq_some_iff hmark]
  exact and_iff_right hmark

theorem run?_eq_none_of_opens {line : Line} {length : Nat} (hopens : line.Opens '~' length) :
    run? '`' (Text.trimEnd line.text) = none := by
  obtain ⟨htilde, hlength, indent, rest, -, htext, -, -⟩ := hopens
  cases hrun : run? '`' (Text.trimEnd line.text) with
  | none => rfl
  | some other =>
      obtain ⟨hother, indent', rest', -, htext', -, -⟩ := (run?_eq_some_iff (.inl rfl)).1 hrun
      have hsame := congrArg (List.dropWhile (· == ' ')) (htext.symm.trans htext')
      rw [Text.dropWhile_run (htilde.head_run (by omega) rest),
        Text.dropWhile_run (IsMark.head_run (.inl rfl) (by omega) rest')] at hsame
      obtain ⟨more, rfl⟩ := Nat.exists_eq_add_of_le' hlength
      obtain ⟨more', rfl⟩ := Nat.exists_eq_add_of_le' hother
      exact absurd (List.cons.inj hsame).1 (by decide)

theorem ofLine?_eq_some_iff {line : Line} {fence : Fence} :
    ofLine? line = some fence ↔
      line.Opens fence.mark fence.length ∧ fence.start = line.start := by
  unfold ofLine?
  rw [Option.or_eq_some_iff, Option.map_eq_some_iff, Option.map_eq_none_iff, Option.map_eq_some_iff]
  constructor
  · rintro (⟨length, hrun, rfl⟩ | ⟨-, length, hrun, rfl⟩)
    · exact ⟨(opens_iff_run? (.inl rfl)).2 hrun, rfl⟩
    · exact ⟨(opens_iff_run? (.inr rfl)).2 hrun, rfl⟩
  · obtain ⟨mark, length, start⟩ := fence
    rintro ⟨hopens, rfl⟩
    obtain rfl | rfl := hopens.1
    · exact .inl ⟨length, (opens_iff_run? (.inl rfl)).1 hopens, rfl⟩
    · exact .inr ⟨run?_eq_none_of_opens hopens, length,
        (opens_iff_run? (.inr rfl)).1 hopens, rfl⟩

theorem ofLine?_eq_none_iff {line : Line} :
    ofLine? line = none ↔ ∀ mark length, ¬ line.Opens mark length := by
  constructor
  · intro hnone mark length hopens
    have hsome : ofLine? line = some ⟨mark, length, line.start⟩ :=
      ofLine?_eq_some_iff.2 ⟨hopens, rfl⟩
    cases hnone.symm.trans hsome
  · intro hplain
    cases hsome : ofLine? line with
    | none => rfl
    | some fence => exact absurd (ofLine?_eq_some_iff.1 hsome).1 (hplain _ _)

theorem closedBy_run {fence : Fence} {line : Line} {indent run : Nat} {rest : List Char}
    (htrimmed : Text.trimEnd line.text =
      List.replicate indent ' ' ++ (List.replicate run fence.mark ++ rest))
    (hunindented : (List.replicate run fence.mark ++ rest).head? ≠ some ' ')
    (hrest : rest.head? ≠ some fence.mark) :
    fence.closedBy line = true ↔
      indent ≤ 3 ∧ fence.length ≤ run ∧ Text.isBlankText rest = true := by
  unfold closedBy
  rw [htrimmed, unindent?_run hunindented]
  by_cases hindent : indent ≤ 3
  · rw [if_pos hindent]
    dsimp only
    rw [Text.takeWhile_run hrest, Text.dropWhile_run hrest, List.length_replicate,
      Bool.and_eq_true, decide_eq_true_eq]
    exact (and_iff_right hindent).symm
  · rw [if_neg hindent]
    exact ⟨nofun, fun hcloses => absurd hcloses.1 hindent⟩

theorem IsMark.trimEnd_run {mark : Char} (hmark : IsMark mark) {length : Nat} (hlength : 0 < length)
    (front : List Char) {blank : List Char} (hblank : Text.isBlankText blank = true) :
    Text.trimEnd (front ++ (List.replicate length mark ++ blank)) =
      front ++ List.replicate length mark := by
  have hrun : Text.isBlankText (List.replicate length mark) = false := by
    obtain ⟨more, rfl⟩ := Nat.exists_eq_add_of_lt hlength
    simp [Text.isBlankText, hmark.not_blank]
  rw [← List.append_assoc, Text.trimEnd_append_of_blank hblank,
    Text.trimEnd_append_of_not_blank hrun]
  simp [Text.trimEnd, hmark.not_blank]

theorem closedBy_iff {fence : Fence} (hmark : IsMark fence.mark) (hlength : 0 < fence.length)
    {line : Line} : fence.closedBy line = true ↔ line.Closes fence.mark fence.length := by
  constructor
  · intro hclosed
    obtain ⟨ending, htext, hending⟩ := Text.exists_trimEnd_append line.text
    obtain ⟨indent, unindented, htrimmed, hunindented⟩ :=
      Text.exists_run ' ' (Text.trimEnd line.text)
    obtain ⟨run, rest, rfl, hrest⟩ := Text.exists_run fence.mark unindented
    obtain ⟨hindent, hrun, hblank⟩ := (closedBy_run htrimmed hunindented hrest).1 hclosed
    refine ⟨indent, run, rest ++ ending, hindent, hrun,
      Text.isBlankText_append.2 ⟨hblank, hending⟩, ?_⟩
    rw [htext, htrimmed, List.append_assoc, List.append_assoc]
  · rintro ⟨indent, run, blank, hindent, hrun, hblank, htext⟩
    have hpositive : 0 < run := Nat.lt_of_lt_of_le hlength hrun
    have htrimmed : Text.trimEnd line.text =
        List.replicate indent ' ' ++ (List.replicate run fence.mark ++ []) := by
      rw [htext, hmark.trimEnd_run hpositive _ hblank, List.append_nil]
    have hnothing : ([] : List Char).head? ≠ some fence.mark := nofun
    exact (closedBy_run htrimmed (hmark.head_run hpositive []) hnothing).2 ⟨hindent, hrun, rfl⟩

end Fence

namespace Fence

section Opened

variable {line : Line} {mark : Char} {length : Nat} (hopens : line.Opens mark length)

include hopens

theorem next_none_of_opens : next none line = some ⟨mark, length, line.start⟩ :=
  ofLine?_eq_some_iff.2 ⟨hopens, rfl⟩

theorem next_of_opened (start : Point) (other : Line) :
    (other.Closes mark length → next (some ⟨mark, length, start⟩) other = none) ∧
      (¬ other.Closes mark length →
        next (some ⟨mark, length, start⟩) other = some ⟨mark, length, start⟩) := by
  obtain ⟨hmark, hlength, -⟩ := hopens
  have hpositive : 0 < length := Nat.lt_of_lt_of_le (by decide) hlength
  have hcloses := @closedBy_iff ⟨mark, length, start⟩ hmark hpositive other
  exact ⟨fun h => if_pos (hcloses.2 h), fun h => if_neg (mt hcloses.1 h)⟩

theorem after_of_opened (start : Point) {later : List Line}
    (hlater : ∀ other ∈ later, ¬ other.Closes mark length) :
    after (some ⟨mark, length, start⟩) later = some ⟨mark, length, start⟩ := by
  induction later with
  | nil => rfl
  | cons other later induction =>
      obtain ⟨hother, hlater⟩ := List.forall_mem_cons.1 hlater
      rw [after, List.foldl_cons, (next_of_opened hopens start other).2 hother]
      exact induction hlater

end Opened

/-- Lines after which no fence is open: each one that opens a fence has a line after it that closes
the fence, and what stands between them neither opens nor closes any. -/
inductive Settled : List Line → Prop
  | nil : Settled []
  | plain {line : Line} {rest : List Line} (hplain : ∀ mark length, ¬ line.Opens mark length)
      (hrest : Settled rest) : Settled (line :: rest)
  | fenced {line closing : Line} {inside rest : List Line} {mark : Char} {length : Nat}
      (hopens : line.Opens mark length) (hinside : ∀ other ∈ inside, ¬ other.Closes mark length)
      (hcloses : closing.Closes mark length) (hrest : Settled rest) :
      Settled (line :: (inside ++ closing :: rest))

theorem Settled.after_eq_none {lines : List Line} (hsettled : Settled lines) :
    after none lines = none := by
  induction hsettled with
  | nil => rfl
  | plain hplain _ induction =>
      rw [after, List.foldl_cons, show next none _ = none from ofLine?_eq_none_iff.2 hplain]
      exact induction
  | @fenced line closing inside rest mark length hopens hinside hcloses _ induction =>
      have hclosed := (next_of_opened hopens line.start closing).1 hcloses
      rw [after, List.foldl_cons, next_none_of_opens hopens, ← after, after_append,
        after_of_opened hopens line.start hinside, after, List.foldl_cons, hclosed]
      exact induction

theorem Settled.after_append_of_opens {before later : List Line} {line : Line} {mark : Char}
    {length : Nat} (hbefore : Settled before) (hopens : line.Opens mark length)
    (hlater : ∀ other ∈ later, ¬ other.Closes mark length) :
    after none (before ++ line :: later) = some ⟨mark, length, line.start⟩ := by
  rw [after_append, hbefore.after_eq_none, after, List.foldl_cons, next_none_of_opens hopens]
  exact after_of_opened hopens line.start hlater

theorem forall_not_closes_or_exists_first (mark : Char) (length : Nat) (lines : List Line) :
    (∀ other ∈ lines, ¬ other.Closes mark length) ∨
      ∃ inside closing rest, lines = inside ++ closing :: rest ∧
        (∀ other ∈ inside, ¬ other.Closes mark length) ∧ closing.Closes mark length := by
  induction lines with
  | nil => exact .inl nofun
  | cons line lines induction =>
      by_cases hcloses : line.Closes mark length
      · exact .inr ⟨[], line, lines, rfl, nofun, hcloses⟩
      · rcases induction with hnone | ⟨inside, closing, rest, rfl, hinside, hclosing⟩
        · exact .inl (List.forall_mem_cons.2 ⟨hcloses, hnone⟩)
        · exact .inr ⟨line :: inside, closing, rest, rfl,
            List.forall_mem_cons.2 ⟨hcloses, hinside⟩, hclosing⟩

theorem settled_or_opens (lines : List Line) :
    Settled lines ∨ ∃ before line later mark length, lines = before ++ line :: later ∧
      Settled before ∧ line.Opens mark length ∧ ∀ other ∈ later, ¬ other.Closes mark length := by
  induction hcount : lines.length using Nat.strongRecOn generalizing lines with
  | ind count induction =>
      subst hcount
      cases lines with
      | nil => exact .inl .nil
      | cons line lines =>
          by_cases hopens : ∃ mark length, line.Opens mark length
          · obtain ⟨mark, length, hopens⟩ := hopens
            rcases forall_not_closes_or_exists_first mark length lines with
              hlater | ⟨inside, closing, rest, rfl, hinside, hcloses⟩
            · exact .inr ⟨[], line, lines, mark, length, rfl, .nil, hopens, hlater⟩
            · rcases induction rest.length (by simp; omega) rest rfl with
                hrest | ⟨before, other, later, mark', length', rfl, hbefore, hother, hlater⟩
              · exact .inl (.fenced hopens hinside hcloses hrest)
              · exact .inr ⟨line :: (inside ++ closing :: before), other, later, mark', length',
                  by simp, .fenced hopens hinside hcloses hbefore, hother, hlater⟩
          · have hplain : ∀ mark length, ¬ line.Opens mark length := fun mark length h =>
              hopens ⟨mark, length, h⟩
            rcases induction lines.length (by simp) lines rfl with
              hrest | ⟨before, other, later, mark, length, rfl, hbefore, hother, hlater⟩
            · exact .inl (.plain hplain hrest)
            · exact .inr ⟨line :: before, other, later, mark, length, rfl,
                .plain hplain hbefore, hother, hlater⟩

/-- No fence is open after lines exactly when they are settled, and one is exactly when a line after
settled ones opened it where that line starts and no later line closes it. -/
theorem after_rule (lines : List Line) :
    (after none lines = none ↔ Settled lines) ∧
      ∀ fence, after none lines = some fence ↔ ∃ before line later,
        lines = before ++ line :: later ∧ Settled before ∧
          line.Opens fence.mark fence.length ∧ fence.start = line.start ∧
          ∀ other ∈ later, ¬ other.Closes fence.mark fence.length := by
  constructor
  · constructor
    · intro hnone
      rcases settled_or_opens lines with
        hsettled | ⟨before, line, later, mark, length, rfl, hbefore, hopens, hlater⟩
      · exact hsettled
      · cases hnone.symm.trans (hbefore.after_append_of_opens hopens hlater)
    · exact Settled.after_eq_none
  · intro fence
    constructor
    · intro hsome
      rcases settled_or_opens lines with
        hsettled | ⟨before, line, later, mark, length, rfl, hbefore, hopens, hlater⟩
      · cases hsettled.after_eq_none.symm.trans hsome
      · cases (hbefore.after_append_of_opens hopens hlater).symm.trans hsome
        exact ⟨before, line, later, rfl, hbefore, hopens, rfl, hlater⟩
    · obtain ⟨mark, length, start⟩ := fence
      rintro ⟨before, line, later, rfl, hbefore, hopens, rfl, hlater⟩
      exact hbefore.after_append_of_opens hopens hlater

end Fence

end Tagmark
