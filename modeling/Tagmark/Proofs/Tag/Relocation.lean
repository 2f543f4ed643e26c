import Tagmark.Proofs.Document.View
import Tagmark.Proofs.Tag.Tiling

/-!
Tags read from another place. A move of places that goes along with reading on moves the places of
all tokens and faults and changes nothing else (`segments_relocate`).
-/

namespace Tagmark

open Text (cut?)

namespace Point

/-- A move that goes along with reading on: the place after a character is moved to the place after
it from the moved place. -/
def Carries (move : Point → Point) : Prop :=
  ∀ point c, move (point.step c) = (move point).step c

/-- Down by lines and on by bytes. -/
def shift (lines bytes : Nat) (point : Point) : Point :=
  ⟨point.line + lines, point.column, point.offset + bytes⟩

theorem carries_shift (lines bytes : Nat) : Carries (shift lines bytes) := by
  intro point c
  unfold shift step
  by_cases hc : c = '\n'
  · simp only [hc, if_true, Nat.add_right_comm]
  · simp only [hc, if_false, Nat.add_right_comm]

theorem Carries.advance {move : Point → Point} (hmove : Carries move) (point : Point)
    (text : List Char) : move (point.advance text) = (move point).advance text := by
  induction text generalizing point with
  | nil => rfl
  | cons c rest induction => rw [advance_cons, advance_cons, induction, hmove]

end Point

def Fault.relocate (move : Point → Point) : Fault → Fault
  | .unterminatedTag start => .unterminatedTag (move start)
  | .invalidTag flaw place => .invalidTag flaw (move place)
  | .unclosedTag name start => .unclosedTag name (move start)
  | .unclosedFence name start => .unclosedFence name (move start)
  | .unexpectedClosing name start => .unexpectedClosing name (move start)
  | fault => fault

def PlacedToken.relocate (move : Point → Point) (placed : PlacedToken) : PlacedToken :=
  ⟨placed.token, move placed.start⟩

def TokenGroup.relocate (move : Point → Point) (group : TokenGroup) : TokenGroup :=
  ⟨group.tokens.map (PlacedToken.relocate move), group.span.relocate move⟩

def TagRest.relocate (move : Point → Point) (tag : TagRest) : TagRest :=
  ⟨tag.tokens.map (PlacedToken.relocate move), move tag.stop, tag.after⟩

def Segment.relocate (move : Point → Point) : Segment → Segment
  | .tag group => .tag (group.relocate move)
  | .text between start => .text between (move start)

def relocateResult {α β : Type} (move : Point → Point) (f : α → β) :
    Except Fault α → Except Fault β
  | .ok value => .ok (f value)
  | .error fault => .error (fault.relocate move)

section

variable {move : Point → Point} (hmove : Point.Carries move)

include hmove

theorem readTag_relocate (start point : Point) (text : List Char) :
    readTag (move start) (move point) text =
      relocateResult move (TagRest.relocate move) (readTag start point text) := by
  induction hlength : text.length using Nat.strongRecOn generalizing point text with
  | ind length induction =>
      subst hlength
      rcases text with _ | ⟨c, rest⟩
      · rw [readTag, readTag]
        rfl
      · obtain ⟨lexeme, after, hlex⟩ : ∃ lexeme after, Lexeme.lex c rest = (lexeme, after) :=
          ⟨_, _, rfl⟩
        have hshort := Lexeme.length_lex_lt c rest
        rw [hlex] at hshort
        cases htoken : lexeme.token with
        | error flaw =>
            rw [readTag_error hlex htoken, readTag_error hlex htoken]
            rfl
        | ok token =>
            have hnext := hmove.advance point lexeme.text
            cases hcloses : lexeme.closes with
            | true =>
                rw [readTag_close hlex htoken hcloses, readTag_close hlex htoken hcloses, ← hnext]
                rfl
            | false =>
                rw [readTag_cons hlex htoken hcloses, readTag_cons hlex htoken hcloses, ← hnext,
                  induction after.length hshort _ after rfl]
                cases readTag start (point.advance lexeme.text) after <;> rfl

omit hmove in
theorem Segment.relocate_ofText (start : Point) (text : List Char) :
    (Segment.ofText start text).map (Segment.relocate move) = Segment.ofText (move start) text := by
  unfold Segment.ofText
  split <;> rfl

theorem segments_relocate (start : Point) (text : List Char) :
    segments (move start) text =
      relocateResult move (List.map (Segment.relocate move)) (segments start text) := by
  induction hlength : text.length using Nat.strongRecOn generalizing start text with
  | ind length induction =>
      subst hlength
      cases hcut : cut? ['{', '%'] text with
      | none =>
          rw [segments_of_cut_none start hcut, segments_of_cut_none (move start) hcut,
            ← Segment.relocate_ofText]
          rfl
      | some pair =>
          obtain ⟨before, after⟩ := pair
          have hread := readTag_relocate hmove (start.advance before)
            ((start.advance before).advance ['{', '%']) after
          rw [hmove.advance, hmove.advance, hmove.advance] at hread
          cases htag : readTag (start.advance before)
              ((start.advance before).advance ['{', '%']) after with
          | error fault =>
              rw [htag] at hread
              rw [segments_of_fault hcut htag, segments_of_fault hcut hread]
              rfl
          | ok tag =>
              rw [htag] at hread
              have hshort := Text.length_lt_of_cut? (List.cons_ne_nil _ _) hcut
              have hlength := length_after_le htag
              have hrest := induction tag.after.length (by omega) tag.stop tag.after rfl
              rw [segments_of_cut hcut htag, segments_of_cut hcut hread, ← Segment.relocate_ofText,
                ← hmove.advance]
              change (segments (move tag.stop) tag.after).map _ = _
              rw [hrest]
              cases segments tag.stop tag.after with
              | error fault => rfl
              | ok rest =>
                  refine congrArg Except.ok ?_
                  dsimp only
                  rw [List.map_append]
                  rfl

end

section

variable (move : Point → Point)

theorem View.faultBy_ofPlaces (fault : Fault) :
    (View.ofPlaces move).faultBy id fault = fault.relocate move := by
  cases fault <;> rfl

theorem View.resultBy_ofPlaces {α β : Type} (f : α → β) (result : Except Fault α) :
    (View.ofPlaces move).resultBy id f result = relocateResult move f result := by
  cases result with
  | ok value => rfl
  | error fault => exact congrArg Except.error (View.faultBy_ofPlaces move fault)

theorem View.judge_id (fault : Fault) : View.judge id fault = fault := by
  cases fault <;> rfl

theorem View.header_ofPlaces (header : Header) : (View.ofPlaces move).header header = header := by
  cases header with
  | closing name => rfl
  | opening name attributes selfClosing =>
      exact congrArg (Header.opening name · selfClosing) (View.attributes_ofPlaces move attributes)

theorem View.placed_ofPlaces (placed : PlacedToken) :
    (View.ofPlaces move).placed placed = placed.relocate move :=
  congrArg (PlacedToken.mk · (move placed.start)) (View.token_ofPlaces move placed.token)

theorem TokenGroup.significant_relocate (group : TokenGroup) :
    (group.relocate move).significant = group.significant.map (PlacedToken.relocate move) :=
  List.filter_map

theorem TokenGroup.header_relocate (group : TokenGroup) :
    (group.relocate move).header = relocateResult move id group.header := by
  have hplaced : (View.ofPlaces move).placed = PlacedToken.relocate move :=
    funext (View.placed_ofPlaces move)
  have hheader : (View.ofPlaces move).header = id := funext (View.header_ofPlaces move)
  have hgroup := (View.ofPlaces move).header_group (View.overlooks_ofPlaces move) group
  rw [View.resultBy_ofPlaces, hheader, hplaced, ← significant_relocate] at hgroup
  rw [hgroup]
  change (group.relocate move).header = (group.relocate move).header.mapError (View.judge id)
  cases (group.relocate move).header with
  | ok header => rfl
  | error fault => exact congrArg Except.error (View.judge_id fault).symm

end

end Tagmark
