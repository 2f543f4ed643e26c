import Tagmark.Proofs.Document.Lines
import Tagmark.Proofs.Text.Trim

/-!
Code fences over several lines. What is inside a fence depends on the text of the lines and not on
their places (`Fence.Alike.after`).
-/

namespace Tagmark

namespace Fence

/-- The fence that is open after lines. -/
def after (fence : Option Fence) (lines : List Line) : Option Fence :=
  lines.foldl next fence

theorem after_append (fence : Option Fence) (front back : List Line) :
    after fence (front ++ back) = after (after fence front) back :=
  List.foldl_append

def Alike (left right : Option Fence) : Prop :=
  left.map (fun fence => (fence.mark, fence.length)) =
    right.map fun fence => (fence.mark, fence.length)

theorem Alike.isSome_eq {left right : Option Fence} (halike : Alike left right) :
    left.isSome = right.isSome := by
  have hsome := congrArg Option.isSome halike
  rwa [Option.isSome_map, Option.isSome_map] at hsome

theorem Alike.eq_none {left : Option Fence} (halike : Alike left none) : left = none :=
  Option.map_eq_none_iff.1 halike

theorem alike_ofLine? (text : List Char) (left right : Point) :
    Alike (ofLine? ⟨text, left⟩) (ofLine? ⟨text, right⟩) := by
  unfold Alike ofLine?
  dsimp only
  cases run? '`' (Text.trimEnd text) <;> cases run? '~' (Text.trimEnd text) <;> rfl

theorem Alike.next {left right : Option Fence} (halike : Alike left right) (text : List Char)
    (leftPlace rightPlace : Point) :
    Alike (next left ⟨text, leftPlace⟩) (next right ⟨text, rightPlace⟩) := by
  cases left with
  | none =>
      obtain rfl := Option.map_eq_none_iff.1 halike.symm
      exact alike_ofLine? text leftPlace rightPlace
  | some fence =>
      cases right with
      | none => cases halike
      | some other =>
          obtain ⟨hmark, hlength⟩ := Prod.mk.inj (Option.some.inj halike)
          have hclosed : fence.closedBy ⟨text, leftPlace⟩ = other.closedBy ⟨text, rightPlace⟩ := by
            unfold closedBy
            rw [hmark, hlength]
          unfold Fence.next
          dsimp only
          rw [hclosed]
          split
          · rfl
          · exact halike

theorem Alike.after {left right : Option Fence} (halike : Alike left right)
    (texts : List (List Char)) (leftPlace rightPlace : Point) :
    Alike (after left (Line.place leftPlace texts))
      (after right (Line.place rightPlace texts)) := by
  induction texts generalizing left right leftPlace rightPlace with
  | nil => exact halike
  | cons text rest induction => exact induction (halike.next text leftPlace rightPlace) _ _

theorem trimEnd_concat_newline (text : List Char) :
    Text.trimEnd (text ++ ['\n']) = Text.trimEnd text :=
  Text.trimEnd_append_of_blank rfl

theorem next_concat_newline (fence : Option Fence) (text : List Char) (point : Point) :
    next fence ⟨text ++ ['\n'], point⟩ = next fence ⟨text, point⟩ := by
  unfold next ofLine? closedBy
  dsimp only
  rw [trimEnd_concat_newline]

theorem next_none_newline (point : Point) : next none ⟨['\n'], point⟩ = none := rfl

end Fence

namespace Line

/-- Each line of `text` that starts with a tag is inside a fence that an earlier line of `text`
opened. -/
def TagsFenced (start : Point) (text : List Char) : Prop :=
  ∀ front line back, Text.splitLines text = front ++ line :: back →
    startsWithTag ⟨line, start⟩ = true → (Fence.after none (place start front)).isSome = true

/-- Whether each line that starts with a tag is inside a fence, with a fence that may be open before
the lines. -/
def tagsFencedFrom (fence : Option Fence) (point : Point) : List (List Char) → Bool
  | [] => true
  | text :: rest =>
      (fence.isSome || !startsWithTag ⟨text, point⟩) &&
        tagsFencedFrom (Fence.next fence ⟨text, point⟩) (point.advance text) rest

theorem tagsFencedFrom_iff {fence : Option Fence} {point : Point} {texts : List (List Char)} :
    tagsFencedFrom fence point texts = true ↔
      ∀ front line back, texts = front ++ line :: back → startsWithTag ⟨line, point⟩ = true →
        (Fence.after fence (place point front)).isSome = true := by
  induction texts generalizing fence point with
  | nil => simp [tagsFencedFrom]
  | cons text rest induction =>
      rw [tagsFencedFrom, Bool.and_eq_true, induction]
      constructor
      · rintro ⟨hhead, htail⟩ front line back hsplit hstart
        cases front with
        | nil =>
            obtain ⟨rfl, rfl⟩ := List.cons.inj hsplit
            have hnot : (!startsWithTag ⟨text, point⟩) = false := congrArg not hstart
            rw [hnot, Bool.or_false] at hhead
            exact hhead
        | cons first front =>
            obtain ⟨rfl, hrest⟩ := List.cons.inj hsplit
            exact htail front line back hrest hstart
      · intro hall
        refine ⟨?_, ?_⟩
        · cases hstart : startsWithTag ⟨text, point⟩ with
          | false => exact Bool.or_true _
          | true =>
              have hopen : fence.isSome = true := hall [] text rest rfl hstart
              rw [hopen]
              rfl
        · intro front line back hsplit hstart
          exact hall (text :: front) line back (by rw [hsplit]; rfl) hstart

instance (start : Point) (text : List Char) : Decidable (TagsFenced start text) :=
  decidable_of_iff (tagsFencedFrom none start (Text.splitLines text) = true) tagsFencedFrom_iff

theorem TagsFenced.of_append {start : Point} {text more : List Char}
    (hfenced : TagsFenced start (text ++ more)) : TagsFenced start text := by
  intro front line back hsplit hstart
  obtain ⟨ending, behind, hmore⟩ := Text.splitLines_append_of_split hsplit more
  exact hfenced front (line ++ ending) behind hmore (startsWithTag_append ending hstart)

theorem TagsFenced.concat_newline {start : Point} {text : List Char}
    (hfenced : TagsFenced start text) (place : Point) : TagsFenced place (text ++ ['\n']) := by
  have hplaced : ∀ front line back, Text.splitLines text = front ++ line :: back →
      startsWithTag ⟨line, place⟩ = true →
        (Fence.after none (Line.place place front)).isSome = true := by
    intro front line back hsplit hstart
    have hnone : Fence.Alike none none := rfl
    rw [(hnone.after front place start).isSome_eq]
    exact hfenced front line back hsplit hstart
  intro front line back hsplit hstart
  rcases Text.splitLines_concat_newline text with hown | ⟨before, last, htext, hends⟩
  · rw [hown] at hsplit
    rcases List.eq_nil_or_concat back with rfl | ⟨others, final, rfl⟩
    · obtain ⟨-, hline⟩ := List.append_inj' hsplit rfl
      obtain rfl := List.singleton_inj.1 hline
      cases hstart
    · rw [List.concat_eq_append, ← List.cons_append, ← List.append_assoc] at hsplit
      obtain ⟨hlines, -⟩ := List.append_inj' hsplit rfl
      exact hplaced front line others hlines hstart
  · rw [hends] at hsplit
    rcases List.eq_nil_or_concat back with rfl | ⟨others, final, rfl⟩
    · obtain ⟨rfl, hline⟩ := List.append_inj' hsplit rfl
      obtain rfl := List.singleton_inj.1 hline
      exact hplaced before last [] htext (startsWithTag_of_concat_newline hstart)
    · rw [List.concat_eq_append, ← List.cons_append, ← List.append_assoc] at hsplit
      obtain ⟨rfl, -⟩ := List.append_inj' hsplit rfl
      exact hplaced front line (others ++ [last]) (by simp [htext]) hstart

end Line

theorem Fence.after_concat_newline {start : Point} {text : List Char}
    (hclosed : after none (Line.place start (Text.splitLines text)) = none) (place : Point) :
    after none (Line.place place (Text.splitLines (text ++ ['\n']))) = none := by
  have hplaced : after none (Line.place place (Text.splitLines text)) = none := by
    have hnone : Fence.Alike none none := rfl
    have halike := hnone.after (Text.splitLines text) place start
    rw [hclosed] at halike
    exact halike.eq_none
  rcases Text.splitLines_concat_newline text with hown | ⟨before, last, htext, hends⟩
  · rw [hown, Line.place_append, after_append, hplaced]
    exact next_none_newline (place.advance (Text.splitLines text).flatten)
  · rw [htext, Line.place_append, after_append] at hplaced
    rw [hends, Line.place_append, after_append]
    exact (next_concat_newline _ _ _).trans hplaced

end Tagmark
