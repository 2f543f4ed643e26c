import Tagmark.Point

/-!
Texts cut at offsets that count bytes. Where the offset is that of a part of the text, the cut gives
this part back (`slice_byteSize`).
-/

namespace Tagmark

namespace Text

/-- The length of a text in bytes of UTF-8. -/
def byteSize : List Char → Nat
  | [] => 0
  | c :: rest => c.utf8Size + byteSize rest

def firstBytes : Nat → List Char → List Char
  | _, [] => []
  | count, c :: rest =>
      if c.utf8Size ≤ count then c :: firstBytes (count - c.utf8Size) rest else []

def afterBytes : Nat → List Char → List Char
  | _, [] => []
  | count, c :: rest =>
      if c.utf8Size ≤ count then afterBytes (count - c.utf8Size) rest else c :: rest

def slice (text : List Char) (first last : Nat) : List Char :=
  firstBytes (last - first) (afterBytes first text)

theorem firstBytes_zero (text : List Char) : firstBytes 0 text = [] := by
  cases text with
  | nil => rfl
  | cons c rest =>
      have hsize := c.utf8Size_pos
      rw [firstBytes, if_neg (by omega)]

theorem afterBytes_zero (text : List Char) : afterBytes 0 text = text := by
  cases text with
  | nil => rfl
  | cons c rest =>
      have hsize := c.utf8Size_pos
      rw [afterBytes, if_neg (by omega)]

theorem byteSize_append (left right : List Char) :
    byteSize (left ++ right) = byteSize left + byteSize right := by
  induction left with
  | nil => simp [byteSize]
  | cons c rest induction => rw [List.cons_append, byteSize, byteSize, induction, Nat.add_assoc]

theorem byteSize_pos {text : List Char} (htext : text ≠ []) : 0 < byteSize text := by
  cases text with
  | nil => exact absurd rfl htext
  | cons c rest => exact Nat.lt_of_lt_of_le c.utf8Size_pos (Nat.le_add_right _ _)

theorem firstBytes_byteSize (before after : List Char) :
    firstBytes (byteSize before) (before ++ after) = before := by
  induction before with
  | nil => exact firstBytes_zero after
  | cons c rest induction =>
      rw [byteSize, List.cons_append, firstBytes, if_pos (Nat.le_add_right _ _),
        Nat.add_sub_cancel_left, induction]

theorem afterBytes_byteSize (before after : List Char) :
    afterBytes (byteSize before) (before ++ after) = after := by
  induction before with
  | nil => exact afterBytes_zero after
  | cons c rest induction =>
      rw [byteSize, List.cons_append, afterBytes, if_pos (Nat.le_add_right _ _),
        Nat.add_sub_cancel_left, induction]

theorem slice_byteSize (before source after : List Char) :
    slice (before ++ (source ++ after)) (byteSize before) (byteSize (before ++ source)) =
      source := by
  unfold slice
  rw [afterBytes_byteSize, byteSize_append, Nat.add_sub_cancel_left, firstBytes_byteSize]

end Text

theorem Point.offset_advance (point : Point) (text : List Char) :
    (point.advance text).offset = point.offset + Text.byteSize text := by
  induction text generalizing point with
  | nil => rfl
  | cons c rest induction =>
      have hstep : (point.step c).offset = point.offset + c.utf8Size := by
        unfold Point.step
        split <;> rfl
      rw [advance_cons, induction, hstep, Text.byteSize, Nat.add_assoc]

theorem Point.line_advance (point : Point) (text : List Char) :
    (point.advance text).line = point.line + text.count '\n' := by
  induction text generalizing point with
  | nil => rfl
  | cons c rest induction =>
      rw [advance_cons, induction, List.count_cons, step]
      by_cases hc : c = '\n'
      · simp [hc, Nat.add_right_comm, Nat.add_assoc]
      · simp [hc]

theorem Point.offset_origin_advance (text : List Char) :
    (Point.origin.advance text).offset = Text.byteSize text := by
  rw [offset_advance]
  exact Nat.zero_add _

theorem Point.append_inj {point : Point} {left left' right right' : List Char}
    (hplace : point.advance left = point.advance left')
    (heq : left ++ right = left' ++ right') : left = left' ∧ right = right' := by
  have hoffset := congrArg Point.offset hplace
  rw [offset_advance, offset_advance] at hoffset
  have hbytes := Text.firstBytes_byteSize left right
  rw [heq, Nat.add_left_cancel hoffset, Text.firstBytes_byteSize] at hbytes
  subst hbytes
  exact ⟨rfl, List.append_cancel_left heq⟩

end Tagmark
