/-!
Blank characters, by the Unicode property `White_Space`, and the trimming of text by them.
`trim_eq_nil_iff` says that trimming leaves nothing exactly when the text is blank.
-/

namespace Tagmark.Text

/-- The characters with the Unicode property `White_Space`. -/
def isBlank (c : Char) : Bool :=
  let n := c.toNat
  (9 ≤ n && n ≤ 13) || n == 0x20 || n == 0x85 || n == 0xA0 || n == 0x1680 ||
    (0x2000 ≤ n && n ≤ 0x200A) || n == 0x2028 || n == 0x2029 || n == 0x202F ||
    n == 0x205F || n == 0x3000

def isBlankText (text : List Char) : Bool :=
  text.all isBlank

def trimStart (text : List Char) : List Char :=
  text.dropWhile isBlank

def trimEnd (text : List Char) : List Char :=
  (text.reverse.dropWhile isBlank).reverse

def trim (text : List Char) : List Char :=
  trimEnd (trimStart text)

def trimMatches (p : Char → Bool) (text : List Char) : List Char :=
  ((text.dropWhile p).reverse.dropWhile p).reverse

theorem dropWhile_eq_nil_iff_all {p : Char → Bool} {text : List Char} :
    text.dropWhile p = [] ↔ text.all p = true := by
  induction text with
  | nil => simp
  | cons head tail induction =>
      cases hhead : p head with
      | true => simp [List.dropWhile, hhead, induction]
      | false => simp [List.dropWhile, hhead]

theorem trimStart_eq_nil_iff {text : List Char} :
    trimStart text = [] ↔ isBlankText text = true :=
  dropWhile_eq_nil_iff_all

theorem trimEnd_eq_nil_iff {text : List Char} :
    trimEnd text = [] ↔ isBlankText text = true := by
  unfold trimEnd isBlankText
  rw [List.reverse_eq_nil_iff, dropWhile_eq_nil_iff_all, List.all_reverse]

theorem trim_eq_nil_iff {text : List Char} :
    trim text = [] ↔ isBlankText text = true := by
  unfold trim
  rw [trimEnd_eq_nil_iff]
  constructor
  · intro hrest
    rw [← trimStart_eq_nil_iff]
    induction text with
    | nil => rfl
    | cons head tail induction =>
        cases hhead : isBlank head with
        | true =>
            simp only [trimStart, List.dropWhile, hhead] at hrest ⊢
            exact induction hrest
        | false => simp [trimStart, List.dropWhile, isBlankText, hhead] at hrest
  · intro hblank
    rw [trimStart_eq_nil_iff.2 hblank]
    rfl

end Tagmark.Text
