/-!
Searching text for a pattern and cutting it there. `cut?_eq_some` says that a cut loses nothing.
-/

namespace Tagmark.Text

/-- The text before the first occurrence of `pattern` and the text after it. -/
def cut? (pattern : List Char) : List Char → Option (List Char × List Char)
  | [] => if pattern = [] then some ([], []) else none
  | c :: rest =>
      match pattern.isPrefixOf? (c :: rest) with
      | some after => some ([], after)
      | none => (cut? pattern rest).map fun (before, after) => (c :: before, after)

def contains (pattern text : List Char) : Bool :=
  (cut? pattern text).isSome

/-- The text from the last occurrence of `pattern` on. -/
def lastFrom? (pattern : List Char) : List Char → Option (List Char)
  | [] => none
  | c :: rest =>
      match lastFrom? pattern rest with
      | some found => some found
      | none => if pattern.isPrefixOf (c :: rest) then some (c :: rest) else none

theorem isPrefixOf?_nil (text : List Char) : [].isPrefixOf? text = some text := by
  cases text <;> rfl

theorem isPrefixOf?_cons (head c : Char) (tail text : List Char) :
    (head :: tail).isPrefixOf? (c :: text) =
      if head == c then tail.isPrefixOf? text else none := rfl

theorem isPrefixOf?_eq_some {pattern text rest : List Char} :
    pattern.isPrefixOf? text = some rest ↔ text = pattern ++ rest := by
  induction pattern generalizing text with
  | nil => simp [isPrefixOf?_nil]
  | cons head tail induction =>
      cases text with
      | nil =>
          have hnone : (head :: tail).isPrefixOf? [] = none := rfl
          simp [hnone]
      | cons c text =>
          rw [isPrefixOf?_cons]
          by_cases hhead : head = c
          · subst hhead
            simp [induction]
          · have hne : ¬ c = head := fun h => hhead h.symm
            simp [hhead, hne]

theorem cut?_eq_some {pattern text before after : List Char}
    (hcut : cut? pattern text = some (before, after)) :
    text = before ++ pattern ++ after := by
  induction text generalizing before after with
  | nil =>
      by_cases hpattern : pattern = []
      · simp [cut?, hpattern] at hcut
        simp [hcut, hpattern]
      · simp [cut?, hpattern] at hcut
  | cons c rest induction =>
      unfold cut? at hcut
      split at hcut
      · next after' hprefix =>
          cases hcut
          simpa using isPrefixOf?_eq_some.1 hprefix
      · obtain ⟨⟨before', after'⟩, hrest, heq⟩ := Option.map_eq_some_iff.1 hcut
        cases heq
        simp [induction hrest]

theorem length_lt_of_cut? {pattern text before after : List Char} (hpattern : pattern ≠ [])
    (hcut : cut? pattern text = some (before, after)) : after.length < text.length := by
  have hlength := congrArg List.length (cut?_eq_some hcut)
  have hpos : 0 < pattern.length := List.length_pos_iff.2 hpattern
  simp at hlength
  omega

def pieces (delimiter : List Char) (hdelimiter : delimiter ≠ []) (text : List Char) :
    List (List Char) :=
  match _hcut : cut? delimiter text with
  | none => [text]
  | some (before, after) => before :: pieces delimiter hdelimiter after
termination_by text.length
decreasing_by exact length_lt_of_cut? hdelimiter _hcut

/-- The pieces of `text` between the occurrences of `delimiter`, from left to right. The empty
delimiter stands before, between and after all characters. -/
def splitOn (delimiter text : List Char) : List (List Char) :=
  if hdelimiter : delimiter = [] then
    [] :: text.map (fun c => [c]) ++ [[]]
  else
    pieces delimiter hdelimiter text

def splitLines : List Char → List (List Char)
  | [] => []
  | c :: rest =>
      if c = '\n' then [c] :: splitLines rest
      else
        match splitLines rest with
        | [] => [[c]]
        | line :: lines => (c :: line) :: lines

@[simp] theorem flatten_splitLines (text : List Char) : (splitLines text).flatten = text := by
  induction text with
  | nil => rfl
  | cons c rest induction =>
      unfold splitLines
      split
      · simp [induction]
      · split
        · next hrest =>
            rw [hrest] at induction
            simpa using induction
        · next line lines hrest =>
            rw [hrest] at induction
            simpa using induction

def dropLast (c : Char) (text : List Char) : List Char :=
  if text.getLast? = some c then text.dropLast else text

/-- Takes off one newline and then one carriage return, each if it is there. -/
def dropLineEnd (text : List Char) : List Char :=
  dropLast '\r' (dropLast '\n' text)

def lines (text : List Char) : List (List Char) :=
  (splitLines text).map dropLineEnd

end Tagmark.Text
