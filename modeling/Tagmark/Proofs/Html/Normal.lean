import Tagmark.Html.Print

/-!
Normal forms of HTML: no empty text, no two texts side by side, and nothing in a void element. A
tree and its normal form are printed alike (`chars_normal`).
-/

namespace Tagmark.Html

/-- Puts a node before nodes. A text is joined to a text after it, and left out if it is empty. -/
def joinText : Html → List Html → List Html
  | .text value, .text next :: rest => .text (value ++ next) :: rest
  | .text value, nodes => if value = "" then nodes else .text value :: nodes
  | node, nodes => node :: nodes

mutual

/-- The tree without children of void elements and without empty texts, adjacent texts joined. -/
def normal : Html → Html
  | .text value => .text value
  | .element name attributes children =>
      .element name attributes (if isVoid name then [] else normalAll children)

def normalAll : List Html → List Html
  | [] => []
  | node :: rest => joinText node.normal (normalAll rest)

end

mutual

def tidy : Html → Html
  | .text value => .text value
  | .element name attributes children => .element name attributes (tidyAll children)

def tidyAll : List Html → List Html
  | [] => []
  | node :: rest => joinText node.tidy (tidyAll rest)

end

mutual

def decideEq : (left right : Html) → Decidable (left = right)
  | .text value, .text other => decidable_of_iff (value = other) (by simp)
  | .element name attributes children, .element name' attributes' children' =>
      have := decideEqAll children children'
      decidable_of_iff (name = name' ∧ attributes = attributes' ∧ children = children') (by simp)
  | .text _, .element _ _ _ => .isFalse nofun
  | .element _ _ _, .text _ => .isFalse nofun

def decideEqAll : (left right : List Html) → Decidable (left = right)
  | [], [] => .isTrue rfl
  | node :: rest, node' :: rest' =>
      have := decideEq node node'
      have := decideEqAll rest rest'
      decidable_of_iff (node = node' ∧ rest = rest') (by simp)
  | [], _ :: _ => .isFalse nofun
  | _ :: _, [] => .isFalse nofun

end

instance : DecidableEq Html := decideEq

mutual

def IsNormal : Html → Prop
  | .text _ => True
  | .element name _ children => (isVoid name = true → children = []) ∧ AllNormal children

def AllNormal : List Html → Prop
  | [] => True
  | node :: rest =>
      node.IsNormal ∧
        (∀ value, node = .text value → value ≠ "" ∧ ∀ next after, rest ≠ .text next :: after) ∧
          AllNormal rest

end

theorem escape_append (left right : List Char) :
    escape (left ++ right) = escape left ++ escape right :=
  List.flatMap_append

theorem charsOf_joinText (node : Html) (nodes : List Html) :
    charsOf (joinText node nodes) = node.chars ++ charsOf nodes := by
  have halone : ∀ (value : String) (others : List Html),
      charsOf (if value = "" then others else .text value :: others) =
        escape value.toList ++ charsOf others := by
    intro value others
    split
    · next hempty =>
        subst hempty
        rfl
    · rfl
  cases node with
  | element name attributes children => rfl
  | text value =>
      rcases nodes with _ | ⟨first, rest⟩
      · exact halone value []
      · cases first with
        | text next => simp [joinText, charsOf, chars, escape_append]
        | element name attributes children => exact halone value _

mutual

theorem chars_normal (node : Html) : node.normal.chars = node.chars := by
  cases node with
  | text value => rfl
  | element name attributes children =>
      have hchildren := charsOf_normalAll children
      cases hvoid : isVoid name with
      | true => simp [normal, chars, hvoid]
      | false => simp [normal, chars, hvoid, hchildren]

theorem charsOf_normalAll (nodes : List Html) : charsOf (normalAll nodes) = charsOf nodes := by
  cases nodes with
  | nil => rfl
  | cons node rest =>
      rw [normalAll, charsOf_joinText, chars_normal node, charsOf_normalAll rest]
      rfl

end

theorem allNormal_joinText {node : Html} (hnode : node.IsNormal) {nodes : List Html}
    (hnodes : AllNormal nodes) : AllNormal (joinText node nodes) := by
  have halone : ∀ value : String, (∀ next after, nodes ≠ .text next :: after) →
      AllNormal (if value = "" then nodes else .text value :: nodes) := by
    intro value hapart
    split
    · exact hnodes
    · next hempty =>
        refine ⟨trivial, fun other heq => ?_, hnodes⟩
        cases heq
        exact ⟨hempty, hapart⟩
  cases node with
  | element name attributes children => exact ⟨hnode, by simp, hnodes⟩
  | text value =>
      rcases nodes with _ | ⟨first, rest⟩
      · exact halone value (by simp)
      · cases first with
        | text next =>
            obtain ⟨-, hfirst, hrest⟩ := hnodes
            obtain ⟨hnext, hapart⟩ := hfirst next rfl
            refine ⟨trivial, fun other heq => ?_, hrest⟩
            cases heq
            exact ⟨by simp [hnext], hapart⟩
        | element name attributes children => exact halone value (by simp)

mutual

theorem isNormal_normal (node : Html) : node.normal.IsNormal := by
  cases node with
  | text value => trivial
  | element name attributes children =>
      have hchildren := allNormal_normalAll children
      cases hvoid : isVoid name with
      | true => simp [normal, IsNormal, AllNormal, hvoid]
      | false => simp [normal, IsNormal, hvoid, hchildren]

theorem allNormal_normalAll (nodes : List Html) : AllNormal (normalAll nodes) := by
  cases nodes with
  | nil => trivial
  | cons node rest => exact allNormal_joinText (isNormal_normal node) (allNormal_normalAll rest)

end

end Tagmark.Html
