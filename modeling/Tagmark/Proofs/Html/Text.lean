import Tagmark.Html.Tree

/-! The text of HTML trees. -/

namespace Tagmark

namespace Html

def textContentOf (nodes : List Html) : String :=
  String.join (nodes.map textContent)

theorem join_textsOf (nodes : List Html) : String.join (textsOf nodes) = textContentOf nodes := by
  induction nodes with
  | nil => rfl
  | cons node rest induction =>
      rw [textsOf, String.join_append, induction, textContentOf, textContentOf, List.map_cons,
        String.join_cons]
      rfl

theorem textContentOf_append (left right : List Html) :
    textContentOf (left ++ right) = textContentOf left ++ textContentOf right := by
  rw [textContentOf, List.map_append, String.join_append]
  rfl

theorem textContentOf_cons (node : Html) (rest : List Html) :
    textContentOf (node :: rest) = node.textContent ++ textContentOf rest :=
  String.join_cons

@[simp] theorem textContentOf_nil : textContentOf [] = "" := rfl

@[simp] theorem textContentOf_singleton (node : Html) : textContentOf [node] = node.textContent := by
  simp [textContentOf_cons]

@[simp] theorem textContent_text (value : String) : (text value).textContent = value := by
  simp [textContent, texts, String.join_cons]

@[simp] theorem textContent_make (name : String) (attributes : List (String × String))
    (children : List Html) : (make name attributes children).textContent = textContentOf children :=
  join_textsOf children

end Html

end Tagmark
