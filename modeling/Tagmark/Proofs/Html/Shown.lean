import Tagmark.Proofs.Markdown.Elements

/-!
Texts in what is printed. All texts of content are printed, as its void elements have no children,
and so are all texts between the tags of an element that is not void.
-/

namespace Tagmark.Html

def PrintsTexts (node : Html) : Prop :=
  ∀ text ∈ node.texts, escape text.toList <:+: node.chars

theorem chars_infix_charsOf {node : Html} {nodes : List Html} (hmem : node ∈ nodes) :
    node.chars <:+: charsOf nodes := by
  obtain ⟨before, after, rfl⟩ := List.append_of_mem hmem
  rw [charsOf_append]
  exact ⟨charsOf before, charsOf after, List.append_assoc _ _ _⟩

theorem charsOf_infix_element {name : String} (hvoid : isVoid name = false)
    (attributes : KeyMap String) (children : List Html) :
    charsOf children <:+: (element name attributes children).chars := by
  rw [chars, hvoid, if_neg Bool.false_ne_true, ← List.append_assoc]
  exact List.infix_append _ _ _

theorem exists_mem_of_textsOf {nodes : List Html} {text : String} (hmem : text ∈ textsOf nodes) :
    ∃ node ∈ nodes, text ∈ node.texts := by
  induction nodes with
  | nil => cases hmem
  | cons node rest induction =>
      rcases List.mem_append.1 hmem with hhere | hlater
      · exact ⟨node, List.mem_cons_self, hhere⟩
      · obtain ⟨later, hnode, htext⟩ := induction hlater
        exact ⟨later, List.mem_cons_of_mem node hnode, htext⟩

theorem escape_infix_charsOf {nodes : List Html} (hnodes : ∀ node ∈ nodes, node.PrintsTexts)
    {text : String} (hmem : text ∈ textsOf nodes) : escape text.toList <:+: charsOf nodes := by
  obtain ⟨node, hnode, htext⟩ := exists_mem_of_textsOf hmem
  exact (hnodes node hnode text htext).trans (chars_infix_charsOf hnode)

theorem holdsOfContent_printsTexts : HoldsOfContent PrintsTexts where
  text value text hmem := by
    cases List.mem_singleton.1 hmem
    exact List.infix_refl _
  element := by
    intro name attributes children _ hvoid _ hchildren text hmem
    rcases hvoid with hvoid | rfl
    · exact (escape_infix_charsOf hchildren hmem).trans
        (charsOf_infix_element hvoid (.ofList attributes) children)
    · cases hmem

end Tagmark.Html
