import Tagmark.Markdown.ToHtml
import Tagmark.Proofs.Html.Text

/-!
The text of content. Its HTML says what the tree of its Markdown says, each text once and in order,
whatever stands around the texts (`Tree.toHtml_keeps_text`).
-/

namespace Tagmark

namespace Markdown.Tree

open Html

def isRow : Tree → Bool
  | .row _ => true
  | _ => false

def isCell : Tree → Bool
  | .cell _ => true
  | _ => false

mutual

/-- The children of all tables are rows, and those of all rows are cells. -/
def isTabular : Tree → Bool
  | .table _ rows => rows.all isRow && allTabular rows
  | .row cells => cells.all isCell && allTabular cells
  | .paragraph children | .heading _ children | .emphasis children | .strong children
  | .delete children | .quote children | .list _ _ children | .item _ _ children
  | .link _ _ children | .cell children | .reference children | .footnote children =>
      allTabular children
  | .text _ | .inlineCode _ | .code _ _ | .image _ _ _ | .lineBreak | .rule | .html _
  | .definition | .leaf _ => true

def allTabular : List Tree → Bool
  | [] => true
  | node :: rest => node.isTabular && allTabular rest

end

theorem textContent_checkbox (checked : Bool) : (checkbox checked).textContent = "" :=
  textContent_make _ _ _

theorem textContent_codeBlock (language : Option String) (value : String) :
    (codeBlock language value).textContent = value := by
  simp [codeBlock]

theorem textContent_listElement (start : Option Nat) (items : List Html) :
    (listElement start items).textContent = textContentOf items := by
  unfold listElement
  split <;> exact textContent_make _ _ _

theorem textContent_tableElement (rows : List Html) :
    (tableElement rows).textContent = textContentOf rows := by
  unfold tableElement
  split
  · exact textContent_make _ _ _
  · simp
  · simp [textContentOf_cons]

mutual

theorem textContentOf_toHtml (tight : Bool) {tree : Tree} (htabular : tree.isTabular = true) :
    textContentOf (tree.toHtml tight) = tree.plainText := by
  cases tree with
  | paragraph children =>
      have hchildren := textContentOf_allToHtml false htabular
      cases tight with
      | true => exact hchildren
      | false => simpa [toHtml, plainText] using hchildren
  | heading depth children | emphasis children | strong children | delete children
  | quote children | link url title children =>
      simpa [toHtml, plainText] using textContentOf_allToHtml false htabular
  | list start spread items =>
      rw [toHtml, textContentOf_singleton, textContent_listElement]
      exact textContentOf_itemsToHtml (!spread) htabular
  | table alignment rows =>
      obtain ⟨hrows, htabular⟩ := Bool.and_eq_true_iff.1 htabular
      rw [toHtml, textContentOf_singleton, textContent_tableElement]
      exact textContentOf_rowsToHtml "th" alignment (List.all_eq_true.1 hrows) htabular
  | row cells =>
      exact textContentOf_allToHtml tight (Bool.and_eq_true_iff.1 htabular).2
  | item _ _ children | cell children | reference children | footnote children =>
      exact textContentOf_allToHtml tight htabular
  | code language value => simp [toHtml, textContent_codeBlock, plainText]
  | text value | inlineCode value | html value | leaf value =>
      simp [toHtml, labelled, plainText]
  | image | lineBreak | rule | definition => simp [toHtml, plainText]

theorem textContentOf_allToHtml (tight : Bool) {nodes : List Tree}
    (htabular : allTabular nodes = true) :
    textContentOf (allToHtml tight nodes) = plainTextOf nodes := by
  cases nodes with
  | nil => rfl
  | cons node rest =>
      obtain ⟨hnode, hrest⟩ := Bool.and_eq_true_iff.1 htabular
      rw [allToHtml, textContentOf_append, textContentOf_toHtml tight hnode,
        textContentOf_allToHtml tight hrest]
      rfl

theorem textContentOf_itemsToHtml (tight : Bool) {items : List Tree}
    (htabular : allTabular items = true) :
    textContentOf (itemsToHtml tight items) = plainTextOf items := by
  cases items with
  | nil => rfl
  | cons node rest =>
      obtain ⟨hnode, hrest⟩ := Bool.and_eq_true_iff.1 htabular
      have hothers := textContentOf_itemsToHtml tight hrest
      cases node with
      | item checked spread children =>
          have hbox : textContentOf (checked.toList.map checkbox) = "" := by
            cases checked with
            | none => rfl
            | some checked => simp [textContent_checkbox]
          rw [itemsToHtml, textContentOf_cons, textContent_make, textContentOf_append, hbox,
            String.empty_append, textContentOf_allToHtml tight hnode, hothers]
          rfl
      | _ =>
          rw [itemsToHtml, textContentOf_append, textContentOf_toHtml tight hnode, hothers]
          · rfl
          · exact fun _ _ _ heq => by cases heq

theorem textContentOf_rowsToHtml (cellName : String) (alignment : List Alignment)
    {rows : List Tree} (hrows : ∀ row ∈ rows, row.isRow = true) (htabular : allTabular rows = true) :
    textContentOf (rowsToHtml cellName alignment rows) = plainTextOf rows := by
  cases rows with
  | nil => rfl
  | cons node rest =>
      obtain ⟨hnode, hrest⟩ := Bool.and_eq_true_iff.1 htabular
      obtain ⟨hrow, hothers⟩ := List.forall_mem_cons.1 hrows
      cases node with
      | row cells =>
          obtain ⟨hcells, hnode⟩ := Bool.and_eq_true_iff.1 hnode
          rw [rowsToHtml, textContentOf_cons, textContent_make,
            textContentOf_cellsToHtml cellName alignment (List.all_eq_true.1 hcells) hnode,
            textContentOf_rowsToHtml "td" alignment hothers hrest]
          rfl
      | _ => cases hrow

theorem textContentOf_cellsToHtml (cellName : String) (alignment : List Alignment)
    {cells : List Tree} (hcells : ∀ cell ∈ cells, cell.isCell = true) (htabular : allTabular cells = true) :
    textContentOf (cellsToHtml cellName alignment cells) = plainTextOf cells := by
  cases cells with
  | nil => rfl
  | cons node rest =>
      obtain ⟨hnode, hrest⟩ := Bool.and_eq_true_iff.1 htabular
      obtain ⟨hcell, hothers⟩ := List.forall_mem_cons.1 hcells
      cases node with
      | cell children =>
          rw [cellsToHtml, textContentOf_cons, textContent_make,
            textContentOf_allToHtml false hnode,
            textContentOf_cellsToHtml cellName alignment.tail hothers hrest]
          rfl
      | _ => cases hcell

end

/-- The HTML of a node has the text of the node, and that of all nodes of a text their texts: none is
lost, repeated or put elsewhere. -/
theorem toHtml_keeps_text (tight : Bool) :
    (∀ tree : Tree, tree.isTabular = true →
      String.join ((tree.toHtml tight).map textContent) = tree.plainText) ∧
    ∀ nodes : List Tree, allTabular nodes = true →
      String.join ((allToHtml tight nodes).map textContent) = plainTextOf nodes :=
  ⟨fun _ htabular => textContentOf_toHtml tight htabular,
    fun _ htabular => textContentOf_allToHtml tight htabular⟩

theorem toHtml_keeps_text_nested :
    let task := item (some true) true
      [paragraph [text "a", lineBreak, link "/b" (some "c") [strong [text "d"]]],
        list (some 3) false [item none false [paragraph [html "<e>"]], text "f"]]
    let cells := [cell [image "/g" "h" none, inlineCode "i"], cell [text "j"]]
    let note := footnote [code (some "k") "l", reference [leaf "m"], definition, cell [text "n"]]
    let nodes := [list none true [task], table [.left] [row cells, row [], row cells], rule, note]
    allTabular nodes = true ∧
      String.join ((allToHtml true nodes).map textContent) = "ad<e>fijijlmn" := by
  intro task cells note nodes
  have htabular : allTabular nodes = true := by decide
  exact ⟨htabular, ((toHtml_keeps_text true).2 nodes htabular).trans (by decide)⟩

end Markdown.Tree

end Tagmark
