import Mathlib.Data.List.Basic
import Tagmark.Html.Print
import Tagmark.Markdown.Read
import Tagmark.Markdown.ToHtml

/-!
Tightness of lists. The paragraphs of a list are to be unwrapped if it is tight, that is if no blank
line stands between its items or between the blocks of an item. Only the blank lines between the items
are looked at, which shows exactly where one of the other kind meets a paragraph
(`Tree.toHtml_list_eq_iff`).
-/

namespace Tagmark.Markdown.Tree

open Html

def isParagraph : Tree → Bool
  | .paragraph _ => true
  | _ => false

def isSpreadItem : Tree → Bool
  | .item _ spread _ => spread
  | _ => false

/-- What stands in an item. -/
def blocks : Tree → List Tree
  | .item _ _ blocks => blocks
  | _ => []

/-- No blank line stands between items or between the blocks of an item. -/
def isTight (spread : Bool) (items : List Tree) : Bool :=
  !spread && !items.any isSpreadItem

/-- A block of an item. A paragraph is unwrapped in a tight list, and an element of its own in any
other; all other blocks stand as they are. -/
def blockToHtml (spread tight : Bool) : Tree → List Html
  | .paragraph children =>
      if tight then allToHtml false children else [.make "p" [] (allToHtml false children)]
  | block => block.toHtml (!spread)

/-- An item of a list. What is no item stands as it is. -/
def itemToHtml (spread tight : Bool) : Tree → List Html
  | .item checked _ blocks =>
      [.make "li" [] (checked.toList.map checkbox ++ blocks.flatMap (blockToHtml spread tight))]
  | node => node.toHtml (!spread)

theorem allToHtml_eq_flatMap (spread : Bool) (blocks : List Tree) :
    allToHtml (!spread) blocks = blocks.flatMap (blockToHtml spread (!spread)) := by
  induction blocks with
  | nil => rfl
  | cons block rest induction =>
      have hblock : block.toHtml (!spread) = blockToHtml spread (!spread) block := by
        cases block <;> rfl
      rw [allToHtml, hblock, induction, List.flatMap_cons]

theorem itemsToHtml_eq_flatMap (spread : Bool) (items : List Tree) :
    itemsToHtml (!spread) items = items.flatMap (itemToHtml spread (!spread)) := by
  induction items with
  | nil => rfl
  | cons node rest induction =>
      cases node with
      | item checked _ blocks =>
          rw [itemsToHtml, allToHtml_eq_flatMap, induction]
          rfl
      | _ =>
          rw [itemsToHtml, induction]
          · rfl
          · exact fun _ _ _ heq => by cases heq

theorem listElement_inj {start : Option Nat} {left right : List Html} :
    listElement start left = listElement start right ↔ left = right := by
  refine ⟨fun heq => ?_, congrArg _⟩
  unfold listElement at heq
  split at heq <;> exact (Html.element.inj heq).2.2

theorem length_blockToHtml (spread : Bool) (block : Tree) :
    (charsOf (blockToHtml spread false block)).length =
      (charsOf (blockToHtml spread true block)).length + if block.isParagraph then 7 else 0 := by
  cases block with
  | paragraph children =>
      have hopening : (printOpening "p" (.ofList [])).length = 3 := by decide
      have hclosing : (printClosing "p").length = 4 := by decide
      have hvoid : isVoid "p" = false := by decide
      simp only [blockToHtml, isParagraph, charsOf, chars, make, hvoid, if_true, if_false,
        Bool.false_eq_true, List.append_nil, List.length_append, hopening, hclosing]
      omega
  | _ => exact (Nat.add_zero _).symm

theorem length_flatMap_blockToHtml (spread : Bool) (blocks : List Tree) :
    (charsOf (blocks.flatMap (blockToHtml spread false))).length =
      (charsOf (blocks.flatMap (blockToHtml spread true))).length +
        7 * blocks.countP isParagraph := by
  induction blocks with
  | nil => rfl
  | cons block rest induction =>
      rw [List.flatMap_cons, List.flatMap_cons, charsOf_append, charsOf_append, List.length_append,
        List.length_append, length_blockToHtml, induction, List.countP_cons]
      split <;> omega

theorem length_flatMap_itemToHtml (spread : Bool) (items : List Tree) :
    (charsOf (items.flatMap (itemToHtml spread false))).length =
      (charsOf (items.flatMap (itemToHtml spread true))).length +
        7 * (items.flatMap blocks).countP isParagraph := by
  have hitem : ∀ node : Tree, (charsOf (itemToHtml spread false node)).length =
      (charsOf (itemToHtml spread true node)).length + 7 * node.blocks.countP isParagraph := by
    intro node
    cases node with
    | item checked _ blocks =>
        have hvoid : isVoid "li" = false := by decide
        have hblocks := length_flatMap_blockToHtml spread blocks
        simp only [itemToHtml, Tree.blocks, make, charsOf, chars, hvoid, Bool.false_eq_true,
          if_false, charsOf_append, List.append_nil, List.length_append, hblocks]
        omega
    | _ => exact (Nat.add_zero _).symm
  induction items with
  | nil => rfl
  | cons node rest induction =>
      rw [List.flatMap_cons, List.flatMap_cons, List.flatMap_cons, charsOf_append, charsOf_append,
        List.length_append, List.length_append, List.countP_append, hitem, induction]
      omega

theorem flatMap_itemToHtml_eq_iff {spread : Bool} {items : List Tree} :
    items.flatMap (itemToHtml spread true) = items.flatMap (itemToHtml spread false) ↔
      ∀ item ∈ items, ∀ block ∈ item.blocks, block.isParagraph = false := by
  constructor
  · intro heq item hitem block hblock
    have hlength := length_flatMap_itemToHtml spread items
    rw [heq] at hlength
    have hnone : (items.flatMap blocks).countP isParagraph = 0 := by omega
    have hmem : block ∈ items.flatMap blocks := List.mem_flatMap.2 ⟨item, hitem, hblock⟩
    exact Bool.eq_false_iff.2 (List.countP_eq_zero.1 hnone block hmem)
  · intro hplain
    have hblock : ∀ block : Tree, block.isParagraph = false →
        blockToHtml spread true block = blockToHtml spread false block := by
      intro block hparagraph
      cases block with
      | paragraph children => cases hparagraph
      | _ => rfl
    refine List.flatMap_congr fun item hitem => ?_
    cases item with
    | item checked _ blocks =>
        have hblocks : blocks.flatMap (blockToHtml spread true) =
            blocks.flatMap (blockToHtml spread false) :=
          List.flatMap_congr fun block hmem => hblock block (hplain _ hitem block hmem)
        rw [itemToHtml, itemToHtml, hblocks]
    | _ => rfl

/-- A list is shown by its tightness exactly if it is spread itself, or none of its items is, or no
paragraph stands in an item. -/
theorem toHtml_list_eq_iff (tight : Bool) (start : Option Nat) (spread : Bool) (items : List Tree) :
    (Tree.list start spread items).toHtml tight =
        [listElement start (items.flatMap (itemToHtml spread (isTight spread items)))] ↔
      spread = true ∨ (∀ item ∈ items, item.isSpreadItem = false) ∨
        ∀ item ∈ items, ∀ block ∈ item.blocks, block.isParagraph = false := by
  rw [toHtml, itemsToHtml_eq_flatMap, List.singleton_inj, listElement_inj]
  cases spread with
  | true => exact iff_of_true rfl (.inl rfl)
  | false =>
      rw [isTight, Bool.not_false, Bool.true_and]
      cases hany : items.any isSpreadItem with
      | false =>
          refine iff_of_true rfl (.inr (.inl fun item hmem => ?_))
          exact Bool.eq_false_iff.2 (List.any_eq_false.1 hany item hmem)
      | true =>
          obtain ⟨item, hmem, hspread⟩ := List.any_eq_true.1 hany
          rw [Bool.not_true, flatMap_itemToHtml_eq_iff]
          refine ⟨fun hplain => .inr (.inr hplain), ?_⟩
          rintro (hfalse | hnone | hplain)
          · cases hfalse
          · cases (hnone item hmem).symm.trans hspread
          · exact hplain

/-- Two paragraphs of an item with a blank line between them run together: the list is not tight, but
the HTML is not that of such a list. -/
theorem toHtml_spread_item :
    let items := [item none true [paragraph [text "a"], paragraph [text "b"]]]
    let loose := [listElement none (items.flatMap (itemToHtml false (isTight false items)))]
    isTight false items = false ∧ (Tree.list none false items).toHtml false ≠ loose ∧
      printAll loose = "<ul><li><p>a</p><p>b</p></li></ul>" ∧
      printAll ((Tree.list none false items).toHtml false) = "<ul><li>ab</li></ul>" ∧
      printAll (allToHtml false (Markdown.read "- a\n\n  b")) = "<ul><li>ab</li></ul>" := by
  intro items loose
  have hloose : printAll loose = "<ul><li><p>a</p><p>b</p></li></ul>" := by decide
  have hprint : printAll ((Tree.list none false items).toHtml false) = "<ul><li>ab</li></ul>" := by
    decide
  have hread : printAll (allToHtml false (Markdown.read "- a\n\n  b")) = "<ul><li>ab</li></ul>" := by
    decide +kernel
  refine ⟨rfl, fun heq => ?_, hloose, hprint, hread⟩
  rw [heq, hloose] at hprint
  exact absurd hprint (by decide)

end Tagmark.Markdown.Tree
