import Tagmark.Markdown.ToHtml
import Tagmark.Proofs.Html.Names
import Tagmark.Proofs.Tag.Print

/-!
The elements of content. Whatever tree Markdown is read as, its HTML is made of a fixed set of
elements, of which the void ones have no children: names, texts and addresses in the tree become text
and values. What holds of such elements and of texts holds of all content
(`Tree.forall_mem_toHtml`).
-/

namespace Tagmark

namespace Html

def isHeadingName (name : String) : Bool :=
  match name.toList with
  | 'h' :: depth => depth != [] && depth.all Char.isDigit
  | _ => false

/-- The elements that are made without a definition of their own. -/
def isBuiltinElement (name : String) : Bool :=
  ["article", "pre", "code", "div", "table", "thead", "tbody", "tr", "th", "td", "p", "em",
    "strong", "del", "blockquote", "ul", "ol", "li", "input", "a", "img", "br", "hr"].contains
      name || isHeadingName name

abbrev MadeOfBuiltin (node : Html) : Prop :=
  node.MadeOf isBuiltinElement Text.isName

abbrev AllMadeOfBuiltin (nodes : List Html) : Prop :=
  AllMadeOf isBuiltinElement Text.isName nodes

theorem isHeadingName_heading (depth : Nat) : isHeadingName ("h" ++ toString depth) = true := by
  have hlist : ("h" ++ toString depth).toList = 'h' :: Nat.toDigits 10 depth := by
    rw [String.toList_append, Nat.toString_eq_repr, Nat.repr, String.toList_ofList]
    simp
  have hdigits : (Nat.toDigits 10 depth).all Char.isDigit = true :=
    List.all_eq_true.2 fun c => Nat.isDigit_of_mem_toDigits (by decide) (by decide)
  have hsome : Nat.toDigits 10 depth ≠ [] := Nat.toDigits_ne_nil
  unfold isHeadingName
  rw [hlist]
  simp [hdigits, hsome]

theorem not_isVoid_of_isHeadingName {name : String} (hname : isHeadingName name = true) :
    isVoid name = false := by
  have hvoids : ∀ void ∈ ["br", "hr", "img", "input", "link", "meta"],
      isHeadingName void = false := by decide
  rw [Bool.eq_false_iff]
  intro hvoid
  rw [hvoids name (List.contains_iff_mem.1 hvoid)] at hname
  cases hname

/-- What holds of every text, and of each of these elements if it holds of its children, where a
void element has none. -/
structure HoldsOfContent (P : Html → Prop) : Prop where
  text : ∀ value, P (.text value)
  element : ∀ {name : String} {attributes : List (String × String)} {children : List Html},
    isBuiltinElement name = true → isVoid name = false ∨ children = [] →
      (∀ entry ∈ attributes, Text.isName entry.1 = true) → (∀ child ∈ children, P child) →
        P (make name attributes children)

theorem holdsOfContent_madeOfBuiltin : HoldsOfContent MadeOfBuiltin where
  text := fun _ => trivial
  element := fun hname _ hattributes hchildren =>
    madeOf_make hname hattributes (allMadeOf_of_forall hchildren)

theorem isBuiltinElement_heading (depth : Nat) :
    isBuiltinElement ("h" ++ toString depth) = true :=
  Bool.or_eq_true_iff.2 (.inr (isHeadingName_heading depth))

end Html

namespace Markdown

open Html

theorem Alignment.isName_attributes (alignment : Alignment) :
    ∀ entry ∈ alignment.attributes, Text.isName entry.1 = true := by
  cases alignment <;> decide

namespace Tree

theorem isName_titleAttribute (title : Option String) :
    ∀ entry ∈ titleAttribute title, Text.isName entry.1 = true := by
  have htitle : Text.isName "title" = true := by decide
  cases title with
  | none => simp [titleAttribute]
  | some title => simpa [titleAttribute] using htitle

section

variable {P : Html → Prop}

theorem holds_checkbox (hP : HoldsOfContent P) (checked : Bool) : P (checkbox checked) := by
  cases checked <;> exact hP.element (by decide) (.inr rfl) (by decide) (by simp)

theorem holds_codeBlock (hP : HoldsOfContent P) (language : Option String) (value : String) :
    P (codeBlock language value) := by
  have hclass : Text.isName "class" = true := by decide
  have htext : ∀ child ∈ [Html.text value], P child :=
    List.forall_mem_singleton.2 (hP.text value)
  refine hP.element (by decide) (.inl (by decide)) (by simp) (List.forall_mem_singleton.2 ?_)
  refine hP.element (by decide) (.inl (by decide)) ?_ htext
  cases language with
  | none => simp
  | some language => simpa using hclass

theorem holds_listElement (hP : HoldsOfContent P) (start : Option Nat) {items : List Html}
    (hitems : ∀ node ∈ items, P node) : P (listElement start items) := by
  have hstart : Text.isName "start" = true := by decide
  unfold listElement
  split
  · exact hP.element (by decide) (.inl (by decide)) (by simp) hitems
  · exact hP.element (by decide) (.inl (by decide)) (by simp) hitems
  · exact hP.element (by decide) (.inl (by decide)) (by simpa using hstart) hitems

theorem holds_tableElement (hP : HoldsOfContent P) {rows : List Html}
    (hrows : ∀ node ∈ rows, P node) : P (tableElement rows) := by
  have hhead : ∀ head : Html, P head → P (make "thead" [] [head]) := fun head hhead =>
    hP.element (by decide) (.inl (by decide)) (by simp) (List.forall_mem_singleton.2 hhead)
  unfold tableElement
  split
  · exact hP.element (by decide) (.inr rfl) (by simp) hrows
  · next head =>
      have hchildren := List.forall_mem_singleton.2 (hhead head (hrows head List.mem_cons_self))
      exact hP.element (by decide) (.inl (by decide)) (by simp) hchildren
  · next head body _ =>
      obtain ⟨hfirst, hbody⟩ := List.forall_mem_cons.1 hrows
      have hrest : P (make "tbody" [] body) :=
        hP.element (by decide) (.inl (by decide)) (by simp) hbody
      exact hP.element (by decide) (.inl (by decide)) (by simp)
        (List.forall_mem_cons.2 ⟨hhead head hfirst, List.forall_mem_singleton.2 hrest⟩)

mutual

theorem forall_mem_toHtml (hP : HoldsOfContent P) (tight : Bool) (tree : Tree) :
    ∀ node ∈ tree.toHtml tight, P node := by
  have helement : ∀ {name : String} {attributes : List (String × String)} {children : List Html},
      isBuiltinElement name = true → isVoid name = false ∨ children = [] →
        (∀ entry ∈ attributes, Text.isName entry.1 = true) → (∀ child ∈ children, P child) →
          ∀ node ∈ [make name attributes children], P node :=
    fun hname hvoid hattributes hchildren =>
      List.forall_mem_singleton.2 (hP.element hname hvoid hattributes hchildren)
  have htext : ∀ value, ∀ node ∈ [Html.text value], P node := fun value =>
    List.forall_mem_singleton.2 (hP.text value)
  cases tree with
  | paragraph children =>
      have hchildren := forall_mem_allToHtml hP false children
      cases tight with
      | true => exact hchildren
      | false => exact helement (by decide) (.inl (by decide)) (by simp) hchildren
  | heading depth children =>
      have hvoid := not_isVoid_of_isHeadingName (isHeadingName_heading depth)
      exact helement (isBuiltinElement_heading depth) (.inl hvoid) (by simp)
        (forall_mem_allToHtml hP false children)
  | emphasis children | strong children | delete children | quote children =>
      exact helement (by decide) (.inl (by decide)) (by simp)
        (forall_mem_allToHtml hP false children)
  | inlineCode value => exact helement (by decide) (.inl (by decide)) (by simp) (htext value)
  | code language value => exact List.forall_mem_singleton.2 (holds_codeBlock hP language value)
  | list start spread items =>
      exact List.forall_mem_singleton.2
        (holds_listElement hP start (forall_mem_itemsToHtml hP (!spread) items))
  | link url title children =>
      have hhref : Text.isName "href" = true := by decide
      exact helement (by decide) (.inl (by decide))
        (List.forall_mem_cons.2 ⟨hhref, isName_titleAttribute title⟩)
        (forall_mem_allToHtml hP false children)
  | image url alt title =>
      have hnames : Text.isName "src" = true ∧ Text.isName "alt" = true := by decide
      exact helement (by decide) (.inr rfl)
        (List.forall_mem_cons.2
          ⟨hnames.1, List.forall_mem_cons.2 ⟨hnames.2, isName_titleAttribute title⟩⟩) (by simp)
  | lineBreak | rule => exact helement (by decide) (.inr rfl) (by simp) (by simp)
  | table alignment rows =>
      have hcells : isBuiltinElement "th" = true ∧ isVoid "th" = false := by decide
      exact List.forall_mem_singleton.2
        (holds_tableElement hP (forall_mem_rowsToHtml hP hcells alignment rows))
  | item _ _ children | row children | cell children | reference children | footnote children =>
      exact forall_mem_allToHtml hP tight children
  | text value | html value | leaf value => exact htext value
  | definition => exact fun node hmem => absurd hmem List.not_mem_nil

theorem forall_mem_allToHtml (hP : HoldsOfContent P) (tight : Bool) (trees : List Tree) :
    ∀ node ∈ allToHtml tight trees, P node := by
  cases trees with
  | nil => exact fun node hmem => absurd hmem List.not_mem_nil
  | cons tree rest =>
      exact List.forall_mem_append.2
        ⟨forall_mem_toHtml hP tight tree, forall_mem_allToHtml hP tight rest⟩

theorem forall_mem_itemsToHtml (hP : HoldsOfContent P) (tight : Bool) (items : List Tree) :
    ∀ node ∈ itemsToHtml tight items, P node := by
  cases items with
  | nil => exact fun node hmem => absurd hmem List.not_mem_nil
  | cons tree rest =>
      have hrest := forall_mem_itemsToHtml hP tight rest
      cases tree with
      | item checked spread children =>
          have hbox : ∀ node ∈ checked.toList.map checkbox, P node := by
            intro node hmem
            obtain ⟨checked, -, rfl⟩ := List.mem_map.1 hmem
            exact holds_checkbox hP checked
          have hinner := List.forall_mem_append.2 ⟨hbox, forall_mem_allToHtml hP tight children⟩
          exact List.forall_mem_cons.2
            ⟨hP.element (by decide) (.inl (by decide)) (by simp) hinner, hrest⟩
      | _ => exact List.forall_mem_append.2 ⟨forall_mem_toHtml hP tight _, hrest⟩

theorem forall_mem_rowsToHtml (hP : HoldsOfContent P) {cellName : String}
    (hcell : isBuiltinElement cellName = true ∧ isVoid cellName = false)
    (alignment : List Alignment) (rows : List Tree) :
    ∀ node ∈ rowsToHtml cellName alignment rows, P node := by
  have hrow : ∀ cells : List Html, (∀ node ∈ cells, P node) → P (make "tr" [] cells) :=
    fun cells hcells => hP.element (by decide) (.inl (by decide)) (by simp) hcells
  cases rows with
  | nil => exact fun node hmem => absurd hmem List.not_mem_nil
  | cons tree rest =>
      have hcells : isBuiltinElement "td" = true ∧ isVoid "td" = false := by decide
      have hrest := forall_mem_rowsToHtml hP hcells alignment rest
      cases tree with
      | row cells =>
          exact List.forall_mem_cons.2
            ⟨hrow _ (forall_mem_cellsToHtml hP hcell alignment cells), hrest⟩
      | _ => exact List.forall_mem_cons.2 ⟨hrow [] (by simp), hrest⟩

theorem forall_mem_cellsToHtml (hP : HoldsOfContent P) {cellName : String}
    (hcell : isBuiltinElement cellName = true ∧ isVoid cellName = false)
    (alignment : List Alignment) (cells : List Tree) :
    ∀ node ∈ cellsToHtml cellName alignment cells, P node := by
  have halign := (alignment.headD .unset).isName_attributes
  cases cells with
  | nil => exact fun node hmem => absurd hmem List.not_mem_nil
  | cons tree rest =>
      have hrest := forall_mem_cellsToHtml hP hcell alignment.tail rest
      cases tree with
      | cell children =>
          exact List.forall_mem_cons.2
            ⟨hP.element hcell.1 (.inl hcell.2) halign (forall_mem_allToHtml hP false children),
              hrest⟩
      | _ => exact List.forall_mem_cons.2 ⟨hP.element hcell.1 (.inr rfl) halign (by simp), hrest⟩

end

end

end Tree

end Markdown

end Tagmark
