import Tagmark.Proofs.Html.Names
import Tagmark.Proofs.Tag.Print

/-!
The grammar of markup. A tree is printed as markup with the names of its own elements, whatever its
texts and the values of its attributes say (`MadeOf.markup`).
-/

namespace Tagmark.Html

def isPlain (c : Char) : Bool :=
  !(['<', '>', '"'].contains c)

/-- Attributes in a tag, each with its name, an equals sign and its value in quotes. -/
inductive AttributesText : List Char → Prop
  | nil : AttributesText []
  | cons {name : String} {value rest : List Char} (hname : Text.isName name = true)
      (hvalue : ∀ c ∈ value, isPlain c = true) (hrest : AttributesText rest) :
      AttributesText (' ' :: (name.toList ++ '=' :: '"' :: (value ++ '"' :: rest)))

/-- Plain text and elements. What stands between the tags of an element is markup again, and only a
void element has no closing tag. -/
inductive Markup (isElement : String → Bool) : List Char → Prop
  | nil : Markup isElement []
  | plain {c : Char} {rest : List Char} (hplain : isPlain c = true)
      (hrest : Markup isElement rest) : Markup isElement (c :: rest)
  | void {name : String} {attributes rest : List Char} (hname : isElement name = true)
      (hvoid : isVoid name = true) (hattributes : AttributesText attributes)
      (hrest : Markup isElement rest) :
      Markup isElement ('<' :: (name.toList ++ (attributes ++ '>' :: rest)))
  | element {name : String} {attributes inner rest : List Char} (hname : isElement name = true)
      (hvoid : isVoid name = false) (hattributes : AttributesText attributes)
      (hinner : Markup isElement inner) (hrest : Markup isElement rest) :
      Markup isElement ('<' :: (name.toList ++ (attributes ++ '>' ::
        (inner ++ '<' :: '/' :: (name.toList ++ '>' :: rest)))))

theorem isPlain_of_mem_escapeChar {c d : Char} (hmem : d ∈ escapeChar c) : isPlain d = true := by
  unfold escapeChar at hmem
  split at hmem
  case h_6 hless hgreater hquote _ =>
    obtain rfl := List.mem_singleton.1 hmem
    simp [isPlain]
    exact ⟨hless, hgreater, hquote⟩
  case h_1 | h_2 | h_3 | h_4 | h_5 => exact List.all_eq_true.1 (by decide +kernel) d hmem

theorem isPlain_of_mem_escape {text : List Char} {d : Char} (hmem : d ∈ escape text) :
    isPlain d = true := by
  obtain ⟨c, -, hc⟩ := List.mem_flatMap.1 hmem
  exact isPlain_of_mem_escapeChar hc

theorem attributesText_printAttribute {entries : List (String × String)}
    (hentries : ∀ entry ∈ entries, Text.isName entry.1 = true) :
    AttributesText (entries.flatMap printAttribute) := by
  induction entries with
  | nil => exact .nil
  | cons entry rest induction =>
      obtain ⟨hentry, hrest⟩ := List.forall_mem_cons.1 hentries
      have hvalue : ∀ d ∈ escape entry.2.toList, isPlain d = true := fun d => isPlain_of_mem_escape
      have hfirst := AttributesText.cons hentry hvalue (induction hrest)
      rw [List.flatMap_cons]
      simpa [printAttribute] using hfirst

variable {isElement : String → Bool}

namespace Markup

theorem escape {rest : List Char} (hrest : Markup isElement rest) (text : List Char) :
    Markup isElement (Html.escape text ++ rest) := by
  have hplain : ∀ d ∈ Html.escape text, isPlain d = true := fun d => isPlain_of_mem_escape
  generalize Html.escape text = escaped at hplain
  induction escaped with
  | nil => exact hrest
  | cons d more induction =>
      obtain ⟨hd, hmore⟩ := List.forall_mem_cons.1 hplain
      exact .plain hd (induction hmore)

mutual

theorem chars {node : Html} (hnode : node.MadeOf isElement Text.isName) {rest : List Char}
    (hrest : Markup isElement rest) : Markup isElement (node.chars ++ rest) := by
  cases node with
  | text value => exact hrest.escape value.toList
  | element name attributes children =>
      obtain ⟨hname, hnames, hchildren⟩ := hnode
      have hattributes := attributesText_printAttribute hnames
      cases hvoid : isVoid name with
      | true =>
          have htag := Markup.void hname hvoid hattributes hrest
          simpa [Html.chars, printOpening, hvoid] using htag
      | false =>
          have hinner := charsOf hchildren .nil
          have htags := Markup.element hname hvoid hattributes hinner hrest
          simpa [Html.chars, printOpening, printClosing, hvoid] using htags

theorem charsOf {nodes : List Html} (hnodes : AllMadeOf isElement Text.isName nodes)
    {rest : List Char} (hrest : Markup isElement rest) :
    Markup isElement (Html.charsOf nodes ++ rest) := by
  cases nodes with
  | nil => exact hrest
  | cons node others =>
      rw [Html.charsOf, List.append_assoc]
      exact chars hnodes.1 (charsOf hnodes.2 hrest)

end

end Markup

theorem MadeOf.markup {node : Html} (hnode : node.MadeOf isElement Text.isName) :
    Markup isElement node.print.toList := by
  have hchars := Markup.chars hnode .nil
  simpa [print] using hchars

end Tagmark.Html
