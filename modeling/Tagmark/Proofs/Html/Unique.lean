import Tagmark.Proofs.Html.Names
import Tagmark.Text.Blank

/-!
What is printed says what it was printed from: safe trees are printed alike exactly when they have
the same normal form (`print_eq_iff`).
-/

namespace Tagmark.Html

/-- Letters, digits, hyphens and all else that is neither white space nor reserved in markup. -/
def isWordPart (c : Char) : Bool :=
  !Text.isBlank c && !(['"', '\'', '<', '>', '/', '='].contains c)

def isWord (name : String) : Bool :=
  name != "" && name.toList.all isWordPart

example : isWord "h1" && isWord "data-row" && isWord "_key" = true := by decide

/-- All names of elements and attributes are words. -/
abbrev Safe (node : Html) : Prop :=
  node.MadeOf isWord isWord

/-- A name that cannot go on in what follows it in a tag, and cannot be taken for that of a closing
tag. -/
def isLegibleElement (name : String) : Bool :=
  name.toList.head? != some '/' && name.toList.all fun c => c != ' ' && c != '>'

def isLegibleAttribute (name : String) : Bool :=
  name.toList.all (· != '=')

abbrev Legible (node : Html) : Prop :=
  node.MadeOf isLegibleElement isLegibleAttribute

abbrev AllLegible (nodes : List Html) : Prop :=
  AllMadeOf isLegibleElement isLegibleAttribute nodes

theorem isWordPart_of_isWord {name : String} (hname : isWord name = true) :
    ∀ c ∈ name.toList, isWordPart c = true :=
  List.all_eq_true.1 (Bool.and_eq_true_iff.1 hname).2

theorem isLegibleElement_of_isWord {name : String} (hname : isWord name = true) :
    isLegibleElement name = true := by
  have hparts := isWordPart_of_isWord hname
  refine Bool.and_eq_true_iff.2 ⟨bne_iff_ne.2 fun hhead => ?_, List.all_eq_true.2 fun c hmem => ?_⟩
  · cases hparts '/' (List.mem_of_head? hhead)
  · have hspace : c ≠ ' ' := fun heq => by cases hparts ' ' (heq ▸ hmem)
    have hbracket : c ≠ '>' := fun heq => by cases hparts '>' (heq ▸ hmem)
    simp [hspace, hbracket]

theorem isLegibleAttribute_of_isWord {name : String} (hname : isWord name = true) :
    isLegibleAttribute name = true := by
  refine List.all_eq_true.2 fun c hmem => bne_iff_ne.2 fun heq => ?_
  cases isWordPart_of_isWord hname '=' (heq ▸ hmem)

theorem Safe.legible {node : Html} (hnode : node.Safe) : node.Legible :=
  hnode.mono (fun _ => isLegibleElement_of_isWord) fun _ => isLegibleAttribute_of_isWord

def Breaks (rest : List Char) : Prop :=
  ∀ c ∈ rest.head?, c = '<' ∨ c = '"'

theorem escapeChar_append_inj {c d : Char} {r s : List Char}
    (heq : escapeChar c ++ r = escapeChar d ++ s) : c = d ∧ r = s := by
  unfold escapeChar at heq
  split at heq <;> split at heq <;>
    simp only [List.cons_append, List.nil_append, List.cons.injEq] at heq <;> grind

theorem head_escapeChar (c : Char) (rest : List Char) :
    ∃ first more, escapeChar c ++ rest = first :: more ∧ first ≠ '<' ∧ first ≠ '"' := by
  unfold escapeChar
  split
  all_goals try exact ⟨'&', _, rfl, by decide, by decide⟩
  next hless _ hquote _ => exact ⟨c, rest, rfl, hless, hquote⟩

theorem escapeChar_append_ne {c : Char} {rest after : List Char} (hafter : Breaks after) :
    escapeChar c ++ rest ≠ after := by
  rintro rfl
  obtain ⟨first, more, hhead, hless, hquote⟩ := head_escapeChar c rest
  rw [hhead] at hafter
  rcases hafter first rfl with h | h
  · exact hless h
  · exact hquote h

theorem escape_append_inj {left right r s : List Char} (hr : Breaks r) (hs : Breaks s)
    (heq : escape left ++ r = escape right ++ s) : left = right ∧ r = s := by
  induction left generalizing right with
  | nil =>
      cases right with
      | nil => exact ⟨rfl, heq⟩
      | cons d right =>
          have hsome : escapeChar d ++ (escape right ++ s) = r := by
            rw [← List.append_assoc]
            exact heq.symm
          exact absurd hsome (escapeChar_append_ne hr)
  | cons c left induction =>
      cases right with
      | nil =>
          have hsome : escapeChar c ++ (escape left ++ r) = s := by
            rw [← List.append_assoc]
            exact heq
          exact absurd hsome (escapeChar_append_ne hs)
      | cons d right =>
          have hcons : escapeChar c ++ (escape left ++ r) = escapeChar d ++ (escape right ++ s) := by
            rw [← List.append_assoc, ← List.append_assoc]
            exact heq
          obtain ⟨rfl, hrest⟩ := escapeChar_append_inj hcons
          obtain ⟨rfl, hafter⟩ := induction hrest
          exact ⟨rfl, hafter⟩

theorem part_append_inj (isPart : Char → Bool) {left right : List Char}
    (hleft : ∀ c ∈ left, isPart c = true) (hright : ∀ c ∈ right, isPart c = true) {x y : Char}
    (hx : isPart x = false) (hy : isPart y = false) {r s : List Char}
    (heq : left ++ x :: r = right ++ y :: s) : left = right ∧ x = y ∧ r = s := by
  induction left generalizing right with
  | nil =>
      cases right with
      | nil => simpa using heq
      | cons d right =>
          obtain ⟨rfl, -⟩ := List.cons.inj heq
          simp [hright x List.mem_cons_self] at hx
  | cons c left induction =>
      obtain ⟨hc, hleft⟩ := List.forall_mem_cons.1 hleft
      cases right with
      | nil =>
          obtain ⟨rfl, -⟩ := List.cons.inj heq
          simp [hc] at hy
      | cons d right =>
          obtain ⟨rfl, hrest⟩ := List.cons.inj heq
          obtain ⟨rfl, hxy, hrs⟩ := induction hleft (List.forall_mem_cons.1 hright).2 hrest
          exact ⟨rfl, hxy, hrs⟩

theorem printAttributes_append_inj {left right : List (String × String)}
    (hleft : ∀ entry ∈ left, isLegibleAttribute entry.1 = true)
    (hright : ∀ entry ∈ right, isLegibleAttribute entry.1 = true) {r s : List Char}
    (heq : left.flatMap printAttribute ++ '>' :: r = right.flatMap printAttribute ++ '>' :: s) :
    left = right ∧ r = s := by
  induction left generalizing right with
  | nil =>
      cases right with
      | nil => simpa using heq
      | cons entry right => simp [printAttribute] at heq
  | cons entry left induction =>
      obtain ⟨key, value⟩ := entry
      obtain ⟨hentry, hleft⟩ := List.forall_mem_cons.1 hleft
      cases right with
      | nil => simp [printAttribute] at heq
      | cons other right =>
          obtain ⟨key', value'⟩ := other
          obtain ⟨hother, hright⟩ := List.forall_mem_cons.1 hright
          simp only [List.flatMap_cons, printAttribute, List.append_assoc, List.cons_append,
            List.nil_append, List.cons.injEq, true_and] at heq
          have hequals : ('=' != '=') = false := by decide
          obtain ⟨hkey, -, hvalues⟩ := part_append_inj (· != '=')
            (List.all_eq_true.1 hentry) (List.all_eq_true.1 hother) hequals hequals heq
          obtain ⟨-, hvalues⟩ := List.cons.inj hvalues
          have hquoted : ∀ rest, Breaks ('"' :: rest) := by simp [Breaks]
          obtain ⟨hvalue, hrest⟩ := escape_append_inj (hquoted _) (hquoted _) hvalues
          obtain ⟨rfl, hafter⟩ := induction hleft hright (List.cons.inj hrest).2
          obtain rfl : key = key' := String.toList_inj.1 hkey
          obtain rfl : value = value' := String.toList_inj.1 hvalue
          exact ⟨rfl, hafter⟩

theorem printOpening_append_inj {left right : String} {attributes attributes' : KeyMap String}
    (hleft : isLegibleElement left = true) (hright : isLegibleElement right = true)
    (hattributes : ∀ entry ∈ attributes.entries, isLegibleAttribute entry.1 = true)
    (hattributes' : ∀ entry ∈ attributes'.entries, isLegibleAttribute entry.1 = true)
    {r s : List Char}
    (heq : printOpening left attributes ++ r = printOpening right attributes' ++ s) :
    left = right ∧ attributes = attributes' ∧ r = s := by
  have hnext : ∀ (entries : List (String × String)) (rest : List Char),
      ∃ x more, entries.flatMap printAttribute ++ '>' :: rest = x :: more ∧
        (x != ' ' && x != '>') = false := by
    intro entries rest
    cases entries with
    | nil => exact ⟨'>', rest, rfl, by decide⟩
    | cons entry entries => exact ⟨' ', _, rfl, by decide⟩
  simp only [printOpening, List.append_assoc, List.cons_append, List.nil_append,
    List.cons.injEq, true_and] at heq
  obtain ⟨x, more, hmore, hx⟩ := hnext attributes.entries r
  obtain ⟨y, more', hmore', hy⟩ := hnext attributes'.entries s
  rw [hmore, hmore'] at heq
  obtain ⟨hname, rfl, rfl⟩ := part_append_inj (fun c => c != ' ' && c != '>')
    (List.all_eq_true.1 (Bool.and_eq_true_iff.1 hleft).2)
    (List.all_eq_true.1 (Bool.and_eq_true_iff.1 hright).2) hx hy heq
  obtain ⟨hentries, hrest⟩ := printAttributes_append_inj hattributes hattributes'
    (hmore.trans hmore'.symm)
  exact ⟨String.toList_inj.1 hname, KeyMap.ext_entries hentries, hrest⟩

/-- Nothing, or a closing tag. -/
def Closes (rest : List Char) : Prop :=
  rest = [] ∨ ∃ more, rest = '<' :: '/' :: more

theorem Closes.breaks {rest : List Char} (hrest : Closes rest) : Breaks rest := by
  rcases hrest with rfl | ⟨more, rfl⟩ <;> simp [Breaks]

theorem closes_printClosing (name : String) (rest : List Char) :
    Closes (printClosing name ++ rest) :=
  .inr ⟨name.toList ++ ['>'] ++ rest, by simp [printClosing]⟩

theorem printOpening_ne {name : String} (hname : isLegibleElement name = true)
    {attributes : KeyMap String} {rest after : List Char} (hafter : Closes after) :
    printOpening name attributes ++ rest ≠ after := by
  rintro rfl
  rcases hafter with hnil | ⟨more, hmore⟩
  · simp [printOpening] at hnil
  · simp only [printOpening, List.append_assoc, List.cons_append, List.nil_append,
      List.cons.injEq, true_and] at hmore
    cases hlist : name.toList with
    | cons c tail =>
        rw [hlist] at hmore
        rw [isLegibleElement, hlist, (List.cons.inj hmore).1] at hname
        cases hname
    | nil =>
        rw [hlist] at hmore
        cases hentries : attributes.entries with
        | nil => simp [hentries] at hmore
        | cons entry entries => simp [hentries, printAttribute] at hmore

theorem charsOf_cons (node : Html) (rest : List Html) :
    charsOf (node :: rest) = node.chars ++ charsOf rest := rfl

theorem chars_text_ne {value : String} (hvalue : value ≠ "") {rest : List Html}
    {more after : List Char} (hafter : Breaks after) :
    charsOf (.text value :: rest) ++ more ≠ after := by
  cases hlist : value.toList with
  | nil => exact absurd (String.toList_inj.1 hlist) hvalue
  | cons c tail =>
      have hchars : charsOf (.text value :: rest) ++ more =
          escapeChar c ++ (escape tail ++ (charsOf rest ++ more)) := by
        simp [charsOf, chars, escape, hlist]
      rw [hchars]
      exact escapeChar_append_ne hafter

theorem charsOf_cons_ne {node : Html} {rest : List Html} (hnormal : AllNormal (node :: rest))
    (hlegible : AllLegible (node :: rest)) {more after : List Char} (hafter : Closes after) :
    charsOf (node :: rest) ++ more ≠ after := by
  cases node with
  | text value =>
      obtain ⟨hvalue, -⟩ := hnormal.2.1 value rfl
      exact chars_text_ne hvalue hafter.breaks
  | element name attributes children =>
      rw [charsOf_cons, chars, List.append_assoc, List.append_assoc]
      exact printOpening_ne hlegible.1.1 hafter

theorem breaks_after_text {value : String} {rest : List Html}
    (hnormal : AllNormal (.text value :: rest)) {after : List Char} (hafter : Closes after) :
    Breaks (charsOf rest ++ after) := by
  cases rest with
  | nil => exact hafter.breaks
  | cons next more =>
      cases next with
      | text other => exact absurd rfl ((hnormal.2.1 value rfl).2 other more)
      | element name attributes children =>
          simp [Breaks, charsOf, chars, printOpening]

theorem charsOf_append_inj : ∀ {left right : List Html} {r s : List Char}, AllNormal left →
    AllNormal right → AllLegible left → AllLegible right → Closes r → Closes s →
      charsOf left ++ r = charsOf right ++ s → left = right ∧ r = s
  | [], [], _, _, _, _, _, _, _, _, heq => ⟨rfl, heq⟩
  | [], _ :: _, _, _, _, hright, _, hsafe, hr, _, heq =>
      absurd heq.symm (charsOf_cons_ne hright hsafe hr)
  | _ :: _, [], _, _, hleft, _, hsafe, _, _, hs, heq =>
      absurd heq (charsOf_cons_ne hleft hsafe hs)
  | .text value :: left, .text other :: right, r, s, hleft, hright, hsafe, hsafe', hr, hs, heq => by
      rw [charsOf_cons, charsOf_cons, List.append_assoc, List.append_assoc] at heq
      obtain ⟨hvalue, hrest⟩ := escape_append_inj (breaks_after_text hleft hr)
        (breaks_after_text hright hs) heq
      obtain ⟨rfl, hafter⟩ := charsOf_append_inj hleft.2.2 hright.2.2 hsafe.2 hsafe'.2 hr hs hrest
      rw [String.toList_inj.1 hvalue]
      exact ⟨rfl, hafter⟩
  | .text value :: left, .element name attributes children :: right, r, s, hleft, _, _, _, _, _,
      heq => by
      have hbreaks : Breaks (charsOf (.element name attributes children :: right) ++ s) := by
        simp [Breaks, charsOf, chars, printOpening]
      obtain ⟨hvalue, -⟩ := hleft.2.1 value rfl
      exact absurd heq (chars_text_ne hvalue hbreaks)
  | .element name attributes children :: left, .text value :: right, r, s, _, hright, _, _, _, _,
      heq => by
      have hbreaks : Breaks (charsOf (.element name attributes children :: left) ++ r) := by
        simp [Breaks, charsOf, chars, printOpening]
      obtain ⟨hvalue, -⟩ := hright.2.1 value rfl
      exact absurd heq.symm (chars_text_ne hvalue hbreaks)
  | .element name attributes children :: left, .element name' attributes' children' :: right,
      r, s, hleft, hright, hsafe, hsafe', hr, hs, heq => by
      obtain ⟨⟨hvoid, hchildren⟩, -, hleft⟩ := hleft
      obtain ⟨⟨hvoid', hchildren'⟩, -, hright⟩ := hright
      obtain ⟨⟨hname, hattributes, hinner⟩, hsafe⟩ := hsafe
      obtain ⟨⟨hname', hattributes', hinner'⟩, hsafe'⟩ := hsafe'
      simp only [charsOf_cons, chars, List.append_assoc] at heq
      obtain ⟨rfl, rfl, hrest⟩ :=
        printOpening_append_inj hname hname' hattributes hattributes' heq
      cases hkind : isVoid name with
      | true =>
          simp only [hkind, if_true, List.nil_append] at hrest
          obtain ⟨rfl, hafter⟩ := charsOf_append_inj hleft hright hsafe hsafe' hr hs hrest
          rw [hvoid hkind, hvoid' hkind]
          exact ⟨rfl, hafter⟩
      | false =>
          simp only [hkind, Bool.false_eq_true, if_false, List.append_assoc] at hrest
          obtain ⟨rfl, hclosing⟩ := charsOf_append_inj hchildren hchildren' hinner hinner'
            (closes_printClosing name _) (closes_printClosing name _) hrest
          obtain ⟨rfl, hafter⟩ := charsOf_append_inj hleft hright hsafe hsafe' hr hs
            (List.append_cancel_left hclosing)
          exact ⟨rfl, hafter⟩

theorem normal_eq_of_normalAll {left right : Html}
    (heq : normalAll [left] = normalAll [right]) : left.normal = right.normal := by
  have htext : ∀ value, normalAll [.text value] = if value = "" then [] else [.text value] :=
    fun _ => rfl
  have helement : ∀ name attributes children,
      normalAll [.element name attributes children] = [(element name attributes children).normal] :=
    fun _ _ _ => rfl
  cases left with
  | element name attributes children =>
      cases right with
      | element name' attributes' children' => exact List.singleton_inj.1 heq
      | text other =>
          rw [htext, helement] at heq
          split at heq <;> cases heq
  | text value =>
      cases right with
      | element name attributes children =>
          rw [htext, helement] at heq
          split at heq <;> cases heq
      | text other =>
          rw [htext, htext] at heq
          split at heq
          · next hvalue =>
              split at heq
              · next hother => rw [hvalue, hother]
              · cases heq
          · split at heq
            · cases heq
            · exact List.singleton_inj.1 heq

theorem normal_eq_of_print_eq {left right : Html} (hleft : left.Legible) (hright : right.Legible)
    (hprint : print left = print right) : left.normal = right.normal := by
  have hchars : charsOf (normalAll [left]) ++ [] = charsOf (normalAll [right]) ++ [] := by
    rw [charsOf_normalAll, charsOf_normalAll, charsOf_cons, charsOf_cons,
      String.ofList_injective hprint]
  obtain ⟨hnormal, -⟩ := charsOf_append_inj (allNormal_normalAll [left])
    (allNormal_normalAll [right]) (allMadeOf_normalAll ⟨hleft, trivial⟩)
    (allMadeOf_normalAll ⟨hright, trivial⟩) (.inl rfl) (.inl rfl) hchars
  exact normal_eq_of_normalAll hnormal

/-- Safe trees are printed alike exactly when they have the same normal form. -/
theorem print_eq_iff {left right : Html} (hleft : left.Safe) (hright : right.Safe) :
    print left = print right ↔ left.normal = right.normal := by
  constructor
  · intro hprint
    exact normal_eq_of_print_eq hleft.legible hright.legible hprint
  · intro hnormal
    rw [print, print, ← chars_normal left, ← chars_normal right, hnormal]

theorem print_eq_iff_pieces :
    let pieces : Html := .make "p" [("title", "\"<a>\"")]
      [.text "x &", .text "", .text "amp; <b>", .make "br" [] [.text "lost"]]
    let joined : Html := .make "p" [("title", "\"<a>\"")] [.text "x &amp; <b>", .make "br" [] []]
    pieces.Safe ∧ joined.Safe ∧ print pieces = print joined := by
  intro pieces joined
  have hpieces : pieces.Safe := by decide
  have hjoined : joined.Safe := by decide
  exact ⟨hpieces, hjoined, (print_eq_iff hpieces hjoined).2 rfl⟩

end Tagmark.Html
