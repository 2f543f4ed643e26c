import Tagmark.Data.Json

/-!
JSON text says what it was written from: data made of texts, lists and mappings are equal if their
JSON is, whatever comes after it (`Data.jsonAt_append_inj`).
-/

namespace Tagmark.Data

mutual

def IsTextual : Data → Prop
  | .text _ => True
  | .list items => AllTextual items
  | .mapping entries => EntriesTextual entries
  | .null | .boolean _ | .integer _ | .float _ => False

def AllTextual : List Data → Prop
  | [] => True
  | item :: rest => item.IsTextual ∧ AllTextual rest

def EntriesTextual : List (String × Data) → Prop
  | [] => True
  | (_, value) :: rest => value.IsTextual ∧ EntriesTextual rest

end

theorem AllTextual.of_mem {items : List Data} (hitems : AllTextual items) {item : Data}
    (hmem : item ∈ items) : item.IsTextual := by
  induction items with
  | nil => cases hmem
  | cons head tail induction =>
      obtain ⟨hhead, htail⟩ := hitems
      rcases List.mem_cons.1 hmem with rfl | hlater
      · exact hhead
      · exact induction htail hlater

theorem EntriesTextual.of_mem {entries : List (String × Data)} (hentries : EntriesTextual entries)
    {entry : String × Data} (hmem : entry ∈ entries) : entry.2.IsTextual := by
  induction entries with
  | nil => cases hmem
  | cons head tail induction =>
      obtain ⟨hhead, htail⟩ := hentries
      rcases List.mem_cons.1 hmem with rfl | hlater
      · exact hhead
      · exact induction htail hlater

theorem EntriesTextual.append {front back : List (String × Data)} (hfront : EntriesTextual front)
    (hback : EntriesTextual back) : EntriesTextual (front ++ back) := by
  induction front with
  | nil => exact hback
  | cons entry rest induction => exact ⟨hfront.1, induction hfront.2⟩

theorem entriesTextual_texts (texts : List (String × String)) :
    EntriesTextual (texts.map fun entry => (entry.1, .text entry.2)) := by
  induction texts with
  | nil => trivial
  | cons entry rest induction => exact ⟨trivial, induction⟩

def jsonLetter : Char → Char
  | 'n' => '\n'
  | 'r' => '\r'
  | 't' => '\t'
  | 'b' => '\x08'
  | 'f' => '\x0c'
  | c => c

theorem jsonChar_cases (c : Char) :
    (jsonChar c = [c] ∧ c ≠ '\\' ∧ c ≠ '"') ∨
      (∃ letter, jsonChar c = ['\\', letter] ∧ letter ≠ 'u' ∧ jsonLetter letter = c) ∨
        (jsonChar c = '\\' :: 'u' :: hexDigits 4 c.toNat ∧ c.toNat < 32) := by
  unfold jsonChar
  split
  · exact .inr (.inl ⟨'"', rfl, by decide, rfl⟩)
  · exact .inr (.inl ⟨'\\', rfl, by decide, rfl⟩)
  · exact .inr (.inl ⟨'n', rfl, by decide, rfl⟩)
  · exact .inr (.inl ⟨'r', rfl, by decide, rfl⟩)
  · exact .inr (.inl ⟨'t', rfl, by decide, rfl⟩)
  · exact .inr (.inl ⟨'b', rfl, by decide, rfl⟩)
  · exact .inr (.inl ⟨'f', rfl, by decide, rfl⟩)
  · next hquote hslash _ _ _ _ _ =>
      split
      · next hcontrol => exact .inr (.inr ⟨rfl, hcontrol⟩)
      · exact .inl ⟨rfl, hslash, hquote⟩

theorem hexDigits_append_inj {m n : Nat} (hm : m < 32) (hn : n < 32) {r s : List Char}
    (heq : hexDigits 4 m ++ r = hexDigits 4 n ++ s) : m = n ∧ r = s := by
  have hlength : ∀ k < 32, (hexDigits 4 k).length = 4 := by decide
  have hdigits : ∀ k < 32, ∀ l < 32, hexDigits 4 k = hexDigits 4 l → k = l := by decide
  obtain ⟨hsame, hrest⟩ := List.append_inj heq ((hlength m hm).trans (hlength n hn).symm)
  exact ⟨hdigits m hm n hn hsame, hrest⟩

theorem jsonChar_append_inj {c d : Char} {r s : List Char}
    (heq : jsonChar c ++ r = jsonChar d ++ s) : c = d ∧ r = s := by
  rcases jsonChar_cases c with ⟨hc, hcslash, -⟩ | ⟨x, hc, hx, rfl⟩ | ⟨hc, hcsmall⟩ <;>
    rcases jsonChar_cases d with ⟨hd, hdslash, -⟩ | ⟨y, hd, hy, rfl⟩ | ⟨hd, hdsmall⟩ <;>
    rw [hc, hd] at heq <;>
    simp only [List.cons_append, List.nil_append, List.cons.injEq, true_and] at heq
  · exact heq
  · exact absurd heq.1 hcslash
  · exact absurd heq.1 hcslash
  · exact absurd heq.1.symm hdslash
  · exact ⟨congrArg jsonLetter heq.1, heq.2⟩
  · exact absurd heq.1 hx
  · exact absurd heq.1.symm hdslash
  · exact absurd heq.1.symm hy
  · obtain ⟨hsame, hrest⟩ := hexDigits_append_inj hcsmall hdsmall heq
    exact ⟨Char.toNat_inj.1 hsame, hrest⟩

theorem jsonChar_append_ne (c : Char) (r s : List Char) : jsonChar c ++ r ≠ '"' :: s := by
  intro heq
  rcases jsonChar_cases c with ⟨hc, -, hquote⟩ | ⟨x, hc, -, -⟩ | ⟨hc, -⟩ <;> rw [hc] at heq
  · exact hquote (List.cons.inj heq).1
  · exact absurd (List.cons.inj heq).1 (by decide)
  · exact absurd (List.cons.inj heq).1 (by decide)

theorem jsonChars_append_inj {left right r s : List Char}
    (heq : left.flatMap jsonChar ++ '"' :: r = right.flatMap jsonChar ++ '"' :: s) :
    left = right ∧ r = s := by
  induction left generalizing right with
  | nil =>
      cases right with
      | nil => exact ⟨rfl, (List.cons.inj heq).2⟩
      | cons d right =>
          rw [List.flatMap_cons, List.append_assoc] at heq
          exact absurd heq.symm (jsonChar_append_ne d _ _)
  | cons c left induction =>
      rw [List.flatMap_cons, List.append_assoc] at heq
      cases right with
      | nil => exact absurd heq (jsonChar_append_ne c _ _)
      | cons d right =>
          rw [List.flatMap_cons, List.append_assoc] at heq
          obtain ⟨rfl, hrest⟩ := jsonChar_append_inj heq
          obtain ⟨rfl, hafter⟩ := induction hrest
          exact ⟨rfl, hafter⟩

theorem jsonText_append_inj {left right : String} {r s : List Char}
    (heq : jsonText left ++ r = jsonText right ++ s) : left = right ∧ r = s := by
  unfold jsonText at heq
  simp only [List.append_assoc, List.cons_append, List.nil_append, List.cons.injEq, true_and] at heq
  obtain ⟨hsame, hrest⟩ := jsonChars_append_inj heq
  exact ⟨String.toList_inj.1 hsame, hrest⟩

section Bracketed

variable {α : Type} {write : α → List Char}

theorem pieces_append_inj {indent : List Char} {left right : List α}
    (hwrite : ∀ x ∈ left, ∀ y ∈ right, ∀ r s, write x ++ r = write y ++ s → x = y ∧ r = s)
    {r s : List Char}
    (heq : left.flatMap (fun x => ',' :: '\n' :: (indent ++ write x)) ++ '\n' :: r =
      right.flatMap (fun x => ',' :: '\n' :: (indent ++ write x)) ++ '\n' :: s) :
    left = right ∧ r = s := by
  induction left generalizing right with
  | nil =>
      cases right with
      | nil => exact ⟨rfl, (List.cons.inj heq).2⟩
      | cons y right => exact absurd (List.cons.inj heq).1 (by decide)
  | cons x left induction =>
      cases right with
      | nil => exact absurd (List.cons.inj heq).1 (by decide)
      | cons y right =>
          simp only [List.flatMap_cons, List.append_assoc, List.cons_append, List.cons.injEq,
            true_and, List.append_cancel_left_eq] at heq
          obtain ⟨rfl, hrest⟩ :=
            hwrite x List.mem_cons_self y List.mem_cons_self _ _ heq
          obtain ⟨rfl, hafter⟩ := induction
            (fun x hx y hy => hwrite x (List.mem_cons_of_mem _ hx) y (List.mem_cons_of_mem _ hy))
            hrest
          exact ⟨rfl, hafter⟩

theorem bracketed_append_inj {opening closing : Char} (hclosing : closing ≠ '\n') {level : Nat}
    {left right : List α}
    (hwrite : ∀ x ∈ left, ∀ y ∈ right, ∀ r s, write x ++ r = write y ++ s → x = y ∧ r = s)
    {r s : List Char}
    (heq : bracketed opening closing level (left.map write) ++ r =
      bracketed opening closing level (right.map write) ++ s) : left = right ∧ r = s := by
  cases left with
  | nil =>
      cases right with
      | nil => simpa [bracketed] using heq
      | cons y right => simp [bracketed, hclosing] at heq
  | cons x left =>
      cases right with
      | nil => simp [bracketed, hclosing.symm] at heq
      | cons y right =>
          simp only [bracketed, List.map_cons, List.flatMap_map, List.append_assoc, List.cons_append,
            List.nil_append, List.cons.injEq, true_and, List.append_cancel_left_eq] at heq
          obtain ⟨rfl, hrest⟩ := hwrite x List.mem_cons_self y List.mem_cons_self _ _ heq
          obtain ⟨rfl, hafter⟩ := pieces_append_inj
            (fun x hx y hy => hwrite x (List.mem_cons_of_mem _ hx) y (List.mem_cons_of_mem _ hy))
            hrest
          rw [List.append_cancel_left_eq] at hafter
          exact ⟨rfl, (List.cons.inj hafter).2⟩

end Bracketed

theorem jsonItems_eq_map (level : Nat) (items : List Data) :
    jsonItems level items = items.map (jsonAt level) := by
  induction items with
  | nil => rfl
  | cons item rest induction => rw [jsonItems, induction, List.map_cons]

def jsonEntry (level : Nat) (entry : String × Data) : List Char :=
  jsonText entry.1 ++ ':' :: ' ' :: entry.2.jsonAt level

theorem jsonEntries_eq_map (level : Nat) (entries : List (String × Data)) :
    jsonEntries level entries = entries.map (jsonEntry level) := by
  induction entries with
  | nil => rfl
  | cons entry rest induction =>
      obtain ⟨name, value⟩ := entry
      rw [jsonEntries, induction, List.map_cons, jsonEntry, List.append_assoc]
      rfl

theorem head_bracketed (opening closing : Char) (level : Nat) (pieces : List (List Char))
    (rest : List Char) : ∃ more, bracketed opening closing level pieces ++ rest = opening :: more := by
  cases pieces with
  | nil => exact ⟨_, rfl⟩
  | cons piece pieces => exact ⟨_, rfl⟩

mutual

theorem jsonAt_append_inj : (left : Data) → left.IsTextual → {right : Data} → right.IsTextual →
    {level : Nat} → {r s : List Char} → left.jsonAt level ++ r = right.jsonAt level ++ s →
      left = right ∧ r = s
  | .text value, _, right, hright, level, r, s, heq => by
      cases right with
      | text other =>
          obtain ⟨rfl, hrest⟩ := jsonText_append_inj heq
          exact ⟨rfl, hrest⟩
      | list items =>
          obtain ⟨more, hmore⟩ := head_bracketed '[' ']' level (jsonItems (level + 1) items) s
          cases heq.trans hmore
      | mapping entries =>
          obtain ⟨more, hmore⟩ := head_bracketed '{' '}' level (jsonEntries (level + 1) entries) s
          cases heq.trans hmore
      | null | boolean _ | integer _ | float _ => exact hright.elim
  | .list items, hleft, right, hright, level, r, s, heq => by
      obtain ⟨more, hmore⟩ := head_bracketed '[' ']' level (jsonItems (level + 1) items) r
      cases right with
      | text other => cases hmore.symm.trans heq
      | list others =>
          rw [jsonAt, jsonAt, jsonItems_eq_map, jsonItems_eq_map] at heq
          obtain ⟨rfl, hrest⟩ := bracketed_append_inj (by decide)
            (fun item hitem other hother r s h =>
              items_append_inj items hleft hitem (hright.of_mem hother) h) heq
          exact ⟨rfl, hrest⟩
      | mapping entries =>
          obtain ⟨more', hmore'⟩ := head_bracketed '{' '}' level (jsonEntries (level + 1) entries) s
          cases hmore.symm.trans (heq.trans hmore')
      | null | boolean _ | integer _ | float _ => exact hright.elim
  | .mapping entries, hleft, right, hright, level, r, s, heq => by
      obtain ⟨more, hmore⟩ := head_bracketed '{' '}' level (jsonEntries (level + 1) entries) r
      cases right with
      | text other => cases hmore.symm.trans heq
      | list items =>
          obtain ⟨more', hmore'⟩ := head_bracketed '[' ']' level (jsonItems (level + 1) items) s
          cases hmore.symm.trans (heq.trans hmore')
      | mapping others =>
          rw [jsonAt, jsonAt, jsonEntries_eq_map, jsonEntries_eq_map] at heq
          obtain ⟨rfl, hrest⟩ := bracketed_append_inj (by decide)
            (fun entry hentry other hother r s h =>
              entries_append_inj entries hleft hentry (hright.of_mem hother) h) heq
          exact ⟨rfl, hrest⟩
      | null | boolean _ | integer _ | float _ => exact hright.elim

theorem items_append_inj : (items : List Data) → AllTextual items → {item : Data} → item ∈ items →
    {other : Data} → other.IsTextual → {level : Nat} → {r s : List Char} →
      item.jsonAt level ++ r = other.jsonAt level ++ s → item = other ∧ r = s
  | first :: rest, hitems, item, hmem, other, hother, level, r, s, heq => by
      obtain ⟨hfirst, hrest⟩ := hitems
      rcases List.mem_cons.1 hmem with hhere | hlater
      · rw [hhere] at heq ⊢
        exact jsonAt_append_inj first hfirst hother heq
      · exact items_append_inj rest hrest hlater hother heq

theorem entries_append_inj : (entries : List (String × Data)) → EntriesTextual entries →
    {entry : String × Data} → entry ∈ entries → {other : String × Data} → other.2.IsTextual →
    {level : Nat} → {r s : List Char} → jsonEntry level entry ++ r = jsonEntry level other ++ s →
      entry = other ∧ r = s
  | (name, value) :: rest, hentries, entry, hmem, (name', value'), hother, level, r, s, heq => by
      obtain ⟨hvalue, hrest⟩ := hentries
      rcases List.mem_cons.1 hmem with hhere | hlater
      · rw [hhere] at heq ⊢
        unfold jsonEntry at heq
        rw [List.append_assoc, List.append_assoc] at heq
        obtain ⟨rfl, hvalues⟩ := jsonText_append_inj heq
        obtain ⟨rfl, hafter⟩ := jsonAt_append_inj value hvalue hother
          (List.cons.inj (List.cons.inj hvalues).2).2
        exact ⟨rfl, hafter⟩
      · exact entries_append_inj rest hrest hlater hother heq

end

end Tagmark.Data
