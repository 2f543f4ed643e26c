import Tagmark.Command.Run
import Tagmark.Proofs.Html.Data

/-!
What is printed of a check and of a page. The JSON of a report tells how many documents were checked
and the path, the kind and the message of each finding (`Report.print_json_inj`); that of a page tells
its content (`Command.content_of_json_pageData`).
-/

namespace Tagmark

namespace Data

theorem toDigits_append_inj {m n : Nat} {c : Char} (hc : c.isDigit = false) {r s : List Char}
    (heq : Nat.toDigits 10 m ++ c :: r = Nat.toDigits 10 n ++ c :: s) : m = n ∧ r = s := by
  have hdigits : ∀ k, ∀ d ∈ Nat.toDigits 10 k, d.isDigit = true := fun k d =>
    Nat.isDigit_of_mem_toDigits (by decide) (by decide)
  have hnumbers := congrArg (List.takeWhile Char.isDigit) heq
  rw [List.takeWhile_append_of_pos (hdigits m), List.takeWhile_append_of_pos (hdigits n),
    List.takeWhile_cons_of_neg (by simp [hc]), List.takeWhile_cons_of_neg (by simp [hc]),
    List.append_nil, List.append_nil] at hnumbers
  obtain rfl : m = n := by
    rw [← Nat.ofDigitChars_ten_toDigits (n := m), hnumbers, Nat.ofDigitChars_ten_toDigits]
  exact ⟨rfl, (List.cons.inj (List.append_cancel_left heq)).2⟩

theorem allTextual_map {α : Type} {write : α → Data} (hwrite : ∀ value, (write value).IsTextual)
    (values : List α) : AllTextual (values.map write) := by
  induction values with
  | nil => trivial
  | cons value rest induction => exact ⟨hwrite value, induction⟩

end Data

theorem Fault.Kind.name_injective {left right : Fault.Kind} (heq : left.name = right.name) :
    left = right := by
  cases left <;> cases right <;> first | rfl | exact absurd heq (by decide)

namespace Finding

def shown (finding : Finding) : String × Fault.Kind × String :=
  (finding.way.print, finding.kind, finding.message)

theorem isTextual_toData (finding : Finding) : finding.toData.IsTextual :=
  ⟨trivial, trivial, trivial, trivial⟩

theorem jsonAt_toData (finding : Finding) :
    finding.toData.jsonAt 2 =
      "\x7b\n      \"path\": ".toList ++ Data.jsonText finding.way.print ++
        ",\n      \"kind\": ".toList ++ Data.jsonText finding.kind.name ++
        ",\n      \"message\": ".toList ++ Data.jsonText finding.message ++ "\n    \x7d".toList := by
  simp [toData, Data.jsonAt, Data.jsonEntries, Data.bracketed, Data.jsonText, Data.jsonChar]

theorem shown_of_toData {left right : List Finding}
    (heq : left.map toData = right.map toData) : left.map shown = right.map shown := by
  let write (told : String × Fault.Kind × String) : Data :=
    .mapping [("path", .text told.1), ("kind", .text told.2.1.name), ("message", .text told.2.2)]
  have hwrite : ∀ first second, write first = write second → first = second := by
    rintro ⟨path, kind, message⟩ ⟨path', kind', message'⟩ hdata
    simp only [write, Data.mapping.injEq, List.cons.injEq, Prod.mk.injEq, Data.text.injEq, true_and,
      and_true] at hdata
    obtain ⟨rfl, hkind, rfl⟩ := hdata
    rw [Fault.Kind.name_injective hkind]
  apply (List.map_inj_right hwrite).1
  rw [List.map_map, List.map_map]
  exact heq

end Finding

namespace Report

/-- The lines of a report. Colours are control sequences around the words. -/
theorem print_text (coloured : Bool) (report : Report) :
    let painted (start stop text : String) :=
      if coloured then "\x1b[" ++ start ++ "m" ++ text ++ "\x1b[" ++ stop ++ "m" else text
    report.print coloured .text =
      String.join (report.findings.map fun finding =>
        painted "31" "39" "error:" ++ " " ++ painted "1" "0" finding.way.print ++ ": " ++
          finding.message ++ "\n") ++
      (if report.findings = [] then
        painted "32" "39" ("All " ++ toString report.checked ++ " document(s) are valid.") ++ "\n"
      else
        "\n" ++ toString report.findings.length ++ " of " ++ toString report.checked ++
          " document(s) failed.\n") := by
  intro painted
  have hcodes : ∀ colour text, Colour.paint colour coloured text =
      painted (toString colour.codes.1) (toString colour.codes.2) text := fun _ _ => rfl
  simp only [print, text, isClean, List.isEmpty_iff, hcodes]
  rfl

theorem toList_print_json (coloured : Bool) (report : Report) :
    (report.print coloured .json).toList =
      "\x7b\n  \"checked\": ".toList ++ Nat.toDigits 10 report.checked ++
        ",\n  \"failures\": ".toList ++
        (Data.list (report.findings.map Finding.toData)).jsonAt 1 ++ "\n\x7d\n".toList := by
  have hdigits : (report.checked : Int).repr.toList = Nat.toDigits 10 report.checked :=
    Nat.toList_repr
  simp [print, toData, Data.json, Data.jsonAt, Data.jsonEntries, Data.bracketed, Data.jsonText,
    Data.jsonChar, hdigits]

theorem print_json_inj {coloured : Bool} {left right : Report}
    (heq : left.print coloured .json = right.print coloured .json) :
    left.checked = right.checked ∧
      left.findings.map Finding.shown = right.findings.map Finding.shown := by
  have htextual (report : Report) : (Data.list (report.findings.map Finding.toData)).IsTextual :=
    Data.allTextual_map Finding.isTextual_toData report.findings
  have hcomma : ",\n  \"failures\": ".toList = ',' :: "\n  \"failures\": ".toList := by decide
  have hlines := congrArg String.toList heq
  simp only [toList_print_json, List.append_assoc, List.append_cancel_left_eq, hcomma,
    List.cons_append] at hlines
  obtain ⟨hchecked, hrest⟩ := Data.toDigits_append_inj (by decide) hlines
  have hfindings := List.append_cancel_left hrest
  obtain ⟨hdata, -⟩ := Data.jsonAt_append_inj _ (htextual left) (htextual right) hfindings
  exact ⟨hchecked, Finding.shown_of_toData (Data.list.inj hdata)⟩

end Report

namespace Command

theorem toList_json_pageData (page : Page) :
    (pageData page).json.toList =
      "\x7b\n  \"frontmatter\": ".toList ++ page.frontmatter.toData.jsonAt 1 ++
        ",\n  \"content\": ".toList ++ page.content.toData.jsonAt 1 ++ "\n\x7d".toList := by
  simp [pageData, Data.json, Data.jsonAt, Data.jsonEntries, Data.bracketed, Data.jsonText,
    Data.jsonChar]

theorem content_of_json_pageData {frontmatter : Frontmatter} {left right : Html}
    (heq : (pageData ⟨frontmatter, left⟩).json = (pageData ⟨frontmatter, right⟩).json) :
    left = right := by
  have hlines := congrArg String.toList heq
  simp only [toList_json_pageData, List.append_assoc, List.append_cancel_left_eq] at hlines
  obtain ⟨hdata, -⟩ := Data.jsonAt_append_inj _ (Html.isTextual_toData left)
    (Html.isTextual_toData right) hlines
  have hread := congrArg Html.ofData? hdata
  rw [Html.ofData?_toData, Html.ofData?_toData] at hread
  exact Option.some.inj hread

end Command

end Tagmark
