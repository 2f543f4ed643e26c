import Tagmark.Proofs.Document.Layout
import Tagmark.Proofs.Tag.Header
import Tagmark.Proofs.Tag.Print

/-!
Names in tags. A tag is called by an identifier, and so are its attributes
(`WrittenAt.isNamed`).
-/

namespace Tagmark

namespace Lexeme

theorem number_kind_ne_name (text : List Char) : (number text).1.kind ≠ .name := by
  unfold number
  dsimp only
  split <;> simp

theorem isNameStart_of_kind {c : Char} {rest : List Char} (hkind : (lex c rest).1.kind = .name) :
    isNameStart c = true := by
  by_contra hstart
  unfold lex at hkind
  split at hkind <;> try cases hkind
  · dsimp only at hkind
    split at hkind <;> simp at hkind
  · dsimp only at hkind
    split at hkind <;> simp at hkind
  · rw [if_neg hstart] at hkind
    split at hkind
    · exact number_kind_ne_name _ hkind
    · cases hkind

theorem kind_of_token_name {lexeme : Lexeme} {word : String}
    (htoken : lexeme.token = .ok (.name word)) :
    lexeme.kind = .name ∧ word = String.ofList lexeme.text := by
  unfold token at htoken
  cases hkind : lexeme.kind with
  | name =>
      simp only [hkind, Except.ok.injEq, Token.name.injEq] at htoken
      exact ⟨rfl, htoken.symm⟩
  | double =>
      simp only [hkind] at htoken
      split at htoken
      · split at htoken <;> simp at htoken
      · simp at htoken
  | _ => simp [hkind] at htoken

theorem isNamed_of_token {c : Char} {rest : List Char} {token : Token}
    (htoken : (lex c rest).1.token = .ok token) : token.IsNamed := by
  rintro word rfl
  obtain ⟨hkind, rfl⟩ := kind_of_token_name htoken
  have hstart := isNameStart_of_kind hkind
  rw [lex_name hstart]
  simp only [Text.isName, String.toList_ofList, hstart, Bool.true_and]
  exact List.all_takeWhile

end Lexeme

theorem isNamed_of_readTag {start point : Point} {text : List Char} {tag : TagRest}
    (hread : readTag start point text = .ok tag) :
    ∀ placed ∈ tag.tokens, placed.token.IsNamed := by
  fun_induction readTag start point text generalizing tag with
  | case1 | case2 | case4 => cases hread
  | case3 point c rest lexed token htoken =>
      cases hread
      exact List.forall_mem_singleton.2 (Lexeme.isNamed_of_token htoken)
  | case5 point c rest lexed token htoken next hcloses tag' hrest =>
      next induction =>
        cases hread
        exact List.forall_mem_cons.2 ⟨Lexeme.isNamed_of_token htoken, induction hrest⟩

namespace Header

theorem WrittenAt.isNamed {header : Header} {point : Point} {source : List Char}
    (hwritten : header.WrittenAt point source) : header.IsNamed := by
  obtain ⟨group, hreads, hheader⟩ := hwritten
  have hgroup : ∀ placed ∈ group.tokens, placed.token.IsNamed := by
    rcases segments_eq_ok hreads with ⟨-, hcut⟩ | ⟨before, after, tag, rest, -, hread, -, hcut⟩
    · unfold Segment.ofText at hcut
      split at hcut <;> simp at hcut
    · unfold Segment.ofText at hcut
      split at hcut
      · obtain ⟨rfl, -⟩ := hcut
        have hopening : Token.opening.IsNamed := fun word heq => by cases heq
        exact List.forall_mem_cons.2 ⟨hopening, isNamed_of_readTag hread⟩
      · simp at hcut
  apply isNamed_of_ofTokens _ hheader
  intro placed hmem
  have hsignificant := (List.dropWhile_sublist _).subset (List.mem_of_mem_tail hmem)
  exact hgroup placed (List.mem_filter.1 hsignificant).1

end Header

end Tagmark
