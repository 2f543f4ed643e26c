import Tagmark.Proofs.Tag.Print

/-!
What comes of reading the tokens of a tag. A header that is refused is refused for its own tag
(`Header.isOfTag_of_ofTokens`), and the names in one that is read are names among its tokens
(`Header.isNamed_of_ofTokens`).
-/

namespace Tagmark

def Fault.isOfTag : Fault → Bool
  | .unterminatedTag _ | .invalidTag _ _ => true
  | _ => false

def Token.IsNamed (token : Token) : Prop :=
  ∀ word, token = .name word → Text.isName word = true

def Header.IsNamed : Header → Prop
  | .opening name attributes _ =>
      Text.isName name = true ∧ ∀ entry ∈ attributes.entries, Text.isName entry.1 = true
  | .closing name => Text.isName name = true

namespace Header

theorem isOfTag_of_value {placed : PlacedToken} {fault : Fault}
    (hvalue : Header.value placed = .error fault) : fault.isOfTag = true := by
  unfold Header.value at hvalue
  split at hvalue <;> cases hvalue
  rfl

theorem isOfTag_of_ofOpening {stop : Point} {name : String} {attributes : KeyMap Value}
    {placed : List PlacedToken} {fault : Fault}
    (hopening : ofOpening stop name attributes placed = .error fault) :
    fault.isOfTag = true := by
  fun_induction ofOpening stop name attributes placed with
  | case4 attributes key keyStart equalsStart written rest other hvalue =>
      cases hopening
      exact isOfTag_of_value hvalue
  | case5 attributes key keyStart equalsStart written rest value hvalue induction =>
      exact induction hopening
  | _ =>
      cases hopening
      try rfl

theorem isOfTag_of_ofTokens {stop : Point} {placed : List PlacedToken} {fault : Fault}
    (htokens : ofTokens stop placed = .error fault) : fault.isOfTag = true := by
  unfold ofTokens at htokens
  split at htokens
  · cases htokens
    rfl
  · unfold ofClosing at htokens
    split at htokens
    · cases htokens
      rfl
    · split at htokens <;> cases htokens <;> rfl
    · cases htokens
      rfl
  · exact isOfTag_of_ofOpening htokens
  · cases htokens
    rfl

theorem isNamed_of_ofClosing {stop : Point} {tokens : List PlacedToken} {header : Header}
    (htokens : ∀ placed ∈ tokens, placed.token.IsNamed)
    (hheader : ofClosing stop tokens = .ok header) : header.IsNamed := by
  unfold ofClosing at hheader
  split at hheader
  · cases hheader
  · next word start rest =>
      split at hheader
      · cases hheader
      · cases hheader
        exact htokens ⟨.name word, start⟩ List.mem_cons_self word rfl
      · cases hheader
  · cases hheader

theorem isNamed_of_ofOpening {stop : Point} {name : String} {attributes : KeyMap Value}
    {tokens : List PlacedToken} {header : Header}
    (htokens : ∀ placed ∈ tokens, placed.token.IsNamed)
    (hsofar : (Header.opening name attributes false).IsNamed)
    (hheader : ofOpening stop name attributes tokens = .ok header) : header.IsNamed := by
  fun_induction ofOpening stop name attributes tokens with
  | case2 | case3 =>
      cases hheader
      exact hsofar
  | case5 attributes key start place written rest value =>
      next induction =>
        refine induction (fun placed hmem => htokens placed (by simp [hmem])) ?_ hheader
        refine ⟨hsofar.1, fun entry hmem => ?_⟩
        rcases KeyMap.Entries.name_of_mem_insert hmem with rfl | hold
        · exact htokens ⟨.name key, start⟩ List.mem_cons_self key rfl
        · exact hsofar.2 entry hold
  | _ => cases hheader

theorem isNamed_of_ofTokens {stop : Point} {tokens : List PlacedToken} {header : Header}
    (htokens : ∀ placed ∈ tokens, placed.token.IsNamed)
    (hheader : ofTokens stop tokens = .ok header) : header.IsNamed := by
  unfold ofTokens at hheader
  split at hheader
  · cases hheader
  · exact isNamed_of_ofClosing (List.forall_mem_cons.1 htokens).2 hheader
  · next word start rest =>
      obtain ⟨hword, hrest⟩ := List.forall_mem_cons.1 htokens
      have hnone : ∀ entry ∈ (∅ : KeyMap Value).entries, Text.isName entry.1 = true :=
        fun entry hmem => absurd hmem List.not_mem_nil
      exact isNamed_of_ofOpening hrest ⟨hword word rfl, hnone⟩ hheader
  · cases hheader

end Header

end Tagmark
