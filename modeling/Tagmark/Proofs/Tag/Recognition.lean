import Tagmark.Proofs.Tag.Flaws

/-!
What a tag is recognized as. A tag that is read has one closing delimiter, at its end, so what it says is
read off its tokens exactly if they are an opening tag or a closing one of the grammar, and otherwise it
is refused at one of its tokens (`TokenGroup.header_recognizes`).
-/

namespace Tagmark

namespace Header

variable {stop place : Point} {tokens : List PlacedToken} {key : String}

/-! An equals sign is missed in front of another token, not at the end. -/

theorem next_of_ofOpening {name : String} {attributes : KeyMap Value}
    (hclosed : PlacedToken.Closed tokens)
    (hheader : ofOpening stop name attributes tokens =
      .error (.invalidTag (.expectedEquals key) place)) :
    ∃ next, [⟨.name key, place⟩, next] <:+: tokens := by
  fun_induction ofOpening stop name attributes tokens with
  | case4 attributes key keyStart equalsStart placed rest other hvalue =>
      cases hheader
      cases fault_of_value hvalue
  | case5 attributes other keyStart equalsStart placed rest value hvalue induction =>
      have hrest := ((hclosed.tail rfl).tail rfl).tail (not_closing_of_value hvalue)
      obtain ⟨next, hnext⟩ := induction hrest hheader
      exact ⟨next, hnext.trans ⟨[_, _, _], [], List.append_nil _⟩⟩
  | case7 attributes key start rest =>
      cases hheader
      have hrest : PlacedToken.Closed rest := hclosed.tail rfl
      obtain ⟨next, others, rfl⟩ := List.exists_cons_of_ne_nil hrest.ne_nil
      exact ⟨next, (List.prefix_append [_, _] others).isInfix⟩
  | _ => cases hheader

theorem next_of_ofTokens (hclosed : PlacedToken.Closed tokens)
    (hheader : ofTokens stop tokens = .error (.invalidTag (.expectedEquals key) place)) :
    ∃ next, [⟨.name key, place⟩, next] <:+: tokens := by
  unfold ofTokens at hheader
  split at hheader
  · cases hheader
  · unfold ofClosing at hheader
    split at hheader
    · cases hheader
    · split at hheader <;> cases hheader
    · cases hheader
  · obtain ⟨next, hnext⟩ := next_of_ofOpening (hclosed.tail rfl) hheader
    exact ⟨next, hnext.trans (List.suffix_cons _ _).isInfix⟩
  · cases hheader

end Header

/-- A tag that is read opens with a name and entries, the last one of a key counting, or closes with a
name. Otherwise it is refused at one of its tokens, which is not the end of them: an equals sign is
missed behind a name at another token. -/
theorem TokenGroup.header_recognizes {start : Point} {text : List Char} {cut : List Segment}
    {group : TokenGroup} (hsegments : segments start text = .ok cut) (hmem : .tag group ∈ cut) :
    (∀ name attributes selfClosing,
      group.header = .ok (.opening name attributes selfClosing) ↔
        ∃ written entries,
          group.significant.map (·.token) =
            .opening :: .name name :: (written ++ [.closer selfClosing]) ∧
          Header.Entries written entries ∧
            ∀ key, attributes.get? key = entries.reverse.lookup key) ∧
    (∀ name, group.header = .ok (.closing name) ↔
      group.significant.map (·.token) = [.opening, .slash, .name name, .closing]) ∧
    ((∃ header, group.header = .ok header) ∨
      ∃ flaw, ∃ placed ∈ group.tokens,
        group.header = .error (.invalidTag flaw placed.start) ∧
        flaw.token? = some placed.token ∧
        ∀ key, flaw = .expectedEquals key → ∃ next, [placed, next] <:+: group.significant) := by
  obtain ⟨before, after, tag, _, -, hread, rfl, -⟩ := segments_around hsegments hmem
  have honce := PlacedToken.closedOnce_significant hread
  have hsignificant : (tag.group (start.advance before)).significant =
      ⟨.opening, start.advance before⟩ :: tag.tokens.filter fun placed => !placed.token.isTrivia :=
    rfl
  rw [tag.header_group, hsignificant]
  refine ⟨fun name attributes selfClosing => ?_, fun name => ?_, ?_⟩
  · have hlast : ∀ entries : List (String × Value), attributes = .ofList entries ↔
        ∀ key, attributes.get? key = entries.reverse.lookup key := by
      intro entries
      constructor
      · rintro rfl key
        exact KeyMap.get?_ofList entries key
      · intro hget
        apply KeyMap.ext_get?
        intro key
        rw [hget, KeyMap.get?_ofList]
    simp only [Header.ofTokens_eq_opening_iff honce, List.map_cons, List.cons.injEq, true_and, hlast]
  · rw [Header.ofTokens_eq_closing_iff honce, List.map_cons, List.cons.injEq, and_iff_right rfl]
  · cases hheader : Header.ofTokens tag.stop
        (tag.tokens.filter fun placed => !placed.token.isTrivia) with
    | ok header => exact .inl ⟨header, rfl⟩
    | error fault =>
        obtain ⟨flaw, placed, hplaced, rfl, htoken⟩ :=
          Header.foundAt_of_ofTokens honce.closed hheader
        refine .inr ⟨flaw, placed, List.mem_cons_of_mem _ (List.mem_filter.1 hplaced).1, rfl,
          htoken, ?_⟩
        rintro key rfl
        obtain ⟨token, place⟩ := placed
        cases htoken
        obtain ⟨next, hnext⟩ := Header.next_of_ofTokens honce.closed hheader
        exact ⟨next, hnext.trans (List.suffix_cons _ _).isInfix⟩

theorem TokenGroup.header_recognizes_last_value :
    ∃ group attributes,
      segments .origin "\x7b%a x=\"1\" x=true/%\x7d".toList = .ok [.tag group] ∧
        group.header = .ok (.opening "a" attributes true) ∧
          attributes.get? "x" = some (.boolean true) := by
  let group : TokenGroup :=
    ⟨[⟨.opening, ⟨1, 1, 0⟩⟩, ⟨.name "a", ⟨1, 3, 2⟩⟩, ⟨.blank ' ', ⟨1, 4, 3⟩⟩,
      ⟨.name "x", ⟨1, 5, 4⟩⟩, ⟨.equals, ⟨1, 6, 5⟩⟩, ⟨.text "1" .double, ⟨1, 7, 6⟩⟩,
      ⟨.blank ' ', ⟨1, 10, 9⟩⟩, ⟨.name "x", ⟨1, 11, 10⟩⟩, ⟨.equals, ⟨1, 12, 11⟩⟩,
      ⟨.name "true", ⟨1, 13, 12⟩⟩, ⟨.selfClosing, ⟨1, 17, 16⟩⟩], ⟨⟨1, 1, 0⟩, ⟨1, 20, 19⟩⟩⟩
  have hsegments : segments .origin "\x7b%a x=\"1\" x=true/%\x7d".toList = .ok [.tag group] :=
    eq_ok_of_toOption (by decide +kernel)
  obtain ⟨hopening, -, -⟩ := header_recognizes hsegments List.mem_cons_self
  let entries : List (String × Value) := [("x", .string "1"), ("x", .boolean true)]
  let written : List Token :=
    [.name "x", .equals, .text "1" .double, .name "x", .equals, .name "true"]
  have hwritten : Header.Entries written entries := .cons rfl (.cons rfl .nil)
  have htokens : group.significant.map (·.token) =
      .opening :: .name "a" :: (written ++ [.closer true]) := by decide +kernel
  exact ⟨group, .ofList entries, hsegments,
    (hopening "a" _ true).2 ⟨written, entries, htokens, hwritten, KeyMap.get?_ofList entries⟩,
    KeyMap.get?_ofList entries "x"⟩

end Tagmark
