import Tagmark.Tag.Header

/-!
The grammar of tags. Tokens of which the last one alone is a closing delimiter are read as an opening tag
exactly if they are a name and entries (`Header.ofTokens_eq_opening_iff`), and as a closing one exactly
if they are a slash and a name (`Header.ofTokens_eq_closing_iff`).
-/

namespace Tagmark

def Token.isClosing : Token → Bool
  | .closing | .selfClosing => true
  | _ => false

theorem Token.isTrivia_of_isClosing {token : Token} (hclosing : token.isClosing = true) :
    token.isTrivia = false := by
  cases token with
  | closing | selfClosing => rfl
  | _ => cases hclosing

def Token.value? : Token → Option Value
  | .text value _ => some (.string value)
  | .number value => some (.number value)
  | .name "true" => some (.boolean true)
  | .name "false" => some (.boolean false)
  | _ => none

def Token.closer (selfClosing : Bool) : Token :=
  if selfClosing then .selfClosing else .closing

/-- Tokens that write entries: for each one a name, an equals sign and a value. -/
inductive Header.Entries : List Token → List (String × Value) → Prop
  | nil : Entries [] []
  | cons {key : String} {written : Token} {value : Value} {tokens : List Token}
      {entries : List (String × Value)} (hvalue : written.value? = some value)
      (hrest : Entries tokens entries) :
      Entries (.name key :: .equals :: written :: tokens) ((key, value) :: entries)

def PlacedToken.Closed (tokens : List PlacedToken) : Prop :=
  ∃ last, tokens.getLast? = some last ∧ last.token.isClosing = true

def PlacedToken.ClosedOnce (tokens : List PlacedToken) : Prop :=
  ∃ front last, tokens = front ++ [last] ∧ last.token.isClosing = true ∧
    ∀ placed ∈ front, placed.token.isClosing = false

namespace PlacedToken

variable {first : PlacedToken} {tokens rest : List PlacedToken}

theorem Closed.ne_nil (hclosed : Closed tokens) : tokens ≠ [] := by
  rintro rfl
  obtain ⟨last, hlast, -⟩ := hclosed
  cases hlast

theorem Closed.tail (hclosed : Closed (first :: rest)) (hfirst : first.token.isClosing = false) :
    Closed rest := by
  obtain ⟨last, hlast, htoken⟩ := hclosed
  rw [List.getLast?_cons] at hlast
  cases hrest : rest.getLast? with
  | none =>
      rw [hrest] at hlast
      cases hlast
      rw [Option.getD_none, hfirst] at htoken
      cases htoken
  | some other =>
      rw [hrest] at hlast
      cases hlast
      exact ⟨other, hrest, htoken⟩

theorem ClosedOnce.closed (honce : ClosedOnce tokens) : Closed tokens := by
  obtain ⟨front, last, rfl, hlast, -⟩ := honce
  exact ⟨last, List.getLast?_concat, hlast⟩

theorem ClosedOnce.cons (hfirst : first.token.isClosing = false) (honce : ClosedOnce rest) :
    ClosedOnce (first :: rest) := by
  obtain ⟨front, last, rfl, hlast, hfront⟩ := honce
  exact ⟨first :: front, last, rfl, hlast, List.forall_mem_cons.2 ⟨hfirst, hfront⟩⟩

theorem ClosedOnce.tail (honce : ClosedOnce (first :: rest)) (hfirst : first.token.isClosing = false) :
    ClosedOnce rest := by
  obtain ⟨front, last, heq, hlast, hfront⟩ := honce
  cases front with
  | nil =>
      cases heq
      cases hfirst.symm.trans hlast
  | cons other front =>
      obtain ⟨-, rfl⟩ := List.cons.inj heq
      exact ⟨front, last, rfl, hlast, (List.forall_mem_cons.1 hfront).2⟩

theorem ClosedOnce.eq_nil (honce : ClosedOnce (first :: rest)) (hfirst : first.token.isClosing = true) :
    rest = [] := by
  obtain ⟨front, last, heq, -, hfront⟩ := honce
  cases front with
  | nil => exact (List.cons.inj heq).2
  | cons other front =>
      obtain ⟨rfl, -⟩ := List.cons.inj heq
      cases hfirst.symm.trans (hfront _ List.mem_cons_self)

theorem ClosedOnce.filter (honce : ClosedOnce tokens) {keeps : PlacedToken → Bool}
    (hkeeps : ∀ placed : PlacedToken, placed.token.isClosing = true → keeps placed = true) :
    ClosedOnce (tokens.filter keeps) := by
  obtain ⟨front, last, rfl, hlast, hfront⟩ := honce
  refine ⟨front.filter keeps, last, ?_, hlast,
    fun placed hmem => hfront placed (List.mem_filter.1 hmem).1⟩
  rw [List.filter_append, List.filter_cons_of_pos (hkeeps last hlast), List.filter_nil]

end PlacedToken

namespace Header

variable {stop : Point} {tokens : List PlacedToken}

theorem value_eq_ok_iff {placed : PlacedToken} {found : Value} :
    value placed = .ok found ↔ placed.token.value? = some found := by
  obtain ⟨token, start⟩ := placed
  unfold value Token.value?
  split <;> simp_all

theorem not_closing_of_value {placed : PlacedToken} {read : Value}
    (hvalue : value placed = .ok read) : placed.token.isClosing = false := by
  unfold value at hvalue
  split at hvalue
  case h_5 => cases hvalue
  all_goals
    next htoken =>
      rw [htoken]
      rfl

theorem ofOpening_of_entries {name : String} {attributes : KeyMap Value} {selfClosing : Bool}
    {written : List Token} {entries : List (String × Value)} (hwritten : Entries written entries)
    (htokens : tokens.map (·.token) = written ++ [.closer selfClosing]) :
    ofOpening stop name attributes tokens =
      .ok (.opening name (attributes.insertAll entries) selfClosing) := by
  induction hwritten generalizing attributes tokens with
  | nil =>
      obtain ⟨⟨token, start⟩, rfl, rfl⟩ := List.map_eq_singleton_iff.1 htokens
      cases selfClosing <;> rfl
  | cons hvalue _ induction =>
      obtain ⟨⟨key, keyStart⟩, afterKey, rfl, rfl, hafterKey⟩ := List.map_eq_cons_iff.1 htokens
      obtain ⟨⟨middle, middleStart⟩, afterEquals, rfl, rfl, hafterEquals⟩ :=
        List.map_eq_cons_iff.1 hafterKey
      obtain ⟨placed, afterValue, rfl, rfl, hrest⟩ := List.map_eq_cons_iff.1 hafterEquals
      rw [ofOpening, value_eq_ok_iff.2 hvalue]
      exact induction hrest

theorem entries_of_ofOpening {name : String} {attributes : KeyMap Value} {header : Header}
    (honce : PlacedToken.ClosedOnce tokens)
    (hheader : ofOpening stop name attributes tokens = .ok header) :
    ∃ written entries selfClosing, tokens.map (·.token) = written ++ [.closer selfClosing] ∧
      Entries written entries ∧
        header = .opening name (attributes.insertAll entries) selfClosing := by
  fun_induction ofOpening stop name attributes tokens with
  | case2 attributes place rest =>
      cases hheader
      cases honce.eq_nil rfl
      exact ⟨[], [], false, rfl, .nil, rfl⟩
  | case3 attributes place rest =>
      cases hheader
      cases honce.eq_nil rfl
      exact ⟨[], [], true, rfl, .nil, rfl⟩
  | case5 attributes key keyStart equalsStart placed rest value hvalue induction =>
      have hrest := ((honce.tail rfl).tail rfl).tail (not_closing_of_value hvalue)
      obtain ⟨written, entries, selfClosing, htokens, hentries, rfl⟩ := induction hrest hheader
      refine ⟨_, (key, value) :: entries, selfClosing, ?_,
        .cons (value_eq_ok_iff.1 hvalue) hentries, rfl⟩
      rw [List.map_cons, List.map_cons, List.map_cons, htokens]
      rfl
  | _ => cases hheader

theorem ofOpening_ne_closing {name word : String} {attributes : KeyMap Value} :
    ofOpening stop name attributes tokens ≠ .ok (.closing word) := by
  intro hheader
  fun_induction ofOpening stop name attributes tokens with
  | case5 _ _ _ _ _ _ _ _ induction => exact induction hheader
  | _ => cases hheader

theorem ofClosing_eq_ok_iff {header : Header} (honce : PlacedToken.ClosedOnce tokens) :
    ofClosing stop tokens = .ok header ↔
      ∃ word, tokens.map (·.token) = [.name word, .closing] ∧ header = .closing word := by
  constructor
  · intro hheader
    unfold ofClosing at hheader
    split at hheader
    · cases hheader
    · next word start rest =>
        split at hheader
        · cases hheader
        · cases hheader
          cases (honce.tail rfl).eq_nil rfl
          exact ⟨word, rfl, rfl⟩
        · cases hheader
    · cases hheader
  · rintro ⟨word, htokens, rfl⟩
    obtain ⟨⟨first, start⟩, rest, rfl, rfl, hrest⟩ := List.map_eq_cons_iff.1 htokens
    obtain ⟨⟨last, place⟩, rfl, rfl⟩ := List.map_eq_singleton_iff.1 hrest
    rfl

theorem ofTokens_eq_opening_iff {name : String} {attributes : KeyMap Value} {selfClosing : Bool}
    (honce : PlacedToken.ClosedOnce tokens) :
    ofTokens stop tokens = .ok (.opening name attributes selfClosing) ↔
      ∃ written entries, tokens.map (·.token) = .name name :: (written ++ [.closer selfClosing]) ∧
        Entries written entries ∧ attributes = .ofList entries := by
  constructor
  · intro hheader
    unfold ofTokens at hheader
    split at hheader
    · cases hheader
    · obtain ⟨word, -, heq⟩ := (ofClosing_eq_ok_iff (honce.tail rfl)).1 hheader
      cases heq
    · obtain ⟨written, entries, other, htokens, hentries, heq⟩ :=
        entries_of_ofOpening (honce.tail rfl) hheader
      cases heq
      exact ⟨written, entries, congrArg _ htokens, hentries, rfl⟩
    · cases hheader
  · rintro ⟨written, entries, htokens, hentries, rfl⟩
    obtain ⟨⟨first, start⟩, rest, rfl, rfl, hrest⟩ := List.map_eq_cons_iff.1 htokens
    exact ofOpening_of_entries hentries hrest

theorem ofTokens_eq_closing_iff {name : String} (honce : PlacedToken.ClosedOnce tokens) :
    ofTokens stop tokens = .ok (.closing name) ↔
      tokens.map (·.token) = [.slash, .name name, .closing] := by
  constructor
  · intro hheader
    unfold ofTokens at hheader
    split at hheader
    · cases hheader
    · obtain ⟨word, htokens, heq⟩ := (ofClosing_eq_ok_iff (honce.tail rfl)).1 hheader
      cases heq
      exact congrArg _ htokens
    · exact absurd hheader ofOpening_ne_closing
    · cases hheader
  · intro htokens
    obtain ⟨⟨first, start⟩, rest, rfl, rfl, hrest⟩ := List.map_eq_cons_iff.1 htokens
    exact (ofClosing_eq_ok_iff (honce.tail rfl)).2 ⟨name, hrest, rfl⟩

end Header

end Tagmark
