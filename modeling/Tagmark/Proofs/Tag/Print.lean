import Tagmark.Proofs.Tag.Grammar
import Tagmark.Proofs.Tag.Tiling

/-!
Tags in writing. A tag that is printed is read as what it was printed from
(`Header.writtenAs_write`).
-/

namespace Tagmark

def Text.escapeChar (c : Char) : List Char :=
  match c with
  | '\\' => ['\\', '\\']
  | '"' => ['\\', '"']
  | '\n' => ['\\', 'n']
  | '\r' => ['\\', 'r']
  | c => [c]

def Text.escape (text : List Char) : List Char :=
  text.flatMap Text.escapeChar

theorem Text.escape_cons (c : Char) (text : List Char) :
    Text.escape (c :: text) = Text.escapeChar c ++ Text.escape text :=
  List.flatMap_cons

theorem Text.escapeChar_cases (c : Char) :
    (Text.escapeChar c = [c] ∧ c ≠ '\\' ∧ c ≠ '"' ∧ c ≠ '\n') ∨
      ∃ letter, Text.escapeChar c = ['\\', letter] ∧ letter ≠ '\n' ∧ letter ≠ 'u' ∧
        Escape.simple? letter = some c := by
  unfold Text.escapeChar
  split
  · exact .inr ⟨'\\', rfl, by decide, by decide, rfl⟩
  · exact .inr ⟨'"', rfl, by decide, by decide, rfl⟩
  · exact .inr ⟨'n', rfl, by decide, by decide, rfl⟩
  · exact .inr ⟨'r', rfl, by decide, by decide, rfl⟩
  · next hslash hquote hnewline _ => exact .inl ⟨rfl, hslash, hquote, hnewline⟩

theorem Text.newline_not_mem_escape (text : List Char) : '\n' ∉ Text.escape text := by
  intro hmem
  obtain ⟨c, -, hc⟩ := List.mem_flatMap.1 hmem
  rcases Text.escapeChar_cases c with ⟨hsame, -, -, hnewline⟩ | ⟨letter, hescape, hletter, -⟩
  · rw [hsame, List.mem_singleton] at hc
    exact hnewline hc.symm
  · rw [hescape] at hc
    simp only [List.mem_cons, List.not_mem_nil, or_false] at hc
    rcases hc with hslash | hnewline
    · cases hslash
    · exact hletter hnewline.symm

theorem Text.escape_of_no_slash {text : List Char} (hslash : '\\' ∉ Text.escape text) :
    Text.escape text = text := by
  induction text with
  | nil => rfl
  | cons c rest induction =>
      rw [Text.escape_cons] at hslash ⊢
      obtain ⟨hhead, hrest⟩ := not_or.1 (mt List.mem_append.2 hslash)
      rw [induction hrest]
      rcases Text.escapeChar_cases c with ⟨hsame, -⟩ | ⟨letter, hescape, -⟩
      · rw [hsame]
        rfl
      · rw [hescape] at hhead
        exact absurd List.mem_cons_self hhead

namespace Escape

variable (source : String) (index : Nat)

theorem resolve_letter {letter c : Char} (hletter : letter ≠ 'u')
    (hsimple : simple? letter = some c) (rest : List Char) :
    resolve source index ('\\' :: letter :: rest) =
      (resolve source (index + 2) rest).map (c :: ·) := by
  rw [resolve]
  · rw [hsimple]
    cases resolve source (index + 2) rest <;> rfl
  · rintro _ rfl
    exact absurd rfl hletter
  · rintro rfl
    exact absurd rfl hletter

theorem resolve_plain {c : Char} (hslash : c ≠ '\\') (hquote : c ≠ '"') (rest : List Char) :
    resolve source index (c :: rest) = (resolve source (index + 1) rest).map (c :: ·) := by
  rw [resolve]
  · simp only [if_neg hquote]
    cases resolve source (index + 1) rest <;> rfl
  · rintro _ rfl
    exact absurd rfl hslash
  · rintro _ rfl
    exact absurd rfl hslash
  · rintro _ _ rfl
    exact absurd rfl hslash
  · rintro rfl
    exact absurd rfl hslash

theorem resolve_quote (rest : List Char) :
    resolve source index ('"' :: rest) = resolve source (index + 1) rest := by
  rw [resolve]
  · cases resolve source (index + 1) rest <;> rfl
  all_goals simp

theorem resolve_escape (text : List Char) :
    resolve source index (Text.escape text ++ ['"']) = .ok text := by
  induction text generalizing index with
  | nil =>
      rw [show Text.escape [] ++ ['"'] = ['"'] from rfl, resolve_quote, resolve]
  | cons c rest induction =>
      rw [Text.escape_cons, List.append_assoc]
      rcases Text.escapeChar_cases c with ⟨hsame, hslash, hquote, -⟩ | ⟨letter, hescape, -, hu, hc⟩
      · rw [hsame, List.singleton_append, resolve_plain source index hslash hquote, induction]
        rfl
      · rw [hescape, List.cons_append, List.singleton_append,
          resolve_letter source index hu hc, induction]
        rfl

end Escape

namespace Lexeme

theorem doubleQuoted_escape_append (text rest : List Char) :
    doubleQuoted (Text.escape text ++ '"' :: rest) =
      (true, Text.escape text ++ ['"'], rest) := by
  induction text with
  | nil => exact doubleQuoted_quote rest
  | cons c tail induction =>
      rw [Text.escape_cons, List.append_assoc]
      rcases Text.escapeChar_cases c with
        ⟨hsame, hslash, hquote, -⟩ | ⟨letter, hescape, hletter, -, -⟩
      · rw [hsame, List.singleton_append, doubleQuoted_cons hquote hslash, induction]
        rfl
      · rw [hescape, List.cons_append, List.singleton_append, doubleQuoted_escape hletter,
          induction]
        rfl

theorem token_double_escape (text : List Char) :
    token ⟨.double, '"' :: (Text.escape text ++ ['"'])⟩ =
      .ok (.text (String.ofList text) .double) := by
  unfold token
  dsimp only
  split
  · next hslash =>
      rw [unescape, Escape.resolve_quote, Escape.resolve_escape]
  · next hslash =>
      have hplain : '\\' ∉ Text.escape text := fun hmem =>
        hslash (List.mem_cons_of_mem _ (List.mem_append_left _ hmem))
      rw [List.tail_cons, List.dropLast_concat, Text.escape_of_no_slash hplain]

theorem lex_identifier {c d : Char} {text : List Char} (hstart : isNameStart c = true)
    (htext : text.all isNamePart = true) (hd : isNamePart d = false) (rest : List Char) :
    lex c (text ++ d :: rest) = (⟨.name, c :: text⟩, d :: rest) := by
  have hall : ∀ e ∈ text, isNamePart e = true := List.all_eq_true.1 htext
  rw [lex_name hstart, List.takeWhile_append_of_pos hall, List.dropWhile_append_of_pos hall]
  simp [hd]

end Lexeme

def Text.isName (text : String) : Bool :=
  match text.toList with
  | [] => false
  | c :: rest => Lexeme.isNameStart c && rest.all Lexeme.isNamePart

def Value.write : Value → List Char
  | .string text => '"' :: (Text.escape text.toList ++ ['"'])
  | value => value.print.toList

theorem Text.exists_of_isName {name : String} (hname : Text.isName name = true) :
    ∃ c text, name.toList = c :: text ∧ Lexeme.isNameStart c = true ∧
      text.all Lexeme.isNamePart = true := by
  unfold Text.isName at hname
  cases hlist : name.toList with
  | nil =>
      rw [hlist] at hname
      cases hname
  | cons c text =>
      rw [hlist] at hname
      exact ⟨c, text, rfl, Bool.and_eq_true_iff.1 hname⟩

theorem Text.not_mem_of_isName {name : String} (hname : Text.isName name = true) {c : Char}
    (hpart : Lexeme.isNamePart c = false) : c ∉ name.toList := by
  obtain ⟨first, text, hlist, hstart, htext⟩ := Text.exists_of_isName hname
  rw [hlist, List.mem_cons]
  rintro (rfl | hmem)
  · have hfirst : Lexeme.isNamePart c = true := by
      simp only [Lexeme.isNameStart, Bool.or_eq_true] at hstart
      simp only [Lexeme.isNamePart, Char.isAlphanum, Bool.or_eq_true]
      exact .inl (hstart.imp_left .inl)
    rw [hfirst] at hpart
    cases hpart
  · rw [List.all_eq_true.1 htext c hmem] at hpart
    cases hpart

def Value.isWritable : Value → Bool
  | .number _ => false
  | _ => true

def Value.token : Value → Token
  | .string text => .text text .double
  | value => .name value.print

namespace Header

def writeEntry (entry : String × Value) : List Char :=
  entry.1.toList ++ '=' :: (entry.2.write ++ [' '])

/-- The text of a tag after its opening delimiter, with a space after each of its parts. -/
def inside : Header → List Char
  | .opening name attributes selfClosing =>
      ' ' :: (name.toList ++ ' ' :: (attributes.entries.flatMap writeEntry ++
        if selfClosing then ['/', '%', '}'] else ['%', '}']))
  | .closing name => ' ' :: '/' :: (name.toList ++ [' ', '%', '}'])

def write (header : Header) : List Char :=
  '{' :: '%' :: header.inside

def isWritable : Header → Bool
  | .opening name attributes _ =>
      Text.isName name &&
        attributes.entries.all fun entry => Text.isName entry.1 && entry.2.isWritable
  | .closing name => Text.isName name

def entryTokens (entry : String × Value) : List Token :=
  [.name entry.1, .equals, entry.2.token]

/-- The tokens of a tag that mean something, after its opening delimiter. -/
def tokens : Header → List Token
  | .opening name attributes selfClosing =>
      .name name :: (attributes.entries.flatMap entryTokens ++
        [if selfClosing then .selfClosing else .closing])
  | .closing name => [.slash, .name name, .closing]

end Header

/-- In a tag the text reads as these tokens, white space apart, up to and including a closing
delimiter, wherever it stands. -/
def ReadsAs (text : List Char) (tokens : List Token) (after : List Char) : Prop :=
  ∀ start point, ∃ tag, readTag start point text = .ok tag ∧
    (tag.tokens.filter fun placed => !placed.token.isTrivia).map (·.token) = tokens ∧
      tag.after = after

namespace ReadsAs

variable {c d : Char} {rest middle after : List Char} {lexeme : Lexeme} {token : Token}
  {tokens : List Token}

theorem close (hlex : Lexeme.lex c rest = (lexeme, after)) (htoken : lexeme.token = .ok token)
    (htrivia : token.isTrivia = false) (hcloses : lexeme.closes = true) :
    ReadsAs (c :: rest) [token] after := by
  intro start point
  refine ⟨_, readTag_close hlex htoken hcloses, ?_, rfl⟩
  rw [List.filter_cons_of_pos (by simp [htrivia])]
  rfl

theorem cons (hlex : Lexeme.lex c rest = (lexeme, middle)) (htoken : lexeme.token = .ok token)
    (htrivia : token.isTrivia = false) (hcloses : lexeme.closes = false)
    (hmiddle : ReadsAs middle tokens after) : ReadsAs (c :: rest) (token :: tokens) after := by
  intro start point
  obtain ⟨tag, hread, htokens, hafter⟩ := hmiddle start (point.advance lexeme.text)
  refine ⟨{ tag with tokens := ⟨token, point⟩ :: tag.tokens }, ?_, ?_, hafter⟩
  · rw [readTag_cons hlex htoken hcloses, hread]
    rfl
  · rw [List.filter_cons_of_pos (by simp [htrivia]), List.map_cons, htokens]

theorem space (hrest : ReadsAs rest tokens after) : ReadsAs (' ' :: rest) tokens after := by
  intro start point
  obtain ⟨tag, hread, htokens, hafter⟩ := hrest start (point.advance [' '])
  refine ⟨{ tag with tokens := ⟨.blank ' ', point⟩ :: tag.tokens }, ?_, ?_, hafter⟩
  · have hlex : Lexeme.lex ' ' rest = (⟨.blank, [' ']⟩, rest) := rfl
    have htoken : Lexeme.token ⟨.blank, [' ']⟩ = .ok (.blank ' ') := rfl
    rw [readTag_cons hlex htoken rfl, hread]
    rfl
  · exact htokens

theorem name {name : String} (hname : Text.isName name = true)
    (hd : Lexeme.isNamePart d = false) (hrest : ReadsAs (d :: rest) tokens after) :
    ReadsAs (name.toList ++ d :: rest) (.name name :: tokens) after := by
  obtain ⟨c, text, hlist, hstart, htext⟩ := Text.exists_of_isName hname
  have htoken : Lexeme.token ⟨.name, c :: text⟩ = .ok (.name name) := by
    rw [← hlist]
    exact congrArg (fun word => Except.ok (Token.name word)) String.ofList_toList
  rw [hlist]
  exact cons (Lexeme.lex_identifier hstart htext hd rest) htoken rfl rfl hrest

theorem value {value : Value} (hvalue : value.isWritable = true)
    (hd : Lexeme.isNamePart d = false) (hrest : ReadsAs (d :: rest) tokens after) :
    ReadsAs (value.write ++ d :: rest) (value.token :: tokens) after := by
  cases value with
  | string text =>
      have hquoted := Lexeme.doubleQuoted_escape_append text.toList (d :: rest)
      have hlex : Lexeme.lex '"' (Text.escape text.toList ++ '"' :: d :: rest) =
          (⟨.double, '"' :: (Text.escape text.toList ++ ['"'])⟩, d :: rest) := by
        rw [Lexeme.lex_double, hquoted]
        rfl
      have htoken := Lexeme.token_double_escape text.toList
      rw [String.ofList_toList] at htoken
      rw [Value.write, List.cons_append, List.append_assoc]
      exact cons hlex htoken rfl rfl hrest
  | number x => cases hvalue
  | boolean truth =>
      refine ReadsAs.name ?_ hd hrest
      cases truth <;> decide

theorem entries {entries : List (String × Value)}
    (hentries : ∀ entry ∈ entries, Text.isName entry.1 = true ∧ entry.2.isWritable = true)
    (hrest : ReadsAs rest tokens after) :
    ReadsAs (entries.flatMap Header.writeEntry ++ rest)
      (entries.flatMap Header.entryTokens ++ tokens) after := by
  induction entries with
  | nil => exact hrest
  | cons entry more induction =>
      obtain ⟨⟨hname, hvalue⟩, hmore⟩ := List.forall_mem_cons.1 hentries
      have hvalues := (space (induction hmore)).value hvalue (by decide)
      have hequals := cons (c := '=') rfl rfl rfl rfl hvalues
      have hentry := hequals.name hname (by decide)
      simpa [Header.writeEntry, Header.entryTokens] using hentry

end ReadsAs

namespace Header

/-- The text of an opening tag after its delimiter, with entries in the order of a list. -/
def insideOpening (name : String) (entries : List (String × Value)) (selfClosing : Bool) :
    List Char :=
  ' ' :: (name.toList ++ ' ' :: (entries.flatMap writeEntry ++
    if selfClosing then ['/', '%', '}'] else ['%', '}']))

theorem readsAs_insideOpening {name : String} (hname : Text.isName name = true)
    {entries : List (String × Value)}
    (hentries : ∀ entry ∈ entries, Text.isName entry.1 = true ∧ entry.2.isWritable = true)
    (selfClosing : Bool) (after : List Char) :
    ReadsAs (insideOpening name entries selfClosing ++ after)
      (.name name :: (entries.flatMap entryTokens ++
        [if selfClosing then .selfClosing else .closing])) after := by
  have hclose : ReadsAs ((if selfClosing then ['/', '%', '}'] else ['%', '}']) ++ after)
      [if selfClosing then .selfClosing else .closing] after := by
    cases selfClosing with
    | true => exact .close rfl rfl rfl rfl
    | false => exact .close rfl rfl rfl rfl
  have hread := ((ReadsAs.entries hentries hclose).space.name hname (by decide)).space
  simpa [insideOpening] using hread

theorem forall_isWritable_entries {attributes : KeyMap Value}
    (hattributes : (attributes.entries.all fun entry =>
      Text.isName entry.1 && entry.2.isWritable) = true) :
    ∀ entry ∈ attributes.entries, Text.isName entry.1 = true ∧ entry.2.isWritable = true :=
  fun entry hmem => Bool.and_eq_true_iff.1 (List.all_eq_true.1 hattributes entry hmem)

theorem readsAs_inside {header : Header} (hwritable : header.isWritable = true)
    (after : List Char) : ReadsAs (header.inside ++ after) header.tokens after := by
  cases header with
  | opening name attributes selfClosing =>
      obtain ⟨hname, hattributes⟩ := Bool.and_eq_true_iff.1 hwritable
      exact readsAs_insideOpening hname (forall_isWritable_entries hattributes) selfClosing after
  | closing name =>
      have hclose : ReadsAs (['%', '}'] ++ after) [.closing] after := .close rfl rfl rfl rfl
      have hname := hclose.space.name hwritable (by decide)
      have hslash : ∀ tail, name.toList ++ ' ' :: (['%', '}'] ++ after) ≠ '%' :: '}' :: tail := by
        intro tail heq
        obtain ⟨c, text, hlist, hstart, -⟩ := Text.exists_of_isName hwritable
        rw [hlist] at heq
        obtain ⟨rfl, -⟩ := List.cons.inj heq
        exact absurd hstart (by decide)
      have hread := (ReadsAs.cons (Lexeme.lex_slash hslash) rfl rfl rfl hname).space
      simpa [inside, tokens] using hread

theorem value?_token {value : Value} (hvalue : value.isWritable = true) :
    value.token.value? = some value := by
  cases value with
  | string text => rfl
  | number x => cases hvalue
  | boolean truth => cases truth <;> rfl

theorem entries_entryTokens {entries : List (String × Value)}
    (hentries : ∀ entry ∈ entries, entry.2.isWritable = true) :
    Entries (entries.flatMap entryTokens) entries := by
  induction entries with
  | nil => exact .nil
  | cons entry more induction =>
      obtain ⟨hentry, hmore⟩ := List.forall_mem_cons.1 hentries
      exact .cons (value?_token hentry) (induction hmore)

theorem ofTokens_insideOpening {name : String} {entries : List (String × Value)}
    (hentries : ∀ entry ∈ entries, Text.isName entry.1 = true ∧ entry.2.isWritable = true)
    {selfClosing : Bool} {stop : Point} {placed : List PlacedToken}
    (htokens : placed.map (·.token) = .name name :: (entries.flatMap entryTokens ++
      [if selfClosing then .selfClosing else .closing])) :
    ofTokens stop placed = .ok (.opening name (.ofList entries) selfClosing) := by
  obtain ⟨⟨word, start⟩, rest, rfl, rfl, hrest⟩ := List.map_eq_cons_iff.1 htokens
  have hwritten := entries_entryTokens fun entry hmem => (hentries entry hmem).2
  exact ofOpening_of_entries hwritten hrest

theorem ofTokens_eq_ok {header : Header} (hwritable : header.isWritable = true) {stop : Point}
    {placed : List PlacedToken} (htokens : placed.map (·.token) = header.tokens) :
    ofTokens stop placed = .ok header := by
  cases header with
  | opening name attributes selfClosing =>
      obtain ⟨-, hattributes⟩ := Bool.and_eq_true_iff.1 hwritable
      have hentries : KeyMap.ofList attributes.entries = attributes :=
        KeyMap.insertAll_entries attributes
      rw [ofTokens_insideOpening (forall_isWritable_entries hattributes) htokens, hentries]
  | closing name =>
      obtain ⟨⟨first, firstStart⟩, afterSlash, rfl, rfl, hslash⟩ := List.map_eq_cons_iff.1 htokens
      obtain ⟨⟨word, start⟩, afterName, rfl, rfl, hname⟩ := List.map_eq_cons_iff.1 hslash
      obtain ⟨⟨last, stop⟩, rfl, rfl⟩ := List.map_eq_singleton_iff.1 hname
      rfl

theorem segments_of_readsAs {header : Header} {inside after : List Char} {tokens : List Token}
    (hreads : ReadsAs (inside ++ after) tokens after)
    (hheader : ∀ stop placed, List.map (·.token) placed = tokens →
      ofTokens stop placed = .ok header)
    (point : Point) (hafter : Text.cut? ['{', '%'] after = none) :
    ∃ group stop, segments point ('{' :: '%' :: (inside ++ after)) =
        .ok (.tag group :: Segment.ofText stop after) ∧ group.header = .ok header := by
  obtain ⟨tag, hread, htokens, hrest⟩ :=
    hreads (point.advance []) ((point.advance []).advance ['{', '%'])
  refine ⟨tag.group point, tag.stop, ?_, ?_⟩
  · rw [segments_of_cut (Text.cut?_opening (inside ++ after)) hread, hrest,
      segments_of_cut_none tag.stop hafter]
    rfl
  · have hsignificant : (tag.group point).significant = ⟨.opening, point⟩ ::
        tag.tokens.filter fun placed => !placed.token.isTrivia := rfl
    unfold TokenGroup.header
    rw [hsignificant, List.dropWhile_cons_of_neg (by simp), List.tail_cons]
    exact hheader _ _ htokens

theorem exists_insideOpening_eq (name : String) (entries : List (String × Value))
    (selfClosing : Bool) : ∃ front, insideOpening name entries selfClosing = front ++ ['%', '}'] := by
  have hend : ∃ slash, (if selfClosing then ['/', '%', '}'] else ['%', '}']) =
      slash ++ ['%', '}'] := by
    cases selfClosing with
    | true => exact ⟨['/'], rfl⟩
    | false => exact ⟨[], rfl⟩
  obtain ⟨slash, hslash⟩ := hend
  refine ⟨' ' :: (name.toList ++ ' ' :: (entries.flatMap writeEntry ++ slash)), ?_⟩
  rw [insideOpening, hslash]
  simp

theorem newline_not_mem_name {name : String} (hname : Text.isName name = true) :
    '\n' ∉ name.toList :=
  Text.not_mem_of_isName hname (by decide)

theorem newline_not_mem_value {value : Value} (hvalue : value.isWritable = true) :
    '\n' ∉ value.write := by
  cases value with
  | string text =>
      have hescape := Text.newline_not_mem_escape text.toList
      simp [Value.write, hescape]
  | number x => cases hvalue
  | boolean truth => cases truth <;> decide

theorem newline_not_mem_insideOpening {name : String} (hname : Text.isName name = true)
    {entries : List (String × Value)}
    (hentries : ∀ entry ∈ entries, Text.isName entry.1 = true ∧ entry.2.isWritable = true)
    (selfClosing : Bool) : '\n' ∉ insideOpening name entries selfClosing := by
  have hwritten : '\n' ∉ entries.flatMap writeEntry := by
    intro hmem
    obtain ⟨entry, hentry, hmem⟩ := List.mem_flatMap.1 hmem
    obtain ⟨hkey, hvalue⟩ := hentries entry hentry
    simp [writeEntry, newline_not_mem_name hkey, newline_not_mem_value hvalue] at hmem
  cases selfClosing <;> simp [insideOpening, newline_not_mem_name hname, hwritten]

/-- A text that is one tag on one line, which says what the header says, whatever follows it. -/
structure WrittenAs (header : Header) (text : List Char) : Prop where
  delimited : ∃ front, text = '{' :: '%' :: (front ++ ['%', '}'])
  one_line : '\n' ∉ text
  segments_append : ∀ (point : Point) {after : List Char}, Text.cut? ['{', '%'] after = none →
    ∃ group stop, segments point (text ++ after) =
        .ok (.tag group :: Segment.ofText stop after) ∧ group.header = .ok header

theorem writtenAs_opening {name : String} (hname : Text.isName name = true)
    {entries : List (String × Value)}
    (hentries : ∀ entry ∈ entries, Text.isName entry.1 = true ∧ entry.2.isWritable = true)
    (selfClosing : Bool) :
    (opening name (.ofList entries) selfClosing).WrittenAs
      ('{' :: '%' :: insideOpening name entries selfClosing) := by
  obtain ⟨front, hfront⟩ := exists_insideOpening_eq name entries selfClosing
  refine ⟨⟨front, by rw [hfront]⟩, ?_, ?_⟩
  · simp [newline_not_mem_insideOpening hname hentries selfClosing]
  · intro point after hafter
    have hreads := readsAs_insideOpening hname hentries selfClosing after
    exact segments_of_readsAs hreads (fun _ _ => ofTokens_insideOpening hentries) point hafter

theorem writtenAs_write {header : Header} (hwritable : header.isWritable = true) :
    header.WrittenAs header.write := by
  cases header with
  | opening name attributes selfClosing =>
      obtain ⟨hname, hattributes⟩ := Bool.and_eq_true_iff.1 hwritable
      have hwritten :=
        writtenAs_opening hname (forall_isWritable_entries hattributes) selfClosing
      rwa [show KeyMap.ofList attributes.entries = attributes from
        KeyMap.insertAll_entries attributes] at hwritten
  | closing name =>
      refine ⟨⟨' ' :: '/' :: (name.toList ++ [' ']), ?_⟩, ?_, ?_⟩
      · simp [write, inside]
      · simp [write, inside, newline_not_mem_name hwritable]
      · intro point after hafter
        have hreads := readsAs_inside hwritable after
        exact segments_of_readsAs hreads (fun _ _ => ofTokens_eq_ok hwritable) point hafter

end Header

end Tagmark
