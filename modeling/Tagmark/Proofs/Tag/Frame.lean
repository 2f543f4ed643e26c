import Tagmark.Tag.Segment

/-!
What a tag is read as depends on its own text only. A lexeme with white space or a closing delimiter
behind it stays what it is whatever stands there (`Lexeme.lex_frame`), and so does a tag that has
ended (`readTag_frame`).
-/

namespace Tagmark

namespace Lexeme

theorem takeWhile_append_cons {p : Char → Bool} {c : Char} (hc : p c = false)
    (text rest : List Char) : (text ++ c :: rest).takeWhile p = text.takeWhile p := by
  induction text with
  | nil => simp [hc]
  | cons head tail induction => cases hhead : p head <;> simp [hhead, induction]

theorem dropWhile_append_cons {p : Char → Bool} {c : Char} (hc : p c = false)
    (text rest : List Char) :
    (text ++ c :: rest).dropWhile p = text.dropWhile p ++ c :: rest := by
  induction text with
  | nil => simp [hc]
  | cons head tail induction => cases hhead : p head <;> simp [hhead, induction]

def isBreak (c : Char) : Bool :=
  !isNamePart c && c != '.' && c != '+'

theorem isNamePart_of_isDigit {c : Char} (hdigit : c.isDigit = true) : isNamePart c = true := by
  simp [isNamePart, Char.isAlphanum, hdigit]

section Break

variable {stop : Char}

theorem isNamePart_of_isBreak (hstop : isBreak stop = true) : isNamePart stop = false := by
  simp only [isBreak, Bool.and_eq_true, Bool.not_eq_true'] at hstop
  exact hstop.1.1

theorem isDigit_of_isBreak (hstop : isBreak stop = true) : stop.isDigit = false := by
  cases hdigit : stop.isDigit with
  | false => rfl
  | true =>
      have hpart := isNamePart_of_isBreak hstop
      rw [isNamePart_of_isDigit hdigit] at hpart
      cases hpart

theorem ne_of_isBreak (hstop : isBreak stop = true) : stop ≠ '.' ∧ stop ∉ ['+', '-'] := by
  have hpart := isNamePart_of_isBreak hstop
  simp only [isBreak, Bool.and_eq_true, bne_iff_ne] at hstop
  refine ⟨hstop.1.2, ?_⟩
  simp only [List.mem_cons, List.not_mem_nil, or_false, not_or]
  refine ⟨hstop.2, ?_⟩
  rintro rfl
  cases hpart

variable (hstop : isBreak stop = true) (text rest : List Char)

include hstop

theorem digits_append_break :
    digits (text ++ stop :: rest) = ((digits text).1, (digits text).2 ++ stop :: rest) := by
  have hdigit := isDigit_of_isBreak hstop
  unfold digits
  rw [takeWhile_append_cons hdigit, dropWhile_append_cons hdigit]

theorem sign_append_break {signs : List Char} (hsigns : signs ⊆ ['+', '-']) :
    sign signs (text ++ stop :: rest) =
      ((sign signs text).1, (sign signs text).2 ++ stop :: rest) := by
  have hnot : stop ∉ signs := fun hmem => (ne_of_isBreak hstop).2 (hsigns hmem)
  cases text with
  | nil => simp [sign, hnot]
  | cons head tail => by_cases hhead : head ∈ signs <;> simp [sign, hhead]

theorem fraction_append_break :
    fraction (text ++ stop :: rest) = ((fraction text).1, (fraction text).2 ++ stop :: rest) := by
  cases text with
  | nil => simp [fraction, (ne_of_isBreak hstop).1]
  | cons head tail =>
      by_cases hhead : head = '.'
      · subst hhead
        simp only [List.cons_append, fraction, digits_append_break hstop]
        split <;> simp
      · simp [fraction, hhead]

theorem exponent_append_break :
    exponent (text ++ stop :: rest) = ((exponent text).1, (exponent text).2 ++ stop :: rest) := by
  cases text with
  | nil =>
      have hpart := isNamePart_of_isBreak hstop
      have hmark : ¬ (stop = 'e' ∨ stop = 'E') := by
        rintro (rfl | rfl) <;> cases hpart
      simp [exponent, hmark]
  | cons head tail =>
      simp only [List.cons_append, exponent]
      rw [sign_append_break hstop tail rest (List.Subset.refl _), digits_append_break hstop]
      split <;> simp

theorem number_append_break :
    number (text ++ stop :: rest) = ((number text).1, (number text).2 ++ stop :: rest) := by
  unfold number
  dsimp only
  rw [sign_append_break hstop text rest (by simp), digits_append_break hstop,
    fraction_append_break hstop, exponent_append_break hstop]
  split <;> simp

theorem name_append_break :
    ((text ++ stop :: rest).takeWhile isNamePart, (text ++ stop :: rest).dropWhile isNamePart) =
      (text.takeWhile isNamePart, text.dropWhile isNamePart ++ stop :: rest) := by
  have hpart := isNamePart_of_isBreak hstop
  rw [takeWhile_append_cons hpart, dropWhile_append_cons hpart]

end Break

theorem frame_of_break {α : Type} (read : List Char → α × List Char) (written : α → List Char)
    (hbreak : ∀ stop text rest, isBreak stop = true →
      read (text ++ stop :: rest) = ((read text).1, (read text).2 ++ stop :: rest))
    {text front after : List Char} (hwritten : written (read text).1 ++ (read text).2 = text)
    {stop other : Char} (hstop : isBreak stop = true) (hother : isBreak other = true)
    (hrest : (read text).2 = front ++ stop :: after) (more : List Char) :
    read (written (read text).1 ++ (front ++ other :: more)) =
      ((read text).1, front ++ other :: more) := by
  have htext : text = written (read text).1 ++ front ++ stop :: after := by
    rw [List.append_assoc, ← hrest, hwritten]
  have hread := hbreak stop (written (read text).1 ++ front) after hstop
  rw [← htext] at hread
  have hfirst := congrArg Prod.fst hread
  have hsecond := congrArg Prod.snd hread
  rw [hrest] at hsecond
  rw [← List.append_assoc, hbreak other _ more hother, ← hfirst,
    ← List.append_cancel_right hsecond]

theorem doubleQuoted_quote (rest : List Char) :
    doubleQuoted ('"' :: rest) = (true, ['"'], rest) := by
  rw [doubleQuoted]

theorem doubleQuoted_escape {c : Char} (hc : c ≠ '\n') (rest : List Char) :
    doubleQuoted ('\\' :: c :: rest) =
      ((doubleQuoted rest).1, '\\' :: c :: (doubleQuoted rest).2.1, (doubleQuoted rest).2.2) := by
  rw [doubleQuoted, if_neg hc]

theorem doubleQuoted_cons {c : Char} (hquote : c ≠ '"') (hslash : c ≠ '\\') (rest : List Char) :
    doubleQuoted (c :: rest) =
      ((doubleQuoted rest).1, c :: (doubleQuoted rest).2.1, (doubleQuoted rest).2.2) := by
  rw [doubleQuoted]
  · exact hquote
  · rintro rfl
    exact absurd rfl hslash
  · rintro _ _ rfl
    exact absurd rfl hslash

theorem ne_slash_of_cases {c : Char} {rest : List Char} (hlast : c = '\\' → rest = [] → False)
    (hescape : ∀ letter tail, c = '\\' → rest = letter :: tail → False) : c ≠ '\\' := by
  rintro rfl
  cases rest with
  | nil => exact hlast rfl rfl
  | cons letter tail => exact hescape letter tail rfl rfl

theorem doubleQuoted_frame {text : List Char} (hclosed : (doubleQuoted text).1 = true)
    (other : List Char) :
    doubleQuoted ((doubleQuoted text).2.1 ++ other) = (true, (doubleQuoted text).2.1, other) := by
  fun_induction doubleQuoted text with
  | case1 => cases hclosed
  | case2 rest => exact doubleQuoted_quote other
  | case3 => cases hclosed
  | case4 rest => cases hclosed
  | case5 c rest hc closed text after hrest induction =>
      have hframe : doubleQuoted (text ++ other) = (true, text, other) := by
        simpa [hrest] using induction (by simpa [hrest] using hclosed)
      simp only [List.cons_append, doubleQuoted_escape hc, hframe]
  | case6 c rest hquote hlast hescape closed text after hrest induction =>
      have hframe : doubleQuoted (text ++ other) = (true, text, other) := by
        simpa [hrest] using induction (by simpa [hrest] using hclosed)
      have hslash := ne_slash_of_cases hlast hescape
      simp only [List.cons_append, doubleQuoted_cons hquote hslash, hframe]

theorem singleQuoted_frame {text : List Char} (hclosed : (singleQuoted text).1 = true)
    (other : List Char) :
    singleQuoted ((singleQuoted text).2.1 ++ other) = (true, (singleQuoted text).2.1, other) := by
  fun_induction singleQuoted text <;> simp_all [singleQuoted]

theorem lex_slash {rest : List Char} (hrest : ∀ tail, rest ≠ '%' :: '}' :: tail) :
    lex '/' rest = (⟨.slash, ['/']⟩, rest) := by
  rw [lex]
  exact hrest

theorem lex_double (rest : List Char) :
    lex '"' rest =
      (⟨if (doubleQuoted rest).1 then .double else .stray, '"' :: (doubleQuoted rest).2.1⟩,
        (doubleQuoted rest).2.2) := rfl

theorem lex_single (rest : List Char) :
    lex '\'' rest =
      (⟨if (singleQuoted rest).1 then .single else .stray, '\'' :: (singleQuoted rest).2.1⟩,
        (singleQuoted rest).2.2) := rfl

theorem lex_name {c : Char} (hstart : isNameStart c = true) (rest : List Char) :
    lex c rest = (⟨.name, c :: rest.takeWhile isNamePart⟩, rest.dropWhile isNamePart) := by
  unfold lex
  split <;> try exact absurd hstart (by decide)
  rw [if_pos hstart]

theorem isNameStart_of_isDigit {c : Char} (hdigit : c.isDigit = true) :
    isNameStart c = false := by
  have hdigits : (decide (c.val ≥ '0'.val) && decide (c.val ≤ '9'.val)) = true := hdigit
  simp only [Bool.and_eq_true, decide_eq_true_eq, UInt32.le_iff_toNat_le] at hdigits
  have hlow : 48 ≤ c.val.toNat := hdigits.1
  have hhigh : c.val.toNat ≤ 57 := hdigits.2
  cases hname : isNameStart c with
  | false => rfl
  | true =>
      have hletters : ((decide (c.val ≥ 'A'.val ∧ c.val ≤ 'Z'.val) ||
          (decide (c.val ≥ 'a'.val) && decide (c.val ≤ 'z'.val))) || c == '_') = true := hname
      simp only [Bool.or_eq_true, Bool.and_eq_true, decide_eq_true_eq, beq_iff_eq,
        UInt32.le_iff_toNat_le] at hletters
      rcases hletters with (hupper | hlower) | rfl
      · have hletter : 65 ≤ c.val.toNat := hupper.1
        omega
      · have hletter : 97 ≤ c.val.toNat := hlower.1
        omega
      · cases hdigit

theorem lex_number {c : Char} (hstart : c = '-' ∨ c.isDigit = true) (rest : List Char) :
    lex c rest = number (c :: rest) := by
  unfold lex
  split <;> try exact absurd hstart (by decide)
  rw [if_neg, if_pos hstart]
  intro hname
  rcases hstart with rfl | hdigit
  · exact absurd hname (by decide)
  · rw [isNameStart_of_isDigit hdigit] at hname
    cases hname

theorem cons_tail_lex_text (c : Char) (rest : List Char) :
    c :: (lex c rest).1.text.tail = (lex c rest).1.text := by
  have happend := lex_append c rest
  cases htext : (lex c rest).1.text with
  | nil => exact absurd htext (lex_text_ne_nil c rest)
  | cons head tail =>
      rw [htext, List.cons_append] at happend
      rw [List.tail_cons, (List.cons.inj happend).1]

def isSpacing (c : Char) : Bool :=
  [' ', '\t', '\r', '\n'].contains c

inductive Ends : List Char → Prop
  | space {c : Char} {rest : List Char} (hspace : isSpacing c = true) : Ends (c :: rest)
  | closing {rest : List Char} : Ends ('%' :: '}' :: rest)

theorem isBreak_of_isSpacing {c : Char} (hspace : isSpacing c = true) : isBreak c = true := by
  have hcases := List.contains_iff_mem.1 hspace
  simp only [List.mem_cons, List.not_mem_nil, or_false] at hcases
  rcases hcases with rfl | rfl | rfl | rfl <;> rfl

theorem Ends.exists_break {text : List Char} (hends : Ends text) :
    ∃ stop rest, text = stop :: rest ∧ isBreak stop = true := by
  cases hends with
  | space hspace => exact ⟨_, _, rfl, isBreak_of_isSpacing hspace⟩
  | closing => exact ⟨'%', _, rfl, by decide⟩

/-- The texts are the same up to white space or a closing delimiter, which they need not share. Only
a closing delimiter may stand for one, for a slash before it is part of it. -/
def EndsAlike (text other : List Char) : Prop :=
  ∃ front stop stop', text = front ++ stop ∧ other = front ++ stop' ∧ Ends stop ∧ Ends stop' ∧
    ∀ tail, stop' = '%' :: '}' :: tail → ∃ tail, stop = '%' :: '}' :: tail

theorem endsAlike_closing (front rest rest' : List Char) :
    EndsAlike (front ++ '%' :: '}' :: rest) (front ++ '%' :: '}' :: rest') :=
  ⟨front, _, _, rfl, rfl, .closing, .closing, fun _ _ => ⟨rest, rfl⟩⟩

theorem lex_frame {c : Char} {rest other : List Char}
    (halike : EndsAlike (lex c rest).2 other) (hkind : (lex c rest).1.kind ≠ .stray) :
    lex c ((lex c rest).1.text.tail ++ other) = ((lex c rest).1, other) := by
  obtain ⟨front, stop, stop', hrest, rfl, hstop, hother, hclosing⟩ := halike
  obtain ⟨first, after, rfl, hfirst⟩ := hstop.exists_break
  obtain ⟨second, more, rfl, hsecond⟩ := hother.exists_break
  revert hrest hkind
  fun_cases lex c rest <;> intro hkind hrest <;> try rfl
  case case4 hslash =>
      have hother : ∀ tail, front ++ second :: more ≠ '%' :: '}' :: tail := by
        intro tail heq
        rcases front with _ | ⟨head, _ | ⟨next, front⟩⟩
        · obtain ⟨tail', hstop'⟩ := hclosing tail heq
          rw [hstop'] at hrest
          exact hslash tail' hrest
        · obtain ⟨-, hbrace⟩ := List.cons.inj heq
          obtain ⟨rfl, -⟩ := List.cons.inj hbrace
          cases hother with
          | space hspace => cases hspace
        · obtain ⟨rfl, hbrace⟩ := List.cons.inj heq
          obtain ⟨rfl, -⟩ := List.cons.inj hbrace
          exact hslash _ hrest
      exact lex_slash hother
  case case10 closed text after' hquoted =>
      cases closed with
      | false => exact absurd rfl hkind
      | true =>
          have hframe := doubleQuoted_frame (by rw [hquoted]) (front ++ second :: more)
          rw [hquoted] at hframe
          simp only [List.tail_cons, lex_double, hframe]
  case case11 closed text after' hquoted =>
      cases closed with
      | false => exact absurd rfl hkind
      | true =>
          have hframe := singleQuoted_frame (by rw [hquoted]) (front ++ second :: more)
          rw [hquoted] at hframe
          simp only [List.tail_cons, lex_single, hframe]
  case case12 hstart _ _ _ =>
      have hname := frame_of_break
        (fun text => (text.takeWhile isNamePart, text.dropWhile isNamePart)) id
        (fun stop text rest hstop => name_append_break hstop text rest)
        List.takeWhile_append_dropWhile hfirst hsecond hrest more
      simp only [id, Prod.mk.injEq] at hname
      simp only [List.tail_cons, lex_name hstart, hname.1, hname.2]
  case case13 hstart _ _ _ =>
      have hframe := frame_of_break number Lexeme.text
        (fun stop text rest hstop => number_append_break hstop text rest)
        (number_append (c :: rest)) hfirst hsecond hrest more
      have hhead := cons_tail_lex_text c rest
      rw [lex_number hstart] at hhead
      rw [lex_number hstart, ← List.cons_append, hhead]
      exact hframe
  case case14 => exact absurd rfl hkind

theorem number_kind (text : List Char) : (number text).1.kind = .number ∨
    (number text).1.kind = .stray := by
  unfold number
  dsimp only
  split
  · exact .inr rfl
  · exact .inl rfl

theorem eq_of_closes {c : Char} {rest : List Char} (hcloses : (lex c rest).1.closes = true) :
    (c = '%' ∧ ∃ after, rest = '}' :: after) ∨ (c = '/' ∧ ∃ after, rest = '%' :: '}' :: after) := by
  revert hcloses
  fun_cases lex c rest <;> intro hcloses <;> try (simp [closes] at hcloses; done)
  case case2 after => exact .inl ⟨rfl, after, rfl⟩
  case case3 after => exact .inr ⟨rfl, after, rfl⟩
  case case10 closed text after hquoted => cases closed <;> simp [closes] at hcloses
  case case11 closed text after hquoted => cases closed <;> simp [closes] at hcloses
  case case13 =>
      rcases number_kind (c :: rest) with hkind | hkind <;> simp [closes, hkind] at hcloses

theorem kind_ne_stray_of_token {lexeme : Lexeme} {token : Token}
    (htoken : lexeme.token = .ok token) : lexeme.kind ≠ .stray := by
  intro hkind
  rw [Lexeme.token, hkind] at htoken
  cases htoken

end Lexeme

section ReadTag

variable {start point : Point} {c : Char} {rest after : List Char} {lexeme : Lexeme} {token : Token}

theorem readTag_cons (hlex : Lexeme.lex c rest = (lexeme, after))
    (htoken : lexeme.token = .ok token) (hcloses : lexeme.closes = false) :
    readTag start point (c :: rest) =
      (readTag start (point.advance lexeme.text) after).map fun tag =>
        { tag with tokens := ⟨token, point⟩ :: tag.tokens } := by
  rw [readTag]
  simp only [hlex, htoken, hcloses, Bool.false_eq_true, if_false]
  cases readTag start (point.advance lexeme.text) after <;> rfl

theorem readTag_close (hlex : Lexeme.lex c rest = (lexeme, after))
    (htoken : lexeme.token = .ok token) (hcloses : lexeme.closes = true) :
    readTag start point (c :: rest) =
      .ok ⟨[⟨token, point⟩], point.advance lexeme.text, after⟩ := by
  rw [readTag]
  simp only [hlex, htoken, hcloses, if_true]

theorem readTag_error {flaw : TagFlaw} (hlex : Lexeme.lex c rest = (lexeme, after))
    (htoken : lexeme.token = .error flaw) :
    readTag start point (c :: rest) = .error (.invalidTag flaw point) := by
  rw [readTag]
  simp only [hlex, htoken]

end ReadTag

theorem readTag_frame {start point : Point} {text : List Char} {tag : TagRest}
    (hread : readTag start point text = .ok tag) :
    ∃ front, text = front ++ '%' :: '}' :: tag.after ∧
      tag.stop = point.advance (front ++ ['%', '}']) ∧
      ∀ other, readTag start point (front ++ '%' :: '}' :: other) =
        .ok { tag with after := other } := by
  fun_induction readTag start point text generalizing tag with
  | case1 => cases hread
  | case2 => cases hread
  | case3 point c rest lexed token htoken =>
      next hcloses =>
        cases hread
        rcases Lexeme.eq_of_closes hcloses with ⟨rfl, after, rfl⟩ | ⟨rfl, after, rfl⟩
        · exact ⟨[], rfl, rfl, fun other => readTag_close rfl htoken rfl⟩
        · exact ⟨['/'], rfl, rfl, fun other => readTag_close rfl htoken rfl⟩
  | case4 => cases hread
  | case5 point c rest lexed token htoken after hcloses tag' hrest =>
      next induction =>
        cases hread
        obtain ⟨front, hafter, hstop, hframe⟩ := induction hrest
        have happend : lexed.1.text ++ lexed.2 = c :: rest := Lexeme.lex_append c rest
        have hhead : c :: lexed.1.text.tail = lexed.1.text := Lexeme.cons_tail_lex_text c rest
        refine ⟨lexed.1.text ++ front, ?_, ?_, ?_⟩
        · rw [List.append_assoc, ← hafter, happend]
        · rw [hstop, ← Point.advance_append, List.append_assoc]
        · intro other
          have halike := Lexeme.endsAlike_closing front tag'.after other
          rw [← hafter] at halike
          have hlex := Lexeme.lex_frame halike (Lexeme.kind_ne_stray_of_token htoken)
          rw [List.append_assoc, ← hhead, List.cons_append,
            readTag_cons hlex htoken (Bool.eq_false_iff.2 hcloses)]
          change (readTag start after (front ++ '%' :: '}' :: other)).map _ = _
          rw [hframe other]
          rfl

end Tagmark
