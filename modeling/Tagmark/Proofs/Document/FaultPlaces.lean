import Tagmark.Proofs.Document.FenceScope
import Tagmark.Proofs.Tag.Flaws

/-!
Where the faults of a text point. Each points right at what it names, a tag or a token in one, except
that a code fence is reported where its line starts, in front of its indent
(`Document.fault_begins_iff`).
-/

namespace Tagmark

theorem Point.advance_later (point : Point) {text : List Char} (htext : text ≠ []) :
    point.line < (point.advance text).line ∨
      point.line = (point.advance text).line ∧ point.column < (point.advance text).column := by
  induction text generalizing point with
  | nil => exact absurd rfl htext
  | cons c rest induction =>
      have hstep : point.line < (point.step c).line ∨
          point.line = (point.step c).line ∧ point.column < (point.step c).column := by
        unfold step
        split
        · exact .inl (Nat.lt_succ_self _)
        · exact .inr ⟨rfl, Nat.lt_succ_self _⟩
      rw [advance_cons]
      by_cases hrest : rest = []
      · rw [hrest]
        exact hstep
      · have hlater := induction (point.step c) hrest
        omega

theorem Point.append_inj_of_column {point : Point} {left left' right right' : List Char}
    (hline : (point.advance left).line = (point.advance left').line)
    (hcolumn : (point.advance left).column = (point.advance left').column)
    (heq : left ++ right = left' ++ right') : left = left' ∧ right = right' := by
  have hmore : ∀ {left more : List Char},
      (point.advance left).line = (point.advance (left ++ more)).line →
      (point.advance left).column = (point.advance (left ++ more)).column → more = [] := by
    intro left more hline hcolumn
    by_contra hmore
    have hlater := (point.advance left).advance_later hmore
    rw [← Point.advance_append] at hlater
    omega
  rcases List.append_eq_append_iff.1 heq with ⟨more, rfl, rfl⟩ | ⟨more, rfl, rfl⟩
  · obtain rfl := hmore hline hcolumn
    simp
  · obtain rfl := hmore hline.symm hcolumn.symm
    simp

/-- At `start` in the text a tag is opened, and what is read after its opening delimiter comes to
`result`. -/
def Text.ReadsTag (point : Point) (text : List Char) (start : Point)
    (result : Except Fault TagRest) : Prop :=
  ∃ before body after, text = before ++ '{' :: '%' :: (body ++ after) ∧
    start = point.advance before ∧ readTag start (start.advance ['{', '%']) body = result

section ReadsTag

variable {point start : Point} {text : List Char} {result : Except Fault TagRest}

theorem Text.ReadsTag.behind {front : List Char}
    (htag : ReadsTag (point.advance front) text start result) :
    ReadsTag point (front ++ text) start result := by
  obtain ⟨before, body, after, rfl, rfl, hread⟩ := htag
  exact ⟨front ++ before, body, after, (List.append_assoc ..).symm,
    (Point.advance_append ..).symm, hread⟩

theorem Text.ReadsTag.append (htag : ReadsTag point text start result) (rest : List Char) :
    ReadsTag point (text ++ rest) start result := by
  obtain ⟨before, body, after, rfl, rfl, hread⟩ := htag
  exact ⟨before, body, after ++ rest, by simp, rfl, hread⟩

theorem exists_readsTag_of_segments_error {fault : Fault}
    (hsegments : segments point text = .error fault) :
    ∃ start, Text.ReadsTag point text start (.error fault) := by
  fun_induction segments point text with
  | case1 => cases hsegments
  | case2 point text before after hcut opening other hread =>
      cases hsegments
      refine ⟨opening, before, after, [], ?_, rfl, hread⟩
      simpa using Text.cut?_eq_some hcut
  | case3 point text before after hcut opening tag hread other hrest induction =>
      cases hsegments
      obtain ⟨start, hlater⟩ := induction hrest
      obtain ⟨front, rfl, hstop, -⟩ := TokenGroup.readsFrom_of_readTag hread
      have hplace : tag.stop =
          point.advance (before ++ '{' :: '%' :: (front ++ ['%', '}'])) := by
        rw [hstop, Point.advance_append]
      have htext : text = before ++ '{' :: '%' :: (front ++ ['%', '}']) ++ tag.after := by
        simpa using Text.cut?_eq_some hcut
      rw [hplace] at hlater
      exact ⟨start, htext ▸ hlater.behind⟩
  | case4 => cases hsegments

theorem exists_readsTag_of_tag_mem {cut : List Segment} {group : TokenGroup}
    (hsegments : segments point text = .ok cut) (hmem : .tag group ∈ cut) :
    ∃ start tag, Text.ReadsTag point text start (.ok tag) ∧ group = tag.group start := by
  obtain ⟨before, after, tag, _, htext, hread, hgroup, -⟩ := segments_around hsegments hmem
  exact ⟨_, tag, ⟨before, after, [], by simpa using htext, rfl, hread⟩, hgroup⟩

namespace Scan.Reads

variable {fence : Option Fence} {scan : Scan}

theorem exists_readsTag_of_fault (hreads : Reads fence point text scan) {fault : Fault}
    (hmem : .fault fault ∈ scan.items) :
    ∃ start, Text.ReadsTag point text start (.error fault) := by
  induction hreads with
  | done => cases hmem
  | line _ _ _ induction =>
      rcases List.mem_cons.1 hmem with hhere | hlater
      · cases hhere
      · obtain ⟨start, htag⟩ := induction hlater
        exact ⟨start, htag.behind⟩
  | tags _ _ _ _ induction =>
      rcases List.mem_append.1 hmem with hhere | hlater
      · exact absurd hhere Segment.fault_not_mem_items
      · obtain ⟨start, htag⟩ := induction hlater
        exact ⟨start, htag.behind⟩
  | fault _ _ hcut =>
      cases List.mem_singleton.1 hmem
      obtain ⟨start, htag⟩ := exists_readsTag_of_segments_error hcut
      exact ⟨start, htag.append _⟩

theorem exists_readsTag_of_tag (hreads : Reads fence point text scan) {group : TokenGroup}
    (hmem : .tag group ∈ scan.items) :
    ∃ start tag, Text.ReadsTag point text start (.ok tag) ∧ group = tag.group start := by
  obtain ⟨front, source, rest, cut, _, _, rfl, -, -, hline, hgroup, -⟩ := hreads.around hmem
  obtain ⟨start, tag, htag, heq⟩ := exists_readsTag_of_tag_mem hline.cut_eq hgroup
  exact ⟨start, tag, (htag.append rest).behind, heq⟩

end Scan.Reads

end ReadsTag

def Fault.IsAt (before after : List Char) : Fault → Prop
  | .unterminatedTag _ => ['{', '%'] <+: after
  | .unclosedTag name _ => ['{', '%'] <+: after ∧ ∃ attributes source, source <+: after ∧
      (Header.opening name attributes false).WrittenAt (Point.origin.advance before) source
  | .unexpectedClosing name _ => ['{', '%'] <+: after ∧ ∃ source, source <+: after ∧
      (Header.closing name).WrittenAt (Point.origin.advance before) source
  | .invalidTag flaw _ => ∃ (outside front behind beyond : List Char) (lexeme : Lexeme),
      before = outside ++ '{' :: '%' :: front ∧ after = lexeme.text ++ (behind ++ beyond) ∧
        lexeme.text ≠ [] ∧ lexeme.Follows behind front ∧ flaw.IsOf lexeme
  | .unclosedFence _ _ => ['`', '`', '`'] <+: after ∨ ['~', '~', '~'] <+: after
  | _ => False

def Fault.StandsIn (fault : Fault) (text : List Char) : Prop :=
  ∃ before after, text = before ++ after ∧ fault.place? = some (Point.origin.advance before) ∧
    fault.IsAt before after

namespace Fault

variable {text : List Char} {start : Point} {tag : TagRest} {fault : Fault}

theorem standsIn_of_foundIn {before body after : List Char}
    (hfound : fault.FoundIn ((Point.origin.advance before).advance ['{', '%']) body) :
    fault.StandsIn (before ++ '{' :: '%' :: (body ++ after)) := by
  obtain ⟨flaw, lexeme, _, rfl, ⟨front, behind, rfl, rfl, hfollows⟩, hof⟩ := hfound
  refine ⟨before ++ '{' :: '%' :: front, lexeme.text ++ (behind ++ after), by simp, ?_,
    before, front, behind, after, lexeme, rfl, rfl, hfollows.ne_nil, hfollows, hof⟩
  rw [Point.advance_append]
  rfl

theorem standsIn_of_error (htag : Text.ReadsTag .origin text start (.error fault)) :
    fault.StandsIn text := by
  obtain ⟨before, body, after, rfl, rfl, hread⟩ := htag
  rcases foundIn_of_readTag hread with rfl | hfound
  · exact ⟨before, _, rfl, rfl, _, rfl⟩
  · exact standsIn_of_foundIn hfound

theorem standsIn_of_header_error (htag : Text.ReadsTag .origin text start (.ok tag))
    (hheader : (tag.group start).header = .error fault) : fault.StandsIn text := by
  obtain ⟨before, body, after, rfl, rfl, hread⟩ := htag
  exact standsIn_of_foundIn (foundIn_of_header hread hheader)

theorem exists_writtenAt (htag : Text.ReadsTag .origin text start (.ok tag)) {header : Header}
    (hheader : (tag.group start).header = .ok header) :
    ∃ before after, text = before ++ after ∧ start = Point.origin.advance before ∧
      ['{', '%'] <+: after ∧ ∃ source, source <+: after ∧ header.WrittenAt start source := by
  obtain ⟨before, body, after, rfl, rfl, hread⟩ := htag
  obtain ⟨front, rfl, -, hreads⟩ := TokenGroup.readsFrom_of_readTag hread
  refine ⟨before, _, rfl, rfl, ⟨_, rfl⟩, _, ⟨tag.after ++ after, ?_⟩, _, hreads, hheader⟩
  simp

theorem standsIn_of_opening (htag : Text.ReadsTag .origin text start (.ok tag)) {name : String}
    {attributes : KeyMap Value}
    (hheader : (tag.group start).header = .ok (.opening name attributes false)) :
    (Fault.unclosedTag name start).StandsIn text := by
  obtain ⟨before, after, rfl, rfl, hopens, source, hsource, hwritten⟩ :=
    exists_writtenAt htag hheader
  exact ⟨before, after, rfl, rfl, hopens, attributes, source, hsource, hwritten⟩

theorem standsIn_of_closing (htag : Text.ReadsTag .origin text start (.ok tag)) {name : String}
    (hheader : (tag.group start).header = .ok (.closing name)) :
    (Fault.unexpectedClosing name start).StandsIn text := by
  obtain ⟨before, after, rfl, rfl, hopens, source, hsource, hwritten⟩ :=
    exists_writtenAt htag hheader
  exact ⟨before, after, rfl, rfl, hopens, source, hsource, hwritten⟩

end Fault

theorem Text.takeWhile_eq_replicate (c : Char) (text : List Char) :
    text.takeWhile (· == c) = List.replicate (text.takeWhile (· == c)).length c :=
  List.eq_replicate_iff.2 ⟨rfl, fun _ hmem =>
    eq_of_beq (List.all_eq_true.1 (List.all_takeWhile (p := (· == c)) (l := text)) _ hmem)⟩

theorem Fence.exists_of_run? {mark : Char} {text : List Char} {length : Nat}
    (hrun : run? mark text = some length) :
    ∃ indent rest, text = List.replicate indent ' ' ++ (List.replicate length mark ++ rest) ∧
      indent ≤ 3 ∧ 3 ≤ length := by
  unfold run? unindent? at hrun
  split at hrun
  · next hindent =>
      rw [Option.bind_eq_bind, Option.bind_some] at hrun
      dsimp only at hrun
      split at hrun
      · cases hrun
      · next hlong =>
          cases hrun
          refine ⟨_, (text.dropWhile (· == ' ')).dropWhile (· == mark), ?_, hindent, ?_⟩
          · rw [← Text.takeWhile_eq_replicate, ← Text.takeWhile_eq_replicate,
              List.takeWhile_append_dropWhile, List.takeWhile_append_dropWhile]
          · rw [Bool.or_eq_true, not_or, decide_eq_true_eq] at hlong
            omega
  · cases hrun

theorem Fence.exists_of_ofLine? {line : Line} {opened : Fence}
    (hopens : ofLine? line = some opened) :
    ∃ indent rest, line.text = List.replicate indent ' ' ++ rest ∧ indent ≤ 3 ∧
      (['`', '`', '`'] <+: rest ∨ ['~', '~', '~'] <+: rest) := by
  obtain ⟨ending, htext, -⟩ := Text.exists_trimEnd_append line.text
  have hmarks : ∀ {mark : Char} {length : Nat}, run? mark (Text.trimEnd line.text) = some length →
      ∃ indent rest, line.text = List.replicate indent ' ' ++ rest ∧ indent ≤ 3 ∧
        [mark, mark, mark] <+: rest := by
    intro mark length hrun
    obtain ⟨indent, rest, htrimmed, hindent, hlength⟩ := exists_of_run? hrun
    refine ⟨indent, List.replicate length mark ++ (rest ++ ending), ?_, hindent, ?_⟩
    · rw [htext, htrimmed]
      simp
    · obtain ⟨more, rfl⟩ := Nat.exists_eq_add_of_le hlength
      exact ⟨List.replicate more mark ++ (rest ++ ending), by
        rw [← List.replicate_append_replicate]
        simp⟩
  unfold ofLine? at hopens
  rcases Option.or_eq_some_iff.1 hopens with hfound | ⟨-, hfound⟩
  · obtain ⟨length, hrun, -⟩ := Option.map_eq_some_iff.1 hfound
    obtain ⟨indent, rest, hline, hindent, hrest⟩ := hmarks hrun
    exact ⟨indent, rest, hline, hindent, .inl hrest⟩
  · obtain ⟨length, hrun, -⟩ := Option.map_eq_some_iff.1 hfound
    obtain ⟨indent, rest, hline, hindent, hrest⟩ := hmarks hrun
    exact ⟨indent, rest, hline, hindent, .inr hrest⟩

theorem Item.LaidOver.exists_of_content {run : Bool} {point : Point} {text : List Char}
    {items : List Item} (hlaid : LaidOver run point text items)
    (hclean : ∀ fault, .fault fault ∉ items) {line : Line} (hmem : .content line ∈ items) :
    ∃ before after, text = before ++ (line.text ++ after) ∧ line.start = point.advance before := by
  induction hlaid with
  | nil => cases hmem
  | @content _ point gap rest first _ _ _ hstart _ induction =>
      rcases List.mem_cons.1 hmem with hhere | hlater
      · cases hhere
        exact ⟨gap, rest, rfl, hstart⟩
      · obtain ⟨before, after, rfl, hline⟩ :=
          induction (fun fault h => hclean fault (List.mem_cons_of_mem _ h)) hlater
        refine ⟨gap ++ (first.text ++ before), after, by simp, ?_⟩
        rw [hline, hstart, ← Point.advance_append, ← Point.advance_append]
  | @tag _ point gap source _ _ _ _ _ _ induction =>
      rcases List.mem_cons.1 hmem with hhere | hlater
      · cases hhere
      · obtain ⟨before, after, rfl, hline⟩ :=
          induction (fun fault h => hclean fault (List.mem_cons_of_mem _ h)) hlater
        refine ⟨gap ++ (source ++ before), after, by simp, ?_⟩
        rw [hline, ← Point.advance_append, List.append_assoc]
  | fault => exact absurd List.mem_cons_self (hclean _)

/-- Marks are refused for a fault among them, for a closing tag, or for a tag that is left open. -/
inductive Mark.Refused (fence : Option Fence) (stack : List OpenTag) (marks : List Mark) :
    Fault → Prop
  | fault {fault : Fault} (hmem : .fault fault ∈ marks) : Refused fence stack marks fault
  | closing {name : String} {span : Span} (hmem : .closing name span ∈ marks) :
      Refused fence stack marks (.unexpectedClosing name span.start)
  | unclosed {tag : OpenTag}
      (htag : tag ∈ stack ∨ .opening tag.name tag.attributes tag.start ∈ marks) :
      Refused fence stack marks (unclosed fence tag)

theorem Mark.Refused.cons {fence : Option Fence} {stack others : List OpenTag} {mark : Mark}
    {rest : List Mark} {fault : Fault} (hrest : Refused fence others rest fault)
    (hstack : ∀ tag ∈ others, tag ∈ stack ∨ mark = .opening tag.name tag.attributes tag.start) :
    Refused fence stack (mark :: rest) fault := by
  cases hrest with
  | fault hmem => exact .fault (List.mem_cons_of_mem _ hmem)
  | closing hmem => exact .closing (List.mem_cons_of_mem _ hmem)
  | unclosed htag =>
      refine .unclosed ?_
      rcases htag with hopen | hlater
      · rcases hstack _ hopen with hhere | rfl
        · exact .inl hhere
        · exact .inr List.mem_cons_self
      · exact .inr (List.mem_cons_of_mem _ hlater)

theorem Mark.refused_of_assemble {fence : Option Fence} {stack : List OpenTag} {nodes : List Node}
    {marks : List Mark} {fault : Fault} (htree : assemble fence stack nodes marks = .error fault) :
    Refused fence stack marks fault := by
  induction marks generalizing stack nodes with
  | nil =>
      cases stack with
      | nil => cases htree
      | cons innermost outer =>
          cases htree
          exact .unclosed (.inl List.mem_cons_self)
  | cons mark rest induction =>
      cases mark with
      | content value span => exact (induction htree).cons fun _ => .inl
      | leaf tag => exact (induction htree).cons fun _ => .inl
      | opening name attributes start =>
          refine (induction htree).cons fun tag hmem => ?_
          rcases List.mem_cons.1 hmem with rfl | houter
          · exact .inr rfl
          · exact .inl houter
      | closing name span =>
          cases stack with
          | nil =>
              cases htree
              exact .closing List.mem_cons_self
          | cons innermost outer =>
              rw [assemble] at htree
              split at htree
              · exact (induction htree).cons fun _ hmem => .inl (List.mem_cons_of_mem _ hmem)
              · cases htree
                exact .closing List.mem_cons_self
      | fault other =>
          cases htree
          exact .fault List.mem_cons_self

def Fault.isFence : Fault → Bool
  | .unclosedFence _ _ => true
  | _ => false

/-- What the fault names begins behind `indent` spaces at its place; only a fence is indented. -/
structure Fault.StandsBehind (fault : Fault) (text : List Char) (indent : Nat) : Prop where
  short : indent ≤ 3
  fence : fault.isFence = false → indent = 0
  stands : ∃ before after, text = before ++ (List.replicate indent ' ' ++ after) ∧
    fault.place? = some (Point.origin.advance before) ∧
    fault.IsAt (before ++ List.replicate indent ' ') after

theorem Fault.standsBehind_zero {fault : Fault} {text : List Char} :
    fault.StandsBehind text 0 ↔ fault.StandsIn text := by
  constructor
  · intro hstands
    simpa [StandsIn] using hstands.stands
  · intro hstands
    exact ⟨Nat.zero_le _, fun _ => rfl, by simpa [StandsIn] using hstands⟩

theorem Fault.StandsIn.behind {fault : Fault} {text : List Char} (hstands : fault.StandsIn text) :
    ∃ indent, fault.StandsBehind text indent :=
  ⟨0, standsBehind_zero.2 hstands⟩

namespace Scan.Reads

variable {text : List Char} {scan : Scan}

theorem standsBehind_of_unclosedFence {before : List Char}
    (hreads : Reads none (Point.origin.advance before) text scan) {name : String} {place : Point}
    (htree : assemble scan.fence [] [] (Mark.ofItems scan.items) =
      .error (.unclosedFence name place)) {opened : Fence} (hfence : scan.fence = some opened) :
    ∃ indent, (Fault.unclosedFence name opened.start).StandsBehind (before ++ text) indent := by
  have hclean : ∀ fault, .fault fault ∉ scan.items := by
    intro fault hmem
    have hmarks := assemble_clean htree fun fault hmem =>
      Mark.isOfTag_of_mem hmem fun _ => hreads.isOfTag
    exact hmarks fault (Mark.fault_mem_of_item hmem)
  rcases Item.exists_of_fenceAfter (hreads.fence_eq.symm.trans hfence) with
    hnone | ⟨line, hline, hopens⟩
  · cases hnone
  · obtain ⟨front, after, rfl, hstart⟩ := (hreads.laidOver false).exists_of_content hclean hline
    obtain ⟨indent, rest, hindented, hindent, hmarks⟩ := Fence.exists_of_ofLine? hopens
    refine ⟨indent, hindent, fun h => Bool.noConfusion h,
      before ++ front, rest ++ after, ?_, ?_, ?_⟩
    · rw [hindented]
      simp
    · rw [Point.advance_append, ← hstart, ← Fence.start_of_ofLine? hopens]
      rfl
    · exact hmarks.imp (fun h => h.trans (List.prefix_append _ _))
        fun h => h.trans (List.prefix_append _ _)

theorem standsBehind_of_assemble {before : List Char}
    (hreads : Reads none (Point.origin.advance before) text scan) {fault : Fault}
    (htree : assemble scan.fence [] [] (Mark.ofItems scan.items) = .error fault) :
    ∃ indent, fault.StandsBehind (before ++ text) indent := by
  cases Mark.refused_of_assemble htree with
  | fault hmem =>
      rcases Mark.exists_of_fault_mem hmem with hitem | ⟨group, hgroup, hheader⟩
      · obtain ⟨start, htag⟩ := hreads.exists_readsTag_of_fault hitem
        exact (Fault.standsIn_of_error htag.behind).behind
      · obtain ⟨start, tag, htag, rfl⟩ := hreads.exists_readsTag_of_tag hgroup
        exact (Fault.standsIn_of_header_error htag.behind hheader).behind
  | closing hmem =>
      obtain ⟨group, hgroup, hheader, rfl⟩ := Mark.exists_of_closing_mem hmem
      obtain ⟨start, tag, htag, rfl⟩ := hreads.exists_readsTag_of_tag hgroup
      exact (Fault.standsIn_of_closing htag.behind hheader).behind
  | @unclosed innermost htag =>
      obtain ⟨group, hgroup, hheader, hstart⟩ :=
        Mark.exists_of_opening_mem (htag.resolve_left List.not_mem_nil)
      cases hfence : scan.fence with
      | none =>
          obtain ⟨start, tag, htag, rfl⟩ := hreads.exists_readsTag_of_tag hgroup
          rw [unclosed, ← hstart]
          exact (Fault.standsIn_of_opening htag.behind hheader).behind
      | some opened =>
          have hfault : unclosed scan.fence innermost =
              .unclosedFence innermost.name opened.start := by
            rw [hfence]
            rfl
          exact hreads.standsBehind_of_unclosedFence (htree.trans (congrArg _ hfault)) hfence

end Scan.Reads

/-- What the fault names begins at a line and column of the text. -/
def Fault.BeginsAt (fault : Fault) (text : List Char) (line column : Nat) : Prop :=
  ∃ before after, text = before ++ after ∧ (Point.origin.advance before).line = line ∧
    (Point.origin.advance before).column = column ∧ fault.IsAt before after

theorem Fault.not_isAt_indent {name : String} {place : Point} {before after : List Char}
    (indent : Nat) :
    ¬ (Fault.unclosedFence name place).IsAt before (List.replicate (indent + 1) ' ' ++ after) := by
  rintro (⟨rest, hrest⟩ | ⟨rest, hrest⟩) <;> simp [List.replicate_succ] at hrest

namespace Document

theorem standsBehind_of_parse {text : String} {fault : Fault} {place : Point}
    (hparse : parse text = .error fault) (hplace : fault.place? = some place) :
    ∃ indent, fault.StandsBehind text.toList indent := by
  cases hcut : cutFrontmatter (Line.ofText text.toList) with
  | error other =>
      unfold parse at hparse
      rw [hcut, eq_of_cutFrontmatter hcut] at hparse
      cases hparse
      cases hplace
  | ok cut =>
      obtain ⟨frontmatter, body⟩ := cut
      obtain ⟨block, lines, hsplit, -, hreads⟩ := reads_of_cut hcut
      have htext : text.toList = block.flatten ++ lines.flatten := by
        rw [← List.flatten_append, ← hsplit, Text.flatten_splitLines]
      rw [htext]
      exact hreads.standsBehind_of_assemble (assemble_of_parse_error hcut hparse)

/-- A text that is refused at a place is refused where the tag or the token begins that the fault
names, or, for a code fence that is never closed, where the line begins that opens it; this is where
the fence begins exactly if it is not indented. -/
theorem fault_begins_iff {text : String} {fault : Fault} {place : Point}
    (hparse : parse text = .error fault) (hplace : fault.place? = some place) :
    ∃ indent, fault.StandsBehind text.toList indent ∧
      (fault.BeginsAt text.toList place.line place.column ↔ indent = 0) := by
  obtain ⟨indent, hstands⟩ := standsBehind_of_parse hparse hplace
  refine ⟨indent, hstands, ?_, ?_⟩
  · rintro ⟨before', after', htext', hline, hcolumn, hat⟩
    obtain ⟨before, after, htext, hstart, -⟩ := hstands.stands
    obtain rfl := Option.some.inj (hplace.symm.trans hstart)
    obtain ⟨-, rfl⟩ := Point.append_inj_of_column hline hcolumn (htext'.symm.trans htext)
    cases indent with
    | zero => rfl
    | succ indent =>
        cases fault with
        | unclosedFence name start => exact absurd hat (Fault.not_isAt_indent indent)
        | _ => exact hstands.fence rfl
  · rintro rfl
    obtain ⟨before, after, htext, hstart, hat⟩ := Fault.standsBehind_zero.1 hstands
    obtain rfl := Option.some.inj (hplace.symm.trans hstart)
    exact ⟨before, after, htext, rfl, rfl, hat⟩

theorem fault_begins_stray :
    let text := "é\n \x7b% a b=\"ü\" ! %\x7d\n"
    let fault : Fault := .invalidTag (.strayText "!") ⟨2, 13, 16⟩
    parse text = .error fault ∧ fault.place? = some ⟨2, 13, 16⟩ ∧
      fault.BeginsAt text.toList 2 13 := by
  intro text fault
  have hparse : parse text = .error fault := parse_of_fault? (by decide +kernel)
  obtain ⟨indent, hstands, hbegins⟩ := fault_begins_iff hparse rfl
  exact ⟨hparse, rfl, hbegins.2 (hstands.fence rfl)⟩

theorem fence_behind_indent :
    let text := "\x7b% a %\x7d\n  ```\n"
    let fault : Fault := .unclosedFence "a" ⟨2, 1, 8⟩
    parse text = .error fault ∧ ¬ fault.BeginsAt text.toList 2 1 ∧
      fault.BeginsAt text.toList 2 3 := by
  intro text fault
  refine ⟨parse_of_fault? (by decide +kernel), ?_, ?_⟩
  · rintro ⟨before, after, htext, hline, hcolumn, hat⟩
    have hown : text.toList = "\x7b% a %\x7d\n".toList ++ (List.replicate 2 ' ' ++ "```\n".toList) := by
      decide +kernel
    obtain ⟨-, rfl⟩ := @Point.append_inj_of_column .origin _ _ _ _ hline hcolumn
      (htext.symm.trans hown)
    exact Fault.not_isAt_indent 1 hat
  · exact ⟨"\x7b% a %\x7d\n  ".toList, "```\n".toList, by decide +kernel, by decide +kernel,
      by decide +kernel, .inl ⟨['\n'], by decide +kernel⟩⟩

end Document

end Tagmark
