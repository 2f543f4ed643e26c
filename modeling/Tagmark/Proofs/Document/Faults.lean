import Tagmark.Proofs.Document.Brackets
import Tagmark.Proofs.Document.Reading
import Tagmark.Proofs.Tag.Header

/-!
Where the marks of a body come from. Its faults are those of single tags (`Scan.Reads.isOfTag`), and
a body that is refused for a fence has none (`assemble_clean`).
-/

namespace Tagmark

theorem isOfTag_of_readTag {start point : Point} {text : List Char} {fault : Fault}
    (hread : readTag start point text = .error fault) : fault.isOfTag = true := by
  fun_induction readTag start point text with
  | case1 =>
      cases hread
      rfl
  | case2 =>
      cases hread
      rfl
  | case3 => cases hread
  | case4 point c rest lexed token htoken next hcloses other hrest induction =>
      cases hread
      exact induction hrest
  | case5 => cases hread

theorem isOfTag_of_segments {start : Point} {text : List Char} {fault : Fault}
    (hsegments : segments start text = .error fault) : fault.isOfTag = true := by
  fun_induction segments start text with
  | case1 => cases hsegments
  | case2 start text before after hcut opening other hread =>
      cases hsegments
      exact isOfTag_of_readTag hread
  | case3 start text before after hcut opening tag hread other hrest induction =>
      cases hsegments
      exact induction hrest
  | case4 => cases hsegments

theorem Segment.fault_not_mem_items {cut : List Segment} {fault : Fault} :
    .fault fault ∉ Segment.items cut := by
  induction cut with
  | nil => exact List.not_mem_nil
  | cons segment rest induction =>
      cases segment with
      | tag group => simpa [Segment.items] using induction
      | text between start =>
          rw [Segment.items]
          split
          · exact induction
          · simpa using induction

theorem Scan.Reads.isOfTag {fence : Option Fence} {point : Point} {text : List Char} {scan : Scan}
    (hreads : Scan.Reads fence point text scan) {fault : Fault}
    (hmem : .fault fault ∈ scan.items) : fault.isOfTag = true := by
  induction hreads with
  | done => cases hmem
  | line _ _ _ induction =>
      rcases List.mem_cons.1 hmem with hhere | hlater
      · cases hhere
      · exact induction hlater
  | tags _ _ _ _ induction =>
      rcases List.mem_append.1 hmem with hhere | hlater
      · exact absurd hhere Segment.fault_not_mem_items
      · exact induction hlater
  | fault _ _ hcut =>
      cases List.mem_singleton.1 hmem
      exact isOfTag_of_segments hcut

namespace Mark

theorem mem_of_mem_joinContent {items : List Item} {item : Item} (hmem : item ∈ joinContent items)
    (hitem : ∀ line, item ≠ .content line) : item ∈ items := by
  induction items with
  | nil => cases hmem
  | cons first rest induction =>
      cases first with
      | content line =>
          refine List.mem_cons_of_mem _ (induction ?_)
          rw [joinContent] at hmem
          split at hmem
          · next next after hjoin =>
              rw [hjoin]
              rcases List.mem_cons.1 hmem with hhere | hlater
              · exact absurd hhere (hitem _)
              · exact List.mem_cons_of_mem _ hlater
          · rcases List.mem_cons.1 hmem with hhere | hlater
            · exact absurd hhere (hitem _)
            · exact hlater
      | tag group =>
          rcases List.mem_cons.1 hmem with rfl | hlater
          · exact List.mem_cons_self
          · exact List.mem_cons_of_mem _ (induction hlater)
      | fault fault =>
          rcases List.mem_cons.1 hmem with rfl | hlater
          · exact List.mem_cons_self
          · exact List.mem_cons_of_mem _ (induction hlater)

variable {items : List Item}

theorem exists_of_content_mem {value : String} {span : Span}
    (hmem : .content value span ∈ ofItems items) :
    ∃ line, .content line ∈ joinContent items ∧ value.toList = Text.dropLineEnd line.text ∧
      span.start = line.start := by
  obtain ⟨item, hitem, hmark⟩ := List.mem_filterMap.1 hmem
  cases item with
  | content line =>
      refine ⟨line, hitem, ?_⟩
      simp only [ofItem?] at hmark
      split at hmark <;> cases hmark
      exact ⟨String.toList_ofList, rfl⟩
  | tag group =>
      simp only [ofItem?] at hmark
      split at hmark <;> cases hmark
  | fault fault => cases hmark

theorem exists_of_mem {mark : Mark} (hmem : mark ∈ ofItems items)
    (hmark : ∀ value span, mark ≠ .content value span) :
    (∃ group, .tag group ∈ items ∧ ofItem? (.tag group) = some mark) ∨
      ∃ fault, .fault fault ∈ items ∧ mark = .fault fault := by
  obtain ⟨item, hitem, hsome⟩ := List.mem_filterMap.1 hmem
  cases item with
  | content line =>
      simp only [ofItem?] at hsome
      split at hsome <;> cases hsome
      exact absurd rfl (hmark _ _)
  | tag group => exact .inl ⟨group, mem_of_mem_joinContent hitem (by simp), hsome⟩
  | fault fault =>
      cases hsome
      exact .inr ⟨fault, mem_of_mem_joinContent hitem (by simp), rfl⟩

theorem exists_of_opening_mem {name : String} {attributes : KeyMap Value} {start : Point}
    (hmem : .opening name attributes start ∈ ofItems items) :
    ∃ group, .tag group ∈ items ∧ group.header = .ok (.opening name attributes false) ∧
      group.span.start = start := by
  rcases exists_of_mem hmem (by simp) with ⟨group, hgroup, hsome⟩ | ⟨fault, -, hfault⟩
  · simp only [ofItem?] at hsome
    split at hsome <;> cases hsome
    next hheader => exact ⟨group, hgroup, hheader, rfl⟩
  · cases hfault

theorem exists_of_closing_mem {name : String} {span : Span}
    (hmem : .closing name span ∈ ofItems items) :
    ∃ group, .tag group ∈ items ∧ group.header = .ok (.closing name) ∧ group.span = span := by
  rcases exists_of_mem hmem (by simp) with ⟨group, hgroup, hsome⟩ | ⟨fault, -, hfault⟩
  · simp only [ofItem?] at hsome
    split at hsome <;> cases hsome
    next hheader => exact ⟨group, hgroup, hheader, rfl⟩
  · cases hfault

theorem exists_of_fault_mem {fault : Fault} (hmem : .fault fault ∈ ofItems items) :
    .fault fault ∈ items ∨ ∃ group, .tag group ∈ items ∧ group.header = .error fault := by
  rcases exists_of_mem hmem (by simp) with ⟨group, hgroup, hsome⟩ | ⟨other, hother, hfault⟩
  · simp only [ofItem?] at hsome
    split at hsome <;> cases hsome
    next hheader => exact .inr ⟨group, hgroup, hheader⟩
  · cases hfault
    exact .inl hother

theorem fault_mem_of_item {fault : Fault} (hmem : .fault fault ∈ items) :
    .fault fault ∈ ofItems items := by
  have hjoin : .fault fault ∈ joinContent items := by
    induction items with
    | nil => cases hmem
    | cons first rest induction =>
        cases first with
        | content line =>
            rcases List.mem_cons.1 hmem with hhere | hlater
            · cases hhere
            · rw [joinContent]
              split
              · next next after hjoin =>
                  have hrest := induction hlater
                  rw [hjoin] at hrest
                  rcases List.mem_cons.1 hrest with hhere | hafter
                  · cases hhere
                  · exact List.mem_cons_of_mem _ hafter
              · exact List.mem_cons_of_mem _ (induction hlater)
        | tag group =>
            rcases List.mem_cons.1 hmem with hhere | hlater
            · cases hhere
            · exact List.mem_cons_of_mem _ (induction hlater)
        | fault other =>
            rcases List.mem_cons.1 hmem with hhere | hlater
            · cases hhere
              exact List.mem_cons_self
            · exact List.mem_cons_of_mem _ (induction hlater)
  exact List.mem_filterMap.2 ⟨_, hjoin, rfl⟩

theorem isOfTag_of_mem {fault : Fault} (hmem : .fault fault ∈ ofItems items)
    (hitems : ∀ fault, .fault fault ∈ items → fault.isOfTag = true) : fault.isOfTag = true := by
  rcases exists_of_fault_mem hmem with hitem | ⟨group, -, hheader⟩
  · exact hitems fault hitem
  · exact Header.isOfTag_of_ofTokens hheader

end Mark

theorem assemble_clean {fence : Option Fence} {stack : List OpenTag} {nodes : List Node}
    {marks : List Mark} {name : String} {place : Point}
    (htree : assemble fence stack nodes marks = .error (.unclosedFence name place))
    (htags : ∀ fault, .fault fault ∈ marks → fault.isOfTag = true) :
    ∀ fault, .fault fault ∉ marks := by
  induction marks generalizing stack nodes with
  | nil => exact fun _ => List.not_mem_nil
  | cons mark rest induction =>
      have hlater : ∀ fault, .fault fault ∈ rest → fault.isOfTag = true := fun fault hmem =>
        htags fault (List.mem_cons_of_mem _ hmem)
      have hcons : (∀ fault, mark ≠ .fault fault) → (∀ fault, .fault fault ∉ rest) →
          ∀ fault, .fault fault ∉ mark :: rest := by
        intro hmark hrest fault hmem
        rcases List.mem_cons.1 hmem with hhere | hthere
        · exact hmark fault hhere.symm
        · exact hrest fault hthere
      cases mark with
      | content value span => exact hcons (by simp) (induction htree hlater)
      | leaf tag => exact hcons (by simp) (induction htree hlater)
      | opening name attributes start => exact hcons (by simp) (induction htree hlater)
      | closing name span =>
          cases stack with
          | nil => cases htree
          | cons innermost outer =>
              rw [assemble] at htree
              split at htree
              · exact hcons (by simp) (induction htree hlater)
              · cases htree
      | fault fault =>
          cases htree
          cases htags _ List.mem_cons_self

theorem pending_of_unclosedFence {fence : Option Fence} {marks : List Mark} {name : String}
    {place : Point} (htree : assemble fence [] [] marks = .error (.unclosedFence name place))
    (hclean : ∀ fault, .fault fault ∉ marks) :
    ∃ start outer opened, Mark.Pending marks ((name, start) :: outer) ∧ fence = some opened ∧
      opened.start = place := by
  rcases Mark.brackets_trichotomy marks hclean with
    hbalanced | ⟨before, other, span, after, rfl, hmismatch⟩ | ⟨innermost, start, outer, hpending⟩
  · obtain ⟨nodes, hnodes⟩ := assemble_balanced fence hbalanced
    rw [hnodes] at htree
    cases htree
  · rw [assemble_mismatch hmismatch] at htree
    cases htree
  · rw [assemble_unclosed hpending] at htree
    cases fence with
    | none => cases htree
    | some opened =>
        cases htree
        exact ⟨start, outer, opened, hpending, rfl, rfl⟩

end Tagmark
