import Tagmark.Proofs.Document.Print
import Tagmark.Proofs.Document.Reading
import Tagmark.Proofs.Tag.Relocation
import Tagmark.Proofs.Text.Slice

/-!
Documents read from another place. Reading a body goes along with every move of places that goes
along with reading on (`assemble_relocate`), and a block of frontmatter does nothing to the body but
move it (`Document.parse_of_frontmatter`).
-/

namespace Tagmark

def Line.relocate (move : Point → Point) (line : Line) : Line :=
  ⟨line.text, move line.start⟩

def Fence.relocate (move : Point → Point) (fence : Fence) : Fence :=
  { fence with start := move fence.start }

def Item.relocate (move : Point → Point) : Item → Item
  | .content line => .content (line.relocate move)
  | .tag group => .tag (group.relocate move)
  | .fault reason => .fault (reason.relocate move)

def Scan.relocate (move : Point → Point) (scan : Scan) : Scan :=
  ⟨scan.items.map (Item.relocate move), scan.fence.map (Fence.relocate move)⟩

section

variable (move : Point → Point)

theorem Fence.ofLine?_relocate (line : Line) :
    ofLine? (line.relocate move) = (ofLine? line).map (relocate move) := by
  unfold ofLine?
  dsimp only [Line.relocate]
  cases run? '`' (Text.trimEnd line.text) <;> cases run? '~' (Text.trimEnd line.text) <;> rfl

theorem Fence.next_relocate (fence : Option Fence) (line : Line) :
    next (fence.map (relocate move)) (line.relocate move) =
      (next fence line).map (relocate move) := by
  cases fence with
  | none => exact ofLine?_relocate move line
  | some fence =>
      have hclosed : (fence.relocate move).closedBy (line.relocate move) = fence.closedBy line := rfl
      simp only [next, Option.map_some, hclosed]
      split <;> rfl

theorem Segment.items_relocate (cut : List Segment) :
    Segment.items (cut.map (Segment.relocate move)) =
      (Segment.items cut).map (Item.relocate move) := by
  induction cut with
  | nil => rfl
  | cons segment rest induction =>
      cases segment with
      | tag group => exact congrArg (Item.tag (group.relocate move) :: ·) induction
      | text text start =>
          simp only [List.map_cons, Segment.relocate, Segment.items, induction]
          split <;> rfl

theorem Item.fenceAfter_relocate (fence : Option Fence) (items : List Item) :
    Item.fenceAfter (fence.map (Fence.relocate move)) (items.map (Item.relocate move)) =
      (Item.fenceAfter fence items).map (Fence.relocate move) := by
  induction items generalizing fence with
  | nil => rfl
  | cons item rest induction =>
      cases item with
      | content line =>
          rw [List.map_cons, Item.relocate, Item.fenceAfter, Fence.next_relocate]
          exact induction _
      | tag group => exact induction fence
      | fault fault => exact induction fence

theorem Mark.joinContent_relocate (items : List Item) :
    joinContent (items.map (Item.relocate move)) = (joinContent items).map (Item.relocate move) := by
  induction items with
  | nil => rfl
  | cons item rest induction =>
      cases item with
      | tag group => exact congrArg (Item.tag (group.relocate move) :: ·) induction
      | fault fault => exact congrArg (Item.fault (fault.relocate move) :: ·) induction
      | content line =>
          rw [List.map_cons, Item.relocate, joinContent, joinContent, induction]
          rcases joinContent rest with _ | ⟨_ | _ | _, after⟩ <;> rfl

variable {move}

theorem Line.Gathered.replace {point : Point} {source rest : List Char}
    (hgathered : Gathered point source rest) (other : Point) : Gathered other source rest :=
  ⟨hgathered.pending, hgathered.complete⟩

variable (hmove : Point.Carries move)

include hmove

theorem Scan.Reads.relocate {fence : Option Fence} {point : Point} {text : List Char} {scan : Scan}
    (hreads : Reads fence point text scan) :
    Reads (fence.map (Fence.relocate move)) (move point) text (scan.relocate move) := by
  induction hreads with
  | done => exact .done
  | @line fence point text rest scan hline hcontent hrest induction =>
      rw [hmove.advance, ← Fence.next_relocate] at induction
      refine .line hline ?_ induction
      rwa [Option.isSome_map]
  | @tags point source rest cut scan hgathered hstart hcut hrest induction =>
      have hcut' := segments_relocate hmove point source
      rw [hcut] at hcut'
      have hitems := Segment.items_relocate move cut
      rw [hmove.advance, ← Item.fenceAfter_relocate, ← hitems] at induction
      have hreads := Reads.tags (hgathered.replace (move point)) hstart hcut' induction
      rw [hitems] at hreads
      unfold Scan.relocate
      rw [List.map_append]
      exact hreads
  | @fault point source rest fault hgathered hstart hcut =>
      have hcut' := segments_relocate hmove point source
      rw [hcut] at hcut'
      exact .fault (hgathered.replace (move point)) hstart hcut'

theorem Mark.ofItem?_relocate (item : Item) :
    ofItem? (item.relocate move) = (ofItem? item).map ((View.ofPlaces move).markBy id) := by
  cases item with
  | fault fault =>
      exact congrArg (fun fault => some (Mark.fault fault)) (View.faultBy_ofPlaces move fault).symm
  | tag group =>
      have hheader : (View.ofPlaces move).header = id := funext (View.header_ofPlaces move)
      rw [Item.relocate, View.ofItem?_tag, View.ofItem?_tag, Option.map_some,
        View.markBy_markOfHeader, View.resultBy_ofPlaces, hheader, TokenGroup.header_relocate]
      rfl
  | content line =>
      have hstop := hmove.advance line.start (Text.dropLineEnd line.text)
      simp only [Item.relocate, ofItem?, Line.relocate]
      split
      · rfl
      · have htext := View.text_ofPlaces move (String.ofList (Text.dropLineEnd line.text))
        have hspan := congrArg (Span.mk (move line.start)) hstop
        exact congrArg some (congrArg₂ Mark.content htext hspan).symm

theorem Mark.ofItems_relocate (items : List Item) :
    ofItems (items.map (Item.relocate move)) =
      (ofItems items).map ((View.ofPlaces move).markBy id) := by
  unfold ofItems
  rw [joinContent_relocate, List.filterMap_map, List.map_filterMap]
  exact congrArg (List.filterMap · _) (funext (ofItem?_relocate hmove))

theorem assemble_relocate (scan : Scan) :
    assemble (scan.relocate move).fence [] [] (Mark.ofItems (scan.relocate move).items) =
      relocateResult move (Node.relocateAll move)
        (assemble scan.fence [] [] (Mark.ofItems scan.items)) := by
  have hnodes : (View.ofPlaces move).nodes = Node.relocateAll move :=
    funext (View.nodes_ofPlaces move)
  have hview := (View.ofPlaces move).assemble_view id scan.fence [] [] (Mark.ofItems scan.items)
  rw [← Mark.ofItems_relocate hmove, View.resultBy_ofPlaces, hnodes] at hview
  exact hview

end

theorem Point.advance_of_ended {text : List Char} (hended : text.getLast? = some '\n')
    (point : Point) :
    point.advance text =
      ⟨point.line + text.count '\n', 1, point.offset + Text.byteSize text⟩ := by
  have hcolumn : (point.advance text).column = 1 := by
    obtain ⟨front, rfl⟩ := List.getLast?_eq_some_iff.1 hended
    rw [advance_append]
    rfl
  rw [← line_advance, ← offset_advance, ← hcolumn]

namespace Document

/-- A block of frontmatter at its head does nothing to a document but to move its body down by the
lines of the block. -/
theorem parse_of_frontmatter {raw body : String}
    (hraw : ∀ line ∈ Text.splitLines raw.toList, Text.trimEnd line ≠ ['-', '-', '-'])
    (hreturn : raw.toList.getLast? ≠ some '\r')
    (hbody : ∀ line ∈ (Text.splitLines body.toList).head?, Text.trimEnd line ≠ ['-', '-', '-']) :
    let block := "---\n" ++ raw ++ "\n---\n"
    let move := Point.shift (block.toList.count '\n') (Text.byteSize block.toList)
    parse (block ++ body) =
      match parse body with
      | .ok document => .ok ⟨some raw, Node.relocateAll move document.children⟩
      | .error fault => .error (fault.relocate move) := by
  intro block move
  have hmove : Point.Carries move := Point.carries_shift _ _
  have hblock : block.toList = (rawBlock raw.toList).flatten := by
    simp [block, flatten_rawBlock]
  have htext : block ++ body = String.ofList ((rawBlock raw.toList).flatten ++ body.toList) := by
    rw [← hblock, ← String.toList_append, String.ofList_toList]
  have hended : block.toList.getLast? = some '\n' := by
    rw [String.toList_append, List.getLast?_append]
    rfl
  have hshift : Point.origin.advance (rawBlock raw.toList).flatten = move .origin := by
    rw [← hblock, Point.advance_of_ended hended]
    rfl
  have hreads := Scan.reads_ofLines (Text.areLines_splitLines body.toList) .origin
  generalize Scan.ofLines _ = scan at hreads
  rw [Text.flatten_splitLines] at hreads
  have hown := parse_of_reads .none rfl (fun _ => hbody) hreads
  rw [List.flatten_nil, List.nil_append, String.ofList_toList] at hown
  have hmoved := hreads.relocate hmove
  rw [← hshift] at hmoved
  have hwhole := parse_of_reads (heads_rawBlock hraw hreturn)
    (splitLines_rawBlock raw.toList body.toList) (by simp) hmoved
  rw [htext, hwhole, hown, assemble_relocate hmove, String.ofList_toList]
  cases assemble scan.fence [] [] (Mark.ofItems scan.items) <;> rfl

theorem parse_of_frontmatter_lines :
    let raw := "t: é\n"
    let body := "x\n\x7b% a\nk=1 %\x7d\n```\n\x7b%\n```\n\x7b% /a %\x7d\n"
    let block := "---\n" ++ raw ++ "\n---\n"
    let move := Point.shift (block.toList.count '\n') (Text.byteSize block.toList)
    (∀ line ∈ Text.splitLines raw.toList, Text.trimEnd line ≠ ['-', '-', '-']) ∧
      raw.toList.getLast? ≠ some '\r' ∧
      (∀ line ∈ (Text.splitLines body.toList).head?, Text.trimEnd line ≠ ['-', '-', '-']) ∧
      (parse body).toOption.isSome = true ∧ move .origin = ⟨5, 1, 15⟩ ∧
      parse (block ++ body) =
        match parse body with
        | .ok document => .ok ⟨some raw, Node.relocateAll move document.children⟩
        | .error fault => .error (fault.relocate move) := by
  intro raw body block move
  have hraw : ∀ line ∈ Text.splitLines raw.toList, Text.trimEnd line ≠ ['-', '-', '-'] := by decide
  have hreturn : raw.toList.getLast? ≠ some '\r' := by decide
  have hbody : ∀ line ∈ (Text.splitLines body.toList).head?,
      Text.trimEnd line ≠ ['-', '-', '-'] := by decide
  have hparse : (parse body).toOption.isSome = true := by decide +kernel
  have hmove : move .origin = ⟨5, 1, 15⟩ := by decide
  exact ⟨hraw, hreturn, hbody, hparse, hmove, parse_of_frontmatter hraw hreturn hbody⟩

end Document

end Tagmark
