import Mathlib.Order.Bounds.Defs
import Tagmark.Proofs.Document.Front

/-!
How the lines of a tag are gathered. A line is added only to lines that are not complete yet, so
that complete lines are the fewest ones that are (`Scan.gathers_least`).
-/

namespace Tagmark

namespace Line

/-- The line with the lines after it. -/
def joined (line : Line) (more : List Line) : Line :=
  more.foldl append line

@[simp] theorem start_joined (line : Line) (more : List Line) :
    (line.joined more).start = line.start := by
  induction more generalizing line with
  | nil => rfl
  | cons next more induction => exact induction (line.append next)

/-- The text of the line is made of whole tags and text around them. -/
def Complete (line : Line) : Prop :=
  ∃ cut, segments line.start line.text = .ok cut

instance (line : Line) : Decidable line.Complete :=
  match hcut : segments line.start line.text with
  | .ok cut => .isTrue ⟨cut, hcut⟩
  | .error fault => .isFalse fun ⟨cut, hok⟩ => by cases hcut.symm.trans hok

theorem Complete.endsInTag {line : Line} (hcomplete : line.Complete) : line.endsInTag = false := by
  obtain ⟨cut, hcut⟩ := hcomplete
  exact endsInTag_of_segments hcut line.start

/-- The lines that belong to the tag that `line` starts with, out of those after it, and the others:
while a tag is open the next line belongs to it. -/
def gather (line : Line) : List Line → List Line × List Line
  | [] => ([], [])
  | next :: rest =>
      if line.endsInTag then
        let (more, after) := (line.append next).gather rest
        (next :: more, after)
      else ([], next :: rest)

theorem gather_of_closed {line : Line} (hclosed : line.endsInTag = false) (rest : List Line) :
    line.gather rest = ([], rest) := by
  cases rest with
  | nil => rfl
  | cons next rest =>
      rw [gather, if_neg (Bool.eq_false_iff.1 hclosed)]

theorem gather_of_open {line : Line} (hopen : line.endsInTag = true) (next : Line)
    (rest : List Line) :
    line.gather (next :: rest) =
      (next :: ((line.append next).gather rest).1, ((line.append next).gather rest).2) := by
  rw [gather, if_pos hopen]

theorem gather_append (line : Line) (rest : List Line) :
    (line.gather rest).1 ++ (line.gather rest).2 = rest := by
  induction rest generalizing line with
  | nil => rfl
  | cons next rest induction =>
      cases hopen : line.endsInTag with
      | true =>
          rw [gather_of_open hopen, List.cons_append, induction]
      | false => rw [gather_of_closed hopen, List.nil_append]

theorem length_gather_le (line : Line) (rest : List Line) :
    (line.gather rest).2.length ≤ rest.length := by
  have hlength := congrArg List.length (line.gather_append rest)
  rw [List.length_append] at hlength
  omega

theorem endsInTag_of_gather {line next : Line} {rest front back : List Line}
    (hgather : (line.gather rest).1 = front ++ next :: back) :
    (line.joined front).endsInTag = true := by
  induction rest generalizing line front with
  | nil => simp [gather] at hgather
  | cons first rest induction =>
      cases hopen : line.endsInTag with
      | false =>
          rw [gather_of_closed hopen] at hgather
          simp at hgather
      | true =>
          rw [gather_of_open hopen] at hgather
          cases front with
          | nil => exact hopen
          | cons second front =>
              obtain ⟨rfl, hlater⟩ := List.cons.inj hgather
              change ((line.append first).joined front).endsInTag = true
              exact induction hlater

end Line

namespace Scan

/-- The scan with items before its own. -/
def precededBy (items : List Item) (scan : Scan) : Scan :=
  { scan with items := items ++ scan.items }

theorem precededBy_append (front back : List Item) (scan : Scan) :
    precededBy (front ++ back) scan = precededBy front (precededBy back scan) :=
  congrArg (Scan.mk · scan.fence) (List.append_assoc front back scan.items)

theorem scan_gathering (fence : Option Fence) {line : Line} (hopen : line.endsInTag = true)
    (rest : List Line) :
    scan fence (some line) rest =
      ofTagLine fence (fun fence => scan fence none (line.gather rest).2)
        (line.joined (line.gather rest).1) := by
  induction rest generalizing line with
  | nil => rfl
  | cons next rest induction =>
      rw [Line.gather_of_open hopen, scan]
      cases hnext : (line.append next).endsInTag with
      | true => exact induction hnext
      | false =>
          rw [Line.gather_of_closed hnext]
          rfl

theorem scan_tag {line : Line} (hstart : line.startsWithTag = true) (rest : List Line) :
    scan none none (line :: rest) =
      ofTagLine none (fun fence => scan fence none (line.gather rest).2)
        (line.joined (line.gather rest).1) := by
  have hcontent : ¬ ((none : Option Fence).isSome || !line.startsWithTag) = true := by
    simp [hstart]
  rw [scan, if_neg hcontent]
  cases hopen : line.endsInTag with
  | true => exact scan_gathering none hopen rest
  | false =>
      rw [Line.gather_of_closed hopen]
      rfl

/-- Places between the lines of a body that its scan comes to, with the fence that is open there, the
lines after it and the items before it. -/
inductive Reaches (body : List Line) : Option Fence → List Line → List Item → Prop
  | start : Reaches body none body []
  | content {fence : Option Fence} {line : Line} {rest : List Line} {items : List Item}
      (hbefore : Reaches body fence (line :: rest) items)
      (hcontent : fence.isSome = true ∨ line.startsWithTag = false) :
      Reaches body (Fence.next fence line) rest (items ++ [.content line])
  | tags {line : Line} {rest : List Line} {items : List Item} {cut : List Segment}
      (hbefore : Reaches body none (line :: rest) items) (hstart : line.startsWithTag = true)
      (hcut : segments line.start (line.joined (line.gather rest).1).text = .ok cut) :
      Reaches body (Item.fenceAfter none (Segment.items cut)) (line.gather rest).2
        (items ++ Segment.items cut)

theorem Reaches.scan_eq {body rest : List Line} {fence : Option Fence} {items : List Item}
    (hreaches : Reaches body fence rest items) :
    ofLines body = precededBy items (scan fence none rest) := by
  induction hreaches with
  | start => rfl
  | @content fence line rest items _ hcontent induction =>
      have hhead : (fence.isSome || !line.startsWithTag) = true := by simpa using hcontent
      rw [induction, scan, if_pos hhead, precededBy_append]
      rfl
  | @tags line rest items cut _ hstart hcut induction =>
      rw [induction, scan_tag hstart, ofTagLine, Line.start_joined, hcut, precededBy_append]
      dsimp only
      rw [ofSegments_eq]
      rfl

theorem Reaches.exists_last {body rest : List Line} {fence : Option Fence} {items : List Item}
    (hreaches : Reaches body fence rest items) :
    ∃ fence rest items, Reaches body fence rest items ∧
      (rest = [] ∨ ∃ line more, fence = none ∧ rest = line :: more ∧ line.startsWithTag = true ∧
        ¬ (line.joined (line.gather more).1).Complete) := by
  induction hcount : rest.length using Nat.strongRecOn generalizing fence rest items with
  | ind count induction =>
      subst hcount
      cases rest with
      | nil => exact ⟨fence, [], items, hreaches, .inl rfl⟩
      | cons line more =>
          by_cases hcontent : fence.isSome = true ∨ line.startsWithTag = false
          · exact induction more.length (Nat.lt_succ_self _) (hreaches.content hcontent) rfl
          · obtain ⟨hfence, hstart⟩ := not_or.1 hcontent
            obtain rfl : fence = none := Option.not_isSome_iff_eq_none.1 hfence
            replace hstart : line.startsWithTag = true := eq_true_of_ne_false hstart
            by_cases hcomplete : (line.joined (line.gather more).1).Complete
            · obtain ⟨cut, hcut⟩ := hcomplete
              rw [Line.start_joined] at hcut
              exact induction (line.gather more).2.length
                (Nat.lt_succ_of_le (line.length_gather_le more)) (hreaches.tags hstart hcut) rfl
            · exact ⟨none, line :: more, items, hreaches,
                .inr ⟨line, more, rfl, rfl, hstart, hcomplete⟩⟩

/-- What is complete has no open tag. The scan comes to all lines up to a tag that is never complete.
Where it comes to a tag line no line is added to lines that are complete, and if what is gathered is
complete then no fewer lines from there on are. -/
theorem gathers_least (body : List Line) :
    (∀ line : Line, line.Complete → line.endsInTag = false) ∧
      (∃ fence rest items, Reaches body fence rest items ∧
        (rest = [] ∨ ∃ line more, fence = none ∧ rest = line :: more ∧ line.startsWithTag = true ∧
          ¬ (line.joined (line.gather more).1).Complete)) ∧
      ∀ line rest items, Reaches body none (line :: rest) items → line.startsWithTag = true →
        rest = (line.gather rest).1 ++ (line.gather rest).2 ∧
        ofLines body = precededBy items
          (ofTagLine none (fun fence => scan fence none (line.gather rest).2)
            (line.joined (line.gather rest).1)) ∧
        (∀ front next back, (line.gather rest).1 = front ++ next :: back →
          ¬ (line.joined front).Complete) ∧
        ((line.joined (line.gather rest).1).Complete →
          IsLeast {count | (line.joined (rest.take count)).Complete}
            (line.gather rest).1.length) := by
  refine ⟨fun line => Line.Complete.endsInTag, Reaches.start.exists_last, ?_⟩
  intro line rest items hreaches hstart
  have hpending : ∀ front next back, (line.gather rest).1 = front ++ next :: back →
      ¬ (line.joined front).Complete := by
    intro front next back hgather hcomplete
    have hopen := Line.endsInTag_of_gather hgather
    rw [hcomplete.endsInTag] at hopen
    cases hopen
  have hsplit := line.gather_append rest
  refine ⟨hsplit.symm, ?_, hpending, fun hcomplete => ⟨?_, ?_⟩⟩
  · rw [hreaches.scan_eq, scan_tag hstart]
  · have htake : rest.take (line.gather rest).1.length = (line.gather rest).1 :=
      (List.prefix_iff_eq_take.1 ⟨_, hsplit⟩).symm
    change (line.joined (rest.take (line.gather rest).1.length)).Complete
    rwa [htake]
  · intro count (hcount : (line.joined (rest.take count)).Complete)
    by_contra hfewer
    have hless : count < (line.gather rest).1.length := Nat.not_le.1 hfewer
    have htake : rest.take count = (line.gather rest).1.take count := by
      conv_lhs => rw [← hsplit]
      exact List.take_append_of_le_length (Nat.le_of_lt hless)
    rw [htake] at hcount
    refine hpending _ ((line.gather rest).1[count]) ((line.gather rest).1.drop (count + 1)) ?_ hcount
    rw [List.getElem_cons_drop, List.take_append_drop]

theorem gathers_least_three_lines :
    let line : Line := ⟨"\x7b% a\n".toList, .origin⟩
    let rest := Line.place ⟨2, 1, 5⟩
      ["x=\"%\x7d \x7b%\"\n".toList, "/%\x7d\n".toList, "text\n".toList]
    Reaches (line :: rest) none (line :: rest) [] ∧ line.startsWithTag = true ∧
      (line.joined (line.gather rest).1).Complete ∧
      IsLeast {count | (line.joined (rest.take count)).Complete} 2 := by
  intro line rest
  have hstart : line.startsWithTag = true := by decide
  have hcomplete : (line.joined (line.gather rest).1).Complete := by decide +kernel
  have hcount : (line.gather rest).1.length = 2 := by decide +kernel
  have hleast := ((gathers_least (line :: rest)).2.2 line rest [] .start hstart).2.2.2 hcomplete
  rw [hcount] at hleast
  exact ⟨.start, hstart, hcomplete, hleast⟩

end Scan

end Tagmark
