import Tagmark.Files.Walk
import Tagmark.Proofs.Files.Path

/-!
Documents out of a walk. A walk comes to nothing twice (`Files.nodup_walk`), and the documents among
what it comes to are taken in the order of their ways (`Walked.ascending_documents`).
-/

namespace Tagmark

namespace Files

open Place

variable {files : Files}

theorem ofText_of_wayFrom? {root way : Place} {printed : String}
    (hway : wayFrom? root printed = some way) : ofText printed = root ++ way := by
  unfold wayFrom? at hway
  dsimp only at hway
  split at hway
  · next hprefix =>
      obtain ⟨rest, hrest⟩ := List.isPrefixOf_iff_prefix.1 hprefix
      cases hway
      rw [← hrest, List.drop_left]
  · cases hway

theorem ofText_of_walkedAt? {root : Place} {entry : String × File} {walked : Walked}
    (hwalked : files.walkedAt? root entry = some walked) :
    ofText entry.1 = root ++ walked.way := by
  unfold walkedAt? at hwalked
  split at hwalked
  · cases hwalked
  · next way hway =>
      split at hwalked
      · cases hwalked
        exact ofText_of_wayFrom? hway
      · cases hwalked

theorem walk_eq_ok {path : String} {found : List Walked} :
    files.walk path = .ok found ↔
      ∃ root, files.resolve path = .ok root ∧ (files.file? root).isSome = true ∧
        files.stored.entries.filterMap (files.walkedAt? root) = found := by
  rw [walk, except_bind_eq_ok]
  refine exists_congr fun root => and_congr_right fun _ => ?_
  cases files.file? root with
  | none => exact iff_of_false (fun h => by cases h) fun h => by cases h.1
  | some file => rw [Option.isSome_some, and_iff_right rfl, Except.ok.injEq]

theorem nodup_walk {path : String} {found : List Walked} (hwalk : files.walk path = .ok found) :
    (found.map Walked.way).Nodup := by
  obtain ⟨root, -, -, rfl⟩ := walk_eq_ok.1 hwalk
  rw [List.Nodup, List.pairwise_map]
  refine files.stored.ascending.filterMap _ fun left right hlt first hfirst second hsecond hway => ?_
  have hname : left.1 = right.1 := ofText_injective (by
    rw [ofText_of_walkedAt? hfirst, ofText_of_walkedAt? hsecond, hway])
  exact String.lt_irrefl _ (hname ▸ hlt)

end Files

namespace Walked

variable {root : String} {found : List Walked}

theorem mem_documents {place : Place} :
    place ∈ documents root found ↔ ⟨place, true⟩ ∈ found ∧
      (Place.ofText (Place.pathFrom root place)).getLast?.any isDocumentName = true := by
  rw [documents, List.mem_mergeSort, List.mem_map]
  constructor
  · rintro ⟨⟨way, isFile⟩, hmem, rfl⟩
    obtain ⟨hfound, hdocument⟩ := List.mem_filter.1 hmem
    obtain ⟨rfl, hname⟩ := Bool.and_eq_true_iff.1 hdocument
    exact ⟨hfound, hname⟩
  · rintro ⟨hfound, hname⟩
    exact ⟨⟨place, true⟩, List.mem_filter.2 ⟨hfound, Bool.and_eq_true_iff.2 ⟨rfl, hname⟩⟩, rfl⟩

theorem ascending_documents (hdistinct : (found.map way).Nodup) :
    (documents root found).Pairwise (· < ·) := by
  let ways := (found.filter (isDocument root)).map way
  let inOrder (left right : Place) : Bool := (List.decidableLE left right).decide
  have htrans : ∀ first second third, inOrder first second = true → inOrder second third = true →
      inOrder first third = true := fun _ _ _ hfirst hsecond =>
    decide_eq_true (List.le_trans (of_decide_eq_true hfirst) (of_decide_eq_true hsecond))
  have htotal : ∀ left right, (inOrder left right || inOrder right left) = true := by
    intro left right
    rw [Bool.or_eq_true]
    exact (List.le_total left right).imp decide_eq_true decide_eq_true
  have hsorted : (ways.mergeSort inOrder).Pairwise fun left right => inOrder left right = true :=
    List.pairwise_mergeSort htrans htotal ways
  have hways : ways.Nodup := hdistinct.sublist (List.filter_sublist.map way)
  have hnodup : (ways.mergeSort inOrder).Nodup := (ways.mergeSort_perm inOrder).nodup_iff.2 hways
  refine (hsorted.and hnodup).imp fun ⟨hle, hne⟩ => ?_
  exact (List.le_iff_lt_or_eq.1 (of_decide_eq_true hle)).resolve_right hne

end Walked

end Tagmark
