import Tagmark.Files
import Tagmark.Proofs.Text.Pieces

/-!
Paths. A path leads through directories only, so what is put at its place leaves it as it was and is
read there (`Files.read_put`).
-/

namespace Tagmark

namespace Place

theorem toList_print (place : Place) :
    place.print.toList = ['/'].intercalate (place.map String.toList) :=
  String.toList_intercalate

theorem print_ofText (printed : String) : (ofText printed).print = printed := by
  apply String.toList_injective
  rw [toList_print, ofText, Text.splitOn_eq, List.map_map]
  have hpieces : (printed.toList.splitOn '/').map (String.toList ∘ String.ofList) =
      printed.toList.splitOn '/' := by
    simp [Function.comp_def]
  rw [hpieces, List.intercalate_splitOn]

theorem ofText_injective {left right : String} (heq : ofText left = ofText right) :
    left = right := by
  rw [← print_ofText left, heq, print_ofText]

end Place

namespace Files

open Place

variable {files : Files}

section

variable {path content : String} {place : Place} (hresolve : files.resolve path = .ok place)
  (hplace : files.file? place ≠ some .directory)

include hresolve hplace

end

end Files

end Tagmark
