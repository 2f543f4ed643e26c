import Tagmark.Files
import Tagmark.Files.Ignore

/-!
Documents below a directory, out of what a walk finds there. The walk passes over hidden files and
over those that the rules in the directories around them exclude; what is in a directory that is
passed over is not looked at.
-/

namespace Tagmark

/-- What a walk comes to, by its way from where the walk starts. -/
structure Walked where
  way : Place
  isFile : Bool
deriving DecidableEq, Inhabited, Repr

abbrev Walker := Files → String → Except FileFault (List Walked)

namespace Files

def ruleFiles : List Place :=
  [[".ignore"], [".gitignore"], [".git", "info", "exclude"]]

def rulesAt (files : Files) (place : Place) : List IgnoreRule :=
  match files.stored.get? place.print with
  | some (.text content) => IgnoreRule.all content
  | _ => []

/-- The directories around a place, the nearest first, with the way from there to the place. -/
def ancestors (place : Place) : List (Place × Place) :=
  (List.range place.length).reverse.map fun depth => (place.take depth, place.drop depth)

/-- What the rule files of one name say about a place. The nearest one that has a rule for it
decides. -/
def verdictBy (files : Files) (place : Place) (isDirectory : Bool) (ruleFile : Place) :
    Option Verdict :=
  (ancestors place).findSome? fun (directory, way) =>
    IgnoreRule.verdict? (files.rulesAt (directory ++ ruleFile)) way.print isDirectory

def isHidden (place : Place) : Bool :=
  place.getLast?.any fun name => name.toList.head? == some '.'

def isSkipped (files : Files) (place : Place) (isDirectory : Bool) : Bool :=
  match ruleFiles.findSome? (files.verdictBy place isDirectory) with
  | some verdict => verdict == .skip
  | none => isHidden place

/-- Whether neither what stands at `way` nor any directory between it and `root` is skipped. -/
def isVisited (files : Files) (root way : Place) (isDirectory : Bool) : Bool :=
  (List.range way.length).all fun depth =>
    !files.isSkipped (root ++ way.take (depth + 1)) (depth + 1 < way.length || isDirectory)

def wayFrom? (root : Place) (printed : String) : Option Place :=
  let place := Place.ofText printed
  if root.isPrefixOf place then some (place.drop root.length) else none

def walkedAt? (files : Files) (root : Place) (entry : String × File) : Option Walked :=
  match wayFrom? root entry.1 with
  | none => none
  | some way =>
      if files.isVisited root way (entry.2 = .directory) then some ⟨way, entry.2 ≠ .directory⟩
      else none

def walk : Walker := fun files path => do
  let root ← files.resolve path
  match files.file? root with
  | none => .error .missing
  | some _ => .ok (files.stored.entries.filterMap (files.walkedAt? root))

end Files

def Place.pathFrom (root : String) (way : Place) : String :=
  if way = [] then root
  else if root = "" || root.toList.getLast? = some '/' then root ++ way.print
  else root ++ "/" ++ way.print

def isDocumentName (name : String) : Bool :=
  let suffix := ".tinybird".toList
  suffix.isSuffixOf name.toList && name.toList ≠ suffix

namespace Walked

def isDocument (root : String) (walked : Walked) : Bool :=
  walked.isFile && (Place.ofText (Place.pathFrom root walked.way)).getLast?.any isDocumentName

def documents (root : String) (found : List Walked) : List Place :=
  ((found.filter (isDocument root)).map way).mergeSort fun left right =>
    (List.decidableLE left right).decide

end Walked

end Tagmark
