import Tagmark.Fault
import Tagmark.KeyMap
import Tagmark.Text.Split

/-!
Files. A path is resolved name by name from the root or from the working directory, and each name has
to stand in a directory. A file is written in two steps, of which the second may break off.
-/

namespace Tagmark

inductive File where
  | text (content : String)
  | unreadable (reason : String)
  | directory
deriving DecidableEq, Inhabited, Repr

/-- The names of the directories on the way from the root to a file, and its own. -/
abbrev Place := List String

namespace Place

def print (place : Place) : String :=
  "/".intercalate place

def ofText (printed : String) : Place :=
  (Text.splitOn ['/'] printed.toList).map String.ofList

/-- Where a name leads from a directory. The root is its own parent. -/
def follow (place : Place) (name : String) : Place :=
  if name = "" || name = "." then place
  else if name = ".." then place.dropLast
  else place ++ [name]

end Place

structure Files where
  /-- By their printed places. The directories on the way to a file need no entry. -/
  stored : KeyMap File
  /-- The printed place of the working directory. -/
  here : String := ""
deriving DecidableEq

namespace Files

def ofList (entries : List (String × File)) (here : String := "") : Files :=
  ⟨.ofList entries, here⟩

instance : Inhabited Files := ⟨ofList []⟩

def file? (files : Files) (place : Place) : Option File :=
  match files.stored.get? place.print with
  | some file => some file
  | none =>
      if place = [] || files.stored.names.any fun name => (place.print ++ "/").isPrefixOf name then
        some .directory
      else none

def enter (files : Files) (place : Place) (name : String) : Except FileFault Place :=
  match files.file? place with
  | none => .error .missing
  | some .directory => .ok (place.follow name)
  | some _ => .error .notDirectory

def fromRoot (files : Files) (path : String) : String :=
  if path.toList.head? = some '/' then path else files.here ++ "/" ++ path

/-- The place of a path, at which there need not be a file. -/
def resolve (files : Files) (path : String) : Except FileFault Place :=
  (Place.ofText (files.fromRoot path)).foldlM files.enter []

def read (files : Files) (path : String) : Except FileFault String := do
  match files.file? (← files.resolve path) with
  | some (.text content) => .ok content
  | some (.unreadable reason) => .error (.refused reason)
  | some .directory => .error .isDirectory
  | none => .error .missing

/-- What takes the texts that are written. -/
structure Storage where
  refuses : Place → Option String
  /-- After how many characters the writing of a text breaks off and why, if it does. -/
  breaks : Place → String → Option (Nat × String)

def Storage.sound : Storage where
  refuses _ := none
  breaks _ _ := none

def put (files : Files) (place : Place) (content : String) : Files :=
  { files with stored := files.stored.insert place.print (.text content) }

/-- Opens the file at a path for writing. It is empty then, whether it was there before or not. -/
def openFile (storage : Storage) (files : Files) (path : String) :
    Except FileFault (Place × Files) := do
  let place ← files.resolve path
  if files.file? place = some .directory then .error .isDirectory
  else
    match storage.refuses place with
    | some reason => .error (.refused reason)
    | none => .ok (place, files.put place "")

/-- Writes a text to the file at a path. The files are those that are there after that, however it
ended. -/
def write (storage : Storage) (files : Files) (path content : String) :
    Files × Except FileFault Unit :=
  match files.openFile storage path with
  | .error fault => (files, .error fault)
  | .ok (place, opened) =>
      match storage.breaks place content with
      | none => (opened.put place content, .ok ())
      | some (count, reason) =>
          (opened.put place (String.ofList (content.toList.take count)), .error (.refused reason))

end Files

end Tagmark
