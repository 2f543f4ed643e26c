import Tagmark.Command.Report
import Tagmark.Config.Load
import Tagmark.Files.Walk
import Tagmark.Html.Data
import Tagmark.Html.Print
import Tagmark.Page

/-!
Running commands. A run goes on step by step with files that a step may change, and what a step has
changed stays changed also if the run fails.
-/

namespace Tagmark

/-- Why a run did not come to its end. -/
inductive Failure where
  | fault (fault : Fault)
  | unreadable (path : String) (fault : FileFault)
  | unwritable (fault : FileFault)
  | unwalkable (path : String) (fault : FileFault)
deriving DecidableEq, Inhabited, Repr

inductive Ending where
  | success
  | faulty
  | idle
  | usage (usage : Command.Usage)
  | failure (failure : Failure)
deriving DecidableEq, Inhabited, Repr

def Failure.message : Failure → String
  | .fault cause =>
      cause.code ++ ": " ++ cause.message ++
        match cause.help? with
        | some help => "\nhelp: " ++ help
        | none => ""
  | .unreadable path cause => "failed to read " ++ path ++ ": " ++ cause.message
  | .unwritable cause => cause.message
  | .unwalkable path cause =>
      path ++ ": IO error for operation on " ++ path ++ ": " ++ cause.message

namespace Ending

def exitCode : Ending → Nat
  | .success | .usage .help | .usage .version => 0
  | .faulty | .idle => 1
  | .usage .wrong | .failure _ => 2

def code? : Ending → Option String
  | .failure (.fault fault) => some fault.code
  | _ => none

def message? : Ending → Option String
  | .idle => some "No subcommand specified. Run `tbdoc --help` for usage."
  | .usage .wrong => some "error: unexpected arguments"
  | .failure cause => some ("error: " ++ cause.message)
  | .success | .faulty | .usage _ => none

end Ending

/-- What a run leaves behind. -/
structure Outcome where
  files : Files
  output : String
  /-- What is told beside what is printed as the result. -/
  told : String
  notes : List Note
  ending : Ending

/-- What steps of a run have come to so far. -/
structure Trail where
  files : Files
  notes : List Note

/-- A step of a run. It goes on from a trail, and leaves one also if it fails. -/
abbrev Attempt (α : Type) := EStateM Failure Trail α

namespace Attempt

variable {α : Type}

/-- Looks at the files and leaves them. -/
def reading (look : Files → Noted Failure α) : Attempt α := fun trail =>
  let noted := look trail.files
  let later : Trail := { trail with notes := trail.notes ++ noted.notes }
  match noted.result with
  | .ok value => .ok value later
  | .error failure => .error failure later

def writing (storage : Files.Storage) (path content : String) : Attempt Unit := fun trail =>
  match trail.files.write storage path content with
  | (files, .ok _) => .ok () { trail with files := files }
  | (files, .error fault) => .error (.unwritable fault) { trail with files := files }

end Attempt

namespace Command

/-- What a run relies on beside its files. -/
structure Environment where
  coloured : Bool
  arguments : List String → Except Usage Command
  config : String → Except String Config
  data : String → Except String Data
  markdown : Markdown.Reader
  walk : Walker
  storage : Files.Storage

def Environment.standard (coloured : Bool) : Environment where
  coloured := coloured
  arguments := Command.read
  config := Config.decode
  data := Frontmatter.readYaml
  markdown := Markdown.read
  walk := Files.walk
  storage := .sound

structure Effect where
  output : String := ""
  told : String := ""
  ending : Ending := .success

section

variable (environment : Environment)

/-- The tags that a command understands. -/
def registryOf (files : Files) (config : Option String) : Logged Registry := do
  Config.registryFor (← .ofExcept (Config.loadForBy environment.config files config))

def pageOf (registry : Registry) (text : String) : Logged Page :=
  Page.readBy environment.data environment.markdown registry text

def registry (config : Option String) : Attempt Registry :=
  .reading fun files => (registryOf environment files config).mapReason .fault

def document (path : String) : Attempt String :=
  .reading fun files => .ofExcept ((files.read path).mapError (.unreadable path))

def page (config : Option String) (path : String) : Attempt Page := do
  let registry ← registry environment config
  let text ← document path
  .reading fun _ => (pageOf environment registry text).mapReason .fault

def pageData (page : Page) : Data :=
  .mapping [("frontmatter", page.frontmatter.toData), ("content", page.content.toData)]

def frontmatter (text : String) : Except Fault Frontmatter := do
  let document ← Document.parse text
  Frontmatter.decodeBy environment.data document.frontmatter

def findings (registry : Registry) (root : String) : List Place → Attempt (List Finding)
  | [] => return []
  | way :: rest => do
      let text ← document (Place.pathFrom root way)
      let read ← .reading fun _ => (pageOf environment registry text).settled
      let findings ← findings registry root rest
      return match read with
        | .ok _ => findings
        | .error fault => ⟨way, fault.kind, fault.message⟩ :: findings

def act (coloured : Bool) (config : Option String) : Action → Attempt Effect
  | .render path none => do
      let page ← page environment config path
      return { output := page.content.print ++ "\n" }
  | .render path (some output) => do
      let page ← page environment config path
      Attempt.writing environment.storage output page.content.print
      return { told := Colour.green.paint coloured "Rendered" ++ " " ++ output ++ "\n" }
  | .tree path => do
      let page ← page environment config path
      return { output := (pageData page).json ++ "\n" }
  | .frontmatter path => do
      let text ← document path
      let found ← .reading fun _ => .ofExcept ((frontmatter environment text).mapError .fault)
      return { output := found.toData.json ++ "\n" }
  | .check directory format => do
      let registry ← registry environment config
      let root := directory.getD "."
      let found ← .reading fun files =>
        .ofExcept ((environment.walk files root).mapError (.unwalkable root))
      let documents := Walked.documents root found
      let findings ← findings environment registry root documents
      let report : Report := ⟨documents.length, findings⟩
      return {
        output := report.print coloured format
        ending := if report.isClean then .success else .faulty }

def runBy (files : Files) (command : Command) : Outcome :=
  match command.action with
  | none => ⟨files, "", "", [], .idle⟩
  | some action =>
      match act environment (environment.coloured && !command.plain) command.config action
          ⟨files, []⟩ with
      | .ok effect trail => ⟨trail.files, effect.output, effect.told, trail.notes, effect.ending⟩
      | .error failure trail => ⟨trail.files, "", "", trail.notes, .failure failure⟩

def Usage.output : Usage → String
  | .version => "tbdoc_cli 0.1.0\n"
  | .help | .wrong => ""

/-- Runs the command of some arguments. -/
def runArgumentsBy (files : Files) (arguments : List String) : Outcome :=
  match environment.arguments arguments with
  | .ok command => command.runBy environment files
  | .error usage => ⟨files, usage.output, "", [], .usage usage⟩

end

def runArguments (coloured : Bool) (files : Files) (arguments : List String) : Outcome :=
  runArgumentsBy (.standard coloured) files arguments

end Command

end Tagmark
