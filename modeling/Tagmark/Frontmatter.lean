import Tagmark.Fault
import Tagmark.Text.Blank
import Tagmark.Yaml.Read

/-!
Frontmatter, the data that a document starts with. A document without frontmatter has empty
frontmatter.
-/

namespace Tagmark

structure Frontmatter where
  data : KeyMap Data
deriving Inhabited

namespace Frontmatter

/-- Frontmatter from what stands between the marks at the start of a document, by a reader of data
that says why it refuses a text. -/
def decodeBy (read : String → Except String Data) (raw : Option String) :
    Except Fault Frontmatter :=
  match raw with
  | none => .ok ⟨∅⟩
  | some raw =>
      if Text.isBlankText raw.toList then .ok ⟨∅⟩
      else
        match read raw with
        | .error message => .error (.frontmatter (.unread message))
        | .ok (.mapping entries) => .ok ⟨.ofList entries⟩
        | .ok .null => .ok ⟨∅⟩
        | .ok other => .error (.frontmatter (.notMapping other.describe))

def readYaml (text : String) : Except String Data :=
  match Yaml.read? text with
  | some data => .ok data
  | none => .error FrontmatterFault.malformed.message

def decode (raw : Option String) : Except Fault Frontmatter :=
  decodeBy readYaml raw

def text? (frontmatter : Frontmatter) (name : String) : Option String :=
  (frontmatter.data.get? name).bind Data.text?

def name? (frontmatter : Frontmatter) : Option String :=
  frontmatter.text? "name"

def kind? (frontmatter : Frontmatter) : Option String :=
  frontmatter.text? "type"

def toData (frontmatter : Frontmatter) : Data :=
  .mapping frontmatter.data.entries

def texts (frontmatter : Frontmatter) : Except Fault (KeyMap String) :=
  match frontmatter.data.entries.mapM fun (name, value) => value.text?.map fun text => (name, text) with
  | some texts => .ok (.ofList texts)
  | none => .error (.frontmatter .notText)

end Frontmatter

end Tagmark
