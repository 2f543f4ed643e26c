import Tagmark.Document.Tree
import Tagmark.Frontmatter
import Tagmark.Transform

/-! Pages, documents that are read all the way: the data they start with and the HTML of the rest. -/

namespace Tagmark

structure Page where
  frontmatter : Frontmatter
  content : Html
deriving Inhabited

namespace Page

/-- Reads a page. The document comes first, then its frontmatter, and its tags last. -/
def readBy (data : String → Except String Data) (markdown : Markdown.Reader) (registry : Registry)
    (text : String) : Logged Page := do
  let document ← .ofExcept (Document.parse text)
  let frontmatter ← .ofExcept (Frontmatter.decodeBy data document.frontmatter)
  let content ← document.toHtmlBy markdown registry
  .pure ⟨frontmatter, content⟩

def read (registry : Registry) (text : String) : Logged Page :=
  readBy Frontmatter.readYaml Markdown.read registry text

/-- The HTML of a text, whatever its frontmatter. -/
def htmlBy (read : Markdown.Reader) (registry : Registry) (text : String) : Logged Html := do
  let document ← .ofExcept (Document.parse text)
  document.toHtmlBy read registry

def html (registry : Registry) (text : String) : Logged Html :=
  htmlBy Markdown.read registry text

end Page

end Tagmark
