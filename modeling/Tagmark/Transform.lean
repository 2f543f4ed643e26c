import Tagmark.Document.Basic
import Tagmark.Markdown.Read
import Tagmark.Markdown.ToHtml
import Tagmark.Registry

/-!
The HTML of a document. The attributes of a tag are bound before its children are transformed, and
the tag itself is built after them.
-/

namespace Tagmark

/-- A way to read Markdown. -/
abbrev Markdown.Reader := String → List Markdown.Tree

def contentToHtml (read : Markdown.Reader) (body : BodyMode) (value : String) : List Html :=
  match body with
  | .raw => [.text value]
  | .markdown => Markdown.Tree.allToHtml false (read value)

mutual

def Node.toHtml (read : Markdown.Reader) (registry : Registry) (body : BodyMode) :
    Node → Logged (List Html)
  | .content value _ => .pure (contentToHtml read body value)
  | .block tag children =>
      match registry.get? tag.name with
      | none => .ofExcept (.error (.unknownTag tag.name))
      | some definition => do
          let bound ← .ofExcept (definition.schema.resolve tag.name tag.attributes)
          let inner ← Node.allToHtml read registry definition.body children
          .note (.transforming tag.name tag.span.start.line inner.length)
          let html ← definition.build bound inner
          .pure [html]

def Node.allToHtml (read : Markdown.Reader) (registry : Registry) (body : BodyMode) :
    List Node → Logged (List Html)
  | [] => .pure []
  | node :: rest => do
      let first ← node.toHtml read registry body
      let others ← Node.allToHtml read registry body rest
      .pure (first ++ others)

end

def Document.toHtmlBy (read : Markdown.Reader) (registry : Registry) (document : Document) :
    Logged Html := do
  let children ← Node.allToHtml read registry .markdown document.children
  .pure (.make "article" [] children)

def Document.toHtml (registry : Registry) (document : Document) : Logged Html :=
  document.toHtmlBy Markdown.read registry

end Tagmark
