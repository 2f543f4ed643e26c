import Tagmark.Page
import Tagmark.Proofs.Document.Block
import Tagmark.Proofs.Transform.Checks

/-!
Pages that are one block with a verbatim body. Their HTML is the element of the block, and nothing is
noted but what its definition notes (`Page.html_of_block`).
-/

namespace Tagmark

/-- A body that is read verbatim: its text without the last line end, unless it is blank. -/
def Html.ofRaw (body : List Char) : List Html :=
  if Text.isBlankText body then [] else [.text (String.ofList (Text.dropLineEnd body))]

theorem Node.allToHtml_ofBody (read : Markdown.Reader) (registry : Registry) (point : Point)
    (body : List Char) :
    Node.allToHtml read registry .raw (Node.ofBody point body) = .pure (Html.ofRaw body) := by
  unfold Node.ofBody Html.ofRaw
  split <;> rfl

section

variable {registry : Registry} {text : String} {tag : Tag} {definition : Definition} {bound : Bound}

theorem Node.toHtml_ofBody {body : List Char} (hget : registry.get? tag.name = some definition)
    (hraw : definition.body = .raw)
    (hbound : definition.schema.resolve tag.name tag.attributes = .ok bound)
    (read : Markdown.Reader) (mode : BodyMode) (point : Point) :
    (Node.block tag (Node.ofBody point body)).toHtml read registry mode =
      ⟨.transforming tag.name tag.span.start.line (Html.ofRaw body).length ::
          (definition.build bound (Html.ofRaw body)).notes,
        (definition.build bound (Html.ofRaw body)).result.map fun element => [element]⟩ := by
  have hchildren : Node.allToHtml read registry definition.body (Node.ofBody point body) =
      .pure (Html.ofRaw body) := by
    rw [hraw]
    exact Node.allToHtml_ofBody read registry point body
  rw [Node.toHtml_of_inner hget hbound (congrArg Noted.result hchildren), hchildren]
  rfl

namespace Page

theorem html_of_block {point : Point} {body : List Char}
    (hparse : Document.parse text = .ok ⟨none, [.block tag (Node.ofBody point body)]⟩)
    (hget : registry.get? tag.name = some definition) (hraw : definition.body = .raw)
    (hbound : definition.schema.resolve tag.name tag.attributes = .ok bound) :
    html registry text =
      ⟨.transforming tag.name tag.span.start.line (Html.ofRaw body).length ::
          (definition.build bound (Html.ofRaw body)).notes,
        (definition.build bound (Html.ofRaw body)).result.map fun element =>
          Html.make "article" [] [element]⟩ := by
  have hblock : (Node.block tag (Node.ofBody point body)).toHtml Markdown.read registry .markdown =
      _ := Node.toHtml_ofBody hget hraw hbound Markdown.read .markdown point
  unfold html htmlBy
  rw [hparse]
  change Noted.bind (Noted.bind
    ((Node.block tag (Node.ofBody point body)).toHtml Markdown.read registry .markdown)
      fun first => .pure (first ++ [])) (fun children => .pure (Html.make "article" [] children)) = _
  rw [hblock]
  cases (definition.build bound (Html.ofRaw body)).result with
  | error fault => rfl
  | ok element => simp [Noted.bind, Noted.pure, Except.map]

end Page

end

end Tagmark
