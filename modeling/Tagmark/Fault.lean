import Tagmark.Attribute.Value
import Tagmark.Tag.Flaw

/-!
The reasons for which a document, a configuration or a file is refused, with their messages, the
codes they are known by, and the advice that goes with them.
-/

namespace Tagmark

inductive FileFault where
  | missing
  | isDirectory
  | notDirectory
  | refused (reason : String)
deriving DecidableEq, Inhabited, Repr

def FileFault.message : FileFault → String
  | .missing => "No such file or directory (os error 2)"
  | .isDirectory => "Is a directory (os error 21)"
  | .notDirectory => "Not a directory (os error 20)"
  | .refused reason => reason

inductive FrontmatterFault where
  | unread (message : String)
  | notMapping (found : String)
deriving DecidableEq, Inhabited, Repr

namespace FrontmatterFault

@[match_pattern] abbrev malformed : FrontmatterFault :=
  .unread "malformed YAML"

@[match_pattern] abbrev notText : FrontmatterFault :=
  .unread "expected a string"

def message : FrontmatterFault → String
  | .unread message => message
  | .notMapping found => "expected a mapping, found " ++ found

end FrontmatterFault

inductive ConfigFault where
  | unread (message : String)
  | blankElement (tag : String)
  | wrongDefault (tag key : String) (expected found : ValueType)
deriving DecidableEq, Inhabited, Repr

@[match_pattern] abbrev ConfigFault.malformed : ConfigFault :=
  .unread "malformed TOML"

def ConfigFault.message : ConfigFault → String
  | .unread message => message
  | .blankElement tag => "tag `" ++ tag ++ "` must declare a non-empty `render` element"
  | .wrongDefault tag key expected found =>
      "default of attribute `" ++ key ++ "` on tag `" ++ tag ++ "` must be a " ++
        expected.name ++ ", found " ++ found.name

inductive Fault where
  | file (fault : FileFault)
  | unterminatedFrontmatter
  | unterminatedTag (start : Point)
  | invalidTag (flaw : TagFlaw) (place : Point)
  | unclosedTag (name : String) (start : Point)
  | unclosedFence (name : String) (start : Point)
  | unexpectedClosing (name : String) (start : Point)
  | missingAttribute (tag key : String)
  | wrongType (tag key : String) (expected found : ValueType)
  | emptyDelimiter (tag : String)
  | unknownTag (name : String)
  | frontmatter (fault : FrontmatterFault)
  | config (fault : ConfigFault)
deriving DecidableEq, Inhabited, Repr

namespace Fault

inductive Kind where
  | syntactic
  | validation
  | unknownTag
  | frontmatter
  | config
  | file
deriving DecidableEq, Inhabited, Repr

def Kind.name : Kind → String
  | .syntactic => "syntax"
  | .validation => "validation"
  | .unknownTag => "unknown_tag"
  | .frontmatter => "frontmatter"
  | .config => "config"
  | .file => "io"

def kind : Fault → Kind
  | .file _ => .file
  | .unterminatedFrontmatter | .unterminatedTag _ | .invalidTag _ _ | .unclosedTag _ _
  | .unclosedFence _ _ | .unexpectedClosing _ _ => .syntactic
  | .missingAttribute _ _ | .wrongType _ _ _ _ | .emptyDelimiter _ => .validation
  | .unknownTag _ => .unknownTag
  | .frontmatter _ => .frontmatter
  | .config _ => .config

def place? : Fault → Option Point
  | .unterminatedTag place | .invalidTag _ place | .unclosedTag _ place | .unclosedFence _ place
  | .unexpectedClosing _ place => some place
  | _ => none

def printPlace (place : Point) : String :=
  toString place.line ++ ":" ++ toString place.column

def message : Fault → String
  | .file fault => fault.message
  | .unterminatedFrontmatter => "unterminated frontmatter block"
  | .unterminatedTag start => "unterminated tag starting at " ++ printPlace start
  | .invalidTag flaw place => "invalid tag syntax at " ++ printPlace place ++ ": " ++ flaw.message
  | .unclosedTag name start =>
      "missing closing tag for `" ++ name ++ "` opened at " ++ printPlace start
  | .unclosedFence name start =>
      "code fence opened at " ++ printPlace start ++ " is never closed inside tag `" ++ name ++ "`"
  | .unexpectedClosing name start =>
      "unexpected closing tag `" ++ name ++ "` at " ++ printPlace start
  | .missingAttribute tag key =>
      "tag `" ++ tag ++ "` is missing required attribute `" ++ key ++ "`"
  | .wrongType tag key expected found =>
      "attribute `" ++ key ++ "` of tag `" ++ tag ++ "` must be a " ++ expected.name ++
        ", found " ++ found.name
  | .emptyDelimiter tag =>
      "attribute `delimiter` of tag `" ++ tag ++ "` is invalid: the delimiter cannot be empty"
  | .unknownTag name => "unknown tag: `" ++ name ++ "`"
  | .frontmatter fault => "failed to decode frontmatter: " ++ fault.message
  | .config fault => "failed to parse config file: " ++ fault.message

def code : Fault → String
  | .file _ => "tbdoc::io_error"
  | .unterminatedFrontmatter => "tbdoc::unterminated_frontmatter"
  | .unterminatedTag _ => "tbdoc::unterminated_tag"
  | .invalidTag _ _ => "tbdoc::invalid_tag_syntax"
  | .unclosedTag _ _ => "tbdoc::unclosed_tag"
  | .unclosedFence _ _ => "tbdoc::unclosed_code_fence"
  | .unexpectedClosing _ _ => "tbdoc::unexpected_closing_tag"
  | .missingAttribute _ _ => "tbdoc::missing_attribute"
  | .wrongType _ _ _ _ => "tbdoc::invalid_attribute_type"
  | .emptyDelimiter _ => "tbdoc::invalid_attribute_value"
  | .unknownTag _ => "tbdoc::unknown_tag"
  | .frontmatter _ => "tbdoc::frontmatter"
  | .config _ => "tbdoc::config_parse"

def help? : Fault → Option String
  | .unterminatedFrontmatter => some "close the frontmatter with a line containing only `---`"
  | .unterminatedTag _ => some "end the tag with `%\x7d` or `/%\x7d`"
  | .unclosedTag name _ => some ("add `\x7b% /" ++ name ++ " %\x7d` to close this tag")
  | .unclosedFence name _ => some ("close the code fence before `\x7b% /" ++ name ++ " %\x7d`")
  | .unexpectedClosing _ _ => some "closing tags must match the innermost open tag"
  | .unknownTag _ =>
      some "built-in tags are `query` and `datasource`; define others in tbdoc.toml"
  | .frontmatter _ => some "frontmatter must be a YAML mapping of `key: value` lines"
  | .config _ => some "check that tbdoc.toml is valid TOML with `[tags.<name>]` sections"
  | _ => none

end Fault

section

variable {ε α β : Type}

theorem eq_ok_of_toOption {result : Except ε α} {value : α}
    (hsome : result.toOption = some value) : result = .ok value := by
  cases result with
  | error fault => cases hsome
  | ok other => exact congrArg Except.ok (Option.some.inj hsome)

theorem exists_of_toOption_map {result : Except ε α} {f : α → β} {value : β}
    (hsome : result.toOption.map f = some value) : ∃ made, result = .ok made ∧ f made = value := by
  cases result with
  | error fault => cases hsome
  | ok made => exact ⟨made, rfl, Option.some.inj hsome⟩

theorem except_bind_eq_ok {first : Except ε α} {next : α → Except ε β} {last : β} :
    (first >>= next) = .ok last ↔ ∃ value, first = .ok value ∧ next value = .ok last := by
  cases first with
  | error fault => simp [bind, Except.bind]
  | ok value => simp [bind, Except.bind]

end

end Tagmark
