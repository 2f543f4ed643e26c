import Tagmark.Files.Glob
import Tagmark.Text.Blank
import Tagmark.Text.Split

/-!
Rules for files to be passed over, one on a line. The last rule that stands for a file decides, and a
rule after an exclamation mark keeps its files.
-/

namespace Tagmark

inductive Verdict where
  | skip
  | keep
deriving DecidableEq, Inhabited, Repr

structure IgnoreRule where
  pattern : List Glob
  verdict : Verdict
  directoriesOnly : Bool
deriving Inhabited

namespace IgnoreRule

/-- The pattern of a rule. One without a slash stands for names in any directory, and one that ends
in two stars only for what is inside. -/
def patternText (anchored : Bool) (text : List Char) : List Char :=
  let isOpen := !anchored && !text.contains '/' && text ≠ ['*', '*']
  let text := if isOpen then ['*', '*', '/'] ++ text else text
  if ['/', '*', '*'].isSuffixOf text then text ++ ['/', '*'] else text

def ofText? (verdict : Verdict) (anchored : Bool) (text : List Char) : Option IgnoreRule :=
  let directoriesOnly := text.getLast? = some '/'
  let text := if directoriesOnly then
      if text.dropLast.getLast? = some '\\' then text.dropLast.dropLast else text.dropLast
    else text
  (Glob.read? (patternText anchored text)).map fun pattern => ⟨pattern, verdict, directoriesOnly⟩

/-- The rule of a line. There is none on a blank line, in a comment, and for a pattern that is not
well formed. -/
def ofLine? (line : List Char) : Option IgnoreRule :=
  let line := if ['\\', ' '].isSuffixOf line then line else Text.trimEnd line
  match line with
  | [] => none
  | '#' :: _ => none
  | '\\' :: '!' :: rest => ofText? .skip false ('!' :: rest)
  | '\\' :: '#' :: rest => ofText? .skip false ('#' :: rest)
  | '!' :: '/' :: rest => ofText? .keep true rest
  | '!' :: rest => ofText? .keep false rest
  | '/' :: rest => ofText? .skip true rest
  | rest => ofText? .skip false rest

def all (text : String) : List IgnoreRule :=
  let text := text.toList.dropWhile (· == '\uFEFF')
  (Text.lines text).filterMap ofLine?

def verdict? (rules : List IgnoreRule) (path : String) (isDirectory : Bool) : Option Verdict :=
  rules.reverse.findSome? fun rule =>
    if (!rule.directoriesOnly || isDirectory) && Glob.isMatch rule.pattern path then
      some rule.verdict
    else none

end IgnoreRule

end Tagmark
