import Tagmark.Yaml.Layout

/-!
Nodes of YAML, read from tokens. The handles of tags are resolved before; a stream holds at most one
document.
-/

namespace Tagmark.Yaml

structure Marks (α : Type) where
  anchor : Option α := none
  tag : Option (List Char) := none
deriving DecidableEq, Inhabited, Repr

inductive Node (α : Type) where
  | alias (anchor : α)
  | scalar (marks : Marks α) (text : List Char) (plain : Bool)
  | sequence (marks : Marks α) (items : List (Node α))
  | mapping (marks : Marks α) (entries : List (Node α × Node α))
deriving Inhabited

namespace Node

abbrev Name := List Char

def absent (marks : Marks Name := {}) : Node Name :=
  .scalar marks [] true

/-- What is left of the tokens after something that was read. -/
abbrev Reader (α : Type) := List Token → Option (α × List Token)

def readMarks : List Token → Marks Name × List Token
  | .anchor name :: .tag _ tag :: rest => (⟨some name, some tag⟩, rest)
  | .tag _ tag :: .anchor name :: rest => (⟨some name, some tag⟩, rest)
  | .anchor name :: rest => (⟨some name, none⟩, rest)
  | .tag _ tag :: rest => (⟨none, some tag⟩, rest)
  | tokens => ({}, tokens)

def endsBlockNode : Token → Bool
  | .key | .value | .blockEnd => true
  | _ => false

def endsFlowNode (closing : Token) (token : Token) : Bool :=
  token == .flowEntry || token == closing

def readUnless (isEnd : Token → Bool) (read : Reader (Node Name)) : Reader (Node Name) := fun tokens =>
  if tokens.head?.any isEnd then some (absent, tokens) else read tokens

def readValue (isEnd : Token → Bool) (read : Reader (Node Name)) : Reader (Node Name)
  | .value :: rest => readUnless isEnd read rest
  | tokens => some (absent, tokens)

mutual

/-- A node. In a block it may be a block itself, and where an entry of a block mapping is expected a
sequence need not be indented. -/
def read (inBlock mayHang : Bool) : Nat → Reader (Node Name)
  | 0, _ => none
  | fuel + 1, tokens =>
      match tokens with
      | .alias name :: rest => some (.alias name, rest)
      | _ =>
          let (marks, rest) := readMarks tokens
          match rest with
          | .blockEntry :: _ =>
              if mayHang then do
                let (items, rest) ← readHanging fuel rest
                some (.sequence marks items, rest)
              else if marks = {} then none
              else some (absent marks, rest)
          | .scalar text plain :: rest =>
              if marks.tag = some ['!'] then some (.scalar { marks with tag := none } text plain, rest)
              else some (.scalar marks text plain, rest)
          | .flowSequence :: rest => do
              let (items, rest) ← readFlowItems true fuel rest
              some (.sequence marks items, rest)
          | .flowMapping :: rest => do
              let (entries, rest) ← readFlowEntries true fuel rest
              some (.mapping marks entries, rest)
          | token :: rest =>
              if inBlock && token == .blockSequence then do
                let (items, rest) ← readItems fuel rest
                some (.sequence marks items, rest)
              else if inBlock && token == .blockMapping then do
                let (entries, rest) ← readEntries fuel rest
                some (.mapping marks entries, rest)
              else if marks = {} then none
              else some (absent marks, token :: rest)
          | [] => if marks = {} then none else some (absent marks, [])

def readItems : Nat → Reader (List (Node Name))
  | fuel + 1, .blockEntry :: rest => do
      let (item, rest) ← readUnless (fun token => token == .blockEntry || token == .blockEnd)
        (read true false fuel) rest
      let (items, rest) ← readItems fuel rest
      some (item :: items, rest)
  | _ + 1, .blockEnd :: rest => some ([], rest)
  | _, _ => none

def readHanging : Nat → Reader (List (Node Name))
  | 0, _ => none
  | fuel + 1, .blockEntry :: rest => do
      let (item, rest) ← readUnless (fun token => token == .blockEntry || endsBlockNode token)
        (read true false fuel) rest
      let (items, rest) ← readHanging fuel rest
      some (item :: items, rest)
  | _ + 1, rest => some ([], rest)

def readEntries : Nat → Reader (List (Node Name × Node Name))
  | fuel + 1, .key :: rest => do
      let (key, rest) ← readUnless endsBlockNode (read true true fuel) rest
      let (value, rest) ← readValue endsBlockNode (read true true fuel) rest
      let (entries, rest) ← readEntries fuel rest
      some ((key, value) :: entries, rest)
  | _ + 1, .blockEnd :: rest => some ([], rest)
  | _, _ => none

/-- The items between square brackets. An item that has a key is a mapping of its own; a mark that
comes in place of its key is dropped. -/
def readFlowItems (first : Bool) : Nat → Reader (List (Node Name))
  | 0, _ => none
  | _ + 1, .flowSequenceEnd :: rest => some ([], rest)
  | fuel + 1, tokens => do
      let tokens ← match first, tokens with
        | true, tokens => some tokens
        | false, .flowEntry :: rest => some rest
        | false, _ => none
      let isEnd := endsFlowNode .flowSequenceEnd
      match tokens with
      | .flowSequenceEnd :: rest => some ([], rest)
      | .key :: rest => do
          let (key, rest) ←
            if rest.head?.any fun token => token == .value || isEnd token then
              some (absent, rest.tail)
            else read false false fuel rest
          let (value, rest) ← readValue isEnd (read false false fuel) rest
          let (items, rest) ← readFlowItems false fuel rest
          some (.mapping {} [(key, value)] :: items, rest)
      | tokens => do
          let (item, rest) ← read false false fuel tokens
          let (items, rest) ← readFlowItems false fuel rest
          some (item :: items, rest)

def readFlowEntries (first : Bool) : Nat → Reader (List (Node Name × Node Name))
  | 0, _ => none
  | _ + 1, .flowMappingEnd :: rest => some ([], rest)
  | fuel + 1, tokens => do
      let tokens ← match first, tokens with
        | true, tokens => some tokens
        | false, .flowEntry :: rest => some rest
        | false, _ => none
      let isEnd := endsFlowNode .flowMappingEnd
      match tokens with
      | .flowMappingEnd :: rest => some ([], rest)
      | .key :: rest => do
          let (key, rest) ← readUnless (fun token => token == .value || isEnd token)
            (read false false fuel) rest
          let (value, rest) ← readValue isEnd (read false false fuel) rest
          let (entries, rest) ← readFlowEntries false fuel rest
          some ((key, value) :: entries, rest)
      | tokens => do
          let (key, rest) ← read false false fuel tokens
          let (entries, rest) ← readFlowEntries false fuel rest
          some ((key, absent) :: entries, rest)

end

/-- The directives at the start of a stream: whether a version is given, the handles of tags, and
the tokens after them. A version is given at most once and no handle twice. -/
def readDirectives (versioned : Bool) (handles : List (Name × Name)) :
    List Token → Option (Bool × List (Name × Name) × List Token)
  | .version major minor :: rest =>
      if versioned || major ≠ 1 || (minor ≠ 1 && minor ≠ 2) then none
      else readDirectives true handles rest
  | .handle name expansion :: rest =>
      if (handles.lookup name).isSome then none
      else readDirectives versioned ((name, expansion) :: handles) rest
  | rest => some (versioned || !handles.isEmpty, handles, rest)

def usualHandles : List (Name × Name) :=
  [(['!'], ['!']), (['!', '!'], "tag:yaml.org,2002:".toList), ([], [])]

def expandTag? (handles : List (Name × Name)) : Token → Option Token
  | .tag handle suffix => (handles.lookup handle).map fun expansion => .tag [] (expansion ++ suffix)
  | token => some token

def ofTokens? (tokens : List Token) : Option (Option (Node Name)) := do
  let (directed, handles, rest) ← readDirectives false [] tokens
  let rest ← rest.mapM (expandTag? (handles ++ usualHandles))
  let fuel := 4 * rest.length + 4
  let (node, rest) ← match rest with
    | [] => if directed then none else some (none, [])
    | .documentStart :: rest =>
        if rest.head?.all fun token => token == .documentStart || token == .documentEnd then
          some (some absent, rest)
        else (read true false fuel rest).map fun (node, rest) => (some node, rest)
    | rest =>
        if directed then none
        else (read true false fuel rest).map fun (node, rest) => (some node, rest)
  if rest.all (· == .documentEnd) then some node else none

end Node

end Tagmark.Yaml
