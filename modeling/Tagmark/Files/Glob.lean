/-!
Patterns of paths. A star stands for any part of one name, two stars between slashes for any number
of names. Patterns are compared with the octets of a path.
-/

namespace Tagmark

inductive Glob where
  | exactly (value : UInt8)
  | anyOne
  | anyPart
  | range (negated : Bool) (bounds : List (UInt8 × UInt8))
  | leading
  | between
  | trailing
  | oneOf (branches : List (List Glob))
deriving Inhabited

namespace Glob

def slash : UInt8 := 0x2F

def afterSome (p : UInt8 → Bool) (next : List UInt8 → Bool) : List UInt8 → Bool
  | [] => next []
  | octet :: text => next (octet :: text) || (p octet && afterSome p next text)

def afterSlash (next : List UInt8 → Bool) : List UInt8 → Bool
  | [] => false
  | octet :: text => (octet == slash && next text) || afterSlash next text

def afterOne (p : UInt8 → Bool) (next : List UInt8 → Bool) : List UInt8 → Bool
  | [] => false
  | octet :: text => p octet && next text

mutual

def matchesThen : Glob → (List UInt8 → Bool) → List UInt8 → Bool
  | .exactly value, next => afterOne (· == value) next
  | .anyOne, next => afterOne (· != slash) next
  | .anyPart, next => afterSome (· != slash) next
  | .range negated bounds, next =>
      afterOne (fun octet =>
        (bounds.any fun bound => bound.1 ≤ octet && octet ≤ bound.2) != negated) next
  | .leading, next => fun text => next text || afterSlash next text
  | .between, next => afterOne (· == slash) fun text => next text || afterSlash next text
  | .trailing, next => afterOne (· == slash) (afterSome (fun _ => true) next)
  | .oneOf branches, next => anyMatchesThen branches next

def allMatchThen : List Glob → (List UInt8 → Bool) → List UInt8 → Bool
  | [], next => next
  | piece :: pieces, next => matchesThen piece (allMatchThen pieces next)

def anyMatchesThen : List (List Glob) → (List UInt8 → Bool) → List UInt8 → Bool
  | [], _ => fun _ => false
  | branch :: branches, next => fun text =>
      allMatchThen branch next text || anyMatchesThen branches next text

end

def isMatch (pattern : List Glob) (path : String) : Bool :=
  match pattern with
  | [.leading] => true
  | _ => allMatchThen pattern List.isEmpty path.toUTF8.toList

def octetsOf (c : Char) : List UInt8 :=
  (String.singleton c).toUTF8.toList

def literal (c : Char) : List Glob :=
  (octetsOf c).map .exactly

def boundsOf (first last : Char) : List (UInt8 × UInt8) :=
  let alone (octets : List UInt8) := octets.map fun octet => (octet, octet)
  let firsts := octetsOf first
  let lasts := octetsOf last
  if first = last then alone firsts
  else
    alone firsts.dropLast ++ alone lasts.tail ++
      [(firsts.getLast?.getD 0, lasts.head?.getD 0)]

inductive ClassText where
  | ranges (ranges : List (Char × Char)) (rest : List Char)
  /-- There is no closing bracket, so the opening one stands for itself. -/
  | unclosed
  | disordered

/-- The ranges of a class. `found` has those read so far, the last one first; `isOpen` tells that a
hyphen came after it. A closing bracket that comes first stands for itself. -/
def readRanges (found : List (Char × Char)) (isOpen : Bool) : List Char → ClassText
  | [] => .unclosed
  | c :: rest =>
      match found with
      | [] => readRanges [(c, c)] false rest
      | (first, last) :: others =>
          if c = ']' then .ranges (if isOpen then ('-', '-') :: found else found) rest
          else if isOpen then
            if c < first then .disordered else readRanges ((first, c) :: others) false rest
          else if c = '-' then readRanges ((first, last) :: others) true rest
          else readRanges ((c, c) :: found) false rest

def classSign : List Char → Bool × List Char
  | '!' :: inner | '^' :: inner => (true, inner)
  | inner => (false, inner)

def oneOfNonempty (branches : List (List Glob)) : List Glob :=
  match branches.filter fun branch => !branch.isEmpty with
  | [] => []
  | branches => [.oneOf branches]

/-- What two stars stand for after the pieces `before`, the last one first, and what is left. Only
between slashes or the ends of a pattern do they stand for more than one star. -/
def readStars (inGroup : Bool) (before : List Glob) (previous : Option Char) (text : List Char) :
    List Glob × List Char :=
  let plain := (.anyPart :: .anyPart :: before, text)
  let extend (piece : Glob) := match before with
    | .leading :: others => .leading :: others
    | .trailing :: others => .trailing :: others
    | _ :: others => piece :: others
    | [] => [piece]
  if before.isEmpty then
    match text with
    | [] => ([.leading], [])
    | '/' :: rest => ([.leading], rest)
    | _ => plain
  else if previous ≠ some '/' then plain
  else
    match text with
    | [] => (extend .trailing, [])
    | '/' :: rest => (extend .between, rest)
    | c :: _ => if inGroup && (c == ',' || c.toNat == 0x7D) then (extend .trailing, text) else plain

mutual

/-- The pieces of a pattern after `before`, the last one first. In a group the text up to a comma or
the closing brace is read. -/
def readPieces? (inGroup : Bool) (before : List Glob) (previous : Option Char) :
    Nat → List Char → Option (List Glob × List Char)
  | 0, _ => none
  | fuel + 1, text =>
      match text with
      | [] => if inGroup then none else some (before.reverse, [])
      | c :: rest =>
          let go (pieces : List Glob) (rest : List Char) :=
            readPieces? inGroup (pieces.reverse ++ before) (some c) fuel rest
          if c = '?' then go [.anyOne] rest
          else if c = '*' then
            match rest with
            | '*' :: rest =>
                let (pieces, after) := readStars inGroup before previous rest
                let last := if after.length < rest.length then '/' else '*'
                readPieces? inGroup pieces (some last) fuel after
            | _ => go [.anyPart] rest
          else if c = '[' then
            let (negated, inner) := classSign rest
            match readRanges [] false inner with
            | .ranges ranges after =>
                let bounds := ranges.flatMap fun range => boundsOf range.1 range.2
                readPieces? inGroup (.range negated bounds :: before) (some ']') fuel after
            | .unclosed => go (literal c) rest
            | .disordered => none
          else if c.toNat = 0x7B then
            match readBranches? fuel rest with
            | none => none
            | some (branches, after) =>
                readPieces? inGroup (oneOfNonempty branches ++ before) (some '\x7d') fuel after
          else if c.toNat = 0x7D then
            if inGroup then some (before.reverse, text) else none
          else if c = ',' && inGroup then some (before.reverse, text)
          else if c = '\\' then
            match rest with
            | [] => none
            | d :: rest => readPieces? inGroup ((literal d).reverse ++ before) (some d) fuel rest
          else go (literal c) rest

def readBranches? : Nat → List Char → Option (List (List Glob) × List Char)
  | 0, _ => none
  | fuel + 1, text =>
      match readPieces? true [] none fuel text with
      | some (branch, ',' :: rest) =>
          (readBranches? fuel rest).map fun (branches, after) => (branch :: branches, after)
      | some (branch, _ :: rest) => some ([branch], rest)
      | _ => none

end

def read? (text : List Char) : Option (List Glob) :=
  (readPieces? false [] none (2 * text.length + 2) text).map (·.1)

end Glob

end Tagmark
