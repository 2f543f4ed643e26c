/-!
Arguments of a command line. An option is written out after two hyphens or as one letter after one;
its value stands after an equals sign, directly after its letter, or in the next argument. After two
hyphens alone every argument is a path.
-/

namespace Tagmark.Command

structure Flag where
  name : String
  letter : Option Char := none
deriving DecidableEq, Inhabited, Repr

inductive Usage where
  | help
  | version
  | wrong
deriving DecidableEq, Inhabited, Repr

/-- What may stand at one level of a command line. -/
structure Grammar where
  switches : List Flag
  settings : List Flag
  halts : List (Flag × Usage)
  paths : Nat := 0
  commands : List String := []

structure Arguments where
  switches : List String := []
  settings : List (String × String) := []
  paths : List String := []
deriving DecidableEq, Inhabited, Repr

namespace Arguments

def set (arguments : Arguments) (name : String) : Except Usage Arguments :=
  if arguments.switches.contains name then .error .wrong
  else .ok { arguments with switches := name :: arguments.switches }

def assign (arguments : Arguments) (name value : String) : Except Usage Arguments :=
  if value = "" || (arguments.settings.lookup name).isSome then .error .wrong
  else .ok { arguments with settings := (name, value) :: arguments.settings }

def addPath (grammar : Grammar) (arguments : Arguments) (path : String) : Except Usage Arguments :=
  if path = "" || grammar.paths ≤ arguments.paths.length then .error .wrong
  else .ok { arguments with paths := arguments.paths ++ [path] }

end Arguments

/-- The kinds of options. -/
inductive Meaning where
  | switch (name : String)
  | setting (name : String)
  | halt (usage : Usage)

namespace Grammar

def meaning? (grammar : Grammar) (p : Flag → Bool) : Option Meaning :=
  ((grammar.halts.find? fun halt => p halt.1).map fun halt => Meaning.halt halt.2).or
    (((grammar.switches.find? p).map fun flag => Meaning.switch flag.name).or
      ((grammar.settings.find? p).map fun flag => Meaning.setting flag.name))

/-- Reads an option that is written out, after its hyphens. The name of a setting whose value is to
follow is given back. -/
def readLong (grammar : Grammar) (arguments : Arguments) (text : List Char) :
    Except Usage (Arguments × Option String) :=
  let name := String.ofList (text.takeWhile (· != '='))
  let value := (text.dropWhile (· != '=')).tail?
  match grammar.meaning? (·.name == name), value with
  | some (.halt usage), none => .error usage
  | some (.switch name), none => (arguments.set name).map fun arguments => (arguments, none)
  | some (.setting name), none => .ok (arguments, some name)
  | some (.setting name), some value =>
      (arguments.assign name (String.ofList value)).map fun arguments => (arguments, none)
  | _, _ => .error .wrong

def readLetters (grammar : Grammar) (arguments : Arguments) :
    List Char → Except Usage (Arguments × Option String)
  | [] => .ok (arguments, none)
  | letter :: rest =>
      match grammar.meaning? (·.letter == some letter) with
      | some (.halt usage) => .error usage
      | some (.switch name) =>
          match arguments.set name with
          | .error usage => .error usage
          | .ok arguments => readLetters grammar arguments rest
      | some (.setting name) =>
          match rest with
          | [] => .ok (arguments, some name)
          | '=' :: value | value =>
              (arguments.assign name (String.ofList value)).map fun arguments => (arguments, none)
      | none => .error .wrong

/-- Reads the arguments of a level, up to the name of a command. `pending` is a setting whose value
is to follow. -/
def read (grammar : Grammar) (arguments : Arguments) (pending : Option String) :
    List String → Except Usage (Arguments × Option (String × List String))
  | [] => if pending.isSome then .error .wrong else .ok (arguments, none)
  | argument :: rest =>
      if pending.isNone && grammar.commands.contains argument then
        .ok (arguments, some (argument, rest))
      else
        let next (result : Except Usage (Arguments × Option String)) :=
          match result with
          | .error usage => .error usage
          | .ok (arguments, pending) => read grammar arguments pending rest
        match argument.toList, pending with
        | '-' :: _ :: _, some _ => .error .wrong
        | ['-', '-'], none =>
            (rest.foldlM (Arguments.addPath grammar) arguments).map fun arguments =>
              (arguments, none)
        | '-' :: '-' :: text, none => next (grammar.readLong arguments text)
        | '-' :: letter :: letters, none => next (grammar.readLetters arguments (letter :: letters))
        | _, some name => next ((arguments.assign name argument).map fun arguments => (arguments, none))
        | _, none => next ((arguments.addPath grammar argument).map fun arguments => (arguments, none))

end Grammar

end Tagmark.Command
