import Tagmark.Command.Arguments

/-!
Commands: what there is to do, with which configuration, and how much is told about it. What is set
after the name of a command takes the place of what is set before it.
-/

namespace Tagmark

inductive ReportFormat where
  | text
  | json
deriving DecidableEq, Inhabited, Repr

inductive Action where
  | render (document : String) (output : Option String)
  | tree (document : String)
  | frontmatter (document : String)
  | check (directory : Option String) (format : ReportFormat)
deriving DecidableEq, Inhabited, Repr

structure Command where
  config : Option String
  verbose : Bool
  plain : Bool
  action : Option Action
deriving DecidableEq, Inhabited, Repr

namespace Command

def commonSwitches : List Flag :=
  [⟨"verbose", some 'v'⟩, ⟨"no-color", none⟩]

def configSetting : Flag := ⟨"config", some 'c'⟩

def helpSwitch : Flag × Usage := (⟨"help", some 'h'⟩, .help)

def grammar : Grammar where
  switches := commonSwitches
  settings := [configSetting]
  halts := [helpSwitch, (⟨"version", some 'V'⟩, .version)]
  commands := ["render", "tree", "frontmatter", "check", "help"]

def actionGrammar (settings : List Flag) : Grammar where
  switches := commonSwitches
  settings := configSetting :: settings
  halts := [helpSwitch]
  paths := 1

def requirePath (arguments : Arguments) : Except Usage String :=
  match arguments.paths with
  | path :: _ => .ok path
  | [] => .error .wrong

def formatOf (arguments : Arguments) : Except Usage ReportFormat :=
  match arguments.settings.lookup "format" with
  | none | some "text" => .ok .text
  | some "json" => .ok .json
  | some _ => .error .wrong

def readArguments (settings : List Flag) (rest : List String) : Except Usage Arguments :=
  ((actionGrammar settings).read {} none rest).map (·.1)

def readAction (name : String) (rest : List String) : Except Usage (Action × Arguments) :=
  match name with
  | "render" => do
      let arguments ← readArguments [⟨"output", some 'o'⟩] rest
      return (.render (← requirePath arguments) (arguments.settings.lookup "output"), arguments)
  | "tree" => do
      let arguments ← readArguments [] rest
      return (.tree (← requirePath arguments), arguments)
  | "frontmatter" => do
      let arguments ← readArguments [] rest
      return (.frontmatter (← requirePath arguments), arguments)
  | "check" => do
      let arguments ← readArguments [⟨"format", none⟩] rest
      return (.check arguments.paths.head? (← formatOf arguments), arguments)
  | _ =>
      match rest with
      | [] => .error .help
      | [name] => .error (if grammar.commands.contains name then .help else .wrong)
      | _ => .error .wrong

def ofArguments (outer inner : Arguments) (action : Option Action) : Command where
  config := (inner.settings.lookup "config").or (outer.settings.lookup "config")
  verbose := outer.switches.contains "verbose" || inner.switches.contains "verbose"
  plain := outer.switches.contains "no-color" || inner.switches.contains "no-color"
  action := action

def read (arguments : List String) : Except Usage Command := do
  match ← grammar.read {} none arguments with
  | (outer, none) => return ofArguments outer {} none
  | (outer, some (name, rest)) => do
      let (action, inner) ← readAction name rest
      return ofArguments outer inner (some action)

end Command

end Tagmark
