import Tagmark.Command.Basic
import Tagmark.Data.Json
import Tagmark.Fault
import Tagmark.Files

/-! Reports of checks, and how they are printed. -/

namespace Tagmark

inductive Colour where
  | red
  | green
  | bold
deriving DecidableEq, Inhabited, Repr

def Colour.codes : Colour → Nat × Nat
  | .red => (31, 39)
  | .green => (32, 39)
  | .bold => (1, 0)

def Colour.paint (colour : Colour) (coloured : Bool) (text : String) : String :=
  if coloured then
    "\x1b[" ++ toString colour.codes.1 ++ "m" ++ text ++ "\x1b[" ++ toString colour.codes.2 ++ "m"
  else text

/-- A document that cannot be read as a page, by its way from the directory that is checked. -/
structure Finding where
  way : Place
  kind : Fault.Kind
  message : String
deriving DecidableEq, Inhabited, Repr

namespace Finding

def line (coloured : Bool) (finding : Finding) : String :=
  Colour.red.paint coloured "error:" ++ " " ++ Colour.bold.paint coloured finding.way.print ++ ": " ++
    finding.message ++ "\n"

def toData (finding : Finding) : Data :=
  .mapping
    [("path", .text finding.way.print), ("kind", .text finding.kind.name),
      ("message", .text finding.message)]

end Finding

structure Report where
  checked : Nat
  findings : List Finding
deriving DecidableEq, Inhabited, Repr

namespace Report

def isClean (report : Report) : Bool :=
  report.findings.isEmpty

def text (coloured : Bool) (report : Report) : String :=
  String.join (report.findings.map (Finding.line coloured)) ++
    if report.isClean then
      Colour.green.paint coloured
        ("All " ++ toString report.checked ++ " document(s) are valid.") ++ "\n"
    else
      "\n" ++ toString report.findings.length ++ " of " ++ toString report.checked ++
        " document(s) failed.\n"

def toData (report : Report) : Data :=
  .mapping
    [("checked", .integer report.checked),
      ("failures", .list (report.findings.map Finding.toData))]

def print (coloured : Bool) (report : Report) : ReportFormat → String
  | .text => report.text coloured
  | .json => report.toData.json ++ "\n"

end Report

end Tagmark
