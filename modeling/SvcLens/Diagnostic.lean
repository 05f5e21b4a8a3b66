import SvcLens.Numeral
import SvcLens.Text.Upper

namespace SvcLens

inductive Severity where
  | error
  | warning
  | note
  | other (name : String)
  deriving DecidableEq, Repr

namespace Severity

def name : Severity → String
  | .error => "error"
  | .warning => "advertencia"
  | .note => "nota"
  | .other name => name

def ofName (name : String) : Severity :=
  if name = "error" then .error
  else if name = "advertencia" then .warning
  else if name = "nota" then .note
  else .other name

def label : Severity → String
  | .error => "ERROR"
  | .warning => "ADVERTENCIA"
  | .note => "NOTA"
  | .other name => Text.upper name

end Severity

-- The line and the column count from one, for the reader. The span is the columns from the first on
-- and before the second that the diagnostic is about, counted from zero.
structure Diagnostic where
  severity : Severity
  message : String
  line : Option Int := none
  column : Option Int := none
  hint : Option String := none
  file : Option String := none
  span : Option (Int × Int) := none
  deriving DecidableEq, Repr

namespace Diagnostic

def ofSpan (severity : Severity) (message : String) (line start stop : Int)
    (hint : Option String) : Diagnostic :=
  { severity, message, line := some (line + 1), column := some (start + 1), hint,
    span := some (start, stop) }

def position (line column : Option Int) : Except Numeral.Error String := do
  match line, column with
  | none, _ => return ""
  | some n, none => Numeral.write n
  | some n, some c => return (← Numeral.write n) ++ ":" ++ (← Numeral.write c)

def place (d : Diagnostic) : Except Numeral.Error String := do
  return d.file.elim "" (· ++ ":") ++ (← position d.line d.column)

def display (d : Diagnostic) : Except Numeral.Error String := do
  let place ← d.place
  let heading := if place.isEmpty then d.severity.label else place ++ ": " ++ d.severity.label
  let hint := match d.hint with
    | none => ""
    | some h => if h.isEmpty then "" else "  (pista: " ++ h ++ ")"
  return heading ++ ": " ++ d.message ++ hint

def anyError (ds : List Diagnostic) : Bool :=
  ds.any fun d => d.severity == .error

end Diagnostic

end SvcLens
