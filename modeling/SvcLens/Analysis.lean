import SvcLens.Diagnostic
import SvcLens.Hint
import SvcLens.Immediate
import SvcLens.Instruction
import SvcLens.Syscall
import SvcLens.Trace

namespace SvcLens

structure Assignment where
  value : String
  line : Int
  start : Int
  stop : Int
  deriving DecidableEq, Repr

abbrev Registers := Tracked → Option Assignment

namespace Registers

def unknown : Registers := fun _ => none

def set (rs : Registers) (r : Tracked) (a : Assignment) : Registers :=
  fun q => if q = r then some a else rs q

def after (rs : Registers) (line : Int) : Instruction → Registers
  | .assign r value => rs.set r ⟨value.text, line, value.start, value.stop⟩
  | _ => rs

end Registers

namespace Analysis

structure Context where
  syscalls : SyscallTable
  descriptors : IntMap String
  reporting : Bool

structure Findings where
  hints : List (Int × Hint) := []
  diagnostics : List Diagnostic := []
  trace : List Trace := []
  deriving BEq, Repr

def Findings.append (a b : Findings) : Findings :=
  ⟨a.hints ++ b.hints, a.diagnostics ++ b.diagnostics, a.trace ++ b.trace⟩

instance : Append Findings := ⟨Findings.append⟩

def shownValue (descriptors : IntMap String) (role value : String) : Except Numeral.Error String :=
  if role = "fd" then do
    let n ← Immediate.parse value
    return (n.bind descriptors.get?).getD value
  else .ok value

-- The hint for an argument, on the line that assigned it. An argument belongs to a tracked register
-- only under the register's usual name.
def argumentHint (c : Context) (rs : Registers) (a : Argument) :
    Except Numeral.Error (Option (Int × Hint)) :=
  match (Tracked.ofName? a.register).bind rs with
  | none => .ok none
  | some set => do
    let value ← shownValue c.descriptors a.name set.value
    let hover := if a.notes.isVacant then .ofText "" else a.notes
    return some (set.line, ⟨a.name ++ ": " ++ value, hover⟩)

def callHints (c : Context) (rs : Registers) (line : Int) (set : Assignment) (number : Int)
    (s : Syscall) : Except Numeral.Error (List (Int × Hint)) := do
  let n ← Numeral.write number
  let arguments ← s.arguments.mapM (argumentHint c rs)
  return (set.line, ⟨"syscall: " ++ s.name ++ " (" ++ n ++ ")", .ofText s.signature⟩) ::
    arguments.filterMap id ++
    [(line, ⟨s.signature ++ " → " ++ s.returns, .ofText ("x0 = " ++ s.returns)⟩)]

def Context.about (c : Context) (a : Assignment) (severity : Severity) (message : String)
    (hint : Option String) : List Diagnostic :=
  if c.reporting then [.ofSpan severity message a.line a.start a.stop hint] else []

def undecodable (c : Context) (line : Int) (set : Assignment) : Findings :=
  { diagnostics := c.about set .warning
      ("No se puede decodificar el número de syscall \x27" ++ set.value ++ "\x27")
      (some "use un inmediato numérico, p.ej. #64")
    trace := [.undecodable line set.value] }

def unknown (c : Context) (line : Int) (set : Assignment) (number : Int) :
    Except Numeral.Error Findings := do
  let n ← if c.reporting then Numeral.write number else .ok ""
  return {
    diagnostics := c.about set .note ("Syscall " ++ n ++ " no está en la tabla; sin pistas") none
    trace := [.unknown line number] }

def call (c : Context) (rs : Registers) (line : Int) (set : Assignment) :
    Except Numeral.Error Findings := do
  match ← Immediate.parse set.value with
  | none => return undecodable c line set
  | some number =>
    match c.syscalls.get? number with
    | none => unknown c line set number
    | some s => return { hints := ← callHints c rs line set number s }

def foreignTrapHint : Hint :=
  ⟨"expects #0", .ofText "Linux AArch64 system calls are issued with svc #0"⟩

def malformed (c : Context) (line : Int) (problem : Problem) (culprit : Token) : Findings :=
  { diagnostics :=
      if c.reporting then
        [.ofSpan .error ("Asignación mal formada: " ++ problem.message) line culprit.start
          culprit.stop (some "forma esperada: mov <registro>, <valor>")]
      else []
    trace := [.malformed line problem] }

def findingsAt (c : Context) (rs : Registers) (line : Int) :
    Instruction → Except Numeral.Error Findings
  | .assign r value => .ok { trace := [.assigned line r value.text] }
  | .malformed problem culprit => .ok (malformed c line problem culprit)
  | .trap => (rs .number).elim (.ok {}) (call c rs line)
  | .foreignTrap =>
    .ok { hints := if (rs .number).isSome then [(line, foreignTrapHint)] else [] }
  | .other => .ok {}

-- The pass over the lines. It carries along what is known of the registers, and adds what it finds
-- to what was found before.
def findingsOnto (c : Context) (found : Findings) (rs : Registers) :
    List (Int × List Token) → Except Numeral.Error Findings
  | [] => .ok found
  | (line, ts) :: rest => do
    let i := Instruction.ofTokens ts
    let here ← findingsAt c rs line i
    findingsOnto c (found ++ here) (rs.after line i) rest

end Analysis

-- What is found in a source, with the diagnostics behind those that there are already. An analysis
-- fails only where a number with too many digits has to be read or written.
def analyzeOnto (c : Analysis.Context) (earlier : List Diagnostic) (tokens : TokenTable) :
    Except Numeral.Error Analysis.Findings :=
  Analysis.findingsOnto c { diagnostics := earlier } .unknown tokens.entries

def analyze (c : Analysis.Context) (tokens : TokenTable) : Except Numeral.Error Analysis.Findings :=
  analyzeOnto c [] tokens

def Analysis.Findings.hintTable (f : Findings) : HintTable :=
  .ofEvents f.hints

end SvcLens
