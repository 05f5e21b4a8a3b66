import SvcLens.Hint
import SvcLens.Numeral
import SvcLens.Text.Lines

namespace SvcLens

structure Inlay where
  line : Nat
  column : Nat
  label : String
  deriving DecidableEq, Repr

namespace Inlay

-- The column where the code of a line ends: before the first comment, or with the line.
def codeEnd : List Char → Nat
  | [] => 0
  | '@' :: _ => 0
  | '/' :: '/' :: _ => 0
  | _ :: cs => codeEnd cs + 1

def onLine (lines : List Text.Line) (n : Int) (hints : List Hint) : List Inlay :=
  if n < 0 then []
  else
    match lines[n.toNat]? with
    | none => []
    | some l => hints.map fun h => ⟨n.toNat, codeEnd l.chars, " ⟵ " ++ h.label⟩

def ofHints (text : String) (hints : HintTable) : List Inlay :=
  let lines := Text.splitLines text.toList
  hints.entries.flatMap fun e => onLine lines e.1 e.2

end Inlay

end SvcLens
