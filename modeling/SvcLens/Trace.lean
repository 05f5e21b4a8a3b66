import SvcLens.Instruction

namespace SvcLens

inductive Trace where
  | scanned (lines : Nat)
  | malformed (line : Int) (problem : Problem)
  | assigned (line : Int) (register : Tracked) (value : String)
  | undecodable (line : Int) (value : String)
  | unknown (line : Int) (number : Int)
  | finished (source : String) (lines diagnostics : Nat)
  deriving DecidableEq, Repr

namespace Trace

def message : Trace → String
  | .scanned lines => "tokenizadas " ++ Numeral.decimalOfNat lines ++ " líneas con contenido"
  | .malformed line problem => onLine line ("mov mal formado (" ++ problem.message ++ ")")
  | .assigned line register value => onLine line (register.name ++ " <- " ++ value)
  | .undecodable line value => onLine line ("x8 = " ++ value ++ " no es un número")
  | .unknown line number => onLine line ("syscall " ++ Numeral.decimal number ++ " desconocida")
  | .finished source lines diagnostics =>
    source ++ ": " ++ Numeral.decimalOfNat lines ++ " líneas con pistas, " ++
      Numeral.decimalOfNat diagnostics ++ " diagnósticos"
where
  onLine (line : Int) (what : String) : String :=
    "línea " ++ Numeral.decimal line ++ ": " ++ what

inductive Level where
  | debug
  | info
  deriving DecidableEq, Repr

def Level.name : Level → String
  | .debug => "DEBUG"
  | .info => "INFO"

def Level.weight : Level → Nat
  | .debug => 10
  | .info => 20

def level : Trace → Level
  | .finished .. => .info
  | _ => .debug

end Trace

end SvcLens
