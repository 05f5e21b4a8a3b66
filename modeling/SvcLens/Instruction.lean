import SvcLens.Register
import SvcLens.Token

namespace SvcLens

inductive Problem where
  | comma
  | missingValue
  | badValue (text : String)
  deriving DecidableEq, Repr

def Problem.message : Problem → String
  | .comma => "se esperaba \x27,\x27 tras el registro destino"
  | .missingValue => "falta el valor a asignar"
  | .badValue text => "valor de mov inválido: " ++ text

inductive Instruction where
  | assign (register : Tracked) (value : Token)
  | malformed (problem : Problem) (culprit : Token)
  | trap
  | foreignTrap
  | other
  deriving DecidableEq, Repr

namespace Instruction

-- Whether a token is the given mnemonic, in small or capital letters. Only ASCII letters have to be
-- made small, since no letter beyond ASCII has one of `c`, `m`, `o`, `s` and `v` as its small form.
def isMnemonic (name : String) (t : Token) : Bool :=
  t.text.toList.map Char.toLower == name.toList

def ofValue (register : Tracked) (comma : Token) : List Token → Instruction
  | [] => .malformed .missingValue comma
  | value :: _ =>
    if value.kind = .ident then .assign register value
    else .malformed (.badValue value.text) value

def ofOperands (register : Tracked) (target : Token) : List Token → Instruction
  | [] => .malformed .comma target
  | comma :: rest =>
    if comma.kind = .comma then ofValue register comma rest else .malformed .comma comma

def ofMov : List Token → Instruction
  | [] => .other
  | target :: rest =>
    match Tracked.ofToken? target.text with
    | none => .other
    | some register => ofOperands register target rest

def ofSvc : List Token → Instruction
  | [] => .foreignTrap
  | operand :: _ => if operand.text = "#0" then .trap else .foreignTrap

def ofTokens : List Token → Instruction
  | [] => .other
  | t :: ts =>
    if isMnemonic "mov" t then ofMov ts
    else if isMnemonic "svc" t then ofSvc ts
    else .other

end Instruction

end SvcLens
