import SvcLens.Numeral.Message

namespace SvcLens

inductive Register where
  | x (n : Fin 31)
  | w (n : Fin 31)
  | sp
  | wsp
  | xzr
  | wzr
  deriving DecidableEq, Repr

namespace Register

inductive Error where
  | unknown (text : String)
  | numeral (error : Numeral.Error)
  deriving DecidableEq, Repr

def Error.message : Error → String
  | .unknown text => "Registro inválido: " ++ text
  | .numeral e => e.message

def name : Register → String
  | .x n => "x" ++ Numeral.decimalOfNat n.val
  | .w n => "w" ++ Numeral.decimalOfNat n.val
  | .sp => "sp"
  | .wsp => "wsp"
  | .xzr => "xzr"
  | .wzr => "wzr"

def ofWord? (cs : List Char) : Option Register :=
  [("fp".toList, .x 29), ("lr".toList, .x 30), ("sp".toList, .sp), ("wsp".toList, .wsp),
   ("xzr".toList, .xzr), ("wzr".toList, .wzr)].lookup cs

def numbered (view : Fin 31 → Register) (text : String) (digits : List Char) :
    Except Error Register :=
  if digits.isEmpty || !digits.all Text.isDigitLike then .error (.unknown text)
  else
    match Numeral.readDecimal digits with
    | .error e => .error (.numeral e)
    | .ok n => if h : n < 31 then .ok (view ⟨n, h⟩) else .error (.unknown text)

-- Reads the name of a register, in small or capital letters and with blanks around it. Only ASCII
-- letters have to be made small: the letters beyond ASCII with a small ASCII form stand for `i` and
-- `k`, which no name contains.
def parse (text : String) : Except Error Register :=
  let cs := (Text.trim text.toList).map Char.toLower
  match ofWord? cs with
  | some r => .ok r
  | none =>
    match cs with
    | 'x' :: digits => numbered .x text digits
    | 'w' :: digits => numbered .w text digits
    | _ => .error (.unknown text)

def catalogue : List (String × String) :=
  (List.finRange 31).flatMap (fun n =>
    [((x n).name, "64-bit general-purpose"), ((w n).name, "32-bit low half")]) ++
  [("sp", "stack pointer"), ("wsp", "stack pointer (32-bit view)"), ("fp", "frame pointer (x29)"),
   ("lr", "link register (x30)"), ("xzr", "zero register (64-bit)"),
   ("wzr", "zero register (32-bit)")]

end Register

inductive Tracked where
  | argument (i : Fin 6)
  | number
  deriving DecidableEq, Repr

namespace Tracked

def register : Tracked → Register
  | .argument i => .x (i.castLE (by decide))
  | .number => .x 8

def name (r : Tracked) : String :=
  r.register.name

def all : List Tracked :=
  (List.finRange 6).map .argument ++ [.number]

-- Writing to the view of 32 bits clears the upper half, so it sets the whole register.
def ofRegister? : Register → Option Tracked
  | .x n | .w n => all.find? fun r => r.register = .x n
  | _ => none

def ofToken? (text : String) : Option Tracked :=
  match Register.parse text with
  | .ok r => ofRegister? r
  | .error _ => none

def ofName? (name : String) : Option Tracked :=
  all.find? fun r => r.name = name

end Tracked

end SvcLens
