import SvcLens.Numeral

namespace SvcLens.Immediate

def behindMark? (cs : List Char) : Option (List Char) :=
  match cs.dropWhile (· != '#') with
  | [] => none
  | _ :: tail => some tail

def hexDigits? : List Char → Option (List Nat)
  | '0' :: x :: d :: ds =>
    if x == 'x' || x == 'X' then (d :: ds).mapM Numeral.hexValue? else none
  | _ => none

-- The value of an immediate: behind the first number sign and between optional blanks, an optional
-- sign with decimal or hexadecimal digits. Anything else has no value, and a decimal numeral that
-- is too long is an error.
def parse (text : String) : Except Numeral.Error (Option Int) :=
  match behindMark? text.toList with
  | none => .ok none
  | some tail =>
    let (negative, digits) := Numeral.splitSign (Text.trim tail)
    if !digits.isEmpty && digits.all Text.isDecimal then
      (Numeral.readDecimal digits).map fun n => some (Numeral.signed negative n)
    else
      .ok ((hexDigits? digits).map fun ds => Numeral.signed negative (Numeral.ofDigits 16 ds))

end SvcLens.Immediate
