import SvcLens.Decimal.Shortest
import SvcLens.Numeral
import SvcLens.Text.Quoted

namespace SvcLens

-- The members of an object stand in order and have different names. Strings and names are loose
-- texts, because escapes can spell halves of surrogate pairs.
inductive Json where
  | null
  | bool (b : Bool)
  | integer (n : Int)
  | real (x : Decimal.Binary64)
  | string (s : Text.Loose)
  | array (elements : List Json)
  | object (members : List (Text.Loose × Json))
  deriving BEq, Inhabited, Repr

namespace Json

def ofText (s : String) : Json :=
  .string (.ofString s)

def member? (name : String) (members : List (Text.Loose × Json)) : Option Json :=
  members.reverse.lookup (.ofString name)

def putMember (members : List (Text.Loose × Json)) (name : Text.Loose) (value : Json) :
    List (Text.Loose × Json) :=
  if members.any (·.1 == name) then
    members.map fun m => if m.1 == name then (name, value) else m
  else members ++ [(name, value)]

def isVacant : Json → Bool
  | .null => true
  | .bool b => !b
  | .integer n => n == 0
  | .real x => x.isZero
  | .string s => s.isEmpty
  | .array elements => elements.isEmpty
  | .object members => members.isEmpty

structure RealFormat where
  leastPositional : Int
  leastScientific : Int
  exponentWidth : Nat
  nan : String
  infinity : String

-- Positional from 0.0001 on and below 10^16, with a fraction in any case, and exponents with a sign
-- and two digits.
def realFormat : RealFormat := ⟨-4, 16, 2, "nan", "inf"⟩

def positional (digits : List Char) (point : Int) : List Char :=
  if point ≤ 0 then '0' :: '.' :: List.replicate (-point).toNat '0' ++ digits
  else if point.toNat < digits.length then
    digits.take point.toNat ++ '.' :: digits.drop point.toNat
  else digits ++ List.replicate (point.toNat - digits.length) '0' ++ ['.', '0']

def scientific (f : RealFormat) (digits : List Char) (power : Int) : List Char :=
  let mantissa := match digits with
    | d :: e :: ds => d :: '.' :: e :: ds
    | ds => ds
  let exponent := (Numeral.toDigits 10 power.natAbs).map Numeral.digitChar
  mantissa ++ 'e' :: (if power < 0 then '-' else '+') ::
    (List.replicate (f.exponentWidth - exponent.length) '0' ++ exponent)

def displayReal (f : RealFormat) : Decimal.Binary64 → String
  | .nan => f.nan
  | .infinite negative => (if negative then "-" else "") ++ f.infinity
  | .finite negative m e =>
    (if negative then "-" else "") ++ String.ofList (magnitude m e)
where
  magnitude (m : Nat) (e : Int) : List Char :=
    if m == 0 then ['0', '.', '0']
    else
      let s := Decimal.shortest m e
      let digits := (Numeral.toDigits 10 s.digits).map Numeral.digitChar
      let point := (digits.length : Int) + s.exponent
      if f.leastPositional ≤ point - 1 && point - 1 < f.leastScientific then positional digits point
      else scientific f digits (point - 1)

mutual

def display : Json → String
  | .null => "None"
  | .bool b => if b then "True" else "False"
  | .integer n => Numeral.decimal n
  | .real x => displayReal realFormat x
  | .string s => Text.Quoted.encodeLoose s
  | .array elements => "[" ++ ", ".intercalate (displayAll elements) ++ "]"
  | .object members => "\x7b" ++ ", ".intercalate (displayMembers members) ++ "\x7d"

def displayAll : List Json → List String
  | [] => []
  | v :: vs => display v :: displayAll vs

def displayMembers : List (Text.Loose × Json) → List String
  | [] => []
  | (name, v) :: ms => (Text.Quoted.encodeLoose name ++ ": " ++ display v) :: displayMembers ms

end

def asText : Json → Text.Loose
  | .string s => s
  | v => .ofString (display v)

end Json

end SvcLens
