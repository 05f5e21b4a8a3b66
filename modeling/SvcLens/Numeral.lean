import SvcLens.Text.Digit

namespace SvcLens.Numeral

open Text

-- Decimal numerals are limited in length both ways, because converting a long one takes time that
-- grows with the square of its length.
def maxDigits : Nat := 4300

inductive Error where
  | tooLong (digits : Nat)
  | tooLarge
  | notDecimal (text : String)
  deriving DecidableEq, Repr

def ofDigits (base : Nat) (digits : List Nat) : Nat :=
  digits.foldl (fun n d => base * n + d) 0

def digitsOnto (base : Nat) (n : Nat) (known : List Nat) : List Nat :=
  if _h : n < base ∨ base < 2 then n :: known
  else digitsOnto base (n / base) (n % base :: known)
termination_by n
decreasing_by exact Nat.div_lt_self (by omega) (by omega)

def toDigits (base n : Nat) : List Nat :=
  digitsOnto base n []

def digitChar (d : Nat) : Char :=
  if d < 10 then Char.ofNat (0x30 + d) else Char.ofNat (0x57 + d)

def decimalOfNat (n : Nat) : String :=
  String.ofList ((toDigits 10 n).map digitChar)

def decimal (n : Int) : String :=
  if n < 0 then "-" ++ decimalOfNat n.natAbs else decimalOfNat n.natAbs

def write (n : Int) : Except Error String :=
  if n.natAbs < Nat.pow 10 maxDigits then .ok (decimal n) else .error .tooLarge

-- Reads a whole text as a decimal numeral without sign. A run of digits that is too long is refused
-- before anything behind it is looked at.
def readDecimal (cs : List Char) : Except Error Nat :=
  let digits := cs.takeWhile isDecimal
  if maxDigits < digits.length then .error (.tooLong digits.length)
  else if digits.isEmpty || digits.length < cs.length then .error (.notDecimal (String.ofList cs))
  else .ok (ofDigits 10 (digits.filterMap decimalValue?))

def hexValue? (c : Char) : Option Nat :=
  if '0' ≤ c && c ≤ '9' then some (c.toNat - 0x30)
  else if 'a' ≤ c && c ≤ 'f' then some (c.toNat - 0x57)
  else if 'A' ≤ c && c ≤ 'F' then some (c.toNat - 0x37)
  else none

def digitValue? (base : Nat) (c : Char) : Option Nat :=
  (hexValue? c).filter (· < base)

def splitSign : List Char → Bool × List Char
  | '+' :: cs => (false, cs)
  | '-' :: cs => (true, cs)
  | cs => (false, cs)

def signed (negative : Bool) (n : Nat) : Int :=
  if negative then -(n : Int) else n

def ofGroups? (base : Nat) (cs : List Char) : Option (List Nat) :=
  let groups := cs.splitOn '_'
  if groups.any List.isEmpty then none else groups.flatten.mapM (digitValue? base)

def ofUnsignedLiteral? : List Char → Option Nat
  | '0' :: mark :: cs =>
    let marked (base : Nat) : Option Nat :=
      (ofGroups? base (if cs.head? = some '_' then cs.tail else cs)).map (ofDigits base)
    if mark = 'x' || mark = 'X' then marked 16
    else if mark = 'o' || mark = 'O' then marked 8
    else if mark = 'b' || mark = 'B' then marked 2
    else do
      let digits ← ofGroups? 10 ('0' :: mark :: cs)
      if digits.length ≤ maxDigits && digits.all (· == 0) then some 0 else none
  | cs => do
    let digits ← ofGroups? 10 cs
    if digits.length ≤ maxDigits then some (ofDigits 10 digits) else none

-- The ASCII character that a character of an integer literal counts as: digits of all scripts are
-- digits, blanks beyond ASCII are spaces, and nothing else beyond ASCII has a meaning.
def asciiForm (c : Char) : Char :=
  if c.toNat < 127 then c
  else if isBlank c then ' '
  else match decimalValue? c with
    | some d => digitChar d
    | none => '?'

def isLiteralBlank (c : Char) : Bool :=
  c == ' ' || (0x9 ≤ c.toNat && c.toNat ≤ 0xD)

def ofLiteral? (s : String) : Option Int :=
  let cs := (s.toList.map asciiForm).dropWhile isLiteralBlank
  let (negative, body) := splitSign (cs.reverse.dropWhile isLiteralBlank).reverse
  (ofUnsignedLiteral? body).map (signed negative)

end SvcLens.Numeral
