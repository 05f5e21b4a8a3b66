namespace SvcLens.Decimal

-- A floating-point number. A finite one is `m * 2 ^ e` with its sign; it is normal if `m` has 53
-- bits, and the least exponent belongs to the numbers near zero.
inductive Binary64 where
  | nan
  | infinite (negative : Bool)
  | finite (negative : Bool) (m : Nat) (e : Int)
  deriving DecidableEq, Repr

namespace Binary64

def precision : Nat := 53

def minExponent : Int := -1074

def maxExponent : Int := 972

def isZero : Binary64 → Bool
  | .finite _ m _ => m == 0
  | _ => false

def roundDiv (num den : Nat) : Nat :=
  let q := num / den
  let r := num % den
  if 2 * r > den || (2 * r == den && q % 2 == 1) then q + 1 else q

def scale (num den : Nat) (e : Int) : Nat × Nat :=
  if 0 ≤ e then (num, den * Nat.pow 2 e.toNat) else (num * Nat.pow 2 (-e).toNat, den)

def floorLog2 (num den : Nat) : Int :=
  let b : Int := (num.log2 : Int) - den.log2
  let (n, d) := scale num den b
  if d ≤ n then b else b - 1

def ofRatio (negative : Bool) (num den : Nat) : Binary64 :=
  if num == 0 then .finite negative 0 minExponent
  else
    let e := max (floorLog2 num den - (precision - 1 : Nat)) minExponent
    let (n, d) := scale num den e
    let m := roundDiv n d
    -- Rounding up may take one bit more, and is then a power of two.
    let (m, e) := if m == Nat.pow 2 precision then (m / 2, e + 1) else (m, e)
    if maxExponent ≤ e then .infinite negative else .finite negative m e

-- The floating-point number nearest to `digits * 10 ^ exponent`. Exponents that are out of reach
-- are settled by the number of digits alone, before any power is computed.
def ofDecimal (negative : Bool) (digits : Nat) (length : Nat) (exponent : Int) : Binary64 :=
  if digits == 0 then .finite negative 0 minExponent
  else if (length : Int) + exponent < -400 then .finite negative 0 minExponent
  else if exponent > 400 then .infinite negative
  else if 0 ≤ exponent then ofRatio negative (digits * Nat.pow 10 exponent.toNat) 1
  else ofRatio negative digits (Nat.pow 10 (-exponent).toNat)

end Binary64

end SvcLens.Decimal
