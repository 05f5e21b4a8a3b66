import SvcLens.Decimal.Binary64

namespace SvcLens.Decimal

structure Scientific where
  digits : Nat
  exponent : Int
  deriving DecidableEq, Repr

namespace Shortest

structure Ratio where
  num : Nat
  den : Nat

def Ratio.ofBinary (n : Nat) (e : Int) : Ratio :=
  if 0 ≤ e then ⟨n * Nat.pow 2 e.toNat, 1⟩ else ⟨n, Nat.pow 2 (-e).toNat⟩

def Ratio.ofDecimal (n : Nat) (e : Int) : Ratio :=
  if 0 ≤ e then ⟨n * Nat.pow 10 e.toNat, 1⟩ else ⟨n, Nat.pow 10 (-e).toNat⟩

def Ratio.le (a b : Ratio) : Bool := a.num * b.den ≤ b.num * a.den

def Ratio.lt (a b : Ratio) : Bool := a.num * b.den < b.num * a.den

-- The numbers that round to `m * 2 ^ e` lie between the midpoints to its neighbours. Below a power
-- of two the neighbour is only half as far away. The ends belong to it if `m` is even.
structure Interval where
  low : Ratio
  high : Ratio
  closed : Bool

def interval (m : Nat) (e : Int) : Interval where
  low :=
    if m == Nat.pow 2 (Binary64.precision - 1) && e != Binary64.minExponent then
      .ofBinary (4 * m - 1) (e - 2)
    else .ofBinary (2 * m - 1) (e - 1)
  high := .ofBinary (2 * m + 1) (e - 1)
  closed := m % 2 == 0

def Interval.contains (i : Interval) (r : Ratio) : Bool :=
  if i.closed then i.low.le r && r.le i.high else i.low.lt r && r.lt i.high

def candidate? (i : Interval) (v : Ratio) (exponent : Int) : Option Scientific :=
  let step := Ratio.ofDecimal 1 exponent
  let num := v.num * step.den
  let den := v.den * step.num
  let down := num / den
  let rest := num % den
  let upFirst := 2 * rest > den || (2 * rest == den && down % 2 == 1)
  let (first, second) := if upFirst then (down + 1, down) else (down, down + 1)
  if first != 0 && i.contains (.ofDecimal first exponent) then some ⟨first, exponent⟩
  else if second != 0 && i.contains (.ofDecimal second exponent) then some ⟨second, exponent⟩
  else none

def topExponent (m : Nat) (e : Int) : Int :=
  ((m.log2 : Int) + e + 1) * 30103 / 100000 + 1

-- Tries ever finer grids. Seventeen digits always suffice, and the start is at most two places
-- above the first digit.
def search (i : Interval) (v : Ratio) (exponent : Int) : Nat → Scientific
  | 0 => ⟨v.num * Nat.pow 10 (-exponent).toNat / (v.den * Nat.pow 10 exponent.toNat), exponent⟩
  | tries + 1 =>
    match candidate? i v exponent with
    | some s => s
    | none => search i v (exponent - 1) tries

def strip (s : Scientific) : Scientific :=
  if h : s.digits = 0 ∨ s.digits % 10 ≠ 0 then s
  else strip ⟨s.digits / 10, s.exponent + 1⟩
termination_by s.digits
decreasing_by omega

end Shortest

def shortest (m : Nat) (e : Int) : Scientific :=
  let v := Shortest.Ratio.ofBinary m e
  Shortest.strip (Shortest.search (Shortest.interval m e) v (Shortest.topExponent m e) 20)

end SvcLens.Decimal
