import Mathlib.Algebra.Order.Ring.Nat
import Mathlib.Data.List.Induction
import SvcLens.Numeral

namespace SvcLens.Numeral

variable {base n k : Nat} {known ds : List Nat}

theorem length_lt_length_digitsOnto (base n : Nat) (known : List Nat) :
    known.length < (digitsOnto base n known).length := by
  fun_induction digitsOnto base n known
  case case1 => simp
  case case2 ih =>
    rw [List.length_cons] at ih
    omega

theorem length_digitsOnto_le_iff (hb : 2 ≤ base) :
    (digitsOnto base n known).length ≤ known.length + (k + 1) ↔ n < base ^ (k + 1) := by
  fun_induction digitsOnto base n known generalizing k
  case case1 n known h =>
    have hn : n < base := by omega
    have hp : base ≤ base ^ (k + 1) := Nat.le_self_pow (by omega) base
    simp only [List.length_cons]
    omega
  case case2 n known h ih =>
    cases k
    case zero =>
      have := length_lt_length_digitsOnto base (n / base) (n % base :: known)
      simp only [List.length_cons] at this
      rw [Nat.zero_add, pow_one]
      omega
    case succ k =>
      have ih := @ih k
      rw [List.length_cons, Nat.div_lt_iff_lt_mul (by omega), ← pow_succ] at ih
      rw [← ih]
      omega

theorem lt_length_toDigits_iff (hb : 2 ≤ base) (hk : 0 < k) :
    k < (toDigits base n).length ↔ base ^ k ≤ n := by
  obtain ⟨k, rfl⟩ := Nat.exists_eq_add_one.mpr hk
  have := @length_digitsOnto_le_iff base n k [] hb
  rw [List.length_nil, Nat.zero_add] at this
  rw [toDigits, ← not_le, this, not_lt]

theorem length_decimalOfNat (n : Nat) : (decimalOfNat n).length = (toDigits 10 n).length := by
  simp [decimalOfNat]

theorem maxDigits_lt_length_iff :
    maxDigits < (decimalOfNat n).length ↔ ¬n < 10 ^ maxDigits := by
  rw [length_decimalOfNat, lt_length_toDigits_iff (by decide) (by decide), not_lt]

theorem length_decimalOfNat_le_iff :
    (decimalOfNat n).length ≤ maxDigits ↔ n < 10 ^ maxDigits := by
  rw [← not_lt, maxDigits_lt_length_iff, not_not]

theorem write_eq_error_iff {n : Int} {e : Error} :
    write n = .error e ↔ maxDigits < (decimalOfNat n.natAbs).length ∧ e = .tooLarge := by
  rw [write, maxDigits_lt_length_iff, Nat.pow_eq]
  split
  case isTrue hlt => simp only [hlt, not_true_eq_false, false_and, reduceCtorEq]
  case isFalse hge => simp only [hge, not_false_eq_true, true_and, Except.error.injEq, eq_comm]

theorem exists_write_eq_ok {n : Int} (h : n.natAbs < 10 ^ maxDigits) :
    ∃ s, write n = .ok s := by
  cases hw : write n
  case ok s => exact ⟨s, rfl⟩
  case error e => exact absurd h (maxDigits_lt_length_iff.mp (write_eq_error_iff.mp hw).left)

theorem ofDigits_append_singleton (base : Nat) (ds : List Nat) (d : Nat) :
    ofDigits base (ds ++ [d]) = base * ofDigits base ds + d := by
  simp [ofDigits]

theorem ofDigits_lt (h : ∀ d ∈ ds, d < base) : ofDigits base ds < base ^ ds.length := by
  induction ds using List.reverseRecOn
  case nil => simp [ofDigits]
  case append_singleton ds d ih =>
    have hd := h d (by simp)
    have ih := ih fun e he => h e (by simp [he])
    calc ofDigits base (ds ++ [d])
      _ = base * ofDigits base ds + d := ofDigits_append_singleton base ds d
      _ < base * (ofDigits base ds + 1) := by rw [Nat.mul_add, Nat.mul_one]; omega
      _ ≤ base * base ^ ds.length := Nat.mul_le_mul_left base ih
      _ = base ^ (ds ++ [d]).length := by rw [List.length_append, List.length_singleton, pow_succ']

-- The digits that are split off are put back by reading on from the number in front of them.
theorem foldl_digitsOnto (base n : Nat) (known : List Nat) :
    (digitsOnto base n known).foldl (fun m d => base * m + d) 0 =
      known.foldl (fun m d => base * m + d) n := by
  fun_induction digitsOnto base n known
  case case1 => simp
  case case2 n known _ ih => rw [ih, List.foldl_cons, Nat.div_add_mod]

theorem ofDigits_toDigits (base n : Nat) : ofDigits base (toDigits base n) = n :=
  foldl_digitsOnto base n []

theorem lt_of_mem_digitsOnto (hb : 2 ≤ base) (hk : ∀ d ∈ known, d < base) :
    ∀ d ∈ digitsOnto base n known, d < base := by
  fun_induction digitsOnto base n known
  case case1 n known h => exact List.forall_mem_cons.mpr ⟨by omega, hk⟩
  case case2 n known h ih =>
    exact ih (List.forall_mem_cons.mpr ⟨Nat.mod_lt n (by omega), hk⟩)

theorem lt_of_mem_toDigits (hb : 2 ≤ base) : ∀ d ∈ toDigits base n, d < base :=
  lt_of_mem_digitsOnto hb (by simp)

theorem exists_digit_of_mem_decimalOfNat {c : Char} (h : c ∈ (decimalOfNat n).toList) :
    ∃ d < 10, c = digitChar d := by
  rw [decimalOfNat, String.toList_ofList] at h
  have ⟨d, hd, hc⟩ := List.mem_map.mp h
  exact ⟨d, lt_of_mem_toDigits (by decide) d hd, hc.symm⟩

theorem toDigits_ne_nil (base n : Nat) : toDigits base n ≠ [] :=
  List.ne_nil_of_length_pos (length_lt_length_digitsOnto base n [])

theorem signed_eq (negative : Bool) (n : Nat) :
    signed negative n = if negative then -(n : Int) else n :=
  rfl

theorem natAbs_signed (negative : Bool) (n : Nat) : (signed negative n).natAbs = n := by
  cases negative <;> simp [signed]

theorem signed_natAbs (n : Int) : signed (decide (n < 0)) n.natAbs = n := by
  by_cases h : n < 0
  case pos => rw [decide_eq_true h, signed, if_pos rfl]; omega
  case neg => rw [decide_eq_false h, signed, if_neg (by simp)]; omega

end SvcLens.Numeral
