import Mathlib.Data.Nat.Digits.Defs
import SvcLens.Proofs.Readers

namespace SvcLens

open Text

namespace Numeral

variable {value? : Char → Option Nat} {base n : Nat} {cs : List Char} {ds : List Nat}

-- The number that digits of a base make up, each of which counts by its place. The first one is the
-- most significant.
def Denotes (value? : Char → Option Nat) (base : Nat) (digits : List Char) (n : Nat) : Prop :=
  digits ≠ [] ∧ ∃ values, List.Forall₂ (fun c d => value? c = some d) digits values ∧
    n = Nat.ofDigits base values.reverse

structure IsDecimal (digits : List Char) (n : Nat) : Prop where
  denotes : Denotes decimalValue? 10 digits n
  length  : digits.length ≤ maxDigits

-- Reading from the left gives each digit the weight of its place.
theorem ofDigits_eq_ofDigits_reverse (base : Nat) (ds : List Nat) :
    ofDigits base ds = Nat.ofDigits base ds.reverse := by
  rw [Nat.ofDigits_eq_foldr, List.foldr_reverse, ofDigits]
  simp only [Nat.cast_id, Nat.add_comm]

theorem forall₂_iff_filterMap :
    List.Forall₂ (fun c d => value? c = some d) cs ds ↔
      (∀ c ∈ cs, (value? c).isSome) ∧ cs.filterMap value? = ds := by
  induction cs generalizing ds
  case nil =>
    rw [List.forall₂_nil_left_iff, eq_comm]
    simp
  case cons c cs ih =>
    rw [List.forall₂_cons_left_iff, List.forall_mem_cons]
    cases hc : value? c
    case none => simp
    case some d =>
      simp only [ih, List.filterMap_cons_some hc]
      grind

theorem denotes_iff_mapM : Denotes value? base cs n ↔
    cs ≠ [] ∧ ∃ ds, cs.mapM value? = some ds ∧ n = ofDigits base ds := by
  simp only [Denotes, mapM_eq_some_iff, ofDigits_eq_ofDigits_reverse]

theorem denotes_iff_filterMap : Denotes value? base cs n ↔
    cs ≠ [] ∧ (∀ c ∈ cs, (value? c).isSome) ∧ n = ofDigits base (cs.filterMap value?) := by
  simp only [Denotes, forall₂_iff_filterMap, ofDigits_eq_ofDigits_reverse, and_assoc,
    exists_and_left, exists_eq_left']

theorem IsDecimal.forall_mem (h : IsDecimal cs n) : ∀ c ∈ cs, isDecimal c :=
  (denotes_iff_filterMap.mp h.denotes).right.left

theorem isDecimal_of_readDecimal (h : readDecimal cs = .ok n) :
    cs ≠ [] ∧ ∀ c ∈ cs, isDecimal c := by
  simp only [readDecimal] at h
  split at h
  case isTrue => contradiction
  case isFalse =>
    split at h
    case isTrue => contradiction
    case isFalse hd =>
      simp only [Bool.or_eq_true, List.isEmpty_iff, decide_eq_true_eq, not_or, not_lt] at hd
      have hall : cs.takeWhile isDecimal = cs :=
        (List.takeWhile_prefix _).eq_of_length_le hd.right
      exact ⟨hall ▸ hd.left, List.takeWhile_eq_self_iff.mp hall⟩

theorem readDecimal_eq_ok_iff : readDecimal cs = .ok n ↔ IsDecimal cs n := by
  have hread (hn : cs ≠ []) (hd : ∀ c ∈ cs, isDecimal c) : readDecimal cs = .ok n ↔
      cs.length ≤ maxDigits ∧ n = ofDigits 10 (cs.filterMap decimalValue?) := by
    rw [readDecimal_eq hd hn]
    grind
  constructor
  case mp =>
    intro h
    obtain ⟨hn, hd⟩ := isDecimal_of_readDecimal h
    obtain ⟨hl, hv⟩ := (hread hn hd).mp h
    exact ⟨denotes_iff_filterMap.mpr ⟨hn, hd, hv⟩, hl⟩
  case mpr =>
    rintro ⟨h, hl⟩
    obtain ⟨hn, hd, hv⟩ := denotes_iff_filterMap.mp h
    exact (hread hn hd).mpr ⟨hl, hv⟩

end Numeral

namespace Immediate

open Numeral

variable {text : String} {n : Int}

inductive IsMagnitude : List Char → Nat → Prop
  | decimal {digits : List Char} {k : Nat} : IsDecimal digits k → IsMagnitude digits k
  | hexadecimal {x : Char} {digits : List Char} {k : Nat} : x = 'x' ∨ x = 'X' →
      Denotes hexValue? 16 digits k → IsMagnitude ('0' :: x :: digits) k

theorem parse_eq_some_iff : parse text = .ok (some n) ↔
    ∃ negative body k, Spells text.toList negative body ∧ IsMagnitude body k ∧
      n = if negative then -(k : Int) else k := by
  simp only [← signed_eq]
  constructor
  case mp =>
    intro h
    rcases parse_cases text with hn | ⟨negative, body, hs, ⟨hn, hd⟩ | hx⟩
    case inl => simp [hn] at h
    case inr.inl =>
      rw [parse_of_decimal hs hn hd, map_eq_ok_iff] at h
      obtain ⟨k, hk, hv⟩ := h
      exact ⟨negative, body, k, hs, .decimal (readDecimal_eq_ok_iff.mp hk),
        (Option.some.inj hv).symm⟩
    case inr.inr =>
      rw [hx, Except.ok.injEq, Option.map_eq_some_iff] at h
      obtain ⟨values, hv, rfl⟩ := h
      obtain ⟨x, digits, rfl, hx, hn, hm⟩ := exists_of_hexDigits? hv
      exact ⟨negative, _, _, hs, .hexadecimal hx (denotes_iff_mapM.mpr ⟨hn, values, hm, rfl⟩), rfl⟩
  case mpr =>
    rintro ⟨negative, body, k, hs, hk, rfl⟩
    cases hk
    case decimal hk =>
      rw [parse_of_decimal hs hk.denotes.left hk.forall_mem, readDecimal_eq_ok_iff.mpr hk,
        Except.map]
    case hexadecimal hx hk =>
      obtain ⟨hn, values, hm, rfl⟩ := denotes_iff_mapM.mp hk
      exact parse_of_hexadecimal hs hx hn hm

theorem parse_eq_none_iff : parse text = .ok none ↔
    (∀ n, parse text ≠ .ok (some n)) ∧ ¬IsOverlong text := by
  rw [isOverlong_iff]
  cases parse text
  case error e => simp
  case ok value => cases value <;> simp

-- An immediate is read exactly from its spellings, with the number that they stand for; a decimal
-- numeral with too many digits is refused, and nothing else is; any other text is no immediate.
theorem parse_iff_spells (text : String) :
    (∀ n, parse text = .ok (some n) ↔
      ∃ negative body k, Spells text.toList negative body ∧ IsMagnitude body k ∧
        n = if negative then -(k : Int) else k) ∧
    (∀ e, parse text = .error e ↔
      ∃ negative digits, Spells text.toList negative digits ∧ (∀ c ∈ digits, isDecimal c) ∧
        maxDigits < digits.length ∧ e = .tooLong digits.length) ∧
    (parse text = .ok none ↔
      (∀ negative body k, Spells text.toList negative body → ¬IsMagnitude body k) ∧
        ¬IsOverlong text) := by
  refine ⟨fun n => parse_eq_some_iff, fun e => parse_eq_error_iff, ?_⟩
  rw [parse_eq_none_iff]
  refine and_congr_left fun _ => ⟨fun h negative body k hs hk => ?_, fun h n hn => ?_⟩
  · exact h _ (parse_eq_some_iff.mpr ⟨negative, body, k, hs, hk, rfl⟩)
  · obtain ⟨negative, body, k, hs, hk, _⟩ := parse_eq_some_iff.mp hn
    exact h negative body k hs hk

theorem parse_iff_spells_of_both_bases :
    parse "#-100" = .ok (some (-100)) ∧
    (∃ negative body k, Spells "#-100".toList negative body ∧ IsMagnitude body k ∧
      (-100 : Int) = if negative then -(k : Int) else k) ∧
    parse "w0, # +0X4a\t" = .ok (some 74) ∧
    (∀ negative body k, Spells "#0x".toList negative body → ¬IsMagnitude body k) ∧
    parse (String.ofList ('#' :: List.replicate 4301 '1')) = .error (.tooLong 4301) := by
  have hminus : parse "#-100" = .ok (some (-100)) := by decide +kernel
  have hspells : Spells "w0, # +0X4a\t".toList false "0X4a".toList :=
    @Spells.intro ['w', '0', ',', ' '] [' '] ['+'] "0X4a".toList ['\t'] false (by simp)
      (List.forall_mem_singleton.mpr (by decide)) .plus (List.forall_mem_singleton.mpr (by decide))
  have hdenotes : Denotes hexValue? 16 ['4', 'a'] 74 :=
    denotes_iff_mapM.mpr ⟨by simp, [4, 10], by decide, by decide⟩
  have hbare : parse "#0x" = .ok none := by decide +kernel
  refine ⟨hminus, ((parse_iff_spells _).left _).mp hminus, ((parse_iff_spells _).left _).mpr
    ⟨false, _, 74, hspells, .hexadecimal (.inr rfl) hdenotes, rfl⟩,
    ((parse_iff_spells _).right.right.mp hbare).left, ?_⟩
  refine ((parse_iff_spells _).right.left _).mpr ⟨false, List.replicate 4301 '1', ?_, ?_, ?_, ?_⟩
  · rw [String.toList_ofList]
    exact spells_sign .none _
  · intro c hc
    rw [List.eq_of_mem_replicate hc]
    decide
  · rw [List.length_replicate]
    decide
  · rw [List.length_replicate]

end Immediate

end SvcLens
