import Mathlib.Data.List.Basic
import SvcLens.Immediate
import SvcLens.Proofs.Digits
import SvcLens.Proofs.Lexeme
import SvcLens.Proofs.Sequence

namespace SvcLens

open Text

namespace Text

variable {c : Char} {cs lead body trail : List Char}

theorem not_isBlank_of_isDecimal (h : isDecimal c) : ¬isBlank c ∧ c ≠ '+' ∧ c ≠ '-' := by
  have hb : ∀ z ∈ decimalZeros, ∀ r ∈ blankRanges, r.2 < z ∨ z + 10 ≤ r.1 := by decide +kernel
  have hz : ∀ z ∈ decimalZeros, 0x30 ≤ z := by decide +kernel
  simp only [isDecimal, decimalValue?, Option.isSome_map, List.find?_isSome, Bool.and_eq_true,
    decide_eq_true_eq] at h
  obtain ⟨z, hm, hle, hlt⟩ := h
  have := hz z hm
  refine ⟨fun hc => ?_, ?_, ?_⟩
  · simp only [isBlank, inRanges, List.any_eq_true, Bool.and_eq_true, decide_eq_true_eq] at hc
    obtain ⟨r, hr, _, _⟩ := hc
    have := hb z hm r hr
    omega
  all_goals
    rintro rfl
    simp at hle
    omega

theorem trim_append (hl : ∀ c ∈ lead, isBlank c) (ht : ∀ c ∈ trail, isBlank c) (hb : body ≠ [])
    (hh : ∀ c ∈ body.head?, ¬isBlank c) (hg : ∀ c ∈ body.getLast?, ¬isBlank c) :
    trim (lead ++ body ++ trail) = body := by
  have hd : (lead ++ (body ++ trail)).dropWhile isBlank = body ++ trail :=
    Token.dropWhile_append_eq hl (by rwa [List.head?_append_of_ne_nil _ hb])
  have hr : (trail.reverse ++ body.reverse).dropWhile isBlank = body.reverse :=
    Token.dropWhile_append_eq (by simpa using ht) (by simpa using hg)
  rw [trim, List.append_assoc, hd, List.reverse_append, hr, List.reverse_reverse]

theorem exists_eq_dropWhile (p : Char → Bool) (cs : List Char) :
    ∃ lead trail, cs = lead ++ ((cs.dropWhile p).reverse.dropWhile p).reverse ++ trail ∧
      (∀ c ∈ lead, p c) ∧ ∀ c ∈ trail, p c := by
  refine ⟨cs.takeWhile p, ((cs.dropWhile p).reverse.takeWhile p).reverse, ?_,
    fun c => List.mem_takeWhile_imp, fun c hc => ?_⟩
  · rw [List.append_assoc, ← List.reverse_append, List.takeWhile_append_dropWhile,
      List.reverse_reverse, List.takeWhile_append_dropWhile]
  · exact List.mem_takeWhile_imp (List.mem_reverse.mp hc)

theorem exists_eq_trim (cs : List Char) :
    ∃ lead trail, cs = lead ++ trim cs ++ trail ∧ (∀ c ∈ lead, isBlank c) ∧
      ∀ c ∈ trail, isBlank c :=
  exists_eq_dropWhile isBlank cs

end Text

namespace Numeral

variable {negative : Bool} {sign cs body : List Char} {c : Char} {n : Nat}

inductive Sign : Bool → List Char → Prop
  | none  : Sign false []
  | plus  : Sign false ['+']
  | minus : Sign true ['-']

theorem exists_sign (h : splitSign cs = (negative, body)) :
    ∃ sign, Sign negative sign ∧ cs = sign ++ body := by
  unfold splitSign at h
  split at h
  all_goals obtain ⟨rfl, rfl⟩ := Prod.mk.inj h
  case h_1 => exact ⟨['+'], .plus, rfl⟩
  case h_2 => exact ⟨['-'], .minus, rfl⟩
  case h_3 => exact ⟨[], .none, rfl⟩

theorem splitSign_append (h : Sign negative sign) (hb : ∀ c ∈ body.head?, c ≠ '+' ∧ c ≠ '-') :
    splitSign (sign ++ body) = (negative, body) := by
  cases h
  case plus => rfl
  case minus => rfl
  case none =>
    rw [List.nil_append]
    unfold splitSign
    split <;> simp_all

theorem Sign.notMem_blank (h : Sign negative sign) : ∀ c ∈ sign, ¬isBlank c := by
  cases h <;> simp <;> decide

theorem readDecimal_eq (hc : ∀ c ∈ cs, isDecimal c) (hn : cs ≠ []) :
    readDecimal cs = if maxDigits < cs.length then .error (.tooLong cs.length)
      else .ok (ofDigits 10 (cs.filterMap decimalValue?)) := by
  have ht : cs.takeWhile isDecimal = cs := List.takeWhile_eq_self_iff.mpr hc
  simp [readDecimal, ht, hn]

theorem lt_of_mem_filterMap_decimalValue? (h : n ∈ cs.filterMap decimalValue?) : n < 10 := by
  obtain ⟨c, _, hc⟩ := List.mem_filterMap.mp h
  obtain ⟨z, hz, rfl⟩ := Option.map_eq_some_iff.mp hc
  have := List.find?_some hz
  simp only [Bool.and_eq_true, decide_eq_true_eq] at this
  omega

theorem decimalValue?_digitChar {d : Nat} (h : d < 10) : decimalValue? (digitChar d) = some d := by
  have hall : ∀ d < 10, decimalValue? (digitChar d) = some d := by decide +kernel
  exact hall d h

theorem isDecimal_of_mem_decimalOfNat (h : c ∈ (decimalOfNat n).toList) : isDecimal c := by
  obtain ⟨d, hd, rfl⟩ := exists_digit_of_mem_decimalOfNat h
  rw [isDecimal, decimalValue?_digitChar hd]
  rfl

theorem toList_decimalOfNat_ne_nil (n : Nat) : (decimalOfNat n).toList ≠ [] := by
  simp [decimalOfNat, toDigits_ne_nil]

theorem filterMap_decimalOfNat (n : Nat) :
    (decimalOfNat n).toList.filterMap decimalValue? = toDigits 10 n := by
  rw [decimalOfNat, String.toList_ofList, List.filterMap_map]
  calc (toDigits 10 n).filterMap (decimalValue? ∘ digitChar)
    _ = (toDigits 10 n).filterMap some := List.filterMap_congr fun d hd =>
      decimalValue?_digitChar (lt_of_mem_toDigits (by decide) d hd)
    _ = toDigits 10 n := List.filterMap_some

theorem decimalOfNat_injective {m : Nat} (h : decimalOfNat m = decimalOfNat n) : m = n := by
  have hdigits : toDigits 10 m = toDigits 10 n := by
    rw [← filterMap_decimalOfNat, h, filterMap_decimalOfNat]
  rw [← ofDigits_toDigits 10 m, hdigits, ofDigits_toDigits]

theorem readDecimal_decimalOfNat (h : n < 10 ^ maxDigits) :
    readDecimal (decimalOfNat n).toList = .ok n := by
  rw [readDecimal_eq (fun c => isDecimal_of_mem_decimalOfNat) (toList_decimalOfNat_ne_nil n),
    String.length_toList, if_neg (maxDigits_lt_length_iff.not.mpr (not_not.mpr h)),
    filterMap_decimalOfNat, ofDigits_toDigits]

theorem lt_of_hexValue?_eq_some (h : hexValue? c = some n) : n < 16 := by
  have h9 : ('9' : Char).toNat = 57 := rfl
  have hf : ('f' : Char).toNat = 102 := rfl
  have hF : ('F' : Char).toNat = 70 := rfl
  simp only [hexValue?, Bool.and_eq_true, decide_eq_true_eq, Char.le_def, UInt32.le_iff_toNat_le,
    Char.toNat_val] at h
  repeat' split at h
  all_goals simp only [Option.some.injEq, reduceCtorEq] at h
  all_goals omega

theorem values_of_mapM_hexValue? {digits : List Char} {values : List Nat}
    (h : digits.mapM hexValue? = some values) :
    values.length = digits.length ∧ (∀ v ∈ values, v < 16) ∧
      ∀ c ∈ digits, (hexValue? c).isSome := by
  induction digits generalizing values
  case nil =>
    rw [List.mapM_nil] at h
    simp [← Option.some.inj h]
  case cons c digits ih =>
    simp only [List.mapM_cons, Option.bind_eq_bind, Option.bind_eq_some_iff, Option.pure_def,
      Option.some.injEq] at h
    obtain ⟨v, hv, vs, hvs, rfl⟩ := h
    have ⟨hl, hlt, hs⟩ := ih hvs
    simpa [hl, hv, lt_of_hexValue?_eq_some hv] using ⟨hlt, hs⟩

end Numeral

namespace Immediate

open Numeral

variable {text : String} {cs tail body digits : List Char} {negative : Bool} {n : Int}

-- A text that spells a body with a sign: behind its first number sign, and between blanks.
inductive Spells : List Char → Bool → List Char → Prop
  | intro {before lead sign body trail : List Char} {negative : Bool} : '#' ∉ before →
      (∀ c ∈ lead, isBlank c) → Sign negative sign → (∀ c ∈ trail, isBlank c) →
      Spells (before ++ '#' :: (lead ++ sign ++ body ++ trail)) negative body

theorem exists_of_behindMark? (h : behindMark? cs = some tail) :
    ∃ before, '#' ∉ before ∧ cs = before ++ '#' :: tail := by
  unfold behindMark? at h
  split at h
  case h_1 => contradiction
  case h_2 c rest hd =>
    obtain rfl := Option.some.inj h
    have hc : c = '#' := by
      simpa using Token.not_of_mem_head?_dropWhile (· != '#') cs c (by simp [hd])
    refine ⟨cs.takeWhile (· != '#'), fun hm => ?_, ?_⟩
    · simpa using List.mem_takeWhile_imp hm
    · rw [hc] at hd
      rw [← hd, List.takeWhile_append_dropWhile]

theorem behindMark?_append {before : List Char} (h : '#' ∉ before) (tail : List Char) :
    behindMark? (before ++ '#' :: tail) = some tail := by
  rw [behindMark?, Token.dropWhile_append_eq (Token.all_ne_of_notMem h) (by simp)]

theorem Spells.of_splitSign (h : behindMark? cs = some tail)
    (hs : splitSign (trim tail) = (negative, body)) : Spells cs negative body := by
  obtain ⟨before, hb, rfl⟩ := exists_of_behindMark? h
  obtain ⟨lead, trail, ht, hl, htr⟩ := exists_eq_trim tail
  obtain ⟨sign, hsign, he⟩ := exists_sign hs
  rw [ht, he, ← List.append_assoc]
  exact .intro hb hl hsign htr

-- A body is found again if it starts with a digit and does not end in a blank.
theorem Spells.splitSign (h : Spells cs negative body) (hn : body ≠ [])
    (hh : ∀ c ∈ body.head?, isDecimal c) (hg : ∀ c ∈ body.getLast?, ¬isBlank c) :
    ∃ tail, behindMark? cs = some tail ∧ splitSign (trim tail) = (negative, body) := by
  obtain ⟨hb, hl, hs, ht⟩ := h
  rename_i before lead sign trail
  refine ⟨_, behindMark?_append hb _, ?_⟩
  have hbody : trim (lead ++ sign ++ body ++ trail) = sign ++ body := by
    rw [List.append_assoc lead]
    refine trim_append hl ht (by simp [hn]) (fun c hc => ?_) ?_
    · cases sign
      case nil => exact (not_isBlank_of_isDecimal (hh c hc)).left
      case cons => exact hs.notMem_blank c (by simp_all)
    · rwa [List.getLast?_append_of_ne_nil _ hn]
  rw [hbody]
  exact splitSign_append hs fun c hc => (not_isBlank_of_isDecimal (hh c hc)).right

theorem Spells.length_le (h : Spells cs negative body) : body.length ≤ cs.length := by
  cases h
  simp only [List.length_append, List.length_cons]
  omega

def IsOverlong (text : String) : Prop :=
  ∃ negative digits, Spells text.toList negative digits ∧ (∀ c ∈ digits, isDecimal c) ∧
    maxDigits < digits.length

def IsHexadecimal (text : String) : Prop :=
  ∃ negative x digits, Spells text.toList negative ('0' :: x :: digits) ∧ (x = 'x' ∨ x = 'X') ∧
    digits ≠ [] ∧ ∀ c ∈ digits, (hexValue? c).isSome

theorem parse_of_decimal (h : Spells text.toList negative digits) (hn : digits ≠ [])
    (hd : ∀ c ∈ digits, isDecimal c) :
    parse text = (readDecimal digits).map fun n => some (signed negative n) := by
  obtain ⟨tail, ht, hs⟩ := h.splitSign hn (fun c hc => hd c (List.mem_of_mem_head? hc))
    fun c hc => (not_isBlank_of_isDecimal (hd c (List.mem_of_getLast? hc))).left
  have hall : digits.all isDecimal := List.all_eq_true.mpr hd
  simp [parse, ht, hs, hn, hall]

theorem spells_sign {sign : List Char} (h : Sign negative sign) (body : List Char) :
    Spells ('#' :: (sign ++ body)) negative body := by
  have hs := @Spells.intro [] [] sign body [] negative (by simp) (by simp) h (by simp)
  rwa [List.nil_append, List.nil_append, List.append_nil] at hs

theorem spells_decimal (n : Int) :
    Spells ("#" ++ decimal n).toList (decide (n < 0)) (decimalOfNat n.natAbs).toList := by
  by_cases hn : n < 0
  case pos => simpa [decimal, hn] using spells_sign .minus (decimalOfNat n.natAbs).toList
  case neg => simpa [decimal, hn] using spells_sign .none (decimalOfNat n.natAbs).toList

theorem parse_decimal (h : n.natAbs < 10 ^ maxDigits) :
    parse ("#" ++ decimal n) = .ok (some n) := by
  rw [parse_of_decimal (spells_decimal n) (toList_decimalOfNat_ne_nil _)
      (fun c => isDecimal_of_mem_decimalOfNat), readDecimal_decimalOfNat h, Except.map,
    signed_natAbs]

theorem exists_of_hexDigits? {values : List Nat} (h : hexDigits? body = some values) :
    ∃ x digits, body = '0' :: x :: digits ∧ (x = 'x' ∨ x = 'X') ∧ digits ≠ [] ∧
      digits.mapM hexValue? = some values := by
  unfold hexDigits? at h
  split at h
  case h_1 x d ds =>
    split at h
    case isTrue hx => exact ⟨x, d :: ds, rfl, by simpa using hx, by simp, h⟩
    case isFalse => contradiction
  case h_2 => contradiction

-- The ways to read a text: there is nothing to read, or a body that is read as decimal if it
-- consists of decimal digits, and otherwise as hexadecimal.
theorem parse_cases (text : String) :
    parse text = .ok none ∨ ∃ negative body, Spells text.toList negative body ∧
      ((body ≠ [] ∧ ∀ c ∈ body, isDecimal c) ∨
        parse text = .ok ((hexDigits? body).map fun ds => signed negative (ofDigits 16 ds))) := by
  cases hb : behindMark? text.toList
  case none => exact .inl (by simp [parse, hb])
  case some tail =>
    cases hs : splitSign (trim tail)
    case mk negative body =>
      refine .inr ⟨negative, body, .of_splitSign hb hs, ?_⟩
      by_cases hd : (!body.isEmpty && body.all isDecimal) = true
      case pos => exact .inl (by simpa using hd)
      case neg => exact .inr (by simp only [parse, hb, hs, hd]; rfl)

theorem parse_eq_error_iff {e : Error} : parse text = .error e ↔
    ∃ negative digits, Spells text.toList negative digits ∧ (∀ c ∈ digits, isDecimal c) ∧
      maxDigits < digits.length ∧ e = .tooLong digits.length := by
  constructor
  case mp =>
    intro h
    rcases parse_cases text with hn | ⟨negative, body, hs, ⟨hn, hd⟩ | hx⟩
    case inl => simp [hn] at h
    case inr.inr => simp [hx] at h
    case inr.inl =>
      rw [parse_of_decimal hs hn hd, map_eq_error_iff, readDecimal_eq hd hn] at h
      split at h
      case isTrue hlt => exact ⟨negative, body, hs, hd, hlt, (Except.error.inj h).symm⟩
      case isFalse => nomatch h
  case mpr =>
    rintro ⟨negative, digits, hs, hd, hlt, rfl⟩
    have hn : digits ≠ [] := List.ne_nil_of_length_pos (by omega)
    rw [parse_of_decimal hs hn hd, map_eq_error_iff, readDecimal_eq hd hn, if_pos hlt]

theorem isOverlong_iff : IsOverlong text ↔ ∃ e, parse text = .error e := by
  constructor
  case mp =>
    rintro ⟨negative, digits, hs, hd, hlt⟩
    exact ⟨_, parse_eq_error_iff.mpr ⟨negative, digits, hs, hd, hlt, rfl⟩⟩
  case mpr =>
    rintro ⟨e, h⟩
    have ⟨negative, digits, hs, hd, hlt, _⟩ := parse_eq_error_iff.mp h
    exact ⟨negative, digits, hs, hd, hlt⟩

theorem not_isOverlong (h : text.length ≤ maxDigits) : ¬IsOverlong text := by
  rintro ⟨negative, digits, hs, _, hlt⟩
  have := hs.length_le
  rw [String.length_toList] at this
  omega

theorem natAbs_lt_of_parse (h : parse text = .ok (some n)) :
    n.natAbs < 16 ^ text.length ∧ (n.natAbs < 10 ^ maxDigits ∨ IsHexadecimal text) := by
  have hlen : text.toList.length = text.length := String.length_toList
  rcases parse_cases text with hn | ⟨negative, body, hs, ⟨hn, hd⟩ | hx⟩
  case inl => simp [hn] at h
  case inr.inl =>
    rw [parse_of_decimal hs hn hd, readDecimal_eq hd hn] at h
    split at h
    case isTrue => nomatch h
    case isFalse hle =>
      obtain rfl := Option.some.inj (Except.ok.inj h)
      have hlt := ofDigits_lt fun _ hv => @lt_of_mem_filterMap_decimalValue? body _ hv
      have hbody := List.length_filterMap_le decimalValue? body
      have htext := hs.length_le
      rw [natAbs_signed]
      constructor
      case left =>
        calc ofDigits 10 (body.filterMap decimalValue?)
          _ < 10 ^ (body.filterMap decimalValue?).length := hlt
          _ ≤ 16 ^ (body.filterMap decimalValue?).length := Nat.pow_le_pow_left (by omega) _
          _ ≤ 16 ^ text.length := Nat.pow_le_pow_right (by omega) (by omega)
      case right =>
        exact .inl <| hlt.trans_le <| Nat.pow_le_pow_right (by omega) (by omega)
  case inr.inr =>
    rw [hx, Except.ok.injEq, Option.map_eq_some_iff] at h
    obtain ⟨values, hv, rfl⟩ := h
    obtain ⟨x, digits, rfl, hmark, hne, hm⟩ := exists_of_hexDigits? hv
    have ⟨hl, hlt, hsome⟩ := values_of_mapM_hexValue? hm
    have htext := hs.length_le
    simp only [List.length_cons] at htext
    rw [natAbs_signed]
    constructor
    case left =>
      calc ofDigits 16 values
        _ < 16 ^ values.length := ofDigits_lt hlt
        _ ≤ 16 ^ text.length := Nat.pow_le_pow_right (by omega) (by omega)
    case right => exact .inr ⟨negative, x, digits, hs, hmark, hne, hsome⟩

end Immediate

end SvcLens
