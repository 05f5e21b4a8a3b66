import SvcLens.Proofs.Destination
import SvcLens.Proofs.Operand

namespace SvcLens

open Text Numeral

namespace Register

variable {s : String} {r : Register} {cs digits : List Char} {view : Fin 31 → Register}

-- A text as names are compared: in small letters and without the blanks around it. Letters beyond
-- ASCII are left as they are, since no letter of a name is the small form of one.
def lowered (s : String) : List Char :=
  (trim s.toList).map Char.toLower

inductive Names : List Char → Register → Prop
  | fp  : Names "fp".toList (.x 29)
  | lr  : Names "lr".toList (.x 30)
  | sp  : Names "sp".toList .sp
  | wsp : Names "wsp".toList .wsp
  | xzr : Names "xzr".toList .xzr
  | wzr : Names "wzr".toList .wzr
  | x {digits : List Char} {n : Fin 31} : IsDecimal digits n → Names ('x' :: digits) (.x n)
  | w {digits : List Char} {n : Fin 31} : IsDecimal digits n → Names ('w' :: digits) (.w n)

inductive IsPlain : List Char → Prop
  | word {cs : List Char} : cs ∈ ["sp", "wsp", "xzr", "wzr"].map String.toList → IsPlain cs
  | numbered {letter : Char} {digits : List Char} : letter = 'x' ∨ letter = 'w' → digits ≠ [] →
      (∀ c ∈ digits, '0' ≤ c ∧ c ≤ '9') → (digits.head? = some '0' → digits = ['0']) →
      IsPlain (letter :: digits)

theorem numbered_eq_ok_iff : numbered view s digits = .ok r ↔
    ∃ n : Fin 31, IsDecimal digits n ∧ r = view n := by
  constructor
  case mp =>
    intro h
    unfold numbered at h
    split at h
    case isTrue => contradiction
    case isFalse =>
      split at h
      case h_1 => contradiction
      case h_2 n hn =>
        split at h
        case isTrue hlt => exact ⟨⟨n, hlt⟩, readDecimal_eq_ok_iff.mp hn, (Except.ok.inj h).symm⟩
        case isFalse => contradiction
  case mpr =>
    rintro ⟨n, hn, rfl⟩
    have hlike : ∀ c ∈ digits, isDigitLike c := fun c hc => by
      simp [isDigitLike, hn.forall_mem c hc]
    have hdigits : (digits.isEmpty || !digits.all isDigitLike) = false := by
      simpa [hn.denotes.left] using hlike
    simp [numbered, hdigits, readDecimal_eq_ok_iff.mpr hn]

theorem names_of_ofWord? (h : ofWord? cs = some r) : Names cs r := by
  refine of_ofWord? h ?_
  simp only [List.forall_mem_cons]
  exact ⟨.fp, .lr, .sp, .wsp, .xzr, .wzr, List.forall_mem_nil _⟩

theorem ofWord?_of_isDecimal {letter : Char} {n : Nat} (h : IsDecimal digits n) :
    ofWord? (letter :: digits) = none := by
  refine Option.eq_none_iff_forall_ne_some.mpr fun r hr => ?_
  have hword : digits.all isDecimal = false :=
    of_ofWord? (P := fun cs _ => cs.tail.all isDecimal = false) hr (by decide +kernel)
  rw [List.all_eq_true.mpr h.forall_mem] at hword
  contradiction

theorem parse_eq_ok_iff : parse s = .ok r ↔ Names (lowered s) r := by
  constructor
  case mp =>
    intro h
    simp only [parse] at h
    split at h
    case h_1 hw => exact names_of_ofWord? (Except.ok.inj h ▸ hw)
    case h_2 =>
      rw [lowered]
      split at h
      case h_1 digits he =>
        obtain ⟨n, hn, rfl⟩ := numbered_eq_ok_iff.mp h
        exact he ▸ .x hn
      case h_2 digits he =>
        obtain ⟨n, hn, rfl⟩ := numbered_eq_ok_iff.mp h
        exact he ▸ .w hn
      case h_3 => contradiction
  case mpr =>
    intro h
    unfold lowered at h
    simp only [parse]
    generalize (trim s.toList).map Char.toLower = cs at h
    cases h
    case x hn => simp only [ofWord?_of_isDecimal hn, numbered_eq_ok_iff.mpr ⟨_, hn, rfl⟩]
    case w hn => simp only [ofWord?_of_isDecimal hn, numbered_eq_ok_iff.mpr ⟨_, hn, rfl⟩]
    all_goals rfl

theorem isDecimal_decimalOfNat (n : Fin 31) : IsDecimal (decimalOfNat n).toList n := by
  have hn : n.val < 10 ^ maxDigits := by
    calc n.val
      _ < 10 ^ 2 := by omega
      _ ≤ 10 ^ maxDigits := Nat.pow_le_pow_right (by omega) (by decide)
  exact readDecimal_eq_ok_iff.mp (readDecimal_decimalOfNat hn)

theorem names_name (r : Register) : Names r.name.toList r := by
  cases r
  case x n => simpa [name] using Names.x (isDecimal_decimalOfNat n)
  case w n => simpa [name] using Names.w (isDecimal_decimalOfNat n)
  case sp => exact .sp
  case wsp => exact .wsp
  case xzr => exact .xzr
  case wzr => exact .wzr

theorem lowered_name (r : Register) : lowered r.name = r.name.toList := by
  have hdigits (n : Fin 31) : ∀ c ∈ (decimalOfNat n).toList, IsNameChar c := fun c hc =>
    .inr (.inr (by simp [isDigitLike, isDecimal_of_mem_decimalOfNat hc]))
  cases r
  case x n => exact map_toLower_trim (by simpa [name] using ⟨.inl rfl, hdigits n⟩)
  case w n => exact map_toLower_trim (by simpa [name] using ⟨.inr (.inl rfl), hdigits n⟩)
  all_goals rfl

theorem parse_name (r : Register) : parse r.name = .ok r :=
  parse_eq_ok_iff.mpr (lowered_name r ▸ names_name r)

theorem eq_zero_of_head?_decimalOfNat {n : Nat} (h : (decimalOfNat n).toList.head? = some '0') :
    (decimalOfNat n).toList = ['0'] := by
  rw [decimalOfNat, String.toList_ofList, List.head?_map, Option.map_eq_some_iff] at h
  obtain ⟨d, hd, hc⟩ := h
  have hlt := lt_of_mem_toDigits (by decide) d (List.mem_of_mem_head? hd)
  obtain rfl := (digitChar_eq_zero_iff hlt).mp hc
  obtain rfl := eq_zero_of_head?_digitsOnto (by decide) hd
  decide +kernel

theorem isPlain_name (r : Register) : IsPlain r.name.toList := by
  have hascii : ∀ d < 10, '0' ≤ digitChar d ∧ digitChar d ≤ '9' := by decide +kernel
  have hplain (n : Fin 31) {letter : Char} (h : letter = 'x' ∨ letter = 'w') :
      IsPlain (letter :: (decimalOfNat n).toList) := by
    refine .numbered h (toList_decimalOfNat_ne_nil n) (fun c hc => ?_) eq_zero_of_head?_decimalOfNat
    obtain ⟨d, hd, rfl⟩ := exists_digit_of_mem_decimalOfNat hc
    exact hascii d hd
  cases r
  case x n => simpa [name] using hplain n (.inl rfl)
  case w n => simpa [name] using hplain n (.inr rfl)
  all_goals exact .word (by simp [name])

end Register

namespace Tracked

open Register (lowered)

variable {s : String} {q : Tracked} {reg : Register} {k : Nat}

theorem ofRegister?_eq_some_iff : ofRegister? reg = some q ↔
    ∃ n, (reg = .x n ∨ reg = .w n) ∧ q.register = .x n := by
  have hfind (n : Fin 31) : all.find? (fun r => r.register = .x n) = some q ↔
      q.register = .x n := by
    rw [find?_all_eq_some_iff, decide_eq_true_eq]
    intro q r hq hr
    rw [decide_eq_true_eq] at hq hr
    exact register_injective (hq.trans hr.symm)
  cases reg <;> simp [ofRegister?, hfind]

theorem ofToken?_eq_some_iff : ofToken? s = some q ↔
    ∃ reg, Register.parse s = .ok reg ∧ ofRegister? reg = some q := by
  unfold ofToken?
  cases Register.parse s <;> simp

def numbers : List Nat :=
  [0, 1, 2, 3, 4, 5, 8]

theorem mem_numbers_iff : k ∈ numbers ↔ ∃ (q : Tracked) (n : Fin 31), n.val = k ∧
    q.register = .x n := by
  constructor
  case mp =>
    have hall : ∀ k ∈ numbers, ∃ q ∈ all, ∃ n : Fin 31, n.val = k ∧ q.register = .x n := by
      decide +kernel
    intro hk
    obtain ⟨q, _, hq⟩ := hall k hk
    exact ⟨q, hq⟩
  case mpr =>
    have hall : ∀ q ∈ all, ∀ n : Fin 31, q.register = .x n → n.val ∈ numbers := by decide +kernel
    rintro ⟨q, n, rfl, hq⟩
    exact hall q q.mem_all n hq

theorem ofToken?_eq_some_iff_isDecimal : ofToken? s = some q ↔
    ∃ letter digits, lowered s = letter :: digits ∧ (letter = 'x' ∨ letter = 'w') ∧
      ∃ n : Fin 31, IsDecimal digits n ∧ q.register = .x n := by
  rw [ofToken?_eq_some_iff]
  simp only [Register.parse_eq_ok_iff, ofRegister?_eq_some_iff]
  constructor
  case mp =>
    rintro ⟨reg, hnames, n, hreg, hq⟩
    have hnumber := mem_numbers_iff.mpr ⟨q, n, rfl, hq⟩
    generalize lowered s = cs at hnames ⊢
    rcases hreg with rfl | rfl
    case inl =>
      cases hnames
      case x hd => exact ⟨'x', _, rfl, .inl rfl, n, hd, hq⟩
      all_goals exact absurd hnumber (by decide)
    case inr =>
      cases hnames
      case w hd => exact ⟨'w', _, rfl, .inr rfl, n, hd, hq⟩
  case mpr =>
    rintro ⟨letter, digits, he, hletter, n, hd, hq⟩
    rw [he]
    rcases hletter with rfl | rfl
    case inl => exact ⟨.x n, .x hd, n, .inl rfl, hq⟩
    case inr => exact ⟨.w n, .w hd, n, .inr rfl, hq⟩

theorem name_of_register {n : Fin 31} (h : q.register = .x n) : q.name = "x" ++ decimalOfNat n := by
  rw [name, h, Register.name]

theorem map_name_ofToken?_iff : (ofToken? s).map name = some ("x" ++ decimalOfNat k) ↔
    k ∈ numbers ∧ ∃ letter digits, lowered s = letter :: digits ∧
      (letter = 'x' ∨ letter = 'w') ∧ IsDecimal digits k := by
  rw [Option.map_eq_some_iff]
  constructor
  case mp =>
    rintro ⟨q, hq, hname⟩
    obtain ⟨letter, digits, he, hletter, n, hd, hr⟩ := ofToken?_eq_some_iff_isDecimal.mp hq
    have hn : n.val = k := by
      rw [name_of_register hr] at hname
      exact decimalOfNat_injective (by simpa using hname)
    exact ⟨mem_numbers_iff.mpr ⟨q, n, hn, hr⟩, letter, digits, he, hletter, hn ▸ hd⟩
  case mpr =>
    rintro ⟨hk, letter, digits, he, hletter, hd⟩
    obtain ⟨q, n, rfl, hr⟩ := mem_numbers_iff.mp hk
    exact ⟨q, ofToken?_eq_some_iff_isDecimal.mpr ⟨letter, digits, he, hletter, n, hd, hr⟩,
      name_of_register hr⟩

theorem ofToken?_name (q : Tracked) : ofToken? q.name = some q := by
  have hx : ∃ n, q.register = .x n := by cases q <;> exact ⟨_, rfl⟩
  obtain ⟨n, hn⟩ := hx
  exact ofToken?_eq_some_iff.mpr ⟨q.register, Register.parse_name q.register,
    ofRegister?_eq_some_iff.mpr ⟨n, .inl hn, hn⟩⟩

theorem ofToken?_of_ofName? (h : ofName? s = some q) : ofToken? s = some q := by
  rw [ofName?_eq_some_iff.mp h, ofToken?_name]

end Tracked

namespace Register

-- The names of registers are read, and no other text is. The usual name of the register that was
-- read is plain and read again, and it names the same tracked register. Such a register is named by
-- its number alone, in either view, and its usual name names it again.
theorem parse_iff_names (s : String) :
    (∀ r, parse s = .ok r ↔ Names (lowered s) r) ∧
    ((∃ e, parse s = .error e) ↔ ∀ r, ¬Names (lowered s) r) ∧
    (∀ r, parse s = .ok r → parse r.name = .ok r ∧ IsPlain r.name.toList ∧
      Tracked.ofToken? r.name = Tracked.ofToken? s) ∧
    (∀ k, (Tracked.ofToken? s).map Tracked.name = some ("x" ++ decimalOfNat k) ↔
      k ∈ [0, 1, 2, 3, 4, 5, 8] ∧ ∃ letter digits, lowered s = letter :: digits ∧
        (letter = 'x' ∨ letter = 'w') ∧ IsDecimal digits k) ∧
    (∀ q, Tracked.ofToken? s = some q → Tracked.ofToken? q.name = some q) := by
  refine ⟨fun r => parse_eq_ok_iff, ?_, fun r h => ⟨parse_name r, isPlain_name r, ?_⟩,
    fun k => Tracked.map_name_ofToken?_iff, fun q _ => Tracked.ofToken?_name q⟩
  · simp only [← parse_eq_ok_iff]
    cases parse s <;> simp
  · rw [Tracked.ofToken?, Tracked.ofToken?, parse_name, h]

theorem parse_iff_names_of_half_register :
    let s := "\u00a0W0\u0668\t"
    parse s = .ok (.w 8) ∧ Names (lowered s) (.w 8) ∧ parse "w8" = .ok (.w 8) ∧
      IsPlain "w8".toList ∧ Tracked.ofToken? "w8" = Tracked.ofToken? s ∧
      (∃ letter digits, lowered s = letter :: digits ∧ (letter = 'x' ∨ letter = 'w') ∧
        IsDecimal digits 8) ∧
      Tracked.ofToken? "x8" = some .number ∧ ∀ r, ¬Names (lowered "x31") r := by
  intro s
  have hs : parse s = .ok (.w 8) := by decide +kernel
  have htracked : Tracked.ofToken? s = some .number := by decide +kernel
  have hname : (Tracked.ofToken? s).map Tracked.name = some ("x" ++ decimalOfNat 8) := by
    decide +kernel
  have herror : ∃ e, parse "x31" = .error e := by
    have hfails : (parse "x31").toOption = none := by decide +kernel
    cases h : parse "x31"
    case error e => exact ⟨e, rfl⟩
    case ok => simp [h, Except.toOption] at hfails
  obtain ⟨hnames, _, hcanonical, hnumber, hfixed⟩ := parse_iff_names s
  have hw : (Register.w 8).name = "w8" := by decide +kernel
  have hx : Tracked.number.name = "x8" := by decide +kernel
  obtain ⟨hagain, hplain, hsame⟩ := hcanonical _ hs
  have hagain' := hfixed _ htracked
  rw [hw] at hagain hplain hsame
  rw [hx] at hagain'
  exact ⟨hs, (hnames _).mp hs, hagain, hplain, hsame, ((hnumber 8).mp hname).right,
    hagain', (parse_iff_names "x31").right.left.mp herror⟩

end Register

end SvcLens
