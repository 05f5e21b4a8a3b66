import SvcLens.Proofs.Meaning
import SvcLens.Proofs.Spelling

namespace SvcLens

theorem Instruction.ofTokens_eq_trap_iff {ts : List Token} :
    ofTokens ts = .trap ↔ Analysis.IsCall ts := by
  constructor
  case mp => exact ofTokens_eq_trap
  case mpr =>
    rintro ⟨svc, operand, rest, rfl, hs, ho⟩
    simp [ofTokens_svc hs, ofSvc_eq, ho]

-- No numeral of this length is too large to be written, whatever its digits are.
def Numeral.safeLength : Nat := 3571

theorem Numeral.not_fails_write {text : String} {n : Int}
    (h : Immediate.parse text = .ok (some n)) (hl : text.length ≤ safeLength) :
    ¬Fails (write n) := by
  have hp : 16 ^ safeLength ≤ Nat.pow 10 maxDigits := by decide +kernel
  have hn : n.natAbs < Nat.pow 10 maxDigits := by
    calc n.natAbs
      _ < 16 ^ text.length := (Immediate.natAbs_lt_of_parse h).left
      _ ≤ 16 ^ safeLength := Nat.pow_le_pow_right (by omega) hl
      _ ≤ Nat.pow 10 maxDigits := hp
  rw [write, if_pos hn]
  exact not_fails_ok

namespace Analysis

variable {c : Context} {rs : Registers} {line number : Int} {set : Assignment} {s : Syscall}
variable {a : Argument} {tokens : TokenTable} {descriptors : IntMap String} {role value : String}

theorem fails_write_iff {n : Int} : Fails (Numeral.write n) ↔
    Numeral.maxDigits < (Numeral.decimalOfNat n.natAbs).length := by
  simp [Fails, Numeral.write_eq_error_iff]

theorem fails_shownValue_iff :
    Fails (shownValue descriptors role value) ↔ role = "fd" ∧ Immediate.IsOverlong value := by
  rw [Immediate.isOverlong_iff, shownValue]
  split
  case isTrue hr => rw [fails_bind_pure_iff, and_iff_right hr]; rfl
  case isFalse hr => simp [hr, not_fails_ok]

theorem fails_argumentHint_iff : Fails (argumentHint c rs a) ↔
    ∃ arg, (Tracked.ofName? a.register).bind rs = some arg ∧ a.name = "fd" ∧
      Immediate.IsOverlong arg.value := by
  cases h : (Tracked.ofName? a.register).bind rs
  case none => simp [argumentHint, h, not_fails_ok]
  case some set =>
    simp only [argumentHint, h, Option.some.injEq, exists_eq_left']
    exact fails_bind_pure_iff.trans fails_shownValue_iff

theorem fails_callHints_iff : Fails (callHints c rs line set number s) ↔
    Fails (Numeral.write number) ∨ ∃ a ∈ s.arguments, Fails (argumentHint c rs a) := by
  rw [callHints, fails_bind_iff]
  cases fails_or_ok (Numeral.write number)
  case inl h => simp only [h, true_or]
  case inr h =>
    obtain ⟨n, hn⟩ := h
    simp only [hn, not_fails_ok, false_or, Except.ok.injEq, exists_eq_left']
    exact fails_bind_pure_iff.trans fails_mapM_iff

theorem fails_unknown_iff :
    Fails (unknown c line set number) ↔ c.reporting ∧ Fails (Numeral.write number) := by
  by_cases hr : c.reporting
  case pos =>
    simp only [unknown, hr, if_true, true_and]
    exact fails_bind_pure_iff
  case neg => simp [unknown, hr, not_fails_ok]

theorem fails_call_iff : Fails (call c rs line set) ↔
    Fails (Immediate.parse set.value) ∨ ∃ n, Immediate.parse set.value = .ok (some n) ∧
      ((Fails (Numeral.write n) ∧ ((c.syscalls.get? n).isSome ∨ c.reporting)) ∨
        ∃ s, c.syscalls.get? n = some s ∧ ∃ a ∈ s.arguments, Fails (argumentHint c rs a)) := by
  rw [call, fails_bind_iff]
  refine or_congr Iff.rfl ?_
  constructor
  case mp =>
    rintro ⟨n, hn, h⟩
    cases n
    case none => exact absurd h not_fails_ok
    case some n =>
      refine ⟨n, hn, ?_⟩
      simp only at h
      split at h
      case h_1 hs =>
        have ⟨hr, hw⟩ := fails_unknown_iff.mp h
        exact .inl ⟨hw, .inr hr⟩
      case h_2 s hs =>
        cases fails_callHints_iff.mp (fails_bind_pure_iff.mp h)
        case inl hw => exact .inl ⟨hw, .inl (by simp [hs])⟩
        case inr ha => exact .inr ⟨s, hs, ha⟩
  case mpr =>
    rintro ⟨n, hn, h⟩
    refine ⟨some n, hn, ?_⟩
    simp only
    split
    case h_1 hs =>
      rcases h with ⟨hw, hr⟩ | ⟨s, hs', _⟩
      case inl => exact fails_unknown_iff.mpr ⟨by simpa [hs] using hr, hw⟩
      case inr => simp [hs] at hs'
    case h_2 s hs =>
      rw [fails_bind_pure_iff, fails_callHints_iff]
      rcases h with ⟨hw, _⟩ | ⟨s', hs', ha⟩
      case inl => exact .inl hw
      case inr =>
        obtain rfl := Option.some.inj (hs.symm.trans hs')
        exact .inr ha

theorem fails_findingsAt_iff {i : Instruction} : Fails (findingsAt c rs line i) ↔
    i = .trap ∧ ∃ set, rs .number = some set ∧ Fails (call c rs line set) := by
  cases i
  case trap =>
    cases h : rs .number
    case none => simp [findingsAt, h, not_fails_ok]
    case some set => simp [findingsAt, h]
  all_goals simp [findingsAt, not_fails_ok]

theorem fails_analyze_iff : Fails (analyze c tokens) ↔
    ∃ line ts set, tokens.get? line = some ts ∧ IsCall ts ∧
      tokens.lastBefore line .number = some set ∧
      Fails (call c (tokens.lastBefore line) line set) := by
  rw [analyze_eq_mapM, fails_map_iff, fails_mapM_iff]
  simp only [findingsOn, fails_findingsAt_iff, Instruction.ofTokens_eq_trap_iff,
    IntMap.get?_eq_some_iff, Prod.exists]
  grind

inductive Oversized (c : Context) (tokens : TokenTable) (line : Int) (set : Assignment) : Prop
  | unreadable : Immediate.IsOverlong set.value → Oversized c tokens line set
  -- The number has to be written in a hint or in a diagnostic.
  | unwritable (n : Int) : Immediate.parse set.value = .ok (some n) →
      Numeral.maxDigits < (Numeral.decimalOfNat n.natAbs).length →
      ((c.syscalls.get? n).isSome ∨ c.reporting) → Oversized c tokens line set
  -- A file descriptor has to be read, in order to be named.
  | descriptor (n : Int) (s : Syscall) (a : Argument) (r : Tracked) (arg : Assignment) :
      Immediate.parse set.value = .ok (some n) → c.syscalls.get? n = some s → a ∈ s.arguments →
      a.name = "fd" → a.register = r.name → tokens.IsLastBefore line r arg →
      Immediate.IsOverlong arg.value → Oversized c tokens line set

theorem fails_argumentHint_lastBefore_iff :
    Fails (argumentHint c (tokens.lastBefore line) a) ↔
      ∃ r arg, a.register = r.name ∧ tokens.IsLastBefore line r arg ∧ a.name = "fd" ∧
        Immediate.IsOverlong arg.value := by
  simp only [fails_argumentHint_iff, Option.bind_eq_some_iff, Tracked.ofName?_eq_some_iff,
    TokenTable.lastBefore_eq_some_iff]
  grind

theorem fails_call_lastBefore_iff :
    Fails (call c (tokens.lastBefore line) line set) ↔ Oversized c tokens line set := by
  rw [fails_call_iff]
  constructor
  case mp =>
    rintro (hp | ⟨n, hn, ⟨hw, hs⟩ | ⟨s, hs, a, ha, h⟩⟩)
    case inl => exact .unreadable (Immediate.isOverlong_iff.mpr hp)
    case inr.inl => exact .unwritable n hn (fails_write_iff.mp hw) hs
    case inr.inr =>
      obtain ⟨r, arg, hr, hl, hfd, ho⟩ := fails_argumentHint_lastBefore_iff.mp h
      exact .descriptor n s a r arg hn hs ha hfd hr hl ho
  case mpr =>
    intro h
    cases h
    case unreadable h => exact .inl (Immediate.isOverlong_iff.mp h)
    case unwritable n hn hw hs => exact .inr ⟨n, hn, .inl ⟨fails_write_iff.mpr hw, hs⟩⟩
    case descriptor n s a r arg hn hs ha hfd hr hl ho =>
      refine .inr ⟨n, hn, .inr ⟨s, hs, a, ha, ?_⟩⟩
      exact fails_argumentHint_lastBefore_iff.mpr ⟨r, arg, hr, hl, hfd, ho⟩

theorem not_oversized {line : Int} (hset : tokens.IsLastBefore line .number set)
    (h : ∀ line ts r a, tokens.get? line = some ts → Assignment.ofLine? r line ts = some a →
      a.value.length ≤ Numeral.safeLength) : ¬Oversized c tokens line set := by
  have hshort {r : Tracked} {a : Assignment} (ha : tokens.IsLastBefore line r a) :
      a.value.length ≤ Numeral.safeLength := by
    have ⟨ts, hts, ho⟩ := ha.assigns
    exact h a.line ts r a hts ho
  have hmax : Numeral.safeLength ≤ Numeral.maxDigits := by decide
  intro ho
  cases ho
  case unreadable ho => exact Immediate.not_isOverlong ((hshort hset).trans hmax) ho
  case unwritable n hn hw _ =>
    exact Numeral.not_fails_write hn (hshort hset) (fails_write_iff.mpr hw)
  case descriptor ha ho => exact Immediate.not_isOverlong ((hshort ha).trans hmax) ho

theorem eq_of_refusal {e : Numeral.Error} {known : Registers} (h : Refusal c known set e) :
    e = .tooLarge ∨ ∃ digits, Numeral.maxDigits < digits ∧ e = .tooLong digits := by
  have reading {text : String} (h : Immediate.parse text = .error e) :
      ∃ digits, Numeral.maxDigits < digits ∧ e = .tooLong digits := by
    have ⟨_, digits, _, _, hl, he⟩ := Immediate.parse_eq_error_iff.mp h
    exact ⟨digits.length, hl, he⟩
  cases h
  case reading h => exact .inr (reading h)
  case writing hw _ => exact .inl (Numeral.write_eq_error_iff.mp hw).right
  case descriptor h => exact .inr (reading h)

-- An analysis fails exactly at the calls with oversized numbers, and always for their size. A
-- number that was read and is too large to be written was hexadecimal, and it was longer than the
-- values that are safe.
theorem fails_analyze_iff_oversized (c : Context) (tokens : TokenTable) :
    (Fails (analyze c tokens) ↔
      ∃ line ts set, tokens.get? line = some ts ∧ IsCall ts ∧
        tokens.IsLastBefore line .number set ∧ Oversized c tokens line set) ∧
    (∀ e, analyze c tokens = .error e →
      e = .tooLarge ∨ ∃ digits, Numeral.maxDigits < digits ∧ e = .tooLong digits) ∧
    (∀ text n, Immediate.parse text = .ok (some n) →
      Numeral.maxDigits < (Numeral.decimalOfNat n.natAbs).length →
      Immediate.IsHexadecimal text) ∧
    ((∀ line ts r a, tokens.get? line = some ts → Assignment.ofLine? r line ts = some a →
        a.value.length ≤ Numeral.safeLength) →
      ∃ f, analyze c tokens = .ok f) := by
  have hiff : Fails (analyze c tokens) ↔
      ∃ line ts set, tokens.get? line = some ts ∧ IsCall ts ∧
        tokens.IsLastBefore line .number set ∧ Oversized c tokens line set := by
    simp only [fails_analyze_iff, fails_call_lastBefore_iff, TokenTable.lastBefore_eq_some_iff]
  refine ⟨hiff, fun e h => ?_, fun text n hn hl => ?_, fun h => ?_⟩
  · have ⟨_, _, _, hl⟩ := analyze_eq_error h
    have ⟨_, _, _, hr⟩ := findingsAt_eq_error hl
    exact eq_of_refusal hr
  · exact (Immediate.natAbs_lt_of_parse hn).right.resolve_left
      (Numeral.maxDigits_lt_length_iff.mp hl)
  · refine (fails_or_ok _).resolve_left fun hf => ?_
    obtain ⟨line, ts, set, _, _, hset, ho⟩ := hiff.mp hf
    exact not_oversized hset h ho

theorem fails_analyze_iff_oversized_of_long_numeral :
    let c : Context := ⟨.empty, .empty, false⟩
    let value (n : Nat) : Token := ⟨.ident, String.ofList ('#' :: List.replicate n '1'), 8, n + 9⟩
    let tokens (n : Nat) : TokenTable := .ofList
      [(0, [⟨.ident, "mov", 0, 3⟩, ⟨.ident, "x8", 4, 6⟩, ⟨.comma, ",", 6, 7⟩, value n]),
        (1, [⟨.ident, "svc", 0, 3⟩, ⟨.ident, "#0", 4, 6⟩])]
    (∃ e, analyze c (tokens 4301) = .error e ∧
      (e = .tooLarge ∨ ∃ digits, 4300 < digits ∧ e = .tooLong digits)) ∧
    ∃ f, analyze c (tokens 3570) = .ok f := by
  intro c value tokens
  have hset (n : Nat) : (tokens n).lastBefore 1 .number =
      some ⟨(value n).text, 0, 8, n + 9⟩ := rfl
  have hlong : Immediate.IsOverlong (value 4301).text := by
    refine ⟨false, List.replicate 4301 '1', ?_, fun c hc => ?_, ?_⟩
    · rw [String.toList_ofList]
      exact Immediate.spells_sign .none _
    · rw [List.eq_of_mem_replicate hc]
      decide
    · rw [List.length_replicate]
      decide
  constructor
  case left =>
    obtain ⟨hiff, herror, _⟩ := fails_analyze_iff_oversized c (tokens 4301)
    obtain ⟨e, he⟩ := hiff.mpr ⟨1, _, _, rfl, ⟨_, _, [], rfl, rfl, rfl⟩,
      TokenTable.lastBefore_eq_some_iff.mp (hset 4301), .unreadable hlong⟩
    exact ⟨e, he, herror e he⟩
  case right =>
    obtain ⟨_, _, _, hsafe⟩ := fails_analyze_iff_oversized c (tokens 3570)
    refine hsafe fun line ts r a hts ha => ?_
    obtain ⟨_, _, _, v, _, rfl, _, _, _, _, rfl⟩ := Assignment.ofLine?_eq_some ha
    have hv : v = value 3570 := by
      cases IntMap.get?_eq_some_iff.mp hts
      case head => rfl
      case tail h => cases h; contradiction
    rw [hv, String.length_ofList, List.length_cons, List.length_replicate]
    decide

end Analysis

end SvcLens
