import SvcLens.Proofs.Extension
import SvcLens.Proofs.Report

namespace SvcLens

theorem Text.length_chars_le_of_mem_splitLines {cs : List Char} {l : Line}
    (h : l ∈ splitLines cs) : l.chars.length ≤ cs.length := by
  have hlength : cs.length = _ := congrArg List.length (joinLines_splitLines cs).symm
  rw [joinLines, List.length_flatMap] at hlength
  have hle := List.single_le_sum (fun _ _ => Nat.zero_le _) _
    (List.mem_map_of_mem (f := fun l : Line => (l.chars ++ l.ending.chars).length) h)
  rw [List.length_append] at hle
  omega

namespace Instruction

variable {ts : List Token} {problem : Problem} {culprit : Token}

theorem ofSvc_ne_malformed : ofSvc ts ≠ .malformed problem culprit := by
  rw [ofSvc_eq]
  split <;> simp

theorem ofTokens_eq_malformed_iff : ofTokens ts = .malformed problem culprit ↔
    ∃ mov target rest r, ts = mov :: target :: rest ∧ isMnemonic "mov" mov ∧
      Tracked.ofToken? target.text = some r ∧
      problem? (target :: rest) = some (problem, culprit) := by
  constructor
  case mp =>
    intro h
    cases ts
    case nil => contradiction
    case cons mov operands =>
      by_cases hm : isMnemonic "mov" mov
      case neg =>
        by_cases hs : isMnemonic "svc" mov
        case pos => exact absurd (ofTokens_svc hs ▸ h) ofSvc_ne_malformed
        case neg => simp [ofTokens, hm, hs] at h
      case pos =>
        rw [ofTokens_mov hm] at h
        cases operands
        case nil => contradiction
        case cons target rest =>
          cases hr : Tracked.ofToken? target.text
          case none => simp [ofMov, hr] at h
          case some r =>
            simp only [ofMov, hr] at h
            cases ofOperands_eq r target rest
            case inl hv =>
              obtain ⟨_, hi, _⟩ := hv
              exact absurd (hi.symm.trans h) (by simp)
            case inr hp =>
              obtain ⟨_, _, hi, hp⟩ := hp
              obtain ⟨rfl, rfl⟩ := Instruction.malformed.inj (hi.symm.trans h)
              exact ⟨mov, target, rest, r, rfl, hm, hr, hp⟩
  case mpr =>
    rintro ⟨mov, target, rest, r, rfl, hm, hr, hp⟩
    simp only [ofTokens_mov hm, ofMov, hr]
    cases ofOperands_eq r target rest
    case inl hv =>
      obtain ⟨_, _, hn⟩ := hv
      exact absurd (hn.symm.trans hp) (by simp)
    case inr hv =>
      obtain ⟨_, _, hi, hp'⟩ := hv
      cases hp.symm.trans hp'
      exact hi

theorem culprit_mem_of_problem? (h : problem? ts = some (problem, culprit)) : culprit ∈ ts := by
  unfold problem? at h
  repeat' split at h
  all_goals simp_all

def IsFlawed : List Token → Prop
  | mov :: target :: rest =>
    isMnemonic "mov" mov ∧ (Tracked.ofToken? target.text).isSome ∧
      (problem? (target :: rest)).isSome
  | _ => False

theorem isFlawed_iff :
    IsFlawed ts ↔ ∃ problem culprit, ofTokens ts = .malformed problem culprit := by
  simp only [ofTokens_eq_malformed_iff]
  constructor
  case mp =>
    intro h
    match ts with
    | mov :: target :: rest =>
      have ⟨hm, hr, hp⟩ := h
      have ⟨r, hr⟩ := Option.isSome_iff_exists.mp hr
      have ⟨⟨problem, culprit⟩, hp⟩ := Option.isSome_iff_exists.mp hp
      exact ⟨problem, culprit, mov, target, rest, r, rfl, hm, hr, hp⟩
  case mpr =>
    rintro ⟨_, _, mov, target, rest, r, rfl, hm, hr, hp⟩
    exact ⟨hm, by simp [hr], by simp [hp]⟩

end Instruction

structure Diagnostic.IsAbout (d : Diagnostic) (line : Int) (t : Token) : Prop where
  line   : d.line = some (line + 1)
  column : d.column = some (t.start + 1)
  span   : d.span = some (t.start, t.stop)

namespace Analysis

open Instruction

variable {c : Context} {rs : Registers} {line : Int} {set : Assignment} {f : Findings}
variable {i : Instruction} {tokens : TokenTable} {d : Diagnostic} {ts : List Token}

theorem of_mem_callReport {syscalls : SyscallTable} (h : d ∈ callReport syscalls set) :
    d.severity ≠ .error ∧ d.line = some (set.line + 1) ∧ d.column = some (set.start + 1) ∧
      d.span = some (set.start, set.stop) := by
  unfold callReport at h
  repeat' split at h
  all_goals simp_all

theorem mem_diagnostics_findingsAt_iff (hr : c.reporting) (h : findingsAt c rs line i = .ok f) :
    d ∈ f.diagnostics ↔
      (∃ problem culprit, i = .malformed problem culprit ∧
        d ∈ (malformed c line problem culprit).diagnostics) ∨
      (i = .trap ∧ ∃ set, rs .number = some set ∧ d ∈ callReport c.syscalls set) := by
  cases i
  case assign | foreignTrap | other => simp [← Except.ok.inj h]
  case malformed problem culprit => simp [← Except.ok.inj h]
  case trap =>
    cases hn : rs .number
    case none =>
      simp only [findingsAt, hn, Option.elim_none, Except.ok.injEq] at h
      simp [← h]
    case some set =>
      simp only [findingsAt, hn, Option.elim_some] at h
      simp [diagnostics_of_call hr h]

-- Why there is a diagnostic about a token: what it says holds of the token, or of the assignment
-- that the token belongs to.
inductive Justified (syscalls : SyscallTable) (ts : List Token) (t : Token) (d : Diagnostic) : Prop
  | error {mov target rest r problem} : d.severity = .error →
      d.message = "Asignación mal formada: " ++ problem.message →
      ts = mov :: target :: rest → isMnemonic "mov" mov → Tracked.ofToken? target.text = some r →
      problem? (target :: rest) = some (problem, t) → Justified syscalls ts t d
  | warning : d.severity = .warning →
      d.message = "No se puede decodificar el número de syscall \x27" ++ t.text ++ "\x27" →
      Immediate.parse t.text = .ok none → Justified syscalls ts t d
  | note {number} : d.severity = .note →
      d.message = "Syscall " ++ Numeral.decimal number ++ " no está en la tabla; sin pistas" →
      Immediate.parse t.text = .ok (some number) → syscalls.get? number = none →
      Justified syscalls ts t d

theorem justified_of_mem_callReport {syscalls : SyscallTable} {t : Token}
    (ht : set.value = t.text) (h : d ∈ callReport syscalls set) : Justified syscalls ts t d := by
  unfold callReport at h
  split at h
  case h_1 hp =>
    obtain rfl := List.mem_singleton.mp h
    exact .warning rfl (ht ▸ rfl) (ht ▸ hp)
  case h_2 n hp =>
    split at h
    case isTrue => contradiction
    case isFalse hs =>
      obtain rfl := List.mem_singleton.mp h
      exact .note rfl rfl (ht ▸ hp) (by simpa using hs)
  case h_3 => contradiction

theorem mem_diagnostics_iff (hr : c.reporting) (h : analyze c tokens = .ok f) :
    d ∈ f.diagnostics ↔ ∃ line ts, tokens.get? line = some ts ∧
      ((∃ problem culprit, ofTokens ts = .malformed problem culprit ∧
        d ∈ (malformed c line problem culprit).diagnostics) ∨
      (ofTokens ts = .trap ∧
        ∃ set, tokens.lastBefore line .number = some set ∧ d ∈ callReport c.syscalls set)) := by
  have ⟨fs, hfs, hf⟩ := analyze_eq_ok h
  simp only [← hf, Findings.join, List.mem_flatMap, mem_iff_of_mapM_eq_ok hfs]
  constructor
  case mp =>
    rintro ⟨f', ⟨⟨line, ts⟩, hmem, hf'⟩, hd⟩
    exact ⟨line, ts, IntMap.get?_eq_some_iff.mpr hmem,
      (mem_diagnostics_findingsAt_iff hr hf').mp hd⟩
  case mpr =>
    rintro ⟨line, ts, hts, hd⟩
    have hmem := IntMap.get?_eq_some_iff.mp hts
    cases hl : findingsOn c tokens (line, ts)
    case ok f' =>
      exact ⟨f', ⟨_, hmem, hl⟩, (mem_diagnostics_findingsAt_iff hr hl).mpr hd⟩
    case error e =>
      exact absurd hfs ((fails_mapM_iff.mpr ⟨_, hmem, e, hl⟩).elim fun e he => by simp [he])

theorem anyError_diagnostics_iff (hr : c.reporting) (h : analyze c tokens = .ok f) :
    Diagnostic.anyError f.diagnostics ↔ ∃ line ts, tokens.get? line = some ts ∧ IsFlawed ts := by
  simp only [Diagnostic.anyError, List.any_eq_true, beq_iff_eq, mem_diagnostics_iff hr h,
    isFlawed_iff]
  constructor
  case mp =>
    rintro ⟨d, ⟨line, ts, hts, hd⟩, he⟩
    cases hd
    case inl hd =>
      have ⟨problem, culprit, hi, _⟩ := hd
      exact ⟨line, ts, hts, problem, culprit, hi⟩
    case inr hd =>
      have ⟨_, _, _, hd⟩ := hd
      exact absurd he (of_mem_callReport hd).left
  case mpr =>
    rintro ⟨line, ts, hts, problem, culprit, hi⟩
    have ⟨d, hd, he⟩ : ∃ d ∈ (malformed c line problem culprit).diagnostics,
        d.severity = .error := by simp [malformed, hr, Diagnostic.ofSpan]
    exact ⟨d, ⟨line, ts, hts, .inl ⟨problem, culprit, hi, hd⟩⟩, he⟩

theorem exists_isAbout_of_mem (hr : c.reporting) (h : analyze c tokens = .ok f)
    (hd : d ∈ f.diagnostics) :
    ∃ line ts t, tokens.get? line = some ts ∧ t ∈ ts ∧ d.IsAbout line t ∧
      Justified c.syscalls ts t d := by
  obtain ⟨line, ts, hts, hd⟩ := (mem_diagnostics_iff hr h).mp hd
  cases hd
  case inl hd =>
    obtain ⟨problem, culprit, hi, hd⟩ := hd
    obtain ⟨mov, target, rest, r, rfl, hm, ht, hp⟩ := ofTokens_eq_malformed_iff.mp hi
    simp only [malformed, hr, if_true, List.mem_singleton] at hd
    subst hd
    exact ⟨line, _, culprit, hts, List.mem_cons_of_mem _ (culprit_mem_of_problem? hp),
      ⟨rfl, rfl, rfl⟩, .error rfl rfl rfl hm ht hp⟩
  case inr hd =>
    -- A call is reported at the value that its number was set to, on a line above.
    obtain ⟨_, set, hset, hd⟩ := hd
    obtain ⟨us, hus, ha⟩ := (TokenTable.lastBefore_eq_some_iff.mp hset).assigns
    obtain ⟨_, _, _, value, _, hus', _, _, _, _, hv⟩ := Assignment.ofLine?_eq_some ha
    obtain ⟨_, hline, hcolumn, hspan⟩ := of_mem_callReport hd
    rw [hv] at hcolumn hspan
    exact ⟨set.line, us, value, hus, by simp [hus'], ⟨hline, hcolumn, hspan⟩,
      justified_of_mem_callReport (by rw [hv]) hd⟩

theorem exists_position_of_mem {text : String} (hr : c.reporting)
    (h : analyze c (.ofText text) = .ok f) (hd : d ∈ f.diagnostics) :
    ∃ n k : Nat, d.line = some (n : Int) ∧ d.column = some (k : Int) ∧ n ≤ text.length + 1 ∧
      k ≤ text.length := by
  have ⟨line, ts, t, hts, ht, hat, _⟩ := exists_isAbout_of_mem hr h hd
  obtain ⟨n, l, rfl, hl, _, rfl⟩ := TokenTable.exists_of_get?_ofText hts
  have ⟨hstart, hstop, hlast⟩ :=
    (Token.Grammar.of_scanned (Token.scanned_scanFrom 0 l.chars)).bounds t ht
  have hn := (List.getElem?_eq_some_iff.mp hl).choose
  have hlines := Text.length_splitLines text.toList
  have hcount := List.count_le_length (a := '\n') (l := text.toList)
  have hchars := Text.length_chars_le_of_mem_splitLines (List.mem_of_getElem? hl)
  rw [String.length_toList] at hcount hchars
  refine ⟨n + 1, (t.start + 1).toNat, by simp [hat.line], ?_, by omega, by omega⟩
  rw [hat.column, Int.toNat_of_nonneg (by omega)]

end Analysis

end SvcLens
