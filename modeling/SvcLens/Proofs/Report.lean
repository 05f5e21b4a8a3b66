import SvcLens.Proofs.Meaning
import SvcLens.Syscall.Linux

namespace SvcLens

open Instruction

-- What is wrong with an assignment to a tracked register, and at which token. The list starts with
-- the register.
def Instruction.problem? : List Token → Option (Problem × Token)
  | [] => none
  | [target] => some (.comma, target)
  | [_, comma] => if comma.kind = .comma then some (.missingValue, comma) else some (.comma, comma)
  | _ :: comma :: value :: _ =>
    if comma.kind ≠ .comma then some (.comma, comma)
    else if value.kind ≠ .ident then some (.badValue value.text, value)
    else none

namespace Analysis

def assignmentReport (line : Int) (operands : List Token) : List Diagnostic :=
  match operands.head?.bind (Tracked.ofToken? ·.text), problem? operands with
  | some _, some (problem, culprit) =>
    let reason := match problem with
      | .comma => "se esperaba \x27,\x27 tras el registro destino"
      | .missingValue => "falta el valor a asignar"
      | .badValue text => "valor de mov inválido: " ++ text
    [{ severity := .error
       message := "Asignación mal formada: " ++ reason
       line := some (line + 1)
       column := some (culprit.start + 1)
       hint := some "forma esperada: mov <registro>, <valor>"
       file := none
       span := some (culprit.start, culprit.stop) }]
  | _, _ => []

def callReport (syscalls : SyscallTable) (set : Assignment) : List Diagnostic :=
  match Immediate.parse set.value with
  | .ok none =>
    [{ severity := .warning
       message := "No se puede decodificar el número de syscall \x27" ++ set.value ++ "\x27"
       line := some (set.line + 1)
       column := some (set.start + 1)
       hint := some "use un inmediato numérico, p.ej. #64"
       file := none
       span := some (set.start, set.stop) }]
  | .ok (some n) =>
    if (syscalls.get? n).isSome then []
    else
      [{ severity := .note
         message := "Syscall " ++ Numeral.decimal n ++ " no está en la tabla; sin pistas"
         line := some (set.line + 1)
         column := some (set.start + 1)
         hint := none
         file := none
         span := some (set.start, set.stop) }]
  | .error _ => []

def reportAt (syscalls : SyscallTable) (known : Registers) (line : Int) :
    List Token → List Diagnostic
  | [] => []
  | t :: operands =>
    if isMnemonic "mov" t then assignmentReport line operands
    else if isMnemonic "svc" t ∧ operands.head?.map (·.text) = some "#0" then
      (known .number).elim [] (callReport syscalls)
    else []

def report (syscalls : SyscallTable) (tokens : TokenTable) : List Diagnostic :=
  tokens.entries.flatMap fun e => reportAt syscalls (tokens.lastBefore e.1) e.1 e.2

end Analysis

theorem Instruction.ofOperands_eq (r : Tracked) (target : Token) (rest : List Token) :
    (∃ value, ofOperands r target rest = .assign r value ∧ problem? (target :: rest) = none) ∨
    ∃ problem culprit, ofOperands r target rest = .malformed problem culprit ∧
      problem? (target :: rest) = some (problem, culprit) := by
  match rest with
  | [] => exact .inr ⟨.comma, target, rfl, rfl⟩
  | [comma] =>
    by_cases hc : comma.kind = .comma
    case pos => exact .inr ⟨.missingValue, comma, by simp [ofOperands, ofValue, hc, problem?]⟩
    case neg => exact .inr ⟨.comma, comma, by simp [ofOperands, hc, problem?]⟩
  | comma :: value :: _ =>
    by_cases hc : comma.kind = .comma
    case neg => exact .inr ⟨.comma, comma, by simp [ofOperands, hc, problem?]⟩
    case pos =>
      by_cases hv : value.kind = .ident
      case neg =>
        exact .inr ⟨.badValue value.text, value, by
          simp [ofOperands, ofValue, hc, hv, problem?]⟩
      case pos => exact .inl ⟨value, by simp [ofOperands, ofValue, hc, hv, problem?]⟩

namespace Analysis

variable {c : Context} {rs : Registers} {line : Int} {set : Assignment} {f : Findings}
variable {ts : List Token} {tokens : TokenTable}

theorem diagnostics_of_assignment (hr : c.reporting) (operands : List Token)
    (h : findingsAt c rs line (ofMov operands) = .ok f) :
    f.diagnostics = assignmentReport line operands := by
  cases operands
  case nil => simp [← Except.ok.inj h, assignmentReport]
  case cons target rest =>
    cases ht : Tracked.ofToken? target.text
    case none =>
      simp only [ofMov, ht, findingsAt, Except.ok.injEq] at h
      simp [← h, assignmentReport, ht]
    case some r =>
      simp only [ofMov, ht] at h
      cases ofOperands_eq r target rest
      case inl hv =>
        obtain ⟨value, hi, hp⟩ := hv
        simp only [hi, findingsAt, Except.ok.injEq] at h
        simp [← h, assignmentReport, ht, hp]
      case inr hp =>
        obtain ⟨problem, culprit, hi, hp⟩ := hp
        simp only [hi, findingsAt, malformed, hr, if_true, Except.ok.injEq] at h
        simp only [← h, assignmentReport, List.head?_cons, Option.bind_some, ht, hp]
        cases problem <;> rfl

theorem diagnostics_of_call (hr : c.reporting) (h : call c rs line set = .ok f) :
    f.diagnostics = callReport c.syscalls set := by
  rcases call_eq_ok h with ⟨hn, hf⟩ | ⟨n, hn, hs, hf⟩ | ⟨n, s, hn, hs, hf⟩
  case inl => simp [hf, undecodable, Context.about, hr, callReport, hn, Diagnostic.ofSpan]
  case inr.inl => simp [hf, Context.about, hr, callReport, hn, hs, Diagnostic.ofSpan]
  case inr.inr => simp [hf, callReport, hn, hs]

theorem diagnostics_of_findingsAt (hr : c.reporting)
    (h : findingsAt c rs line (ofTokens ts) = .ok f) :
    f.diagnostics = reportAt c.syscalls rs line ts := by
  cases ts
  case nil => simp [← Except.ok.inj h, reportAt]
  case cons t operands =>
    by_cases hm : isMnemonic "mov" t
    case pos =>
      rw [ofTokens_mov hm] at h
      simp [reportAt, hm, diagnostics_of_assignment hr operands h]
    case neg =>
      by_cases hs : isMnemonic "svc" t
      case neg =>
        simp only [ofTokens, hm, hs, findingsAt] at h
        simp [← Except.ok.inj h, reportAt, hm, hs]
      case pos =>
        rw [ofTokens_svc hs, ofSvc_eq] at h
        split at h
        case isFalse ho =>
          simp only [findingsAt, Except.ok.injEq] at h
          simp [← h, reportAt, hm, ho]
        case isTrue ho =>
          cases hn : rs .number
          case none =>
            simp only [findingsAt, hn, Option.elim_none, Except.ok.injEq] at h
            simp [← h, reportAt, hm, hn]
          case some set =>
            simp only [findingsAt, hn, Option.elim_some] at h
            simp [reportAt, hm, hs, ho, hn, diagnostics_of_call hr h]

theorem diagnostics_of_analyze (hr : c.reporting) (h : analyze c tokens = .ok f) :
    f.diagnostics = report c.syscalls tokens := by
  have ⟨fs, hfs, hf⟩ := analyze_eq_ok h
  rw [← hf, report]
  exact flatMap_of_mapM_eq_ok hfs fun e _ f => diagnostics_of_findingsAt hr

-- An analysis leaves the diagnostics that there are already as they are, and puts the report on the
-- source behind them.
theorem diagnostics_eq_report {earlier : List Diagnostic} (hr : c.reporting)
    (h : analyzeOnto c earlier tokens = .ok f) :
    f.diagnostics = earlier ++ report c.syscalls tokens := by
  rw [analyzeOnto_eq] at h
  have ⟨g, hg, hf⟩ := map_eq_ok_iff.mp h
  rw [← hf, Findings.diagnostics_append, diagnostics_of_analyze hr hg]

theorem diagnostics_eq_report_of_every_kind :
    let c : Context := ⟨Syscall.linux, Syscall.standardStreams, true⟩
    let tokens := TokenTable.ofText
      "mov x8, #7\nmov x0\nMOV x1, \nmov x2, \x22s\x22\nsvc #0\nmov w8, #w\nsvc #0\nsvc #0"
    let earlier : Diagnostic := { severity := .note, message := "" }
    let error (message : String) (line column : Int) (span : Int × Int) : Diagnostic :=
      ⟨.error, "Asignación mal formada: " ++ message, some line, some column,
        some "forma esperada: mov <registro>, <valor>", none, some span⟩
    let warning : Diagnostic :=
      ⟨.warning, "No se puede decodificar el número de syscall \x27#w\x27", some 6, some 9,
        some "use un inmediato numérico, p.ej. #64", none, some (8, 10)⟩
    let added : List Diagnostic :=
      [error "se esperaba \x27,\x27 tras el registro destino" 2 5 (4, 6),
        error "falta el valor a asignar" 3 7 (6, 7),
        error "valor de mov inválido: \x22s\x22" 4 9 (8, 11),
        ⟨.note, "Syscall 7 no está en la tabla; sin pistas", some 1, some 9, none, none,
          some (8, 10)⟩,
        warning, warning]
    ∃ f, analyzeOnto c [earlier] tokens = .ok f ∧ f.diagnostics = earlier :: added ∧
      f.diagnostics = [earlier] ++ report c.syscalls tokens := by
  intro c tokens earlier error warning added
  have h : (analyzeOnto c [earlier] tokens).map (·.diagnostics) = .ok (earlier :: added) := by
    decide +kernel
  have ⟨f, hf, hd⟩ := map_eq_ok_iff.mp h
  exact ⟨f, hf, hd, diagnostics_eq_report rfl hf⟩

end Analysis

end SvcLens
