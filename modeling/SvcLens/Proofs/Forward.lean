import SvcLens.Analysis
import SvcLens.Proofs.Sequence
import SvcLens.Syscall.Linux

namespace SvcLens

namespace IntMap

variable {α : Type} {m : IntMap α} {es : List (Int × α)}

def upTo (m : IntMap α) (k : Int) : IntMap α :=
  ⟨m.entries.filter (·.1 ≤ k), m.ascending.filter _⟩

theorem filter_le_append_filter_gt (h : es.Pairwise (fun a b => a.1 < b.1)) (k : Int) :
    es.filter (·.1 ≤ k) ++ es.filter (k < ·.1) = es := by
  induction es
  case nil => rfl
  case cons e es ih =>
    have ⟨he, hes⟩ := List.pairwise_cons.mp h
    by_cases hk : e.1 ≤ k
    case pos => simp [hk, ih hes]
    case neg =>
      have hgt : ∀ d ∈ es, k < d.1 := fun d hd => Int.lt_trans (Int.not_le.mp hk) (he d hd)
      have hnone : es.filter (·.1 ≤ k) = [] :=
        List.filter_eq_nil_iff.mpr fun d hd => by simpa using hgt d hd
      have hall : es.filter (k < ·.1) = es :=
        List.filter_eq_self.mpr fun d hd => by simpa using hgt d hd
      simp [hk, hnone, hall, Int.not_le.mp hk]

theorem exists_entries_eq_upTo_append (m : IntMap α) (k : Int) :
    ∃ later, m.entries = (m.upTo k).entries ++ later :=
  ⟨_, (filter_le_append_filter_gt m.ascending k).symm⟩

end IntMap

def Registers.afterLines (rs : Registers) (es : List (Int × List Token)) : Registers :=
  es.foldl (fun rs e => rs.after e.1 (.ofTokens e.2)) rs

namespace Analysis

variable {c : Context} {tokens : TokenTable} {f : Findings}

theorem Findings.hints_append (f g : Findings) : (f ++ g).hints = f.hints ++ g.hints :=
  rfl

theorem Findings.diagnostics_append (f g : Findings) :
    (f ++ g).diagnostics = f.diagnostics ++ g.diagnostics :=
  rfl

theorem Findings.append_assoc (f g h : Findings) : f ++ g ++ h = f ++ (g ++ h) := by
  simp only [HAppend.hAppend, Append.append, Findings.append]
  simp only [List.append_eq, List.append_assoc]

theorem Findings.append_empty (f : Findings) : f ++ ({} : Findings) = f := by
  cases f
  simp only [HAppend.hAppend, Append.append, Findings.append]
  simp only [List.append_eq, List.append_nil]

def findingsFrom (c : Context) (rs : Registers) :
    List (Int × List Token) → Except Numeral.Error Findings
  | [] => .ok {}
  | (line, ts) :: rest => do
    let i := Instruction.ofTokens ts
    let here ← findingsAt c rs line i
    let later ← findingsFrom c (rs.after line i) rest
    return here ++ later

-- The pass never looks at what was found before, and puts what it finds behind it.
theorem findingsOnto_eq (c : Context) (found : Findings) (rs : Registers)
    (es : List (Int × List Token)) :
    findingsOnto c found rs es = (findingsFrom c rs es).map (found ++ ·) := by
  induction es generalizing found rs
  case nil => exact congrArg Except.ok (Findings.append_empty found).symm
  case cons e es ih =>
    rw [findingsOnto, findingsFrom]
    cases findingsAt c rs e.1 (.ofTokens e.2)
    case error => rfl
    case ok here =>
      simp only [bind, Except.bind, ih]
      cases findingsFrom c (rs.after e.1 (.ofTokens e.2)) es
      case error => rfl
      case ok later => exact congrArg Except.ok (Findings.append_assoc found here later)

theorem analyze_eq_findingsFrom (c : Context) (tokens : TokenTable) :
    analyze c tokens = findingsFrom c .unknown tokens.entries := by
  rw [analyze, analyzeOnto, findingsOnto_eq]
  cases findingsFrom c .unknown tokens.entries <;> rfl

theorem analyzeOnto_eq (c : Context) (earlier : List Diagnostic) (tokens : TokenTable) :
    analyzeOnto c earlier tokens = (analyze c tokens).map ({ diagnostics := earlier } ++ ·) := by
  rw [analyze_eq_findingsFrom]
  exact findingsOnto_eq c _ .unknown tokens.entries

-- A pass over some lines and then others is a pass over the first ones, continued from what is
-- known of the registers behind them.
theorem findingsFrom_append (c : Context) (rs : Registers) (above below : List (Int × List Token)) :
    findingsFrom c rs (above ++ below) = (do
      let a ← findingsFrom c rs above
      let b ← findingsFrom c (rs.afterLines above) below
      return a ++ b) := by
  induction above generalizing rs
  case nil => exact (bind_pure _).symm
  case cons e above ih =>
    have hrs : rs.afterLines (e :: above) = (rs.after e.1 (.ofTokens e.2)).afterLines above := rfl
    rw [List.cons_append, findingsFrom, findingsFrom, ih, hrs]
    cases findingsAt c rs e.1 (.ofTokens e.2)
    case error => rfl
    case ok here =>
      cases findingsFrom c (rs.after e.1 (.ofTokens e.2)) above
      case error => rfl
      case ok a =>
        cases findingsFrom c ((rs.after e.1 (.ofTokens e.2)).afterLines above) below
        case error => rfl
        case ok b => exact congrArg Except.ok (Findings.append_assoc here a b).symm

theorem onLine_append_prefix (f g : Findings) (line : Int) :
    f.hintTable.onLine line <+: (f ++ g).hintTable.onLine line := by
  simp only [Findings.hintTable, HintTable.onLine_ofEvents, Findings.hints_append]
  exact ((List.prefix_append f.hints g.hints).filter _).map Prod.snd

-- An analysis of the lines up to a given one succeeds if that of all lines does, and what comes
-- after only adds to it: hints behind those that a line has already, diagnostics behind all others.
theorem analyze_upTo_prefix (h : analyze c tokens = .ok f) (line : Int) :
    ∃ g, analyze c (tokens.upTo line) = .ok g ∧
      (∀ l, g.hintTable.onLine l <+: f.hintTable.onLine l) ∧ g.diagnostics <+: f.diagnostics := by
  have ⟨later, hlater⟩ := tokens.exists_entries_eq_upTo_append line
  rw [analyze_eq_findingsFrom, hlater, findingsFrom_append] at h
  have ⟨g, hg, h⟩ := bind_eq_ok_iff.mp h
  have ⟨g', _, h⟩ := bind_eq_ok_iff.mp h
  have hf := pure_eq_ok_iff.mp h
  subst hf
  rw [← analyze_eq_findingsFrom] at hg
  exact ⟨g, hg, onLine_append_prefix g g', List.prefix_append g.diagnostics g'.diagnostics⟩

theorem analyze_upTo_prefix_of_repeated_call :
    ∃ f g, analyze ⟨Syscall.linux, Syscall.standardStreams, true⟩
        (.ofText "mov x8, #172\nsvc #0\nsvc #0\nmov x8, #7\nsvc #0") = .ok f ∧
      analyze ⟨Syscall.linux, Syscall.standardStreams, true⟩
        ((TokenTable.ofText "mov x8, #172\nsvc #0\nsvc #0\nmov x8, #7\nsvc #0").upTo 1) = .ok g ∧
      (f.hintTable.onLine 0).length = 2 ∧ (g.hintTable.onLine 0).length = 1 ∧
      f.diagnostics.length = 1 ∧
      (∀ l, g.hintTable.onLine l <+: f.hintTable.onLine l) ∧ g.diagnostics <+: f.diagnostics := by
  have hf : (analyze ⟨Syscall.linux, Syscall.standardStreams, true⟩
      (.ofText "mov x8, #172\nsvc #0\nsvc #0\nmov x8, #7\nsvc #0")).map
      (fun f => ((f.hintTable.onLine 0).length, f.diagnostics.length)) = .ok (2, 1) := by
    decide +kernel
  have hg : (analyze ⟨Syscall.linux, Syscall.standardStreams, true⟩
      ((TokenTable.ofText "mov x8, #172\nsvc #0\nsvc #0\nmov x8, #7\nsvc #0").upTo 1)).map
      (fun g => (g.hintTable.onLine 0).length) = .ok 1 := by decide +kernel
  have ⟨f, hf, hlf⟩ := map_eq_ok_iff.mp hf
  have ⟨g, hg', hprefix⟩ := analyze_upTo_prefix hf 1
  have ⟨hhints, hdiagnostics⟩ := Prod.mk.inj hlf
  rw [hg'] at hg
  exact ⟨f, g, hf, hg', hhints, Except.ok.inj hg, hdiagnostics, hprefix⟩

end Analysis

end SvcLens
