import SvcLens.Proofs.Forward
import SvcLens.Proofs.LastAssignment

namespace SvcLens.Analysis

open Instruction TokenTable

variable {c : Context} {tokens : TokenTable} {f : Findings} {e : Numeral.Error}

def Findings.join (fs : List Findings) : Findings :=
  ⟨fs.flatMap (·.hints), fs.flatMap (·.diagnostics), fs.flatMap (·.trace)⟩

theorem Findings.join_cons (f : Findings) (fs : List Findings) : join (f :: fs) = f ++ join fs :=
  rfl

def findingsOn (c : Context) (tokens : TokenTable) (e : Int × List Token) :
    Except Numeral.Error Findings :=
  findingsAt c (tokens.lastBefore e.1) e.1 (ofTokens e.2)

-- The invariant of the pass: when it comes to a line, its registers hold the last assignments on
-- the lines that it has passed, which are the lines above.
theorem findingsFrom_eq_mapM {above below : List (Int × List Token)}
    (h : tokens.entries = above ++ below) :
    findingsFrom c (lastOn above) below =
      (below.mapM (findingsOn c tokens)).map Findings.join := by
  induction below generalizing above
  case nil => rfl
  case cons e below ih =>
    have hb := lastBefore_eq_lastOn h
    have ih := @ih (above ++ [e]) (by simp [h])
    rw [lastOn_append_singleton] at ih
    rw [findingsFrom, List.mapM_cons, findingsOn, hb]
    cases findingsAt c (lastOn above) e.1 (ofTokens e.2)
    case error => rfl
    case ok f =>
      simp only [ih]
      cases below.mapM (findingsOn c tokens)
      case error => rfl
      case ok fs => exact congrArg Except.ok (Findings.join_cons f fs).symm

theorem analyze_eq_mapM (c : Context) (tokens : TokenTable) :
    analyze c tokens = (tokens.entries.mapM (findingsOn c tokens)).map Findings.join :=
  (analyze_eq_findingsFrom c tokens).trans (findingsFrom_eq_mapM (List.nil_append _).symm)

theorem analyze_eq_ok (h : analyze c tokens = .ok f) :
    ∃ fs, tokens.entries.mapM (findingsOn c tokens) = .ok fs ∧ .join fs = f := by
  rw [analyze_eq_mapM] at h
  exact map_eq_ok_iff.mp h

theorem analyze_eq_error (h : analyze c tokens = .error e) :
    ∃ line ts, tokens.get? line = some ts ∧ findingsOn c tokens (line, ts) = .error e := by
  rw [analyze_eq_mapM] at h
  have ⟨⟨line, ts⟩, hmem, hl⟩ := exists_of_mapM_eq_error (map_eq_error_iff.mp h)
  exact ⟨line, ts, IntMap.get?_eq_some_iff.mpr hmem, hl⟩

end SvcLens.Analysis
