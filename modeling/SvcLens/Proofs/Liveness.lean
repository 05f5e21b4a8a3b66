import SvcLens.Proofs.Anchor
import SvcLens.Proofs.Comment
import SvcLens.Proofs.Forward

namespace SvcLens

open Instruction

namespace IntMap

variable {α : Type} {m : IntMap α} {k : Int} {a b : α} {above below : List (Int × α)}

def erase (m : IntMap α) (k : Int) : IntMap α :=
  ⟨m.entries.filter (·.1 ≠ k), m.ascending.filter _⟩

theorem exists_entries_between {l : Int} (hk : m.get? k = some a) (hl : m.get? l = some b)
    (hlt : k < l) :
    ∃ above between below, m.entries = above ++ (k, a) :: (between ++ (l, b) :: below) ∧
      ∀ e ∈ between, k < e.1 ∧ e.1 < l ∧ m.get? e.1 = some e.2 := by
  have ⟨front, below, hfront⟩ := List.append_of_mem (get?_eq_some_iff.mp hl)
  have ⟨hless, hgreater⟩ := lt_of_entries_eq hfront
  have hmem : (k, a) ∈ front := by
    have hmem := get?_eq_some_iff.mp hk
    rw [hfront, List.mem_append, List.mem_cons] at hmem
    rcases hmem with hmem | heq | hmem
    case inl => exact hmem
    case inr.inl => exact absurd (congrArg Prod.fst heq) (Int.ne_of_lt hlt)
    case inr.inr => exact absurd (hgreater _ hmem) (Int.lt_asymm hlt)
  have ⟨above, between, hbetween⟩ := List.append_of_mem hmem
  have hsplit : m.entries = above ++ (k, a) :: (between ++ (l, b) :: below) := by
    simp [hfront, hbetween]
  refine ⟨above, between, below, hsplit, fun e he => ⟨?_, ?_, ?_⟩⟩
  · exact (lt_of_entries_eq hsplit).right e (List.mem_append_left _ he)
  · exact hless e (by simp [hbetween, he])
  · exact get?_eq_some_iff.mpr (by simp [hsplit, he])

theorem entries_erase (h : m.entries = above ++ (k, a) :: below) :
    (m.erase k).entries = above ++ below := by
  have ⟨hlt, hgt⟩ := lt_of_entries_eq h
  have habove : above.filter (·.1 ≠ k) = above :=
    List.filter_eq_self.mpr fun e he => by simpa using Int.ne_of_lt (hlt e he)
  have hbelow : below.filter (·.1 ≠ k) = below :=
    List.filter_eq_self.mpr fun e he => by simpa using Int.ne_of_gt (hgt e he)
  simp only [erase, h, List.filter_append, habove, List.filter_cons, hbelow]
  simp

theorem insertEntry_append (h : ∀ e ∈ above, e.1 < k) :
    insertEntry k b (above ++ (k, a) :: below) = above ++ (k, b) :: below := by
  induction above
  case nil => simp [insertEntry]
  case cons e above ih =>
    obtain ⟨he, hes⟩ := List.forall_mem_cons.mp h
    rw [List.cons_append, insertEntry, if_neg (Int.not_lt.mpr (Int.le_of_lt he)),
      if_neg (Int.ne_of_gt he), ih hes, List.cons_append]

theorem entries_insert (h : m.entries = above ++ (k, a) :: below) (b : α) :
    (m.insert k b).entries = above ++ (k, b) :: below := by
  calc (m.insert k b).entries
    _ = insertEntry k b (above ++ (k, a) :: below) := congrArg (insertEntry k b) h
    _ = above ++ (k, b) :: below := insertEntry_append (lt_of_entries_eq h).left

end IntMap

namespace Instruction

variable {ts : List Token}

inductive IsInert : List Token → Prop
  | empty : IsInert []
  | foreign {t : Token} {ts : List Token} : ¬isMnemonic "mov" t → ¬isMnemonic "svc" t →
      IsInert (t :: ts)
  | bare {mov : Token} : isMnemonic "mov" mov → IsInert [mov]
  | untracked {mov target : Token} {rest : List Token} : isMnemonic "mov" mov →
      Tracked.ofToken? target.text = none → IsInert (mov :: target :: rest)
  | flawed {ts : List Token} : IsFlawed ts → IsInert ts

def IsTrap (ts : List Token) : Prop :=
  ∃ svc operands, ts = svc :: operands ∧ isMnemonic "svc" svc

theorem isEffective_of_isTrap (h : IsTrap ts) : (ofTokens ts).isEffective := by
  obtain ⟨svc, operands, rfl, hs⟩ := h
  rw [ofTokens_svc hs, ofSvc_eq]
  split <;> rfl

theorem isInert_iff : IsInert ts ↔ ¬(ofTokens ts).isEffective := by
  constructor
  case mp =>
    intro h
    cases h
    case empty => simp [ofTokens, isEffective]
    case foreign hm hs => simp [ofTokens, hm, hs, isEffective]
    case bare hm => simp [ofTokens_mov hm, ofMov, isEffective]
    case untracked hm hr => simp [ofTokens_mov hm, ofMov, hr, isEffective]
    case flawed h =>
      obtain ⟨problem, culprit, hi⟩ := isFlawed_iff.mp h
      simp [hi, isEffective]
  case mpr =>
    intro h
    cases ts
    case nil => exact .empty
    case cons t operands =>
      by_cases hm : isMnemonic "mov" t
      case neg =>
        by_cases hs : isMnemonic "svc" t
        case neg => exact .foreign hm hs
        case pos => exact absurd (isEffective_of_isTrap ⟨t, operands, rfl, hs⟩) h
      case pos =>
        rw [ofTokens_mov hm] at h
        cases operands
        case nil => exact .bare hm
        case cons target rest =>
          cases hr : Tracked.ofToken? target.text
          case none => exact .untracked hm hr
          case some r =>
            rcases ofOperands_eq r target rest with ⟨value, hi, _⟩ | ⟨problem, culprit, _, hp⟩
            case inl => simp [ofMov, hr, hi, isEffective] at h
            case inr => exact .flawed ⟨hm, by simp [hr], by simp [hp]⟩

end Instruction

def Registers.AgreeOff (r : Tracked) (rs rs' : Registers) : Prop :=
  ∀ q, q ≠ r → rs q = rs' q

theorem Registers.AgreeOff.after {r : Tracked} {rs rs' : Registers} (h : AgreeOff r rs rs')
    (line : Int) (i : Instruction) : AgreeOff r (rs.after line i) (rs'.after line i) := by
  intro q hq
  cases i
  case assign => simp only [Registers.after, Registers.set, h q hq]
  all_goals exact h q hq

theorem Registers.AgreeOff.set_eq {r : Tracked} {rs rs' : Registers} (h : AgreeOff r rs rs')
    (a : Assignment) : rs.set r a = rs'.set r a := by
  funext q
  by_cases hq : q = r
  case pos => simp [Registers.set, hq]
  case neg => simp [Registers.set, hq, h q hq]

namespace Analysis

variable {c : Context} {tokens : TokenTable} {rs rs' : Registers} {line : Int} {x y : Findings}
variable {ts : List Token} {above below : List (Int × List Token)} {r : Tracked}

inductive OwnError (c : Context) (line : Int) (ts : List Token) : List Diagnostic → Prop
  | none : ¬(c.reporting ∧ IsFlawed ts) → OwnError c line ts []
  | error {d : Diagnostic} : c.reporting → IsFlawed ts → d.severity = .error →
      d.line = some (line + 1) → OwnError c line ts [d]

theorem ownError_of_isInert (hi : IsInert ts) (h : findingsAt c rs line (ofTokens ts) = .ok x) :
    OwnError c line ts x.diagnostics := by
  have hi := isInert_iff.mp hi
  cases ht : ofTokens ts
  case malformed problem culprit =>
    have hf : IsFlawed ts := isFlawed_iff.mpr ⟨problem, culprit, ht⟩
    simp only [ht, findingsAt, Except.ok.injEq] at h
    by_cases hr : c.reporting
    case pos => simpa [← h, malformed, hr] using .error hr hf rfl rfl
    case neg => simpa [← h, malformed, hr] using .none (by simp [hr])
  case other =>
    have hf : ¬IsFlawed ts := by simp [isFlawed_iff, ht]
    simp only [ht, findingsAt, Except.ok.injEq] at h
    simpa [← h] using .none (by simp [hf])
  all_goals simp [ht, isEffective] at hi

theorem findingsAt_of_not_isTrap (h : ¬IsTrap ts) (rs rs' : Registers) :
    findingsAt c rs line (ofTokens ts) = findingsAt c rs' line (ofTokens ts) := by
  cases hi : ofTokens ts
  case trap =>
    have ⟨svc, _, _, hts, hs, _⟩ := ofTokens_eq_trap hi
    exact absurd ⟨svc, _, hts, hs⟩ h
  case foreignTrap =>
    have ⟨svc, _, hts, hs, _⟩ := ofTokens_eq_foreignTrap hi
    exact absurd ⟨svc, _, hts, hs⟩ h
  all_goals rfl

-- It makes no difference what a register was known to hold, if it is overwritten before a trap.
theorem findingsFrom_of_overwritten (c : Context) {between : List (Int × List Token)}
    {a : Assignment} (below : List (Int × List Token))
    (h : Registers.AgreeOff r rs rs') (hb : ∀ e ∈ between, ¬IsTrap e.2)
    (ha : Assignment.ofLine? r line ts = some a) :
    findingsFrom c rs (between ++ (line, ts) :: below) =
      findingsFrom c rs' (between ++ (line, ts) :: below) := by
  induction between generalizing rs rs'
  case nil =>
    have ⟨value, hi, _⟩ := Assignment.ofLine?_eq_some_iff.mp ha
    simp only [List.nil_append, findingsFrom, hi, findingsAt, Registers.after, h.set_eq]
  case cons e between ih =>
    obtain ⟨he, hb⟩ := List.forall_mem_cons.mp hb
    rw [List.cons_append, findingsFrom, findingsFrom, findingsAt_of_not_isTrap he rs rs',
      ih (h.after e.1 (ofTokens e.2)) hb]

-- A pass over the lines above a line and below it, with what is found on the line itself, if it
-- sets no register that matters below.
def around (c : Context) (above : List (Int × List Token)) (here : Findings)
    (below : List (Int × List Token)) : Except Numeral.Error Findings := do
  let earlier ← findingsFrom c .unknown above
  let later ← findingsFrom c (Registers.unknown.afterLines above) below
  return earlier ++ (here ++ later)

theorem analyze_eq_around (h : tokens.entries = above ++ (line, ts) :: below)
    (hx : findingsAt c (Registers.unknown.afterLines above) line (ofTokens ts) = .ok x)
    (hb : findingsFrom c ((Registers.unknown.afterLines above).after line (ofTokens ts)) below =
      findingsFrom c (Registers.unknown.afterLines above) below) :
    analyze c tokens = around c above x below := by
  rw [analyze_eq_findingsFrom, h, findingsFrom_append, findingsFrom, hx, hb, around]
  cases findingsFrom c .unknown above
  case error => rfl
  case ok => cases findingsFrom c (Registers.unknown.afterLines above) below <;> rfl

theorem analyze_erase (h : tokens.entries = above ++ (line, ts) :: below) :
    analyze c (tokens.erase line) = around c above {} below := by
  rw [analyze_eq_findingsFrom, IntMap.entries_erase h, findingsFrom_append]
  rfl

-- Findings with the same hints, whose diagnostics differ at one place alone.
structure DifferIn (own other : List Diagnostic) (f g : Findings) : Prop where
  hints       : f.hintTable = g.hintTable
  diagnostics : ∃ before after, f.diagnostics = before ++ own ++ after ∧
    g.diagnostics = before ++ other ++ after

theorem agree_around (hx : x.hints = []) (hy : y.hints = []) :
    Agree (DifferIn x.diagnostics y.diagnostics) (around c above x below)
      (around c above y below) := by
  refine Agree.bind (Agree.refl (fun _ => rfl) _) ?_
  rintro earlier _ rfl
  refine Agree.bind (Agree.refl (fun _ => rfl) _) ?_
  rintro later _ rfl
  refine .ok ⟨?_, earlier.diagnostics, later.diagnostics, ?_⟩
  · simp only [Findings.hintTable, Findings.hints_append, hx, hy]
  · simp [Findings.diagnostics_append]

theorem analyze_of_isInert (c : Context) (h : tokens.entries = above ++ (line, ts) :: below)
    (hi : IsInert ts) :
    ∃ x, x.hints = [] ∧ OwnError c line ts x.diagnostics ∧
      analyze c tokens = around c above x below := by
  have ⟨x, hx, hhints, hrs⟩ :=
    findingsAt_of_not_isEffective c (Registers.unknown.afterLines above) line (isInert_iff.mp hi)
  exact ⟨x, hhints, ownError_of_isInert hi hx, analyze_eq_around h hx (by rw [hrs])⟩

theorem agree_erase_of_isInert (c : Context) (h : tokens.get? line = some ts) (hi : IsInert ts) :
    ∃ own, OwnError c line ts own ∧
      Agree (DifferIn own []) (analyze c tokens) (analyze c (tokens.erase line)) := by
  have ⟨above, below, hsplit⟩ := List.append_of_mem (IntMap.get?_eq_some_iff.mp h)
  have ⟨x, hx, hown, hanalyze⟩ := analyze_of_isInert c hsplit hi
  rw [hanalyze, analyze_erase hsplit]
  exact ⟨x.diagnostics, hown, agree_around (y := {}) hx rfl⟩

theorem agree_insert_of_isInert (c : Context) {us : List Token} (h : tokens.get? line = some ts)
    (hi : IsInert ts) (hu : IsInert us) :
    ∃ own other, OwnError c line ts own ∧ OwnError c line us other ∧
      Agree (DifferIn own other) (analyze c tokens) (analyze c (tokens.insert line us)) := by
  have ⟨above, below, hsplit⟩ := List.append_of_mem (IntMap.get?_eq_some_iff.mp h)
  have ⟨x, hx, hown, hanalyze⟩ := analyze_of_isInert c hsplit hi
  have ⟨y, hy, hother, hinsert⟩ := analyze_of_isInert c (IntMap.entries_insert hsplit us) hu
  rw [hanalyze, hinsert]
  exact ⟨x.diagnostics, y.diagnostics, hown, hother, agree_around hx hy⟩

theorem agree_erase_of_overwritten (c : Context) {line' : Int} {ts' : List Token}
    {a a' : Assignment} (h : tokens.get? line = some ts)
    (ha : Assignment.ofLine? r line ts = some a) (h' : tokens.get? line' = some ts')
    (ha' : Assignment.ofLine? r line' ts' = some a') (hlt : line < line')
    (hb : ∀ l us, line < l → l < line' → tokens.get? l = some us → ¬IsTrap us) :
    Agree (DifferIn [] []) (analyze c tokens) (analyze c (tokens.erase line)) := by
  obtain ⟨above, between, below, hsplit, hbetween⟩ := IntMap.exists_entries_between h h' hlt
  have ⟨value, hi, _⟩ := Assignment.ofLine?_eq_some_iff.mp ha
  have hoff : Registers.AgreeOff r ((Registers.unknown.afterLines above).after line (ofTokens ts))
      (Registers.unknown.afterLines above) := by
    intro q hq
    simp [hi, Registers.after, Registers.set, hq]
  have hx : findingsAt c (Registers.unknown.afterLines above) line (ofTokens ts) =
      .ok { trace := [.assigned line r value.text] } := by rw [hi]; rfl
  have hquiet : ∀ e ∈ between, ¬IsTrap e.2 := by
    intro e he
    obtain ⟨hgt, hlt', hget⟩ := hbetween e he
    exact hb e.1 e.2 hgt hlt' hget
  have hbelow := findingsFrom_of_overwritten c below hoff hquiet ha'
  rw [analyze_eq_around hsplit hx hbelow, analyze_erase hsplit]
  exact agree_around (x := { trace := _ }) (y := {}) rfl rfl

-- Only traps and the assignments that reach them matter. The first part is about a line without
-- effect, which may be dropped or exchanged for another one, the second about an assignment that is
-- overwritten before the next trap.
theorem agree_of_idle_line (c : Context) (tokens : TokenTable) :
    (∀ line ts, tokens.get? line = some ts → IsInert ts →
      (∃ own, OwnError c line ts own ∧
        Agree (DifferIn own []) (analyze c tokens) (analyze c (tokens.erase line))) ∧
      ∀ us, IsInert us → ∃ own other, OwnError c line ts own ∧ OwnError c line us other ∧
        Agree (DifferIn own other) (analyze c tokens) (analyze c (tokens.insert line us))) ∧
    (∀ line line' ts ts' r, tokens.get? line = some ts → (Assignment.ofLine? r line ts).isSome →
      tokens.get? line' = some ts' → (Assignment.ofLine? r line' ts').isSome → line < line' →
      (∀ l us, line < l → l < line' → tokens.get? l = some us → ¬IsTrap us) →
      Agree (fun f g => f.hintTable = g.hintTable ∧ f.diagnostics = g.diagnostics)
        (analyze c tokens) (analyze c (tokens.erase line))) := by
  constructor
  case left =>
    intro line ts h hi
    exact ⟨agree_erase_of_isInert c h hi, fun us => agree_insert_of_isInert c h hi⟩
  case right =>
    intro line line' ts ts' r h ha h' ha' hlt hb
    have ⟨a, ha⟩ := Option.isSome_iff_exists.mp ha
    have ⟨a', ha'⟩ := Option.isSome_iff_exists.mp ha'
    refine (agree_erase_of_overwritten c h ha h' ha' hlt hb).imp ?_
    rintro f g ⟨hhints, before, after, hf, hg⟩
    exact ⟨hhints, hf.trans hg.symm⟩

theorem agree_of_idle_line_of_overwritten_number :
    let c : Context := ⟨Syscall.linux, Syscall.standardStreams, true⟩
    let tokens := TokenTable.ofText "mov x8, #7\nmov x8,\nmov w8, #172\nsvc #0"
    let flawed := Token.scan "mov x8,"
    let label := Token.scan "done: // exit"
    (analyze c tokens).map (fun f => (f.hintTable.size, f.diagnostics.length)) = .ok (2, 1) ∧
    tokens.get? 1 = some flawed ∧ IsInert flawed ∧ IsInert label ∧
    (∃ own, OwnError c 1 flawed own ∧
      Agree (DifferIn own []) (analyze c tokens) (analyze c (tokens.erase 1))) ∧
    (∃ own other, OwnError c 1 flawed own ∧ OwnError c 1 label other ∧
      Agree (DifferIn own other) (analyze c tokens) (analyze c (tokens.insert 1 label))) ∧
    Agree (fun f g => f.hintTable = g.hintTable ∧ f.diagnostics = g.diagnostics)
      (analyze c tokens) (analyze c (tokens.erase 0)) := by
  intro c tokens flawed label
  have hget : tokens.get? 1 = some flawed := by decide +kernel
  have hflawed : IsInert flawed := isInert_iff.mpr (by decide +kernel)
  have hlabel : IsInert label := isInert_iff.mpr (by decide +kernel)
  have ⟨hidle, hdead⟩ := agree_of_idle_line c tokens
  have ⟨herase, hinsert⟩ := hidle 1 flawed hget hflawed
  refine ⟨by decide +kernel, hget, hflawed, hlabel, herase, hinsert label hlabel, ?_⟩
  refine hdead 0 2 (Token.scan "mov x8, #7") (Token.scan "mov w8, #172") .number
    (by decide +kernel) (by decide +kernel) (by decide +kernel) (by decide +kernel) (by decide) ?_
  intro l us hgt hlt hus
  obtain rfl : l = 1 := by omega
  obtain rfl := Option.some.inj (hus.symm.trans hget)
  exact fun htrap => isInert_iff.mp hflawed (isEffective_of_isTrap htrap)

end Analysis

end SvcLens
