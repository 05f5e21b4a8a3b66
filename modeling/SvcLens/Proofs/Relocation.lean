import Mathlib
import SvcLens.Proofs.Extension
import SvcLens.Proofs.Endings

namespace SvcLens

open Instruction

-- An analysis takes lines and columns over from the tokens into what it finds and never looks at
-- them, except for the order of the lines.
structure Relocation where
  line   : Int → Int
  column : Int → Int

variable (m : Relocation)

def Token.relocate (t : Token) : Token :=
  { t with start := m.column t.start, stop := m.column t.stop }

def Assignment.relocate (a : Assignment) : Assignment :=
  ⟨a.value, m.line a.line, m.column a.start, m.column a.stop⟩

def Registers.relocate (rs : Registers) : Registers :=
  fun r => (rs r).map (·.relocate m)

def Instruction.relocate : Instruction → Instruction
  | .assign r value => .assign r (value.relocate m)
  | .malformed problem culprit => .malformed problem (culprit.relocate m)
  | .trap => .trap
  | .foreignTrap => .foreignTrap
  | .other => .other

def Diagnostic.relocate (d : Diagnostic) : Diagnostic :=
  { d with
    line := d.line.map fun k => m.line (k - 1) + 1
    column := d.column.map fun k => m.column (k - 1) + 1
    span := d.span.map (Prod.map m.column m.column) }

def Trace.relocate : Trace → Trace
  | .malformed line problem => .malformed (m.line line) problem
  | .assigned line r value => .assigned (m.line line) r value
  | .undecodable line value => .undecodable (m.line line) value
  | .unknown line number => .unknown (m.line line) number
  | .scanned lines => .scanned lines
  | .finished source lines diagnostics => .finished source lines diagnostics

def Analysis.Findings.relocate (f : Findings) : Findings :=
  ⟨f.hints.map (Prod.map m.line id), f.diagnostics.map (·.relocate m), f.trace.map (·.relocate m)⟩

namespace Instruction

variable {m}

theorem isMnemonic_relocate (name : String) (t : Token) :
    isMnemonic name (t.relocate m) = isMnemonic name t :=
  rfl

theorem ofValue_relocate (r : Tracked) (comma : Token) (ts : List Token) :
    ofValue r (comma.relocate m) (ts.map (·.relocate m)) = (ofValue r comma ts).relocate m := by
  cases ts
  case nil => rfl
  case cons value _ =>
    have hkind : (value.relocate m).kind = value.kind := rfl
    simp only [List.map_cons, ofValue, hkind]
    split <;> rfl

theorem ofOperands_relocate (r : Tracked) (target : Token) (ts : List Token) :
    ofOperands r (target.relocate m) (ts.map (·.relocate m)) =
      (ofOperands r target ts).relocate m := by
  cases ts
  case nil => rfl
  case cons comma rest =>
    have hkind : (comma.relocate m).kind = comma.kind := rfl
    simp only [List.map_cons, ofOperands, hkind, ofValue_relocate]
    split <;> rfl

theorem ofMov_relocate (ts : List Token) :
    ofMov (ts.map (·.relocate m)) = (ofMov ts).relocate m := by
  cases ts
  case nil => rfl
  case cons target rest =>
    have htext : (target.relocate m).text = target.text := rfl
    simp only [List.map_cons, ofMov, htext, ofOperands_relocate]
    cases Tracked.ofToken? target.text <;> rfl

theorem ofSvc_relocate (ts : List Token) :
    ofSvc (ts.map (·.relocate m)) = (ofSvc ts).relocate m := by
  cases ts
  case nil => rfl
  case cons operand _ =>
    have htext : (operand.relocate m).text = operand.text := rfl
    simp only [List.map_cons, ofSvc, htext]
    split <;> rfl

theorem ofTokens_relocate (ts : List Token) :
    ofTokens (ts.map (·.relocate m)) = (ofTokens ts).relocate m := by
  cases ts
  case nil => rfl
  case cons t rest =>
    simp only [List.map_cons, ofTokens, isMnemonic_relocate, ofMov_relocate, ofSvc_relocate]
    repeat' split
    all_goals rfl

end Instruction

theorem Registers.after_relocate (rs : Registers) (line : Int) (i : Instruction) :
    (rs.relocate m).after (m.line line) (i.relocate m) = (rs.after line i).relocate m := by
  cases i
  case assign r value =>
    funext q
    by_cases hq : q = r
    case pos => simp [after, set, relocate, Instruction.relocate, Assignment.relocate,
      Token.relocate, hq]
    case neg => simp [after, set, relocate, Instruction.relocate, hq]
  all_goals rfl

theorem Diagnostic.relocate_ofSpan (severity : Severity) (message : String)
    (line start stop : Int) (hint : Option String) :
    (ofSpan severity message line start stop hint).relocate m =
      ofSpan severity message (m.line line) (m.column start) (m.column stop) hint := by
  simp [relocate, ofSpan]

namespace Analysis

variable {m} {c : Context}

theorem Findings.relocate_append (f g : Findings) :
    (f ++ g).relocate m = f.relocate m ++ g.relocate m := by
  simp only [HAppend.hAppend, Append.append, Findings.append, Findings.relocate]
  simp

theorem argumentHint_relocate (rs : Registers) (a : Argument) :
    argumentHint c (rs.relocate m) a =
      (argumentHint c rs a).map (Option.map (Prod.map m.line id)) := by
  have hbind : (Tracked.ofName? a.register).bind (rs.relocate m) =
      ((Tracked.ofName? a.register).bind rs).map (·.relocate m) := by
    cases Tracked.ofName? a.register <;> rfl
  rw [argumentHint, argumentHint, hbind]
  cases (Tracked.ofName? a.register).bind rs
  case none => rfl
  case some set =>
    have hvalue : (set.relocate m).value = set.value := rfl
    simp only [Option.map_some, hvalue]
    cases shownValue c.descriptors a.name set.value <;> rfl

theorem callHints_relocate (rs : Registers) (line : Int) (set : Assignment) (number : Int)
    (s : Syscall) :
    callHints c (rs.relocate m) (m.line line) (set.relocate m) number s =
      (callHints c rs line set number s).map (List.map (Prod.map m.line id)) := by
  have harguments : argumentHint c (rs.relocate m) =
      fun a => (argumentHint c rs a).map (Option.map (Prod.map m.line id)) :=
    funext (argumentHint_relocate rs)
  rw [callHints, callHints, harguments, mapM_map_right]
  cases Numeral.write number
  case error => rfl
  case ok n =>
    cases s.arguments.mapM (argumentHint c rs)
    case error => rfl
    case ok os =>
      refine congrArg Except.ok ?_
      simp [Assignment.relocate, List.filterMap_map, List.map_filterMap]

theorem about_relocate (set : Assignment) (severity : Severity) (message : String)
    (hint : Option String) :
    c.about (set.relocate m) severity message hint =
      (c.about set severity message hint).map (·.relocate m) := by
  simp only [Context.about]
  split
  case isTrue => simp [Diagnostic.relocate_ofSpan, Assignment.relocate]
  case isFalse => rfl

theorem unknown_relocate (line : Int) (set : Assignment) (number : Int) :
    unknown c (m.line line) (set.relocate m) number =
      (unknown c line set number).map (·.relocate m) := by
  simp only [unknown, about_relocate]
  split
  case isTrue => cases Numeral.write number <;> rfl
  case isFalse => rfl

theorem call_relocate (rs : Registers) (line : Int) (set : Assignment) :
    call c (rs.relocate m) (m.line line) (set.relocate m) =
      (call c rs line set).map (·.relocate m) := by
  have hvalue : (set.relocate m).value = set.value := rfl
  rw [call, call, hvalue]
  cases Immediate.parse set.value
  case error => rfl
  case ok number =>
    cases number
    case none =>
      refine congrArg Except.ok ?_
      simp only [undecodable, Findings.relocate, about_relocate, hvalue]
      rfl
    case some number =>
      simp only [bind, Except.bind]
      cases c.syscalls.get? number
      case none => exact unknown_relocate line set number
      case some s =>
        simp only [callHints_relocate]
        cases callHints c rs line set number s <;> rfl

theorem findingsAt_relocate (rs : Registers) (line : Int) (i : Instruction) :
    findingsAt c (rs.relocate m) (m.line line) (i.relocate m) =
      (findingsAt c rs line i).map (·.relocate m) := by
  cases i
  case assign => rfl
  case other => rfl
  case malformed problem culprit =>
    refine congrArg Except.ok ?_
    by_cases hr : c.reporting
    case pos => simp [malformed, hr, Findings.relocate, Diagnostic.relocate_ofSpan, Token.relocate,
      Trace.relocate]
    case neg => simp [malformed, hr, Findings.relocate, Trace.relocate]
  case foreignTrap =>
    refine congrArg Except.ok ?_
    cases h : rs .number <;> simp [Registers.relocate, h, Findings.relocate]
  case trap =>
    cases h : rs .number
    case none => simp [findingsAt, Instruction.relocate, Registers.relocate, h]; rfl
    case some set =>
      have hset : rs.relocate m .number = some (set.relocate m) := by simp [Registers.relocate, h]
      simp only [findingsAt, Instruction.relocate, hset, h, Option.elim_some, call_relocate]

theorem findingsFrom_relocate (rs : Registers) (es : List (Int × List Token)) :
    findingsFrom c (rs.relocate m) (es.map (Prod.map m.line (List.map (·.relocate m)))) =
      (findingsFrom c rs es).map (·.relocate m) := by
  induction es generalizing rs
  case nil => rfl
  case cons e es ih =>
    simp only [List.map_cons, Prod.map, findingsFrom, ofTokens_relocate, findingsAt_relocate,
      Registers.after_relocate] at ih ⊢
    rw [ih]
    cases findingsAt c rs e.1 (ofTokens e.2)
    case error => rfl
    case ok here =>
      cases findingsFrom c (rs.after e.1 (ofTokens e.2)) es
      case error => rfl
      case ok later => exact congrArg Except.ok (Findings.relocate_append here later).symm

end Analysis

namespace IntMap

variable {α : Type} {es : List (Int × α)} {s : Set Int} {move : Int → Int} {k : Int}

def keys (m : IntMap α) : Set Int :=
  { k | (m.get? k).isSome }

theorem mem_keys_of_mem {m : IntMap α} {e : Int × α} (h : e ∈ m.entries) : e.1 ∈ m.keys := by
  have hget : m.get? e.1 = some e.2 := get?_eq_some_iff.mpr h
  simp [keys, hget]

def rekey (m : IntMap α) (move : Int → Int) (h : StrictMonoOn move m.keys) : IntMap α where
  entries := m.entries.map (Prod.map move id)
  ascending := List.pairwise_map.mpr <|
    m.ascending.imp_of_mem fun hd he hlt => h (mem_keys_of_mem hd) (mem_keys_of_mem he) hlt

theorem lookup_map_key (hm : StrictMonoOn move s) (hk : k ∈ s) (hs : ∀ e ∈ es, e.1 ∈ s) :
    (es.map (Prod.map move id)).lookup (move k) = es.lookup k := by
  induction es
  case nil => rfl
  case cons e es ih =>
    have ⟨he, hes⟩ := List.forall_mem_cons.mp hs
    have hiff : move k = move e.1 ↔ k = e.1 := hm.injOn.eq_iff hk he
    rw [List.map_cons, Prod.map, lookup_cons_ite, lookup_cons_ite, ih hes]
    simp only [hiff, id]

theorem insertEntry_map_key (hm : StrictMonoOn move s) (hk : k ∈ s) (hs : ∀ e ∈ es, e.1 ∈ s)
    (a : α) :
    insertEntry (move k) a (es.map (Prod.map move id)) =
      (insertEntry k a es).map (Prod.map move id) := by
  induction es
  case nil => rfl
  case cons e es ih =>
    have ⟨he, hes⟩ := List.forall_mem_cons.mp hs
    have hlt : move k < move e.1 ↔ k < e.1 := hm.lt_iff_lt hk he
    have heq : move k = move e.1 ↔ k = e.1 := hm.injOn.eq_iff hk he
    simp only [List.map_cons, insertEntry, Prod.map_fst, hlt, heq, ih hes]
    split
    case isTrue => rfl
    case isFalse => split <;> rfl

end IntMap

namespace HintTable

variable {es : List (Int × Hint)} {s : Set Int} {move : Int → Int}

theorem entries_foldl_push_map (hm : StrictMonoOn move s) (he : ∀ e ∈ es, e.1 ∈ s)
    {t u : HintTable} (ht : ∀ e ∈ t.entries, e.1 ∈ s)
    (hu : u.entries = t.entries.map (Prod.map move id)) :
    ((es.map (Prod.map move id)).foldl (fun t e => t.push e.1 e.2) u).entries =
      (es.foldl (fun t e => t.push e.1 e.2) t).entries.map (Prod.map move id) := by
  induction es generalizing t u
  case nil => exact hu
  case cons e es ih =>
    have ⟨hmem, hes⟩ := List.forall_mem_cons.mp he
    have honLine : u.onLine (move e.1) = t.onLine e.1 := by
      simp only [onLine, IntMap.get?, hu, IntMap.lookup_map_key hm hmem ht]
    refine ih hes (t := t.push e.1 e.2) (u := u.push (move e.1) e.2) (fun d hd => ?_) ?_
    · rcases IntMap.mem_insertEntry hd with rfl | hd
      · exact hmem
      · exact ht d hd
    · simp only [push, IntMap.insert, honLine, hu, IntMap.insertEntry_map_key hm hmem ht]

-- The hints are grouped by line in the same way if their lines are moved in the same order.
theorem entries_ofEvents_map (hm : StrictMonoOn move s) (he : ∀ e ∈ es, e.1 ∈ s) :
    (ofEvents (es.map (Prod.map move id))).entries =
      (ofEvents es).entries.map (Prod.map move id) :=
  entries_foldl_push_map hm he (by simp [IntMap.empty]) rfl

end HintTable

namespace Token

def spelling (t : Token) : Kind × String :=
  (t.kind, t.text)

end Token

namespace Diagnostic

variable {move : Int → Int}

def moveLine (move : Int → Int) (d : Diagnostic) : Diagnostic :=
  { d with line := d.line.map fun k => move (k - 1) + 1 }

def withoutColumns (d : Diagnostic) : Diagnostic :=
  { d with column := none, span := none }

theorem relocate_id_column (move : Int → Int) (d : Diagnostic) :
    d.relocate ⟨move, id⟩ = d.moveLine move := by
  simp [relocate, moveLine]

theorem withoutColumns_relocate (column : Int → Int) (d : Diagnostic) :
    (d.relocate ⟨id, column⟩).withoutColumns = d.withoutColumns := by
  simp [relocate, withoutColumns]

end Diagnostic

namespace Analysis

variable {c : Context} {tokens other : TokenTable} {move : Int → Int}

theorem analyze_rekey (c : Context) (h : StrictMonoOn move tokens.keys) :
    analyze c (tokens.rekey move h) = (analyze c tokens).map (·.relocate ⟨move, id⟩) := by
  have htokens : List.map (Token.relocate ⟨move, id⟩) = id := by
    funext ts
    exact List.map_id ts
  have hpass := @findingsFrom_relocate ⟨move, id⟩ c .unknown tokens.entries
  rw [htokens] at hpass
  rw [analyze_eq_findingsFrom, analyze_eq_findingsFrom]
  exact hpass

structure MovedTo (move : Int → Int) (f g : Findings) : Prop where
  hints       : g.hintTable.entries = f.hintTable.entries.map (Prod.map move id)
  diagnostics : g.diagnostics = f.diagnostics.map (·.moveLine move)

theorem agree_rekey (c : Context) (h : StrictMonoOn move tokens.keys) :
    Agree (MovedTo move) (analyze c tokens) (analyze c (tokens.rekey move h)) := by
  rw [analyze_rekey]
  cases hf : analyze c tokens
  case error e => exact .error e
  case ok f =>
    have hlines : ∀ e ∈ f.hints, e.1 ∈ tokens.keys := by
      intro e he
      rw [hints_of_analyze_eq_ok hf] at he
      have ⟨ts, hts⟩ := exists_get?_of_mem_events he
      simp [IntMap.keys, hts]
    refine .ok ⟨HintTable.entries_ofEvents_map h hlines, ?_⟩
    exact List.map_congr_left fun d _ => d.relocate_id_column move

structure SameUpToColumns (f g : Findings) : Prop where
  hints       : g.hintTable = f.hintTable
  diagnostics : g.diagnostics.map (·.withoutColumns) = f.diagnostics.map (·.withoutColumns)

theorem SameUpToColumns.of_relocate_eq {column : Int → Int} {f g : Findings}
    (h : f.relocate ⟨id, column⟩ = g.relocate ⟨id, column⟩) : SameUpToColumns f g where
  hints := by
    have hhints : f.hints = g.hints := by
      simpa [Findings.relocate] using congrArg Findings.hints h
    rw [Findings.hintTable, Findings.hintTable, hhints]
  diagnostics := by
    have hdiagnostics := congrArg (·.diagnostics.map (·.withoutColumns)) h
    simpa [Findings.relocate, Function.comp_def, Diagnostic.withoutColumns_relocate]
      using hdiagnostics.symm

-- Once all columns are moved to zero, tokens that are spelled alike are the same.
theorem relocate_analyze_eq (c : Context) (tokens : TokenTable) :
    (analyze c tokens).map (·.relocate ⟨id, fun _ => 0⟩) =
      findingsFrom c .unknown ((tokens.map (List.map Token.spelling)).entries.map
        (Prod.map id (List.map fun s => ⟨s.1, s.2, 0, 0⟩))) := by
  have hentries : (tokens.map (List.map Token.spelling)).entries.map
      (Prod.map id (List.map fun s => ⟨s.1, s.2, 0, 0⟩)) =
      tokens.entries.map (Prod.map id (List.map (Token.relocate ⟨id, fun _ => 0⟩))) := by
    simp [IntMap.map, Function.comp_def, Prod.map, Token.spelling, Token.relocate]
  rw [hentries, analyze_eq_findingsFrom]
  exact (findingsFrom_relocate .unknown tokens.entries).symm

theorem agree_of_spelling_eq (c : Context)
    (h : other.map (List.map Token.spelling) = tokens.map (List.map Token.spelling)) :
    Agree SameUpToColumns (analyze c tokens) (analyze c other) := by
  have heq : (analyze c tokens).map (·.relocate ⟨id, fun _ => 0⟩) =
      (analyze c other).map (·.relocate ⟨id, fun _ => 0⟩) := by
    rw [relocate_analyze_eq, relocate_analyze_eq, h]
  exact (agree_of_map_eq heq).imp .of_relocate_eq

end Analysis

end SvcLens
