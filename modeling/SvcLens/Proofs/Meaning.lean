import Mathlib.Data.List.Basic
import SvcLens.Proofs.Pass
import SvcLens.Syscall.Linux

namespace SvcLens

-- The hints among the events that belong to a line. A line without hints has no entry at all.
def HintTable.hintsOn (es : List (Int × Hint)) (line : Int) : Option (List Hint) :=
  match (es.filter (·.1 == line)).map Prod.snd with
  | [] => none
  | hs => some hs

theorem HintTable.get?_foldl_push (es : List (Int × Hint)) (t : HintTable) (line : Int)
    (h : t.get? line ≠ some []) :
    (es.foldl (fun t e => t.push e.1 e.2) t).get? line =
      match t.onLine line ++ (es.filter (·.1 == line)).map Prod.snd with
      | [] => none
      | hs => some hs := by
  induction es generalizing t
  case nil =>
    cases ht : t.get? line
    case none => simp [onLine, ht]
    case some hs => cases hs <;> simp_all [onLine]
  case cons e es ih =>
    rw [List.foldl_cons, ih, onLine_push]
    case h => simp only [push, IntMap.get?_insert]; split <;> simp_all
    by_cases hl : line = e.1
    · simp [hl]
    · simp [hl, Ne.symm hl]

theorem HintTable.get?_ofEvents (es : List (Int × Hint)) (line : Int) :
    (ofEvents es).get? line = hintsOn es line := by
  rw [ofEvents, get?_foldl_push es .empty line (by simp)]
  simp [onLine, hintsOn]

theorem Numeral.write_eq_ok {n : Int} {text : String} (h : write n = .ok text) :
    text = decimal n := by
  unfold write at h
  split at h
  case isTrue => exact (Except.ok.inj h).symm
  case isFalse => nomatch h

namespace Analysis

open Instruction

def valueText (descriptors : IntMap String) (role value : String) : String :=
  match Immediate.parse value with
  | .ok (some k) => if role = "fd" then (descriptors.get? k).getD value else value
  | _ => value

def argumentEvents (c : Context) (known : Registers) (a : Argument) : List (Int × Hint) :=
  match (Tracked.ofName? a.register).bind known with
  | none => []
  | some set =>
    [(set.line, ⟨a.name ++ ": " ++ valueText c.descriptors a.name set.value,
      if a.notes.isVacant then .ofText "" else a.notes⟩)]

def callEvents (c : Context) (known : Registers) (line : Int) (set : Assignment) (number : Int)
    (s : Syscall) : List (Int × Hint) :=
  (set.line, ⟨"syscall: " ++ s.name ++ " (" ++ Numeral.decimal number ++ ")",
    .ofText s.signature⟩) ::
  s.arguments.flatMap (argumentEvents c known) ++
  [(line, ⟨s.signature ++ " → " ++ s.returns, .ofText ("x0 = " ++ s.returns)⟩)]

-- The events of a line. Only a trap has any, and only if the number of a call is known there.
def eventsAt (c : Context) (known : Registers) (line : Int) : List Token → List (Int × Hint)
  | [] => []
  | svc :: operands =>
    match isMnemonic "svc" svc, known .number with
    | true, some set =>
      if operands.head?.map (·.text) ≠ some "#0" then
        [(line, ⟨"expects #0", .ofText "Linux AArch64 system calls are issued with svc #0"⟩)]
      else match Immediate.parse set.value with
        | .ok (some number) =>
          (c.syscalls.get? number).elim [] (callEvents c known line set number)
        | _ => []
    | _, _ => []

def events (c : Context) (tokens : TokenTable) : List (Int × Hint) :=
  tokens.entries.flatMap fun e => eventsAt c (tokens.lastBefore e.1) e.1 e.2

section

variable {c : Context} {rs : Registers} {line number : Int} {set : Assignment} {s : Syscall}
variable {a : Argument} {f : Findings} {ts : List Token} {descriptors : IntMap String}
variable {role value : String}

theorem shownValue_eq_ok {text : String} (h : shownValue descriptors role value = .ok text) :
    text = valueText descriptors role value := by
  unfold shownValue at h
  split at h
  case isTrue hr =>
    have ⟨n, hn, h⟩ := bind_eq_ok_iff.mp h
    cases n <;> simp_all [valueText, pure_eq_ok_iff]
  case isFalse hr =>
    simp only [Except.ok.injEq] at h
    unfold valueText
    split <;> simp [hr, h]

theorem argumentHint_eq_ok {o : Option (Int × Hint)} (h : argumentHint c rs a = .ok o) :
    o.toList = argumentEvents c rs a := by
  cases hs : (Tracked.ofName? a.register).bind rs
  case none =>
    simp only [argumentHint, hs, Except.ok.injEq] at h
    simp [argumentEvents, hs, ← h]
  case some set =>
    simp only [argumentHint, hs] at h
    have ⟨text, ht, h⟩ := bind_eq_ok_iff.mp h
    rw [← pure_eq_ok_iff.mp h, shownValue_eq_ok ht]
    simp [argumentEvents, hs]

theorem callHints_eq_ok {hs : List (Int × Hint)} (h : callHints c rs line set number s = .ok hs) :
    hs = callEvents c rs line set number s := by
  have ⟨n, hn, h⟩ := bind_eq_ok_iff.mp h
  have ⟨os, ho, h⟩ := bind_eq_ok_iff.mp h
  have ho : os.filterMap id = s.arguments.flatMap (argumentEvents c rs) := by
    rw [← flatMap_of_mapM_eq_ok ho fun a _ o => argumentHint_eq_ok]
    simp [List.filterMap_eq_flatMap_toList]
  rw [← pure_eq_ok_iff.mp h, Numeral.write_eq_ok hn, ho, callEvents]

theorem unknown_eq_ok (h : unknown c line set number = .ok f) :
    f = { diagnostics := c.about set .note
            ("Syscall " ++ Numeral.decimal number ++ " no está en la tabla; sin pistas") none
          trace := [.unknown line number] } := by
  by_cases hr : c.reporting
  case pos =>
    simp only [unknown, hr, if_true] at h
    have ⟨n, hn, h⟩ := bind_eq_ok_iff.mp h
    rw [← pure_eq_ok_iff.mp h, Numeral.write_eq_ok hn]
  case neg =>
    simp only [unknown, hr] at h
    have ⟨n, hn, h⟩ := bind_eq_ok_iff.mp h
    simp [← pure_eq_ok_iff.mp h, Context.about, hr]

theorem call_eq_ok (h : call c rs line set = .ok f) :
    (Immediate.parse set.value = .ok none ∧ f = undecodable c line set) ∨
    (∃ n, Immediate.parse set.value = .ok (some n) ∧ c.syscalls.get? n = none ∧
      f = { diagnostics := c.about set .note
              ("Syscall " ++ Numeral.decimal n ++ " no está en la tabla; sin pistas") none
            trace := [.unknown line n] }) ∨
    (∃ n s, Immediate.parse set.value = .ok (some n) ∧ c.syscalls.get? n = some s ∧
      f = { hints := callEvents c rs line set n s }) := by
  have ⟨n, hn, h⟩ := bind_eq_ok_iff.mp h
  cases n
  case none => exact .inl ⟨hn, (pure_eq_ok_iff.mp h).symm⟩
  case some number =>
    simp only at h
    split at h
    case h_1 hs => exact .inr <| .inl ⟨number, hn, hs, unknown_eq_ok h⟩
    case h_2 s hs =>
      have ⟨es, he, h⟩ := bind_eq_ok_iff.mp h
      refine .inr <| .inr ⟨number, s, hn, hs, ?_⟩
      rw [← pure_eq_ok_iff.mp h, callHints_eq_ok he]

theorem hints_of_call_eq_ok (h : call c rs line set = .ok f) :
    f.hints = match Immediate.parse set.value with
      | .ok (some n) => (c.syscalls.get? n).elim [] (callEvents c rs line set n)
      | _ => [] := by
  have h := call_eq_ok h
  rcases h with ⟨hn, hf⟩ | ⟨n, hn, hs, hf⟩ | ⟨n, s, hn, hs, hf⟩
  case inl => simp [hn, hf, undecodable]
  case inr.inl => simp [hn, hs, hf]
  case inr.inr => simp [hn, hs, hf]

theorem hints_of_not_trap {i : Instruction} (ht : i ≠ .trap ∧ i ≠ .foreignTrap)
    (h : findingsAt c rs line i = .ok f) : f.hints = [] := by
  have ⟨ht, hf⟩ := ht
  cases i
  case trap => contradiction
  case foreignTrap => contradiction
  all_goals
    simp only [findingsAt, Except.ok.injEq] at h
    simp [← h, malformed]

theorem hints_of_findingsAt_eq_ok (h : findingsAt c rs line (ofTokens ts) = .ok f) :
    f.hints = eventsAt c rs line ts := by
  cases ts
  case nil => rw [hints_of_not_trap (by simp [ofTokens]) h, eventsAt]
  case cons t operands =>
    by_cases hs : isMnemonic "svc" t
    case neg => simp [hints_of_not_trap (ofTokens_ne_trap hs) h, eventsAt, hs]
    case pos =>
      rw [ofTokens_svc hs, ofSvc_eq] at h
      cases hn : rs .number
      case none =>
        split at h
        all_goals simp [findingsAt, hn] at h; simp [eventsAt, hn, ← h]
      case some set =>
        split at h
        case isTrue ho =>
          have hc : call c rs line set = .ok f := by simpa [findingsAt, hn] using h
          simp only [eventsAt, hs, hn, ho, hints_of_call_eq_ok hc]
          simp
        case isFalse ho =>
          simp [findingsAt, hn] at h
          simp [eventsAt, hs, hn, ho, ← h, foreignTrapHint]

theorem hints_of_analyze_eq_ok {tokens : TokenTable} (h : analyze c tokens = .ok f) :
    f.hints = events c tokens := by
  have ⟨fs, hfs, hf⟩ := analyze_eq_ok h
  rw [← hf, events]
  exact flatMap_of_mapM_eq_ok hfs fun e _ f => hints_of_findingsAt_eq_ok

def IsCall (ts : List Token) : Prop :=
  ∃ svc operand rest, ts = svc :: operand :: rest ∧ isMnemonic "svc" svc ∧ operand.text = "#0"

-- Why the call of a number that was set above cannot be explained: a numeral is too long to be
-- read, or the number too large to be written.
inductive Refusal (c : Context) (known : Registers) (set : Assignment) (e : Numeral.Error) : Prop
  | reading : Immediate.parse set.value = .error e → Refusal c known set e
  | writing (n : Int) : Immediate.parse set.value = .ok (some n) → Numeral.write n = .error e →
      (c.reporting ∨ (c.syscalls.get? n).isSome) → Refusal c known set e
  | descriptor (n : Int) (s : Syscall) (a : Argument) (arg : Assignment) :
      Immediate.parse set.value = .ok (some n) → c.syscalls.get? n = some s → a ∈ s.arguments →
      a.name = "fd" → (Tracked.ofName? a.register).bind known = some arg →
      Immediate.parse arg.value = .error e → Refusal c known set e

variable {e : Numeral.Error}

theorem shownValue_eq_error (h : shownValue descriptors role value = .error e) :
    role = "fd" ∧ Immediate.parse value = .error e := by
  unfold shownValue at h
  split at h
  case isTrue hr => exact ⟨hr, bind_pure_eq_error_iff.mp h⟩
  case isFalse => nomatch h

theorem argumentHint_eq_error (h : argumentHint c rs a = .error e) :
    ∃ arg, (Tracked.ofName? a.register).bind rs = some arg ∧ a.name = "fd" ∧
      Immediate.parse arg.value = .error e := by
  unfold argumentHint at h
  split at h
  case h_1 => nomatch h
  case h_2 arg hs => exact ⟨arg, hs, shownValue_eq_error (bind_pure_eq_error_iff.mp h)⟩

theorem callHints_eq_error (h : callHints c rs line set number s = .error e) :
    Numeral.write number = .error e ∨ ∃ a ∈ s.arguments, argumentHint c rs a = .error e := by
  cases bind_eq_error_iff.mp h
  case inl h => exact .inl h
  case inr h =>
    have ⟨_, _, h⟩ := h
    exact .inr <| exists_of_mapM_eq_error <| bind_pure_eq_error_iff.mp h

theorem unknown_eq_error (h : unknown c line set number = .error e) :
    c.reporting ∧ Numeral.write number = .error e := by
  by_cases hr : c.reporting
  case pos =>
    simp only [unknown, hr, if_true] at h
    exact ⟨hr, bind_pure_eq_error_iff.mp h⟩
  case neg =>
    simp only [unknown, hr] at h
    nomatch h

theorem call_eq_error (h : call c rs line set = .error e) : Refusal c rs set e := by
  cases bind_eq_error_iff.mp h
  case inl h => exact .reading h
  case inr h =>
    have ⟨n, hn, h⟩ := h
    cases n
    case none => exact absurd h pure_ne_error
    case some n =>
      simp only at h
      split at h
      case h_1 =>
        have ⟨hr, hw⟩ := unknown_eq_error h
        exact .writing n hn hw (.inl hr)
      case h_2 s hs =>
        cases callHints_eq_error (bind_pure_eq_error_iff.mp h)
        case inl hw => exact .writing n hn hw (.inr (by simp [hs]))
        case inr h =>
          have ⟨a, ha, h⟩ := h
          have ⟨arg, hr, hfd, hp⟩ := argumentHint_eq_error h
          exact .descriptor n s a arg hn hs ha hfd hr hp

theorem findingsAt_eq_error {i : Instruction} (h : findingsAt c rs line i = .error e) :
    i = .trap ∧ ∃ set, rs .number = some set ∧ Refusal c rs set e := by
  cases i
  case trap =>
    cases hn : rs .number
    case none => simp [findingsAt, hn] at h
    case some set =>
      refine ⟨rfl, set, rfl, @call_eq_error c rs line set e ?_⟩
      simpa [findingsAt, hn] using h
  all_goals nomatch h

end

-- The hints of an analysis are the events of the source, each on its line, in the order of the
-- traps that they come from; and an analysis fails only at a call with a number that is too long.
theorem hintTable_eq_events (c : Context) (tokens : TokenTable) :
    (∀ f, analyze c tokens = .ok f →
      ∀ line, f.hintTable.get? line = HintTable.hintsOn (events c tokens) line) ∧
    (∀ e, analyze c tokens = .error e →
      ∃ line ts set, tokens.get? line = some ts ∧ IsCall ts ∧
        tokens.lastBefore line .number = some set ∧
        Refusal c (tokens.lastBefore line) set e) := by
  constructor
  case left =>
    intro f h line
    rw [Findings.hintTable, HintTable.get?_ofEvents, hints_of_analyze_eq_ok h]
  case right =>
    intro e h
    obtain ⟨line, ts, hts, hl⟩ := analyze_eq_error h
    obtain ⟨hi, set, hset, hr⟩ := findingsAt_eq_error hl
    exact ⟨line, ts, set, hts, ofTokens_eq_trap hi, hset, hr⟩

theorem hintTable_eq_events_of_two_traps :
    let c : Context := ⟨Syscall.linux, Syscall.standardStreams, true⟩
    let tokens := TokenTable.ofText "mov x0, #0\nmov w8, #0x40\nMOV x0, #1\nsvc #0\nsvc"
    ∃ f, analyze c tokens = .ok f ∧
      (∀ line, f.hintTable.get? line = HintTable.hintsOn (events c tokens) line) ∧
      (events c tokens).map (fun e => (e.1, e.2.label)) =
        [(1, "syscall: write (64)"), (2, "fd: stdout"),
          (3, "write(fd, buf, count) → bytes_written (>=0) or -errno"), (4, "expects #0")] := by
  intro c tokens
  have h : (analyze c tokens).map (·.hints.map fun e => (e.1, e.2.label)) =
      .ok [(1, "syscall: write (64)"), (2, "fd: stdout"),
        (3, "write(fd, buf, count) → bytes_written (>=0) or -errno"), (4, "expects #0")] := by
    decide +kernel
  obtain ⟨f, hf, hlabels⟩ := map_eq_ok_iff.mp h
  rw [hints_of_analyze_eq_ok hf] at hlabels
  exact ⟨f, hf, (hintTable_eq_events c tokens).left f hf, hlabels⟩

end Analysis

end SvcLens
