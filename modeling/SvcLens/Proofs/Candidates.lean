import SvcLens.Completion
import SvcLens.Proofs.Endings
import SvcLens.Proofs.Oversize

namespace SvcLens

namespace Token

variable {c : Char} {word rest : List Char}

structure IsWord (word : List Char) : Prop where
  ne_nil : word ≠ []
  chars  : ∀ c ∈ word, isIdentChar c

theorem IsWord.lexeme (h : IsWord word) (hr : ∀ c ∈ rest.head?, ¬isIdentChar c) :
    Lexeme .ident word rest := by
  cases word
  case nil => exact absurd rfl h.ne_nil
  case cons c more =>
    have ⟨hc, hm⟩ := List.forall_mem_cons.mp h.chars
    exact .ident hc hm hr

theorem IsWord.notMem (h : IsWord word) (hc : ¬isIdentChar c) : c ∉ word :=
  fun hm => hc (h.chars c hm)

end Token

def numberAndCall (value : String) (ending : Text.Break) : String :=
  "mov x8, " ++ value ++ String.ofList ending.chars ++ "svc #0"

section Lines

variable {value : String} {ending : Text.Break}

open Token

theorem Token.scanFrom_number (h : IsWord value.toList) :
    scanFrom 0 ("mov x8, " ++ value).toList =
      [ofChars .ident 0 "mov".toList, ofChars .ident 4 "x8".toList, ofChars .comma 6 ",".toList,
        ofChars .ident 8 value.toList] := by
  have hmov : IsWord "mov".toList := ⟨by decide, List.all_eq_true.mp (by decide)⟩
  have hx8 : IsWord "x8".toList := ⟨by decide, List.all_eq_true.mp (by decide)⟩
  have hline : ("mov x8, " ++ value).toList =
      "mov".toList ++ ' ' :: ("x8".toList ++ (",".toList ++ ' ' :: (value.toList ++ []))) := by
    simp
  rw [hline]
  symm
  apply scanned_iff.mp
  apply Scanned.take (hmov.lexeme (by simp [isIdentChar, isSeparator]))
  apply Scanned.skip (by decide)
  apply Scanned.take (hx8.lexeme (by simp [isIdentChar]))
  apply Scanned.take (.comma _)
  apply Scanned.skip (by decide)
  exact .take (h.lexeme (by simp)) (.done _)

theorem Instruction.ofTokens_number (h : IsWord value.toList) :
    ofTokens (scanFrom 0 ("mov x8, " ++ value).toList) =
      .assign .number (ofChars .ident 8 value.toList) := by
  have hx8 : Tracked.ofToken? "x8" = some .number := by decide +kernel
  rw [scanFrom_number h, ofTokens_mov (by decide)]
  simp [ofMov, ofOperands, ofValue, ofChars, hx8]

theorem Instruction.ofTokens_call : ofTokens (scanFrom 0 "svc #0".toList) = .trap := by
  decide +kernel

theorem TokenTable.entries_numberAndCall (h : IsWord value.toList) (hb : ending ≠ .none) :
    (ofText (numberAndCall value ending)).entries =
      [(0, scanFrom 0 ("mov x8, " ++ value).toList), (1, scanFrom 0 "svc #0".toList)] := by
  let lines : List Text.Line := [⟨("mov x8, " ++ value).toList, ending⟩, ⟨"svc #0".toList, .none⟩]
  have hlines : numberAndCall value ending = Text.ofLines lines := by
    rw [← String.toList_inj]
    simp [numberAndCall, Text.ofLines, Text.joinLines, lines, Text.Break.chars]
  have hseparable : Text.Separable lines := {
    complete := .cons hb (.last rfl)
    noFeed := by simpa [lines] using h.notMem (by decide)
    noReturn := by
      simp only [lines, List.dropLast_cons_cons, List.dropLast_singleton, List.forall_mem_singleton]
      rw [String.toList_append, List.getLast?_append_of_ne_nil _ h.ne_nil]
      exact fun hl => h.notMem (by decide) (List.mem_of_getLast? hl) }
  have hmov : (Text.trim ("mov x8, " ++ value).toList).isEmpty = false := by
    have hm : 'm' ∈ ("mov x8, " ++ value).toList := by simp
    exact List.isEmpty_eq_false_iff.mpr (List.ne_nil_of_mem (Text.mem_trim hm (by decide)))
  have hsvc : (Text.trim "svc #0".toList).isEmpty = false := by decide
  simp only [ofText, hlines, hseparable.splitLines_ofLines, lines, linesFrom, hmov, hsvc]
  rfl

end Lines

namespace Analysis

variable {c : Context} {rs : Registers} {line n : Int} {set : Assignment} {s : Syscall}
variable {value : String} {ending : Text.Break}

-- A call is explained if its number is in the table and can be written, and what is known of the
-- registers can be read.
theorem call_eq_of_get? (hp : Immediate.parse set.value = .ok (some n))
    (hs : c.syscalls.get? n = some s) (hn : n.natAbs < 10 ^ Numeral.maxDigits)
    (hrs : ∀ r arg, rs r = some arg → ¬Immediate.IsOverlong arg.value) :
    call c rs line set = .ok { hints := callEvents c rs line set n s } := by
  have hcall : ¬Fails (call c rs line set) := by
    rw [fails_call_iff]
    rintro (⟨e, he⟩ | ⟨m, hm, ⟨hw, _⟩ | ⟨_, _, a, _, ha⟩⟩)
    case inl => simp [hp] at he
    case inr.inl =>
      obtain rfl : n = m := by simpa using hp.symm.trans hm
      exact Numeral.maxDigits_lt_length_iff.mp (fails_write_iff.mp hw) hn
    case inr.inr =>
      have ⟨arg, harg, _, ho⟩ := fails_argumentHint_iff.mp ha
      have ⟨r, _, hr⟩ := Option.bind_eq_some_iff.mp harg
      exact hrs r arg hr ho
  have ⟨f, hf⟩ := not_fails_iff.mp hcall
  rcases call_eq_ok hf with ⟨hm, _⟩ | ⟨m, hm, hs', _⟩ | ⟨m, s', hm, hs', hf'⟩
  all_goals simp only [hp, Except.ok.injEq, Option.some.injEq, reduceCtorEq] at hm
  case inr.inl => simp [← hm, hs] at hs'
  case inr.inr =>
    rw [← hm, hs, Option.some.injEq] at hs'
    rw [hf, hf', ← hm, ← hs']

def numberOnly (set : Assignment) : Registers :=
  Registers.unknown.set .number set

theorem eq_of_numberOnly {r : Tracked} {arg : Assignment} (h : numberOnly set r = some arg) :
    arg = set := by
  simp only [numberOnly, Registers.set] at h
  split at h
  case isTrue => exact (Option.some.inj h).symm
  case isFalse => contradiction

theorem analyze_numberAndCall (hv : Token.IsWord value.toList) (hb : ending ≠ .none) :
    ∃ set, set.value = value ∧ set.line = 0 ∧
      analyze c (.ofText (numberAndCall value ending)) =
        (call c (numberOnly set) 1 set).map fun f =>
          { f with trace := .assigned 0 .number value :: f.trace } := by
  let t := Token.ofChars .ident 8 value.toList
  let set : Assignment := ⟨t.text, 0, t.start, t.stop⟩
  have ht : t.text = value := String.ofList_toList
  refine ⟨set, ht, rfl, ?_⟩
  rw [analyze_eq_findingsFrom, TokenTable.entries_numberAndCall hv hb, findingsFrom, findingsFrom,
    findingsFrom, Instruction.ofTokens_number hv, Instruction.ofTokens_call]
  show (call c (numberOnly set) 1 set >>= fun here => pure (here ++ {})) >>= _ = _
  cases call c (numberOnly set) 1 set
  case error => rfl
  case ok f =>
    show Except.ok (Findings.append { trace := [.assigned 0 .number t.text] } (f.append {})) = _
    simp [Findings.append, Except.map, ht]

structure Explains (n : Int) (s : Syscall) (f : Findings) : Prop where
  number : (f.hintTable.onLine 0).head? =
    some ⟨"syscall: " ++ s.name ++ " (" ++ Numeral.decimal n ++ ")", .ofText s.signature⟩
  result : f.hintTable.onLine 1 =
    [⟨s.signature ++ " → " ++ s.returns, .ofText ("x0 = " ++ s.returns)⟩]
  silent : f.diagnostics = []

theorem explains_callEvents (hset : set.line = 0) (trace : List Trace) :
    Explains n s { hints := callEvents c (numberOnly set) 1 set n s, trace := trace } := by
  have harguments : ∀ e ∈ s.arguments.flatMap (argumentEvents c (numberOnly set)), e.1 = 0 := by
    intro e he
    have ⟨a, _, ha⟩ := List.mem_flatMap.mp he
    have ⟨arg, harg, hline, _⟩ := mem_argumentEvents ha
    have ⟨r, _, hr⟩ := Option.bind_eq_some_iff.mp harg
    rw [hline, eq_of_numberOnly hr, hset]
  constructor
  case silent => rfl
  case number => simp [Findings.hintTable, HintTable.onLine_ofEvents, callEvents, hset]
  case result =>
    have hnone : (s.arguments.flatMap (argumentEvents c (numberOnly set))).filter (·.1 == 1) =
        [] := by
      rw [List.filter_eq_nil_iff]
      intro e he
      simp [harguments e he]
    simp [Findings.hintTable, HintTable.onLine_ofEvents, callEvents, hset, hnone]

theorem exists_explains (hv : Token.IsWord value.toList) (hb : ending ≠ .none)
    (hp : Immediate.parse value = .ok (some n)) (hs : c.syscalls.get? n = some s)
    (hn : n.natAbs < 10 ^ Numeral.maxDigits) :
    ∃ f, analyze c (.ofText (numberAndCall value ending)) = .ok f ∧ Explains n s f := by
  have ⟨set, hset, hline, ha⟩ := @analyze_numberAndCall c value ending hv hb
  have hread (r : Tracked) (arg : Assignment) (h : numberOnly set r = some arg) :
      ¬Immediate.IsOverlong arg.value := by
    rw [eq_of_numberOnly h, hset, Immediate.isOverlong_iff, hp]
    exact not_fails_ok
  rw [← hset] at hp
  rw [call_eq_of_get? hp hs hn hread] at ha
  exact ⟨_, ha, explains_callEvents hline _⟩

end Analysis

theorem Numeral.isWord_decimal (n : Int) : Token.IsWord ("#" ++ decimal n).toList := by
  have hdigits (k : Nat) : ∀ c ∈ (decimalOfNat k).toList, Token.isIdentChar c := by
    have hall : ∀ d < 10, Token.isIdentChar (digitChar d) := by decide +kernel
    intro c hc
    obtain ⟨d, hd, rfl⟩ := exists_digit_of_mem_decimalOfNat hc
    exact hall d hd
  constructor
  case ne_nil => simp
  case chars =>
    rw [String.toList_append, decimal, List.forall_mem_append]
    refine ⟨List.all_eq_true.mp (by decide), ?_⟩
    split
    case isTrue =>
      rw [String.toList_append, List.forall_mem_append]
      exact ⟨List.all_eq_true.mp (by decide), hdigits _⟩
    case isFalse => exact hdigits _

namespace Candidate

variable {table : SyscallTable} {n : Int} {s : Syscall} {item : Candidate}

theorem ofSyscall_eq_ok (h : n.natAbs < 10 ^ Numeral.maxDigits) (s : Syscall) :
    ofSyscall n s = .ok ⟨"#" ++ Numeral.decimal n, .syscall, s.name, usage? s⟩ := by
  have ⟨text, ht⟩ := Numeral.exists_write_eq_ok h
  rw [ofSyscall, ht, Numeral.write_eq_ok ht]
  rfl

-- A candidate that stands for a system call of a table: it is read as the number of the call, it
-- shows the name of the call, and once it is accepted, the call is explained.
structure IsFaithful (table : SyscallTable) (n : Int) (s : Syscall) (item : Candidate) : Prop where
  kind     : item.kind = .syscall
  detail   : item.detail = s.name
  value    : Immediate.parse item.label = .ok (some n)
  accepted : ∀ descriptors reporting ending, ending ≠ .none →
    ∃ f, analyze ⟨table, descriptors, reporting⟩
        (.ofText (numberAndCall item.label ending)) = .ok f ∧
      Analysis.Explains n s f

theorem isFaithful_of_ofSyscall (hs : table.get? n = some s)
    (hn : n.natAbs < 10 ^ Numeral.maxDigits) (h : ofSyscall n s = .ok item) :
    IsFaithful table n s item := by
  rw [ofSyscall_eq_ok hn, Except.ok.injEq] at h
  subst h
  exact {
    kind := rfl
    detail := rfl
    value := Immediate.parse_decimal hn
    accepted := fun _ _ _ hb =>
      Analysis.exists_explains (Numeral.isWord_decimal n) hb (Immediate.parse_decimal hn) hs hn }

-- For every system call there is one candidate, in the order of their numbers, and each of them is
-- analysed as the system call that it offers, if only all numbers can be written.
theorem exists_syscalls_isFaithful (table : SyscallTable)
    (h : ∀ n s, table.get? n = some s →
      (Numeral.decimalOfNat n.natAbs).length ≤ Numeral.maxDigits) :
    ∃ items, syscalls table = .ok items ∧
      List.Forall₂ (fun e item => IsFaithful table e.1 e.2 item) table.entries items ∧
      items.Pairwise fun a b => ∀ m n, Immediate.parse a.label = .ok (some m) →
        Immediate.parse b.label = .ok (some n) → m < n := by
  have hsize (e : Int × Syscall) (he : e ∈ table.entries) :
      e.1.natAbs < 10 ^ Numeral.maxDigits := by
    have hle := h e.1 e.2 (IntMap.get?_eq_some_iff.mpr he)
    exact not_not.mp (Numeral.maxDigits_lt_length_iff.not.mp (Nat.not_lt.mpr hle))
  have ⟨items, hitems⟩ : ∃ items, syscalls table = .ok items :=
    exists_mapM_eq_ok_iff.mpr fun e he => ⟨_, ofSyscall_eq_ok (hsize e he) e.2⟩
  have hfaithful : List.Forall₂ (fun e item => IsFaithful table e.1 e.2 item) table.entries
      items := by
    have hall := (List.forall₂_and_left table.entries items).mpr
      ⟨fun e he => he, mapM_eq_ok_iff.mp hitems⟩
    refine hall.imp fun e item hitem => ?_
    exact isFaithful_of_ofSyscall (IntMap.get?_eq_some_iff.mpr hitem.left) (hsize e hitem.left)
      hitem.right
  refine ⟨items, hitems, hfaithful, ?_⟩
  refine pairwise_of_forall₂ hfaithful table.ascending fun ha hb hlt m n hm hn => ?_
  rw [ha.value] at hm
  rw [hb.value] at hn
  simp only [Except.ok.injEq, Option.some.injEq] at hm hn
  exact hm ▸ hn ▸ hlt

theorem exists_syscalls_isFaithful_of_two_calls :
    let table : SyscallTable :=
      .ofList [(2 ^ 64, ⟨"far", [], "never"⟩), (-100, ⟨"near", [⟨"x8", "fd", .null⟩], "fd"⟩)]
    ∃ items, syscalls table = .ok items ∧
      items.map (·.label) = ["#-100", "#18446744073709551616"] ∧
      List.Forall₂ (fun e item => IsFaithful table e.1 e.2 item) table.entries items ∧
      items.Pairwise fun a b => ∀ m n, Immediate.parse a.label = .ok (some m) →
        Immediate.parse b.label = .ok (some n) → m < n := by
  intro table
  have hsize : ∀ e ∈ table.entries,
      (Numeral.decimalOfNat e.1.natAbs).length ≤ Numeral.maxDigits := by decide +kernel
  have hlabels : (syscalls table).map (List.map (·.label)) =
      .ok ["#-100", "#18446744073709551616"] := by decide +kernel
  have ⟨items, hitems, hfaithful⟩ := exists_syscalls_isFaithful table fun n s hs =>
    hsize (n, s) (IntMap.get?_eq_some_iff.mp hs)
  rw [hitems] at hlabels
  exact ⟨items, hitems, Except.ok.inj hlabels, hfaithful⟩

end Candidate

end SvcLens
