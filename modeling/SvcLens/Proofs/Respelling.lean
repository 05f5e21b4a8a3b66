import Mathlib.Data.List.Flatten
import SvcLens.Proofs.Naming
import SvcLens.Proofs.Readers

namespace SvcLens

namespace Argument

variable {a b : Argument} {r : Tracked}

def usual (a : Argument) : Argument :=
  { a with register := ((Tracked.ofToken? a.register).map Tracked.name).getD a.register }

structure Respells (a b : Argument) : Prop where
  name     : a.name = b.name
  notes    : a.notes = b.notes
  register : a.register = b.register ∨
    ∃ r, Tracked.ofToken? a.register = some r ∧ Tracked.ofToken? b.register = some r

theorem Respells.usual_eq (h : Respells a b) : a.usual = b.usual := by
  have hregister : ((Tracked.ofToken? a.register).map Tracked.name).getD a.register =
      ((Tracked.ofToken? b.register).map Tracked.name).getD b.register := by
    rcases h.register with hr | ⟨r, ha, hb⟩
    case inl => rw [hr]
    case inr => rw [ha, hb, Option.map_some, Option.getD_some, Option.getD_some]
  rw [usual, usual, hregister, h.name, h.notes]

theorem register_usual (h : Tracked.ofToken? a.register = some r) : a.usual.register = r.name := by
  rw [usual, h, Option.map_some, Option.getD_some]

theorem ofName?_register_usual (a : Argument) :
    Tracked.ofName? a.usual.register = Tracked.ofToken? a.register := by
  cases h : Tracked.ofToken? a.register
  case some r => rw [register_usual h, Tracked.ofName?_eq_some_iff]
  case none =>
    refine Option.eq_none_iff_forall_ne_some.mpr fun r hr => ?_
    rw [usual, h, Option.map_none, Option.getD_none] at hr
    cases h.symm.trans (Tracked.ofToken?_of_ofName? hr)

theorem bind_ofToken?_of_bind_ofName? {known : Registers} {set : Assignment}
    (h : (Tracked.ofName? a.register).bind known = some set) :
    (Tracked.ofToken? a.register).bind known = some set := by
  obtain ⟨r, hr, hset⟩ := Option.bind_eq_some_iff.mp h
  rw [Tracked.ofToken?_of_ofName? hr, Option.bind_some, hset]

def IsFound (known : Registers) (a : Argument) : Prop :=
  (Tracked.ofName? a.register).bind known = (Tracked.ofToken? a.register).bind known

theorem isFound_iff {known : Registers} : a.IsFound known ↔
    ∀ r set, Tracked.ofToken? a.register = some r → known r = some set → a.register = r.name := by
  constructor
  case mp =>
    intro h r set hr hset
    rw [IsFound, hr, Option.bind_some, hset] at h
    obtain ⟨q, hq, _⟩ := Option.bind_eq_some_iff.mp h
    obtain rfl := Option.some.inj (hr.symm.trans (Tracked.ofToken?_of_ofName? hq))
    exact Tracked.ofName?_eq_some_iff.mp hq
  case mpr =>
    intro h
    refine Option.ext fun set => ⟨bind_ofToken?_of_bind_ofName?, fun hset => ?_⟩
    obtain ⟨r, hr, hset⟩ := Option.bind_eq_some_iff.mp hset
    rw [Tracked.ofName?_eq_some_iff.mpr (h r set hr hset), Option.bind_some, hset]

end Argument

namespace Syscall

variable {s t : Syscall}

def usual (s : Syscall) : Syscall :=
  { s with arguments := s.arguments.map Argument.usual }

structure Respells (s t : Syscall) : Prop where
  name      : s.name = t.name
  arguments : List.Forall₂ Argument.Respells s.arguments t.arguments
  returns   : s.returns = t.returns

theorem Respells.usual_eq (h : Respells s t) : s.usual = t.usual := by
  have harguments : s.arguments.map Argument.usual = t.arguments.map Argument.usual := by
    refine List.forall₂_eq_eq_eq ▸ List.forall₂_map_left_iff.mpr (List.forall₂_map_right_iff.mpr ?_)
    exact h.arguments.imp fun _ _ => Argument.Respells.usual_eq
  rw [usual, usual, h.name, h.returns, harguments]

theorem signature_usual (s : Syscall) : s.usual.signature = s.signature := by
  simp [signature, usual, Argument.usual, Function.comp_def]

end Syscall

namespace SyscallTable

variable {table other : SyscallTable}

def usual (table : SyscallTable) : SyscallTable :=
  table.map Syscall.usual

def Respells (table other : SyscallTable) : Prop :=
  ∀ n, Option.Rel Syscall.Respells (table.get? n) (other.get? n)

theorem Respells.usual_eq (h : Respells table other) : usual table = usual other := by
  refine IntMap.ext_get? fun n => ?_
  have hn := h n
  rw [usual, usual, IntMap.get?_map, IntMap.get?_map]
  generalize table.get? n = s, other.get? n = t at hn
  cases hn
  case none => rfl
  case some h => rw [Option.map_some, Option.map_some, h.usual_eq]

end SyscallTable

-- Lists that are put together from parts of others can only be equal to what the others give if
-- nothing is missing anywhere.
theorem eq_of_flatMap_eq {α β : Type} {f g : α → List β} {xs : List α}
    (hs : ∀ x ∈ xs, (f x).Sublist (g x)) (h : xs.flatMap f = xs.flatMap g) :
    ∀ x ∈ xs, f x = g x := by
  induction xs
  case nil => exact List.forall_mem_nil _
  case cons x xs ih =>
    obtain ⟨hx, hxs⟩ := List.forall_mem_cons.mp hs
    rw [List.flatMap_cons, List.flatMap_cons] at h
    have hle := hx.length_le
    have hles := (List.Sublist.flatMap_right xs hxs).length_le
    have hlength := congrArg List.length h
    rw [List.length_append, List.length_append] at hlength
    obtain ⟨heq, hrest⟩ := List.append_inj h (by omega)
    exact List.forall_mem_cons.mpr ⟨heq, ih hxs hrest⟩

theorem HintTable.eq_of_ofEvents_eq {es ds : List (Int × Hint)} (hs : es.Sublist ds)
    (h : ofEvents es = ofEvents ds) : es = ds := by
  have hperm : (es.map Prod.fst).Perm (ds.map Prod.fst) := by
    refine List.perm_iff_count.mpr fun line => ?_
    have hline := congrArg (fun t => (onLine t line).length) h
    simp only [onLine_ofEvents, List.length_map] at hline
    rw [List.count_eq_countP, List.count_eq_countP, List.countP_map, List.countP_map,
      List.countP_eq_length_filter, List.countP_eq_length_filter]
    exact hline
  have hlength := hperm.length_eq
  rw [List.length_map, List.length_map] at hlength
  exact hs.eq_of_length hlength

namespace Analysis

variable {c : Context} {tokens : TokenTable} {rs : Registers} {a : Argument} {line n : Int}
variable {set : Assignment} {s : Syscall} {ts : List Token}

def Context.usual (c : Context) : Context :=
  { c with syscalls := c.syscalls.usual }

theorem argumentHint_usual (h : a.IsFound rs) :
    argumentHint c.usual rs a.usual = argumentHint c rs a := by
  rw [argumentHint, argumentHint, Argument.ofName?_register_usual, h]
  cases (Tracked.ofToken? a.register).bind rs <;> rfl

theorem fails_argumentHint_usual (h : Fails (argumentHint c rs a)) :
    Fails (argumentHint c.usual rs a.usual) := by
  obtain ⟨set, hset, hfd, ho⟩ := fails_argumentHint_iff.mp h
  refine fails_argumentHint_iff.mpr ⟨set, ?_, hfd, ho⟩
  rw [Argument.ofName?_register_usual, Argument.bind_ofToken?_of_bind_ofName? hset]

theorem get?_syscalls_usual (c : Context) (n : Int) :
    c.usual.syscalls.get? n = (c.syscalls.get? n).map Syscall.usual :=
  IntMap.get?_map ..

theorem fails_analyze_usual (h : Fails (analyze c tokens)) : Fails (analyze c.usual tokens) := by
  obtain ⟨line, ts, set, hts, hcall, hset, h⟩ := fails_analyze_iff.mp h
  refine fails_analyze_iff.mpr ⟨line, ts, set, hts, hcall, hset, fails_call_iff.mpr ?_⟩
  rcases fails_call_iff.mp h with hp | ⟨n, hn, ⟨hw, hs⟩ | ⟨s, hs, a, ha, h⟩⟩
  case inl => exact .inl hp
  case inr.inl =>
    refine .inr ⟨n, hn, .inl ⟨hw, ?_⟩⟩
    rwa [get?_syscalls_usual, Option.isSome_map]
  case inr.inr =>
    refine .inr ⟨n, hn, .inr ⟨s.usual, ?_, a.usual, ?_, fails_argumentHint_usual h⟩⟩
    · rw [get?_syscalls_usual, hs, Option.map_some]
    · exact List.mem_map_of_mem ha

-- An argument of a call that the table explains, in a tracked register that was set as given.
inductive Passed (c : Context) (tokens : TokenTable) (a : Argument) (r : Tracked)
    (arg : Assignment) : Prop
  | intro {line n : Int} {ts : List Token} {set : Assignment} {s : Syscall} :
      CallsWith tokens line ts set → Immediate.parse set.value = .ok (some n) →
      c.syscalls.get? n = some s → a ∈ s.arguments → Tracked.ofToken? a.register = some r →
      tokens.IsLastBefore line r arg → Passed c tokens a r arg

-- No call loses an argument: a register that is known has its usual name there.
def UsesUsualNames (c : Context) (tokens : TokenTable) : Prop :=
  ∀ a r arg, Passed c tokens a r arg → a.register = r.name

theorem UsesUsualNames.isFound (h : UsesUsualNames c tokens)
    (hcall : CallsWith tokens line ts set) (hn : Immediate.parse set.value = .ok (some n))
    (hs : c.syscalls.get? n = some s) (ha : a ∈ s.arguments) :
    a.IsFound (tokens.lastBefore line) := by
  refine Argument.isFound_iff.mpr fun r arg hr harg => h a r arg ?_
  exact .intro hcall hn hs ha hr (TokenTable.lastBefore_eq_some_iff.mp harg)

theorem callHints_usual (h : ∀ a ∈ s.arguments, a.IsFound rs) :
    callHints c.usual rs line set n s.usual = callHints c rs line set n s := by
  have harguments : s.usual.arguments.mapM (argumentHint c.usual rs) =
      s.arguments.mapM (argumentHint c rs) := by
    rw [Syscall.usual, List.mapM_map]
    refine mapM_congr fun a ha => ?_
    rw [Function.comp_apply, argumentHint_usual (h a ha)]
  rw [callHints, callHints, harguments, s.signature_usual]
  rfl

theorem call_usual (h : ∀ n s, Immediate.parse set.value = .ok (some n) →
    c.syscalls.get? n = some s → callHints c.usual rs line set n s.usual =
      callHints c rs line set n s) :
    call c.usual rs line set = call c rs line set := by
  rw [call, call]
  cases hp : Immediate.parse set.value
  case error => rfl
  case ok o =>
    cases o
    case none => rfl
    case some n =>
      simp only [bind, Except.bind, get?_syscalls_usual]
      cases hs : c.syscalls.get? n
      case none => rfl
      case some s => simp only [Option.map_some, h n s hp hs]

theorem UsesUsualNames.findingsOn_usual (h : UsesUsualNames c tokens)
    (ht : tokens.get? line = some ts) :
    findingsOn c.usual tokens (line, ts) = findingsOn c tokens (line, ts) := by
  rw [findingsOn, findingsOn]
  cases hi : Instruction.ofTokens ts
  case trap =>
    rw [findingsAt, findingsAt]
    cases hset : tokens.lastBefore line .number
    case none => rfl
    case some set =>
      have hcall : CallsWith tokens line ts set :=
        ⟨ht, Instruction.ofTokens_eq_trap hi, TokenTable.lastBefore_eq_some_iff.mp hset⟩
      exact call_usual fun n s hn hs => callHints_usual fun a ha => h.isFound hcall hn hs ha
  all_goals rfl

theorem UsesUsualNames.analyze_usual (h : UsesUsualNames c tokens) :
    analyze c.usual tokens = analyze c tokens := by
  rw [analyze_eq_mapM, analyze_eq_mapM]
  congr 1
  exact mapM_congr fun e he => h.findingsOn_usual (IntMap.get?_eq_some_iff.mpr he)

def hintOf (descriptors : IntMap String) (a : Argument) (value : String) : Hint :=
  ⟨a.name ++ ": " ++ valueText descriptors a.name value,
    if a.notes.isVacant then .ofText "" else a.notes⟩

theorem argumentEvents_eq_toList (c : Context) (rs : Registers) (a : Argument) :
    argumentEvents c rs a = (((Tracked.ofName? a.register).bind rs).map fun set =>
      (set.line, hintOf c.descriptors a set.value)).toList := by
  rw [argumentEvents]
  cases (Tracked.ofName? a.register).bind rs <;> rfl

theorem argumentEvents_usual (c : Context) (rs : Registers) (a : Argument) :
    argumentEvents c.usual rs a.usual = (((Tracked.ofToken? a.register).bind rs).map fun set =>
      (set.line, hintOf c.descriptors a set.value)).toList := by
  rw [argumentEvents_eq_toList, Argument.ofName?_register_usual]
  rfl

-- Without the usual name the hint of an argument can be missing, and nothing else can happen to it.
theorem argumentEvents_sublist (c : Context) (rs : Registers) (a : Argument) :
    (argumentEvents c rs a).Sublist (argumentEvents c.usual rs a.usual) := by
  rw [argumentEvents_usual, argumentEvents_eq_toList]
  cases hset : (Tracked.ofName? a.register).bind rs
  case none => exact List.nil_sublist _
  case some set => rw [Argument.bind_ofToken?_of_bind_ofName? hset]

theorem isFound_of_argumentEvents_eq
    (h : argumentEvents c rs a = argumentEvents c.usual rs a.usual) : a.IsFound rs := by
  rw [argumentEvents_usual, argumentEvents_eq_toList] at h
  rw [Argument.IsFound]
  cases hset : (Tracked.ofName? a.register).bind rs
  case some set => rw [Argument.bind_ofToken?_of_bind_ofName? hset]
  case none =>
    rw [hset] at h
    cases hset' : (Tracked.ofToken? a.register).bind rs
    case none => rfl
    case some set => simp [hset'] at h

theorem callEvents_usual (c : Context) (rs : Registers) (line : Int) (set : Assignment) (n : Int)
    (s : Syscall) : callEvents c.usual rs line set n s.usual =
      (set.line, ⟨"syscall: " ++ s.name ++ " (" ++ Numeral.decimal n ++ ")",
        .ofText s.signature⟩) ::
      s.arguments.flatMap (fun a => argumentEvents c.usual rs a.usual) ++
      [(line, ⟨s.signature ++ " → " ++ s.returns, .ofText ("x0 = " ++ s.returns)⟩)] := by
  rw [callEvents, s.signature_usual, Syscall.usual, List.flatMap_map]

theorem callEvents_sublist (c : Context) (rs : Registers) (line : Int) (set : Assignment) (n : Int)
    (s : Syscall) :
    (callEvents c rs line set n s).Sublist (callEvents c.usual rs line set n s.usual) := by
  rw [callEvents_usual, callEvents]
  refine .append (.cons_cons _ (List.Sublist.flatMap_right _ fun a _ => ?_)) (.refl _)
  exact argumentEvents_sublist c rs a

theorem argumentEvents_eq_of_callEvents_eq
    (h : callEvents c rs line set n s = callEvents c.usual rs line set n s.usual)
    (ha : a ∈ s.arguments) : argumentEvents c rs a = argumentEvents c.usual rs a.usual := by
  rw [callEvents_usual, callEvents] at h
  have h := (List.cons.inj (List.append_cancel_right h)).right
  exact eq_of_flatMap_eq (fun a _ => argumentEvents_sublist c rs a) h a ha

theorem eventsAt_sublist (c : Context) (rs : Registers) (line : Int) (ts : List Token) :
    (eventsAt c rs line ts).Sublist (eventsAt c.usual rs line ts) := by
  unfold eventsAt
  split
  case h_1 => exact .refl _
  case h_2 svc operands =>
    split
    case h_1 set _ _ =>
      split
      case isTrue => exact .refl _
      case isFalse =>
        split
        case h_1 n _ =>
          rw [get?_syscalls_usual]
          cases c.syscalls.get? n
          case none => exact .refl _
          case some s => exact callEvents_sublist ..
        case h_2 => exact .refl _
    case h_2 => exact .refl _

theorem eventsAt_of_callsWith (h : CallsWith tokens line ts set)
    (hn : Immediate.parse set.value = .ok (some n)) (hs : c.syscalls.get? n = some s) :
    eventsAt c (tokens.lastBefore line) line ts =
      callEvents c (tokens.lastBefore line) line set n s := by
  obtain ⟨svc, operand, rest, rfl, hsvc, ho⟩ := h.call
  have hset := TokenTable.lastBefore_eq_some_iff.mpr h.number
  simp [eventsAt, hsvc, hset, ho, hn, hs]

theorem events_sublist (c : Context) (tokens : TokenTable) :
    (events c tokens).Sublist (events c.usual tokens) :=
  List.Sublist.flatMap_right _ fun _ _ => eventsAt_sublist ..

theorem usesUsualNames_of_events_eq (h : events c tokens = events c.usual tokens) :
    UsesUsualNames c tokens := by
  rintro a r arg @⟨line, n, ts, set, s, hcall, hn, hs, ha, hr, harg⟩
  have hs' : c.usual.syscalls.get? n = some s.usual := by
    rw [get?_syscalls_usual, hs, Option.map_some]
  have hline : eventsAt c (tokens.lastBefore line) line ts =
      eventsAt c.usual (tokens.lastBefore line) line ts :=
    eq_of_flatMap_eq (fun _ _ => eventsAt_sublist ..) h (line, ts)
      (IntMap.get?_eq_some_iff.mp hcall.stands)
  rw [eventsAt_of_callsWith hcall hn hs, eventsAt_of_callsWith hcall hn hs'] at hline
  have hevents := argumentEvents_eq_of_callEvents_eq hline ha
  exact Argument.isFound_iff.mp (isFound_of_argumentEvents_eq hevents) r arg hr
    (TokenTable.lastBefore_eq_some_iff.mpr harg)

theorem usesUsualNames_of_tableFile (f : TableFile) (standIn : Text.Surrogate → Char)
    (descriptors : IntMap String) (reporting : Bool) (tokens : TokenTable) :
    UsesUsualNames ⟨f.syscalls standIn, descriptors, reporting⟩ tokens := by
  rintro a r arg ⟨_, _, hs, ha, hr, _⟩
  rw [TableFile.syscalls, IntMap.get?_map, Option.map_eq_some_iff] at hs
  obtain ⟨entry, _, rfl⟩ := hs
  obtain ⟨role, _, rfl⟩ := List.mem_map.mp ha
  have hregister : some role.register = some r := (Tracked.ofToken?_name _).symm.trans hr
  exact congrArg Tracked.name (Option.some.inj hregister)

theorem hintOf_mem_of_passed {r : Tracked} {arg : Assignment} {f : Findings}
    (hf : analyze c tokens = .ok f) (h : Passed c tokens a r arg) (ha : a.register = r.name) :
    hintOf c.descriptors a arg.value ∈ f.hintTable.onLine arg.line := by
  obtain @⟨line, n, ts, set, s, hcall, hn, hs, hmem, _, harg⟩ := h
  have hevents : argumentEvents c (tokens.lastBefore line) a =
      [(arg.line, hintOf c.descriptors a arg.value)] := by
    rw [argumentEvents_eq_toList, Tracked.ofName?_eq_some_iff.mpr ha, Option.bind_some,
      TokenTable.lastBefore_eq_some_iff.mpr harg]
    rfl
  refine mem_onLine_hintTable ?_
  rw [hints_of_analyze_eq_ok hf]
  refine List.mem_flatMap.mpr ⟨(line, ts), IntMap.get?_eq_some_iff.mp hcall.stands, ?_⟩
  rw [eventsAt_of_callsWith hcall hn hs, callEvents]
  refine List.mem_append_left _ (List.mem_cons_of_mem _ (List.mem_flatMap.mpr ⟨a, hmem, ?_⟩))
  exact hevents ▸ List.mem_singleton_self _

-- The spelling of a register does not matter among the usual names, and then every argument whose
-- register is known has its hint. With other spellings the analysis finds no more than it would
-- with the usual names, and less as soon as one of them spells a register that is known at a call.
theorem hintTable_eq_iff_usesUsualNames (c : Context) (tokens : TokenTable) :
    (∀ other, c.syscalls.Respells other → UsesUsualNames c tokens →
      UsesUsualNames { c with syscalls := other } tokens →
      analyze { c with syscalls := other } tokens = analyze c tokens) ∧
    (∀ f, analyze c tokens = .ok f → UsesUsualNames c tokens →
      ∀ a r arg, Passed c tokens a r arg →
        hintOf c.descriptors a arg.value ∈ f.hintTable.onLine arg.line) ∧
    (∀ g, analyze c.usual tokens = .ok g →
      ∃ f, analyze c tokens = .ok f ∧ f.hints.Sublist g.hints ∧
        (f.hintTable = g.hintTable ↔ UsesUsualNames c tokens)) := by
  refine ⟨fun other hr h ho => ?_, fun f hf h a r arg hp => ?_, fun g hg => ?_⟩
  · have husual : Context.usual { c with syscalls := other } = c.usual := by
      rw [Context.usual, Context.usual, hr.usual_eq]
    rw [← ho.analyze_usual, husual, h.analyze_usual]
  · exact hintOf_mem_of_passed hf hp (h a r arg hp)
  · have hok : ¬Fails (analyze c tokens) := fun hf =>
      not_fails_iff.mpr ⟨g, hg⟩ (fails_analyze_usual hf)
    obtain ⟨f, hf⟩ := not_fails_iff.mp hok
    have hsub : f.hints.Sublist g.hints := by
      rw [hints_of_analyze_eq_ok hf, hints_of_analyze_eq_ok hg]
      exact events_sublist c tokens
    refine ⟨f, hf, hsub, fun h => ?_, fun h => ?_⟩
    · have hhints := HintTable.eq_of_ofEvents_eq hsub h
      rw [hints_of_analyze_eq_ok hf, hints_of_analyze_eq_ok hg] at hhints
      exact usesUsualNames_of_events_eq hhints
    · rw [h.analyze_usual, hf] at hg
      rw [Except.ok.inj hg]

theorem hintTable_eq_iff_usesUsualNames_of_tableFile :
    let content := Text.Utf8.encode
      "\x7b\"64\": \x7b\"name\": \"write\", \"args\": \x7b\"x0\": \"fd\"\x7d\x7d\x7d"
    let tokens := TokenTable.ofText "mov x0, #1\nmov x8, #64\nsvc #0"
    let context (table : SyscallTable) : Context := ⟨table, Syscall.standardStreams, true⟩
    let half : SyscallTable := .ofList [(64, ⟨"write", [⟨"w0", "fd", .null⟩], ""⟩)]
    (∃ file f g, TableFile.load content = .ok file ∧
      analyze (context (file.syscalls Text.Surrogate.standIn)) tokens = .ok f ∧
      analyze (context (file.syscalls Text.Surrogate.standIn)).usual tokens = .ok g ∧
      (f.hintTable.onLine 0).map (·.label) = ["fd: stdout"] ∧ f.hintTable = g.hintTable) ∧
    ∃ f g, analyze (context half) tokens = .ok f ∧ analyze (context half).usual tokens = .ok g ∧
      f.hintTable.onLine 0 = [] ∧ (g.hintTable.onLine 0).map (·.label) = ["fd: stdout"] ∧
      ¬UsesUsualNames (context half) tokens := by
  intro content tokens context half
  let labels (f : Findings) : List String := (f.hintTable.onLine 0).map (·.label)
  constructor
  case left =>
    have hload : (TableFile.load content).toOption.map (fun file =>
        (analyze (context (file.syscalls Text.Surrogate.standIn)) tokens).map labels) =
        some (.ok ["fd: stdout"]) := by decide +kernel
    cases hfile : TableFile.load content
    case error => simp [hfile, Except.toOption] at hload
    case ok file =>
      rw [hfile] at hload
      obtain ⟨f, hf, hlabels⟩ := map_eq_ok_iff.mp (Option.some.inj hload)
      have husual := usesUsualNames_of_tableFile file Text.Surrogate.standIn
        Syscall.standardStreams true tokens
      have hg := husual.analyze_usual.trans hf
      obtain ⟨f', hf', _, hiff⟩ := (hintTable_eq_iff_usesUsualNames _ _).right.right f hg
      obtain rfl := Except.ok.inj (hf.symm.trans hf')
      exact ⟨file, f, f, rfl, hf, hg, hlabels, hiff.mpr husual⟩
  case right =>
    have hf : (analyze (context half) tokens).map labels = .ok [] := by decide +kernel
    have hg : (analyze (context half).usual tokens).map labels = .ok ["fd: stdout"] := by
      decide +kernel
    obtain ⟨f, hf, hnone⟩ := map_eq_ok_iff.mp hf
    obtain ⟨g, hg, hlabels⟩ := map_eq_ok_iff.mp hg
    obtain ⟨f', hf', _, hiff⟩ := (hintTable_eq_iff_usesUsualNames _ _).right.right g hg
    obtain rfl := Except.ok.inj (hf.symm.trans hf')
    refine ⟨f, g, hf, hg, List.map_eq_nil_iff.mp hnone, hlabels, fun h => ?_⟩
    have heq : labels f = labels g := congrArg (fun t => (t.onLine 0).map (·.label)) (hiff.mpr h)
    cases (hnone.symm.trans heq).trans hlabels

-- A call with its argument in `x0`, which one table spells `x0` and the other `w0`.
theorem hintTable_ne_of_half_register :
    let tokens := TokenTable.ofText "mov x0, #1\nmov x8, #64\nsvc #0"
    let table (register : String) : SyscallTable :=
      .ofList [(64, ⟨"write", [⟨register, "fd", .null⟩], "bytes"⟩)]
    (table "x0").Respells (table "w0") ∧
      ∃ f g, analyze ⟨table "x0", Syscall.standardStreams, true⟩ tokens = .ok f ∧
        analyze ⟨table "w0", Syscall.standardStreams, true⟩ tokens = .ok g ∧
        (f.hintTable.onLine 0).map (·.label) = ["fd: stdout"] ∧ g.hintTable.onLine 0 = [] ∧
        f.hintTable ≠ g.hintTable := by
  intro tokens table
  have hregister : Argument.Respells ⟨"x0", "fd", .null⟩ ⟨"w0", "fd", .null⟩ :=
    ⟨rfl, rfl, .inr ⟨.argument 0, by decide +kernel, by decide +kernel⟩⟩
  have hrespells : (table "x0").Respells (table "w0") := by
    intro n
    simp only [table, IntMap.ofList, List.foldl_cons, List.foldl_nil, IntMap.get?_insert,
      IntMap.get?_empty]
    split
    case isTrue => exact .some ⟨rfl, .cons hregister .nil, rfl⟩
    case isFalse => exact .none
  have hf : (analyze ⟨table "x0", Syscall.standardStreams, true⟩ tokens).map
      (fun f => (f.hintTable.onLine 0).map (·.label)) = .ok ["fd: stdout"] := by decide +kernel
  have hg : (analyze ⟨table "w0", Syscall.standardStreams, true⟩ tokens).map
      (fun g => (g.hintTable.onLine 0).map (·.label)) = .ok [] := by decide +kernel
  obtain ⟨f, hf, hlabels⟩ := map_eq_ok_iff.mp hf
  obtain ⟨g, hg, hnone⟩ := map_eq_ok_iff.mp hg
  refine ⟨hrespells, f, g, hf, hg, hlabels, List.map_eq_nil_iff.mp hnone, fun h => ?_⟩
  rw [h, hnone] at hlabels
  cases hlabels

end Analysis

end SvcLens
