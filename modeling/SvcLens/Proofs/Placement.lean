import SvcLens.Proofs.Grammar
import SvcLens.Proofs.Meaning
import SvcLens.Proofs.Trailing
import SvcLens.Syscall.Linux

namespace SvcLens

def Text.IsOneLine (s : String) : Prop :=
  '\n' ∉ s.toList

instance (s : String) : Decidable (Text.IsOneLine s) :=
  inferInstanceAs (Decidable ('\n' ∉ s.toList))

namespace Text

variable {s t : String} {ss : List String}

@[simp]
theorem isOneLine_append : IsOneLine (s ++ t) ↔ IsOneLine s ∧ IsOneLine t := by
  simp [IsOneLine]

theorem isOneLine_intercalate (hs : IsOneLine s) (h : ∀ t ∈ ss, IsOneLine t) :
    IsOneLine (s.intercalate ss) := by
  induction ss
  case nil => simp [IsOneLine]
  case cons t ss ih =>
    simp only [List.mem_cons, forall_eq_or_imp] at h
    cases ss
    case nil => simpa using h.left
    case cons => simp [String.intercalate_cons_of_ne_nil, hs, h.left, ih h.right]

end Text

-- A number without a character is given the character of zero.
theorem Text.eq_ten_of_ofNat_eq {n : Nat} (h : Char.ofNat n = '\n') : n = 10 := by
  by_cases hn : n.isValidChar
  case pos =>
    rw [Char.ofNat, dif_pos hn] at h
    exact congrArg Char.toNat h
  case neg =>
    rw [Char.ofNat, dif_neg hn] at h
    contradiction

theorem Numeral.digitChar_ne_lf (d : Nat) : digitChar d ≠ '\n' := by
  unfold digitChar
  split
  all_goals
    intro h
    have := Text.eq_ten_of_ofNat_eq h
    omega

theorem Numeral.isOneLine_decimalOfNat (n : Nat) : Text.IsOneLine (decimalOfNat n) := by
  simp [Text.IsOneLine, decimalOfNat, digitChar_ne_lf]

theorem Numeral.isOneLine_decimal (n : Int) : Text.IsOneLine (decimal n) := by
  unfold decimal
  split
  case isTrue => exact Text.isOneLine_append.mpr ⟨by decide, isOneLine_decimalOfNat _⟩
  case isFalse => exact isOneLine_decimalOfNat _

structure Syscall.IsOneLine (s : Syscall) : Prop where
  name      : Text.IsOneLine s.name
  arguments : ∀ a ∈ s.arguments, Text.IsOneLine a.name
  returns   : Text.IsOneLine s.returns

theorem Syscall.IsOneLine.signature {s : Syscall} (h : s.IsOneLine) :
    Text.IsOneLine s.signature := by
  have hargs : Text.IsOneLine (", ".intercalate (s.arguments.map (·.name))) :=
    Text.isOneLine_intercalate (by decide) (List.forall_mem_map.mpr h.arguments)
  simp only [Syscall.signature, Text.isOneLine_append]
  exact ⟨⟨⟨h.name, by decide⟩, hargs⟩, by decide⟩

def SyscallTable.IsOneLine (table : SyscallTable) : Prop :=
  ∀ n s, table.get? n = some s → s.IsOneLine

theorem Syscall.isOneLine_standardStreams {n : Int} {name : String}
    (h : standardStreams.get? n = some name) : Text.IsOneLine name := by
  have hall : ∀ e ∈ standardStreams.entries, Text.IsOneLine e.2 := by decide +kernel
  exact hall _ (IntMap.get?_eq_some_iff.mp h)

theorem Syscall.isOneLine_linux : linux.IsOneLine := by
  have hall : ∀ e ∈ linux.entries, Text.IsOneLine e.2.name ∧
      (∀ a ∈ e.2.arguments, Text.IsOneLine a.name) ∧ Text.IsOneLine e.2.returns := by
    decide +kernel
  intro n s h
  have ⟨hn, ha, hr⟩ := hall _ (IntMap.get?_eq_some_iff.mp h)
  exact ⟨hn, ha, hr⟩

namespace TokenTable

variable {text : String} {n : Nat} {line : Int} {ls : List Text.Line} {e : Int × List Token}
variable {ts : List Token} {r : Tracked} {a : Assignment}

theorem exists_of_mem_linesFrom (h : e ∈ linesFrom n ls) :
    ∃ k l, ls[k]? = some l ∧ ¬(Text.trim l.chars).isEmpty ∧
      e = (((n + k : Nat) : Int), Token.scanFrom 0 l.chars) := by
  induction ls generalizing n
  case nil => contradiction
  case cons l ls ih =>
    have later (h : e ∈ linesFrom (n + 1) ls) : ∃ k m, (l :: ls)[k]? = some m ∧
        ¬(Text.trim m.chars).isEmpty ∧
        e = (((n + k : Nat) : Int), Token.scanFrom 0 m.chars) := by
      have ⟨k, m, hm, hb, he⟩ := ih h
      exact ⟨k + 1, m, by simpa using hm, hb, by simp [he]; omega⟩
    rw [linesFrom] at h
    split at h
    case isTrue => exact later h
    case isFalse hb =>
      cases List.mem_cons.mp h
      case inl h => exact ⟨0, l, by simp, hb, by simp [h]⟩
      case inr h => exact later h

theorem exists_of_get?_ofText (h : (ofText text).get? line = some ts) :
    ∃ (k : Nat) (l : Text.Line), line = k ∧ (Text.splitLines text.toList)[k]? = some l ∧
      ¬(Text.trim l.chars).isEmpty ∧ ts = Token.scanFrom 0 l.chars := by
  have ⟨k, l, hl, hb, he⟩ := exists_of_mem_linesFrom (IntMap.get?_eq_some_iff.mp h)
  simp only [Nat.zero_add, Prod.mk.injEq] at he
  exact ⟨k, l, he.left, hl, hb, he.right⟩

theorem separator_notMem_of_lastBefore {c : Char} (h : (ofText text).lastBefore line r = some a)
    (hc : Token.isSeparator c) : c ∉ a.value.toList := by
  have ⟨ts, hts, ha⟩ := (lastBefore_eq_some_iff.mp h).assigns
  have ⟨_, _, _, value, _, hts', _, _, _, hk, hv⟩ := Assignment.ofLine?_eq_some ha
  have ⟨_, l, _, _, _, hscan⟩ := exists_of_get?_ofText hts
  have hg := Token.Grammar.of_scanned (Token.scanned_iff.mpr hscan)
  intro hm
  rw [hv] at hm
  exact (hg.ident value (by simp [hts']) hk c hm).left hc

def HasEffect (tokens : TokenTable) (line : Int) : Prop :=
  ∃ ts, tokens.get? line = some ts ∧ (Instruction.ofTokens ts).isEffective

theorem effect_of_lastBefore (h : (ofText text).lastBefore line r = some a) :
    (ofText text).HasEffect a.line ∧ Text.IsOneLine a.value := by
  have ⟨ts, hts, ha⟩ := (lastBefore_eq_some_iff.mp h).assigns
  have ⟨value, hi, _⟩ := Assignment.ofLine?_eq_some_iff.mp ha
  exact ⟨⟨ts, hts, by simp [hi, Instruction.isEffective]⟩, separator_notMem_of_lastBefore h rfl⟩

end TokenTable

namespace Analysis

open Instruction

variable {c : Context} {known : Registers} {line number : Int} {set : Assignment} {s : Syscall}
variable {ts : List Token} {e : Int × Hint} {text : String}

theorem mem_argumentEvents {a : Argument} (h : e ∈ argumentEvents c known a) :
    ∃ arg, (Tracked.ofName? a.register).bind known = some arg ∧ e.1 = arg.line ∧
      e.2.label = a.name ++ ": " ++ valueText c.descriptors a.name arg.value := by
  unfold argumentEvents at h
  split at h
  case h_1 => contradiction
  case h_2 arg ha =>
    obtain rfl := List.mem_singleton.mp h
    exact ⟨arg, ha, rfl, rfl⟩

-- Where the events of a line come from.
theorem mem_eventsAt (h : e ∈ eventsAt c known line ts) :
    (ofTokens ts = .foreignTrap ∧ e = (line, foreignTrapHint)) ∨
    (ofTokens ts = .trap ∧ ∃ set n s, known .number = some set ∧ c.syscalls.get? n = some s ∧
      e ∈ callEvents c known line set n s) := by
  cases ts
  case nil => contradiction
  case cons svc operands =>
    simp only [eventsAt] at h
    split at h
    case h_2 => contradiction
    case h_1 set hs hset =>
      rw [ofTokens_svc hs, ofSvc_eq]
      split at h
      case isTrue ho => exact .inl ⟨if_neg ho, List.mem_singleton.mp h⟩
      case isFalse ho =>
        split at h
        case h_2 => contradiction
        case h_1 n _ =>
          cases hn : c.syscalls.get? n
          case none => simp [hn] at h
          case some s =>
            refine .inr ⟨if_pos (not_not.mp ho), set, n, s, hset, hn, by simpa [hn] using h⟩

structure Context.IsOneLine (c : Context) : Prop where
  syscalls    : c.syscalls.IsOneLine
  descriptors : ∀ n name, c.descriptors.get? n = some name → Text.IsOneLine name

theorem valueText_eq_or (descriptors : IntMap String) (role value : String) :
    valueText descriptors role value = value ∨
      ∃ k, descriptors.get? k = some (valueText descriptors role value) := by
  unfold valueText
  split
  case h_2 => exact .inl rfl
  case h_1 k _ =>
    split
    case isFalse => exact .inl rfl
    case isTrue =>
      cases hk : descriptors.get? k
      case none => exact .inl rfl
      case some name => exact .inr ⟨k, hk⟩

theorem isOneLine_valueText (hc : c.IsOneLine) {value : String} (hv : Text.IsOneLine value)
    (role : String) : Text.IsOneLine (valueText c.descriptors role value) := by
  rcases valueText_eq_or c.descriptors role value with h | ⟨k, h⟩
  case inl => rwa [h]
  case inr => exact hc.descriptors k _ h

structure Placed (tokens : TokenTable) (e : Int × Hint) : Prop where
  line  : tokens.HasEffect e.1
  label : Text.IsOneLine e.2.label

theorem placed_of_mem_argumentEvents (hc : c.IsOneLine) {a : Argument}
    (ha : Text.IsOneLine a.name)
    (h : e ∈ argumentEvents c ((TokenTable.ofText text).lastBefore line) a) :
    Placed (.ofText text) e := by
  have ⟨arg, harg, hl, hlabel⟩ := mem_argumentEvents h
  have ⟨r, _, hr⟩ := Option.bind_eq_some_iff.mp harg
  have ⟨heffect, hvalue⟩ := TokenTable.effect_of_lastBefore hr
  refine ⟨hl ▸ heffect, ?_⟩
  rw [hlabel, Text.isOneLine_append, Text.isOneLine_append]
  exact ⟨⟨ha, by decide⟩, isOneLine_valueText hc hvalue a.name⟩

theorem placed_of_mem_callEvents (hc : c.IsOneLine) (hs : s.IsOneLine)
    (hline : (TokenTable.ofText text).HasEffect line)
    (hset : (TokenTable.ofText text).lastBefore line .number = some set)
    (h : e ∈ callEvents c ((TokenTable.ofText text).lastBefore line) line set number s) :
    Placed (.ofText text) e := by
  simp only [callEvents, List.mem_append, List.mem_cons, List.mem_flatMap, List.not_mem_nil,
    or_false] at h
  rcases h with (rfl | ⟨a, ha, h⟩) | rfl
  case inl.inl =>
    refine ⟨(TokenTable.effect_of_lastBefore hset).left, ?_⟩
    simp only [Text.isOneLine_append]
    exact ⟨⟨⟨⟨by decide, hs.name⟩, by decide⟩, Numeral.isOneLine_decimal number⟩, by decide⟩
  case inl.inr => exact placed_of_mem_argumentEvents hc (hs.arguments a ha) h
  case inr =>
    refine ⟨hline, ?_⟩
    simp only [Text.isOneLine_append]
    exact ⟨⟨hs.signature, by decide⟩, hs.returns⟩

theorem placed_of_mem_events (hc : c.IsOneLine) (h : e ∈ events c (.ofText text)) :
    Placed (.ofText text) e := by
  obtain ⟨⟨line, ts⟩, hmem, he⟩ := List.mem_flatMap.mp h
  have hts := IntMap.get?_eq_some_iff.mpr hmem
  cases mem_eventsAt he
  case inl hf =>
    obtain ⟨hi, rfl⟩ := hf
    have hlabel : Text.IsOneLine foreignTrapHint.label := by decide
    exact ⟨⟨ts, hts, by simp [hi, isEffective]⟩, hlabel⟩
  case inr ht =>
    obtain ⟨hi, set, n, s, hset, hs, he⟩ := ht
    have hline : (TokenTable.ofText text).HasEffect line := ⟨ts, hts, by simp [hi, isEffective]⟩
    exact placed_of_mem_callEvents hc (hc.syscalls n s hs) hline hset he

end Analysis

end SvcLens
