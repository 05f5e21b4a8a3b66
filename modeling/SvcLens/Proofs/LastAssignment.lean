import SvcLens.Analysis
import SvcLens.Proofs.Lookup
import SvcLens.Proofs.Reading

namespace SvcLens

open Instruction

-- What a line assigns to a register: `mov`, a spelling of the register, a comma and a value. What
-- follows the value does not matter.
def Assignment.ofLine? (r : Tracked) (line : Int) : List Token → Option Assignment
  | mov :: target :: comma :: value :: _ =>
    if isMnemonic "mov" mov ∧ Tracked.ofToken? target.text = some r ∧
        comma.kind = .comma ∧ value.kind = .ident then
      some ⟨value.text, line, value.start, value.stop⟩
    else none
  | _ => none

namespace Assignment

variable {r : Tracked} {line : Int} {ts : List Token} {a : Assignment}

theorem ofLine?_eq_some (h : ofLine? r line ts = some a) :
    ∃ mov target comma value rest, ts = mov :: target :: comma :: value :: rest ∧
      isMnemonic "mov" mov ∧ Tracked.ofToken? target.text = some r ∧
      comma.kind = .comma ∧ value.kind = .ident ∧
      a = ⟨value.text, line, value.start, value.stop⟩ := by
  unfold ofLine? at h
  split at h
  case h_1 mov target comma value rest =>
    split at h
    case isTrue hc =>
      have ⟨hm, ht, hk, hv⟩ := hc
      exact ⟨mov, target, comma, value, rest, rfl, hm, ht, hk, hv, by simpa using h.symm⟩
    case isFalse => contradiction
  case h_2 => contradiction

theorem line_of_ofLine? (h : ofLine? r line ts = some a) : a.line = line := by
  have ⟨_, _, _, _, _, _, _, _, _, _, ha⟩ := ofLine?_eq_some h
  rw [ha]

theorem ofLine?_eq_some_iff : ofLine? r line ts = some a ↔
    ∃ value, ofTokens ts = .assign r value ∧ a = ⟨value.text, line, value.start, value.stop⟩ := by
  constructor
  case mp =>
    intro h
    obtain ⟨mov, target, comma, value, rest, hts, hm, ht, hk, hv, ha⟩ := ofLine?_eq_some h
    exact ⟨value, by simp [hts, ofTokens, ofMov, ofOperands, ofValue, hm, ht, hk, hv], ha⟩
  case mpr =>
    rintro ⟨value, h, ha⟩
    obtain ⟨mov, target, comma, rest, hts, hm, ht, hk, hv⟩ := ofTokens_eq_assign h
    simp [hts, ofLine?, hm, ht, hk, hv, ha]

end Assignment

theorem Registers.after_ofTokens (rs : Registers) (line : Int) (ts : List Token) (r : Tracked) :
    rs.after line (ofTokens ts) r = (Assignment.ofLine? r line ts).or (rs r) := by
  cases h : Assignment.ofLine? r line ts
  case some a =>
    have ⟨value, hi, ha⟩ := Assignment.ofLine?_eq_some_iff.mp h
    simp [hi, ha, after, set]
  case none =>
    cases hi : ofTokens ts
    case assign q value =>
      have hq : r ≠ q := by
        intro hq
        have := @Assignment.ofLine?_eq_some_iff q line ts _ |>.mpr ⟨value, hi, rfl⟩
        simp [← hq, h] at this
      simp [after, set, hq]
    all_goals simp [after]

namespace TokenTable

variable {tokens : TokenTable} {line : Int} {ts : List Token} {r : Tracked} {a : Assignment}
variable {above below : List (Int × List Token)}

def lastOn (es : List (Int × List Token)) : Registers := fun r =>
  es.reverse.findSome? fun e => Assignment.ofLine? r e.1 e.2

def lastBefore (tokens : TokenTable) (line : Int) : Registers :=
  lastOn (tokens.entries.filter (·.1 < line))

theorem lastOn_append_singleton (line : Int) (ts : List Token) :
    lastOn (above ++ [(line, ts)]) = (lastOn above).after line (ofTokens ts) := by
  funext r
  rw [Registers.after_ofTokens]
  simp [lastOn, List.findSome?_cons]
  cases Assignment.ofLine? r line ts <;> rfl

theorem filter_lt_eq (h : tokens.entries = above ++ (line, ts) :: below) :
    tokens.entries.filter (·.1 < line) = above := by
  have ⟨hlt, hgt⟩ := IntMap.lt_of_entries_eq h
  have habove : above.filter (·.1 < line) = above :=
    List.filter_eq_self.mpr fun e he => by simpa using hlt e he
  have hbelow : below.filter (·.1 < line) = [] :=
    List.filter_eq_nil_iff.mpr fun e he => by simpa using Int.le_of_lt (hgt e he)
  simp [h, habove, hbelow]

theorem lastBefore_eq_lastOn (h : tokens.entries = above ++ (line, ts) :: below) :
    tokens.lastBefore line = lastOn above := by
  rw [lastBefore, filter_lt_eq h]

-- What it means to be the last assignment above a line, without a search.
structure IsLastBefore (tokens : TokenTable) (line : Int) (r : Tracked) (a : Assignment) :
    Prop where
  assigns  : ∃ ts, tokens.get? a.line = some ts ∧ Assignment.ofLine? r a.line ts = some a
  above    : a.line < line
  greatest : ∀ l ts, tokens.get? l = some ts → (Assignment.ofLine? r l ts).isSome → l < line →
    l ≤ a.line

theorem IsLastBefore.of_lastBefore (h : tokens.lastBefore line r = some a) :
    tokens.IsLastBefore line r a := by
  have ⟨below, e, above, he, ha, hn⟩ := List.findSome?_eq_some_iff.mp h
  have hl := Assignment.line_of_ofLine? ha
  have he : tokens.entries.filter (·.1 < line) = above.reverse ++ e :: below.reverse := by
    simpa using congrArg List.reverse he
  have hmem : e ∈ tokens.entries.filter (·.1 < line) := by simp [he]
  have ⟨hmem, hlt⟩ := List.mem_filter.mp hmem
  refine ⟨⟨e.2, IntMap.get?_eq_some_iff.mpr (hl ▸ hmem), hl ▸ ha⟩, by simpa [hl] using hlt, ?_⟩
  intro l ts ht hs hlt
  have hmem : (l, ts) ∈ tokens.entries.filter (·.1 < line) :=
    List.mem_filter.mpr ⟨IntMap.get?_eq_some_iff.mp ht, by simpa using hlt⟩
  have hasc := tokens.ascending.filter (·.1 < line)
  rw [he] at hmem hasc
  cases List.mem_append.mp hmem
  case inl hm =>
    have hle : l < e.1 := (List.pairwise_append.mp hasc).right.right _ hm e List.mem_cons_self
    omega
  case inr hm =>
    cases List.mem_cons.mp hm
    case inl hm => simp [hl, ← hm]
    case inr hm =>
      have := hn (l, ts) (by simpa using hm)
      simp [this] at hs

theorem IsLastBefore.unique {b : Assignment} (ha : tokens.IsLastBefore line r a)
    (hb : tokens.IsLastBefore line r b) : a = b := by
  have ⟨ts, hts, ha'⟩ := ha.assigns
  have ⟨us, hus, hb'⟩ := hb.assigns
  have hba := ha.greatest _ _ hus (by simp [hb']) hb.above
  have hab := hb.greatest _ _ hts (by simp [ha']) ha.above
  have hline : a.line = b.line := Int.le_antisymm hab hba
  rw [← hline] at hus hb'
  simp_all

theorem lastBefore_eq_some_iff :
    tokens.lastBefore line r = some a ↔ tokens.IsLastBefore line r a := by
  constructor
  case mp => exact .of_lastBefore
  case mpr =>
    intro h
    cases hl : tokens.lastBefore line r
    case some b => rw [h.unique (.of_lastBefore hl)]
    case none =>
      have ⟨ts, hts, ha⟩ := h.assigns
      have hmem : (a.line, ts) ∈ tokens.entries.filter (·.1 < line) :=
        List.mem_filter.mpr ⟨IntMap.get?_eq_some_iff.mp hts, by simpa using h.above⟩
      have := List.findSome?_eq_none_iff.mp hl (a.line, ts) (by simpa using hmem)
      simp [ha] at this

end TokenTable

end SvcLens
