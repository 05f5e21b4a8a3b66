import SvcLens.Proofs.Grammar

namespace SvcLens.Token

variable {col : Nat} {cs : List Char} {ts us : List Token} {t : Token} {k : Int}
variable {found : Option Token}

-- What a cursor points at: the one token that takes its column, or if there is none, the one token
-- that takes the column before it, unless that is a comma.
inductive Pointed (ts : List Token) (k : Int) : Option Token → Prop
  | on {t : Token} : ts.filter (·.covers k) = [t] → Pointed ts k (some t)
  | behind {t : Token} : (∀ s ∈ ts, ¬s.covers k) → ts.filter (·.covers (k - 1)) = [t] →
      t.kind ≠ .comma → Pointed ts k (some t)
  | nowhere : (∀ s ∈ ts, ¬s.covers k) → (∀ s ∈ ts, s.covers (k - 1) → s.kind = .comma) →
      Pointed ts k none

section

variable {α : Type} {p : α → Bool} {xs ys : List α} {x : α}

theorem find?_of_perm (hp : xs.Perm ys) (h : ys.filter p = [x]) : xs.find? p = some x := by
  have hx : xs.filter p = [x] := List.perm_singleton.mp (h ▸ hp.filter p)
  rw [← List.head?_filter, hx, List.head?_singleton]

theorem find?_eq_none_of_perm (hp : xs.Perm ys) (h : ∀ y ∈ ys, ¬p y) : xs.find? p = none :=
  List.find?_eq_none.mpr fun x hx => h x (hp.mem_iff.mp hx)

end

namespace Grammar

theorem filter_covers (h : Grammar col cs ts) (ht : t ∈ ts) (hk : t.covers k) :
    ts.filter (·.covers k) = [t] := by
  obtain ⟨before, after, rfl⟩ := List.append_of_mem ht
  have ⟨_, hafter, hbefore⟩ := List.pairwise_append.mp h.ordered
  have hcol := covers_iff.mp hk
  have hfront : before.filter (·.covers k) = [] := by
    apply List.filter_eq_nil_iff.mpr
    intro s hs
    have := hbefore s hs t List.mem_cons_self
    rw [covers_iff]
    omega
  have hback : after.filter (·.covers k) = [] := by
    apply List.filter_eq_nil_iff.mpr
    intro s hs
    have := (List.pairwise_cons.mp hafter).left s hs
    rw [covers_iff]
    omega
  rw [List.filter_append, hfront, List.nil_append, List.filter_cons, if_pos hk, hback]

theorem endsAt_eq (h : Grammar col cs ts) (ht : t ∈ ts) (hk : ¬t.covers k) :
    t.endsAt k = (t.kind != .comma && t.covers (k - 1)) := by
  have hstop : (t.stop == k) = t.covers (k - 1) := by
    have := h.bounds t ht
    rw [covers_iff] at hk
    rw [Bool.eq_iff_iff, beq_iff_eq, covers_iff]
    omega
  rw [endsAt, hstop, Bool.and_comm]

theorem exists_pointed (h : Grammar col cs ts) (k : Int) : ∃ found, Pointed ts k found := by
  by_cases hon : ∃ t ∈ ts, t.covers k
  case pos =>
    have ⟨t, ht, hk⟩ := hon
    exact ⟨some t, .on (h.filter_covers ht hk)⟩
  case neg =>
    push Not at hon
    by_cases hbehind : ∃ t ∈ ts, t.covers (k - 1) ∧ t.kind ≠ .comma
    case pos =>
      have ⟨t, ht, hk, hc⟩ := hbehind
      exact ⟨some t, .behind hon (h.filter_covers ht hk) hc⟩
    case neg =>
      push Not at hbehind
      exact ⟨none, .nowhere hon hbehind⟩

theorem atCursor_eq (hg : Grammar col cs us) (hp : ts.Perm us) (h : Pointed us k found) :
    atCursor ts k = found := by
  cases h
  case on t ht => rw [atCursor, find?_of_perm hp ht, Option.some_or]
  case behind t hn ht hc =>
    have hends : us.filter (·.endsAt k) = [t] := by
      rw [List.filter_congr fun s hs => hg.endsAt_eq hs (hn s hs), ← List.filter_filter, ht]
      simp [hc]
    rw [atCursor, find?_eq_none_of_perm hp hn, find?_of_perm hp hends, Option.none_or]
  case nowhere hn hc =>
    have hends : ∀ s ∈ us, ¬s.endsAt k := by
      intro s hs
      rw [hg.endsAt_eq hs (hn s hs), Bool.and_eq_true, bne_iff_ne]
      exact fun hends => hends.left (hc s hs hends.right)
    rw [atCursor, find?_eq_none_of_perm hp hn, find?_eq_none_of_perm hp hends, Option.none_or]

end Grammar

-- A search of the tokens of a line, in any order, finds what the cursor points at.
theorem atCursor_eq_iff_pointed (text : String) {ts : List Token} (hp : ts.Perm (scan text))
    (k : Int) (found : Option Token) :
    atCursor ts k = found ↔ Pointed (scan text) k found := by
  have hg := Grammar.of_scanned (scanned_scanFrom 0 text.toList)
  constructor
  case mp =>
    rintro rfl
    have ⟨found, h⟩ := hg.exists_pointed k
    exact hg.atCursor_eq hp h ▸ h
  case mpr => exact fun h => hg.atCursor_eq hp h

theorem atCursor_eq_iff_pointed_of_touching :
    let text := "ab\x22c\x22, x"
    let ts := (scan text).reverse
    ts.Perm (scan text) ∧
    (atCursor ts 2 = some ⟨.string, "\x22c\x22", 2, 5⟩ ∧
      Pointed (scan text) 2 (some ⟨.string, "\x22c\x22", 2, 5⟩)) ∧
    (atCursor ts 6 = none ∧ Pointed (scan text) 6 none) ∧
    (atCursor ts 8 = some ⟨.ident, "x", 7, 8⟩ ∧
      Pointed (scan text) 8 (some ⟨.ident, "x", 7, 8⟩)) := by
  intro text ts
  have hp : ts.Perm (scan text) := List.reverse_perm _
  have hon : atCursor ts 2 = some ⟨.string, "\x22c\x22", 2, 5⟩ := by decide +kernel
  have hnowhere : atCursor ts 6 = none := by decide +kernel
  have hbehind : atCursor ts 8 = some ⟨.ident, "x", 7, 8⟩ := by decide +kernel
  exact ⟨hp, ⟨hon, (atCursor_eq_iff_pointed text hp _ _).mp hon⟩,
    ⟨hnowhere, (atCursor_eq_iff_pointed text hp _ _).mp hnowhere⟩,
    ⟨hbehind, (atCursor_eq_iff_pointed text hp _ _).mp hbehind⟩⟩

end SvcLens.Token
