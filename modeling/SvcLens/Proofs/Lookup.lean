import Mathlib.Data.List.Induction
import SvcLens.IntMap
import SvcLens.Register

namespace SvcLens

namespace IntMap

variable {α : Type} {m m' : IntMap α} {k : Int} {a : α}

theorem mem_of_lookup_eq_some {es : List (Int × α)} (h : es.lookup k = some a) : (k, a) ∈ es := by
  have ⟨l₁, l₂, he, _⟩ := List.lookup_eq_some_iff.mp h
  simp [he]

theorem lookup_eq_some_of_mem {es : List (Int × α)}
    (ha : es.Pairwise (fun a b => a.1 < b.1)) (h : (k, a) ∈ es) : es.lookup k = some a := by
  induction es
  case nil => contradiction
  case cons e es ih =>
    have ⟨he, hes⟩ := List.pairwise_cons.mp ha
    rw [lookup_cons_ite]
    cases List.mem_cons.mp h
    case inl h => simp [← h]
    case inr h =>
      have hk : k ≠ e.1 := Int.ne_of_gt (he _ h)
      simp [hk, ih hes h]

theorem get?_eq_some_iff : m.get? k = some a ↔ (k, a) ∈ m.entries :=
  ⟨mem_of_lookup_eq_some, lookup_eq_some_of_mem m.ascending⟩

theorem lt_of_entries_eq {above below : List (Int × α)}
    (h : m.entries = above ++ (k, a) :: below) :
    (∀ e ∈ above, e.1 < k) ∧ ∀ e ∈ below, k < e.1 := by
  have ha := m.ascending
  rw [h, List.pairwise_append] at ha
  have ⟨_, hb, hab⟩ := ha
  exact ⟨fun e he => hab e he _ List.mem_cons_self, (List.pairwise_cons.mp hb).left⟩

-- Ascending entries are determined by which ones they are.
theorem ext_get? (h : ∀ k, m.get? k = m'.get? k) : m = m' := by
  have hmem : ∀ e, e ∈ m.entries ↔ e ∈ m'.entries := fun e => by
    rw [← get?_eq_some_iff, ← get?_eq_some_iff, h]
  have hnodup (m : IntMap α) : m.entries.Nodup := by
    refine List.Pairwise.imp ?_ m.ascending
    rintro e _ hlt rfl
    exact Int.lt_irrefl _ hlt
  have hperm := (List.perm_ext_iff_of_nodup (hnodup m) (hnodup m')).mpr hmem
  refine IntMap.ext (hperm.eq_of_pairwise (fun e e' _ _ h₁ h₂ => ?_) m.ascending m'.ascending)
  exact absurd h₂ (Int.lt_asymm h₁)

theorem get?_ofList (es : List (Int × α)) (k : Int) :
    (ofList es).get? k = ((es.filter fun e => e.1 = k).getLast?).map Prod.snd := by
  induction es using List.reverseRecOn
  case nil => rfl
  case append_singleton es e ih =>
    have he : ofList (es ++ [e]) = (ofList es).insert e.1 e.2 := by simp [ofList]
    rw [he, get?_insert, List.filter_append, ih]
    split
    case isTrue hk => simp [hk]
    case isFalse hk => simp [Ne.symm hk]

end IntMap

namespace Tracked

theorem mem_all (r : Tracked) : r ∈ all := by
  cases r
  case argument i => exact List.mem_append_left _ (List.mem_map_of_mem (List.mem_finRange i))
  case number => exact List.mem_append_right _ List.mem_cons_self

theorem find?_all_eq_some_iff {p : Tracked → Bool} {r : Tracked}
    (h : ∀ q r, p q → p r → q = r) : all.find? p = some r ↔ p r := by
  constructor
  case mp => exact List.find?_some
  case mpr =>
    intro hr
    cases hq : all.find? p
    case none => exact absurd hr (List.find?_eq_none.mp hq r r.mem_all)
    case some q => rw [h q r (List.find?_some hq) hr]

theorem name_injective {q r : Tracked} (h : q.name = r.name) : q = r := by
  have hall : ∀ q ∈ all, ∀ r ∈ all, q.name = r.name → q = r := by decide +kernel
  exact hall q q.mem_all r r.mem_all h

theorem register_injective {q r : Tracked} (h : q.register = r.register) : q = r :=
  name_injective (congrArg Register.name h)

theorem ofName?_eq_some_iff {name : String} {r : Tracked} :
    ofName? name = some r ↔ name = r.name := by
  rw [ofName?, find?_all_eq_some_iff, decide_eq_true_eq, eq_comm]
  intro q r hq hr
  rw [decide_eq_true_eq] at hq hr
  exact name_injective (hq.trans hr.symm)

end Tracked

end SvcLens
