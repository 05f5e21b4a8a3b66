import Mathlib.Data.List.Nodup
import SvcLens.Json.Reader
import SvcLens.Proofs.Sequence

namespace SvcLens.Json

inductive Distinct : Json → Prop
  | null : Distinct .null
  | bool (b : Bool) : Distinct (.bool b)
  | integer (n : Int) : Distinct (.integer n)
  | real (x : Decimal.Binary64) : Distinct (.real x)
  | string (s : Text.Loose) : Distinct (.string s)
  | array {vs : List Json} : (∀ v ∈ vs, Distinct v) → Distinct (.array vs)
  | object {ms : List (Text.Loose × Json)} : (ms.map Prod.fst).Nodup →
      (∀ m ∈ ms, Distinct m.2) → Distinct (.object ms)

def Has (ms : List (Text.Loose × Json)) (name : String) (v : Json) : Prop :=
  (Text.Loose.ofString name, v) ∈ ms

variable {ms : List (Text.Loose × Json)} {m : Text.Loose × Json} {name : String} {v w : Json}

theorem Distinct.nodup (h : Distinct (.object ms)) : (ms.map Prod.fst).Nodup := by
  cases h
  case object hn _ => exact hn

theorem Distinct.of_mem (h : Distinct (.object ms)) (hm : m ∈ ms) : Distinct m.2 := by
  cases h
  case object _ hv => exact hv m hm

theorem Distinct.unique (h : Distinct (.object ms)) (hv : Has ms name v) (hw : Has ms name w) :
    v = w :=
  congrArg Prod.snd (List.inj_on_of_nodup_map h.nodup hv hw rfl)

theorem member?_eq_none_iff : member? name ms = none ↔ ∀ v, ¬Has ms name v := by
  simp only [member?, List.lookup_eq_none_iff, List.mem_reverse, Has, bne_iff_ne]
  constructor
  case mp => exact fun h v hv => h _ hv rfl
  case mpr =>
    rintro h ⟨k, v⟩ hm rfl
    exact h v hm

theorem has_of_member? (h : member? name ms = some v) : Has ms name v := by
  obtain ⟨before, after, he, _⟩ := List.lookup_eq_some_iff.mp h
  rw [Has, ← List.mem_reverse, he]
  simp

theorem Distinct.member?_eq_some_iff (h : Distinct (.object ms)) :
    member? name ms = some v ↔ Has ms name v := by
  constructor
  case mp => exact has_of_member?
  case mpr =>
    intro hv
    cases hm : member? name ms
    case none => exact absurd hv (member?_eq_none_iff.mp hm v)
    case some w => rw [h.unique hv (has_of_member? hm)]

theorem Distinct.putMember (h : Distinct (.object ms)) (k : Text.Loose) (hv : Distinct v) :
    Distinct (.object (putMember ms k v)) := by
  rw [Json.putMember]
  split
  case isTrue hk =>
    -- The names stay as they are.
    have hn : (ms.map fun m => if m.1 == k then (k, v) else m).map Prod.fst = ms.map Prod.fst := by
      rw [List.map_map]
      refine List.map_congr_left fun m _ => ?_
      grind
    refine .object (hn ▸ h.nodup) fun m hm => ?_
    obtain ⟨m', hm', rfl⟩ := List.mem_map.mp hm
    split
    case isTrue => exact hv
    case isFalse => exact h.of_mem hm'
  case isFalse hk =>
    refine .object ?_ fun m hm => ?_
    case _ =>
      rw [List.map_append]
      refine List.nodup_append.mpr ⟨h.nodup, by simp, ?_⟩
      grind
    case _ =>
      cases List.mem_append.mp hm
      case inl hm => exact h.of_mem hm
      case inr hm =>
        rw [List.mem_singleton.mp hm]
        exact hv

namespace Reader

variable {cs : List Char} {depth : Nat}

theorem distinct_of_number {r : Read Json cs} (h : number cs = .ok r) : Distinct r.value := by
  unfold number at h
  extract_lets at h
  split at h
  case isTrue => cases h
  case isFalse =>
    extract_lets at h
    split at h
    case isTrue =>
      split at h
      case h_1 => cases h; exact .integer _
      case h_2 => cases h
    case isFalse => cases h; exact .real _

theorem distinct_of_mem_wordValues {m : List Char × Json} (h : m ∈ wordValues) : Distinct m.2 := by
  simp only [wordValues, List.mem_cons, List.not_mem_nil, or_false] at h
  rcases h with rfl | rfl | rfl | rfl | rfl | rfl
  all_goals constructor

theorem distinct_of_scalar {r : Read Json cs} (h : scalar cs = .ok r) : Distinct r.value := by
  rw [scalar] at h
  split at h
  case h_1 => exact distinct_of_number h
  case h_2 word v hw =>
    split at h
    case isTrue =>
      cases h
      exact distinct_of_mem_wordValues (List.mem_of_find?_eq_some hw)
    case isFalse => cases h

theorem member_eq_ok {known : List (Text.Loose × Json)} {start : List Char}
    {r : Read (List (Text.Loose × Json)) ('\x22' :: start)}
    (h : member depth known ('\x22' :: start) = .ok r) :
    ∃ (name : Read Text.Loose start) (colon : Read Unit name.rest) (v : Read Json colon.rest),
      value depth colon.rest = .ok v ∧
      (r.value = putMember known name.value v.value ∨
        ∃ (comma : Read Unit v.rest) (r' : Read (List (Text.Loose × Json)) comma.rest),
          member depth (putMember known name.value v.value) comma.rest = .ok r' ∧
          r.value = r'.value) := by
  rw [member] at h
  obtain ⟨name, -, h⟩ := bind_eq_ok_iff.mp h
  obtain ⟨colon, -, h⟩ := bind_eq_ok_iff.mp h
  obtain ⟨v, hv, h⟩ := bind_eq_ok_iff.mp h
  refine ⟨name, colon, v, hv, ?_⟩
  simp only at h
  split at h
  case h_1 => cases h; exact .inl rfl
  case h_2 =>
    obtain ⟨comma, -, h⟩ := bind_eq_ok_iff.mp h
    obtain ⟨r', hr, h⟩ := bind_eq_ok_iff.mp h
    cases h
    exact .inr ⟨comma, r', hr, rfl⟩

theorem element_eq_ok {r : Read (List Json) cs} (h : element depth cs = .ok r) :
    ∃ v : Read Json cs, value depth cs = .ok v ∧
      (r.value = [v.value] ∨
        ∃ (comma : Read Unit v.rest) (r' : Read (List Json) comma.rest),
          element depth comma.rest = .ok r' ∧ r.value = v.value :: r'.value) := by
  rw [element] at h
  obtain ⟨v, hv, h⟩ := bind_eq_ok_iff.mp h
  refine ⟨v, hv, ?_⟩
  simp only at h
  split at h
  case h_1 => cases h; exact .inl rfl
  case h_2 =>
    obtain ⟨comma, -, h⟩ := bind_eq_ok_iff.mp h
    obtain ⟨r', hr, h⟩ := bind_eq_ok_iff.mp h
    cases h
    exact .inr ⟨comma, r', hr, rfl⟩

-- The members that are known already carry the induction through an object.
theorem distinct_of_value {r : Read Json cs} (h : value depth cs = .ok r) : Distinct r.value := by
  refine (value.mutual_induct
    (fun depth cs => ∀ r : Read Json cs, value depth cs = .ok r → Distinct r.value)
    (fun depth cs => ∀ r : Read (List Json) cs, elements depth cs = .ok r →
      ∀ v ∈ r.value, Distinct v)
    (fun depth cs => ∀ r : Read (List Json) cs, element depth cs = .ok r →
      ∀ v ∈ r.value, Distinct v)
    (fun depth cs => ∀ r : Read (List (Text.Loose × Json)) cs, members depth cs = .ok r →
      Distinct (.object r.value))
    (fun depth known cs => ∀ r : Read (List (Text.Loose × Json)) cs, Distinct (.object known) →
      member depth known cs = .ok r → Distinct (.object r.value))
    ?string ?object ?array ?scalar ?closedArray ?elements ?element ?closedObject ?members ?member
    ?fault).left depth cs r h
  case string =>
    intro depth rest r h
    rw [value] at h
    obtain ⟨s, -, h⟩ := bind_eq_ok_iff.mp h
    cases h
    exact .string _
  case object =>
    intro depth rest ih r h
    rw [value] at h
    obtain ⟨inner, -, h⟩ := bind_eq_ok_iff.mp h
    obtain ⟨ms, hms, h⟩ := bind_eq_ok_iff.mp h
    cases h
    exact ih inner ms hms
  case array =>
    intro depth rest ih r h
    rw [value] at h
    obtain ⟨inner, -, h⟩ := bind_eq_ok_iff.mp h
    obtain ⟨vs, hvs, h⟩ := bind_eq_ok_iff.mp h
    cases h
    exact .array (ih inner vs hvs)
  case scalar =>
    intro depth cs h₁ h₂ h₃ r h
    rw [value.eq_4 depth cs h₁ h₂ h₃] at h
    exact distinct_of_scalar h
  case closedArray =>
    intro depth rest r h
    rw [elements] at h
    cases h
    simp
  case elements =>
    intro depth cs hc ih r h
    rw [elements.eq_2 depth cs hc] at h
    exact ih r h
  case element =>
    intro depth cs ihv ihr r h v hv
    obtain ⟨first, hf, hr⟩ := element_eq_ok h
    rcases hr with hr | ⟨comma, r', hr', hr⟩
    case inl =>
      rw [hr, List.mem_singleton] at hv
      exact hv ▸ ihv first hf
    case inr =>
      rw [hr, List.mem_cons] at hv
      cases hv
      case inl hv => exact hv ▸ ihv first hf
      case inr hv => exact ihr first comma r' hr' v hv
  case closedObject =>
    intro depth rest r h
    rw [members] at h
    cases h
    exact .object .nil nofun
  case members =>
    intro depth cs hc ih r h
    rw [members.eq_2 depth cs hc] at h
    exact ih r (.object .nil nofun) h
  case member =>
    intro depth known start ihv ihr r hk h
    obtain ⟨name, colon, v, hv, hr⟩ := member_eq_ok h
    have hk' := hk.putMember name.value (ihv name colon v hv)
    rcases hr with hr | ⟨comma, r', hr', hr⟩
    case inl => exact hr ▸ hk'
    case inr => exact hr ▸ ihr name colon v comma r' hk' hr'
  case fault =>
    intro depth known cs hc r hk h
    rw [member.eq_2 depth known cs hc] at h
    cases h

theorem distinct_of_whole (h : whole cs = .ok v) : Distinct v := by
  rw [whole] at h
  split at h
  case isTrue => cases h
  case isFalse =>
    obtain ⟨r, hr, h⟩ := bind_eq_ok_iff.mp h
    split at h
    case h_1 => cases h; exact distinct_of_value hr
    case h_2 => cases h

end Reader

theorem distinct_of_read {cs : List Char} (h : read cs = .ok v) : Distinct v := by
  rw [read] at h
  split at h
  case h_1 hw => cases h; exact Reader.distinct_of_whole hw
  all_goals cases h

end SvcLens.Json
