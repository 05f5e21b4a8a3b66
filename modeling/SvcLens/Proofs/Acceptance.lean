import Mathlib.Data.List.Permutation
import SvcLens.Proofs.Description

namespace SvcLens.TableFile

open Json

def Spells (content : List UInt8) (v : Json) : Prop :=
  ∃ text, Text.Utf8.decode content = .ok text ∧
    Json.read (Text.unifyBreaks text.toList) = .ok v

inductive IsTable : Json → Prop
  | intro {ms} : (∀ m ∈ ms, (∃ n, numberOf? m.1 = some n) ∧ IsEntry m.2) → IsTable (.object ms)

def numbered (n : Int) (ms : List (Text.Loose × Json)) : List (Text.Loose × Json) :=
  ms.filter fun m => numberOf? m.1 = some n

-- The entries of a file: the numbers that occur, each with the description of the last entry.
structure Holds (ms : List (Text.Loose × Json)) (f : TableFile) : Prop where
  isSome_iff : ∀ n, (f.get? n).isSome ↔ ∃ m ∈ ms, numberOf? m.1 = some n
  last : ∀ n e, f.get? n = some e → ∃ key entry,
    (numbered n ms).getLast? = some (key, .object entry) ∧ Describes entry e

inductive SameArguments : Json → Json → Prop
  | refl (v : Json) : SameArguments v v
  | perm {before after args args'} : args.Perm args' →
      SameArguments (.object (before ++ (.ofString "args", .object args) :: after))
        (.object (before ++ (.ofString "args", .object args') :: after))

variable {content : List UInt8} {v w : Json} {ms ns entry : List (Text.Loose × Json)}
variable {f g : TableFile} {n : Int} {err : Error}

section Refusal

end Refusal

section Contents

theorem exists_ofJson_iff (hd : v.Distinct) : (∃ f, ofJson v = .ok f) ↔ IsTable v := by
  constructor
  case mp =>
    rintro ⟨f, h⟩
    cases v
    case object ms =>
      have ⟨es, hes, _⟩ := bind_eq_ok_iff.mp h
      have hall := exists_mapM_eq_ok_iff.mp ⟨es, hes⟩
      exact .intro fun m hm => (exists_entryOf_iff (hd.of_mem hm)).mp (hall m hm)
    all_goals cases h
  case mpr =>
    rintro ⟨h⟩
    have ⟨es, hes⟩ := exists_mapM_eq_ok_iff.mpr fun m hm =>
      (exists_entryOf_iff (hd.of_mem hm)).mpr (h m hm)
    exact ⟨.ofList es, bind_eq_ok_iff.mpr ⟨es, hes, rfl⟩⟩

theorem numbered_ne_nil_iff : numbered n ms ≠ [] ↔ ∃ m ∈ ms, numberOf? m.1 = some n := by
  simp [numbered]

theorem holds_of_ofJson (hd : (Json.object ms).Distinct) (h : ofJson (.object ms) = .ok f) :
    Holds ms f := by
  have ⟨es, hes, h⟩ := bind_eq_ok_iff.mp h
  cases h
  have hall : List.Forall₂ (fun m p => numberOf? m.1 = some p.1 ∧
      ∃ entry, m.2 = .object entry ∧ Describes entry p.2) ms es := by
    have hes := (List.forall₂_and_left ms es).mpr ⟨fun _ => hd.of_mem, mapM_eq_ok_iff.mp hes⟩
    exact hes.imp fun m p h => describes_of_entryOf h.left h.right
  -- The same goes for those with one number.
  have hnumbered (n : Int) : List.Forall₂ (fun m p => numberOf? m.1 = some p.1 ∧
      ∃ entry, m.2 = .object entry ∧ Describes entry p.2) (numbered n ms)
      (es.filter fun p => p.1 = n) := by
    refine List.rel_filter (fun m p h => ?_) hall
    simp [h.left]
  constructor
  case isSome_iff =>
    intro n
    rw [IntMap.get?_ofList, Option.isSome_map, Option.isSome_iff_ne_none, Ne,
      List.getLast?_eq_none_iff, ← eq_nil_iff_of_forall₂ (hnumbered n)]
    exact numbered_ne_nil_iff
  case last =>
    intro n e he
    rw [IntMap.get?_ofList, Option.map_eq_some_iff] at he
    obtain ⟨p, hp, rfl⟩ := he
    have ⟨⟨key, v⟩, hm, _, entry, hv, hdesc⟩ := exists_getLast?_of_forall₂ (hnumbered n) hp
    cases hv
    exact ⟨key, entry, hm, hdesc⟩

end Contents

section Order

variable {before after args args' xs : List (Text.Loose × Json)} {e : Entry}

theorem has_middle_iff {key name : String} :
    Has (before ++ (.ofString key, w) :: after) name v ↔
      name = key ∧ v = w ∨ Has (before ++ after) name v := by
  have hkey : Text.Loose.ofString name = .ofString key ↔ name = key := by
    rw [← Text.Loose.string?_eq_some_iff, Text.Loose.string?_ofString, Option.some.injEq]
  simp only [Has, List.mem_append, List.mem_cons, Prod.mk.injEq, hkey]
  grind

theorem has_iff_of_ne {name : String} {u : Json} (hne : name ≠ "args") :
    Has (before ++ (.ofString "args", v) :: after) name u ↔
      Has (before ++ (.ofString "args", w) :: after) name u := by
  simp only [has_middle_iff, hne, false_and, false_or]

theorem Arguments.of_perm (hp : args.Perm args')
    (h : Arguments (before ++ (.ofString "args", .object args) :: after) xs) :
    ∃ ys, Arguments (before ++ (.ofString "args", .object args') :: after) ys ∧ xs.Perm ys := by
  have hself (v : Json) : Has (before ++ (.ofString "args", v) :: after) "args" v :=
    has_middle_iff.mpr (.inl ⟨rfl, rfl⟩)
  cases h
  case absent h => exact absurd (hself _) (h _)
  case vacant v h hv =>
    rcases has_middle_iff.mp h with ⟨-, rfl⟩ | h
    case inl =>
      cases List.isEmpty_iff.mp hv
      exact ⟨args', .object (hself _), hp⟩
    case inr => exact ⟨[], .vacant (has_middle_iff.mpr (.inr h)) hv, .nil⟩
  case object h =>
    rcases has_middle_iff.mp h with ⟨-, h⟩ | h
    case inl =>
      cases h
      exact ⟨args', .object (hself _), hp⟩
    case inr => exact ⟨xs, .object (has_middle_iff.mpr (.inr h)), .refl xs⟩

theorem SameArguments.symm (h : SameArguments v w) : SameArguments w v := by
  cases h
  case refl => exact .refl v
  case perm hp => exact .perm hp.symm

theorem SameArguments.isEntry (h : SameArguments v w) (hv : IsEntry v) : IsEntry w := by
  cases h
  case refl => exact hv
  case perm hp =>
    obtain ⟨hname, ha, hargs⟩ := hv
    have ⟨ys, ha, hys⟩ := ha.of_perm hp
    exact .intro ((has_iff_of_ne (by decide)).mp hname) ha fun m hm => hargs m (hys.symm.subset hm)

end Order

section Load

theorem Spells.load_eq (h : Spells content v) : load content = ofJson v := by
  have ⟨text, ht, hv⟩ := h
  simp only [load, ht, hv]

theorem Spells.distinct (h : Spells content v) : v.Distinct := by
  have ⟨_, _, hv⟩ := h
  exact distinct_of_read hv

theorem Spells.exists_load_iff (h : Spells content v) :
    (∃ f, load content = .ok f) ↔ IsTable v := by
  rw [h.load_eq]
  exact exists_ofJson_iff h.distinct

theorem Spells.holds (h : Spells content v) (hf : load content = .ok f) :
    ∃ ms, v = .object ms ∧ Holds ms f := by
  rw [h.load_eq] at hf
  cases v
  case object ms => exact ⟨ms, rfl, holds_of_ofJson h.distinct hf⟩
  all_goals cases hf

end Load

end SvcLens.TableFile
