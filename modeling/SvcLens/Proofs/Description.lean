import Mathlib.Data.List.Perm.Basic
import SvcLens.Proofs.Lookup
import SvcLens.Proofs.Members
import SvcLens.Syscall.TableFile

namespace SvcLens

theorem Text.Loose.string?_eq_some_iff {t : Loose} {s : String} :
    t.string? = some s ↔ t = ofString s := by
  constructor
  case mp =>
    intro h
    obtain ⟨cs, hcs, rfl⟩ := Option.map_eq_some_iff.mp h
    rw [ofString, String.toList_ofList]
    clear h
    induction t generalizing cs
    case nil => cases hcs; rfl
    case cons p t ih =>
      cases p
      case char c =>
        simp only [List.mapM_cons, CodePoint.char?, Option.bind_eq_bind, Option.bind_some,
          Option.bind_eq_some_iff, Option.pure_def, Option.some.injEq] at hcs
        obtain ⟨cs', hcs', rfl⟩ := hcs
        rw [ih cs' hcs', List.map_cons]
      case surrogate => simp [CodePoint.char?] at hcs
  case mpr =>
    rintro rfl
    exact string?_ofString s

namespace TableFile

open Json

inductive Names : Json → Text.Loose → Json → Prop
  | text (name : Text.Loose) : Names (.string name) name .null
  | noted {ms name notes} : Has ms "name" (.string name) → Has ms "notes" notes →
      Names (.object ms) name notes
  | unnoted {ms name} : Has ms "name" (.string name) → (∀ v, ¬Has ms "notes" v) →
      Names (.object ms) name .null

structure Gives (m : Text.Loose × Json) (r : Role) : Prop where
  register : ∃ i : Fin 6, r.register = .argument i
  key : m.1 = .ofString r.register.name
  value : Names m.2 r.name r.notes

-- The members of the arguments object of an entry, none if it is missing or vacant.
inductive Arguments (entry : List (Text.Loose × Json)) : List (Text.Loose × Json) → Prop
  | absent : (∀ v, ¬Has entry "args" v) → Arguments entry []
  | vacant {v} : Has entry "args" v → v.isVacant → Arguments entry []
  | object {ms} : Has entry "args" (.object ms) → Arguments entry ms

inductive Returns (entry : List (Text.Loose × Json)) : Text.Loose → Prop
  | absent : (∀ v, ¬Has entry "returns" v) → Returns entry (.ofString "")
  | value {v} : Has entry "returns" v → (∀ ms, v ≠ .object ms) → Returns entry v.asText
  | register {ms v} : Has entry "returns" (.object ms) → Has ms "x0" v → Returns entry v.asText
  | unregistered {ms} : Has entry "returns" (.object ms) → (∀ v, ¬Has ms "x0" v) →
      Returns entry (.ofString "")

def Role.Precedes (a b : Role) : Prop :=
  ∃ i j : Fin 6, a.register = .argument i ∧ b.register = .argument j ∧ i < j

-- A description fits an entry: it has one argument for each member of the arguments object, in the
-- order of their registers.
structure Describes (entry : List (Text.Loose × Json)) (e : Entry) : Prop where
  name : Has entry "name" (.string e.name)
  roles : ∃ args ordered, Arguments entry args ∧ ordered.Perm args ∧
    List.Forall₂ Gives ordered e.roles
  ascending : e.roles.Pairwise Role.Precedes
  returns : Returns entry e.returns

def IsRegister (key : Text.Loose) : Prop :=
  ∃ i : Fin 6, key = .ofString (Tracked.argument i).name

inductive IsNamed : Json → Prop
  | text (s : Text.Loose) : IsNamed (.string s)
  | object {ms s} : Has ms "name" (.string s) → IsNamed (.object ms)

inductive IsEntry : Json → Prop
  | intro {entry name args} : Has entry "name" (.string name) → Arguments entry args →
      (∀ m ∈ args, IsRegister m.1 ∧ IsNamed m.2) →
      IsEntry (.object entry)

variable {entry args : List (Text.Loose × Json)} {m : Text.Loose × Json} {e e' : Entry}
variable {r r' : Role} {n : Int}

section Argument

theorem registerOf?_eq_some_iff {key : Text.Loose} {t : Tracked} :
    registerOf? key = some t ↔ (∃ i, t = .argument i) ∧ key = .ofString t.name := by
  simp only [registerOf?, Option.filter_eq_some_iff, Option.bind_eq_some_iff,
    Text.Loose.string?_eq_some_iff, Tracked.ofName?_eq_some_iff]
  cases t <;> simp

example : (List.finRange 6).map (fun i => (Tracked.argument i).name) =
    ["x0", "x1", "x2", "x3", "x4", "x5"] := by decide +kernel

theorem roleOf?_eq_some_iff {t : Tracked} {v : Json} (hd : v.Distinct) :
    roleOf? t v = some r ↔ r.register = t ∧ Names v r.name r.notes := by
  constructor
  case mp =>
    intro h
    unfold roleOf? at h
    split at h
    case h_1 => cases h; exact ⟨rfl, .text _⟩
    case h_2 ms =>
      split at h
      case h_1 name hn =>
        cases h
        refine ⟨rfl, ?_⟩
        cases ho : member? "notes" ms
        case none => exact .unnoted (has_of_member? hn) (member?_eq_none_iff.mp ho)
        case some notes => exact .noted (has_of_member? hn) (has_of_member? ho)
      case h_2 => cases h
    case h_3 => cases h
  case mpr =>
    rintro ⟨rfl, h⟩
    obtain ⟨register, name, notes⟩ := r
    cases h
    case text => rfl
    case noted hn ho =>
      simp only [roleOf?, hd.member?_eq_some_iff.mpr hn, hd.member?_eq_some_iff.mpr ho,
        Option.getD_some]
    case unnoted ho hn =>
      simp only [roleOf?, hd.member?_eq_some_iff.mpr hn, member?_eq_none_iff.mpr ho,
        Option.getD_none]

theorem argumentOf_eq_ok_iff (hd : m.2.Distinct) : argumentOf n m = .ok r ↔ Gives m r := by
  constructor
  case mp =>
    intro h
    rw [argumentOf] at h
    split at h
    case h_2 => cases h
    case h_1 t ht =>
      split at h
      case h_2 => cases h
      case h_1 role hr =>
        cases h
        have ⟨hi, hk⟩ := registerOf?_eq_some_iff.mp ht
        have ⟨hrole, hv⟩ := (roleOf?_eq_some_iff hd).mp hr
        exact ⟨hrole ▸ hi, hrole ▸ hk, hv⟩
  case mpr =>
    intro h
    have ht := registerOf?_eq_some_iff.mpr ⟨h.register, h.key⟩
    have hr := (roleOf?_eq_some_iff hd).mpr ⟨rfl, h.value⟩
    simp only [argumentOf, ht, hr]
    rfl

theorem isNamed_iff {v : Json} : IsNamed v ↔ ∃ name notes, Names v name notes := by
  constructor
  case mp =>
    rintro (_ | h)
    case text s => exact ⟨s, .null, .text s⟩
    case object ms s =>
      by_cases ho : ∃ notes, Has ms "notes" notes
      case pos =>
        have ⟨notes, ho⟩ := ho
        exact ⟨s, notes, .noted h ho⟩
      case neg => exact ⟨s, .null, .unnoted h (not_exists.mp ho)⟩
  case mpr =>
    rintro ⟨_, _, _ | h | h⟩
    case text => exact .text _
    case noted => exact .object h
    case unnoted => exact .object h

theorem exists_gives_iff : (∃ r, Gives m r) ↔ IsRegister m.1 ∧ IsNamed m.2 := by
  rw [isNamed_iff]
  constructor
  case mp =>
    rintro ⟨r, ⟨i, hi⟩, hk, hv⟩
    exact ⟨⟨i, hi ▸ hk⟩, r.name, r.notes, hv⟩
  case mpr =>
    rintro ⟨⟨i, hk⟩, name, notes, hv⟩
    exact ⟨⟨.argument i, name, notes⟩, ⟨i, rfl⟩, hk, hv⟩

end Argument

section Order

theorem orderOf_argument (i : Fin 6) :
    orderOf (.ofString (Tracked.argument i).name) = .ok (i.val : Int) := by
  revert i
  decide +kernel

theorem orderOf_eq_ok_of_placed {m : Text.Loose × Json} {p : Int × Text.Loose × Json}
    (h : (do return (← orderOf m.1, m)) = .ok p) : m = p.2 ∧ orderOf m.1 = .ok p.1 := by
  have ⟨i, hi, h⟩ := bind_eq_ok_iff.mp h
  cases h
  exact ⟨rfl, hi⟩

theorem inOrder_eq_ok {ms ordered : List (Text.Loose × Json)} (h : inOrder ms = .ok ordered) :
    ordered.Perm ms ∧ ordered.Pairwise fun a b =>
      ∀ i j, orderOf a.1 = .ok i → orderOf b.1 = .ok j → i ≤ j := by
  rw [inOrder] at h
  have ⟨keyed, hk, h⟩ := bind_eq_ok_iff.mp h
  cases h
  constructor
  case left =>
    have hms : ms = keyed.map Prod.snd := by
      rw [← List.forall₂_eq_eq_eq, List.forall₂_map_right_iff]
      exact (mapM_eq_ok_iff.mp hk).imp fun m p h => (orderOf_eq_ok_of_placed h).left
    rw [hms]
    exact (List.mergeSort_perm keyed _).map Prod.snd
  case right =>
    have hsorted : (keyed.mergeSort fun a b => a.1 ≤ b.1).Pairwise fun a b =>
        decide (a.1 ≤ b.1) := by
      apply List.pairwise_mergeSort
      case trans => simp only [decide_eq_true_eq]; omega
      case total => simp only [Bool.or_eq_true, decide_eq_true_eq]; omega
    have hof : ∀ p ∈ keyed.mergeSort fun a b => a.1 ≤ b.1, orderOf p.2.1 = .ok p.1 := by
      intro p hp
      have ⟨m, _, hm⟩ := (mem_iff_of_mapM_eq_ok hk).mp (List.mem_mergeSort.mp hp)
      have ⟨he, ho⟩ := orderOf_eq_ok_of_placed hm
      exact he ▸ ho
    rw [List.pairwise_map]
    refine hsorted.imp_of_mem fun {p q} hp hq hle i j hi hj => ?_
    cases (hof p hp).symm.trans hi
    cases (hof q hq).symm.trans hj
    exact of_decide_eq_true hle

theorem exists_inOrder_eq_ok {ms : List (Text.Loose × Json)} (h : ∀ m ∈ ms, IsRegister m.1) :
    ∃ ordered, inOrder ms = .ok ordered := by
  have hk : ∃ keyed, (ms.mapM fun m => do return (← orderOf m.1, m)) = .ok keyed := by
    refine exists_mapM_eq_ok_iff.mpr fun m hm => ?_
    have ⟨i, hi⟩ := h m hm
    rw [hi, orderOf_argument]
    exact ⟨_, rfl⟩
  have ⟨keyed, hk⟩ := hk
  exact ⟨_, by rw [inOrder, hk]; rfl⟩

-- Arguments are put in order before they are looked at, and the order is read from texts that need
-- not name registers. Two members with different names, of which the first has no later place,
-- stand for arguments in the order of their registers.
theorem Gives.precedes {m m' : Text.Loose × Json} (h : Gives m r) (h' : Gives m' r')
    (hne : m.1 ≠ m'.1)
    (hle : ∀ i j, orderOf m.1 = .ok i → orderOf m'.1 = .ok j → i ≤ j) : r.Precedes r' := by
  have ⟨i, hi⟩ := h.register
  have ⟨j, hj⟩ := h'.register
  have hk := h.key
  have hk' := h'.key
  rw [hi] at hk
  rw [hj] at hk'
  rw [hk, hk'] at hle
  have hij := hle i j (orderOf_argument i) (orderOf_argument j)
  have hij' : i ≠ j := fun he => hne (by rw [hk, hk', he])
  exact ⟨i, j, hi, hj, by omega⟩

end Order

section Entry

theorem Arguments.distinct (hd : (Json.object entry).Distinct) (ha : Arguments entry args) :
    (Json.object args).Distinct := by
  cases ha
  case absent => exact .object .nil nofun
  case vacant => exact .object .nil nofun
  case object h => exact hd.of_mem h

theorem Arguments.unique {args' : List (Text.Loose × Json)} (hd : (Json.object entry).Distinct)
    (h : Arguments entry args) (h' : Arguments entry args') : args = args' := by
  cases h <;> cases h'
  case absent.absent => rfl
  case absent.vacant h _ h' _ => exact absurd h' (h _)
  case absent.object h h' => exact absurd h' (h _)
  case vacant.absent h _ h' => exact absurd h (h' _)
  case vacant.vacant => rfl
  case vacant.object h hv h' =>
    cases hd.unique h h'
    exact (List.isEmpty_iff.mp hv).symm
  case object.absent h h' => exact absurd h (h' _)
  case object.vacant h _ h' hv =>
    cases hd.unique h h'
    exact List.isEmpty_iff.mp hv
  case object.object h h' =>
    cases hd.unique h h'
    rfl

theorem rolesOf_eq (hd : (Json.object entry).Distinct) (ha : Arguments entry args) :
    rolesOf n entry = inOrder args >>= List.mapM (argumentOf n) := by
  have hnil : inOrder [] >>= List.mapM (argumentOf n) = .ok [] := by
    simp [inOrder, pure, Except.pure, bind, Except.bind]
  cases ha
  case absent h =>
    rw [rolesOf, member?_eq_none_iff.mpr h, hnil]
    rfl
  case vacant v h hv =>
    simp only [rolesOf, hd.member?_eq_some_iff.mpr h, Option.getD_some, hv, if_true, hnil]
    rfl
  case object h =>
    rw [rolesOf, hd.member?_eq_some_iff.mpr h]
    cases args
    case nil => rw [hnil]; rfl
    case cons m ms => rfl

theorem exists_arguments {roles : List Role} (h : rolesOf n entry = .ok roles) :
    ∃ args, Arguments entry args := by
  cases hm : member? "args" entry
  case none => exact ⟨[], .absent (member?_eq_none_iff.mp hm)⟩
  case some v =>
    cases hv : v.isVacant
    case true => exact ⟨[], .vacant (has_of_member? hm) hv⟩
    case false =>
      simp only [rolesOf, hm, Option.getD_some, hv, Bool.false_eq_true, if_false] at h
      cases v
      case object ms => exact ⟨ms, .object (has_of_member? hm)⟩
      all_goals cases h

theorem mapM_argumentOf_eq_ok_iff {ordered : List (Text.Loose × Json)} {roles : List Role}
    (hd : ∀ m ∈ ordered, m.2.Distinct) :
    ordered.mapM (argumentOf n) = .ok roles ↔ List.Forall₂ Gives ordered roles := by
  rw [mapM_eq_ok_iff]
  constructor
  case mp =>
    intro h
    refine ((List.forall₂_and_left ordered roles).mpr ⟨hd, h⟩).imp ?_
    exact fun m r h => (argumentOf_eq_ok_iff h.left).mp h.right
  case mpr =>
    intro h
    refine ((List.forall₂_and_left ordered roles).mpr ⟨hd, h⟩).imp ?_
    exact fun m r h => (argumentOf_eq_ok_iff h.left).mpr h.right

theorem of_rolesOf_eq_ok {roles : List Role} (hd : (Json.object entry).Distinct)
    (h : rolesOf n entry = .ok roles) :
    (∃ args ordered, Arguments entry args ∧ ordered.Perm args ∧ List.Forall₂ Gives ordered roles) ∧
      roles.Pairwise Role.Precedes := by
  have ⟨args, ha⟩ := exists_arguments h
  have hda := ha.distinct hd
  rw [rolesOf_eq hd ha] at h
  have ⟨ordered, ho, h⟩ := bind_eq_ok_iff.mp h
  have ⟨hp, hle⟩ := inOrder_eq_ok ho
  have hg := (mapM_argumentOf_eq_ok_iff fun m hm => hda.of_mem (hp.subset hm)).mp h
  refine ⟨⟨args, ordered, ha, hp, hg⟩, ?_⟩
  have hne : ordered.Pairwise fun a b => a.1 ≠ b.1 :=
    List.pairwise_map.mp ((hp.map Prod.fst).nodup_iff.mpr hda.nodup)
  exact pairwise_of_forall₂ hg (hne.and hle) fun hr hr' hm => hr.precedes hr' hm.left hm.right

theorem exists_rolesOf_eq_ok (hd : (Json.object entry).Distinct) (ha : Arguments entry args)
    (hv : ∀ m ∈ args, IsRegister m.1 ∧ IsNamed m.2) :
    ∃ roles, rolesOf n entry = .ok roles := by
  have ⟨ordered, ho⟩ := exists_inOrder_eq_ok fun m hm => (hv m hm).left
  have hp := (inOrder_eq_ok ho).left
  rw [rolesOf_eq hd ha, ho]
  refine exists_mapM_eq_ok_iff.mpr fun m hm => ?_
  have ⟨r, hr⟩ := exists_gives_iff.mpr (hv m (hp.subset hm))
  exact ⟨r, (argumentOf_eq_ok_iff ((ha.distinct hd).of_mem (hp.subset hm))).mpr hr⟩

theorem returns_iff {t : Text.Loose} (hd : (Json.object entry).Distinct) :
    Returns entry t ↔ t = returnsOf entry := by
  constructor
  case mp =>
    intro h
    cases h
    case absent h => rw [returnsOf, member?_eq_none_iff.mpr h]; rfl
    case value v h hv =>
      rw [returnsOf, hd.member?_eq_some_iff.mpr h]
      cases v
      case object ms => exact absurd rfl (hv ms)
      all_goals rfl
    case register ms v h hx =>
      have hx := (hd.of_mem h).member?_eq_some_iff.mpr hx
      simp only [returnsOf, hd.member?_eq_some_iff.mpr h, hx, Option.getD_some]
    case unregistered ms h hx =>
      simp only [returnsOf, hd.member?_eq_some_iff.mpr h, member?_eq_none_iff.mpr hx,
        Option.getD_some, Option.getD_none]
      rfl
  case mpr =>
    rintro rfl
    cases h : member? "returns" entry
    case none =>
      rw [returnsOf, h]
      exact .absent (member?_eq_none_iff.mp h)
    case some v =>
      have hv := has_of_member? h
      simp only [returnsOf, h, Option.getD_some]
      split
      case h_1 ms =>
        cases hx : member? "x0" ms
        case none => exact .unregistered hv (member?_eq_none_iff.mp hx)
        case some w => exact .register hv (has_of_member? hx)
      case h_2 hne => exact .value hv hne

theorem Describes.unique (hd : (Json.object entry).Distinct) (h : Describes entry e)
    (h' : Describes entry e') : e = e' := by
  have ⟨args, ordered, ha, hp, hg⟩ := h.roles
  have ⟨args', ordered', ha', hp', hg'⟩ := h'.roles
  have hroles : e.roles = e'.roles := by
    cases ha.unique hd ha'
    -- The same members are in another order, so the same arguments are, and an ascending order is
    -- the only one.
    have ⟨roles, hr, hpr⟩ := List.perm_comp_forall₂ (hp.trans hp'.symm) hg'
    have hdo : ∀ m ∈ ordered, m.2.Distinct := fun m hm => (ha.distinct hd).of_mem (hp.subset hm)
    have he : e.roles = roles := Except.ok.inj
      (((mapM_argumentOf_eq_ok_iff (n := 0) hdo).mpr hg).symm.trans
        ((mapM_argumentOf_eq_ok_iff hdo).mpr hr))
    refine (he ▸ hpr).eq_of_pairwise ?_ h.ascending h'.ascending
    rintro a b - - ⟨i, j, hi, hj, hij⟩ ⟨j', i', hj', hi', hji⟩
    cases hi.symm.trans hi'
    cases hj.symm.trans hj'
    omega
  have hname := hd.unique h.name h'.name
  have hreturns := ((returns_iff hd).mp h.returns).trans ((returns_iff hd).mp h'.returns).symm
  cases e
  cases e'
  cases hname
  cases hroles
  cases hreturns
  rfl

variable {key : Text.Loose} {v : Json}

theorem Describes.isEntry (h : Describes entry e) : IsEntry (.object entry) := by
  have ⟨args, ordered, ha, hp, hg⟩ := h.roles
  have hall : ∀ m ∈ ordered, ∃ r, Gives m r :=
    ((List.forall₂_and_left ordered e.roles).mp (hg.imp fun m r h => ⟨⟨r, h⟩, h⟩)).left
  exact .intro h.name ha fun m hm => exists_gives_iff.mp (hall m (hp.symm.subset hm))

theorem describes_of_entryOf (hd : v.Distinct) (h : entryOf key v = .ok (n, e)) :
    numberOf? key = some n ∧ ∃ entry, v = .object entry ∧ Describes entry e := by
  rw [entryOf] at h
  split at h
  case h_2 => cases h
  case h_1 number hn =>
    split at h
    case h_2 => cases h
    case h_1 entry =>
      split at h
      case h_2 => cases h
      case h_1 name hname =>
        have ⟨roles, hr, h⟩ := bind_eq_ok_iff.mp h
        cases h
        have ⟨hroles, hasc⟩ := of_rolesOf_eq_ok hd hr
        exact ⟨hn, entry, rfl, has_of_member? hname, hroles, hasc, (returns_iff hd).mpr rfl⟩

theorem exists_entryOf_iff (hd : v.Distinct) :
    (∃ p, entryOf key v = .ok p) ↔ (∃ n, numberOf? key = some n) ∧ IsEntry v := by
  constructor
  case mp =>
    rintro ⟨⟨n, e⟩, h⟩
    obtain ⟨hn, entry, rfl, he⟩ := describes_of_entryOf hd h
    exact ⟨⟨n, hn⟩, he.isEntry⟩
  case mpr =>
    rintro ⟨⟨n, hn⟩, ⟨hname, ha, hv⟩⟩
    have ⟨roles, hr⟩ := exists_rolesOf_eq_ok (n := n) hd ha hv
    simp only [entryOf, hn, hd.member?_eq_some_iff.mpr hname, hr]
    exact ⟨_, rfl⟩

end Entry

end TableFile

end SvcLens
