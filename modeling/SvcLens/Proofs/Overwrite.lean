import SvcLens.Command.Directory
import SvcLens.Proofs.Sequence

namespace SvcLens.Command.Directory

variable {d : Directory} {place other parent p q : List String} {content : List UInt8}
variable {path name last : String} {origin goal : Goal} {ns : List String}

theorem lookup_filter_ne {α β : Type} [BEq α] [LawfulBEq α] {a b : α} (h : a ≠ b)
    (es : List (α × β)) : (es.filter fun e => e.1 != b).lookup a = es.lookup a := by
  induction es
  case nil => rfl
  case cons e es ih =>
    obtain ⟨k, v⟩ := e
    by_cases hk : k = b
    case pos =>
      have ha : (a == k) = false := beq_false_of_ne (hk ▸ h)
      simp only [List.filter_cons, hk, bne_self_eq_false, Bool.false_eq_true, if_false, ih,
        List.lookup_cons, hk ▸ ha]
    case neg =>
      have hb : (k != b) = true := bne_iff_ne.mpr hk
      simp only [List.filter_cons, hb, if_true, List.lookup_cons, ih]

@[simp]
theorem file?_put_self (d : Directory) (place : List String) (content : List UInt8) :
    (d.put place content).file? place = some content := by
  simp [put, file?]

theorem file?_put_of_ne (h : other ≠ place) :
    (d.put place content).file? other = d.file? other := by
  have ho : (other == place) = false := beq_false_of_ne h
  simp only [put, file?, List.lookup_cons, ho]
  exact lookup_filter_ne h d.files

theorem isFolder_iff : d.isFolder p ↔
    p = [] ∨ (∃ f ∈ d.folders, p <+: f) ∨ ∃ f ∈ d.files, p <+: f.1 ∧ p ≠ f.1 := by
  simp [isFolder, or_assoc]

theorem isFolder_of_prefix (h : d.isFolder q) (hp : p <+: q) : d.isFolder p := by
  rw [isFolder_iff] at h ⊢
  rcases h with rfl | ⟨f, hf, hq⟩ | ⟨f, hf, hq, hne⟩
  case inl => exact .inl (List.prefix_nil.mp hp)
  case inr.inl => exact .inr <| .inl ⟨f, hf, hp.trans hq⟩
  case inr.inr =>
    refine .inr <| .inr ⟨f, hf, hp.trans hq, ?_⟩
    rintro rfl
    exact hne (hq.eq_of_length_le hp.length_le)

-- A file in a directory that is there already makes no new directories.
theorem isFolder_put (h : d.isFolder parent) (name : String) (content : List UInt8)
    (p : List String) : (d.put (parent ++ [name]) content).isFolder p = d.isFolder p := by
  rw [Bool.eq_iff_iff]
  constructor
  case mp =>
    intro hp
    rcases isFolder_iff.mp hp with hp | hp | ⟨f, hf, hp, hne⟩
    case inl => exact isFolder_iff.mpr (.inl hp)
    case inr.inl => exact isFolder_iff.mpr (.inr (.inl hp))
    case inr.inr =>
      rcases List.mem_cons.mp hf with rfl | hf
      case inl =>
        have hp := (List.prefix_concat_iff.mp hp).resolve_left hne
        exact isFolder_of_prefix h hp
      case inr =>
        exact isFolder_iff.mpr (.inr (.inr ⟨f, (List.mem_filter.mp hf).left, hp, hne⟩))
  case mpr =>
    intro hp
    rw [isFolder_iff] at hp ⊢
    rcases hp with hp | hp | ⟨f, hf, hp, hne⟩
    case inl => exact .inl hp
    case inr.inl => exact .inr (.inl hp)
    case inr.inr =>
      -- A file at the place itself gives way to the new one.
      by_cases hf' : f.1 = parent ++ [name]
      case pos => exact .inr (.inr ⟨_, List.mem_cons_self, hf' ▸ hp, hf' ▸ hne⟩)
      case neg =>
        refine .inr (.inr ⟨f, List.mem_cons_of_mem _ ?_, hp, hne⟩)
        exact List.mem_filter.mpr ⟨hf, bne_iff_ne.mpr hf'⟩

theorem isSome_file?_put (h : (d.file? other).isSome) :
    ((d.put place content).file? other).isSome := by
  by_cases ho : other = place
  case pos => simp [ho]
  case neg => rwa [file?_put_of_ne ho]

theorem follow_put (h : d.isFolder parent) (hf : d.follow origin name = .ok goal) :
    (d.put (parent ++ [last]) content).follow origin name = .ok goal := by
  cases origin
  case outside => exact hf
  case inside p =>
    have hnext (hs : d.isFolder (p ++ [name]) || (d.file? (p ++ [name])).isSome) :
        d.isFolder (p ++ [name]) ||
          ((d.put (parent ++ [last]) content).file? (p ++ [name])).isSome := by
      rw [Bool.or_eq_true] at hs ⊢
      exact hs.imp_right isSome_file?_put
    simp only [follow, isFolder_put h] at hf ⊢
    repeat' split at hf
    all_goals simp_all

theorem foldlM_follow_put (h : d.isFolder parent) (hf : ns.foldlM d.follow origin = .ok goal) :
    ns.foldlM (d.put (parent ++ [last]) content).follow origin = .ok goal := by
  induction ns generalizing origin
  case nil => exact hf
  case cons n ns ih =>
    rw [List.foldlM_cons, bind_eq_ok_iff] at hf ⊢
    have ⟨mid, hn, hf⟩ := hf
    exact ⟨mid, follow_put h hn, ih hf⟩

theorem of_length_le_dropWhile (h : ns.length ≤ (ns.reverse.dropWhile (· == "")).reverse.length) :
    (ns.reverse.dropWhile (· == "")).reverse = ns ∧ ns.getLast? ≠ some "" := by
  have he : ns.reverse.dropWhile (· == "") = ns.reverse :=
    (List.dropWhile_suffix (· == "")).eq_of_length_le (by simpa using h)
  refine ⟨by rw [he, List.reverse_reverse], fun hl => ?_⟩
  have ⟨init, hns⟩ := List.getLast?_eq_some_iff.mp hl
  rw [hns, List.reverse_concat, List.dropWhile_cons_of_pos (by rfl)] at he
  have := (List.dropWhile_sublist (· == "") (l := init.reverse)).length_le
  rw [he, List.length_cons] at this
  omega

theorem target_eq_ok (h : d.target path = .ok place) :
    ∃ origin init name parent, start path = .ok (origin, init ++ [name]) ∧
      init.foldlM d.follow origin = .ok (.inside parent) ∧ d.isFolder parent ∧
      name ∉ ["", ".", ".."] ∧ byteLength name ≤ maxName ∧ place = parent ++ [name] := by
  obtain ⟨⟨origin, ns⟩, hs, h⟩ := bind_eq_ok_iff.mp h
  obtain ⟨goal, hg, hgoal⟩ := bind_eq_ok_iff.mp h
  split at hgoal
  case h_1 | h_3 => contradiction
  case h_2 =>
    repeat' split at hgoal
    all_goals contradiction
  case h_4 parent name hl =>
    repeat' split at hgoal
    case isFalse.isFalse.isFalse.isFalse hf hn hlen _ =>
      simp only [Bool.or_eq_true, decide_eq_true_eq, not_or, Nat.not_lt] at hn
      have ⟨he, hlast⟩ := of_length_le_dropWhile hn.right
      rw [he] at hg hl
      obtain ⟨init, rfl⟩ := List.getLast?_eq_some_iff.mp hl
      rw [List.dropLast_concat] at hg
      have hempty : name ≠ "" := by rintro rfl; exact hlast hl
      refine ⟨origin, init, name, parent, hs, hg, by simpa using hf, ?_, by omega,
        (Except.ok.inj hgoal).symm⟩
      simp [hempty, hn]
    all_goals contradiction

theorem read_put_of_target (h : d.target path = .ok place) (content : List UInt8) :
    (d.put place content).read path = .ok content := by
  obtain ⟨origin, init, name, parent, hs, hg, hp, hn, hlen, rfl⟩ := target_eq_ok h
  have hlast : (d.put (parent ++ [name]) content).follow (.inside parent) name =
      .ok (.inside (parent ++ [name])) := by
    simp_all [follow, isFolder_put hp]
  have hg : (init ++ [name]).foldlM (d.put (parent ++ [name]) content).follow origin =
      .ok (.inside (parent ++ [name])) := by
    rw [List.foldlM_append]
    exact bind_eq_ok_iff.mpr ⟨_, foldlM_follow_put hp hg, bind_eq_ok_iff.mpr ⟨_, hlast, rfl⟩⟩
  refine bind_eq_ok_iff.mpr ⟨_, hs, bind_eq_ok_iff.mpr ⟨_, hg, ?_⟩⟩
  simp

end SvcLens.Command.Directory
