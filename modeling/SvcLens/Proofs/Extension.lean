import Mathlib.Algebra.Order.BigOperators.Group.List
import Mathlib.Algebra.Order.Ring.Nat
import Mathlib.Data.List.Forall2
import SvcLens.Proofs.Reanalysis
import SvcLens.Syscall.TableFile

namespace SvcLens

namespace Text

variable {c : Char} {cs : List Char} {s t : String} {ss : List String} {ls : List Line}

theorem length_consChar (c : Char) (h : ls ≠ []) : (consChar c ls).length = ls.length := by
  cases ls
  case nil => contradiction
  case cons => rfl

theorem length_splitLines (cs : List Char) : (splitLines cs).length = cs.count '\n' + 1 := by
  fun_induction splitLines cs
  case case1 => rfl
  case case2 ih => simp [ih]
  case case3 ih => simp [ih]
  case case4 c cs _ hc ih =>
    rw [length_consChar c (splitLines_ne_nil cs), ih, List.count_cons_of_ne (by simpa using hc)]

theorem count_joinLines_cons (c : Char) (l : Line) (ls : List Line) :
    (joinLines (l :: ls)).count c =
      l.chars.count c + l.ending.chars.count c + (joinLines ls).count c := by
  simp [joinLines, Nat.add_assoc]

theorem count_joinLines_mapIdx (c : Char) (ls : List Line) (s : Nat → List Char) :
    (joinLines (ls.mapIdx fun n l => { l with chars := l.chars ++ s n })).count c =
      (joinLines ls).count c + ((List.range ls.length).map fun n => (s n).count c).sum := by
  induction ls generalizing s
  case nil => rfl
  case cons l ls ih =>
    rw [List.mapIdx_cons, count_joinLines_cons, count_joinLines_cons, ih fun n => s (n + 1)]
    simp [List.range_succ_eq_map, Function.comp_def]
    omega

theorem isOneLine_of_mem_of_intercalate (h : IsOneLine (s.intercalate ss)) (ht : t ∈ ss) :
    IsOneLine t := by
  induction ss
  case nil => contradiction
  case cons u ss ih =>
    cases ss
    case nil => simpa [List.mem_singleton.mp ht] using h
    case cons =>
      rw [String.intercalate_cons_of_ne_nil (by simp), isOneLine_append, isOneLine_append] at h
      cases List.mem_cons.mp ht
      case inl ht => exact ht ▸ h.left.left
      case inr ht => exact ih h.right ht

end Text

namespace Listing

variable {hints : HintTable} {hs : List Hint} {text : String} {k : Nat} {l : Text.Line}

theorem lf_notMem_suffix_iff : '\n' ∉ suffix hs ↔ ∀ x ∈ hs, Text.IsOneLine x.label := by
  constructor
  case mpr => exact lf_notMem_suffix
  case mp =>
    intro h x hx
    have hs : hs.isEmpty = false := List.isEmpty_eq_false_iff.mpr (List.ne_nil_of_mem hx)
    simp only [suffix, hs] at h
    have h := (Text.isOneLine_append.mp h).right
    exact Text.isOneLine_of_mem_of_intercalate h (List.mem_map_of_mem hx)

-- A listing has as many lines more than its source as there are line feeds behind the lines.
theorem length_splitLines_render (text : String) (hints : HintTable) :
    (Text.splitLines (render text hints).toList).length =
      (Text.splitLines text.toList).length +
        ((List.range (Text.splitLines text.toList).length).map fun n : Nat =>
          (suffix (hints.onLine n)).count '\n').sum := by
  have h := Text.count_joinLines_mapIdx '\n' (Text.splitLines text.toList)
    fun n : Nat => suffix (hints.onLine n)
  have hlength := Text.length_splitLines text.toList
  rw [Text.joinLines_splitLines] at h
  rw [Text.length_splitLines, render, String.toList_ofList, h]
  omega

def IsExtension (l m : Text.Line) : Prop :=
  m.chars = l.chars ∨ ∃ more, m.chars = l.chars ++ "  // ".toList ++ more

def KeepsLines (text listing : String) : Prop :=
  List.Forall₂ IsExtension (Text.splitLines text.toList) (Text.splitLines listing.toList)

theorem isExtension_annotate (h : l.settle = l) : IsExtension l (annotate hints k l).settle := by
  cases hs : hints.onLine k
  case nil =>
    refine .inl ?_
    simp only [annotate, hs, suffix, List.isEmpty_nil, if_true, List.append_nil, h]
  case cons x xs =>
    obtain ⟨more, hmore⟩ := exists_suffix_eq (List.cons_ne_nil x xs)
    obtain ⟨more', hchars⟩ := exists_settle_chars l.chars more l.ending
    refine .inr ⟨more', ?_⟩
    rw [annotate, hs, hmore, hchars]
    simp [mark]

theorem keepsLines_render (h : ∀ n, ∀ x ∈ hints.onLine n, Text.IsOneLine x.label) :
    KeepsLines text (render text hints) := by
  rw [KeepsLines, splitLines_render fun k _ => h k, List.forall₂_iff_get]
  refine ⟨by simp, fun n hn _ => ?_⟩
  simp only [List.get_eq_getElem, List.getElem_mapIdx]
  exact isExtension_annotate (Text.settle_of_mem_splitLines (List.getElem_mem hn))

theorem isOneLine_of_keepsLines (h : KeepsLines text (render text hints)) (n : Nat)
    (hn : n < (Text.splitLines text.toList).length) :
    ∀ x ∈ hints.onLine n, Text.IsOneLine x.label := by
  have hsum := h.length_eq.trans (length_splitLines_render text hints)
  have hmem := List.mem_map_of_mem (f := fun n : Nat => (suffix (hints.onLine n)).count '\n')
    (List.mem_range.mpr hn)
  have hle := List.single_le_sum (fun _ _ => Nat.zero_le _) _ hmem
  exact lf_notMem_suffix_iff.mp (List.count_eq_zero.mp (by omega))

end Listing

namespace Analysis

variable {c : Context} {tokens : TokenTable} {e : Int × Hint}

theorem exists_get?_of_mem_events (h : e ∈ events c tokens) : ∃ ts, tokens.get? e.1 = some ts := by
  obtain ⟨⟨line, ts⟩, hmem, he⟩ := List.mem_flatMap.mp h
  have hts : tokens.get? line = some ts := IntMap.get?_eq_some_iff.mpr hmem
  have hset {r : Tracked} {a : Assignment} (ha : tokens.lastBefore line r = some a) :
      ∃ ts, tokens.get? a.line = some ts := by
    obtain ⟨us, hus, _⟩ := (TokenTable.lastBefore_eq_some_iff.mp ha).assigns
    exact ⟨us, hus⟩
  rcases mem_eventsAt he with ⟨_, rfl⟩ | ⟨_, set, n, s, hn, _, he⟩
  case inl => exact ⟨ts, hts⟩
  case inr =>
    simp only [callEvents, List.mem_append, List.mem_cons, List.mem_flatMap, List.not_mem_nil,
      or_false] at he
    rcases he with (rfl | ⟨a, _, he⟩) | rfl
    case inl.inl => exact hset hn
    case inr => exact ⟨ts, hts⟩
    case inl.inr =>
      obtain ⟨arg, harg, hl, _⟩ := mem_argumentEvents he
      obtain ⟨r, _, hr⟩ := Option.bind_eq_some_iff.mp harg
      exact hl ▸ hset hr

theorem lt_length_of_mem_hintTable {text : String} {f : Findings} {n : Int} {x : Hint}
    (h : analyze c (.ofText text) = .ok f) (hx : x ∈ f.hintTable.onLine n) :
    ∃ k : Nat, n = k ∧ k < (Text.splitLines text.toList).length := by
  rw [Findings.hintTable, HintTable.onLine_ofEvents, hints_of_analyze_eq_ok h] at hx
  obtain ⟨e, he, _⟩ := List.mem_map.mp hx
  obtain ⟨hmem, hn⟩ := List.mem_filter.mp he
  obtain ⟨ts, hts⟩ := exists_get?_of_mem_events hmem
  rw [eq_of_beq hn] at hts
  obtain ⟨k, m, hk, hm, _⟩ := TokenTable.exists_of_get?_ofText hts
  exact ⟨k, hk, (List.getElem?_eq_some_iff.mp hm).choose⟩

end Analysis

namespace Listing

variable {text : String} {table : SyscallTable} {file : Option String} {l : Listing}

theorem exists_of_ofText (h : ofText table file text = .ok l) :
    ∃ f, analyze ⟨table, Syscall.standardStreams, true⟩ (.ofText text) = .ok f ∧
      l.hints = f.hintTable ∧ l.text = render text f.hintTable := by
  have ⟨f, hf, hl⟩ := bind_eq_ok_iff.mp h
  obtain rfl := pure_eq_ok_iff.mp hl
  exact ⟨f, hf, rfl, rfl⟩

theorem lt_length_of_mem_hints {n : Int} {x : Hint} (h : ofText table file text = .ok l)
    (hx : x ∈ l.hints.onLine n) : ∃ k : Nat, n = k ∧ k < (Text.splitLines text.toList).length := by
  obtain ⟨f, hf, hh, _⟩ := exists_of_ofText h
  exact Analysis.lt_length_of_mem_hintTable hf (hh ▸ hx)

-- A listing keeps the lines of its source exactly if its hints are on one line each, and a table
-- without line feeds makes sure of that.
theorem keepsLines_iff (h : ofText table file text = .ok l) :
    (KeepsLines text l.text ↔ ∀ n, ∀ x ∈ l.hints.onLine n, Text.IsOneLine x.label) ∧
      (table.IsOneLine → KeepsLines text l.text) := by
  have ⟨f, hf, hh, ht⟩ := exists_of_ofText h
  rw [ht, hh]
  refine ⟨⟨fun hk n x hx => ?_, keepsLines_render⟩, fun htable => ?_⟩
  · obtain ⟨k, rfl, hlt⟩ := lt_length_of_mem_hints h (hh ▸ hx)
    exact isOneLine_of_keepsLines hk k hlt x hx
  · have hfits := fits_hintTable ⟨htable, fun n name => Syscall.isOneLine_standardStreams⟩ hf
    exact keepsLines_render fun n x hx => (hfits n x hx).label

theorem keepsLines_iff_of_linux :
    ∃ l, ofText Syscall.linux none "mov x8, #172\r\nsvc #0\n" = .ok l ∧
      l.text = "mov x8, #172  // syscall: getpid (172)\r\n" ++
        "svc #0  // getpid() → pid of the caller\n" ∧
      KeepsLines "mov x8, #172\r\nsvc #0\n" l.text ∧
      ∀ n, ∀ x ∈ l.hints.onLine n, Text.IsOneLine x.label := by
  have h : (ofText Syscall.linux none "mov x8, #172\r\nsvc #0\n").map (·.text) =
      .ok ("mov x8, #172  // syscall: getpid (172)\r\n" ++
        "svc #0  // getpid() → pid of the caller\n") := by decide +kernel
  have ⟨l, hl, ht⟩ := map_eq_ok_iff.mp h
  have ⟨hiff, hlinux⟩ := keepsLines_iff hl
  exact ⟨l, hl, ht, hlinux Syscall.isOneLine_linux, hiff.mp (hlinux Syscall.isOneLine_linux)⟩

-- A table file that is accepted, and names a system call with a line feed in its name. The rest of
-- the name stands on a line of its own, and no longer in a comment.
theorem not_keepsLines_of_name :
    ∃ f l, TableFile.load
        (Text.Utf8.encode "\x7b\"1\": \x7b\"name\": \"ud2\\nud2\"\x7d\x7d") = .ok f ∧
      ofText (f.syscalls Text.Surrogate.standIn) none "mov x8, #1\nsvc #0" = .ok l ∧
      l.text = "mov x8, #1  // syscall: ud2\nud2 (1)\nsvc #0  // ud2\nud2() → " ∧
      ¬KeepsLines "mov x8, #1\nsvc #0" l.text := by
  have h : (TableFile.load
      (Text.Utf8.encode "\x7b\"1\": \x7b\"name\": \"ud2\\nud2\"\x7d\x7d")).map (fun f =>
      (ofText (f.syscalls Text.Surrogate.standIn) none "mov x8, #1\nsvc #0").map (·.text)) =
      .ok (.ok "mov x8, #1  // syscall: ud2\nud2 (1)\nsvc #0  // ud2\nud2() → ") := by
    decide +kernel
  have ⟨f, hf, h⟩ := map_eq_ok_iff.mp h
  have ⟨l, hl, ht⟩ := map_eq_ok_iff.mp h
  refine ⟨f, l, hf, hl, ht, fun hk => ?_⟩
  have hlength := hk.length_eq
  rw [ht, Text.length_splitLines, Text.length_splitLines] at hlength
  exact absurd hlength (by decide +kernel)

end Listing

end SvcLens
