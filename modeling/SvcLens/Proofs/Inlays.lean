import SvcLens.Inlay
import SvcLens.Proofs.StandardInput

namespace SvcLens

namespace IntMap

variable {α β : Type} {es : List (Int × α)} {g : Int → α → List β} {count : Nat}

theorem lookup_eq_none_of_le {k n : Int} (h : ∀ e ∈ es, k < e.1) (hn : n ≤ k) :
    es.lookup n = none := by
  refine Option.eq_none_iff_forall_ne_some.mpr fun a ha => ?_
  have := h _ (mem_of_lookup_eq_some ha)
  omega

theorem exists_range_eq {k : Nat} (h : k < count) :
    ∃ later, List.range count = List.range k ++ k :: later ∧ ∀ n ∈ later, k < n := by
  obtain ⟨j, rfl⟩ := Nat.exists_eq_add_of_le h
  refine ⟨(List.range j).map (k + 1 + ·), ?_, fun n hn => ?_⟩
  · simp [List.range_add, List.range_succ]
  · obtain ⟨i, _, rfl⟩ := List.mem_map.mp hn
    omega

theorem flatMap_range_eq {k : Nat} {f : Nat → List β} (h : k < count)
    (hf : ∀ n, n ≠ k → f n = []) : (List.range count).flatMap f = f k := by
  obtain ⟨later, hr, hlater⟩ := exists_range_eq h
  have hbelow : (List.range k).flatMap f = [] :=
    List.flatMap_eq_nil_iff.mpr fun n hn => hf n (Nat.ne_of_lt (List.mem_range.mp hn))
  have habove : later.flatMap f = [] :=
    List.flatMap_eq_nil_iff.mpr fun n hn => hf n (Nat.ne_of_gt (hlater n hn))
  rw [hr, List.flatMap_append, List.flatMap_cons, hbelow, habove, List.nil_append, List.append_nil]

-- Going through ascending entries is counting through their keys.
theorem flatMap_eq_flatMap_range (h : es.Pairwise (fun a b => a.1 < b.1))
    (hg : ∀ (k : Int) (a : α), k < 0 ∨ (count : Int) ≤ k → g k a = []) :
    es.flatMap (fun e => g e.1 e.2) =
      (List.range count).flatMap fun n : Nat => (es.lookup (n : Int)).elim [] (g n) := by
  induction es
  case nil => simp
  case cons e es ih =>
    obtain ⟨key, a⟩ := e
    have ⟨he, hes⟩ := List.pairwise_cons.mp h
    rw [List.flatMap_cons, ih hes]
    by_cases hk : key < 0 ∨ (count : Int) ≤ key
    case pos =>
      rw [hg key a hk, List.nil_append]
      refine List.flatMap_congr fun n hn => ?_
      have hn : (n : Int) ≠ key := by have := List.mem_range.mp hn; omega
      rw [lookup_cons_ite, if_neg hn]
    case neg =>
      obtain ⟨k, rfl⟩ := Int.eq_ofNat_of_zero_le (a := key) (by omega)
      obtain ⟨later, hr, hlater⟩ := exists_range_eq (show k < count by omega)
      have hnone {n : Nat} (hn : n ≤ k) : es.lookup (n : Int) = none :=
        lookup_eq_none_of_le he (Int.ofNat_le.mpr hn)
      -- Below the first key nothing is found, and above it the first entry plays no part.
      have hbelow : ∀ n ∈ List.range k, n < k := fun n hn => List.mem_range.mp hn
      have hold :
          (List.range k).flatMap (fun n : Nat => (es.lookup (n : Int)).elim [] (g n)) = [] :=
        List.flatMap_eq_nil_iff.mpr fun n hn => by rw [hnone (Nat.le_of_lt (hbelow n hn))]; rfl
      have hskip (n : Nat) (hn : n ≠ k) :
          ((((k : Int), a) :: es).lookup (n : Int)).elim [] (g n) =
            (es.lookup (n : Int)).elim [] (g n) := by
        rw [lookup_cons_ite, if_neg (Int.ofNat_inj.not.mpr hn)]
      rw [hr]
      simp only [List.flatMap_append, List.flatMap_cons]
      rw [List.flatMap_congr fun n hn => hskip n (Nat.ne_of_lt (hbelow n hn)),
        List.flatMap_congr fun n hn => hskip n (Nat.ne_of_gt (hlater n hn)), hold,
        hnone (Nat.le_refl k), lookup_cons_ite, if_pos rfl]
      rfl

end IntMap

namespace Inlay

variable {text : String} {hints other : HintTable} {cs : List Char} {n : Nat} {l : Text.Line}

def StartsComment (cs : List Char) (column : Nat) : Prop :=
  ['/', '/'] <+: cs.drop column ∨ ['@'] <+: cs.drop column

-- The first column where a comment starts, or the length of the line if it has no comment.
structure IsCodeEnd (cs : List Char) (column : Nat) : Prop where
  starts : StartsComment cs column ∨ (∀ k, ¬StartsComment cs k) ∧ column = cs.length
  least : ∀ k < column, ¬StartsComment cs k

theorem startsComment_cons_zero_iff {c : Char} :
    StartsComment (c :: cs) 0 ↔ c = '/' ∧ cs.head? = some '/' ∨ c = '@' := by
  cases cs <;> simp [StartsComment, eq_comm]

theorem isCodeEnd_codeEnd (cs : List Char) : IsCodeEnd cs (codeEnd cs) := by
  fun_induction codeEnd cs
  case case1 => exact ⟨.inr ⟨by simp [StartsComment], rfl⟩, by simp⟩
  case case2 => exact ⟨.inl (by simp [StartsComment]), by simp⟩
  case case3 => exact ⟨.inl (by simp [StartsComment]), by simp⟩
  case case4 c cs hat hslash ih =>
    have hzero : ¬StartsComment (c :: cs) 0 := by
      rw [startsComment_cons_zero_iff]
      rintro (⟨rfl, h⟩ | rfl)
      · obtain ⟨rest, rfl⟩ := List.head?_eq_some_iff.mp h
        exact hslash rest rfl rfl
      · exact hat rfl
    refine ⟨ih.starts.imp id fun h => ⟨fun k => ?_, congrArg (· + 1) h.right⟩, fun k hk => ?_⟩
    · cases k
      case zero => exact hzero
      case succ k => exact h.left k
    · cases k
      case zero => exact hzero
      case succ k => exact ih.least k (Nat.lt_of_succ_lt_succ hk)

abbrev linesOf (text : String) : List Text.Line := Text.splitLines text.toList

theorem onLine_of_getElem? (h : (linesOf text)[n]? = some l) (hs : List Hint) :
    onLine (linesOf text) n hs =
      hs.map fun x => ⟨n, codeEnd l.chars, " ⟵ " ++ x.label⟩ := by
  simp [onLine, h]

theorem onLine_eq_nil {k : Int} (h : k < 0 ∨ ((linesOf text).length : Int) ≤ k)
    (hs : List Hint) : onLine (linesOf text) k hs = [] := by
  unfold onLine
  split
  case isTrue => rfl
  case isFalse hk =>
    have : (linesOf text)[k.toNat]? = none := List.getElem?_eq_none (by omega)
    simp only [this]

theorem onLine_nil (lines : List Text.Line) (k : Int) : onLine lines k [] = [] := by
  unfold onLine
  split
  case isTrue => rfl
  case isFalse => split <;> rfl

theorem line_of_mem_onLine {lines : List Text.Line} {k : Int} {hs : List Hint} {i : Inlay}
    (h : i ∈ onLine lines k hs) : (i.line : Int) = k ∧ i.line < lines.length := by
  unfold onLine at h
  split at h
  case isTrue => contradiction
  case isFalse hk =>
    split at h
    case h_1 => contradiction
    case h_2 l hl =>
      obtain ⟨x, _, rfl⟩ := List.mem_map.mp h
      exact ⟨Int.toNat_of_nonneg (by omega), (List.getElem?_eq_some_iff.mp hl).choose⟩

theorem ofHints_eq_flatMap_range (text : String) (hints : HintTable) :
    ofHints text hints = (List.range (linesOf text).length).flatMap fun n : Nat =>
      onLine (linesOf text) n (hints.onLine n) := by
  have h := IntMap.flatMap_eq_flatMap_range hints.ascending
    fun k hs (hk : k < 0 ∨ ((linesOf text).length : Int) ≤ k) => onLine_eq_nil hk hs
  rw [ofHints, h]
  refine List.flatMap_congr fun n _ => ?_
  rw [HintTable.onLine, IntMap.get?]
  cases hints.entries.lookup (n : Int)
  case none => exact (onLine_nil _ n).symm
  case some => rfl

theorem ascending_ofHints (text : String) (hints : HintTable) :
    (ofHints text hints).Pairwise (·.line ≤ ·.line) := by
  rw [ofHints_eq_flatMap_range, List.pairwise_flatMap]
  refine ⟨fun n _ => ?_, List.pairwise_lt_range.imp fun {m n} hmn i hi j hj => ?_⟩
  · refine List.pairwise_of_forall_mem_list fun i hi j hj => ?_
    have := line_of_mem_onLine hi
    have := line_of_mem_onLine hj
    omega
  · have := line_of_mem_onLine hi
    have := line_of_mem_onLine hj
    omega

theorem lt_of_mem_ofHints {i : Inlay} (h : i ∈ ofHints text hints) :
    i.line < (linesOf text).length := by
  have ⟨_, _, h⟩ := List.mem_flatMap.mp h
  exact (line_of_mem_onLine h).right

theorem filter_line_ofHints (h : (linesOf text)[n]? = some l) :
    (ofHints text hints).filter (·.line = n) =
      (hints.onLine n).map fun x => ⟨n, codeEnd l.chars, " ⟵ " ++ x.label⟩ := by
  obtain ⟨hn, _⟩ := List.getElem?_eq_some_iff.mp h
  rw [ofHints_eq_flatMap_range, List.filter_flatMap, IntMap.flatMap_range_eq hn,
    onLine_of_getElem? h]
  · simp [List.filter_map, Function.comp_def]
  · intro m hm
    refine List.filter_eq_nil_iff.mpr fun i hi => ?_
    have := line_of_mem_onLine hi
    simp only [decide_eq_true_eq]
    omega

theorem length_ofHints_of_analyze {c : Analysis.Context} {f : Analysis.Findings}
    (h : analyze c (.ofText text) = .ok f) :
    (ofHints text f.hintTable).length = (f.hintTable.entries.map (·.2.length)).sum := by
  rw [ofHints, List.length_flatMap]
  refine congrArg List.sum (List.map_congr_left fun e he => ?_)
  obtain ⟨line, hs⟩ := e
  cases hs
  case nil => exact congrArg List.length (onLine_nil _ line)
  case cons x xs =>
    have hx : x ∈ f.hintTable.onLine line := by
      rw [HintTable.onLine, IntMap.get?_eq_some_iff.mpr he]
      exact List.mem_cons_self
    obtain ⟨k, rfl, hk⟩ := Analysis.lt_length_of_mem_hintTable h hx
    rw [onLine_of_getElem? (List.getElem?_eq_getElem hk), List.length_map]

structure Shows (text : String) (hints : HintTable) (inlays : List Inlay) (listing : String) :
    Prop where
  ascending : inlays.Pairwise (·.line ≤ ·.line)
  inside : ∀ i ∈ inlays, i.line < (linesOf text).length
  labels : ∀ n l, (linesOf text)[n]? = some l → ∃ column, IsCodeEnd l.chars column ∧
    inlays.filter (·.line = n) = (hints.onLine n).map fun x => ⟨n, column, " ⟵ " ++ x.label⟩
  lines : ∃ shown, listing = Text.ofLines shown ∧ shown.length = (linesOf text).length ∧
    (∀ n l m, (linesOf text)[n]? = some l → shown[n]? = some m → m.ending = l.ending ∧
      m.chars = if ∃ i ∈ inlays, i.line = n then
          l.chars ++ ("  // " ++ "; ".intercalate ((hints.onLine n).map (·.label))).toList
        else l.chars) ∧
    ((∀ n < shown.length, ∀ x ∈ hints.onLine n,
        Text.IsOneLine x.label ∧ Text.IsSettled x.label) →
      linesOf listing = shown)

theorem exists_mem_ofHints_iff (h : (linesOf text)[n]? = some l) :
    (∃ i ∈ ofHints text hints, i.line = n) ↔ hints.onLine n ≠ [] := by
  have hf : (ofHints text hints).filter (·.line = n) = [] ↔ hints.onLine n = [] := by
    rw [filter_line_ofHints h, List.map_eq_nil_iff]
  rw [Ne, ← hf, List.filter_eq_nil_iff]
  simp

theorem chars_annotate (hints : HintTable) (n : Nat) (l : Text.Line) :
    (Listing.annotate hints n l).chars = if hints.onLine n ≠ [] then
        l.chars ++ ("  // " ++ "; ".intercalate ((hints.onLine n).map (·.label))).toList
      else l.chars := by
  cases h : hints.onLine n <;> simp [Listing.annotate, Listing.suffix, h]

theorem settle_annotate (h : l.settle = l) (hs : ∀ x ∈ hints.onLine n, Text.IsSettled x.label) :
    (Listing.annotate hints n l).settle = Listing.annotate hints n l := by
  cases hn : hints.onLine n
  case nil => simpa [Listing.annotate, Listing.suffix, hn] using h
  case cons x xs =>
    refine Text.Line.settle_of_getLast?_ne ?_
    obtain ⟨more, hmore⟩ := Listing.exists_suffix_eq (hn ▸ List.cons_ne_nil x xs)
    have hne : Listing.suffix (hints.onLine n) ≠ [] := by simp [hmore]
    rw [Listing.annotate, List.getLast?_append_of_ne_nil _ hne]
    exact Listing.getLast?_suffix_ne hs

theorem linesOf_render (h : ∀ n < (linesOf text).length, ∀ x ∈ hints.onLine n,
      Text.IsOneLine x.label ∧ Text.IsSettled x.label) :
    linesOf (Listing.render text hints) = Listing.annotated hints (linesOf text) := by
  rw [linesOf, Listing.splitLines_render fun n hn x hx => (h n hn x hx).left]
  refine List.ext_getElem (by simp [Listing.annotated]) fun n hn _ => ?_
  rw [List.length_mapIdx] at hn
  simp only [Listing.annotated, List.getElem_mapIdx]
  exact settle_annotate (Text.settle_of_mem_splitLines (List.getElem_mem hn))
    fun x hx => (h n hn x hx).right

theorem shows_ofHints_render (text : String) (hints : HintTable) :
    Shows text hints (ofHints text hints) (Listing.render text hints) where
  ascending := ascending_ofHints text hints
  inside _ := lt_of_mem_ofHints
  labels n l h := ⟨codeEnd l.chars, isCodeEnd_codeEnd l.chars, filter_line_ofHints h⟩
  lines := by
    refine ⟨Listing.annotated hints (linesOf text), rfl, by simp [Listing.annotated], ?_, ?_⟩
    · intro n l m hl hm
      obtain rfl : Listing.annotate hints n l = m := by simpa [Listing.annotated, hl] using hm
      refine ⟨rfl, ?_⟩
      rw [chars_annotate]
      simp only [exists_mem_ofHints_iff hl]
    · intro h
      rw [Listing.annotated, List.length_mapIdx] at h
      exact linesOf_render h

theorem annotated_eq_of_onLine_eq {ls : List Text.Line}
    (h : ∀ n < ls.length, other.onLine n = hints.onLine n) :
    Listing.annotated other ls = Listing.annotated hints ls := by
  refine List.ext_getElem (by simp [Listing.annotated]) fun n hn _ => ?_
  rw [Listing.annotated, List.length_mapIdx] at hn
  simp only [Listing.annotated, List.getElem_mapIdx, Listing.annotate, h n hn]

-- Inlays and listing show the same hints line by line, those that are on no line of the text make
-- no difference to either, and those of an analysis are all shown.
theorem shows_all_hints (text : String) (hints : HintTable) :
    Shows text hints (ofHints text hints) (Listing.render text hints) ∧
    (∀ other : HintTable, (∀ n < (linesOf text).length, other.onLine n = hints.onLine n) →
      ofHints text other = ofHints text hints ∧
        Listing.render text other = Listing.render text hints) ∧
    (∀ c f, analyze c (.ofText text) = .ok f →
      (ofHints text f.hintTable).length = (f.hintTable.entries.map (·.2.length)).sum) := by
  refine ⟨shows_ofHints_render text hints, fun other h => ⟨?_, ?_⟩, fun c f h => ?_⟩
  · rw [ofHints_eq_flatMap_range, ofHints_eq_flatMap_range]
    exact List.flatMap_congr fun n hn => by rw [h n (List.mem_range.mp hn)]
  · exact congrArg Text.ofLines (annotated_eq_of_onLine_eq h)
  · exact length_ofHints_of_analyze h

theorem shows_all_hints_of_stray_keys :
    let text := "mov x0, #1 // @\r\nnop"
    let hints := HintTable.ofEvents
      [(7, ⟨"d", .null⟩), (0, ⟨"b", .null⟩), (-1, ⟨"a", .null⟩), (0, ⟨"c", .null⟩)]
    ofHints text hints = [⟨0, 11, " ⟵ b"⟩, ⟨0, 11, " ⟵ c"⟩] ∧
      Listing.render text hints = "mov x0, #1 // @  // b; c\r\nnop" ∧
      Shows text hints (ofHints text hints) (Listing.render text hints) :=
  ⟨by decide +kernel, by decide +kernel, (shows_all_hints _ _).left⟩

end Inlay

end SvcLens
