import SvcLens.Proofs.Inlays

namespace SvcLens

def HintTable.IsUnbroken (hints : HintTable) : Prop :=
  ∀ n, ∀ x ∈ hints.onLine n, '\r' ∉ x.label.toList ∧ '\n' ∉ x.label.toList

theorem HintTable.isUnbroken_ofEvents {es : List (Int × Hint)}
    (h : ∀ e ∈ es, '\r' ∉ e.2.label.toList ∧ '\n' ∉ e.2.label.toList) :
    (ofEvents es).IsUnbroken := by
  intro n x hx
  rw [onLine_ofEvents] at hx
  obtain ⟨e, he, rfl⟩ := List.mem_map.mp hx
  exact h e (List.mem_of_mem_filter he)

namespace Listing

open Inlay (linesOf)

variable {hints others : HintTable} {text : String} {n : Nat} {l : Text.Line}

def cut (hints : HintTable) (listing : String) : String :=
  Text.ofLines <| (linesOf listing).mapIdx fun n l =>
    { l with chars := l.chars.take (l.chars.length - (suffix (hints.onLine n)).length) }

theorem linesOf_render_of_isUnbroken (h : hints.IsUnbroken) (text : String) :
    linesOf (render text hints) = annotated hints (linesOf text) := by
  refine Inlay.linesOf_render fun n _ x hx => ?_
  obtain ⟨hr, hn⟩ := h n x hx
  exact ⟨hn, fun hl => hr (List.mem_of_getLast? hl)⟩

structure Appends (hints : HintTable) (text listing : String) : Prop where
  count  : (linesOf listing).length = (linesOf text).length
  breaks : (linesOf listing).map (·.ending) = (linesOf text).map (·.ending)
  bare   : ∀ (n : Nat) l, (linesOf text)[n]? = some l → hints.onLine n = [] →
    (linesOf listing)[n]? = some l
  marked : ∀ (n : Nat) l, (linesOf text)[n]? = some l → hints.onLine n ≠ [] →
    (linesOf listing)[n]? = some { l with
      chars := l.chars ++ ("  // " ++ "; ".intercalate ((hints.onLine n).map (·.label))).toList }
  source : cut hints listing = text

theorem getElem?_annotated (h : (linesOf text)[n]? = some l) :
    (annotated hints (linesOf text))[n]? = some (annotate hints n l) := by
  rw [annotated, List.getElem?_mapIdx, h, Option.map_some]

theorem cut_render (h : hints.IsUnbroken) (text : String) :
    cut hints (render text hints) = text := by
  have hlines : ((annotated hints (linesOf text)).mapIdx fun n l =>
      { l with chars := l.chars.take (l.chars.length - (suffix (hints.onLine n)).length) }) =
      linesOf text := by
    refine List.ext_getElem (by simp [annotated]) fun n hn _ => ?_
    simp [annotated, annotate]
  rw [cut, linesOf_render_of_isUnbroken h, hlines, Text.ofLines_splitLines]

theorem appends_render (h : hints.IsUnbroken) (text : String) :
    Appends hints text (render text hints) where
  count := by rw [linesOf_render_of_isUnbroken h, annotated, List.length_mapIdx]
  breaks := by rw [linesOf_render_of_isUnbroken h, map_ending_annotated]
  bare n l hl hn := by
    rw [linesOf_render_of_isUnbroken h, getElem?_annotated hl, annotate, hn, suffix,
      List.isEmpty_nil, if_pos rfl, List.append_nil]
  marked n l hl hn := by
    rw [linesOf_render_of_isUnbroken h, getElem?_annotated hl, annotate, suffix,
      List.isEmpty_eq_false_iff.mpr hn, if_neg Bool.false_ne_true]
  source := cut_render h text

-- The hints of a text only come behind its lines, and those of a second table only behind them.
theorem appends_render_render (h : hints.IsUnbroken) (ho : others.IsUnbroken) (text : String) :
    Appends hints text (render text hints) ∧
    Appends others (render text hints) (render (render text hints) others) ∧
    linesOf (render (render text hints) others) = (linesOf text).mapIdx fun n l =>
      { l with chars := l.chars ++ suffix (hints.onLine n) ++ suffix (others.onLine n) } := by
  refine ⟨appends_render h text, appends_render ho _, ?_⟩
  rw [linesOf_render_of_isUnbroken ho, linesOf_render_of_isUnbroken h, annotated, annotated,
    List.mapIdx_mapIdx]
  rfl

theorem appends_render_render_of_returns :
    let hints := HintTable.ofEvents [(0, ⟨"p", .null⟩), (2, ⟨"", .null⟩), (0, ⟨"q", .null⟩)]
    let others := HintTable.ofEvents [(7, ⟨"s", .null⟩), (0, ⟨"r", .null⟩)]
    hints.IsUnbroken ∧ others.IsUnbroken ∧
      render (render "a\r\r\n\nb\r" hints) others = "a\r  // p; q  // r\r\n\nb\r  // " ∧
      Appends hints "a\r\r\n\nb\r" (render "a\r\r\n\nb\r" hints) := by
  intro hints others
  have h : hints.IsUnbroken := HintTable.isUnbroken_ofEvents (by decide +kernel)
  have ho : others.IsUnbroken := HintTable.isUnbroken_ofEvents (by decide +kernel)
  exact ⟨h, ho, by decide +kernel, (appends_render_render h ho _).left⟩

end Listing

end SvcLens
