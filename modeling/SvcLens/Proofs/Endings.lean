import SvcLens.Inlay
import SvcLens.Proofs.Extension

namespace SvcLens

namespace Text

variable {l : Line} {ls ms : List Line}

-- Lines that the text of them is cut into again: each of them but the last one has a break, and no
-- break starts earlier than it should.
structure Separable (ls : List Line) : Prop where
  complete : Complete ls
  noFeed   : ∀ l ∈ ls, '\n' ∉ l.chars
  noReturn : ∀ l ∈ ls.dropLast, l.chars.getLast? ≠ some '\r'

def SameChars (ls ms : List Line) : Prop :=
  ls.map (·.chars) = ms.map (·.chars)

def ofLines (ls : List Line) : String :=
  String.ofList (joinLines ls)

theorem ofLines_splitLines (text : String) : ofLines (splitLines text.toList) = text := by
  rw [ofLines, joinLines_splitLines, String.ofList_toList]

theorem Complete.ne_nil (h : Complete ls) : ls ≠ [] := by
  cases h <;> simp

theorem Line.settle_of_getLast?_ne (h : l.chars.getLast? ≠ some '\r') : l.settle = l := by
  simp [settle, h]

theorem map_settle_eq_self (h : Complete ls)
    (hr : ∀ l ∈ ls.dropLast, l.chars.getLast? ≠ some '\r') : ls.map Line.settle = ls := by
  induction h
  case last l hl => simp [Line.settle, hl]
  case cons l ls _ hls ih =>
    rw [List.dropLast_cons_of_ne_nil hls.ne_nil, List.forall_mem_cons] at hr
    rw [List.map_cons, Line.settle_of_getLast?_ne hr.left, ih hr.right]

theorem Separable.splitLines_ofLines (h : Separable ls) : splitLines (ofLines ls).toList = ls := by
  rw [ofLines, String.toList_ofList, splitLines_joinLines h.complete h.noFeed,
    map_settle_eq_self h.complete h.noReturn]

theorem SameChars.exists_mem (h : SameChars ls ms) {m : Line} (hm : m ∈ ms) :
    ∃ l ∈ ls, l.chars = m.chars :=
  List.mem_map.mp (h ▸ List.mem_map_of_mem hm)

theorem SameChars.dropLast (h : SameChars ls ms) : SameChars ls.dropLast ms.dropLast := by
  rw [SameChars, List.map_dropLast, List.map_dropLast, h]

theorem Separable.of_sameChars (h : Separable ls) (hm : Complete ms) (hc : SameChars ls ms) :
    Separable ms where
  complete := hm
  noFeed m hm := by
    have ⟨l, hl, hlm⟩ := hc.exists_mem hm
    exact hlm ▸ h.noFeed l hl
  noReturn m hm := by
    have ⟨l, hl, hlm⟩ := hc.dropLast.exists_mem hm
    exact hlm ▸ h.noReturn l hl

theorem SameChars.getElem? (h : SameChars ls ms) (k : Nat) :
    ls[k]?.map (·.chars) = ms[k]?.map (·.chars) := by
  rw [← List.getElem?_map, ← List.getElem?_map, h]

end Text

variable {ls ms : List Text.Line}

open Text (ofLines SameChars Separable)

theorem TokenTable.linesFrom_congr (h : SameChars ls ms) (n : Nat) :
    linesFrom n ls = linesFrom n ms := by
  induction ls generalizing n ms
  case nil => rw [List.map_eq_nil_iff.mp h.symm]
  case cons l ls ih =>
    cases ms
    case nil => contradiction
    case cons m ms =>
      simp only [SameChars, List.map_cons, List.cons.injEq] at h
      simp only [linesFrom, h.left, ih h.right]

theorem TokenTable.ofText_ofLines_congr (h : Separable ls) (hm : Separable ms)
    (hc : SameChars ls ms) : ofText (ofLines ls) = ofText (ofLines ms) := by
  refine IntMap.ext ?_
  simp only [ofText, h.splitLines_ofLines, hm.splitLines_ofLines]
  exact linesFrom_congr hc 0

theorem Inlay.onLine_congr (h : SameChars ls ms) (n : Int) (hints : List Hint) :
    onLine ls n hints = onLine ms n hints := by
  have hn := h.getElem? n.toNat
  simp only [onLine]
  cases hl : ls[n.toNat]? <;> cases hm : ms[n.toNat]? <;> simp_all

theorem Inlay.ofHints_ofLines_congr (h : Separable ls) (hm : Separable ms) (hc : SameChars ls ms)
    (hints : HintTable) : ofHints (ofLines ls) hints = ofHints (ofLines ms) hints := by
  simp only [ofHints, h.splitLines_ofLines, hm.splitLines_ofLines, onLine_congr hc]

namespace Listing

variable {hints : HintTable} {table : SyscallTable} {file : Option String} {text other : String}
variable {l : Listing}

def annotated (hints : HintTable) (ls : List Text.Line) : List Text.Line :=
  ls.mapIdx (annotate hints)

theorem annotated_congr (h : SameChars ls ms) (hints : HintTable) :
    SameChars (annotated hints ls) (annotated hints ms) := by
  refine List.ext_getElem? fun k => ?_
  have hk := h.getElem? k
  simp only [annotated, List.getElem?_map, List.getElem?_mapIdx]
  cases hl : ls[k]? <;> cases hm : ms[k]? <;> simp_all [annotate]

theorem map_ending_annotated (hints : HintTable) (ls : List Text.Line) :
    (annotated hints ls).map (·.ending) = ls.map (·.ending) := by
  refine List.ext_getElem? fun k => ?_
  simp [annotated, annotate, Function.comp_def]

theorem render_ofLines (h : Separable ls) (hints : HintTable) :
    render (ofLines ls) hints = ofLines (annotated hints ls) := by
  rw [render, h.splitLines_ofLines]
  rfl

theorem ofText_congr (h : TokenTable.ofText text = TokenTable.ofText other) :
    ofText table file other =
      (ofText table file text).map fun l => { l with text := render other l.hints } := by
  simp only [ofText, h]
  cases analyze ⟨table, Syscall.standardStreams, true⟩ (TokenTable.ofText other) <;> rfl

structure SameUpToBreaks (ls ms : List Text.Line) (l m : Listing) : Prop where
  hints       : l.hints = m.hints
  diagnostics : l.diagnostics = m.diagnostics
  inlays      : Inlay.ofHints (ofLines ls) l.hints = Inlay.ofHints (ofLines ms) m.hints
  text        : l.text = ofLines (annotated l.hints ls) ∧ m.text = ofLines (annotated m.hints ms)
  lines       : SameChars (annotated l.hints ls) (annotated m.hints ms)
  breaks      : (annotated l.hints ls).map (·.ending) = ls.map (·.ending) ∧
    (annotated m.hints ms).map (·.ending) = ms.map (·.ending)

-- The choice of breaks is irrelevant: the tokens are the same, both texts are refused for the same
-- number or both are analysed with the same result, and in the listings the same lines stand in
-- front of the breaks of their own text.
theorem ofText_ofLines_eq_up_to_breaks (h : Separable ls) (hm : Text.Complete ms)
    (hc : SameChars ls ms) (table : SyscallTable) (file : Option String) :
    TokenTable.ofText (ofLines ls) = TokenTable.ofText (ofLines ms) ∧
    ((∃ e, ofText table file (ofLines ls) = .error e ∧
        ofText table file (ofLines ms) = .error e) ∨
      ∃ l m, ofText table file (ofLines ls) = .ok l ∧ ofText table file (ofLines ms) = .ok m ∧
        SameUpToBreaks ls ms l m) := by
  have hm := h.of_sameChars hm hc
  have htokens := TokenTable.ofText_ofLines_congr h hm hc
  have hother := @ofText_congr table file _ _ htokens
  refine ⟨htokens, ?_⟩
  cases hl : ofText table file (ofLines ls)
  case error e => exact .inl ⟨e, rfl, by rw [hother, hl]; rfl⟩
  case ok l =>
    have ⟨f, _, hh, ht⟩ := exists_of_ofText hl
    refine .inr ⟨l, _, rfl, by rw [hother, hl]; rfl, ?_⟩
    exact {
      hints := rfl
      diagnostics := rfl
      inlays := Inlay.ofHints_ofLines_congr h hm hc l.hints
      text := ⟨by rw [ht, ← hh, render_ofLines h], render_ofLines hm l.hints⟩
      lines := annotated_congr hc l.hints
      breaks := ⟨map_ending_annotated .., map_ending_annotated ..⟩ }

theorem ofText_ofLines_eq_of_open_string :
    let lines (first third : Text.Break) : List Text.Line :=
      [⟨"mov x8, #172 \x27pid".toList, first⟩, ⟨[], .lf⟩, ⟨"svc\r#0".toList, third⟩,
        ⟨"svc\r".toList, .none⟩]
    Separable (lines .lf .lf) ∧ Text.Complete (lines .crlf .crlf) ∧
      SameChars (lines .lf .lf) (lines .crlf .crlf) ∧
      ∃ l m, ofText Syscall.linux none (ofLines (lines .lf .lf)) = .ok l ∧
        ofText Syscall.linux none (ofLines (lines .crlf .crlf)) = .ok m ∧
        SameUpToBreaks (lines .lf .lf) (lines .crlf .crlf) l m ∧
        m.text = "mov x8, #172 \x27pid  // syscall: getpid (172)\r\n\n" ++
          "svc\r#0  // getpid() → pid of the caller\r\nsvc\r  // expects #0" := by
  intro lines
  have hcomplete (first third : Text.Break) (h : first ≠ .none ∧ third ≠ .none) :
      Text.Complete (lines first third) :=
    .cons h.left (.cons (by simp) (.cons h.right (.last rfl)))
  have hls : Separable (lines .lf .lf) :=
    ⟨hcomplete _ _ (by simp), by decide +kernel, by decide +kernel⟩
  have hms : Text.Complete (lines .crlf .crlf) := hcomplete _ _ (by simp)
  have hm : (ofText Syscall.linux none (ofLines (lines .crlf .crlf))).map (·.text) =
      .ok ("mov x8, #172 \x27pid  // syscall: getpid (172)\r\n\n" ++
        "svc\r#0  // getpid() → pid of the caller\r\nsvc\r  // expects #0") := by decide +kernel
  have ⟨m, hm, ht⟩ := map_eq_ok_iff.mp hm
  refine ⟨hls, hms, rfl, ?_⟩
  cases (ofText_ofLines_eq_up_to_breaks hls hms rfl Syscall.linux none).right
  case inl h =>
    have ⟨e, _, he⟩ := h
    exact absurd (hm.symm.trans he) (by simp)
  case inr h =>
    have ⟨l, m', hl, hm', hs⟩ := h
    obtain rfl := Except.ok.inj (hm.symm.trans hm')
    exact ⟨l, m, hl, hm, hs, ht⟩

end Listing

end SvcLens
