import SvcLens.Listing
import SvcLens.Proofs.Lines
import SvcLens.Proofs.Placement

namespace SvcLens

open Instruction

namespace Text

variable {c : Char} {cs : List Char} {ls : List Line}

theorem mem_dropWhile {p : Char → Bool} (hc : c ∈ cs) (hp : ¬p c) : c ∈ cs.dropWhile p := by
  rw [← List.takeWhile_append_dropWhile (p := p) (l := cs), List.mem_append] at hc
  cases hc
  case inl hc => exact absurd (List.mem_takeWhile_imp hc) hp
  case inr hc => exact hc

theorem mem_trim (hc : c ∈ cs) (hb : ¬isBlank c) : c ∈ trim cs := by
  have h := mem_dropWhile hc hb
  exact List.mem_reverse.mpr <| mem_dropWhile (List.mem_reverse.mpr h) hb

theorem Complete.mapIdx {f : Nat → Line → Line} (h : Complete ls)
    (hf : ∀ n l, (f n l).ending = l.ending) : Complete (ls.mapIdx f) := by
  induction h generalizing f
  case last l hl => exact .last (hf 0 l ▸ hl)
  case cons l ls hl _ ih =>
    rw [List.mapIdx_cons]
    exact .cons (hf 0 l ▸ hl) (ih fun n => hf (n + 1))

end Text

namespace TokenTable

variable {n : Nat} {ls : List Text.Line}

def readings (es : List (Int × List Token)) : List (Int × Instruction) :=
  es.map fun e => (e.1, ofTokens e.2)

structure SameReading (l m : Text.Line) : Prop where
  blank       : (Text.trim l.chars).isEmpty = (Text.trim m.chars).isEmpty
  instruction : ofTokens (Token.scanFrom 0 l.chars) = ofTokens (Token.scanFrom 0 m.chars)

theorem readings_linesFrom_mapIdx {f : Nat → Text.Line → Text.Line}
    (h : ∀ k l, ls[k]? = some l → SameReading (f k l) l) :
    readings (linesFrom n (ls.mapIdx f)) = readings (linesFrom n ls) := by
  induction ls generalizing n f
  case nil => rfl
  case cons l ls ih =>
    have ⟨hb, hi⟩ := h 0 l rfl
    have ih := @ih (n + 1) (fun k => f (k + 1)) fun k m hm => h (k + 1) m (by simpa using hm)
    rw [List.mapIdx_cons, linesFrom, linesFrom, hb]
    split
    case isTrue => exact ih
    case isFalse => simpa only [readings, List.map_cons, hi] using congrArg _ ih

end TokenTable

namespace Analysis

-- The pass looks at the tokens of a line only to read its instruction.
theorem findingsFrom_congr {c : Context} {es ds : List (Int × List Token)} {rs : Registers}
    (h : TokenTable.readings es = TokenTable.readings ds) :
    findingsFrom c rs es = findingsFrom c rs ds := by
  induction es generalizing ds rs
  case nil => rw [List.map_eq_nil_iff.mp h.symm]
  case cons e es ih =>
    cases ds
    case nil => contradiction
    case cons d ds =>
      simp only [TokenTable.readings, List.map_cons, List.cons.injEq, Prod.mk.injEq] at h
      have ⟨⟨hl, hi⟩, h⟩ := h
      simp only [findingsFrom, hl, hi, ih h]

end Analysis

namespace Listing

variable {hints : HintTable} {hs : List Hint} {cs : List Char} {k : Nat} {l : Text.Line}
variable {text : String}

def annotate (hints : HintTable) (n : Nat) (l : Text.Line) : Text.Line :=
  { l with chars := l.chars ++ suffix (hints.onLine n) }

theorem lf_notMem_suffix (h : ∀ x ∈ hs, Text.IsOneLine x.label) : '\n' ∉ suffix hs := by
  unfold suffix
  split
  case isTrue => exact List.not_mem_nil
  case isFalse =>
    have hlabels : Text.IsOneLine ("; ".intercalate (hs.map (·.label))) :=
      Text.isOneLine_intercalate (by decide) (List.forall_mem_map.mpr h)
    exact Text.isOneLine_append.mpr ⟨by decide, hlabels⟩

def mark : List Char :=
  [' ', ' ', '/', '/']

theorem exists_suffix_eq (h : hs ≠ []) : ∃ more, suffix hs = mark ++ ' ' :: more := by
  have hs : hs.isEmpty = false := List.isEmpty_eq_false_iff.mpr h
  exact ⟨_, by simp only [suffix, hs, String.toList_append]; rfl⟩

-- When the line is cut off again, it loses at most the end of the comment.
theorem exists_settle_chars (cs more : List Char) (ending : Text.Break) :
    ∃ more', (Text.Line.settle ⟨cs ++ (mark ++ ' ' :: more), ending⟩).chars =
      cs ++ (mark ++ ' ' :: more') := by
  unfold Text.Line.settle
  split
  case isFalse => exact ⟨more, rfl⟩
  case isTrue h =>
    have hmore : more ≠ [] := by
      rintro rfl
      simp at h
    refine ⟨more.dropLast, ?_⟩
    simp [List.dropLast_append_of_ne_nil, List.dropLast_cons_of_ne_nil hmore]

theorem head?_scanFrom_mark (col : Nat) (more : List Char) :
    (Token.scanFrom col (mark ++ more)).head?.map (·.text) ≠ some "#0" := by
  have ⟨kind, word, us, hus, _⟩ := @Token.scanFrom_cons '/' (by decide) (col + 1 + 1) ('/' :: more)
  simp only [mark, List.cons_append, List.nil_append]
  rw [Token.scanFrom_of_isSeparator (by decide), Token.scanFrom_of_isSeparator (by decide), hus]
  intro h
  simp only [List.head?_cons, Option.map_some, Option.some.injEq, Token.ofChars] at h
  have := congrArg String.toList h
  simp at this

theorem ofTokens_scanFrom_mark (h : (ofTokens (Token.scanFrom 0 cs)).isEffective)
    (more : List Char) :
    ofTokens (Token.scanFrom 0 (cs ++ (mark ++ more))) = ofTokens (Token.scanFrom 0 cs) := by
  have ht : ∀ c ∈ (mark ++ more).head?, Token.isSeparator c := by simp [mark, Token.isSeparator]
  exact ofTokens_continued ((Token.scanned_scanFrom 0 cs).continued ht) h
    (head?_scanFrom_mark _ more)

theorem sameReading_comment (hb : ¬(Text.trim l.chars).isEmpty)
    (h : (ofTokens (Token.scanFrom 0 l.chars)).isEffective) (hn : hs ≠ []) :
    TokenTable.SameReading (Text.Line.settle { l with chars := l.chars ++ suffix hs }) l := by
  have ⟨more, hmore⟩ := exists_suffix_eq hn
  have ⟨more', hchars⟩ := exists_settle_chars l.chars more l.ending
  constructor
  case blank =>
    have hmem : '/' ∈ Text.trim (l.chars ++ (mark ++ ' ' :: more')) :=
      Text.mem_trim (by simp [mark]) (by decide)
    rw [hmore, hchars, Bool.eq_false_iff.mpr hb]
    exact List.isEmpty_eq_false_iff.mpr (List.ne_nil_of_mem hmem)
  case instruction => rw [hmore, hchars, ofTokens_scanFrom_mark h]

def Fits (text : String) (hints : HintTable) : Prop :=
  ∀ n x, x ∈ hints.onLine n → Analysis.Placed (.ofText text) (n, x)

theorem splitLines_render (h : ∀ k < (Text.splitLines text.toList).length,
      ∀ x ∈ hints.onLine k, Text.IsOneLine x.label) :
    Text.splitLines (render text hints).toList =
      (Text.splitLines text.toList).mapIdx fun n l => (annotate hints n l).settle := by
  have hc := (Text.complete_splitLines text.toList).mapIdx (f := annotate hints) fun _ _ => rfl
  have hn : ∀ l ∈ (Text.splitLines text.toList).mapIdx (annotate hints), '\n' ∉ l.chars := by
    intro l hl
    have ⟨k, hk, hl⟩ := List.mem_mapIdx.mp hl
    rw [← hl, annotate, List.mem_append, not_or]
    exact ⟨Text.lf_notMem_of_mem_splitLines (List.getElem_mem hk),
      lf_notMem_suffix (h k hk)⟩
  calc Text.splitLines (render text hints).toList
    _ = Text.splitLines (Text.joinLines ((Text.splitLines text.toList).mapIdx (annotate hints))) :=
      congrArg _ String.toList_ofList
    _ = ((Text.splitLines text.toList).mapIdx (annotate hints)).map Text.Line.settle :=
      Text.splitLines_joinLines hc hn
    _ = (Text.splitLines text.toList).mapIdx fun n l => (annotate hints n l).settle :=
      List.ext_getElem? fun k => by simp [Function.comp_def]

theorem sameReading_annotate (h : Fits text hints)
    (hl : (Text.splitLines text.toList)[k]? = some l) :
    TokenTable.SameReading (annotate hints k l).settle l := by
  cases hs : hints.onLine k
  case nil =>
    have hl := Text.settle_of_mem_splitLines (List.mem_of_getElem? hl)
    simp only [annotate, hs, suffix, List.isEmpty_nil, if_true, List.append_nil, hl]
    exact ⟨rfl, rfl⟩
  case cons x xs =>
    have ⟨ts, hts, hi⟩ := (h k x (hs ▸ List.mem_cons_self)).line
    have ⟨j, m, hj, hm, hb, ht⟩ := TokenTable.exists_of_get?_ofText hts
    obtain rfl : k = j := Int.ofNat_inj.mp hj
    obtain rfl : l = m := Option.some.inj (hl.symm.trans hm)
    rw [annotate, hs]
    exact sameReading_comment hb (ht ▸ hi) (List.cons_ne_nil x xs)

theorem readings_render (h : Fits text hints) :
    TokenTable.readings (TokenTable.ofText (render text hints)).entries =
      TokenTable.readings (TokenTable.ofText text).entries := by
  simp only [TokenTable.ofText, splitLines_render fun k _ x hx => (h k x hx).label]
  exact TokenTable.readings_linesFrom_mapIdx fun k l hl => sameReading_annotate h hl

theorem fits_hintTable {c : Analysis.Context} {f : Analysis.Findings} (hc : c.IsOneLine)
    (h : analyze c (.ofText text) = .ok f) : Fits text f.hintTable := by
  intro n x hx
  rw [Analysis.Findings.hintTable, HintTable.onLine_ofEvents,
    Analysis.hints_of_analyze_eq_ok h] at hx
  obtain ⟨e, he, hex⟩ := List.mem_map.mp hx
  obtain ⟨hmem, hn⟩ := List.mem_filter.mp he
  have he : e = (n, x) := Prod.ext (eq_of_beq hn) hex
  exact he ▸ Analysis.placed_of_mem_events hc hmem

-- A listing is given the hints and the diagnostics of its source once more.
theorem ofText_text_eq_ok {table : SyscallTable} {file : Option String} {l : Listing}
    (ht : table.IsOneLine) (h : ofText table file text = .ok l) :
    ofText table file l.text = .ok { l with text := render l.text l.hints } := by
  have ⟨f, hf, hl⟩ := bind_eq_ok_iff.mp h
  have hl := pure_eq_ok_iff.mp hl
  have hfits := fits_hintTable ⟨ht, fun n name => Syscall.isOneLine_standardStreams⟩ hf
  have hr := readings_render hfits
  rw [Analysis.analyze_eq_findingsFrom] at hf
  have hf' := (Analysis.findingsFrom_congr hr).trans hf
  rw [← Analysis.analyze_eq_findingsFrom] at hf'
  have hsize : (TokenTable.ofText (render text f.hintTable)).size =
      (TokenTable.ofText text).size := by
    simpa [TokenTable.readings, IntMap.size] using congrArg List.length hr
  subst hl
  exact bind_eq_ok_iff.mpr ⟨f, hf', by rw [hsize]; rfl⟩

theorem ofText_text_eq_ok_of_open_string :
    Syscall.linux.IsOneLine ∧
    ∃ l, ofText Syscall.linux none "mov x8, #172 \x27pid\r\nsvc #0\nsvc" = .ok l ∧
      l.text = "mov x8, #172 \x27pid  // syscall: getpid (172)\r\n" ++
        "svc #0  // getpid() → pid of the caller\nsvc  // expects #0" ∧
      ofText Syscall.linux none l.text = .ok { l with text := render l.text l.hints } := by
  have h : (ofText Syscall.linux none "mov x8, #172 \x27pid\r\nsvc #0\nsvc").map (·.text) =
      .ok ("mov x8, #172 \x27pid  // syscall: getpid (172)\r\n" ++
        "svc #0  // getpid() → pid of the caller\nsvc  // expects #0") := by decide +kernel
  have ⟨l, hl, ht⟩ := map_eq_ok_iff.mp h
  exact ⟨Syscall.isOneLine_linux, l, hl, ht, ofText_text_eq_ok Syscall.isOneLine_linux hl⟩

end Listing

end SvcLens
