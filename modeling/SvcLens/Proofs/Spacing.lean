import SvcLens.Proofs.Relocation

namespace SvcLens

namespace Text

variable {gaps : Nat → List Line}

def Line.IsBlank (l : Line) : Prop :=
  ∀ c ∈ l.chars, isBlank c

-- The lines with other ones in front of each of them, and some behind the last one.
def interleave (gaps : Nat → List Line) : List Line → List Line
  | [] => gaps 0
  | l :: ls => gaps 0 ++ l :: interleave (fun k => gaps (k + 1)) ls

def countAbove (gaps : Nat → List Line) (n : Nat) : Nat :=
  ((List.range n).map fun k => (gaps k).length).sum

def shift (gaps : Nat → List Line) (line : Int) : Int :=
  line + countAbove gaps (line + 1).toNat

theorem Line.IsBlank.trim_eq_nil {l : Line} (h : l.IsBlank) : trim l.chars = [] := by
  have hd : l.chars.dropWhile isBlank = [] := List.dropWhile_eq_nil_iff.mpr h
  simp [trim, hd]

theorem countAbove_succ (gaps : Nat → List Line) (n : Nat) :
    countAbove gaps (n + 1) = (gaps 0).length + countAbove (fun k => gaps (k + 1)) n := by
  simp [countAbove, List.range_succ_eq_map, Function.comp_def]

theorem countAbove_mono (gaps : Nat → List Line) : Monotone (countAbove gaps) := by
  intro a b hab
  have hsub := (List.range_sublist.mpr hab).map fun k => (gaps k).length
  exact hsub.sum_le_sum fun _ _ => Nat.zero_le _

theorem strictMono_shift (gaps : Nat → List Line) : StrictMono (shift gaps) := by
  intro a b hab
  have := countAbove_mono gaps (show (a + 1).toNat ≤ (b + 1).toNat by omega)
  simp only [shift]
  omega

end Text

namespace TokenTable

variable {gaps : Nat → List Text.Line} {ls blanks : List Text.Line}

theorem linesFrom_append_of_isBlank (h : ∀ l ∈ blanks, l.IsBlank) (n : Nat) (ls : List Text.Line) :
    linesFrom n (blanks ++ ls) = linesFrom (n + blanks.length) ls := by
  induction blanks generalizing n
  case nil => rfl
  case cons l blanks ih =>
    have ⟨hl, hblanks⟩ := List.forall_mem_cons.mp h
    rw [List.cons_append, linesFrom, hl.trim_eq_nil, List.isEmpty_nil, if_pos rfl, ih hblanks,
      List.length_cons]
    congr 1
    omega

-- The lines that are left stand where they are moved to, whatever was counted before them.
theorem linesFrom_interleave {move : Int → Int} {n k : Nat} (h : ∀ j, ∀ l ∈ gaps j, l.IsBlank)
    (hm : ∀ j : Nat, move (n + j : Nat) = (k + j + Text.countAbove gaps (j + 1) : Nat)) :
    linesFrom k (Text.interleave gaps ls) = (linesFrom n ls).map (Prod.map move id) := by
  induction ls generalizing gaps n k
  case nil =>
    have := linesFrom_append_of_isBlank (h 0) k []
    rw [List.append_nil] at this
    rw [Text.interleave, this]
    rfl
  case cons l ls ih =>
    have hhead : move n = (k + (gaps 0).length : Nat) := by
      have := hm 0
      simpa [Text.countAbove_succ, Text.countAbove] using this
    have htail : ∀ j : Nat, move (n + 1 + j : Nat) =
        (k + (gaps 0).length + 1 + j + Text.countAbove (fun i => gaps (i + 1)) (j + 1) : Nat) := by
      intro j
      have hj := hm (j + 1)
      rw [Text.countAbove_succ, show n + (j + 1) = n + 1 + j by omega] at hj
      rw [hj]
      congr 1
      omega
    rw [Text.interleave, linesFrom_append_of_isBlank (h 0), linesFrom, linesFrom,
      ih (fun j => h (j + 1)) htail]
    split
    case isTrue => rfl
    case isFalse => simp [hhead]

theorem ofText_eq_rekey {text other : String} (h : ∀ k, ∀ l ∈ gaps k, l.IsBlank)
    (ho : Text.SameChars (Text.splitLines other.toList)
      (Text.interleave gaps (Text.splitLines text.toList))) :
    ofText other =
      (ofText text).rekey (Text.shift gaps) ((Text.strictMono_shift gaps).strictMonoOn _) := by
  refine IntMap.ext ?_
  have hshift : ∀ j : Nat, Text.shift gaps (0 + j : Nat) =
      (0 + j + Text.countAbove gaps (j + 1) : Nat) := by
    intro j
    have htoNat : ((j : Int) + 1).toNat = j + 1 := by omega
    simp [Text.shift, htoNat]
  exact (linesFrom_congr ho 0).trans (linesFrom_interleave h hshift)

end TokenTable

namespace Analysis

-- Lines that are moved in order take along what is found on them, other columns show in nothing but
-- the columns of the diagnostics, and blank lines move the lines behind them.
theorem agree_of_relocated (c : Context) :
    (∀ (tokens : TokenTable) (move : Int → Int) (h : StrictMonoOn move tokens.keys),
      Agree (MovedTo move) (analyze c tokens) (analyze c (tokens.rekey move h))) ∧
    (∀ tokens other : TokenTable,
      other.map (List.map Token.spelling) = tokens.map (List.map Token.spelling) →
      Agree SameUpToColumns (analyze c tokens) (analyze c other)) ∧
    (∀ (gaps : Nat → List Text.Line) (text other : String), (∀ k, ∀ l ∈ gaps k, l.IsBlank) →
      Text.SameChars (Text.splitLines other.toList)
        (Text.interleave gaps (Text.splitLines text.toList)) →
      Agree (MovedTo (Text.shift gaps)) (analyze c (.ofText text))
        (analyze c (.ofText other))) := by
  refine ⟨fun _ _ => agree_rekey c, fun _ _ => agree_of_spelling_eq c, ?_⟩
  intro gaps text other h ho
  rw [TokenTable.ofText_eq_rekey h ho]
  exact agree_rekey c _

theorem agree_of_relocated_of_two_calls :
    let c : Context := ⟨Syscall.linux, Syscall.standardStreams, true⟩
    let text := "mov x8, #172\nsvc #0\nmov x8, #7\nsvc #0"
    let gaps : Nat → List Text.Line := fun k =>
      if k = 2 then [⟨[' ', '\t'], .crlf⟩, ⟨[], .lf⟩] else []
    (analyze c (.ofText text)).map (fun f => (f.hintTable.size, f.diagnostics.length)) =
      .ok (2, 1) ∧
    (∃ h, Agree (MovedTo fun k => 2 * k - 5) (analyze c (.ofText text))
      (analyze c ((TokenTable.ofText text).rekey (fun k => 2 * k - 5) h))) ∧
    Agree SameUpToColumns (analyze c (.ofText text))
      (analyze c (.ofText "mov\tx8 , #172\n svc #0\nmov x8,#7\nsvc  #0")) ∧
    Agree (MovedTo (Text.shift gaps)) (analyze c (.ofText text))
      (analyze c (.ofText "mov x8, #172\nsvc #0\n \t\r\n\nmov x8, #7\nsvc #0")) := by
  intro c text gaps
  have hmove : StrictMonoOn (fun k : Int => 2 * k - 5) (TokenTable.ofText text).keys := by
    intro a _ b _ hab
    simp only
    omega
  have hspelling : (TokenTable.ofText "mov\tx8 , #172\n svc #0\nmov x8,#7\nsvc  #0").map
      (List.map Token.spelling) = (TokenTable.ofText text).map (List.map Token.spelling) :=
    IntMap.ext (by decide +kernel)
  have hblank : ∀ k, ∀ l ∈ gaps k, l.IsBlank := by
    intro k l hl
    simp only [gaps] at hl
    split at hl
    case isFalse => contradiction
    case isTrue =>
      simp only [List.mem_cons, List.not_mem_nil, or_false] at hl
      rcases hl with rfl | rfl
      case inl => simp [Text.Line.IsBlank]; decide
      case inr => simp [Text.Line.IsBlank]
  have hlines : Text.SameChars
      (Text.splitLines "mov x8, #172\nsvc #0\n \t\r\n\nmov x8, #7\nsvc #0".toList)
      (Text.interleave gaps (Text.splitLines text.toList)) := by
    rw [Text.SameChars]
    decide +kernel
  obtain ⟨hrekey, hcolumns, hgaps⟩ := agree_of_relocated c
  exact ⟨by decide +kernel, ⟨hmove, hrekey _ _ hmove⟩, hcolumns _ _ hspelling,
    hgaps gaps _ _ hblank hlines⟩

end Analysis

end SvcLens
