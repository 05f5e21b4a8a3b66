import SvcLens.Proofs.Grammar
import SvcLens.Proofs.Trailing

namespace SvcLens.Token

def IsOpen (t : Token) : Prop :=
  t.kind = .string ∧ ∃ q body, isQuote q ∧ q ∉ body ∧ t.text.toList = q :: body

-- A text that does not end inside a string.
def IsClosed (text : String) : Prop :=
  ∀ t ∈ (scan text).getLast?, ¬t.IsOpen

structure IsGap (gap : String) : Prop where
  nonempty   : gap ≠ ""
  separators : ∀ c ∈ gap.toList, isSeparator c

def moveBy (n : Int) (t : Token) : Token :=
  { t with start := t.start + n, stop := t.stop + n }

def moveFrom (col n : Int) (t : Token) : Token :=
  if t.start < col then t else t.moveBy n

variable {col : Nat} {kind : Kind} {q : Char} {cs body rest tail word : List Char}
variable {ts : List Token} {t : Token}

theorem moveBy_moveBy (m n : Int) (t : Token) : (t.moveBy m).moveBy n = t.moveBy (m + n) := by
  simp [moveBy, Int.add_assoc]

theorem map_moveBy_moveBy (m n : Int) (ts : List Token) :
    (ts.map (·.moveBy m)).map (·.moveBy n) = ts.map (·.moveBy (m + n)) := by
  rw [List.map_map]
  exact List.map_congr_left fun t _ => moveBy_moveBy m n t

theorem moveBy_ofChars (n : Nat) (kind : Kind) (col : Nat) (word : List Char) :
    (ofChars kind col word).moveBy n = ofChars kind (col + n) word := by
  simp only [moveBy, ofChars, mk.injEq, true_and]
  omega

theorem Scanned.moveBy (h : Scanned col cs ts) (n : Nat) :
    Scanned (col + n) cs (ts.map (·.moveBy n)) := by
  induction h
  case done col => exact .done _
  case skip hs _ ih =>
    rw [Nat.add_right_comm] at ih
    exact .skip hs ih
  case take hl _ ih =>
    rw [Nat.add_right_comm] at ih
    rw [List.map_cons, moveBy_ofChars]
    exact .take hl ih

theorem scanFrom_add (col n : Nat) (cs : List Char) :
    scanFrom (col + n) cs = (scanFrom col cs).map (·.moveBy n) :=
  (scanned_iff.mp ((scanned_scanFrom col cs).moveBy n)).symm

theorem Grammar.exists_closed (h : Grammar col cs ts) (ho : ∀ t ∈ ts.getLast?, ¬t.IsOpen)
    (ht : t ∈ ts) (hk : t.kind = .string) :
    ∃ q body, isQuote q ∧ q ∉ body ∧ t.text.toList = q :: body ++ [q] := by
  have ⟨q, body, hq, hb, hs⟩ := h.string t ht hk
  cases hs
  case inl hs => exact ⟨q, body, hq, hb, hs⟩
  case inr hs => exact absurd ⟨hk, q, body, hq, hb, hs.left⟩ (ho t hs.right.left)

-- A line is scanned part by part, if the second part can continue neither a run nor a string.
theorem scanFrom_append (ho : ∀ t ∈ (scanFrom col cs).getLast?, ¬t.IsOpen)
    (hr : ∀ c ∈ rest.head?, ¬isIdentChar c) :
    scanFrom col (cs ++ rest) = scanFrom col cs ++ scanFrom (col + cs.length) rest := by
  have hcs := Grammar.of_scanned (scanned_scanFrom col cs)
  have hrest := Grammar.of_scanned (scanned_scanFrom (col + cs.length) rest)
  refine (scanned_iff.mp (hcs.append hrest ?_ (.inr ?_)).scanned).symm
  · -- Two runs that touch would meet at a character that can stand in none.
    intro s hs t ht _ hk hstop
    have hs := hcs.bounds s (List.mem_of_getLast? hs)
    have ht := List.mem_of_mem_head? ht
    have ⟨c, hc, hf⟩ := hrest.first ht
    have hi := (hrest.kind_of_first ht hf).right.mp hk
    have ht := hrest.bounds t ht
    have hstart : (t.start - (col + cs.length : Nat)).toNat = 0 := by omega
    rw [hstart, ← List.head?_eq_getElem?] at hc
    exact hr c hc hi
  · exact fun s hs hk => hcs.exists_closed ho hs hk

theorem Lexeme.eq_unclosed (h : Lexeme kind word rest) (ho : (ofChars kind col word).IsOpen) :
    ∃ q body, isQuote q ∧ q ∉ body ∧ word = q :: body ∧ rest = [] := by
  have ⟨hk, p, inside, _, hp, htext⟩ := ho
  cases h
  case comma => contradiction
  case ident => contradiction
  case unclosed q body hq hb => exact ⟨q, body, hq, hb, rfl, rfl⟩
  case closed q body hq hb =>
    simp only [ofChars, String.toList_ofList, List.cons_append, List.cons.injEq] at htext
    simp [← htext.left, ← htext.right] at hp

theorem Lexeme.exists_of_open (hq : isQuote q) (hb : q ∉ body) (hn : tail ≠ []) :
    ∃ more rest, Lexeme .string (q :: body ++ more) rest ∧ tail = more ++ rest ∧ more ≠ [] := by
  by_cases hm : q ∈ tail
  case pos =>
    obtain ⟨inside, rest, htail, hi⟩ := List.eq_append_cons_of_mem hm
    have hl : Lexeme .string (q :: (body ++ inside) ++ [q]) rest :=
      .closed rest hq (by simp [hb, hi])
    exact ⟨inside ++ [q], rest, by simpa using hl, by simp [htail], by simp⟩
  case neg =>
    have hl : Lexeme .string (q :: (body ++ tail)) [] := .unclosed hq (by simp [hb, hm])
    exact ⟨tail, [], by simpa using hl, by simp, hn⟩

-- Where a string is open at the end of a line, it takes the column behind the line as soon as there
-- is one. The lexemes in front of it stay as they are, so the induction goes through them.
theorem Scanned.exists_covers (h : Scanned col cs ts) (ht : t ∈ ts.getLast?) (ho : t.IsOpen)
    (hn : tail ≠ []) :
    ∃ s ∈ scanFrom col (cs ++ tail), s.kind = .string ∧ s.covers (col + cs.length : Nat) := by
  induction h
  case done => contradiction
  case skip col c cs ts hs _ ih =>
    obtain ⟨s, hmem, hk, hcov⟩ := ih ht
    rw [List.cons_append, scanFrom_of_isSeparator hs, List.length_cons, ← Nat.add_assoc,
      Nat.add_right_comm]
    exact ⟨s, hmem, hk, hcov⟩
  case take col kind word rest ts hl hsc ih =>
    cases ts
    case nil =>
      obtain rfl : ofChars kind col word = t := by simpa using ht
      obtain ⟨q, body, hq, hb, rfl, rfl⟩ := hl.eq_unclosed ho
      obtain ⟨more, rest, hl, rfl, hm⟩ := Lexeme.exists_of_open hq hb hn
      refine ⟨ofChars .string col (q :: body ++ more), ?_, rfl, ?_⟩
      · rw [List.append_nil, ← List.append_assoc, hl.scanFrom_eq]
        exact List.mem_cons_self
      · have := List.length_pos_of_ne_nil hm
        simp only [covers_iff, ofChars, List.length_append, List.length_cons, List.length_nil]
        omega
    case cons s ss =>
      have hr : rest ≠ [] := by
        rintro rfl
        have := scanned_iff.mp hsc
        simp [scanFrom] at this
      have hl : Lexeme kind word (rest ++ tail) :=
        (hl.append fun hn => absurd hn hr).resolve_right fun ho => hr ho.right.left
      obtain ⟨s, hmem, hk, hcov⟩ := ih (by simpa using ht)
      rw [List.append_assoc, hl.scanFrom_eq, List.length_append, ← Nat.add_assoc]
      exact ⟨s, List.mem_cons_of_mem _ hmem, hk, hcov⟩

variable {u v gap gap' : String}

theorem scan_append (h : IsClosed u) (hv : ∀ c ∈ v.toList.head?, ¬isIdentChar c) :
    scan (u ++ v) = scan u ++ (scan v).map (·.moveBy u.length) := by
  rw [scan, String.toList_append, scanFrom_append h hv, scanFrom_add, String.length_toList]
  rfl

theorem scan_comma_append (v : String) :
    scan ("," ++ v) = ⟨.comma, ",", 0, 1⟩ :: (scan v).map (·.moveBy 1) := by
  have hcomma := (Lexeme.comma v.toList).scanFrom_eq 0
  rw [scanFrom_add] at hcomma
  rw [scan, String.toList_append]
  exact hcomma

theorem scan_append_comma_append (h : IsClosed u) (v : String) :
    scan (u ++ "," ++ v) = scan u ++
      ⟨.comma, ",", u.length, u.length + 1⟩ :: (scan v).map (·.moveBy (u.length + 1)) := by
  have hcomma : ∀ c ∈ ("," ++ v).toList.head?, ¬isIdentChar c := by simp [isIdentChar]
  rw [String.append_assoc, scan_append h hcomma, scan_comma_append, List.map_cons,
    map_moveBy_moveBy, Int.add_comm 1]
  simp [moveBy, Int.add_comm]

namespace IsGap

theorem scan_append (h : IsGap gap) (v : String) :
    scan (gap ++ v) = (scan v).map (·.moveBy gap.length) := by
  rw [scan, String.toList_append, scanFrom_append_of_isSeparator h.separators, scanFrom_add,
    String.length_toList]
  rfl

theorem not_isIdentChar (h : IsGap gap) (v : String) :
    ∀ c ∈ (gap ++ v).toList.head?, ¬isIdentChar c := by
  have hne : gap.toList ≠ [] := by simpa using h.nonempty
  intro c hc hi
  rw [String.toList_append, List.head?_append_of_ne_nil _ hne] at hc
  exact not_isSeparator_of_isIdentChar hi (h.separators c (List.mem_of_mem_head? hc))

theorem scan_append_append (h : IsGap gap) (hu : IsClosed u) (v : String) :
    scan (u ++ gap ++ v) = scan u ++ (scan v).map (·.moveBy (u.length + gap.length)) := by
  rw [String.append_assoc, Token.scan_append hu (h.not_isIdentChar v), h.scan_append,
    map_moveBy_moveBy, Int.add_comm]

theorem isClosed (h : IsGap gap)
    (hs : ∀ t ∈ scan (u ++ gap ++ v), t.kind = .string → ¬t.covers u.length) : IsClosed u := by
  intro t ht ho
  have hne : (gap ++ v).toList ≠ [] := by simp [h.nonempty]
  have ⟨s, hmem, hk, hcov⟩ := (scanned_scanFrom 0 u.toList).exists_covers ht ho hne
  rw [← String.toList_append, ← String.append_assoc] at hmem
  rw [Nat.zero_add, String.length_toList] at hcov
  exact hs s hmem hk hcov

end IsGap

theorem map_moveFrom_append (u v : String) (m n : Nat) :
    (scan u ++ (scan v).map (·.moveBy (u.length + m))).map (·.moveFrom u.length (n - m)) =
      scan u ++ (scan v).map (·.moveBy (u.length + n)) := by
  have hu := Grammar.of_scanned (scanned_scanFrom 0 u.toList)
  have hv := Grammar.of_scanned (scanned_scanFrom 0 v.toList)
  have hstay : ∀ t ∈ scan u, t.moveFrom u.length (n - m) = t := by
    intro t ht
    have := hu.bounds t ht
    rw [String.length_toList] at this
    exact if_pos (by omega)
  have hmove : ∀ t ∈ scan v, (t.moveBy (u.length + m)).moveFrom u.length (n - m) =
      t.moveBy (u.length + n) := by
    intro t ht
    have := hv.bounds t ht
    have hn : ¬(t.moveBy (u.length + m)).start < u.length := by
      simp only [moveBy]
      omega
    rw [moveFrom, if_neg hn, moveBy_moveBy]
    congr 1
    omega
  rw [List.map_append, List.map_map]
  congr 1
  · exact (List.map_congr_left hstay).trans (List.map_id _)
  · exact List.map_congr_left hmove

-- A text that is not left inside a string is scanned apart from what follows a gap or a comma, and
-- a gap outside of strings can be exchanged for any other one.
theorem scan_append_at_separators (u v : String) :
    (IsClosed u →
      (∀ gap, IsGap gap →
        scan (u ++ gap ++ v) = scan u ++ (scan v).map (·.moveBy (u.length + gap.length))) ∧
      scan (u ++ "," ++ v) = scan u ++
        ⟨.comma, ",", u.length, u.length + 1⟩ :: (scan v).map (·.moveBy (u.length + 1))) ∧
    (∀ gap gap', IsGap gap → IsGap gap' →
      (∀ t ∈ scan (u ++ gap ++ v), t.kind = .string → ¬t.covers u.length) →
      scan (u ++ gap' ++ v) =
        (scan (u ++ gap ++ v)).map (·.moveFrom u.length (gap'.length - gap.length))) := by
  refine ⟨fun hu => ⟨fun gap hg => hg.scan_append_append hu v, ?_⟩, ?_⟩
  · exact scan_append_comma_append hu v
  · intro gap gap' hg hg' hs
    have hu := hg.isClosed hs
    rw [hg.scan_append_append hu, hg'.scan_append_append hu, map_moveFrom_append]

theorem scan_append_at_separators_of_closed_string :
    let u := "ab\x22c, d\x22"
    let v := "e,\x27f"
    let gap := " \t"
    let gap' := "\r\n "
    IsClosed u ∧ IsGap gap ∧ IsGap gap' ∧
    scan (u ++ gap ++ v) = scan u ++ (scan v).map (·.moveBy (u.length + gap.length)) ∧
    scan (u ++ "," ++ v) = scan u ++
      ⟨.comma, ",", u.length, u.length + 1⟩ :: (scan v).map (·.moveBy (u.length + 1)) ∧
    scan (u ++ gap' ++ v) =
      (scan (u ++ gap ++ v)).map (·.moveFrom u.length (gap'.length - gap.length)) := by
  intro u v gap gap'
  have hu : IsClosed u := by
    have hlast : (scan u).getLast?.map (·.text.toList) =
        some ['\x22', 'c', ',', ' ', 'd', '\x22'] := by decide +kernel
    rintro t ht ⟨-, q, body, -, hb, htext⟩
    rw [ht, Option.map_some, htext] at hlast
    obtain ⟨rfl, rfl⟩ := List.cons.inj (Option.some.inj hlast)
    exact hb (by decide)
  have hg : IsGap gap := ⟨by decide, List.all_eq_true.mp (by decide +kernel)⟩
  have hg' : IsGap gap' := ⟨by decide, List.all_eq_true.mp (by decide +kernel)⟩
  have ⟨happend, hexchange⟩ := scan_append_at_separators u v
  have ⟨hgap, hcomma⟩ := happend hu
  exact ⟨hu, hg, hg', hgap _ hg, hcomma, hexchange _ _ hg hg' (by decide +kernel)⟩

end SvcLens.Token
