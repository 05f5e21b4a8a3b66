import Mathlib.Data.List.TakeWhile
import SvcLens.Token

namespace SvcLens.Token

-- The characters of a token, with what follows them on the line: a run ends where no character of
-- a run follows, and a string without its second quote only with the line.
inductive Lexeme : Kind → List Char → List Char → Prop
  | comma (rest : List Char) : Lexeme .comma [','] rest
  | ident {c : Char} {more rest : List Char} : isIdentChar c → (∀ d ∈ more, isIdentChar d) →
      (∀ d ∈ rest.head?, ¬isIdentChar d) → Lexeme .ident (c :: more) rest
  | closed {q : Char} {body : List Char} (rest : List Char) : isQuote q → q ∉ body →
      Lexeme .string (q :: body ++ [q]) rest
  | unclosed {q : Char} {body : List Char} : isQuote q → q ∉ body →
      Lexeme .string (q :: body) []

inductive Scanned : Nat → List Char → List Token → Prop
  | done (col : Nat) : Scanned col [] []
  | skip {col c cs ts} : isSeparator c → Scanned (col + 1) cs ts → Scanned col (c :: cs) ts
  | take {col kind word rest ts} : Lexeme kind word rest → Scanned (col + word.length) rest ts →
      Scanned col (word ++ rest) (ofChars kind col word :: ts)

section

variable {p : Char → Bool} {word rest : List Char}

theorem takeWhile_append_eq (hw : ∀ c ∈ word, p c) (hr : ∀ c ∈ rest.head?, ¬p c) :
    (word ++ rest).takeWhile p = word := by
  rw [List.takeWhile_append_of_pos hw]
  cases rest
  case nil => simp
  case cons c rest => simp [List.takeWhile_cons_of_neg (hr c rfl)]

theorem dropWhile_append_eq (hw : ∀ c ∈ word, p c) (hr : ∀ c ∈ rest.head?, ¬p c) :
    (word ++ rest).dropWhile p = rest := by
  rw [List.dropWhile_append_of_pos hw]
  cases rest
  case nil => rfl
  case cons c rest => exact List.dropWhile_cons_of_neg (hr c rfl)

theorem not_of_mem_head?_dropWhile (p : Char → Bool) (cs : List Char) :
    ∀ c ∈ (cs.dropWhile p).head?, ¬p c := by
  intro c hc
  have := List.head?_dropWhile_not p cs
  simp_all

end

variable {col : Nat} {kind : Kind} {c q : Char} {cs gap body word rest : List Char}
variable {ts : List Token}

theorem not_isSeparator_of_isQuote (h : isQuote c) : ¬isSeparator c := by
  simp only [isQuote, Bool.or_eq_true, beq_iff_eq] at h
  cases h <;> simp_all [isSeparator]

theorem not_isSeparator_of_isIdentChar (h : isIdentChar c) : ¬isSeparator c := by
  simp only [isIdentChar, Bool.and_eq_true] at h
  simpa using h.left.left

theorem ne_comma_of_isQuote (h : isQuote c) : c ≠ ',' := by
  rintro rfl
  contradiction

theorem all_ne_of_notMem (h : q ∉ body) : ∀ c ∈ body, (c != q) = true := by
  intro c hc
  simp only [bne_iff_ne]
  rintro rfl
  contradiction

namespace Lexeme

theorem exists_eq_cons (h : Lexeme kind word rest) :
    ∃ c more, word = c :: more ∧ ¬isSeparator c := by
  cases h
  case comma => exact ⟨',', [], rfl, by decide⟩
  case ident c more hc _ _ => exact ⟨c, more, rfl, not_isSeparator_of_isIdentChar hc⟩
  case closed q body hq _ => exact ⟨q, body ++ [q], rfl, not_isSeparator_of_isQuote hq⟩
  case unclosed q body hq _ => exact ⟨q, body, rfl, not_isSeparator_of_isQuote hq⟩

theorem length_pos (h : Lexeme kind word rest) : 0 < word.length := by
  have ⟨c, more, hw, _⟩ := h.exists_eq_cons
  simp [hw]

theorem not_isIdentChar_rest (h : Lexeme kind word rest) (hk : kind = .ident) :
    ∀ c ∈ rest.head?, ¬isIdentChar c := by
  cases h
  case ident hr => exact hr
  all_goals contradiction

-- Only at the end of a line a string can be open.
theorem rest_eq_nil_or_closed (h : Lexeme kind word rest) :
    rest = [] ∨ (kind = .string → ∃ q body, isQuote q ∧ q ∉ body ∧ word = q :: body ++ [q]) := by
  cases h
  case closed q body hq hb => exact .inr fun _ => ⟨q, body, hq, hb, rfl⟩
  case unclosed => exact .inl rfl
  all_goals exact .inr nofun

theorem exists_of_not_isSeparator (h : ¬isSeparator c) (cs : List Char) :
    ∃ kind word rest, Lexeme kind word rest ∧ c :: cs = word ++ rest := by
  by_cases hc : c = ','
  case pos => exact ⟨.comma, [','], cs, .comma cs, by simp [hc]⟩
  case neg =>
    by_cases hq : isQuote c
    case neg =>
      refine ⟨.ident, c :: cs.takeWhile isIdentChar, cs.dropWhile isIdentChar, .ident ?_ ?_ ?_, ?_⟩
      · simp [isIdentChar, h, hc, hq]
      · exact fun d => List.mem_takeWhile_imp
      · exact not_of_mem_head?_dropWhile isIdentChar cs
      · simp
    case pos =>
      have hbody : c ∉ cs.takeWhile (· != c) := fun hm => by
        simpa using List.mem_takeWhile_imp hm
      cases hd : cs.dropWhile (· != c)
      case nil =>
        refine ⟨.string, c :: cs.takeWhile (· != c), [], .unclosed hq hbody, ?_⟩
        simp [← hd]
      case cons d rest =>
        -- The scan of the inside stops at a quote of the same kind.
        have hdc : d = c := by
          have := not_of_mem_head?_dropWhile (· != c) cs d (by simp [hd])
          simpa using this
        refine ⟨.string, c :: cs.takeWhile (· != c) ++ [c], rest, .closed rest hq hbody, ?_⟩
        simp [← hdc, ← hd]

theorem scanFrom_eq (h : Lexeme kind word rest) (col : Nat) :
    scanFrom col (word ++ rest) = ofChars kind col word :: scanFrom (col + word.length) rest := by
  cases h
  case comma => simp [scanFrom, isSeparator]
  case ident c more hc hm hr =>
    simp only [isIdentChar, Bool.and_eq_true, Bool.not_eq_true', bne_iff_ne] at hc
    obtain ⟨⟨hs, hk⟩, hq⟩ := hc
    rw [List.cons_append, scanFrom]
    simp [hs, hk, hq, takeWhile_append_eq hm hr, dropWhile_append_eq hm hr, Nat.add_assoc]
  case closed q body hq hb =>
    have hr : ∀ c ∈ (q :: rest).head?, ¬(c != q) = true := by simp
    have ht := takeWhile_append_eq (all_ne_of_notMem hb) hr
    have hd := dropWhile_append_eq (all_ne_of_notMem hb) hr
    rw [List.append_assoc, List.cons_append, List.singleton_append, scanFrom.eq_2,
      if_neg (not_isSeparator_of_isQuote hq), if_neg (ne_comma_of_isQuote hq), if_pos hq]
    simp only [ht]
    split
    case h_1 hn => simp [hd] at hn
    case h_2 hn =>
      obtain ⟨rfl, rfl⟩ := List.cons.inj (hd.symm.trans hn)
      simp [Nat.add_assoc]
  case unclosed q body hq hb =>
    have ht := List.takeWhile_eq_self_iff.mpr (all_ne_of_notMem hb)
    have hd := List.dropWhile_eq_nil_iff.mpr (all_ne_of_notMem hb)
    rw [List.append_nil, scanFrom.eq_2, if_neg (not_isSeparator_of_isQuote hq),
      if_neg (ne_comma_of_isQuote hq), if_pos hq]
    simp only [ht]
    split
    case h_1 => simp [scanFrom]
    case h_2 hn => simp [hd] at hn

end Lexeme

theorem scanFrom_of_isSeparator (h : isSeparator c) :
    scanFrom col (c :: cs) = scanFrom (col + 1) cs := by
  rw [scanFrom, if_pos h]

theorem scanFrom_append_of_isSeparator (h : ∀ c ∈ gap, isSeparator c) (col : Nat)
    (cs : List Char) : scanFrom col (gap ++ cs) = scanFrom (col + gap.length) cs := by
  induction gap generalizing col
  case nil => rfl
  case cons c gap ih =>
    simp only [List.mem_cons, forall_eq_or_imp] at h
    rw [List.cons_append, scanFrom_of_isSeparator h.left, ih h.right, List.length_cons]
    congr 1
    omega

theorem scanned_scanFrom (col : Nat) (cs : List Char) : Scanned col cs (scanFrom col cs) := by
  cases cs
  case nil => exact scanFrom.eq_1 col ▸ .done col
  case cons c cs =>
    by_cases h : isSeparator c
    case pos => exact scanFrom_of_isSeparator h ▸ .skip h (scanned_scanFrom (col + 1) cs)
    case neg =>
      obtain ⟨kind, word, rest, hl, hcs⟩ := Lexeme.exists_of_not_isSeparator h cs
      have hlen := congrArg List.length hcs
      have hpos := hl.length_pos
      rw [hcs, hl.scanFrom_eq]
      exact .take hl (scanned_scanFrom _ rest)
termination_by cs.length
decreasing_by
  · exact Nat.lt_succ_self _
  · rw [List.length_append] at hlen
    omega

theorem scanned_iff : Scanned col cs ts ↔ ts = scanFrom col cs := by
  constructor
  case mpr => exact fun h => h ▸ scanned_scanFrom col cs
  case mp =>
    intro h
    induction h
    case done => rw [scanFrom]
    case skip hs _ ih => rw [ih, scanFrom_of_isSeparator hs]
    case take hl _ ih => rw [ih, hl.scanFrom_eq]

end SvcLens.Token
