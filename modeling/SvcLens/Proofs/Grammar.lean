import Mathlib.Data.List.Chain
import SvcLens.Proofs.Lexeme

namespace SvcLens.Token

structure Grammar (col : Nat) (cs : List Char) (ts : List Token) : Prop where
  ordered : ts.Pairwise fun a b => a.stop ≤ b.start
  bounds  : ∀ t ∈ ts, col ≤ t.start ∧ t.start < t.stop ∧ t.stop ≤ col + cs.length
  slices  : ∀ t ∈ ts, cs.extract (t.start - col).toNat (t.stop - col).toNat = t.text.toList
  gaps    : ∀ (i : Nat) c, cs[i]? = some c → (∀ t ∈ ts, ¬t.covers (col + i)) → isSeparator c
  comma   : ∀ t ∈ ts, t.kind = .comma → t.text = ","
  ident   : ∀ t ∈ ts, t.kind = .ident → ∀ c ∈ t.text.toList, ¬isSeparator c ∧ c ≠ ',' ∧ ¬isQuote c
  apart   : ts.IsChain fun a b => a.kind = .ident → b.kind = .ident → a.stop ≠ b.start
  string  : ∀ t ∈ ts, t.kind = .string → ∃ q body, isQuote q ∧ q ∉ body ∧
    (t.text.toList = q :: body ++ [q] ∨
      t.text.toList = q :: body ∧ ts.getLast? = some t ∧ t.stop = col + cs.length)
  kinds   : ∀ t ∈ ts, t.kind ≠ .comment

namespace Grammar

variable {col : Nat} {cs pre rest word : List Char} {ts us : List Token} {t : Token} {c : Char}
variable {kind : Kind}

theorem first (h : Grammar col cs ts) (ht : t ∈ ts) :
    ∃ c, cs[(t.start - col).toNat]? = some c ∧ t.text.toList.head? = some c := by
  have ⟨hc, hs, hl⟩ := h.bounds t ht
  have hlt : (t.start - col).toNat < cs.length := by omega
  refine ⟨_, List.getElem?_eq_getElem hlt, ?_⟩
  rw [← h.slices t ht, List.extract_eq_take_drop, List.head?_take, if_neg (by omega),
    List.head?_drop, List.getElem?_eq_getElem hlt]

theorem kind_of_first (h : Grammar col cs ts) (ht : t ∈ ts) (hc : t.text.toList.head? = some c) :
    ¬isSeparator c ∧ (t.kind = .ident ↔ isIdentChar c) := by
  cases hk : t.kind
  case ident =>
    obtain ⟨hs, hm, hq⟩ := h.ident t ht hk c (List.mem_of_mem_head? hc)
    simp [hs, hm, hq, isIdentChar]
  case comma =>
    simp only [h.comma t ht hk] at hc
    cases hc
    decide
  case string =>
    obtain ⟨q, body, hq, _, ht⟩ := h.string t ht hk
    have hqc : q = c := by
      cases ht
      case inl ht => simpa [ht] using hc
      case inr ht => simpa [ht.left] using hc
    simp [← hqc, hq, isIdentChar, not_isSeparator_of_isQuote hq]
  case comment => exact absurd hk (h.kinds t ht)

theorem mem_of_mem_text (h : Grammar col cs ts) (ht : t ∈ ts) (hc : c ∈ t.text.toList) :
    c ∈ cs := by
  rw [← h.slices t ht, List.extract_eq_take_drop] at hc
  exact List.mem_of_mem_drop (List.mem_of_mem_take hc)

theorem extract_append {a b : Int} (ha : col + pre.length ≤ a) (hab : a < b) :
    (pre ++ rest).extract (a - col).toNat (b - col).toNat =
      rest.extract (a - (col + pre.length : Nat)).toNat (b - (col + pre.length : Nat)).toNat := by
  have hd : (pre ++ rest).drop (a - col).toNat =
      rest.drop (a - (col + pre.length : Nat)).toNat := by
    rw [List.drop_append, List.drop_eq_nil_of_le (by omega), List.nil_append]
    congr 1
    omega
  rw [List.extract_eq_take_drop, List.extract_eq_take_drop, hd]
  congr 1
  omega

theorem drop (h : Grammar col (pre ++ rest) (us ++ ts)) (hu : ∀ t ∈ us, t.stop ≤ col + pre.length)
    (ht : ∀ t ∈ ts, col + pre.length ≤ t.start) : Grammar (col + pre.length) rest ts where
  ordered := (List.pairwise_append.mp h.ordered).right.left
  bounds t hm := by
    have := h.bounds t (List.mem_append_right _ hm)
    have := ht t hm
    simp only [List.length_append] at *
    omega
  slices t hm := by
    have hm' := List.mem_append_right us hm
    rw [← h.slices t hm', extract_append (ht t hm) (h.bounds t hm').right.left]
  gaps i c hc hn := by
    apply h.gaps (pre.length + i) c (by simpa [List.getElem?_append] using hc)
    intro t hm
    cases List.mem_append.mp hm
    case inl hm =>
      have := hu t hm
      rw [covers_iff]
      omega
    case inr hm => simpa [Int.add_assoc] using hn t hm
  comma t hm := h.comma t (List.mem_append_right _ hm)
  ident t hm := h.ident t (List.mem_append_right _ hm)
  apart := h.apart.right_of_append
  string t hm hk := by
    have ⟨q, body, hq, hb, hs⟩ := h.string t (List.mem_append_right _ hm) hk
    refine ⟨q, body, hq, hb, hs.imp_right fun ⟨hs, hl, hstop⟩ => ⟨hs, ?_, ?_⟩⟩
    · rwa [List.getLast?_append_of_ne_nil _ (List.ne_nil_of_mem hm)] at hl
    · simpa [Int.add_assoc] using hstop
  kinds t hm := h.kinds t (List.mem_append_right _ hm)

-- A line can be put together from two parts, unless a run or an open string would go on from the
-- one to the other.
theorem append (hu : Grammar col pre us) (ht : Grammar (col + pre.length) rest ts)
    (hi : ∀ u ∈ us.getLast?, ∀ t ∈ ts.head?, u.kind = .ident → t.kind = .ident → u.stop ≠ t.start)
    (ho : rest = [] ∨ ∀ u ∈ us, u.kind = .string →
      ∃ q body, isQuote q ∧ q ∉ body ∧ u.text.toList = q :: body ++ [q]) :
    Grammar col (pre ++ rest) (us ++ ts) where
  ordered := by
    refine List.pairwise_append.mpr ⟨hu.ordered, ht.ordered, fun u hu' t ht' => ?_⟩
    have := hu.bounds u hu'
    have := ht.bounds t ht'
    omega
  bounds t hm := by
    simp only [List.length_append]
    cases List.mem_append.mp hm
    case inl hm => have := hu.bounds t hm; omega
    case inr hm => have := ht.bounds t hm; omega
  slices t hm := by
    cases List.mem_append.mp hm
    case inl hm =>
      have := hu.bounds t hm
      rw [← hu.slices t hm, List.extract_eq_take_drop, List.extract_eq_take_drop,
        List.drop_append_of_le_length (by omega), List.take_append_of_le_length]
      rw [List.length_drop]
      omega
    case inr hm =>
      have := ht.bounds t hm
      rw [← ht.slices t hm, extract_append (by omega) (by omega)]
  gaps i c hc hn := by
    rw [List.getElem?_append] at hc
    split at hc
    case isTrue => exact hu.gaps i c hc fun t hm => hn t (List.mem_append_left _ hm)
    case isFalse hlt =>
      refine ht.gaps _ c hc fun t hm => ?_
      have := hn t (List.mem_append_right _ hm)
      have he : ((col + pre.length : Nat) : Int) + (i - pre.length : Nat) = col + i := by omega
      rwa [he]
  comma t hm := (List.mem_append.mp hm).elim (hu.comma t) (ht.comma t)
  ident t hm := (List.mem_append.mp hm).elim (hu.ident t) (ht.ident t)
  apart := hu.apart.append ht.apart hi
  string t hm hk := by
    cases List.mem_append.mp hm
    case inl hm =>
      cases ho
      case inr ho =>
        have ⟨q, body, hq, hb, hs⟩ := ho t hm hk
        exact ⟨q, body, hq, hb, .inl hs⟩
      case inl ho =>
        have hts : ts = [] := by
          refine List.eq_nil_iff_forall_not_mem.mpr fun t hm => ?_
          have := ht.bounds t hm
          simp only [ho, List.length_nil] at this
          omega
        simpa [ho, hts] using hu.string t hm hk
    case inr hm =>
      have ⟨q, body, hq, hb, hs⟩ := ht.string t hm hk
      refine ⟨q, body, hq, hb, hs.imp_right fun ⟨hs, hl, hstop⟩ => ⟨hs, ?_, ?_⟩⟩
      · rwa [List.getLast?_append_of_ne_nil _ (List.ne_nil_of_mem hm)]
      · simpa [Int.add_assoc] using hstop
  kinds t hm := (List.mem_append.mp hm).elim (hu.kinds t) (ht.kinds t)

theorem of_nil (col : Nat) : Grammar col [] [] := by
  constructor <;> simp

theorem of_isSeparator (h : isSeparator c) : Grammar col [c] [] := by
  constructor <;> simp
  case gaps =>
    intro i d hd
    cases i <;> simp_all

theorem of_lexeme (h : Lexeme kind word rest) : Grammar col word [ofChars kind col word] where
  ordered := List.pairwise_singleton _ _
  bounds t ht := by
    obtain rfl := List.mem_singleton.mp ht
    have := h.length_pos
    simp only [ofChars]
    omega
  slices t ht := by
    obtain rfl := List.mem_singleton.mp ht
    have hstart : ((col : Int) - col).toNat = 0 := by omega
    have hstop : (((col + word.length : Nat) : Int) - col).toNat = word.length := by omega
    simp only [ofChars, hstart, hstop, List.extract_eq_take_drop, Nat.sub_zero, List.drop_zero,
      List.take_length, String.toList_ofList]
  gaps i d hd hn := by
    have hi := (List.getElem?_eq_some_iff.mp hd).choose
    have hcov : (ofChars kind col word).covers (col + i) := by
      rw [covers_iff]
      simp only [ofChars]
      omega
    exact absurd hcov (hn _ List.mem_cons_self)
  comma t ht hk := by
    obtain rfl := List.mem_singleton.mp ht
    obtain rfl : kind = .comma := hk
    cases h
    rfl
  ident t ht hk c hc := by
    obtain rfl := List.mem_singleton.mp ht
    obtain rfl : kind = .ident := hk
    cases h
    case ident d more hd hm _ =>
      have hmem : c ∈ d :: more := by simpa [ofChars] using hc
      have hc : isIdentChar c := by
        cases List.mem_cons.mp hmem
        case inl he => exact he ▸ hd
        case inr hc => exact hm c hc
      simpa [isIdentChar, and_assoc] using hc
  apart := .singleton _
  string t ht hk := by
    obtain rfl := List.mem_singleton.mp ht
    obtain rfl : kind = .string := hk
    cases h
    case closed q body hq hb => exact ⟨q, body, hq, hb, .inl (by simp [ofChars])⟩
    case unclosed q body hq hb => exact ⟨q, body, hq, hb, .inr (by simp [ofChars])⟩
  kinds t ht hk := by
    obtain rfl := List.mem_singleton.mp ht
    obtain rfl : kind = .comment := hk
    cases h

theorem of_scanned (h : Scanned col cs ts) : Grammar col cs ts := by
  induction h
  case done => exact of_nil _
  case skip hs _ ih => exact append (of_isSeparator hs) ih (by simp) (.inr (by simp))
  case take col kind word rest ts hl _ ih =>
    refine append (of_lexeme hl) ih ?_ ?_
    · -- A run that touched the next one would not have ended.
      simp only [List.getLast?_singleton, Option.mem_some_iff, forall_eq']
      intro t ht hk htk hstop
      have hm := List.mem_of_mem_head? ht
      have ⟨c, hc, hf⟩ := ih.first hm
      have hi := (ih.kind_of_first hm hf).right.mp htk
      have hrest : rest.head? = some c := by
        rw [← hc, List.head?_eq_getElem?]
        congr 1
        simp [ofChars] at hstop
        omega
      exact hl.not_isIdentChar_rest hk c hrest hi
    · simpa [ofChars] using hl.rest_eq_nil_or_closed

theorem exists_head (h : Grammar col (c :: cs) ts) (hc : ¬isSeparator c) :
    ∃ t us, ts = t :: us ∧ t.start = col := by
  have ⟨t, ht, hcov⟩ : ∃ t ∈ ts, t.covers col := by
    by_contra hn
    push Not at hn
    exact hc (h.gaps 0 c rfl (by simpa using hn))
  have hstart : t.start = col := by
    have := h.bounds t ht
    rw [covers_iff] at hcov
    omega
  cases ts
  case nil => contradiction
  case cons u us =>
    cases List.mem_cons.mp ht
    case inl htu => exact ⟨u, us, rfl, htu ▸ hstart⟩
    case inr htu =>
      have := (List.pairwise_cons.mp h.ordered).left t htu
      have := h.bounds u List.mem_cons_self
      omega

theorem exists_word (h : Grammar col cs (t :: us)) (ht : t.start = col) :
    ∃ word rest, cs = word ++ rest ∧ t = ofChars t.kind col word := by
  have hb := h.bounds t List.mem_cons_self
  have hs := h.slices t List.mem_cons_self
  have hstart : (t.start - col).toNat = 0 := by omega
  rw [List.extract_eq_take_drop, hstart, List.drop_zero, Nat.sub_zero] at hs
  have hlen : t.text.toList.length = (t.stop - col).toNat := by
    rw [← hs, List.length_take]
    omega
  refine ⟨t.text.toList, cs.drop (t.stop - col).toNat, ?_, ?_⟩
  · rw [← hs, List.take_append_drop]
  · cases t
    simp only [ofChars, String.ofList_toList, mk.injEq, true_and] at *
    omega

theorem uncons (h : Grammar col (c :: cs) ts) (hc : ¬isSeparator c) :
    ∃ kind word rest us, Lexeme kind word rest ∧ c :: cs = word ++ rest ∧
      ts = ofChars kind col word :: us ∧ Grammar (col + word.length) rest us := by
  obtain ⟨t, us, hts, hstart⟩ := h.exists_head hc
  rw [hts] at h
  obtain ⟨word, rest, hcs, ht⟩ := h.exists_word hstart
  rw [hcs] at h
  have hstop : t.stop = (col + word.length : Nat) := by rw [ht]; rfl
  have hus : Grammar (col + word.length) rest us := by
    refine @drop col word rest us [t] h (by simp [hstop]) fun u hu => ?_
    have := (List.pairwise_cons.mp h.ordered).left u hu
    omega
  refine ⟨t.kind, word, rest, us, ?_, hcs, by rw [hts, ← ht], hus⟩
  have htm : t ∈ t :: us := List.mem_cons_self
  have htext : t.text.toList = word := by rw [ht]; simp [ofChars]
  cases hk : t.kind
  case comment => exact absurd hk (h.kinds t htm)
  case comma =>
    have : word = [','] := by simp [← htext, h.comma t htm hk]
    exact this ▸ .comma rest
  case ident =>
    have hw := h.ident t htm hk
    rw [htext] at hw
    cases word
    case nil =>
      have := h.bounds t htm
      simp at hstop
      omega
    case cons d more =>
      simp only [List.mem_cons, forall_eq_or_imp] at hw
      refine .ident (by simp [isIdentChar, hw.left]) ?_ ?_
      · intro e he
        simp [isIdentChar, hw.right e he]
      · -- A character that could continue the run would be taken by another run that touches it.
        intro e he hi
        obtain ⟨rest', rfl⟩ := List.head?_eq_some_iff.mp he
        obtain ⟨u, us', husu, hustart⟩ := hus.exists_head (not_isSeparator_of_isIdentChar hi)
        subst husu
        obtain ⟨e', hc', hf⟩ := hus.first List.mem_cons_self
        simp [hustart] at hc'
        have hu := (hus.kind_of_first List.mem_cons_self hf).right.mpr (hc' ▸ hi)
        exact (List.isChain_cons_cons.mp h.apart).left hk hu (by rw [hstop, hustart])
  case string =>
    obtain ⟨q, body, hq, hb, hs⟩ := h.string t htm hk
    cases hs
    case inl hs => exact (htext ▸ hs) ▸ .closed rest hq hb
    case inr hs =>
      obtain ⟨hs, _, hend⟩ := hs
      have hrest : rest = [] := by
        apply List.eq_nil_of_length_eq_zero
        simp only [List.length_append] at hend
        omega
      exact (htext ▸ hs) ▸ hrest ▸ .unclosed hq hb

theorem scanned : {cs : List Char} → {col : Nat} → {ts : List Token} → Grammar col cs ts →
    Scanned col cs ts
  | [], col, ts, h => by
    have hts : ts = [] := by
      refine List.eq_nil_iff_forall_not_mem.mpr fun t hm => ?_
      have := h.bounds t hm
      simp only [List.length_nil] at this
      omega
    exact hts ▸ .done col
  | c :: cs, col, ts, h => by
    by_cases hc : isSeparator c
    case pos =>
      refine .skip hc (scanned <| @drop col [c] cs ts [] h (by simp) fun t hm => ?_)
      have ⟨d, hd, hf⟩ := h.first hm
      have hne : t.start ≠ col := by
        rintro hs
        simp [hs] at hd
        exact (h.kind_of_first hm hf).left (hd ▸ hc)
      have := h.bounds t hm
      simp
      omega
    case neg =>
      have ⟨kind, word, rest, us, hl, hcs, hts, hus⟩ := h.uncons hc
      have hlen := congrArg List.length hcs
      have hpos := hl.length_pos
      rw [hcs, hts]
      exact .take hl (scanned hus)
termination_by cs => cs.length
decreasing_by
  · simp
  · simp only [List.length_append] at hlen
    omega

end Grammar

-- The tokens of a line are those that its grammar admits, and no others.
theorem eq_scan_iff (text : String) (ts : List Token) :
    ts = scan text ↔ Grammar 0 text.toList ts :=
  ⟨fun h => .of_scanned (scanned_iff.mpr h), fun h => scanned_iff.mp h.scanned⟩

theorem eq_scan_iff_of_open_string :
    let text := "mov w0,\x27a\x22 \x27#1 \x22b,"
    let ts : List Token := [⟨.ident, "mov", 0, 3⟩, ⟨.ident, "w0", 4, 6⟩, ⟨.comma, ",", 6, 7⟩,
      ⟨.string, "\x27a\x22 \x27", 7, 12⟩, ⟨.ident, "#1", 12, 14⟩, ⟨.string, "\x22b,", 15, 18⟩]
    Grammar 0 text.toList ts ∧
      ¬Grammar 0 text.toList (⟨.ident, "m", 0, 1⟩ :: ⟨.ident, "ov", 1, 3⟩ :: ts.tail) := by
  intro text ts
  refine ⟨(eq_scan_iff text ts).mp (by decide +kernel), fun h => ?_⟩
  exact absurd ((eq_scan_iff _ _).mpr h) (by decide +kernel)

end SvcLens.Token
