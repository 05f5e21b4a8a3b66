import SvcLens.Proofs.Reanalysis

namespace SvcLens

open Instruction

inductive IsComment : List Char → Prop
  | intro {gap mark rest : List Char} : gap ≠ [] → (∀ c ∈ gap, Token.isSeparator c ∧ c ≠ '\n') →
      mark = ['/', '/'] ∨ mark = ['@'] → (∀ c ∈ rest, c ≠ '\r' ∧ c ≠ '\n') →
      IsComment (gap ++ mark ++ rest)

namespace Text

variable {c : Char} {cs : List Char}

theorem exists_trim_cons (h : ¬isBlank c) (cs : List Char) :
    ∃ more, trim (c :: cs) = c :: more := by
  rw [trim, List.dropWhile_cons_of_neg h, List.reverse_cons, List.dropWhile_append]
  split
  case isTrue => exact ⟨[], by simp [h]⟩
  case isFalse => exact ⟨(cs.reverse.dropWhile isBlank).reverse, by simp⟩

theorem isBlank_of_mem (h : (trim cs).isEmpty) (hc : c ∈ cs) : isBlank c := by
  by_contra hb
  exact List.ne_nil_of_mem (mem_trim hc hb) (List.isEmpty_iff.mp h)

theorem toLower_of_not_capital (h : c.toNat < 65 ∨ 90 < c.toNat) : c.toLower = c := by
  refine dif_neg ?_
  rintro ⟨hA, hZ⟩
  have hA : 65 ≤ c.toNat := hA
  have hZ : c.toNat ≤ 90 := hZ
  omega

theorem toLower_of_isBlank (h : isBlank c) : c.toLower = c := by
  have hr : ∀ r ∈ blankRanges, r.2 < 65 ∨ 90 < r.1 := by decide
  simp only [isBlank, inRanges, List.any_eq_true, Bool.and_eq_true, decide_eq_true_eq] at h
  obtain ⟨r, hm, hl, hu⟩ := h
  have := hr r hm
  exact toLower_of_not_capital (by omega)

end Text

namespace Token

variable {c : Char} {cs : List Char} {col : Nat} {t : Token}

-- A token that starts like no word of an instruction: with a quote, or with a mark of a comment.
def IsForeign (t : Token) : Prop :=
  t.kind ≠ .comma ∧ ∃ c more, t.text.toList = c :: more ∧ c ∈ ['\x27', '\x22', '/', '@']

theorem IsQuoted.isForeign (h : t.IsQuoted) : t.IsForeign := by
  obtain ⟨hk, q, body, hq, ht⟩ := h
  simp only [isQuote, Bool.or_eq_true, beq_iff_eq] at hq
  refine ⟨by simp [hk], q, body, ht, ?_⟩
  rcases hq with rfl | rfl <;> simp

theorem isForeign_of_scanFrom_cons (hc : c ∈ ['\x27', '\x22', '/', '@']) (col : Nat)
    (cs : List Char) : ∃ t us, scanFrom col (c :: cs) = t :: us ∧ t.IsForeign := by
  have hs : ¬isSeparator c := by
    simp only [List.mem_cons, List.not_mem_nil, or_false] at hc
    rcases hc with rfl | rfl | rfl | rfl <;> decide
  have ⟨kind, word, rest, hl, hcs⟩ := Lexeme.exists_of_not_isSeparator hs cs
  obtain ⟨more, rfl⟩ := hl.exists_head hcs.symm
  refine ⟨ofChars kind col (c :: more), _, hcs ▸ hl.scanFrom_eq col, ?_, c, more, ?_, hc⟩
  · rintro (rfl : kind = .comma)
    cases hl
    simp at hc
  · simp [ofChars]

theorem exists_scanFrom_comment (h : IsComment cs) (col : Nat) :
    ∃ t us, scanFrom col cs = t :: us ∧ t.IsForeign := by
  obtain @⟨gap, mark, rest, _, hs, hm, _⟩ := h
  rw [List.append_assoc, scanFrom_append_of_isSeparator fun c hc => (hs c hc).left]
  rcases hm with rfl | rfl
  case inl => exact isForeign_of_scanFrom_cons (by simp) _ ('/' :: rest)
  case inr => exact isForeign_of_scanFrom_cons (by simp) _ rest

end Token

namespace Instruction

variable {ts us vs : List Token} {t : Token}

theorem not_isMnemonic_of_isForeign (h : t.IsForeign) :
    ¬isMnemonic "mov" t ∧ ¬isMnemonic "svc" t := by
  obtain ⟨_, c, more, ht, hc⟩ := h
  simp only [List.mem_cons, List.not_mem_nil, or_false] at hc
  rcases hc with rfl | rfl | rfl | rfl <;> simp [isMnemonic, ht]

theorem text_ne_of_isForeign (h : t.IsForeign) : t.text ≠ "#0" := by
  obtain ⟨_, c, more, ht, hc⟩ := h
  intro he
  obtain ⟨rfl, -⟩ : '#' = c ∧ ['0'] = more := by simpa [he] using ht
  simp at hc

theorem ofToken?_of_isForeign (h : t.IsForeign) : Tracked.ofToken? t.text = none := by
  obtain ⟨_, c, more, ht, hc⟩ := h
  have hb : ¬Text.isBlank c := by
    simp only [List.mem_cons, List.not_mem_nil, or_false] at hc
    rcases hc with rfl | rfl | rfl | rfl <;> decide
  have ⟨more', hm⟩ := Text.exists_trim_cons hb more
  simp only [List.mem_cons, List.not_mem_nil, or_false] at hc
  rcases hc with rfl | rfl | rfl | rfl <;>
    simp [Tracked.ofToken?, Register.parse, ht, hm, Register.ofWord?, List.lookup_cons]

def LacksValue (ts : List Token) : Prop :=
  ∃ mov target comma, ts = [mov, target, comma] ∧ isMnemonic "mov" mov ∧
    (Tracked.ofToken? target.text).isSome ∧ comma.kind = .comma

-- A foreign token completes no instruction that it stands behind, unless it is taken as a value.
theorem isEffective_of_append (ht : t.IsForeign) (h : (ofTokens (ts ++ t :: us)).isEffective) :
    (ofTokens ts).isEffective ∨ (LacksValue ts ∧ t.kind = .ident) := by
  have ⟨hmov, hsvc⟩ := not_isMnemonic_of_isForeign ht
  cases hi : ofTokens (ts ++ t :: us)
  case assign r value =>
    obtain ⟨mov, target, comma, rest, hts, hm, hr, hc, hv⟩ := ofTokens_eq_assign hi
    rcases ts with _ | ⟨a, _ | ⟨b, _ | ⟨d, _ | ⟨e, ts⟩⟩⟩⟩
    case nil =>
      obtain ⟨rfl, -⟩ := List.cons.inj hts
      contradiction
    case cons.nil =>
      obtain ⟨-, rfl, -⟩ : a = mov ∧ t = target ∧ us = comma :: value :: rest := by simpa using hts
      simp [ofToken?_of_isForeign ht] at hr
    case cons.cons.nil =>
      obtain ⟨-, -, rfl, -⟩ : a = mov ∧ b = target ∧ t = comma ∧ us = value :: rest := by
        simpa using hts
      exact absurd hc ht.left
    case cons.cons.cons.nil =>
      obtain ⟨rfl, rfl, rfl, rfl, -⟩ :
          a = mov ∧ b = target ∧ d = comma ∧ t = value ∧ us = rest := by simpa using hts
      exact .inr ⟨⟨a, b, d, rfl, hm, by simp [hr], hc⟩, hv⟩
    case cons.cons.cons.cons =>
      obtain ⟨rfl, rfl, rfl, rfl, -⟩ : a = mov ∧ b = target ∧ d = comma ∧ e = value ∧ _ = rest := by
        simpa using hts
      exact .inl (by simp [ofTokens, ofMov, ofOperands, ofValue, hm, hr, hc, hv, isEffective])
  case trap =>
    obtain ⟨svc, operand, rest, hts, hs, ho⟩ := ofTokens_eq_trap hi
    rcases ts with _ | ⟨a, _ | ⟨b, ts⟩⟩
    case nil =>
      obtain ⟨rfl, -⟩ := List.cons.inj hts
      contradiction
    case cons.nil =>
      obtain ⟨-, rfl, -⟩ : a = svc ∧ t = operand ∧ us = rest := by simpa using hts
      exact absurd ho (text_ne_of_isForeign ht)
    case cons.cons =>
      obtain ⟨rfl, rfl, -⟩ : a = svc ∧ b = operand ∧ _ = rest := by simpa using hts
      exact .inl (by simp [ofTokens_svc hs, ofSvc_eq, ho, isEffective])
  case foreignTrap =>
    obtain ⟨svc, operands, hts, hs, -⟩ := ofTokens_eq_foreignTrap hi
    rcases ts with _ | ⟨a, ts⟩
    case nil =>
      obtain ⟨rfl, -⟩ := List.cons.inj hts
      contradiction
    case cons =>
      obtain ⟨rfl, -⟩ := List.cons.inj hts
      refine .inl ?_
      rw [ofTokens_svc hs, ofSvc_eq]
      split <;> rfl
  all_goals simp [hi, isEffective] at h

def SameEffect (i j : Instruction) : Prop :=
  i = j ∨ (¬i.isEffective ∧ ¬j.isEffective)

theorem sameEffect_continued (hc : Token.Continued ts (t :: us) vs) (ht : t.IsForeign)
    (hv : ¬LacksValue ts) : SameEffect (ofTokens vs) (ofTokens ts) := by
  by_cases h : (ofTokens ts).isEffective
  case pos => exact .inl <| ofTokens_continued hc h (by simp [text_ne_of_isForeign ht])
  case neg =>
    refine .inr ⟨fun hvs => h ?_, h⟩
    cases hc
    case appended => exact (isEffective_of_append ht hvs).resolve_right fun hl => hv hl.left
    case absorbed ws s u xs hts hs hu =>
      -- The string at the end goes on, but what counts is in front of it.
      have hws := (isEffective_of_append hu.isForeign hvs).resolve_right fun hl => by
        simp [hu.left] at hl
      rw [hts, ofTokens_append hws (by simp [text_ne_of_isQuoted hs])]
      exact hws

theorem ofTokens_scanFrom_of_blank {cs : List Char} (h : (Text.trim cs).isEmpty) :
    ofTokens (Token.scanFrom 0 cs) = .other := by
  have hg := Token.Grammar.of_scanned (Token.scanned_scanFrom 0 cs)
  cases hts : Token.scanFrom 0 cs
  case nil => rfl
  case cons t us =>
    have hblank : ∀ c ∈ t.text.toList, Text.isBlank c := by
      intro c hc
      exact Text.isBlank_of_mem h (hg.mem_of_mem_text (by simp [hts]) hc)
    have hlower : t.text.toList.map Char.toLower = t.text.toList :=
      (List.map_congr_left fun c hc => Text.toLower_of_isBlank (hblank c hc)).trans (List.map_id _)
    have hword {c : Char} {more : List Char} (hc : ¬Text.isBlank c) :
        t.text.toList.map Char.toLower ≠ c :: more := by
      intro he
      rw [hlower] at he
      exact hc (hblank c (by simp [he]))
    have hmov : ¬isMnemonic "mov" t := fun hm => hword (by decide) (eq_of_beq hm)
    have hsvc : ¬isMnemonic "svc" t := fun hs => hword (by decide) (eq_of_beq hs)
    simp [ofTokens, hmov, hsvc]

end Instruction

namespace TokenTable

variable {n : Nat} {ls : List Text.Line}

def effective (es : List (Int × List Token)) : List (Int × List Token) :=
  es.filter fun e => (ofTokens e.2).isEffective

theorem effective_linesFrom_cons (n : Nat) (l : Text.Line) (ls : List Text.Line) :
    effective (linesFrom n (l :: ls)) =
      effective (((n : Int), Token.scanFrom 0 l.chars) :: linesFrom (n + 1) ls) := by
  rw [linesFrom]
  split
  case isFalse => rfl
  case isTrue hb => simp [effective, ofTokens_scanFrom_of_blank hb, isEffective]

theorem readings_effective_mapIdx {f : Nat → Text.Line → Text.Line}
    (h : ∀ k l, ls[k]? = some l → SameEffect (ofTokens (Token.scanFrom 0 (f k l).chars))
      (ofTokens (Token.scanFrom 0 l.chars))) :
    readings (effective (linesFrom n (ls.mapIdx f))) = readings (effective (linesFrom n ls)) := by
  induction ls generalizing n f
  case nil => rfl
  case cons l ls ih =>
    have ih := @ih (n + 1) (fun k => f (k + 1)) fun k m hm => h (k + 1) m (by simpa using hm)
    rw [List.mapIdx_cons, effective_linesFrom_cons, effective_linesFrom_cons]
    simp only [effective, List.filter_cons] at ih ⊢
    rcases h 0 l rfl with hi | ⟨hi, hj⟩
    case inl =>
      rw [hi]
      split
      case isTrue => simpa [readings, hi] using ih
      case isFalse => exact ih
    case inr => simpa [hi, hj] using ih

end TokenTable

namespace Analysis

variable {c : Context} {rs : Registers} {es ds : List (Int × List Token)}

theorem hints_findingsFrom_cons (c : Context) (rs : Registers) (e : Int × List Token)
    (es : List (Int × List Token)) :
    (findingsFrom c rs (e :: es)).map (·.hints) = (do
      let here ← findingsAt c rs e.1 (ofTokens e.2)
      let later ← (findingsFrom c (rs.after e.1 (ofTokens e.2)) es).map (·.hints)
      return here.hints ++ later) := by
  rw [findingsFrom]
  cases findingsAt c rs e.1 (ofTokens e.2)
  case error => rfl
  case ok => cases findingsFrom c (rs.after e.1 (ofTokens e.2)) es <;> rfl

theorem findingsAt_of_not_isEffective (c : Context) (rs : Registers) (line : Int)
    {i : Instruction} (h : ¬i.isEffective) :
    ∃ f, findingsAt c rs line i = .ok f ∧ f.hints = [] ∧ rs.after line i = rs := by
  cases i
  case malformed problem culprit => exact ⟨_, rfl, rfl, rfl⟩
  case other => exact ⟨_, rfl, rfl, rfl⟩
  all_goals simp [isEffective] at h

theorem hints_findingsFrom_effective (c : Context) (rs : Registers) (es : List (Int × List Token)) :
    (findingsFrom c rs es).map (·.hints) =
      (findingsFrom c rs (TokenTable.effective es)).map (·.hints) := by
  induction es generalizing rs
  case nil => rfl
  case cons e es ih =>
    by_cases he : (ofTokens e.2).isEffective
    case pos =>
      rw [TokenTable.effective, List.filter_cons_of_pos (by simpa using he)]
      rw [hints_findingsFrom_cons, hints_findingsFrom_cons, ih]
      rfl
    case neg =>
      rw [TokenTable.effective, List.filter_cons_of_neg (by simpa using he)]
      obtain ⟨f, hf, hh, hr⟩ := findingsAt_of_not_isEffective c rs e.1 he
      rw [hints_findingsFrom_cons, hf, hr, ih, TokenTable.effective]
      cases findingsFrom c rs (es.filter _)
      case error => rfl
      case ok g => exact congrArg Except.ok (by rw [hh]; rfl)

end Analysis

def Text.appendToLine (text : String) (k : Nat) (more : List Char) : String :=
  String.ofList <| joinLines <| (splitLines text.toList).mapIdx fun n l =>
    if n = k then { l with chars := l.chars ++ more } else l

namespace IsComment

variable {comment : List Char}

theorem head?_isSeparator (h : IsComment comment) : ∀ c ∈ comment.head?, Token.isSeparator c := by
  obtain @⟨gap, mark, rest, hg, hs, _, _⟩ := h
  intro c hc
  rw [List.append_assoc, List.head?_append_of_ne_nil _ hg] at hc
  exact (hs c (List.mem_of_mem_head? hc)).left

theorem lf_notMem (h : IsComment comment) : '\n' ∉ comment := by
  obtain ⟨_, hs, hm, hr⟩ := h
  simp only [List.mem_append, not_or]
  refine ⟨⟨fun h => (hs _ h).right rfl, ?_⟩, fun h => (hr _ h).right rfl⟩
  rcases hm with rfl | rfl <;> decide

-- A comment does not end in a carriage return, which would go into the break behind it.
theorem getLast?_ne (h : IsComment comment) (cs : List Char) :
    (cs ++ comment).getLast? ≠ some '\r' := by
  obtain @⟨gap, mark, rest, _, _, hm, hr⟩ := h
  rw [← List.append_assoc, ← List.append_assoc]
  cases rest
  case nil => rcases hm with rfl | rfl <;> simp
  case cons d ds =>
    rw [List.getLast?_append_of_ne_nil _ (by simp)]
    intro hl
    exact (hr _ (List.mem_of_getLast? hl)).left rfl

theorem splitLines_appendToLine (h : IsComment comment) (text : String) (k : Nat) :
    Text.splitLines (Text.appendToLine text k comment).toList =
      (Text.splitLines text.toList).mapIdx fun n l =>
        if n = k then { l with chars := l.chars ++ comment } else l := by
  have hcomplete := (Text.complete_splitLines text.toList).mapIdx
    (f := fun n l => if n = k then { l with chars := l.chars ++ comment } else l)
    fun n l => by split <;> rfl
  -- The lines are as they are cut off again.
  have hlines : ∀ m ∈ (Text.splitLines text.toList).mapIdx fun n l =>
      if n = k then { l with chars := l.chars ++ comment } else l,
      '\n' ∉ m.chars ∧ m.settle = m := by
    intro m hm
    have ⟨n, hn, hm⟩ := List.mem_mapIdx.mp hm
    have hl := List.getElem_mem hn
    rw [← hm]
    split
    case isTrue =>
      refine ⟨?_, if_neg fun hs => h.getLast?_ne _ hs.right⟩
      rw [List.mem_append, not_or]
      exact ⟨Text.lf_notMem_of_mem_splitLines hl, h.lf_notMem⟩
    case isFalse => exact ⟨Text.lf_notMem_of_mem_splitLines hl, Text.settle_of_mem_splitLines hl⟩
  rw [Text.appendToLine, String.toList_ofList,
    Text.splitLines_joinLines hcomplete fun m hm => (hlines m hm).left]
  exact (List.map_congr_left fun m hm => (hlines m hm).right).trans (List.map_id _)

theorem sameEffect_append (h : IsComment comment) {cs : List Char}
    (hv : ¬LacksValue (Token.scanFrom 0 cs)) :
    SameEffect (ofTokens (Token.scanFrom 0 (cs ++ comment))) (ofTokens (Token.scanFrom 0 cs)) := by
  have ⟨t, us, hts, ht⟩ := Token.exists_scanFrom_comment h (0 + cs.length)
  have hcont := (Token.scanned_scanFrom 0 cs).continued h.head?_isSeparator
  rw [hts] at hcont
  exact sameEffect_continued hcont ht hv

end IsComment

namespace Analysis

-- A comment behind the code of a line changes no hint, unless the code is an assignment that breaks
-- off behind its comma.
theorem hintTable_appendToLine (c : Context) (text : String) (k : Nat) {comment : List Char}
    (hc : IsComment comment)
    (hv : ∀ l, (Text.splitLines text.toList)[k]? = some l →
      ¬LacksValue (Token.scanFrom 0 l.chars)) :
    (analyze c (.ofText (Text.appendToLine text k comment))).map (·.hintTable) =
      (analyze c (.ofText text)).map (·.hintTable) := by
  have hr : TokenTable.readings (TokenTable.effective
      (TokenTable.ofText (Text.appendToLine text k comment)).entries) =
      TokenTable.readings (TokenTable.effective (TokenTable.ofText text).entries) := by
    simp only [TokenTable.ofText, hc.splitLines_appendToLine]
    refine TokenTable.readings_effective_mapIdx fun n l hl => ?_
    split
    case isTrue hn => exact hc.sameEffect_append (hv l (hn ▸ hl))
    case isFalse => exact .inl rfl
  have hhints : (analyze c (.ofText (Text.appendToLine text k comment))).map (·.hints) =
      (analyze c (.ofText text)).map (·.hints) := by
    rw [analyze_eq_findingsFrom, analyze_eq_findingsFrom, hints_findingsFrom_effective,
      findingsFrom_congr hr, ← hints_findingsFrom_effective]
  have htable (x : Except Numeral.Error Findings) :
      x.map (·.hintTable) = (x.map (·.hints)).map HintTable.ofEvents := by
    cases x <;> rfl
  rw [htable, htable, hhints]

theorem hintTable_appendToLine_of_bare_trap :
    IsComment " // #0".toList ∧
    (∀ l, (Text.splitLines "mov x8, #172\nsvc".toList)[1]? = some l →
      ¬LacksValue (Token.scanFrom 0 l.chars)) ∧
    Text.appendToLine "mov x8, #172\nsvc" 1 " // #0".toList = "mov x8, #172\nsvc // #0" ∧
    (analyze ⟨Syscall.linux, Syscall.standardStreams, true⟩
        (.ofText (Text.appendToLine "mov x8, #172\nsvc" 1 " // #0".toList))).map (·.hintTable) =
      (analyze ⟨Syscall.linux, Syscall.standardStreams, true⟩
        (.ofText "mov x8, #172\nsvc")).map (·.hintTable) := by
  have hc : IsComment " // #0".toList :=
    @IsComment.intro [' '] ['/', '/'] [' ', '#', '0'] (by simp) (by simp [Token.isSeparator])
      (.inl rfl) (by simp)
  have hv : ∀ l, (Text.splitLines "mov x8, #172\nsvc".toList)[1]? = some l →
      ¬LacksValue (Token.scanFrom 0 l.chars) := by
    have hlength : (Text.splitLines "mov x8, #172\nsvc".toList)[1]?.map
        (fun l => (Token.scanFrom 0 l.chars).length) = some 1 := by decide +kernel
    rintro l hl ⟨mov, target, comma, hts, -⟩
    rw [hl, Option.map_some, hts] at hlength
    simp at hlength
  exact ⟨hc, hv, by decide +kernel, hintTable_appendToLine _ _ 1 hc hv⟩

-- The comment becomes the value of an assignment that had none, and the number that was known is
-- lost.
theorem hintTable_ne_of_comment_as_value :
    IsComment " // none".toList ∧
    ∃ f g, analyze ⟨Syscall.linux, Syscall.standardStreams, true⟩
        (.ofText "mov x8, #172\nmov x8,\nsvc #0") = .ok f ∧
      analyze ⟨Syscall.linux, Syscall.standardStreams, true⟩
        (.ofText (Text.appendToLine "mov x8, #172\nmov x8,\nsvc #0" 1 " // none".toList)) = .ok g ∧
      f.hintTable ≠ g.hintTable := by
  have hc : IsComment " // none".toList :=
    @IsComment.intro [' '] ['/', '/'] [' ', 'n', 'o', 'n', 'e'] (by simp)
      (by simp [Token.isSeparator]) (.inl rfl) (by simp)
  have hf : (analyze ⟨Syscall.linux, Syscall.standardStreams, true⟩
      (.ofText "mov x8, #172\nmov x8,\nsvc #0")).map (·.hintTable.size) = .ok 2 := by decide +kernel
  have hg : (analyze ⟨Syscall.linux, Syscall.standardStreams, true⟩
      (.ofText (Text.appendToLine "mov x8, #172\nmov x8,\nsvc #0" 1 " // none".toList))).map
      (·.hintTable.size) = .ok 0 := by decide +kernel
  obtain ⟨f, hf, hfs⟩ := map_eq_ok_iff.mp hf
  obtain ⟨g, hg, hgs⟩ := map_eq_ok_iff.mp hg
  refine ⟨hc, f, g, hf, hg, ?_⟩
  intro he
  rw [he, hgs] at hfs
  exact absurd hfs (by decide)

end Analysis

end SvcLens
