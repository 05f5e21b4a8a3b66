import SvcLens.Proofs.Destination
import SvcLens.Proofs.Spacing

namespace SvcLens

namespace Text

def Line.text (l : Line) : String :=
  String.ofList l.chars

theorem Line.isBlank_iff {l : Line} : l.IsBlank ↔ (trim l.chars).isEmpty where
  mp h := by rw [h.trim_eq_nil, List.isEmpty_nil]
  mpr h _ := isBlank_of_mem h

theorem Line.not_isBlank_iff {l : Line} : ¬l.IsBlank ↔ ∃ c ∈ l.chars, ¬Text.isBlank c := by
  simp only [IsBlank]
  push Not
  rfl

end Text

namespace Token

variable {l : Text.Line}

theorem scan_text (l : Text.Line) : scan l.text = scanFrom 0 l.chars := by
  rw [scan, Text.Line.text, String.toList_ofList]

-- Whatever is not blank is no separator, so there is a token that it stands in.
theorem scan_text_ne_nil (h : ¬l.IsBlank) : scan l.text ≠ [] := by
  have ⟨c, hc, hb⟩ := Text.Line.not_isBlank_iff.mp h
  have ⟨i, hi⟩ := List.mem_iff_getElem?.mp hc
  have hg := Grammar.of_scanned (scanned_scanFrom 0 l.chars)
  rw [scan_text]
  intro hn
  rw [hn] at hg
  exact hb (isBlank_of_isSeparator (hg.gaps i c hi (by simp)))

theorem lf_notMem_of_mem_scan {cs : List Char} {t : Token} (hl : l ∈ Text.splitLines cs)
    (ht : t ∈ scan l.text) : '\n' ∉ t.text.toList := by
  have hg := Grammar.of_scanned (scanned_scanFrom 0 l.chars)
  rw [scan_text] at ht
  exact fun hn => Text.lf_notMem_of_mem_splitLines hl (hg.mem_of_mem_text ht hn)

end Token

namespace TokenTable

variable {text : String} {line : Int} {ts : List Token} {ls : List Text.Line}

def everyLineFrom (n : Nat) (ls : List Text.Line) : List (Int × List Token) :=
  (ls.zipIdx n).map fun e => ((e.2 : Int), Token.scan e.1.text)

theorem ascending_everyLineFrom (n : Nat) (ls : List Text.Line) :
    (everyLineFrom n ls).Pairwise (fun a b => a.1 < b.1) := by
  have hnumbers : ((ls.zipIdx n).map Prod.snd).Pairwise (· < ·) := by
    rw [List.zipIdx_map_snd]
    exact List.pairwise_lt_range'
  rw [everyLineFrom, List.pairwise_map]
  exact (List.pairwise_map.mp hnumbers).imp Int.ofNat_lt.mpr

def ofEveryLine (text : String) : TokenTable :=
  ⟨everyLineFrom 0 (Text.splitLines text.toList), ascending_everyLineFrom 0 _⟩

theorem mem_linesFrom {n k : Nat} {l : Text.Line} (hl : ls[k]? = some l) (hb : ¬l.IsBlank) :
    (((n + k : Nat) : Int), Token.scan l.text) ∈ linesFrom n ls := by
  rw [Text.Line.isBlank_iff] at hb
  rw [Token.scan_text]
  induction ls generalizing n k
  case nil => contradiction
  case cons m ls ih =>
    rw [linesFrom]
    cases k
    case zero =>
      obtain rfl : m = l := by simpa using hl
      rw [if_neg hb]
      exact List.mem_cons_self
    case succ k =>
      have ih := @ih (n + 1) k (by simpa using hl)
      rw [Nat.add_right_comm] at ih
      split
      case isTrue => exact ih
      case isFalse => exact List.mem_cons_of_mem _ ih

theorem get?_ofText_eq_some_iff : (ofText text).get? line = some ts ↔
    ∃ (n : Nat) (l : Text.Line), line = n ∧ (Text.splitLines text.toList)[n]? = some l ∧
      ¬l.IsBlank ∧ ts = Token.scan l.text := by
  constructor
  case mp =>
    intro h
    have ⟨n, l, hn, hl, hb, hts⟩ := exists_of_get?_ofText h
    exact ⟨n, l, hn, hl, Text.Line.isBlank_iff.not.mpr hb, hts.trans (Token.scan_text l).symm⟩
  case mpr =>
    rintro ⟨n, l, rfl, hl, hb, rfl⟩
    have hmem := @mem_linesFrom _ 0 n l hl hb
    rw [Nat.zero_add] at hmem
    exact IntMap.get?_eq_some_iff.mpr hmem

end TokenTable

namespace Analysis

open Instruction

theorem findingsFrom_cons_of_other (c : Context) (rs : Registers) (line : Int) {ts : List Token}
    (h : ofTokens ts = .other) (es : List (Int × List Token)) :
    findingsFrom c rs ((line, ts) :: es) = findingsFrom c rs es := by
  rw [findingsFrom, h]
  exact bind_pure (findingsFrom c rs es)

theorem findingsFrom_linesFrom (c : Context) (rs : Registers) (n : Nat) (ls : List Text.Line) :
    findingsFrom c rs (TokenTable.linesFrom n ls) =
      findingsFrom c rs (TokenTable.everyLineFrom n ls) := by
  induction ls generalizing rs n
  case nil => rfl
  case cons l ls ih =>
    have hevery : TokenTable.everyLineFrom n (l :: ls) =
        ((n : Int), Token.scanFrom 0 l.chars) :: TokenTable.everyLineFrom (n + 1) ls := by
      rw [← Token.scan_text]
      rfl
    rw [TokenTable.linesFrom, hevery]
    split
    case isTrue hb => rw [findingsFrom_cons_of_other c rs n (ofTokens_scanFrom_of_blank hb), ih]
    case isFalse => rw [findingsFrom, findingsFrom, ih]

-- The lines of a table are those that are not blank, each with at least one token, and an analysis
-- of them is an analysis of all lines.
theorem analyze_ofText_eq_ofEveryLine (text : String) :
    (∀ (line : Int) (ts : List Token), (TokenTable.ofText text).get? line = some ts ↔
      ∃ (n : Nat) (l : Text.Line), line = n ∧ (Text.splitLines text.toList)[n]? = some l ∧
        (∃ c ∈ l.chars, ¬Text.isBlank c) ∧ ts = Token.scan l.text) ∧
    (∀ (line : Int) (ts : List Token), (TokenTable.ofText text).get? line = some ts →
      ts ≠ [] ∧ ∀ t ∈ ts, '\n' ∉ t.text.toList) ∧
    ∀ c : Context, analyze c (.ofText text) = analyze c (.ofEveryLine text) := by
  refine ⟨fun line ts => ?_, fun line ts h => ?_, fun c => ?_⟩
  · simp only [TokenTable.get?_ofText_eq_some_iff, Text.Line.not_isBlank_iff]
  · obtain ⟨n, l, rfl, hl, hb, rfl⟩ := TokenTable.get?_ofText_eq_some_iff.mp h
    have hl := List.mem_of_getElem? hl
    exact ⟨Token.scan_text_ne_nil hb, fun t ht => Token.lf_notMem_of_mem_scan hl ht⟩
  · rw [analyze_eq_findingsFrom, analyze_eq_findingsFrom]
    exact findingsFrom_linesFrom c .unknown 0 _

theorem analyze_ofText_eq_ofEveryLine_of_blank_token :
    let text := "mov x8, #172\n\u00a0\x0c\r\n\nsvc #0\r"
    let c : Context := ⟨Syscall.linux, Syscall.standardStreams, true⟩
    (TokenTable.ofEveryLine text).get? 1 = some [⟨.ident, "\u00a0\x0c", 0, 2⟩] ∧
    (TokenTable.ofText text).get? 1 = none ∧
    (∃ ts, (TokenTable.ofText text).get? 3 = some ts ∧ ts ≠ [] ∧ ∀ t ∈ ts, '\n' ∉ t.text.toList) ∧
    (analyze c (.ofText text)).map (·.hintTable.size) = .ok 2 ∧
    analyze c (.ofText text) = analyze c (.ofEveryLine text) := by
  intro text c
  have hcall : (TokenTable.ofText text).get? 3 =
      some [⟨.ident, "svc", 0, 3⟩, ⟨.ident, "#0", 4, 6⟩] := by decide +kernel
  have ⟨_, htokens, hanalyze⟩ := analyze_ofText_eq_ofEveryLine text
  exact ⟨by decide +kernel, by decide +kernel, ⟨_, hcall, htokens 3 _ hcall⟩, by decide +kernel,
    hanalyze c⟩

end Analysis

end SvcLens
