import SvcLens.Proofs.Acceptance
import SvcLens.Proofs.Candidates
import SvcLens.Proofs.Literal

namespace SvcLens

open Text

namespace Immediate

open Numeral

inductive Reads : List Char → Nat → Prop
  | decimal {digits : List Char} : digits ≠ [] → (∀ c ∈ digits, isDecimal c) →
      Reads digits (ofDigits 10 (digits.filterMap decimalValue?))
  | hexadecimal {x : Char} {rest : List Char} {values : List Nat} : x = 'x' ∨ x = 'X' →
      rest ≠ [] → rest.mapM hexValue? = some values → Reads ('0' :: x :: rest) (ofDigits 16 values)

variable {s : String} {m n : Int} {digits : List Char}

theorem exists_reads_of_parse (h : parse ("#" ++ s) = .ok (some n)) :
    ∃ negative digits k, splitSign (trim s.toList) = (negative, digits) ∧ Reads digits k ∧
      n = signed negative k := by
  have hmark : behindMark? ("#" ++ s).toList = some s.toList := by
    rw [String.toList_append]
    exact behindMark?_append List.not_mem_nil s.toList
  cases hs : splitSign (trim s.toList)
  case mk negative digits =>
    simp only [parse, hmark, hs, Bool.and_eq_true, Bool.not_eq_true', List.isEmpty_eq_false_iff,
      List.all_eq_true] at h
    split at h
    case isTrue hd =>
      rw [readDecimal_eq hd.right hd.left] at h
      split at h
      case isTrue => cases h
      case isFalse =>
        obtain rfl := Option.some.inj (Except.ok.inj h)
        exact ⟨negative, digits, _, rfl, .decimal hd.left hd.right, rfl⟩
    case isFalse =>
      rw [Except.ok.injEq, Option.map_eq_some_iff] at h
      obtain ⟨values, hv, rfl⟩ := h
      obtain ⟨x, rest, rfl, hx, hn, hm⟩ := exists_of_hexDigits? hv
      exact ⟨negative, _, _, rfl, .hexadecimal hx hn hm, rfl⟩

theorem Reads.eq_of_ofUnsignedLiteral? {k l : Nat} (h : Reads digits k)
    (hl : ofUnsignedLiteral? (digits.map asciiForm) = some l) : l = k := by
  cases h
  case decimal hn hd =>
    have hne : digits.filterMap decimalValue? ≠ [] := by
      intro he
      have hmap := map_asciiForm_of_isDecimal hd
      simp [he, hn] at hmap
    rw [map_asciiForm_of_isDecimal hd] at hl
    exact ((ofUnsignedLiteral?_digits_iff hne fun _ => lt_of_mem_filterMap_decimalValue?).mp
      hl).right.right
  case hexadecimal x rest values hx hn hv =>
    have hread := ofUnsignedLiteral?_hexadecimal hx hn hv
    have hascii : ('0' :: x :: rest).map asciiForm = '0' :: x :: rest := by
      have hchars := (isLiteralChar_of_ofUnsignedLiteral? hread).right
      rw [List.map_congr_left fun c hc => asciiForm_of_lt (hchars c hc).bounds.right, List.map_id']
    rw [hascii, hread] at hl
    exact (Option.some.inj hl).symm

theorem eq_of_ofLiteral?_of_parse (hm : ofLiteral? s = some m)
    (hn : parse ("#" ++ s) = .ok (some n)) : m = n := by
  have ⟨negative, digits, k, hs, hk, he⟩ := exists_reads_of_parse hn
  have ⟨negative', body, l, hs', hl, he'⟩ := exists_of_ofLiteral? hm
  rw [splitSign_map_asciiForm, hs, Prod.mk.injEq] at hs'
  rw [← hs'.right] at hl
  rw [he, he', ← hs'.left, hk.eq_of_ofUnsignedLiteral? hl]

theorem parse_of_hexadecimal {text : String} {negative : Bool} {x : Char} {values : List Nat}
    (h : Spells text.toList negative ('0' :: x :: digits)) (hx : x = 'x' ∨ x = 'X')
    (hn : digits ≠ []) (hv : digits.mapM hexValue? = some values) :
    parse text = .ok (some (signed negative (ofDigits 16 values))) := by
  have hread := ofUnsignedLiteral?_hexadecimal hx hn hv
  have hchars := (isLiteralChar_of_ofUnsignedLiteral? hread).right
  obtain ⟨tail, ht, hs⟩ := h.splitSign (List.cons_ne_nil _ _)
    (fun c hc => Option.some.inj hc ▸ by decide)
    fun c hc => (hchars c (List.mem_of_getLast? hc)).not_isBlank
  have hdecimal : ('0' :: x :: digits).all isDecimal = false := by
    have hmark : isDecimal x = false := by rcases hx with rfl | rfl <;> decide
    simp [hmark]
  have hhex : hexDigits? ('0' :: x :: digits) = some values := by
    cases digits
    case nil => contradiction
    case cons d ds => rw [hexDigits?, if_pos (by simpa using hx), hv]
  simp only [parse, ht, hs, hdecimal, hhex, Bool.and_false, Bool.false_eq_true, if_false,
    Option.map_some]

theorem parse_hexadecimal (n : Int) : parse ("#" ++ hexadecimal n) = .ok (some n) := by
  have ⟨sign, hs, _, hx⟩ := exists_sign_append n
  have hspells := spells_sign hs ('0' :: 'x' :: (toDigits 16 n.natAbs).map digitChar)
  rw [← hx, ← List.singleton_append] at hspells
  have hn : (toDigits 16 n.natAbs).map digitChar ≠ [] := by simpa using toDigits_ne_nil 16 n.natAbs
  rw [parse_of_hexadecimal (by rwa [String.toList_append]) (.inl rfl) hn
    (mapM_hexValue?_toDigits n.natAbs), ofDigits_toDigits, signed_natAbs]

end Immediate

namespace Numeral

variable {n : Int} {s : String}

-- The spellings of a number that are read back wherever numbers are read.
inductive IsSpelling (n : Int) : String → Prop
  | hexadecimal : IsSpelling n (hexadecimal n)
  | decimal : (decimalOfNat n.natAbs).length ≤ maxDigits → IsSpelling n (decimal n)

theorem IsSpelling.ofLiteral?_eq (h : IsSpelling n s) : ofLiteral? s = some n := by
  cases h
  case hexadecimal => exact ofLiteral?_hexadecimal n
  case decimal h => exact ofLiteral?_decimal h

theorem IsSpelling.parse_eq (h : IsSpelling n s) : Immediate.parse ("#" ++ s) = .ok (some n) := by
  cases h
  case hexadecimal => exact Immediate.parse_hexadecimal n
  case decimal h => exact Immediate.parse_decimal (length_decimalOfNat_le_iff.mp h)

theorem Sign.isIdentChar {negative : Bool} {sign : List Char} (h : Sign negative sign) :
    ∀ c ∈ sign, Token.isIdentChar c := by
  cases h <;> simp <;> decide

theorem IsSpelling.isWord (h : IsSpelling n s) : Token.IsWord ("#" ++ s).toList := by
  cases h
  case decimal => exact isWord_decimal n
  case hexadecimal =>
    have hall : ∀ d < 16, Token.isIdentChar (digitChar d) := by decide +kernel
    have ⟨sign, hs, _, hx⟩ := exists_sign_append n
    refine ⟨by simp, ?_⟩
    rw [String.toList_append, hx, List.forall_mem_append, List.forall_mem_append]
    refine ⟨List.all_eq_true.mp (by decide), hs.isIdentChar, ?_⟩
    refine List.forall_mem_cons.mpr ⟨by decide, List.forall_mem_cons.mpr ⟨by decide, ?_⟩⟩
    exact List.forall_mem_map.mpr fun d hd => hall d (lt_of_mem_toDigits (by decide) d hd)

end Numeral

namespace TableFile

variable {content : List UInt8} {before after entry : List (Text.Loose × Json)} {f : TableFile}
variable {n : Int} {key : Text.Loose}

theorem numberOf?_ofString (s : String) : numberOf? (.ofString s) = Numeral.ofLiteral? s := by
  rw [numberOf?, Text.Loose.string?_ofString, Option.bind_some]

theorem exists_get?_of_last
    (h : Spells content (.object (before ++ (key, .object entry) :: after)))
    (hk : numberOf? key = some n) (ha : ∀ m ∈ after, numberOf? m.1 ≠ some n)
    (hf : load content = .ok f) : ∃ e, f.get? n = some e ∧ Describes entry e := by
  obtain ⟨ms, hms, holds⟩ := h.holds hf
  cases hms
  have hlast : (numbered n (before ++ (key, .object entry) :: after)).getLast? =
      some (key, .object entry) := by
    have hafter : numbered n after = [] := List.filter_eq_nil_iff.mpr fun m hm => by
      simpa using ha m hm
    rw [numbered, List.filter_append, List.filter_cons_of_pos (by simpa using hk)]
    rw [numbered] at hafter
    simp [hafter]
  have hsome : (f.get? n).isSome := (holds.isSome_iff n).mpr ⟨(key, .object entry), by simp, hk⟩
  obtain ⟨e, he⟩ := Option.isSome_iff_exists.mp hsome
  obtain ⟨key', entry', hlast', hdesc⟩ := holds.last n e he
  cases hlast.symm.trans hlast'
  exact ⟨e, he, hdesc⟩

end TableFile

namespace Analysis

variable {c : Context} {tokens : TokenTable} {line n : Int} {set : Assignment} {s : Syscall}
variable {ts : List Token} {value : String} {f g : Findings}

theorem exists_findingsOn_of_analyze (h : analyze c tokens = .ok f)
    (ht : tokens.get? line = some ts) :
    ∃ g, findingsOn c tokens (line, ts) = .ok g ∧ g.hints ⊆ f.hints := by
  have ⟨fs, hfs, hf⟩ := analyze_eq_ok h
  have hmem := IntMap.get?_eq_some_iff.mp ht
  have ⟨g, hg⟩ := exists_mapM_eq_ok_iff.mp ⟨fs, hfs⟩ _ hmem
  have hgs : g ∈ fs := (mem_iff_of_mapM_eq_ok hfs).mpr ⟨_, hmem, hg⟩
  refine ⟨g, hg, fun e he => ?_⟩
  rw [← hf]
  exact List.mem_flatMap.mpr ⟨g, hgs, he⟩

theorem mem_onLine_hintTable {x : Hint} (h : (line, x) ∈ f.hints) :
    x ∈ f.hintTable.onLine line := by
  rw [Findings.hintTable, HintTable.onLine_ofEvents]
  exact List.mem_map.mpr ⟨(line, x), List.mem_filter.mpr ⟨h, by simp⟩, rfl⟩

structure CallsWith (tokens : TokenTable) (line : Int) (ts : List Token) (set : Assignment) :
    Prop where
  stands : tokens.get? line = some ts
  call   : IsCall ts
  number : tokens.IsLastBefore line .number set

-- A system call that is found wherever its number was set to a value: a call is explained as this
-- one, its name and its result are shown in every analysis that succeeds, and that of the two lines
-- alone does.
structure Finds (c : Context) (value : String) (n : Int) (s : Syscall) : Prop where
  found : ∀ tokens line ts set, CallsWith tokens line ts set → set.value = value →
    findingsOn c tokens (line, ts) =
      (callHints c (tokens.lastBefore line) line set n s).map fun hints => { hints }
  shown : ∀ tokens line ts set f, CallsWith tokens line ts set → set.value = value →
    analyze c tokens = .ok f →
    ⟨"syscall: " ++ s.name ++ " (" ++ Numeral.decimal n ++ ")", .ofText s.signature⟩ ∈
        f.hintTable.onLine set.line ∧
      ⟨s.signature ++ " → " ++ s.returns, .ofText ("x0 = " ++ s.returns)⟩ ∈
        f.hintTable.onLine line
  explained : ∀ ending, ending ≠ .none →
    ∃ f, analyze c (.ofText (numberAndCall value ending)) = .ok f ∧ Explains n s f

theorem findingsOn_of_get? (h : CallsWith tokens line ts set)
    (hp : Immediate.parse set.value = .ok (some n)) (hs : c.syscalls.get? n = some s) :
    findingsOn c tokens (line, ts) =
      (callHints c (tokens.lastBefore line) line set n s).map fun hints => { hints } := by
  have ht := Instruction.ofTokens_eq_trap_iff.mpr h.call
  have hn := TokenTable.lastBefore_eq_some_iff.mpr h.number
  calc findingsOn c tokens (line, ts)
    _ = call c (tokens.lastBefore line) line set := by
      simp only [findingsOn, ht, findingsAt, hn, Option.elim_some]
    _ = (callHints c (tokens.lastBefore line) line set n s).map fun hints => { hints } := by
      rw [call, hp]
      simp only [bind, Except.bind, hs]
      cases callHints c (tokens.lastBefore line) line set n s <;> rfl

theorem finds_of_get? (hv : Token.IsWord value.toList)
    (hp : Immediate.parse value = .ok (some n)) (hs : c.syscalls.get? n = some s)
    (hn : n.natAbs < 10 ^ Numeral.maxDigits) : Finds c value n s where
  found tokens line ts set h hset := findingsOn_of_get? h (hset ▸ hp) hs
  explained ending hb := exists_explains hv hb hp hs hn
  shown tokens line ts set f h hset hf := by
    obtain ⟨g, hg, hsub⟩ := exists_findingsOn_of_analyze hf h.stands
    rw [findingsOn_of_get? h (hset ▸ hp) hs, map_eq_ok_iff] at hg
    obtain ⟨hints, hh, rfl⟩ := hg
    obtain rfl := callHints_eq_ok hh
    refine ⟨mem_onLine_hintTable (hsub ?_), mem_onLine_hintTable (hsub ?_)⟩
    · simp [callEvents]
    · simp [callEvents]

end Analysis

namespace TableFile

open Numeral

-- The two readers of numbers agree: where both read a text they read one number, both read the
-- spellings of a number, and a system call that is filed under one spelling is found under any.
theorem number_readers_agree :
    (∀ s m n, numberOf? (.ofString s) = some m → Immediate.parse ("#" ++ s) = .ok (some n) →
      m = n) ∧
    (∀ n s, IsSpelling n s →
      numberOf? (.ofString s) = some n ∧ Immediate.parse ("#" ++ s) = .ok (some n)) ∧
    (∀ n key value content before entry after, (decimalOfNat n.natAbs).length ≤ maxDigits →
      IsSpelling n key → IsSpelling n value →
      Spells content (.object (before ++ (.ofString key, .object entry) :: after)) →
      IsTable (.object (before ++ (.ofString key, .object entry) :: after)) →
      (∀ m ∈ after, numberOf? m.1 ≠ some n) →
      ∃ f e, load content = .ok f ∧ f.get? n = some e ∧ Describes entry e ∧
        ∀ standIn descriptors reporting,
          Analysis.Finds ⟨f.syscalls standIn, descriptors, reporting⟩ ("#" ++ value) n
            (e.syscall standIn)) := by
  refine ⟨fun s m n hm hn => ?_, fun n s h => ?_, ?_⟩
  · rw [numberOf?_ofString] at hm
    exact Immediate.eq_of_ofLiteral?_of_parse hm hn
  · rw [numberOf?_ofString]
    exact ⟨h.ofLiteral?_eq, h.parse_eq⟩
  · intro n key value content before entry after hn hkey hvalue hspells htable hafter
    have hnumber : numberOf? (.ofString key) = some n := by
      rw [numberOf?_ofString, hkey.ofLiteral?_eq]
    obtain ⟨f, hf⟩ := hspells.exists_load_iff.mpr htable
    obtain ⟨e, he, hdesc⟩ := exists_get?_of_last hspells hnumber hafter hf
    refine ⟨f, e, hf, he, hdesc, fun standIn descriptors reporting => ?_⟩
    refine Analysis.finds_of_get? hvalue.isWord hvalue.parse_eq ?_
      (length_decimalOfNat_le_iff.mp hn)
    rw [syscalls, IntMap.get?_map, he, Option.map_some]

theorem number_readers_agree_of_negative_key :
    ∃ content f e, load content = .ok f ∧ f.get? (-100) = some e ∧ e.name = .ofString "b" ∧
      ∃ g, analyze ⟨f.syscalls Text.Surrogate.standIn, Syscall.standardStreams, true⟩
          (.ofText (numberAndCall "#-100" .crlf)) = .ok g ∧
        Analysis.Explains (-100) (e.syscall Text.Surrogate.standIn) g := by
  let first : Text.Loose × Json := (.ofString "-100", .object [(.ofString "name", .ofText "a")])
  let entry : List (Text.Loose × Json) := [(.ofString "name", .ofText "b")]
  obtain ⟨text, ht⟩ : ∃ text, text =
      "\x7b\"-100\":\x7b\"name\":\"a\"\x7d,\"-0x64\":\x7b\"name\":\"b\"\x7d\x7d" := ⟨_, rfl⟩
  have hspells : Spells (Text.Utf8.encode text)
      (.object ([first] ++ (.ofString "-0x64", .object entry) :: [])) :=
    ⟨text, by rw [ht]; decide +kernel, by rw [ht]; cbv⟩
  have hentry (name : String) : IsEntry (.object [(.ofString "name", .ofText name)]) :=
    .intro (.head _) (.absent (by simp [Json.Has, Text.Loose.ofString])) (List.forall_mem_nil _)
  have htable : IsTable (.object ([first] ++ (.ofString "-0x64", .object entry) :: [])) :=
    .intro (List.forall_mem_cons.mpr ⟨⟨⟨-100, by decide +kernel⟩, hentry "a"⟩,
      List.forall_mem_singleton.mpr ⟨⟨-100, by decide +kernel⟩, hentry "b"⟩⟩)
  have hsize : (decimalOfNat (-100 : Int).natAbs).length ≤ maxDigits := by decide +kernel
  have hkey : hexadecimal (-100) = "-0x64" := by decide +kernel
  have hvalue : "#" ++ decimal (-100) = "#-100" := by decide +kernel
  obtain ⟨f, e, hf, he, hdesc, hfinds⟩ := number_readers_agree.right.right (-100) _ _ _ _ _ _ hsize
    (hkey ▸ .hexadecimal) (.decimal hsize) hspells htable (List.forall_mem_nil _)
  have hname : e.name = .ofString "b" := by
    have h := hdesc.name
    simpa [Json.Has, entry, Json.ofText] using h
  rw [hvalue] at hfinds
  exact ⟨_, f, e, hf, he, hname, (hfinds _ _ _).explained .crlf (by decide)⟩

end TableFile

end SvcLens
