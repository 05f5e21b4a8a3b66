import SvcLens.Completion
import SvcLens.Proofs.Comment
import SvcLens.Proofs.Spelling
import SvcLens.Syscall.Linux

namespace SvcLens

namespace Text

variable {c : Char} {gap word rest : List Char} {p : Char → Bool}

theorem words_append (hg : ∀ c ∈ gap, p c) (hn : word ≠ []) (hw : ∀ c ∈ word, ¬p c)
    (hr : ∀ c ∈ rest.head?, p c) : words p (gap ++ (word ++ rest)) = word :: words p rest := by
  cases word
  case nil => contradiction
  case cons c more =>
    have hmore : ∀ d ∈ more, (!p d) = true := fun d hd => by
      simpa using hw d (List.mem_cons_of_mem _ hd)
    have hrest : ∀ d ∈ rest.head?, ¬(!p d) = true := fun d hd => by simpa using hr d hd
    have hd : (gap ++ (c :: more ++ rest)).dropWhile p = c :: (more ++ rest) :=
      Token.dropWhile_append_eq hg (by simpa using hw c List.mem_cons_self)
    rw [words.eq_def]
    split
    case h_1 he => exact absurd (hd.symm.trans he) (by simp)
    case h_2 he =>
      obtain ⟨rfl, rfl⟩ := List.cons.inj (hd.symm.trans he)
      rw [Token.takeWhile_append_eq hmore hrest, Token.dropWhile_append_eq hmore hrest]

theorem words_append_append {lead more : List Char} (hg : ∀ c ∈ gap, p c) (hn : word ≠ [])
    (hw : ∀ c ∈ word, ¬p c) (hl : lead ≠ []) (hs : ∀ c ∈ lead, p c) (hm : more ≠ [])
    (hmore : ∀ c ∈ more, ¬p c) (hr : ∀ c ∈ rest.head?, p c) :
    words p (gap ++ (word ++ (lead ++ (more ++ rest)))) = word :: more :: words p rest := by
  have hlead : ∀ c ∈ (lead ++ (more ++ rest)).head?, p c := by
    rw [List.head?_append_of_ne_nil _ hl]
    exact fun c hc => hs c (List.mem_of_mem_head? hc)
  rw [words_append hg hn hw hlead, words_append hs hm hmore hr]

theorem trim_eq_self {cs : List Char} (h : ∀ c ∈ cs, ¬isBlank c) : trim cs = cs := by
  cases cs
  case nil => rfl
  case cons c cs =>
    simpa using @trim_append [] (c :: cs) [] (by simp) (by simp) (by simp)
      (fun d hd => h d (List.mem_of_mem_head? hd)) (fun d hd => h d (List.mem_of_getLast? hd))

theorem isBlank_iff : isBlank c ↔ ∃ r ∈ blankRanges, r.1 ≤ c.toNat ∧ c.toNat ≤ r.2 := by
  simp [isBlank, inRanges]

theorem exists_range_of_isDigitLike (h : isDigitLike c) :
    ∃ r : Nat × Nat, (r.1 ≤ c.toNat ∧ c.toNat ≤ r.2) ∧ 48 ≤ r.1 ∧ (r.2 < 65 ∨ 90 < r.1) ∧
      ∀ b ∈ blankRanges, b.2 < r.1 ∨ r.2 < b.1 := by
  have hall : ∀ r ∈ decimalZeros.map (fun z => (z, z + 9)) ++ dressedDigitRanges,
      48 ≤ r.1 ∧ (r.2 < 65 ∨ 90 < r.1) ∧ ∀ b ∈ blankRanges, b.2 < r.1 ∨ r.2 < b.1 := by
    decide +kernel
  obtain ⟨r, hr, hc⟩ : ∃ r ∈ decimalZeros.map (fun z => (z, z + 9)) ++ dressedDigitRanges,
      r.1 ≤ c.toNat ∧ c.toNat ≤ r.2 := by
    simp only [isDigitLike, isDecimal, decimalValue?, inRanges, Option.isSome_map,
      List.find?_isSome, List.any_eq_true, Bool.or_eq_true, Bool.and_eq_true,
      decide_eq_true_eq] at h
    cases h
    case inl h =>
      obtain ⟨z, hz, hle, hlt⟩ := h
      exact ⟨(z, z + 9), List.mem_append_left _ (List.mem_map_of_mem hz), hle, by omega⟩
    case inr h =>
      obtain ⟨r, hr, hc⟩ := h
      exact ⟨r, List.mem_append_right _ hr, hc⟩
  exact ⟨r, hc, hall r hr⟩

def IsNameChar (c : Char) : Prop :=
  c = 'x' ∨ c = 'w' ∨ isDigitLike c

theorem IsNameChar.not_isBlank (h : IsNameChar c) : ¬isBlank c := by
  rcases h with rfl | rfl | h
  case inl | inr.inl => decide
  case inr.inr =>
    have ⟨r, hc, _, _, hb⟩ := exists_range_of_isDigitLike h
    intro hblank
    have ⟨b, hm, _⟩ := isBlank_iff.mp hblank
    have := hb b hm
    omega

theorem IsNameChar.ne_comma (h : IsNameChar c) : c ≠ ',' := by
  rintro rfl
  rcases h with h | h | h
  case inl | inr.inl => contradiction
  case inr.inr => exact absurd h (by decide +kernel)

theorem IsNameChar.toLower_eq (h : IsNameChar c) : c.toLower = c := by
  rcases h with rfl | rfl | h
  case inl | inr.inl => decide
  case inr.inr =>
    have ⟨r, hc, _, hr, _⟩ := exists_range_of_isDigitLike h
    exact toLower_of_not_capital (by omega)

theorem map_toLower_trim {cs : List Char} (h : ∀ c ∈ cs, IsNameChar c) :
    (trim cs).map Char.toLower = cs := by
  rw [trim_eq_self fun c hc => (h c hc).not_isBlank]
  exact (List.map_congr_left fun c hc => (h c hc).toLower_eq).trans (List.map_id _)

end Text

open Text

namespace Register

variable {reg : Register} {name other : String} {view : Fin 31 → Register} {digits : List Char}

theorem toOption_numbered (view : Fin 31 → Register) (name other : String) (digits : List Char) :
    (numbered view name digits).toOption = (numbered view other digits).toOption := by
  unfold numbered
  repeat' split
  all_goals rfl

-- Blanks around a name and capital letters in it do not matter.
theorem toOption_parse_congr
    (h : (trim name.toList).map Char.toLower = (trim other.toList).map Char.toLower) :
    (parse name).toOption = (parse other).toOption := by
  simp only [parse, h]
  cases ofWord? ((trim other.toList).map Char.toLower)
  case some => rfl
  case none =>
    dsimp only
    split
    case h_1 => exact toOption_numbered ..
    case h_2 => exact toOption_numbered ..
    case h_3 => rfl

theorem parse_eq_ok (h : parse name = .ok reg) :
    ofWord? ((trim name.toList).map Char.toLower) = some reg ∨
      ∃ letter digits, (trim name.toList).map Char.toLower = letter :: digits ∧
        (letter = 'x' ∨ letter = 'w') ∧ ∃ view, numbered view name digits = .ok reg := by
  simp only [parse] at h
  split at h
  case h_1 hw => exact .inl (hw.trans (congrArg _ (Except.ok.inj h)))
  case h_2 =>
    split at h
    case h_1 digits he => exact .inr ⟨'x', digits, he, .inl rfl, _, h⟩
    case h_2 digits he => exact .inr ⟨'w', digits, he, .inr rfl, _, h⟩
    case h_3 => contradiction

-- What holds of all registers with a name without a number, holds of the one that was found.
theorem of_ofWord? {P : List Char → Register → Prop} {cs : List Char} (h : ofWord? cs = some reg)
    (hall : ∀ e ∈ [("fp".toList, Register.x 29), ("lr".toList, .x 30), ("sp".toList, .sp),
      ("wsp".toList, .wsp), ("xzr".toList, .xzr), ("wzr".toList, .wzr)], P e.1 e.2) :
    P cs reg := by
  have ⟨_, _, he, _⟩ := List.lookup_eq_some_iff.mp h
  exact hall (cs, reg) (by rw [he]; simp)

theorem isDigitLike_of_numbered (h : numbered view name digits = .ok reg) :
    ∀ c ∈ digits, isDigitLike c := by
  unfold numbered at h
  split at h
  case isTrue => contradiction
  case isFalse hd => simp_all

end Register

namespace Tracked

variable {r : Tracked} {name other : String}

theorem ofToken?_congr
    (h : (trim name.toList).map Char.toLower = (trim other.toList).map Char.toLower) :
    ofToken? name = ofToken? other := by
  have hp := Register.toOption_parse_congr h
  unfold ofToken?
  cases hn : Register.parse name <;> cases ho : Register.parse other <;>
    simp_all [Except.toOption]

theorem ofRegister?_of_ofWord? {cs : List Char} {reg : Register}
    (h : Register.ofWord? cs = some reg) : ofRegister? reg = none :=
  Register.of_ofWord? (P := fun _ reg => ofRegister? reg = none) h (by decide +kernel)

theorem isNameChar_of_ofToken? (h : ofToken? name = some r) :
    ∀ c ∈ (trim name.toList).map Char.toLower, IsNameChar c := by
  unfold ofToken? at h
  split at h
  case h_2 => contradiction
  case h_1 reg hp =>
    cases Register.parse_eq_ok hp
    case inl hw => exact absurd ((ofRegister?_of_ofWord? hw).symm.trans h) (by simp)
    case inr hn =>
      have ⟨letter, digits, he, hl, view, hn⟩ := hn
      have hd := Register.isDigitLike_of_numbered hn
      rw [he]
      refine List.forall_mem_cons.mpr ⟨?_, fun c hc => .inr <| .inr <| hd c hc⟩
      exact hl.imp_right .inl

theorem trim_ne_nil_of_ofToken? (h : ofToken? name = some r) : trim name.toList ≠ [] := by
  have hempty : ofToken? "" = none := by decide +kernel
  intro ht
  have hname : ofToken? name = ofToken? "" := ofToken?_congr (by rw [ht]; rfl)
  exact absurd (hempty.symm.trans (hname.symm.trans h)) (by simp)

theorem ofToken?_ofList_toLower (h : ofToken? name = some r) :
    ofToken? (String.ofList ((trim name.toList).map Char.toLower)) = some r := by
  refine (ofToken?_congr ?_).trans h
  rw [String.toList_ofList, map_toLower_trim (isNameChar_of_ofToken? h)]

end Tracked

namespace Token

variable {col : Nat} {cs : List Char} {t : Token} {ts : List Token}

theorem isBlank_of_isSeparator {c : Char} (h : isSeparator c) : isBlank c := by
  simp only [isSeparator, Bool.or_eq_true, beq_iff_eq] at h
  rcases h with ((rfl | rfl) | rfl) | rfl <;> decide

theorem Scanned.uncons (h : Scanned col cs (t :: ts)) :
    ∃ gap kind word rest, cs = gap ++ (word ++ rest) ∧ (∀ c ∈ gap, isSeparator c) ∧
      Lexeme kind word rest ∧ t = ofChars kind (col + gap.length) word ∧
      Scanned (col + gap.length + word.length) rest ts := by
  generalize hts : t :: ts = us at h
  induction h
  case done => contradiction
  case skip col c cs _ hc _ ih =>
    obtain ⟨gap, kind, word, rest, rfl, hgap, hl, ht, hs⟩ := ih hts
    have hcol : col + (c :: gap).length = col + 1 + gap.length := by
      rw [List.length_cons]
      omega
    refine ⟨c :: gap, kind, word, rest, rfl, ?_, hl, hcol ▸ ht, hcol ▸ hs⟩
    exact List.forall_mem_cons.mpr ⟨hc, hgap⟩
  case take col kind word rest us hl hs _ =>
    obtain ⟨rfl, rfl⟩ := List.cons.inj hts
    exact ⟨[], kind, word, rest, rfl, by simp, hl, rfl, hs⟩

theorem Lexeme.kind_eq_ident {kind : Kind} {word rest : List Char} (h : Lexeme kind word rest)
    (hf : ¬(ofChars kind col word).IsForeign) (hc : word ≠ [',']) : kind = .ident := by
  cases h
  case comma => contradiction
  case ident => rfl
  case closed hq _ => exact absurd (isQuoted_ofChars hq).isForeign hf
  case unclosed hq _ => exact absurd (isQuoted_ofChars hq).isForeign hf

theorem Lexeme.gap_ne_nil {gap word more rest : List Char}
    (h : Lexeme .ident word (gap ++ (more ++ rest))) (h' : Lexeme .ident more rest) : gap ≠ [] := by
  rintro rfl
  cases h'
  case ident c more hc _ _ => exact h.not_isIdentChar_rest rfl c rfl hc

end Token

namespace Completion

open Instruction

variable {name cs : List Char} {stop col : Int} {line : String} {mov target comma : Token}
variable {rest : List Token} {r : Tracked}

def isCut (c : Char) : Bool :=
  isBlank c || c == ','

theorem words_eq (cs : List Char) :
    words cs = (Text.words isCut cs).map fun w => String.ofList (w.map Char.toLower) :=
  rfl

theorem isCut_of_isBlank {c : Char} (h : isBlank c) : isCut c := by
  simp [isCut, h]

theorem not_isCut_of_toLower {c : Char} (hb : ¬isBlank c.toLower) (hc : c.toLower ≠ ',') :
    ¬isCut c := by
  intro h
  simp only [isCut, Bool.or_eq_true, beq_iff_eq] at h
  cases h
  case inl h => exact hb ((toLower_of_isBlank h).symm ▸ h)
  case inr h => exact hc (by rw [h]; rfl)

-- An assignment on its line, with a name of its destination that ends, blanks included, in front of
-- the given column.
inductive Layout (name : List Char) : List Char → Int → Prop
  | intro {gap mov lead trail behind : List Char} : (∀ c ∈ gap, isBlank c) →
      mov.map Char.toLower = "mov".toList → lead ≠ [] → (∀ c ∈ lead, isBlank c) →
      (∀ c ∈ trail, isBlank c) → (∀ c ∈ behind.head?, isCut c) →
      Layout name (gap ++ (mov ++ (lead ++ (name ++ trail))) ++ behind)
        (gap ++ (mov ++ (lead ++ (name ++ trail)))).length

theorem layout_of_scan (h : Token.scan line = mov :: target :: comma :: rest)
    (hm : isMnemonic "mov" mov) (hr : Tracked.ofToken? target.text = some r)
    (hc : comma.kind = .comma) : Layout (trim target.text.toList) line.toList target.stop := by
  have h₁ := Token.scanned_iff.mpr h.symm
  obtain ⟨gap, kind, word, _, hline, hgap, hl, rfl, h₂⟩ := h₁.uncons
  obtain ⟨lead, kind', word', _, rfl, hlead, hl', rfl, h₃⟩ := h₂.uncons
  obtain ⟨trail, _, mark, behind, rfl, htrail, hl'', rfl, _⟩ := h₃.uncons
  have hmov : word.map Char.toLower = "mov".toList := by simpa [isMnemonic, Token.ofChars] using hm
  obtain rfl : kind = .ident :=
    hl.kind_eq_ident (fun hf => (not_isMnemonic_of_isForeign hf).left hm) fun he =>
      absurd (he ▸ hmov) (by decide)
  have hcomma : Tracked.ofToken? "," = none := by decide +kernel
  obtain rfl : kind' = .ident :=
    hl'.kind_eq_ident (fun hf => absurd ((ofToken?_of_isForeign hf).symm.trans hr) (by simp))
      fun he => absurd (hcomma.symm.trans (he ▸ hr)) (by simp)
  obtain rfl : mark = [','] := by
    obtain rfl : _ = Token.Kind.comma := hc
    cases hl''
    rfl
  obtain ⟨lead', trail', hword', hlead', htrail'⟩ := exists_eq_trim word'
  have hblanks : ∀ c ∈ lead ++ lead', isBlank c := by
    intro c hc
    cases List.mem_append.mp hc
    case inl hc => exact Token.isBlank_of_isSeparator (hlead c hc)
    case inr hc => exact hlead' c hc
  have hbehind : ∀ c ∈ (trail ++ ([','] ++ behind)).head?, isCut c := by
    cases trail
    case nil => simp [isCut]
    case cons =>
      simpa using isCut_of_isBlank (Token.isBlank_of_isSeparator (htrail _ List.mem_cons_self))
  have hlayout := @Layout.intro (trim word') gap word (lead ++ lead') trail' _
    (fun c hc => Token.isBlank_of_isSeparator (hgap c hc)) hmov
    (List.append_ne_nil_of_left_ne_nil (hl.gap_ne_nil hl') _) hblanks htrail' hbehind
  have hcs : line.toList =
      gap ++ (word ++ (lead ++ lead' ++ (trim word' ++ trail'))) ++
        (trail ++ ([','] ++ behind)) := by
    calc line.toList
      _ = gap ++ (word ++ (lead ++ (word' ++ (trail ++ ([','] ++ behind))))) := hline
      _ = gap ++ (word ++ (lead ++ ((lead' ++ trim word' ++ trail') ++
            (trail ++ ([','] ++ behind))))) := by rw [← hword']
      _ = _ := by simp only [List.append_assoc]
  have hstop : (Token.ofChars .ident (0 + gap.length + word.length + lead.length) word').stop =
      (gap ++ (word ++ (lead ++ lead' ++ (trim word' ++ trail')))).length := by
    have hlength := congrArg List.length hword'
    simp only [List.length_append, Token.ofChars] at hlength ⊢
    omega
  rw [hcs, hstop]
  simpa only [Token.ofChars, String.toList_ofList] using hlayout

theorem words_before (h : Layout name cs stop) (hn : name ≠ [])
    (hname : ∀ c ∈ name.map Char.toLower, IsNameChar c) (hcol : stop ≤ col) :
    ∃ more, words (before cs col) = "mov" :: String.ofList (name.map Char.toLower) :: more := by
  obtain @⟨gap, mov, lead, trail, behind, hgap, hmov, hlead, hleads, htrail, hbehind⟩ := h
  obtain ⟨k, hbefore⟩ : ∃ k, before (gap ++ (mov ++ (lead ++ (name ++ trail))) ++ behind) col =
      gap ++ (mov ++ (lead ++ (name ++ (trail ++ behind.take k)))) := by
    refine ⟨col.toNat - (gap ++ (mov ++ (lead ++ (name ++ trail)))).length, ?_⟩
    rw [before, if_neg (by omega), List.take_append, List.take_of_length_le (by omega)]
    simp only [List.append_assoc]
  have hmovs : ∀ c ∈ mov, ¬isCut c := by
    have hletters : "mov".toList.all (fun d => !isBlank d && d != ',') := by decide +kernel
    intro c hc
    have hd := List.all_eq_true.mp hletters c.toLower (hmov ▸ List.mem_map_of_mem hc)
    simp only [Bool.and_eq_true, Bool.not_eq_true', bne_iff_ne] at hd
    exact not_isCut_of_toLower (by simp [hd.left]) hd.right
  have hnames : ∀ c ∈ name, ¬isCut c := by
    intro c hc
    have hc := hname c.toLower (List.mem_map_of_mem hc)
    exact not_isCut_of_toLower hc.not_isBlank hc.ne_comma
  have hends : ∀ c ∈ (trail ++ behind.take k).head?, isCut c := by
    cases trail
    case nil =>
      rw [List.nil_append, List.head?_take]
      split
      case isTrue => simp
      case isFalse => exact hbehind
    case cons => simpa using isCut_of_isBlank (htrail _ List.mem_cons_self)
  rw [hbefore, words_eq, Text.words_append_append (fun c hc => isCut_of_isBlank (hgap c hc))
    (by rintro rfl; contradiction) hmovs hlead (fun c hc => isCut_of_isBlank (hleads c hc)) hn
    hnames hends, List.map_cons, List.map_cons, hmov, String.ofList_toList]
  exact ⟨_, rfl⟩

theorem candidates_of_words {table : SyscallTable} {word : String} {more : List String}
    (h : words (before line.toList col) = "mov" :: word :: more) :
    candidates table line col =
      if Tracked.ofToken? word = some .number ∨
          ∃ t ∈ Token.atCursor (Token.scan line) col, Tracked.ofToken? t.text = some .number then
        Candidate.syscalls table
      else .ok Candidate.registers := by
  simp [candidates, h, namesNumber, Option.any_eq_true]

-- The candidates behind the destination of an assignment depend on the register that the analysis
-- takes as its destination: numbers of system calls for the register of the number, and registers
-- for any other one, unless the cursor is at the name of that register.
theorem candidates_eq_of_destination (h : Token.scan line = mov :: target :: comma :: rest)
    (hm : isMnemonic "mov" mov) (hr : Tracked.ofToken? target.text = some r)
    (hc : comma.kind = .comma) (hcol : target.stop ≤ col) (table : SyscallTable) :
    (r = .number → candidates table line col = Candidate.syscalls table) ∧
    (r ≠ .number →
      (∀ t ∈ Token.atCursor (Token.scan line) col, Tracked.ofToken? t.text = some .number →
        candidates table line col = Candidate.syscalls table) ∧
      ((∀ t ∈ Token.atCursor (Token.scan line) col, Tracked.ofToken? t.text ≠ some .number) →
        candidates table line col = .ok Candidate.registers)) := by
  have hlayout := layout_of_scan h hm hr hc
  have ⟨more, hwords⟩ := words_before hlayout (Tracked.trim_ne_nil_of_ofToken? hr)
    (Tracked.isNameChar_of_ofToken? hr) hcol
  rw [candidates_of_words hwords, Tracked.ofToken?_ofList_toLower hr]
  refine ⟨fun hn => if_pos (.inl (by rw [hn])), fun hn => ⟨fun t ht hx => ?_, fun ht => ?_⟩⟩
  · exact if_pos (.inr ⟨t, ht, hx⟩)
  · refine if_neg (not_or.mpr ⟨by simpa using hn, ?_⟩)
    rintro ⟨t, hmem, hx⟩
    exact ht t hmem hx

theorem candidates_eq_of_spelling :
    candidates Syscall.linux "\tMOV \u00a0W٠٨\u00a0 ,x0" 100 = Candidate.syscalls Syscall.linux ∧
    candidates Syscall.linux "mov x0, x8" 10 = Candidate.syscalls Syscall.linux ∧
    candidates Syscall.linux "mov x0, x8" 7 = .ok Candidate.registers := by
  have hnumber : Token.scan "\tMOV \u00a0W٠٨\u00a0 ,x0" =
      [⟨.ident, "MOV", 1, 4⟩, ⟨.ident, "\u00a0W٠٨\u00a0", 5, 10⟩, ⟨.comma, ",", 11, 12⟩,
        ⟨.ident, "x0", 12, 14⟩] := by decide +kernel
  have hargument : Token.scan "mov x0, x8" =
      [⟨.ident, "mov", 0, 3⟩, ⟨.ident, "x0", 4, 6⟩, ⟨.comma, ",", 6, 7⟩,
        ⟨.ident, "x8", 8, 10⟩] := by decide +kernel
  have hname : Tracked.ofToken? "\u00a0W٠٨\u00a0" = some .number := by decide +kernel
  have hname' : Tracked.ofToken? "x0" = some (.argument 0) := by decide +kernel
  have hfirst := (candidates_eq_of_destination hnumber (by decide) hname rfl
    (by decide : (10 : Int) ≤ 100) Syscall.linux).left rfl
  have hend := ((candidates_eq_of_destination hargument (by decide) hname' rfl
    (by decide : (6 : Int) ≤ 10) Syscall.linux).right (by simp)).left
    ⟨.ident, "x8", 8, 10⟩ (by decide +kernel) (by decide +kernel)
  have hgap := ((candidates_eq_of_destination hargument (by decide) hname' rfl
    (by decide : (6 : Int) ≤ 7) Syscall.linux).right (by simp)).right (by decide +kernel)
  exact ⟨hfirst, hend, hgap⟩

end Completion

end SvcLens
