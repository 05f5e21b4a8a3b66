import SvcLens.Proofs.Spelling

namespace SvcLens.Numeral

open Text

variable {base k n d : Nat} {c x : Char} {cs body sign : List Char} {ds : List Nat}
variable {negative : Bool} {s : String} {m : Int}

section Characters

def IsLiteralChar (c : Char) : Prop :=
  (hexValue? c).isSome ∨ c ∈ ['_', 'x', 'X', 'o', 'O', 'b', 'B']

theorem toNat_of_hexValue? (h : (hexValue? c).isSome) :
    48 ≤ c.toNat ∧ c.toNat ≤ 57 ∨ 65 ≤ c.toNat ∧ c.toNat ≤ 70 ∨ 97 ≤ c.toNat ∧ c.toNat ≤ 102 := by
  have h9 : ('0' : Char).toNat = 48 ∧ ('9' : Char).toNat = 57 := ⟨rfl, rfl⟩
  have hf : ('a' : Char).toNat = 97 ∧ ('f' : Char).toNat = 102 := ⟨rfl, rfl⟩
  have hF : ('A' : Char).toNat = 65 ∧ ('F' : Char).toNat = 70 := ⟨rfl, rfl⟩
  simp only [hexValue?, Bool.and_eq_true, decide_eq_true_eq, Char.le_def, UInt32.le_iff_toNat_le,
    Char.toNat_val] at h
  repeat' split at h
  case isFalse.isFalse.isFalse => contradiction
  all_goals omega

theorem IsLiteralChar.bounds (h : IsLiteralChar c) : 48 ≤ c.toNat ∧ c.toNat < 127 := by
  cases h
  case inl h => have := toNat_of_hexValue? h; omega
  case inr h =>
    have hall : ∀ x ∈ ['_', 'x', 'X', 'o', 'O', 'b', 'B'], 48 ≤ x.toNat ∧ x.toNat < 127 := by simp
    exact hall c h

theorem isBlank_iff_of_lt (h : c.toNat < 127) : isBlank c ↔
    9 ≤ c.toNat ∧ c.toNat ≤ 13 ∨ 28 ≤ c.toNat ∧ c.toNat ≤ 32 := by
  simp [isBlank, inRanges, blankRanges]
  omega

theorem IsLiteralChar.not_isBlank (h : IsLiteralChar c) : ¬isBlank c := by
  have := h.bounds
  rw [isBlank_iff_of_lt this.right]
  omega

theorem isBlank_of_isLiteralBlank (h : isLiteralBlank c) : isBlank c := by
  simp only [isLiteralBlank, Bool.or_eq_true, beq_iff_eq, Bool.and_eq_true, decide_eq_true_eq] at h
  rcases h with rfl | h
  · decide
  · exact (isBlank_iff_of_lt (by omega)).mpr (.inl h)

theorem hexValue?_digitChar (h : d < 16) : hexValue? (digitChar d) = some d := by
  have hall : ∀ d < 16, hexValue? (digitChar d) = some d := by decide +kernel
  exact hall d h

theorem digitValue?_eq_some_iff :
    digitValue? base c = some d ↔ hexValue? c = some d ∧ d < base := by
  rw [digitValue?, Option.filter_eq_some_iff, decide_eq_true_eq]

end Characters

section Groups

theorem flatten_modifyHead_cons {gs : List (List Char)} (h : gs ≠ []) :
    (gs.modifyHead (c :: ·)).flatten = c :: gs.flatten := by
  cases gs
  case nil => contradiction
  case cons => rfl

theorem mem_flatten_splitOn (hc : c ∈ cs) (hx : c ≠ x) : c ∈ (cs.splitOn x).flatten := by
  induction cs
  case nil => contradiction
  case cons d cs ih =>
    rw [List.splitOn, List.splitOnP_cons_eq_if_modifyHead]
    split
    case isTrue hd =>
      have hcd : c ≠ d := fun e => hx (e.trans (eq_of_beq hd))
      exact ih ((List.mem_cons.mp hc).resolve_left hcd)
    case isFalse =>
      rw [flatten_modifyHead_cons (List.splitOnP_ne_nil _ _)]
      exact List.mem_cons.mpr ((List.mem_cons.mp hc).imp_right ih)

theorem isSome_of_mapM_eq_some {f : Char → Option Nat} (h : cs.mapM f = some ds) (hc : c ∈ cs) :
    (f c).isSome := by
  have hall := @forall_mem_iff_of_forall₂ _ _ _ _ _ (fun c => (f c).isSome = true) (fun _ => True)
    (mapM_eq_some_iff.mp h) fun hx => by simp [hx]
  exact hall.mpr (fun _ _ => trivial) c hc

theorem isLiteralChar_of_ofGroups? (h : ofGroups? base cs = some ds) (hc : c ∈ cs) :
    IsLiteralChar c := by
  by_cases hu : c = '_'
  case pos => exact .inr (by simp [hu])
  case neg =>
    unfold ofGroups? at h
    simp only at h
    split at h
    case isTrue => contradiction
    case isFalse =>
      obtain ⟨v, hv⟩ := Option.isSome_iff_exists.mp
        (isSome_of_mapM_eq_some h (mem_flatten_splitOn hc hu))
      exact .inl (by simp [(digitValue?_eq_some_iff.mp hv).left])

theorem ofGroups?_nil (base : Nat) : ofGroups? base [] = none := by
  simp [ofGroups?]

theorem ofGroups?_eq_mapM (h : '_' ∉ cs) (hn : cs ≠ []) :
    ofGroups? base cs = cs.mapM (digitValue? base) := by
  have hsplit : cs.splitOn '_' = [cs] :=
    List.splitOnP_eq_singleton fun c hc => beq_false_of_ne fun e => h (e ▸ hc)
  simp [ofGroups?, hsplit, hn]

theorem mapM_digitChar (hb : base ≤ 16) (h : ∀ d ∈ ds, d < base) :
    (ds.map digitChar).mapM (digitValue? base) = some ds := by
  induction ds
  case nil => rfl
  case cons d ds ih =>
    have ⟨hd, hds⟩ := List.forall_mem_cons.mp h
    have hv := digitValue?_eq_some_iff.mpr ⟨hexValue?_digitChar (Nat.lt_of_lt_of_le hd hb), hd⟩
    simp [List.mapM_cons, hv, ih hds]

end Groups

section Literals

theorem isLiteralChar_of_marked {mark : Char} (hm : mark ∈ ['x', 'X', 'o', 'O', 'b', 'B'])
    (h : (ofGroups? base (if cs.head? = some '_' then cs.tail else cs)).map (ofDigits base) =
      some k) : ∀ c ∈ '0' :: mark :: cs, IsLiteralChar c := by
  obtain ⟨ds, h, _⟩ := Option.map_eq_some_iff.mp h
  refine List.forall_mem_cons.mpr ⟨.inl (by decide), List.forall_mem_cons.mpr
    ⟨.inr (List.mem_cons_of_mem _ hm), ?_⟩⟩
  split at h
  case isTrue hu =>
    obtain ⟨rest, rfl⟩ := List.head?_eq_some_iff.mp hu
    exact List.forall_mem_cons.mpr ⟨.inr (by simp), fun c => isLiteralChar_of_ofGroups? h⟩
  case isFalse => exact fun c => isLiteralChar_of_ofGroups? h

theorem isLiteralChar_of_ofUnsignedLiteral? (h : ofUnsignedLiteral? body = some k) :
    body ≠ [] ∧ ∀ c ∈ body, IsLiteralChar c := by
  unfold ofUnsignedLiteral? at h
  split at h
  case h_1 mark cs =>
    refine ⟨List.cons_ne_nil _ _, ?_⟩
    simp only [Bool.or_eq_true, decide_eq_true_eq] at h
    split at h
    case isTrue hm => exact isLiteralChar_of_marked (by grind) h
    case isFalse =>
      split at h
      case isTrue hm => exact isLiteralChar_of_marked (by grind) h
      case isFalse =>
        split at h
        case isTrue hm => exact isLiteralChar_of_marked (by grind) h
        case isFalse =>
          obtain ⟨ds, hds, _⟩ := Option.bind_eq_some_iff.mp h
          exact fun c => isLiteralChar_of_ofGroups? hds
  case h_2 =>
    obtain ⟨ds, hds, _⟩ := Option.bind_eq_some_iff.mp h
    refine ⟨?_, fun c => isLiteralChar_of_ofGroups? hds⟩
    rintro rfl
    simp [ofGroups?_nil] at hds

theorem ofGroups?_digits (hb : base ≤ 16) (hn : ds ≠ []) (h : ∀ d ∈ ds, d < base) :
    ofGroups? base (ds.map digitChar) = some ds := by
  rw [ofGroups?_eq_mapM _ (by simpa using hn), mapM_digitChar hb h]
  intro hm
  obtain ⟨d, hd, he⟩ := List.mem_map.mp hm
  have hv := hexValue?_digitChar (Nat.lt_of_lt_of_le (h d hd) hb)
  rw [he] at hv
  contradiction

theorem ofDigits_eq_zero (h : ∀ d ∈ ds, d = 0) : ofDigits base ds = 0 := by
  rw [List.eq_replicate_of_mem h]
  induction ds.length
  case zero => rfl
  case succ n ih => rw [List.replicate_succ', ofDigits_append_singleton, ih]; rfl

theorem digitChar_eq_zero_iff (h : d < 10) : digitChar d = '0' ↔ d = 0 := by
  have hall : ∀ d < 10, digitChar d = '0' ↔ d = 0 := by decide +kernel
  exact hall d h

theorem digitChar_ne_mark (h : d < 10) : digitChar d ∉ ['x', 'X', 'o', 'O', 'b', 'B'] := by
  have hall : ∀ d < 10, digitChar d ∉ ['x', 'X', 'o', 'O', 'b', 'B'] := by decide +kernel
  exact hall d h

-- Decimal digits are read if they are not too many and, behind a leading zero, are all zeros.
theorem ofUnsignedLiteral?_digits_iff (hn : ds ≠ []) (hd : ∀ d ∈ ds, d < 10) :
    ofUnsignedLiteral? (ds.map digitChar) = some k ↔
      ds.length ≤ maxDigits ∧ (ds.head? = some 0 → ∀ d ∈ ds, d = 0) ∧ k = ofDigits 10 ds := by
  have hgroups := ofGroups?_digits (by decide) hn hd
  unfold ofUnsignedLiteral?
  split
  case h_1 mark cs hds =>
    obtain ⟨d, rest, rfl, hzero, hrest⟩ := List.map_eq_cons_iff.mp hds
    obtain ⟨e, rest, rfl, rfl, rfl⟩ := List.map_eq_cons_iff.mp hrest
    have ⟨hd, he, _⟩ := List.forall_mem_cons.mp hd |>.imp_right List.forall_mem_cons.mp
    have hmark := digitChar_ne_mark he
    obtain rfl := (digitChar_eq_zero_iff hd).mp hzero
    have hzeros : ((0 :: e :: rest).head? = some 0 → ∀ d ∈ 0 :: e :: rest, d = 0) ↔
        (0 :: e :: rest).all (· == 0) := by simp
    have hvalue : (0 :: e :: rest).all (· == 0) → ofDigits 10 (0 :: e :: rest) = 0 :=
      fun h => ofDigits_eq_zero (by simpa using h)
    rw [hds] at hgroups
    simp only [List.mem_cons, List.not_mem_nil, or_false, not_or] at hmark
    simp only [hmark, hgroups, decide_false, Bool.or_self, Bool.false_eq_true, if_false, hzeros,
      Option.bind_eq_bind, Option.bind_some, Bool.and_eq_true, decide_eq_true_eq]
    grind
  case h_2 hne =>
    have hzeros : ds.head? = some 0 → ∀ d ∈ ds, d = 0 := by
      intro h
      obtain ⟨rest, rfl⟩ := List.head?_eq_some_iff.mp h
      cases rest
      case nil => simp
      case cons e rest => exact absurd rfl (hne (digitChar e) (rest.map digitChar))
    simp only [hgroups, Option.bind_eq_bind, Option.bind_some]
    grind

theorem digitValue?_sixteen : digitValue? 16 = hexValue? := by
  funext c
  refine Option.ext fun d => ?_
  rw [digitValue?_eq_some_iff]
  exact ⟨And.left, fun h => ⟨h, lt_of_hexValue?_eq_some h⟩⟩

theorem ofUnsignedLiteral?_hexadecimal (hx : x = 'x' ∨ x = 'X') (hn : cs ≠ [])
    (h : cs.mapM hexValue? = some ds) :
    ofUnsignedLiteral? ('0' :: x :: cs) = some (ofDigits 16 ds) := by
  have hu : '_' ∉ cs := fun hm => absurd (isSome_of_mapM_eq_some h hm) (by decide)
  have hhead : cs.head? ≠ some '_' := fun hh => hu (List.mem_of_head? hh)
  have hgroups : ofGroups? 16 cs = some ds := by
    rw [ofGroups?_eq_mapM hu hn, digitValue?_sixteen, h]
  have hmark : (decide (x = 'x') || decide (x = 'X')) = true := by simpa using hx
  simp only [ofUnsignedLiteral?, hmark, if_true, hhead, if_false, hgroups, Option.map_some]

end Literals

section Spellings

theorem eq_zero_of_head?_digitsOnto {known : List Nat} (hb : 2 ≤ base)
    (h : (digitsOnto base n known).head? = some 0) : n = 0 := by
  fun_induction digitsOnto base n known
  case case1 => simpa using h
  case case2 n known hn ih =>
    have := Nat.div_pos (show base ≤ n by omega) (by omega)
    have := ih h
    omega

theorem ofUnsignedLiteral?_decimalOfNat (h : (decimalOfNat n).length ≤ maxDigits) :
    ofUnsignedLiteral? (decimalOfNat n).toList = some n := by
  rw [decimalOfNat, String.toList_ofList]
  refine (ofUnsignedLiteral?_digits_iff (toDigits_ne_nil 10 n)
    (lt_of_mem_toDigits (by decide))).mpr ⟨?_, fun hh => ?_, (ofDigits_toDigits 10 n).symm⟩
  · rwa [← length_decimalOfNat]
  · rw [eq_zero_of_head?_digitsOnto (by decide) hh]
    simp [toDigits, digitsOnto]

def hexadecimal (n : Int) : String :=
  (if n < 0 then "-0x" else "0x") ++ String.ofList ((toDigits 16 n.natAbs).map digitChar)

theorem mapM_hexValue?_toDigits (n : Nat) :
    ((toDigits 16 n).map digitChar).mapM hexValue? = some (toDigits 16 n) := by
  rw [← digitValue?_sixteen]
  exact mapM_digitChar (by decide) (lt_of_mem_toDigits (by decide))

theorem asciiForm_of_lt (h : c.toNat < 127) : asciiForm c = c :=
  if_pos h

theorem IsLiteralChar.ne_sign (h : IsLiteralChar c) : c ≠ '+' ∧ c ≠ '-' := by
  have := h.bounds.left
  constructor <;> rintro rfl <;> exact absurd this (by decide)

theorem dropWhile_eq_self {p : Char → Bool} (h : ∀ c ∈ cs, ¬p c) : cs.dropWhile p = cs :=
  Token.dropWhile_append_eq (List.forall_mem_nil _) fun c hc => h c (List.mem_of_mem_head? hc)

-- A literal stands for itself: its characters are kept as they are, and none is cut off.
theorem ofLiteral?_of_sign (hs : Sign negative sign) (hb : s.toList = sign ++ body)
    (h : ofUnsignedLiteral? body = some k) : ofLiteral? s = some (signed negative k) := by
  have ⟨_, hbody⟩ := isLiteralChar_of_ofUnsignedLiteral? h
  have hascii : ∀ c ∈ sign ++ body, asciiForm c = c := by
    refine List.forall_mem_append.mpr ⟨?_, fun c hc => asciiForm_of_lt (hbody c hc).bounds.right⟩
    cases hs <;> simp <;> decide
  have hblank : ∀ c ∈ sign ++ body, ¬isLiteralBlank c := by
    refine List.forall_mem_append.mpr ⟨fun c hc hl => ?_, fun c hc hl => ?_⟩
    · exact hs.notMem_blank c hc (isBlank_of_isLiteralBlank hl)
    · exact (hbody c hc).not_isBlank (isBlank_of_isLiteralBlank hl)
  have hmap : s.toList.map asciiForm = sign ++ body := by
    rw [hb, List.map_congr_left hascii, List.map_id']
  have hback : (sign ++ body).reverse.dropWhile isLiteralBlank = (sign ++ body).reverse :=
    dropWhile_eq_self fun c hc => hblank c (List.mem_reverse.mp hc)
  have hsplit : splitSign (sign ++ body) = (negative, body) :=
    splitSign_append hs fun c hc => (hbody c (List.mem_of_mem_head? hc)).ne_sign
  simp only [ofLiteral?, hmap, dropWhile_eq_self hblank, hback, List.reverse_reverse, hsplit, h,
    Option.map_some]

theorem exists_sign_append (m : Int) : ∃ sign, Sign (decide (m < 0)) sign ∧
    (decimal m).toList = sign ++ (decimalOfNat m.natAbs).toList ∧
    (hexadecimal m).toList = sign ++ '0' :: 'x' :: (toDigits 16 m.natAbs).map digitChar := by
  by_cases h : m < 0
  case pos =>
    exact ⟨['-'], decide_eq_true h ▸ .minus, by simp [decimal, h], by simp [hexadecimal, h]⟩
  case neg =>
    exact ⟨[], decide_eq_false h ▸ .none, by simp [decimal, h], by simp [hexadecimal, h]⟩

theorem ofLiteral?_decimal (h : (decimalOfNat m.natAbs).length ≤ maxDigits) :
    ofLiteral? (decimal m) = some m := by
  have ⟨sign, hs, hd, _⟩ := exists_sign_append m
  rw [ofLiteral?_of_sign hs hd (ofUnsignedLiteral?_decimalOfNat h), signed_natAbs]

theorem ofLiteral?_hexadecimal (m : Int) : ofLiteral? (hexadecimal m) = some m := by
  have ⟨sign, hs, _, hx⟩ := exists_sign_append m
  have hread := ofUnsignedLiteral?_hexadecimal (.inl rfl)
    (by simpa using toDigits_ne_nil 16 m.natAbs) (mapM_hexValue?_toDigits m.natAbs)
  rw [ofLiteral?_of_sign hs hx hread, ofDigits_toDigits, signed_natAbs]

end Spellings

section Exchange

theorem lt_of_decimalValue? (h : decimalValue? c = some d) : d < 10 :=
  lt_of_mem_filterMap_decimalValue? (List.mem_filterMap.mpr ⟨c, List.mem_singleton_self c, h⟩)

theorem asciiForm_of_not_isBlank (hc : 127 ≤ c.toNat) (hb : ¬isBlank c) :
    asciiForm c = ((decimalValue? c).map digitChar).getD '?' := by
  rw [asciiForm, if_neg (by omega), if_neg hb]
  cases decimalValue? c <;> rfl

-- Characters of other scripts are exchanged, but blanks and signs remain what they are.
theorem asciiForm_cases (c : Char) : asciiForm c = c ∨ (isBlank c ∧ asciiForm c = ' ') ∨
    ¬isBlank c ∧ 127 ≤ c.toNat ∧ ¬isBlank (asciiForm c) ∧ asciiForm c ∉ ['+', '-'] := by
  by_cases hc : c.toNat < 127
  case pos => exact .inl (asciiForm_of_lt hc)
  case neg =>
    by_cases hb : isBlank c
    case pos => exact .inr (.inl ⟨hb, by rw [asciiForm, if_neg hc, if_pos hb]⟩)
    case neg =>
      refine .inr (.inr ⟨hb, Nat.not_lt.mp hc, ?_⟩)
      rw [asciiForm_of_not_isBlank (Nat.not_lt.mp hc) hb]
      cases hd : decimalValue? c
      case none => decide
      case some d =>
        have hall : ∀ d < 10, ¬isBlank (digitChar d) ∧ digitChar d ∉ ['+', '-'] := by
          decide +kernel
        exact hall d (lt_of_decimalValue? hd)

theorem isBlank_asciiForm (c : Char) : isBlank (asciiForm c) = isBlank c := by
  rcases asciiForm_cases c with h | ⟨hb, h⟩ | ⟨hb, _, h, _⟩
  · rw [h]
  · rw [h, hb]; decide
  · rw [Bool.eq_false_of_not_eq_true hb, Bool.eq_false_of_not_eq_true h]

theorem trim_map_asciiForm (cs : List Char) :
    trim (cs.map asciiForm) = (trim cs).map asciiForm := by
  have hblank : isBlank ∘ asciiForm = isBlank := funext isBlank_asciiForm
  simp only [trim, List.dropWhile_map, ← List.map_reverse, hblank]

theorem asciiForm_notMem_signs (h : c ∉ ['+', '-']) : asciiForm c ∉ ['+', '-'] := by
  rcases asciiForm_cases c with hc | ⟨_, hc⟩ | ⟨_, _, _, hc⟩
  · rwa [hc]
  · rw [hc]; decide
  · exact hc

theorem splitSign_map_asciiForm (cs : List Char) :
    splitSign (cs.map asciiForm) = ((splitSign cs).1, (splitSign cs).2.map asciiForm) := by
  have hnone {ds : List Char} (h : ∀ c ∈ ds.head?, c ∉ ['+', '-']) : splitSign ds = (false, ds) :=
    splitSign_append .none fun c hc => by simpa using h c hc
  cases cs
  case nil => rfl
  case cons c cs =>
    by_cases hc : c ∈ ['+', '-']
    case pos =>
      simp only [List.mem_cons, List.not_mem_nil, or_false] at hc
      rcases hc with rfl | rfl <;> rfl
    case neg =>
      rw [@hnone (c :: cs) (by simpa using hc), hnone]
      simpa using asciiForm_notMem_signs hc

theorem asciiForm_of_decimalValue? (h : decimalValue? c = some d) : asciiForm c = digitChar d := by
  by_cases hc : c.toNat < 127
  case pos =>
    have hzero : ∀ z ∈ decimalZeros, z = 0x30 ∨ 127 ≤ z := by decide +kernel
    obtain ⟨z, hz, rfl⟩ := Option.map_eq_some_iff.mp h
    have hrange := List.find?_some hz
    simp only [Bool.and_eq_true, decide_eq_true_eq] at hrange
    obtain rfl := (hzero z (List.mem_of_find?_eq_some hz)).resolve_right (by omega)
    rw [asciiForm_of_lt hc, digitChar, if_pos (by omega), Nat.add_sub_cancel' hrange.left,
      Char.ofNat_toNat]
  case neg =>
    have hb := (not_isBlank_of_isDecimal (Option.isSome_iff_exists.mpr ⟨d, h⟩)).left
    rw [asciiForm_of_not_isBlank (Nat.not_lt.mp hc) hb, h]
    rfl

theorem map_asciiForm_of_isDecimal (h : ∀ c ∈ cs, isDecimal c) :
    cs.map asciiForm = (cs.filterMap decimalValue?).map digitChar := by
  induction cs
  case nil => rfl
  case cons c cs ih =>
    have ⟨hc, hcs⟩ := List.forall_mem_cons.mp h
    have ⟨d, hd⟩ := Option.isSome_iff_exists.mp hc
    rw [List.map_cons, ih hcs, List.filterMap_cons_some hd, List.map_cons,
      asciiForm_of_decimalValue? hd]

theorem exists_of_ofLiteral? (h : ofLiteral? s = some m) :
    ∃ negative body k, splitSign ((trim s.toList).map asciiForm) = (negative, body) ∧
      ofUnsignedLiteral? body = some k ∧ m = signed negative k := by
  have ⟨lead, trail, hcs, hlead, htrail⟩ :=
    exists_eq_dropWhile isLiteralBlank (s.toList.map asciiForm)
  simp only [ofLiteral?] at h
  cases hsplit : splitSign
    (((s.toList.map asciiForm).dropWhile isLiteralBlank).reverse.dropWhile isLiteralBlank).reverse
  case mk negative body =>
    rw [hsplit, Option.map_eq_some_iff] at h
    obtain ⟨k, hk, rfl⟩ := h
    refine ⟨negative, body, k, ?_, hk, rfl⟩
    have ⟨hn, hbody⟩ := isLiteralChar_of_ofUnsignedLiteral? hk
    have ⟨sign, hs, hinner⟩ := exists_sign hsplit
    have hblank : ∀ c ∈ sign ++ body, ¬isBlank c :=
      List.forall_mem_append.mpr ⟨hs.notMem_blank, fun c hc => (hbody c hc).not_isBlank⟩
    rw [hinner] at hcs
    rw [← hsplit, hinner, ← trim_map_asciiForm, hcs]
    refine congrArg splitSign (trim_append ?_ ?_ (by simp [hn]) ?_ ?_)
    · exact fun c hc => isBlank_of_isLiteralBlank (hlead c hc)
    · exact fun c hc => isBlank_of_isLiteralBlank (htrail c hc)
    · exact fun c hc => hblank c (List.mem_of_mem_head? hc)
    · exact fun c hc => hblank c (List.mem_of_getLast? hc)

end Exchange

end SvcLens.Numeral
