import SvcLens.Text.Lines

namespace SvcLens.Text

variable {c : Char} {cs rest : List Char} {l : Line} {ls : List Line}

-- The line as it is cut off again: a carriage return in front of a line feed belongs to the break.
def Line.settle (l : Line) : Line :=
  if l.ending = .lf ∧ l.chars.getLast? = some '\r' then ⟨l.chars.dropLast, .crlf⟩ else l

inductive Complete : List Line → Prop
  | last {l : Line} : l.ending = .none → Complete [l]
  | cons {l : Line} {ls : List Line} : l.ending ≠ .none → Complete ls → Complete (l :: ls)

theorem splitLines_cons (hc : c ≠ '\n') (hr : c = '\r' → cs.head? ≠ some '\n') :
    splitLines (c :: cs) = consChar c (splitLines cs) := by
  rw [splitLines]
  case x_2 => exact hc
  case x_1 =>
    rintro rest h rfl
    exact hr h rfl

theorem splitLines_eq_singleton (h : '\n' ∉ cs) : splitLines cs = [⟨cs, .none⟩] := by
  induction cs
  case nil => rfl
  case cons c cs ih =>
    simp only [List.mem_cons, not_or] at h
    rw [splitLines_cons (Ne.symm h.left), ih h.right]
    · rfl
    · exact fun _ hl => h.right (List.mem_of_mem_head? hl)

theorem splitLines_append_crlf (h : '\n' ∉ cs) (rest : List Char) :
    splitLines (cs ++ '\r' :: '\n' :: rest) = ⟨cs, .crlf⟩ :: splitLines rest := by
  induction cs
  case nil => rfl
  case cons c cs ih =>
    simp only [List.mem_cons, not_or] at h
    rw [List.cons_append, splitLines_cons (Ne.symm h.left), ih h.right]
    · rfl
    · rintro - hl
      cases cs <;> simp_all

theorem splitLines_append_lf (h : '\n' ∉ cs) (hr : cs.getLast? ≠ some '\r') (rest : List Char) :
    splitLines (cs ++ '\n' :: rest) = ⟨cs, .lf⟩ :: splitLines rest := by
  induction cs
  case nil => rfl
  case cons c cs ih =>
    simp only [List.mem_cons, not_or] at h
    cases cs
    case nil =>
      rw [List.singleton_append, splitLines_cons (Ne.symm h.left) (by simp_all)]
      rfl
    case cons d cs =>
      rw [List.cons_append, splitLines_cons (Ne.symm h.left), ih h.right (by simpa using hr)]
      · rfl
      · rintro - hl
        simp_all

theorem splitLines_append (h : '\n' ∉ l.chars) (hl : l.ending ≠ .none) (rest : List Char) :
    splitLines (l.chars ++ l.ending.chars ++ rest) = l.settle :: splitLines rest := by
  obtain ⟨cs, ending⟩ := l
  cases ending
  case none => contradiction
  case crlf => simpa [Break.chars, Line.settle] using splitLines_append_crlf h rest
  case lf =>
    by_cases hr : cs.getLast? = some '\r'
    case neg => simpa [Break.chars, Line.settle, hr] using splitLines_append_lf h hr rest
    case pos =>
      -- The carriage return goes into the break.
      obtain ⟨ds, rfl⟩ := List.getLast?_eq_some_iff.mp hr
      have h : '\n' ∉ ds := fun hm => h (List.mem_append_left _ hm)
      simpa [Break.chars, Line.settle] using splitLines_append_crlf h rest

theorem splitLines_joinLines (h : Complete ls) (hn : ∀ l ∈ ls, '\n' ∉ l.chars) :
    splitLines (joinLines ls) = ls.map Line.settle := by
  induction h
  case last l hl =>
    have := splitLines_eq_singleton (hn l List.mem_cons_self)
    obtain ⟨cs, ending⟩ := l
    simp_all [joinLines, Break.chars, Line.settle]
  case cons l ls hl _ ih =>
    simp only [List.mem_cons, forall_eq_or_imp] at hn
    have ih := ih hn.right
    simp only [joinLines, List.flatMap_cons, List.map_cons] at ih ⊢
    rw [splitLines_append hn.left hl, ih]

theorem Complete.consChar (c : Char) (h : Complete ls) : Complete (consChar c ls) := by
  cases h
  case last hl => exact .last hl
  case cons hl h => exact .cons hl h

theorem complete_splitLines (cs : List Char) : Complete (splitLines cs) := by
  fun_induction splitLines cs
  case case1 => exact .last rfl
  case case2 ih => exact .cons (by simp) ih
  case case3 ih => exact .cons (by simp) ih
  case case4 c cs _ _ ih => exact ih.consChar c

theorem exists_of_mem_consChar (h : ls ≠ []) (hl : l ∈ consChar c ls) :
    ∃ m ∈ ls, ∀ x ∈ l.chars, x = c ∨ x ∈ m.chars := by
  cases ls
  case nil => contradiction
  case cons m ms =>
    cases List.mem_cons.mp hl
    case inl hl => exact ⟨m, List.mem_cons_self, fun x hx => by simpa [hl] using hx⟩
    case inr hl => exact ⟨l, List.mem_cons_of_mem _ hl, fun x hx => .inr hx⟩

theorem lf_notMem_of_mem_splitLines (hl : l ∈ splitLines cs) : '\n' ∉ l.chars := by
  fun_induction splitLines cs generalizing l
  case case1 => simp_all
  case case2 ih =>
    cases List.mem_cons.mp hl
    case inl hl => simp [hl]
    case inr hl => exact ih hl
  case case3 ih =>
    cases List.mem_cons.mp hl
    case inl hl => simp [hl]
    case inr hl => exact ih hl
  case case4 c cs _ hc ih =>
    obtain ⟨m, hm, hchars⟩ := exists_of_mem_consChar (splitLines_ne_nil cs) hl
    intro hn
    cases hchars _ hn
    case inl hn => exact hc hn.symm
    case inr hn => exact ih hm hn

theorem settle_of_mem_splitLines (hl : l ∈ splitLines cs) : l.settle = l := by
  have h := splitLines_joinLines (complete_splitLines cs) fun l => lf_notMem_of_mem_splitLines
  rw [joinLines_splitLines] at h
  exact List.map_inj_left.mp (h.symm.trans (List.map_id _).symm) l hl

end SvcLens.Text
