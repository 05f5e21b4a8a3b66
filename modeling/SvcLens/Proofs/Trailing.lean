import SvcLens.Proofs.Lexeme
import SvcLens.Proofs.Reading

namespace SvcLens

namespace Token

variable {col : Nat} {kind : Kind} {c q : Char} {cs word rest tail : List Char} {ts us : List Token}
variable {t : Token}

def IsQuoted (t : Token) : Prop :=
  t.kind = .string ∧ ∃ q body, isQuote q ∧ t.text.toList = q :: body

theorem Lexeme.exists_head (h : Lexeme kind word rest) (he : word ++ rest = c :: cs) :
    ∃ more, word = c :: more := by
  have ⟨d, more, hw, _⟩ := h.exists_eq_cons
  simp only [hw, List.cons_append, List.cons.injEq] at he
  exact ⟨more, he.left ▸ hw⟩

theorem Lexeme.kind_of_isQuote (h : Lexeme kind (q :: word) rest) (hq : isQuote q) :
    kind = .string := by
  cases h
  case comma => contradiction
  case ident hc _ _ => simp_all [isIdentChar]
  all_goals rfl

theorem scanFrom_cons (h : ¬isSeparator c) (col : Nat) (cs : List Char) :
    ∃ kind more us, scanFrom col (c :: cs) = ofChars kind col (c :: more) :: us ∧
      (isQuote c → kind = .string) := by
  have ⟨kind, word, rest, hl, hcs⟩ := Lexeme.exists_of_not_isSeparator h cs
  have ⟨more, hw⟩ := hl.exists_head hcs.symm
  subst hw
  exact ⟨kind, more, _, hcs ▸ hl.scanFrom_eq col, fun hq => hl.kind_of_isQuote hq⟩

theorem isQuoted_ofChars (hq : isQuote q) : IsQuoted (ofChars .string col (q :: word)) :=
  ⟨rfl, q, word, hq, by simp [ofChars]⟩

-- What becomes of the tokens of a line when something is written behind it.
inductive Continued (ts : List Token) (later : List Token) : List Token → Prop
  | appended : Continued ts later (ts ++ later)
  | absorbed (us : List Token) {t u : Token} {vs : List Token} : ts = us ++ [t] → t.IsQuoted →
      u.IsQuoted → Continued ts later (us ++ u :: vs)

theorem Continued.cons {vs : List Token} (t : Token) (h : Continued ts us vs) :
    Continued (t :: ts) us (t :: vs) := by
  cases h
  case appended => exact .appended
  case absorbed ws u v xs ht hu hv => exact .absorbed (t :: ws) (by simp [ht]) hu hv

theorem Lexeme.append (h : Lexeme kind word rest)
    (ht : rest = [] → ∀ c ∈ tail.head?, ¬isIdentChar c) :
    Lexeme kind word (rest ++ tail) ∨
      (kind = .string ∧ rest = [] ∧ ∃ q body, isQuote q ∧ word = q :: body) := by
  cases h
  case comma => exact .inl (.comma _)
  case closed q body hq hb => exact .inl (.closed _ hq hb)
  case unclosed q body hq hb => exact .inr ⟨rfl, rfl, q, body, hq, rfl⟩
  case ident c more hc hm hr =>
    refine .inl (.ident hc hm ?_)
    cases rest
    case cons d rest => simpa using hr
    case nil => exact ht rfl

theorem Scanned.continued (h : Scanned col cs ts) (ht : ∀ c ∈ tail.head?, isSeparator c) :
    Continued ts (scanFrom (col + cs.length) tail) (scanFrom col (cs ++ tail)) := by
  induction h
  case done => exact .appended
  case skip col c cs ts hs _ ih =>
    have hcol : col + (c :: cs).length = col + 1 + cs.length := by
      rw [List.length_cons]
      omega
    rw [List.cons_append, scanFrom_of_isSeparator hs, hcol]
    exact ih
  case take col kind word rest ts hl hsc ih =>
    cases hl.append fun _ c hc hi => not_isSeparator_of_isIdentChar hi (ht c hc)
    case inl hl =>
      rw [List.append_assoc, hl.scanFrom_eq, List.length_append, ← Nat.add_assoc]
      exact ih.cons _
    case inr ho =>
      obtain ⟨rfl, rfl, q, body, hq, rfl⟩ := ho
      have hts : ts = [] := by rw [scanned_iff.mp hsc, scanFrom]
      obtain ⟨kind, more, us, hus, hk⟩ :=
        scanFrom_cons (not_isSeparator_of_isQuote hq) col (body ++ tail)
      rw [hk hq] at hus
      rw [List.append_nil, List.cons_append, hus, hts]
      exact .absorbed [] rfl (isQuoted_ofChars hq) (isQuoted_ofChars hq)

end Token

namespace Instruction

variable {ts us vs : List Token} {t : Token}

theorem not_isMnemonic_of_isQuoted (h : t.IsQuoted) : ¬isMnemonic "svc" t := by
  have ⟨_, q, body, hq, ht⟩ := h
  simp only [Token.isQuote, Bool.or_eq_true, beq_iff_eq] at hq
  cases hq <;> simp_all [isMnemonic]

theorem text_ne_of_isQuoted (h : t.IsQuoted) : t.text ≠ "#0" := by
  have ⟨_, q, body, hq, ht⟩ := h
  intro he
  rw [he] at ht
  injection ht with hq'
  subst hq'
  contradiction

def isEffective : Instruction → Bool
  | .assign .. | .trap | .foreignTrap => true
  | .malformed .. | .other => false

theorem ofTokens_append_assign {r : Tracked} {value : Token} (h : ofTokens ts = .assign r value)
    (us : List Token) : ofTokens (ts ++ us) = .assign r value := by
  have ⟨mov, target, comma, rest, hts, hm, hr, hc, hv⟩ := ofTokens_eq_assign h
  simp [hts, ofTokens, ofMov, ofOperands, ofValue, hm, hr, hc, hv]

theorem ofTokens_append_trap (h : ofTokens ts = .trap) (us : List Token) :
    ofTokens (ts ++ us) = .trap := by
  have ⟨svc, operand, rest, hts, hs, ho⟩ := ofTokens_eq_trap h
  simp [hts, ofTokens_svc hs, ofSvc_eq, ho]

theorem ofTokens_append_foreignTrap (h : ofTokens ts = .foreignTrap)
    (hu : us.head?.map (·.text) ≠ some "#0") : ofTokens (ts ++ us) = .foreignTrap := by
  have ⟨svc, operands, hts, hs, ho⟩ := ofTokens_eq_foreignTrap h
  cases operands
  case nil => simp only [hts, List.singleton_append, ofTokens_svc hs, ofSvc_eq, if_neg hu]
  case cons => simp only [hts, List.cons_append, ofTokens_svc hs, ofSvc_eq]; simp_all

theorem ofTokens_append (h : (ofTokens ts).isEffective) (hu : us.head?.map (·.text) ≠ some "#0") :
    ofTokens (ts ++ us) = ofTokens ts := by
  cases hi : ofTokens ts
  case assign => exact ofTokens_append_assign hi us
  case trap => exact ofTokens_append_trap hi us
  case foreignTrap => exact ofTokens_append_foreignTrap hi hu
  all_goals simp [hi, isEffective] at h

theorem ofTokens_of_isQuoted (ht : t.IsQuoted) (h : (ofTokens (ts ++ [t])).isEffective) :
    ofTokens ts = ofTokens (ts ++ [t]) := by
  cases hi : ofTokens (ts ++ [t])
  case assign r value =>
    obtain ⟨mov, target, comma, rest, hts, hm, hr, hc, hv⟩ := ofTokens_eq_assign hi
    rcases ts with _ | ⟨a, _ | ⟨b, _ | ⟨c, _ | ⟨d, ts⟩⟩⟩⟩
    case cons.cons.cons.nil =>
      have hk := ht.left
      simp_all
    case cons.cons.cons.cons =>
      obtain ⟨rfl, rfl, rfl, rfl, -⟩ : a = mov ∧ b = target ∧ c = comma ∧ d = value ∧ _ = rest := by
        simpa using hts
      simp [ofTokens, ofMov, ofOperands, ofValue, hm, hr, hc, hv]
    all_goals simp at hts
  case trap =>
    obtain ⟨svc, operand, rest, hts, hs, ho⟩ := ofTokens_eq_trap hi
    rcases ts with _ | ⟨a, _ | ⟨b, ts⟩⟩
    case nil => simp at hts
    case cons.nil =>
      have hn := text_ne_of_isQuoted ht
      simp_all
    case cons.cons =>
      obtain ⟨rfl, rfl, -⟩ : a = svc ∧ b = operand ∧ _ = rest := by simpa using hts
      simp [ofTokens_svc hs, ofSvc_eq, ho]
  case foreignTrap =>
    obtain ⟨svc, operands, hts, hs, ho⟩ := ofTokens_eq_foreignTrap hi
    rcases ts with _ | ⟨a, _ | ⟨b, ts⟩⟩
    case nil =>
      have hn := not_isMnemonic_of_isQuoted ht
      simp_all
    case cons.nil =>
      obtain ⟨rfl, -⟩ : a = svc ∧ _ = operands := by simpa using hts
      simp [ofTokens_svc hs, ofSvc]
    case cons.cons =>
      obtain ⟨rfl, rfl⟩ : a = svc ∧ _ = operands := by simpa using hts
      simp_all [ofTokens_svc hs, ofSvc_eq]
  all_goals simp [hi, isEffective] at h

-- An effective instruction stays the same whatever is written behind it, as long as this does not
-- complete a trap.
theorem ofTokens_continued (hc : Token.Continued ts us vs) (h : (ofTokens ts).isEffective)
    (hu : us.head?.map (·.text) ≠ some "#0") : ofTokens vs = ofTokens ts := by
  cases hc
  case appended => exact ofTokens_append h hu
  case absorbed ws t u vs hts ht hu =>
    have hws := ofTokens_of_isQuoted ht (hts ▸ h)
    rw [hts, ← hws]
    exact ofTokens_append (hws ▸ hts ▸ h) (by simp [text_ne_of_isQuoted hu])

end Instruction

end SvcLens
