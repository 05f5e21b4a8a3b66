import SvcLens.Instruction

namespace SvcLens.Instruction

variable {ts : List Token} {q r : Tracked} {target comma value : Token}

theorem not_isMnemonic_mov {t : Token} (h : isMnemonic "svc" t) : ¬isMnemonic "mov" t := by
  simp only [isMnemonic, beq_iff_eq] at h ⊢
  rw [h]
  decide

theorem ofValue_eq_assign (h : ofValue q comma ts = .assign r value) :
    ∃ rest, ts = value :: rest ∧ q = r ∧ value.kind = .ident := by
  unfold ofValue at h
  split at h
  case h_1 => contradiction
  case h_2 v rest =>
    split at h
    case isTrue hv =>
      injection h with hq hv'
      exact ⟨rest, by rw [hv'], hq, hv' ▸ hv⟩
    case isFalse => contradiction

theorem ofOperands_eq_assign (h : ofOperands q target ts = .assign r value) :
    ∃ comma rest, ts = comma :: value :: rest ∧ q = r ∧ comma.kind = .comma ∧
      value.kind = .ident := by
  unfold ofOperands at h
  split at h
  case h_1 => contradiction
  case h_2 comma rest =>
    split at h
    case isTrue hc =>
      have ⟨rest', ht, hq, hv⟩ := ofValue_eq_assign h
      exact ⟨comma, rest', by rw [ht], hq, hc, hv⟩
    case isFalse => contradiction

theorem ofMov_eq_assign (h : ofMov ts = .assign r value) :
    ∃ target comma rest, ts = target :: comma :: value :: rest ∧
      Tracked.ofToken? target.text = some r ∧ comma.kind = .comma ∧ value.kind = .ident := by
  unfold ofMov at h
  split at h
  case h_1 => contradiction
  case h_2 target rest =>
    split at h
    case h_1 => contradiction
    case h_2 q ht =>
      have ⟨comma, rest', hr, hq, hc, hv⟩ := ofOperands_eq_assign h
      exact ⟨target, comma, rest', by rw [hr], hq ▸ ht, hc, hv⟩

theorem ofMov_ne_trap (ts : List Token) : ofMov ts ≠ .trap ∧ ofMov ts ≠ .foreignTrap := by
  unfold ofMov ofOperands ofValue
  repeat' split
  all_goals simp

theorem ofSvc_eq (ts : List Token) :
    ofSvc ts = if ts.head?.map (·.text) = some "#0" then .trap else .foreignTrap := by
  cases ts <;> simp [ofSvc]

theorem ofTokens_mov {t : Token} (h : isMnemonic "mov" t) : ofTokens (t :: ts) = ofMov ts := by
  simp [ofTokens, h]

theorem ofTokens_svc {t : Token} (h : isMnemonic "svc" t) : ofTokens (t :: ts) = ofSvc ts := by
  simp [ofTokens, h, not_isMnemonic_mov h]

theorem ofTokens_ne_trap {t : Token} (h : ¬isMnemonic "svc" t) :
    ofTokens (t :: ts) ≠ .trap ∧ ofTokens (t :: ts) ≠ .foreignTrap := by
  by_cases hm : isMnemonic "mov" t
  case pos => exact ofTokens_mov hm ▸ ofMov_ne_trap ts
  case neg => simp [ofTokens, h, hm]

theorem ofSvc_ne_assign : ofSvc ts ≠ .assign r value := by
  rw [ofSvc_eq]
  split <;> simp

theorem ofTokens_eq_assign (h : ofTokens ts = .assign r value) :
    ∃ mov target comma rest, ts = mov :: target :: comma :: value :: rest ∧ isMnemonic "mov" mov ∧
      Tracked.ofToken? target.text = some r ∧ comma.kind = .comma ∧ value.kind = .ident := by
  unfold ofTokens at h
  split at h
  case h_1 => contradiction
  case h_2 mov operands =>
    split at h
    case isTrue hm =>
      have ⟨target, comma, rest, ho, hr, hc, hv⟩ := ofMov_eq_assign h
      exact ⟨mov, target, comma, rest, by rw [ho], hm, hr, hc, hv⟩
    case isFalse =>
      split at h
      case isTrue => exact absurd h ofSvc_ne_assign
      case isFalse => contradiction

theorem ofTokens_eq_trap (h : ofTokens ts = .trap) :
    ∃ svc operand rest, ts = svc :: operand :: rest ∧ isMnemonic "svc" svc ∧
      operand.text = "#0" := by
  cases ts
  case nil => contradiction
  case cons svc operands =>
    by_cases hs : isMnemonic "svc" svc
    case neg => exact absurd h (ofTokens_ne_trap hs).left
    case pos =>
      rw [ofTokens_svc hs] at h
      cases operands
      case nil => contradiction
      case cons operand rest =>
        by_cases ho : operand.text = "#0"
        case pos => exact ⟨svc, operand, rest, rfl, hs, ho⟩
        case neg => simp [ofSvc, ho] at h

theorem ofTokens_eq_foreignTrap (h : ofTokens ts = .foreignTrap) :
    ∃ svc operands, ts = svc :: operands ∧ isMnemonic "svc" svc ∧
      operands.head?.map (·.text) ≠ some "#0" := by
  cases ts
  case nil => contradiction
  case cons svc operands =>
    by_cases hs : isMnemonic "svc" svc
    case neg => exact absurd h (ofTokens_ne_trap hs).right
    case pos =>
      rw [ofTokens_svc hs, ofSvc_eq] at h
      split at h
      case isTrue => contradiction
      case isFalse ho => exact ⟨svc, operands, rfl, hs, ho⟩

end SvcLens.Instruction
