import Mathlib.Data.List.Forall2

namespace SvcLens

variable {ε α β γ : Type}

theorem bind_eq_ok_iff {x : Except ε α} {f : α → Except ε β} {b : β} :
    x >>= f = .ok b ↔ ∃ a, x = .ok a ∧ f a = .ok b := by
  cases x <;> simp [bind, Except.bind]

theorem bind_eq_error_iff {x : Except ε α} {f : α → Except ε β} {e : ε} :
    x >>= f = .error e ↔ x = .error e ∨ ∃ a, x = .ok a ∧ f a = .error e := by
  cases x <;> simp [bind, Except.bind]

theorem map_eq_ok_iff {x : Except ε α} {f : α → β} {b : β} :
    x.map f = .ok b ↔ ∃ a, x = .ok a ∧ f a = b := by
  cases x <;> simp [Except.map]

theorem map_eq_error_iff {x : Except ε α} {f : α → β} {e : ε} :
    x.map f = .error e ↔ x = .error e := by
  cases x <;> simp [Except.map]

theorem pure_eq_ok_iff {a b : α} : (pure a : Except ε α) = .ok b ↔ a = b := by
  simp [pure, Except.pure]

theorem pure_ne_error {a : α} {e : ε} : (pure a : Except ε α) ≠ .error e := by
  simp [pure, Except.pure]

theorem bind_pure_eq_error_iff {x : Except ε α} {f : α → β} {e : ε} :
    (x >>= fun a => pure (f a)) = .error e ↔ x = .error e := by
  cases x <;> simp [bind, Except.bind, pure, Except.pure]

theorem mapM_eq_ok_iff {f : α → Except ε β} {xs : List α} {ys : List β} :
    xs.mapM f = .ok ys ↔ List.Forall₂ (fun x y => f x = .ok y) xs ys := by
  induction xs generalizing ys
  case nil => rw [List.mapM_nil, pure_eq_ok_iff, List.forall₂_nil_left_iff, eq_comm]
  case cons x xs ih =>
    rw [List.mapM_cons, bind_eq_ok_iff, List.forall₂_cons_left_iff]
    simp only [bind_eq_ok_iff, pure_eq_ok_iff, ih]
    grind

theorem mapM_eq_some_iff {f : α → Option β} {xs : List α} {ys : List β} :
    xs.mapM f = some ys ↔ List.Forall₂ (fun x y => f x = some y) xs ys := by
  induction xs generalizing ys
  case nil =>
    rw [List.mapM_nil, Option.pure_def, Option.some.injEq, List.forall₂_nil_left_iff, eq_comm]
  case cons x xs ih =>
    rw [List.mapM_cons, List.forall₂_cons_left_iff]
    simp only [Option.bind_eq_bind, Option.bind_eq_some_iff, Option.pure_def, Option.some.injEq, ih]
    grind

-- Whatever is collected from a result can be collected from its element.
theorem flatMap_of_mapM_eq_ok {f : α → Except ε β} {g : β → List γ} {k : α → List γ} {xs : List α}
    {ys : List β} (h : xs.mapM f = .ok ys) (hf : ∀ x ∈ xs, ∀ y, f x = .ok y → g y = k x) :
    ys.flatMap g = xs.flatMap k := by
  induction xs generalizing ys
  case nil =>
    rw [List.mapM_nil, pure_eq_ok_iff] at h
    simp [← h]
  case cons x xs ih =>
    rw [List.mapM_cons, bind_eq_ok_iff] at h
    have ⟨y, hy, h⟩ := h
    have ⟨ys', hys, h⟩ := bind_eq_ok_iff.mp h
    rw [← pure_eq_ok_iff.mp h, List.flatMap_cons, List.flatMap_cons]
    rw [hf x List.mem_cons_self y hy, ih hys fun x hx => hf x (List.mem_cons_of_mem _ hx)]

theorem mem_iff_of_mapM_eq_ok {f : α → Except ε β} {xs : List α} {ys : List β} {y : β}
    (h : xs.mapM f = .ok ys) : y ∈ ys ↔ ∃ x ∈ xs, f x = .ok y := by
  induction xs generalizing ys
  case nil =>
    rw [List.mapM_nil, pure_eq_ok_iff] at h
    simp [← h]
  case cons x xs ih =>
    rw [List.mapM_cons, bind_eq_ok_iff] at h
    have ⟨z, hz, h⟩ := h
    have ⟨zs, hzs, h⟩ := bind_eq_ok_iff.mp h
    simp [← pure_eq_ok_iff.mp h, hz, ih hzs, eq_comm]

theorem exists_of_mapM_eq_error {f : α → Except ε β} {xs : List α} {e : ε}
    (h : xs.mapM f = .error e) : ∃ x ∈ xs, f x = .error e := by
  induction xs
  case nil => exact absurd h pure_ne_error
  case cons x xs ih =>
    rw [List.mapM_cons, bind_eq_error_iff] at h
    cases h
    case inl h => exact ⟨x, List.mem_cons_self, h⟩
    case inr h =>
      have ⟨y, _, h⟩ := h
      cases bind_eq_error_iff.mp h
      case inl h =>
        have ⟨x', hx, h⟩ := ih h
        exact ⟨x', List.mem_cons_of_mem _ hx, h⟩
      case inr h =>
        have ⟨_, _, h⟩ := h
        exact absurd h pure_ne_error

theorem mapM_congr {f g : α → Except ε β} {xs : List α} (h : ∀ x ∈ xs, f x = g x) :
    xs.mapM f = xs.mapM g := by
  induction xs
  case nil => rfl
  case cons x xs ih =>
    obtain ⟨hx, hxs⟩ := List.forall_mem_cons.mp h
    rw [List.mapM_cons, List.mapM_cons, hx, ih hxs]

theorem mapM_map_right (f : α → Except ε β) (g : β → γ) (xs : List α) :
    xs.mapM (fun x => (f x).map g) = (xs.mapM f).map (List.map g) := by
  induction xs
  case nil => rfl
  case cons x xs ih =>
    rw [List.mapM_cons, List.mapM_cons, ih]
    cases f x
    case error => rfl
    case ok => cases xs.mapM f <;> rfl

def Fails (x : Except ε α) : Prop :=
  ∃ e, x = .error e

theorem not_fails_ok {a : α} : ¬Fails (.ok a : Except ε α) :=
  nofun

theorem fails_or_ok (x : Except ε α) : Fails x ∨ ∃ a, x = .ok a := by
  cases x
  case error e => exact .inl ⟨e, rfl⟩
  case ok a => exact .inr ⟨a, rfl⟩

theorem fails_bind_iff {x : Except ε α} {f : α → Except ε β} :
    Fails (x >>= f) ↔ Fails x ∨ ∃ a, x = .ok a ∧ Fails (f a) := by
  cases x <;> simp [Fails, bind, Except.bind]

theorem fails_bind_pure_iff {x : Except ε α} {f : α → β} :
    Fails (x >>= fun a => pure (f a)) ↔ Fails x := by
  simp only [Fails, bind_pure_eq_error_iff]

theorem fails_map_iff {x : Except ε α} {f : α → β} : Fails (x.map f) ↔ Fails x := by
  simp only [Fails, map_eq_error_iff]

theorem fails_mapM_iff {f : α → Except ε β} {xs : List α} :
    Fails (xs.mapM f) ↔ ∃ x ∈ xs, Fails (f x) := by
  constructor
  case mp =>
    rintro ⟨e, h⟩
    have ⟨x, hx, h⟩ := exists_of_mapM_eq_error h
    exact ⟨x, hx, e, h⟩
  case mpr =>
    rintro ⟨x, hx, hf⟩
    induction xs
    case nil => contradiction
    case cons y ys ih =>
      rw [List.mapM_cons, fails_bind_iff]
      cases fails_or_ok (f y)
      case inl hy => exact .inl hy
      case inr hy =>
        obtain ⟨b, hy⟩ := hy
        refine .inr ⟨b, hy, fails_bind_pure_iff.mpr (ih ?_)⟩
        cases List.mem_cons.mp hx
        case inl he => exact absurd (hy ▸ he ▸ hf) not_fails_ok
        case inr hx => exact hx

theorem not_fails_iff {x : Except ε α} : ¬Fails x ↔ ∃ a, x = .ok a := by
  cases x <;> simp [Fails]

theorem exists_mapM_eq_ok_iff {f : α → Except ε β} {xs : List α} :
    (∃ ys, xs.mapM f = .ok ys) ↔ ∀ x ∈ xs, ∃ y, f x = .ok y := by
  simp only [← not_fails_iff, fails_mapM_iff, not_exists, not_and]

section Agreement

variable {α' β' : Type} {R : α → α' → Prop} {S : β → β' → Prop}

-- Computations that fail for the same reason, or succeed with results that belong together.
inductive Agree (R : α → α' → Prop) : Except ε α → Except ε α' → Prop
  | error (e : ε) : Agree R (.error e) (.error e)
  | ok {a : α} {a' : α'} : R a a' → Agree R (.ok a) (.ok a')

theorem Agree.refl {R : α → α → Prop} (h : ∀ a, R a a) (x : Except ε α) : Agree R x x := by
  cases x
  case error e => exact .error e
  case ok a => exact .ok (h a)

theorem Agree.imp {T : α → α' → Prop} {x : Except ε α} {x' : Except ε α'} (h : Agree R x x')
    (hT : ∀ {a a'}, R a a' → T a a') : Agree T x x' := by
  cases h
  case error e => exact .error e
  case ok h => exact .ok (hT h)

theorem Agree.bind {x : Except ε α} {x' : Except ε α'} {f : α → Except ε β}
    {f' : α' → Except ε β'} (h : Agree R x x') (hf : ∀ {a a'}, R a a' → Agree S (f a) (f' a')) :
    Agree S (x >>= f) (x' >>= f') := by
  cases h
  case error e => exact .error e
  case ok h => exact hf h

theorem agree_of_map_eq {f : α → γ} {f' : α' → γ} {x : Except ε α} {x' : Except ε α'}
    (h : x.map f = x'.map f') : Agree (fun a a' => f a = f' a') x x' := by
  cases x <;> cases x'
  case error.error e e' => exact Except.error.inj h ▸ .error e
  case ok.ok => exact .ok (Except.ok.inj h)
  all_goals contradiction

end Agreement

section OneByOne

variable {R : α → β → Prop} {xs : List α} {ys : List β}

theorem eq_nil_iff_of_forall₂ (h : List.Forall₂ R xs ys) : xs = [] ↔ ys = [] := by
  rw [← List.length_eq_zero_iff, h.length_eq, List.length_eq_zero_iff]

theorem forall_mem_iff_of_forall₂ {P : α → Prop} {Q : β → Prop} (h : List.Forall₂ R xs ys)
    (hR : ∀ {x y}, R x y → (P x ↔ Q y)) : (∀ x ∈ xs, P x) ↔ ∀ y ∈ ys, Q y := by
  induction h
  case nil => simp
  case cons hxy _ ih => simp only [List.forall_mem_cons, hR hxy, ih]

theorem exists_getLast?_of_forall₂ {y : β} (h : List.Forall₂ R xs ys)
    (hy : ys.getLast? = some y) : ∃ x, xs.getLast? = some x ∧ R x y := by
  rw [List.getLast?_eq_head?_reverse] at hy ⊢
  have ⟨ys', hys⟩ := List.head?_eq_some_iff.mp hy
  have h := List.forall₂_reverse_iff.mpr h
  rw [hys] at h
  have ⟨x, xs', hR, _, hxs⟩ := List.forall₂_cons_right_iff.mp h
  exact ⟨x, by rw [hxs]; rfl, hR⟩

theorem pairwise_of_forall₂ {S : α → α → Prop} {T : β → β → Prop} (h : List.Forall₂ R xs ys)
    (hs : xs.Pairwise S) (hT : ∀ {x x' y y'}, R x y → R x' y' → S x x' → T y y') :
    ys.Pairwise T := by
  have ⟨hl, hR⟩ := List.forall₂_iff_get.mp h
  rw [List.pairwise_iff_getElem] at hs ⊢
  intro i j hi hj hij
  have hi' : i < xs.length := hl ▸ hi
  have hj' : j < xs.length := hl ▸ hj
  exact hT (hR i hi' hi) (hR j hj' hj) (hs i j hi' hj' hij)

end OneByOne

end SvcLens
