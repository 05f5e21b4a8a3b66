namespace SvcLens.Text

-- Half of a surrogate pair, by its distance from the first of them. Escapes can spell one that
-- stands alone, but it is no character.
structure Surrogate where
  index : Fin 0x800
  deriving DecidableEq, Repr

namespace Surrogate

def code (s : Surrogate) : Nat :=
  0xD800 + s.index.val

def ofCode? (n : Nat) : Option Surrogate :=
  if h : 0xD800 ≤ n ∧ n < 0xE000 then some ⟨⟨n - 0xD800, by omega⟩⟩ else none

def standIn (s : Surrogate) : Char :=
  Char.ofNat (s.code + 0x800)

def otherStandIn (s : Surrogate) : Char :=
  Char.ofNat (s.code + 0x1000)

theorem code_lt (s : Surrogate) : s.code < 0xE000 := by
  have := s.index.isLt
  simp only [code]
  omega

theorem le_code (s : Surrogate) : 0xD800 ≤ s.code :=
  Nat.le_add_right ..

@[simp]
theorem ofCode?_code (s : Surrogate) : ofCode? s.code = some s := by
  rw [ofCode?, dif_pos ⟨s.le_code, s.code_lt⟩]
  simp [code]

theorem toNat_ofNat {n : Nat} (h₁ : 0xE000 ≤ n) (h₂ : n < 0x110000) : (Char.ofNat n).toNat = n := by
  rw [Char.ofNat, dif_pos (.inr ⟨by omega, h₂⟩)]
  rfl

theorem toNat_standIn (s : Surrogate) : s.standIn.toNat = s.code + 0x800 := by
  have := s.le_code
  have := s.code_lt
  exact toNat_ofNat (by omega) (by omega)

theorem toNat_otherStandIn (s : Surrogate) : s.otherStandIn.toNat = s.code + 0x1000 := by
  have := s.le_code
  have := s.code_lt
  exact toNat_ofNat (by omega) (by omega)

end Surrogate

inductive CodePoint where
  | char (c : Char)
  | surrogate (s : Surrogate)
  deriving DecidableEq, Repr

namespace CodePoint

def ofNat (n : Nat) : CodePoint :=
  match Surrogate.ofCode? n with
  | some s => .surrogate s
  | none => .char (Char.ofNat n)

def char? : CodePoint → Option Char
  | .char c => some c
  | .surrogate _ => none

def surrogate? : CodePoint → Option Surrogate
  | .char _ => none
  | .surrogate s => some s

def fill (standIn : Surrogate → Char) : CodePoint → Char
  | .char c => c
  | .surrogate s => standIn s

def ofFillings (c d : Char) : CodePoint :=
  if c = d then .char c else ofNat (c.toNat - 0x800)

theorem ofFillings_fill (p : CodePoint) :
    ofFillings (p.fill Surrogate.standIn) (p.fill Surrogate.otherStandIn) = p := by
  cases p with
  | char c => simp [fill, ofFillings]
  | surrogate s =>
    have h : s.standIn ≠ s.otherStandIn := fun e => by
      have := congrArg Char.toNat e
      rw [s.toNat_standIn, s.toNat_otherStandIn] at this
      omega
    simp [fill, ofFillings, h, s.toNat_standIn, ofNat]

end CodePoint

abbrev Loose := List CodePoint

namespace Loose

def ofString (s : String) : Loose :=
  s.toList.map .char

def string? (t : Loose) : Option String :=
  (t.mapM CodePoint.char?).map String.ofList

def fill (standIn : Surrogate → Char) (t : Loose) : String :=
  String.ofList (t.map (CodePoint.fill standIn))

theorem mapM_char?_map_char (cs : List Char) :
    (cs.map CodePoint.char).mapM CodePoint.char? = some cs := by
  induction cs with
  | nil => rfl
  | cons c cs ih => simp [CodePoint.char?, ih]

@[simp]
theorem string?_ofString (s : String) : (ofString s).string? = some s := by
  rw [string?, ofString, mapM_char?_map_char]
  simp

@[simp]
theorem fill_ofString (standIn : Surrogate → Char) (s : String) :
    (ofString s).fill standIn = s := by
  simp [ofString, fill, CodePoint.fill, Function.comp_def]

-- The text that two strings with different stand-ins come from: they differ at its halves alone.
def ofFillings (a b : String) : Loose :=
  List.zipWith CodePoint.ofFillings a.toList b.toList

theorem ofFillings_fill (t : Loose) :
    ofFillings (t.fill Surrogate.standIn) (t.fill Surrogate.otherStandIn) = t := by
  simp [ofFillings, fill, List.zipWith_map, List.zipWith_self, CodePoint.ofFillings_fill]

end Loose

end SvcLens.Text
