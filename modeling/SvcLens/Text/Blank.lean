namespace SvcLens.Text

def inRanges (ranges : List (Nat × Nat)) (n : Nat) : Bool :=
  ranges.any fun r => r.1 ≤ n && n ≤ r.2

-- The blank characters of Unicode, as closed ranges of code points: the ASCII blanks, the four
-- information separators, and the spaces and line separators beyond ASCII.
def blankRanges : List (Nat × Nat) :=
  [(0x9, 0xD), (0x1C, 0x20), (0x85, 0x85), (0xA0, 0xA0), (0x1680, 0x1680), (0x2000, 0x200A),
   (0x2028, 0x2029), (0x202F, 0x202F), (0x205F, 0x205F), (0x3000, 0x3000)]

def isBlank (c : Char) : Bool :=
  inRanges blankRanges c.toNat

def trim (cs : List Char) : List Char :=
  ((cs.dropWhile isBlank).reverse.dropWhile isBlank).reverse

theorem length_dropWhile_le (p : Char → Bool) (cs : List Char) :
    (cs.dropWhile p).length ≤ cs.length :=
  (List.dropWhile_sublist p).length_le

def words (isSeparator : Char → Bool) (cs : List Char) : List (List Char) :=
  match _h : cs.dropWhile isSeparator with
  | [] => []
  | c :: rest =>
    (c :: rest.takeWhile (!isSeparator ·)) :: words isSeparator (rest.dropWhile (!isSeparator ·))
termination_by cs.length
decreasing_by
  have h₁ := length_dropWhile_le isSeparator cs
  have h₂ := length_dropWhile_le (!isSeparator ·) rest
  simp only [_h, List.length_cons] at h₁
  omega

end SvcLens.Text
