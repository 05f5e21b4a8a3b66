namespace SvcLens.Text

inductive Break where
  | none
  | lf
  | crlf
  deriving DecidableEq, Repr

def Break.chars : Break → List Char
  | .none => []
  | .lf => ['\n']
  | .crlf => ['\r', '\n']

structure Line where
  chars : List Char
  ending : Break
  deriving DecidableEq, Repr

def consChar (c : Char) : List Line → List Line
  | [] => [⟨[c], .none⟩]
  | l :: ls => { l with chars := c :: l.chars } :: ls

-- The lines of a text. There is always at least one, and exactly the last one has no break.
def splitLines : List Char → List Line
  | [] => [⟨[], .none⟩]
  | '\r' :: '\n' :: cs => ⟨[], .crlf⟩ :: splitLines cs
  | '\n' :: cs => ⟨[], .lf⟩ :: splitLines cs
  | c :: cs => consChar c (splitLines cs)

def joinLines (ls : List Line) : List Char :=
  ls.flatMap fun l => l.chars ++ l.ending.chars

def unifyBreaks : List Char → List Char
  | [] => []
  | '\r' :: '\n' :: cs => '\n' :: unifyBreaks cs
  | '\r' :: cs => '\n' :: unifyBreaks cs
  | c :: cs => c :: unifyBreaks cs

theorem splitLines_ne_nil (cs : List Char) : splitLines cs ≠ [] := by
  fun_induction splitLines cs with
  | case1 | case2 | case3 => simp
  | case4 c cs _ _ ih =>
    cases h : splitLines cs with
    | nil => exact absurd h ih
    | cons l ls => simp [consChar]

theorem joinLines_consChar (c : Char) (ls : List Line) :
    joinLines (consChar c ls) = c :: joinLines ls := by
  cases ls <;> simp [consChar, joinLines, Break.chars]

theorem joinLines_splitLines (cs : List Char) : joinLines (splitLines cs) = cs := by
  fun_induction splitLines cs with
  | case1 => rfl
  | case2 cs ih => simpa [joinLines, Break.chars] using ih
  | case3 cs ih => simpa [joinLines, Break.chars] using ih
  | case4 c cs _ _ ih => rw [joinLines_consChar, ih]

end SvcLens.Text
