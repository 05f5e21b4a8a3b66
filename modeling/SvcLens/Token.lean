import SvcLens.IntMap
import SvcLens.Text.Blank
import SvcLens.Text.Lines

namespace SvcLens

-- The kinds of tokens. Scanning yields no comments; the kind is there for other sources of tokens.
inductive Token.Kind where
  | ident
  | comma
  | string
  | comment
  deriving DecidableEq, Repr

structure Token where
  kind : Token.Kind
  text : String
  start : Int
  stop : Int
  deriving DecidableEq, Repr

namespace Token

def isSeparator (c : Char) : Bool :=
  c == ' ' || c == '\t' || c == '\r' || c == '\n'

def isQuote (c : Char) : Bool :=
  c == '\x27' || c == '\x22'

def isIdentChar (c : Char) : Bool :=
  !isSeparator c && c != ',' && !isQuote c

def ofChars (kind : Kind) (col : Nat) (cs : List Char) : Token :=
  ⟨kind, String.ofList cs, col, (col + cs.length : Nat)⟩

def scanFrom (col : Nat) : List Char → List Token
  | [] => []
  | c :: cs =>
    if isSeparator c then scanFrom (col + 1) cs
    else if c = ',' then ofChars .comma col [c] :: scanFrom (col + 1) cs
    else if isQuote c then
      let inside := cs.takeWhile (· != c)
      match _h : cs.dropWhile (· != c) with
      | [] => [ofChars .string col (c :: inside)]
      | q :: rest =>
        ofChars .string col (c :: inside ++ [q]) :: scanFrom (col + inside.length + 2) rest
    else
      let more := cs.takeWhile isIdentChar
      ofChars .ident col (c :: more) ::
        scanFrom (col + more.length + 1) (cs.dropWhile isIdentChar)
termination_by cs => cs.length
decreasing_by
  · simp
  · simp
  · have := Text.length_dropWhile_le (· != c) cs
    simp only [_h, List.length_cons] at this
    simp only [List.length_cons]; omega
  · have := Text.length_dropWhile_le isIdentChar cs
    simp only [List.length_cons]; omega

def scan (line : String) : List Token :=
  scanFrom 0 line.toList

def covers (t : Token) (col : Int) : Bool :=
  t.start ≤ col && col < t.stop

theorem covers_iff {t : Token} {col : Int} : t.covers col ↔ t.start ≤ col ∧ col < t.stop := by
  simp only [covers, Bool.and_eq_true, decide_eq_true_eq]

def endsAt (t : Token) (col : Int) : Bool :=
  t.stop == col && t.kind != .comma

-- The token at the cursor: the first one that takes the cursor's column, or else the first one that
-- ends there and is no comma.
def atCursor (ts : List Token) (col : Int) : Option Token :=
  (ts.find? (·.covers col)).or (ts.find? (·.endsAt col))

end Token

abbrev TokenTable := IntMap (List Token)

namespace TokenTable

def linesFrom (n : Nat) : List Text.Line → List (Int × List Token)
  | [] => []
  | l :: ls =>
    if (Text.trim l.chars).isEmpty then linesFrom (n + 1) ls
    else ((n : Int), Token.scanFrom 0 l.chars) :: linesFrom (n + 1) ls

theorem le_of_mem_linesFrom {n : Nat} {ls : List Text.Line} {e : Int × List Token}
    (h : e ∈ linesFrom n ls) : (n : Int) ≤ e.1 := by
  induction ls generalizing n with
  | nil => simp [linesFrom] at h
  | cons l ls ih =>
    rw [linesFrom] at h
    split at h
    case isTrue => have := ih h; omega
    case isFalse =>
      rcases List.mem_cons.mp h with rfl | h
      · simp
      · have := ih h; omega

theorem ascending_linesFrom (n : Nat) (ls : List Text.Line) :
    (linesFrom n ls).Pairwise (fun a b => a.1 < b.1) := by
  induction ls generalizing n with
  | nil => simp [linesFrom]
  | cons l ls ih =>
    rw [linesFrom]
    split
    case isTrue => exact ih (n + 1)
    case isFalse =>
      refine List.pairwise_cons.mpr ⟨fun e he => ?_, ih (n + 1)⟩
      have := le_of_mem_linesFrom he
      show (n : Int) < e.1
      omega

def ofText (text : String) : TokenTable :=
  ⟨linesFrom 0 (Text.splitLines text.toList), ascending_linesFrom 0 _⟩

end TokenTable

end SvcLens
