import SvcLens.Json
import SvcLens.Numeral.Message
import SvcLens.Text.Blank

namespace SvcLens.Json

namespace Reader

inductive Fault where
  | byteOrderMark
  | value
  | name
  | colon
  | comma
  | unterminated
  | control
  | escape
  | unicodeEscape
  | extra
  deriving DecidableEq, Repr

inductive Container where
  | array
  | object
  deriving DecidableEq, Repr

-- Why reading stopped: a fault in front of the given number of characters, an integer that cannot
-- be read, or a container that is nested too deeply.
inductive Stop where
  | fault (cause : Fault) (remaining : Nat)
  | numeral (error : Numeral.Error)
  | tooDeep (container : Container)
  deriving DecidableEq, Repr

def maxDepth : Nat := 989

-- Something read from the start of a text, and the characters behind it. There are fewer of them
-- than before, so that reading ends.
structure Read (α : Type) (cs : List Char) where
  value : α
  rest : List Char
  shorter : rest.length < cs.length

def isSpace (c : Char) : Bool :=
  c == ' ' || c == '\t' || c == '\n' || c == '\r'

def skipSpace (cs : List Char) : List Char :=
  cs.dropWhile isSpace

theorem length_skipSpace_le (cs : List Char) : (skipSpace cs).length ≤ cs.length :=
  Text.length_dropWhile_le isSpace cs

def mark (c : Char) (cause : Fault) (cs : List Char) : Except Stop (Read Unit cs) :=
  match h : skipSpace cs with
  | d :: rest =>
    if d == c then
      .ok ⟨(), skipSpace rest, by
        have h₁ := length_skipSpace_le cs
        have h₂ := length_skipSpace_le rest
        simp only [h, List.length_cons] at h₁
        omega⟩
    else .error (.fault cause (rest.length + 1))
  | [] => .error (.fault cause 0)

def escaped? (c : Char) : Option Char :=
  [('\x22', '\x22'), ('\\', '\\'), ('/', '/'), ('b', '\x08'), ('f', '\x0c'), ('n', '\n'),
   ('r', '\r'), ('t', '\t')].lookup c

def codeUnit? (cs : List Char) : Option Nat :=
  ((cs.take 4).mapM Numeral.hexValue?).map (Numeral.ofDigits 16)

def isHighSurrogate (n : Nat) : Bool := 0xD800 ≤ n && n ≤ 0xDBFF

def isLowSurrogate (n : Nat) : Bool := 0xDC00 ≤ n && n ≤ 0xDFFF

def ofPair (high low : Nat) : Char :=
  Char.ofNat (0x10000 + 0x400 * (high - 0xD800) + (low - 0xDC00))

-- Reads a code unit in hexadecimal behind the letter `u`, and a second one if the two are a pair of
-- surrogates. Something must follow the digits.
def unicodeEscape (cs : List Char) : Except Stop (Read Text.CodePoint ('u' :: cs)) :=
  match if (cs.drop 4).isEmpty then none else codeUnit? cs with
  | none => .error (.fault .unicodeEscape (cs.length + 1))
  | some first =>
    let single : Read Text.CodePoint ('u' :: cs) :=
      ⟨.ofNat first, cs.drop 4, by simp only [List.length_drop, List.length_cons]; omega⟩
    let next := cs.drop 4
    if isHighSurrogate first && !(next.drop 6).isEmpty && next.take 2 == ['\\', 'u'] then
      match codeUnit? (next.drop 2) with
      | none => .error (.fault .unicodeEscape (next.length - 1))
      | some second =>
        if isLowSurrogate second then
          .ok ⟨.char (ofPair first second), cs.drop 10, by
            simp only [List.length_drop, List.length_cons]; omega⟩
        else .ok single
    else .ok single

def escape (opening : List Char) : (cs : List Char) → Except Stop (Read Text.CodePoint cs)
  | [] => .error (.fault .unterminated opening.length)
  | 'u' :: rest => unicodeEscape rest
  | c :: rest =>
    match escaped? c with
    | some d => .ok ⟨.char d, rest, Nat.lt_succ_self _⟩
    | none => .error (.fault .escape (rest.length + 2))

def text (opening cs : List Char) : Except Stop (Read Text.Loose cs) :=
  match cs with
  | [] => .error (.fault .unterminated opening.length)
  | '\x22' :: rest => .ok ⟨[], rest, Nat.lt_succ_self _⟩
  | '\\' :: rest => do
    let c ← escape opening rest
    have := c.shorter
    let r ← text opening c.rest
    .ok ⟨c.value :: r.value, r.rest, by have := r.shorter; simp only [List.length_cons]; omega⟩
  | c :: rest => do
    if c.toNat ≤ 0x1F then .error (.fault .control (rest.length + 1))
    let r ← text opening rest
    .ok ⟨.char c :: r.value, r.rest, by have := r.shorter; simp only [List.length_cons]; omega⟩
termination_by cs.length

def wordValues : List (List Char × Json) :=
  [("null".toList, .null), ("true".toList, .bool true), ("false".toList, .bool false),
   ("NaN".toList, .real .nan), ("Infinity".toList, .real (.infinite false)),
   ("-Infinity".toList, .real (.infinite true))]

def wholePart (cs : List Char) : List Char :=
  if cs.head? == some '0' then ['0'] else cs.takeWhile Char.isDigit

def fractionPart : List Char → List Char
  | '.' :: cs => cs.takeWhile Char.isDigit
  | _ => []

def exponentPart : List Char → Option (Int × Nat)
  | e :: cs =>
    if e == 'e' || e == 'E' then
      let (negative, digits) := Numeral.splitSign cs
      let run := digits.takeWhile Char.isDigit
      if run.isEmpty then none
      else
        let signWidth := if cs.head? == some '+' || cs.head? == some '-' then 1 else 0
        let n := Numeral.ofDigits 10 (run.filterMap Numeral.hexValue?)
        some (Numeral.signed negative n, 1 + signWidth + run.length)
    else none
  | [] => none

theorem length_drop_wholePart_lt {cs : List Char} (h : wholePart cs ≠ []) :
    (cs.drop (wholePart cs).length).length < cs.length := by
  have hw : 0 < (wholePart cs).length := List.length_pos_iff.mpr h
  have hc : 0 < cs.length := List.length_pos_iff.mpr fun e => h (by simp [e, wholePart])
  rw [List.length_drop]
  omega

def number (cs : List Char) : Except Stop (Read Json cs) :=
  let negative := cs.head? == some '-'
  let body := if negative then cs.tail else cs
  if h : wholePart body = [] then .error (.fault .value cs.length)
  else
    let behindWhole := body.drop (wholePart body).length
    let fraction := fractionPart behindWhole
    let behindFraction := behindWhole.drop (if fraction.isEmpty then 0 else fraction.length + 1)
    let exponent := exponentPart behindFraction
    let rest := behindFraction.drop (exponent.elim 0 Prod.snd)
    have shorter : rest.length < cs.length := by
      have h₁ : body.length ≤ cs.length := by
        simp only [body]
        split <;> simp
      have h₂ := length_drop_wholePart_lt h
      simp only [rest, behindFraction, behindWhole, List.length_drop] at h₂ ⊢
      omega
    if fraction.isEmpty && exponent.isNone then
      match Numeral.readDecimal (wholePart body) with
      | .ok n => .ok ⟨.integer (Numeral.signed negative n), rest, shorter⟩
      | .error e => .error (.numeral e)
    else
      let digits := wholePart body ++ fraction
      let n := Numeral.ofDigits 10 (digits.filterMap Numeral.hexValue?)
      let power := exponent.elim 0 Prod.fst - fraction.length
      .ok ⟨.real (.ofDecimal negative n digits.length power), rest, shorter⟩

def scalar (cs : List Char) : Except Stop (Read Json cs) :=
  match wordValues.find? (fun w => w.1.isPrefixOf cs) with
  | none => number cs
  | some (word, v) =>
    if h : word ≠ [] ∧ cs ≠ [] then
      .ok ⟨v, cs.drop word.length, by
        have := List.length_pos_iff.mpr h.1
        have := List.length_pos_iff.mpr h.2
        rw [List.length_drop]
        omega⟩
    else .error (.fault .value cs.length)

-- The depth inside a container that is met at the given depth, which is counted downwards.
def inside (container : Container) : Nat → Except Stop Nat
  | 0 => .error (.tooDeep container)
  | depth + 1 => .ok depth

mutual

def value (depth : Nat) (cs : List Char) : Except Stop (Read Json cs) :=
  match cs with
  | '\x22' :: rest => do
    let r ← text cs rest
    .ok ⟨.string r.value, r.rest, by
      have := r.shorter
      simp only [List.length_cons]; omega⟩
  | '\x7b' :: rest => do
    let inner ← inside .object depth
    have := length_skipSpace_le rest
    let r ← members inner (skipSpace rest)
    .ok ⟨.object r.value, r.rest, by
      have := r.shorter
      simp only [List.length_cons]; omega⟩
  | '[' :: rest => do
    let inner ← inside .array depth
    have := length_skipSpace_le rest
    let r ← elements inner (skipSpace rest)
    .ok ⟨.array r.value, r.rest, by
      have := r.shorter
      simp only [List.length_cons]; omega⟩
  | cs => scalar cs
termination_by 3 * cs.length
decreasing_by all_goals simp only [List.length_cons]; omega

def members (depth : Nat) (cs : List Char) :
    Except Stop (Read (List (Text.Loose × Json)) cs) :=
  match cs with
  | '\x7d' :: rest => .ok ⟨[], rest, Nat.lt_succ_self _⟩
  | cs => member depth [] cs
termination_by 3 * cs.length + 2

def member (depth : Nat) (known : List (Text.Loose × Json)) (cs : List Char) :
    Except Stop (Read (List (Text.Loose × Json)) cs) :=
  match cs with
  | '\x22' :: start => do
    let name ← text cs start
    have := name.shorter
    let colon ← mark ':' .colon name.rest
    have := colon.shorter
    let v ← value depth colon.rest
    have := v.shorter
    let known' := putMember known name.value v.value
    match h : skipSpace v.rest with
    | '\x7d' :: rest =>
      .ok ⟨known', rest, by
        have := length_skipSpace_le v.rest
        simp only [h, List.length_cons] at this
        simp only [List.length_cons]; omega⟩
    | _ => do
      let comma ← mark ',' .comma v.rest
      have := comma.shorter
      let r ← member depth known' comma.rest
      .ok ⟨r.value, r.rest, by
        have := r.shorter
        simp only [List.length_cons]; omega⟩
  | cs => .error (.fault .name cs.length)
termination_by 3 * cs.length + 1
decreasing_by all_goals simp only [List.length_cons]; omega

def elements (depth : Nat) (cs : List Char) : Except Stop (Read (List Json) cs) :=
  match cs with
  | ']' :: rest => .ok ⟨[], rest, Nat.lt_succ_self _⟩
  | cs => element depth cs
termination_by 3 * cs.length + 2

def element (depth : Nat) (cs : List Char) : Except Stop (Read (List Json) cs) := do
  let v ← value depth cs
  have := v.shorter
  match h : skipSpace v.rest with
  | ']' :: rest =>
    .ok ⟨[v.value], rest, by
      have := length_skipSpace_le v.rest
      simp only [h, List.length_cons] at this
      omega⟩
  | _ => do
    let comma ← mark ',' .comma v.rest
    have := comma.shorter
    let r ← element depth comma.rest
    .ok ⟨v.value :: r.value, r.rest, by have := r.shorter; omega⟩
termination_by 3 * cs.length + 1

end

def whole (cs : List Char) : Except Stop Json := do
  if cs.head? == some '\uFEFF' then .error (.fault .byteOrderMark cs.length)
  let r ← value maxDepth (skipSpace cs)
  match skipSpace r.rest with
  | [] => .ok r.value
  | rest => .error (.fault .extra rest.length)

def Fault.message : Fault → String
  | .byteOrderMark => "Unexpected UTF-8 BOM (decode using utf-8-sig)"
  | .value => "Expecting value"
  | .name => "Expecting property name enclosed in double quotes"
  | .colon => "Expecting \x27:\x27 delimiter"
  | .comma => "Expecting \x27,\x27 delimiter"
  | .unterminated => "Unterminated string starting at"
  | .control => "Invalid control character at"
  | .escape => "Invalid \\escape"
  | .unicodeEscape => "Invalid \\uXXXX escape"
  | .extra => "Extra data"

def Container.name : Container → String
  | .array => "array"
  | .object => "object"

end Reader

inductive ReadError where
  | malformed (cause : Reader.Fault) (before : List Char)
  | numeral (error : Numeral.Error)
  | tooDeep (container : Reader.Container)
  deriving DecidableEq, Repr

def read (cs : List Char) : Except ReadError Json :=
  match Reader.whole cs with
  | .ok v => .ok v
  | .error (.fault cause remaining) => .error (.malformed cause (cs.take (cs.length - remaining)))
  | .error (.numeral e) => .error (.numeral e)
  | .error (.tooDeep container) => .error (.tooDeep container)

def describePlace (before : List Char) : String :=
  "line " ++ Numeral.decimalOfNat (before.count '\n' + 1) ++
    " column " ++ Numeral.decimalOfNat ((before.reverse.takeWhile (· != '\n')).length + 1) ++
    " (char " ++ Numeral.decimalOfNat before.length ++ ")"

def ReadError.message : ReadError → String
  | .malformed cause before => cause.message ++ ": " ++ describePlace before
  | .numeral e => e.message
  | .tooDeep container =>
    "maximum recursion depth exceeded while decoding a JSON " ++ container.name ++
      " from a unicode string"

end SvcLens.Json
