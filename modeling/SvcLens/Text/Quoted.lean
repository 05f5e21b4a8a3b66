import SvcLens.Numeral
import SvcLens.Text.Loose
import SvcLens.Text.Printable

namespace SvcLens.Text.Quoted

def single : Char := '\x27'

def double : Char := '\x22'

-- A text with an apostrophe and no quotation mark is put in quotation marks.
def quoteFor (cs : List Char) : Char :=
  if cs.contains single && !cs.contains double then double else single

def hex (width n : Nat) : List Char :=
  let digits := (Numeral.toDigits 16 n).map Numeral.digitChar
  List.replicate (width - digits.length) '0' ++ digits

def escape (quote c : Char) : List Char :=
  if c == quote || c == '\\' then ['\\', c]
  else if c == '\n' then ['\\', 'n']
  else if c == '\r' then ['\\', 'r']
  else if c == '\t' then ['\\', 't']
  else if isPrintable c then [c]
  else if c.toNat < 0x100 then '\\' :: 'x' :: hex 2 c.toNat
  else if c.toNat < 0x10000 then '\\' :: 'u' :: hex 4 c.toNat
  else '\\' :: 'U' :: hex 8 c.toNat

def escapePoint (quote : Char) : CodePoint → List Char
  | .char c => escape quote c
  | .surrogate s => '\\' :: 'u' :: hex 4 s.code

def encodeLoose (t : Loose) : String :=
  let quote := quoteFor (t.filterMap CodePoint.char?)
  String.ofList (quote :: t.flatMap (escapePoint quote) ++ [quote])

def encode (s : String) : String :=
  encodeLoose (.ofString s)

end SvcLens.Text.Quoted
