import SvcLens.Text.Quoted

namespace SvcLens.Text.Utf8

inductive Fault where
  | start
  | continuation
  | truncated
  deriving DecidableEq, Repr

-- The place of the first bytes that are no UTF-8: how many bytes stand before them, and the bytes
-- themselves, up to the one that shows the fault.
structure Error where
  fault : Fault
  before : Nat
  bytes : List UInt8
  deriving DecidableEq, Repr

def isContinuation (b : UInt8) : Bool :=
  0x80 ≤ b && b ≤ 0xBF

-- Whether a byte may follow the first byte of a character. It is restricted further, so that no
-- character has two forms, no surrogate has any, and none lies beyond the last code point.
def mayFollow (lead b : UInt8) : Bool :=
  isContinuation b && (lead != 0xE0 || 0xA0 ≤ b) && (lead != 0xED || b ≤ 0x9F) &&
    (lead != 0xF0 || 0x90 ≤ b) && (lead != 0xF4 || b ≤ 0x8F)

def followers? (lead : UInt8) : Option Nat :=
  if lead < 0x80 then some 0
  else if lead < 0xC2 then none
  else if lead < 0xE0 then some 1
  else if lead < 0xF0 then some 2
  else if lead < 0xF5 then some 3
  else none

def leadBits (lead : UInt8) (followers : Nat) : Nat :=
  match followers with
  | 0 => lead.toNat
  | 1 => lead.toNat % 0x20
  | 2 => lead.toNat % 0x10
  | _ => lead.toNat % 0x08

def taken (lead : UInt8) (owed : Nat) (rest : List UInt8) : List UInt8 :=
  match rest.take owed with
  | [] => []
  | b :: bs => if mayFollow lead b then b :: bs.takeWhile isContinuation else []

def decodeFrom (offset : Nat) : List UInt8 → Except Error (List Char)
  | [] => .ok []
  | lead :: rest =>
    match followers? lead with
    | none => .error ⟨.start, offset, [lead]⟩
    | some owed =>
      let more := taken lead owed rest
      if more.length < owed then
        let fault := if more.length < rest.length then Fault.continuation else Fault.truncated
        .error ⟨fault, offset, lead :: more⟩
      else
        let code := more.foldl (fun n b => 0x40 * n + b.toNat % 0x40) (leadBits lead owed)
        (decodeFrom (offset + 1 + owed) (rest.drop owed)).map (Char.ofNat code :: ·)
termination_by bytes => bytes.length
decreasing_by
  simp only [List.length_drop, List.length_cons]
  omega

def decode (bytes : List UInt8) : Except Error String :=
  (decodeFrom 0 bytes).map String.ofList

def encode (s : String) : List UInt8 :=
  s.toUTF8.toList

structure EncodeError where
  before : Nat
  surrogates : List Surrogate
  deriving DecidableEq, Repr

def encodable (t : Loose) : Except EncodeError String :=
  match t.string? with
  | some s => .ok s
  | none =>
    let before := t.takeWhile (·.char?.isSome)
    let run := (t.drop before.length).takeWhile (·.surrogate?.isSome)
    .error ⟨before.length, run.filterMap CodePoint.surrogate?⟩

def Fault.message : Fault → String
  | .start => "invalid start byte"
  | .continuation => "invalid continuation byte"
  | .truncated => "unexpected end of data"

def Error.message (e : Error) : String :=
  "\x27utf-8\x27 codec can\x27t decode " ++ place ++ ": " ++ e.fault.message
where
  place : String :=
    match e.bytes with
    | [b] =>
      "byte 0x" ++ String.ofList ((Numeral.toDigits 16 b.toNat).map Numeral.digitChar) ++
        " in position " ++ Numeral.decimalOfNat e.before
    | bs =>
      "bytes in position " ++ Numeral.decimalOfNat e.before ++ "-" ++
        Numeral.decimalOfNat (e.before + bs.length - 1)

def EncodeError.message (e : EncodeError) : String :=
  "\x27utf-8\x27 codec can\x27t encode " ++ place ++ ": surrogates not allowed"
where
  place : String :=
    match e.surrogates with
    | [s] =>
      "character " ++ Quoted.encodeLoose [.surrogate s] ++
        " in position " ++ Numeral.decimalOfNat e.before
    | ss =>
      "characters in position " ++ Numeral.decimalOfNat e.before ++ "-" ++
        Numeral.decimalOfNat (e.before + ss.length - 1)

end SvcLens.Text.Utf8
