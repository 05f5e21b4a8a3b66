import Std.Time.Zoned
import SvcLens.Command.Run

namespace SvcLens.Command

-- The errors of the system that name a file or directory; others keep the words they come with.
def FileError.ofSystem : IO.Error → FileError
  | .noFileOrDirectory .. => .missing
  | .inappropriateType _ code reason => .refused code.toNat reason
  | .permissionDenied _ code reason => .refused code.toNat reason
  | .invalidArgument _ code reason => .refused code.toNat reason
  | .resourceExhausted _ code reason => .refused code.toNat reason
  | .noSuchThing _ code reason => .refused code.toNat reason
  | e => .refused 5 (toString e)

def attempt {α : Type} (act : IO α) : IO (Except FileError α) := do
  match ← act.toBaseIO with
  | .ok a => return .ok a
  | .error e => return .error (.ofSystem e)

def systemHost : Host IO where
  readFile path := attempt do return (← IO.FS.readBinFile path).toList
  writeFile path content := attempt (IO.FS.writeBinFile path (ByteArray.mk content.toArray))
  readInput := do return (← (← IO.getStdin).readBinToEnd).toList

def timeStamp : IO String := do
  let t ← Std.Time.PlainDateTime.now
  let padded (width n : Nat) : String :=
    let digits := Numeral.decimalOfNat n
    String.ofList (List.replicate (width - digits.length) '0') ++ digits
  return padded 4 t.year.toNat ++ "-" ++ padded 2 t.month.val.toNat ++ "-" ++
    padded 2 t.day.val.toNat ++ " " ++ padded 2 t.hour.val.toNat ++ ":" ++
    padded 2 t.minute.val.toNat ++ ":" ++ padded 2 t.second.val.toNat ++ "," ++
    padded 3 t.millisecond.val.toNat

end SvcLens.Command

def main (words : List String) : IO UInt32 := do
  let stamp ← SvcLens.Command.timeStamp
  match ← SvcLens.Command.run .late SvcLens.Command.systemHost stamp words with
  | .finished exit out err =>
    IO.eprint err
    IO.print out
    return exit.toUInt32
  | .broken fault =>
    IO.eprintln fault.message
    return 1
