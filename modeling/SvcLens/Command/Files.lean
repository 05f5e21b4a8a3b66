import SvcLens.Text.Quoted

namespace SvcLens.Command

inductive FileError where
  | zeroInPath
  | refused (code : Nat) (reason : String)
  deriving DecidableEq, Repr

namespace FileError

def missing : FileError := .refused 2 "No such file or directory"

def notDirectory : FileError := .refused 20 "Not a directory"

def isDirectory : FileError := .refused 21 "Is a directory"

def nameTooLong : FileError := .refused 36 "File name too long"

def message (path : String) : FileError → String
  | .zeroInPath => "embedded null byte"
  | .refused code reason =>
    "[Errno " ++ Numeral.decimalOfNat code ++ "] " ++ reason ++ ": " ++ Text.Quoted.encode path

end FileError

structure Host (m : Type → Type) where
  readFile : String → m (Except FileError (List UInt8))
  writeFile : String → List UInt8 → m (Except FileError Unit)
  readInput : m (List UInt8)

namespace Host

variable {m : Type → Type} [Monad m]

-- A path with a zero character in it names nothing, and nothing acts on it.
def guarded {α : Type} (path : String) (act : m (Except FileError α)) : m (Except FileError α) :=
  if path.toList.contains '\x00' then pure (.error .zeroInPath) else act

def read (host : Host m) (path : String) : m (Except FileError (List UInt8)) :=
  guarded path (host.readFile path)

def write (host : Host m) (path : String) (content : List UInt8) : m (Except FileError Unit) :=
  guarded path (host.writeFile path content)

end Host

end SvcLens.Command
