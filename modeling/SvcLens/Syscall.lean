import SvcLens.IntMap
import SvcLens.Json

namespace SvcLens

structure Argument where
  register : String
  name : String
  notes : Json
  deriving BEq, Repr

structure Syscall where
  name : String
  arguments : List Argument
  returns : String
  deriving BEq, Repr

namespace Syscall

def signature (s : Syscall) : String :=
  s.name ++ "(" ++ ", ".intercalate (s.arguments.map (·.name)) ++ ")"

end Syscall

abbrev SyscallTable := IntMap Syscall

end SvcLens
