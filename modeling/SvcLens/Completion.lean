import SvcLens.Instruction
import SvcLens.Syscall

namespace SvcLens

inductive Candidate.Kind where
  | register
  | syscall
  deriving DecidableEq, Repr

structure Candidate where
  label : String
  kind : Candidate.Kind
  detail : String
  documentation : Option String
  deriving DecidableEq, Repr

namespace Candidate

def registers : List Candidate :=
  Register.catalogue.map fun (name, description) => ⟨name, .register, description, none⟩

def usage? (s : Syscall) : Option String :=
  let text := ", ".intercalate (s.arguments.map fun a => a.name ++ " (" ++ a.register ++ ")")
  if text.isEmpty then none else some text

def ofSyscall (number : Int) (s : Syscall) : Except Numeral.Error Candidate := do
  return ⟨"#" ++ (← Numeral.write number), .syscall, s.name, usage? s⟩

def syscalls (table : SyscallTable) : Except Numeral.Error (List Candidate) :=
  table.entries.mapM fun e => ofSyscall e.1 e.2

end Candidate

namespace Completion

-- The characters before the cursor. A negative column counts from the end of the line.
def before (cs : List Char) (col : Int) : List Char :=
  cs.take (if col < 0 then (cs.length + col).toNat else col.toNat)

def words (cs : List Char) : List String :=
  (Text.words (fun c => Text.isBlank c || c == ',') cs).map fun w =>
    String.ofList (w.map Char.toLower)

def namesNumber (text : String) : Bool :=
  Tracked.ofToken? text == some .number

def candidates (table : SyscallTable) (line : String) (col : Int) :
    Except Numeral.Error (List Candidate) :=
  match words (before line.toList col) with
  | [] => .ok []
  | mnemonic :: operands =>
    if mnemonic != "mov" then .ok []
    else if namesNumber (operands.headD "") ||
        (Token.atCursor (Token.scan line) col).any (fun t => namesNumber t.text) then
      Candidate.syscalls table
    else .ok Candidate.registers

end Completion

end SvcLens
