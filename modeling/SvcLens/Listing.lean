import SvcLens.Analysis
import SvcLens.Syscall.Linux
import SvcLens.Text.Lines

namespace SvcLens

namespace Listing

def suffix (hints : List Hint) : List Char :=
  if hints.isEmpty then []
  else ("  // " ++ "; ".intercalate (hints.map (·.label))).toList

def render (text : String) (hints : HintTable) : String :=
  String.ofList <| Text.joinLines <| (Text.splitLines text.toList).mapIdx fun n l =>
    { l with chars := l.chars ++ suffix (hints.onLine n) }

end Listing

structure Listing where
  text : String
  hints : HintTable
  diagnostics : List Diagnostic
  trace : List Trace

namespace Listing

def traceName (file : Option String) : String :=
  match file with
  | none => "<stdin>"
  | some name => if name.isEmpty then "<stdin>" else name

def ofText (syscalls : SyscallTable) (file : Option String) (text : String) :
    Except Numeral.Error Listing := do
  let tokens := TokenTable.ofText text
  let found ← analyze ⟨syscalls, Syscall.standardStreams, true⟩ tokens
  let hints := found.hintTable
  let diagnostics := match file with
    | none => found.diagnostics
    | some name => found.diagnostics.map fun d => { d with file := some name }
  let finished := Trace.finished (traceName file) hints.size diagnostics.length
  return {
    text := render text hints
    hints
    diagnostics
    trace := .scanned tokens.size :: found.trace ++ [finished] }

end Listing

end SvcLens
