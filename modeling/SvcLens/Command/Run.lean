import SvcLens.Command.Files
import SvcLens.Command.Options
import SvcLens.Listing
import SvcLens.Syscall.TableFile

namespace SvcLens.Command

inductive Fault where
  | zeroInPath
  -- The name of a constant of the log is asked for as a level: its default format, or the styles of
  -- such formats.
  | formatAsLevel
  | stylesAsLevel
  | numeral (error : Numeral.Error)
  | tooDeep (container : Json.Reader.Container)
  | unencodable (error : Text.Utf8.EncodeError)
  deriving DecidableEq, Repr

def formatStyles : List (String × String × String) :=
  [("%", "PercentStyle", "%(levelname)s:%(name)s:%(message)s"),
   ("\x7b", "StrFormatStyle", "\x7blevelname\x7d:\x7bname\x7d:\x7bmessage\x7d"),
   ("$", "StringTemplateStyle", "$\x7blevelname\x7d:$\x7bname\x7d:$\x7bmessage\x7d")]

def describeStyle : String × String × String → String
  | (mark, name, format) =>
    Text.Quoted.encode mark ++ ": (<class " ++ Text.Quoted.encode ("logging." ++ name) ++ ">, " ++
      Text.Quoted.encode format ++ ")"

def Fault.message : Fault → String
  | .zeroInPath => FileError.message "" .zeroInPath
  | .formatAsLevel => "Unknown level: \x27%(levelname)s:%(name)s:%(message)s\x27"
  | .stylesAsLevel =>
    "Level not an integer or a valid string: \x7b" ++
      ", ".intercalate (formatStyles.map describeStyle) ++ "\x7d"
  | .numeral e => e.message
  | .tooDeep container => (Json.ReadError.tooDeep container).message
  | .unencodable e => e.message

inductive Outcome where
  | finished (exit : Nat) (out err : String)
  | broken (fault : Fault)
  deriving DecidableEq, Repr

def threshold (level : Option String) : Except Fault Nat :=
  let name := Text.upper (level.getD "WARNING")
  if name = "BASIC_FORMAT" then .error .formatAsLevel
  else if name = "_STYLES" then .error .stylesAsLevel
  else
    .ok <| ([("CRITICAL", 50), ("FATAL", 50), ("ERROR", 40), ("WARNING", 30), ("WARN", 30),
      ("INFO", 20), ("DEBUG", 10), ("NOTSET", 0)].lookup name).getD 30

def logged (stamp : String) (threshold : Nat) (trace : List Trace) : String :=
  let shown := trace.filter fun t => threshold ≤ t.level.weight
  String.join <| shown.map fun t =>
    "[" ++ stamp ++ "] " ++ t.level.name ++ ": " ++ t.message ++ "\n"

def reported (ds : List Diagnostic) : Except Numeral.Error String := do
  return String.join ((← ds.mapM Diagnostic.display).map (· ++ "\n"))

def failed (err : String) : Outcome :=
  .finished 2 "" err

variable {m : Type → Type} [Monad m]

def tableFor (host : Host m) (path : Option String) :
    m (Except Outcome ((Text.Surrogate → Char) → SyscallTable)) := do
  match path.filter (!·.isEmpty) with
  | none => return .ok fun _ => Syscall.linux
  | some path =>
    let refused (reason : String) : Outcome :=
      failed ("ERROR: tabla de syscalls inválida " ++ path ++ ": " ++ reason ++ "\n")
    match ← host.read path with
    | .error e => return .error (refused (e.message path))
    | .ok content =>
      match TableFile.load content with
      | .error (.json (.tooDeep container)) => return .error (.broken (.tooDeep container))
      | .error e => return .error (refused (e.message path))
      | .ok file => return .ok file.syscalls

def textOf (host : Host m) (source : String) : m (Except Outcome String) := do
  let refused (reason : String) : Outcome :=
    failed ("ERROR: no pude leer " ++ source ++ ": " ++ reason ++ "\n")
  if source = "-" then
    match Text.Utf8.decode (← host.readInput) with
    | .error e => return .error (refused e.message)
    | .ok text => return .ok (String.ofList (Text.unifyBreaks text.toList))
  else
    match ← host.read source with
    | .error .zeroInPath => return .error (.broken .zeroInPath)
    | .error e => return .error (refused (e.message source))
    | .ok content =>
      match Text.Utf8.decode content with
      | .error e => return .error (refused e.message)
      | .ok text => return .ok text

structure Result where
  listing : Listing
  text : Text.Loose
  err : String

-- The result for a source. The surrogates in the text stand where two listings with different
-- stand-ins differ: of the texts in a table only the name `fd` decides anything, and no stand-in
-- makes a name that one.
def resultOf (stamp : String) (threshold : Nat) (table : (Text.Surrogate → Char) → SyscallTable)
    (file : Option String) (text : String) : Except Numeral.Error Result := do
  let listing ← Listing.ofText (table Text.Surrogate.standIn) file text
  let other ← Listing.ofText (table Text.Surrogate.otherStandIn) file text
  return {
    listing
    text := .ofFillings listing.text other.text
    err := logged stamp threshold listing.trace ++ (← reported listing.diagnostics) }

-- Writes the listing, behind everything else that the run has to say. A file for it is opened
-- first, and stays empty if the listing cannot be encoded.
def deliver (host : Host m) (output : Option String) (r : Result) : m Outcome := do
  let exit := if Diagnostic.anyError r.listing.diagnostics then 1 else 0
  let text := Text.Utf8.encodable r.text
  let written (out : String) : Outcome :=
    match text with
    | .error e => .broken (.unencodable e)
    | .ok _ => .finished exit out r.err
  match output.filter (!·.isEmpty) with
  | none => return written (text.toOption.getD "")
  | some path =>
    match ← host.write path (Text.Utf8.encode (text.toOption.getD "")) with
    | .error .zeroInPath => return .broken .zeroInPath
    | .error e =>
      return failed (r.err ++ "ERROR al escribir " ++ path ++ ": " ++ e.message path ++ "\n")
    | .ok () => return written ""

def runWith (host : Host m) (stamp : String) (o : Options) : m Outcome := do
  match threshold o.logLevel with
  | .error fault => return .broken fault
  | .ok threshold =>
    match ← tableFor host o.syscalls with
    | .error outcome => return outcome
    | .ok table =>
      match ← textOf host o.source with
      | .error outcome => return outcome
      | .ok text =>
        let file := if o.source = "-" then none else some o.source
        match resultOf stamp threshold table file text with
        | .error e => return .broken (.numeral e)
        | .ok result => deliver host o.output result

def run (dialect : Dialect) (host : Host m) (stamp : String) (words : List String) : m Outcome :=
  match Request.ofWords dialect words with
  | .error e => return failed (usage ++ "aarch64-hints: error: " ++ e.message ++ "\n")
  | .ok .help => return .finished 0 help ""
  | .ok (.run o) => runWith host stamp o

end SvcLens.Command
