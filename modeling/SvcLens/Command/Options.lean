import SvcLens.Text.Quoted

namespace SvcLens.Command

-- The two readings of what stands behind an option in its own word. Early, two dashes there are no
-- value, and `-h` refuses what does not consist of short options. Late, a value is taken as it is,
-- and `-h` refuses only what starts with an equals sign or a dash.
inductive Dialect where
  | early
  | late
  deriving DecidableEq, Repr

structure Options where
  source : String
  output : Option String
  syscalls : Option String
  logLevel : Option String
  deriving DecidableEq, Repr

inductive Setting where
  | output
  | syscalls
  | logLevel
  deriving DecidableEq, Repr

inductive Flag where
  | help
  | setting (s : Setting)
  deriving DecidableEq, Repr

def Setting.name : Setting → String
  | .output => "-o/--output"
  | .syscalls => "--syscalls"
  | .logLevel => "--log-level"

def longFlags : List (String × Flag) :=
  [("--help", .help), ("--output", .setting .output), ("--syscalls", .setting .syscalls),
   ("--log-level", .setting .logLevel)]

def shortFlags : List (Char × Flag) :=
  [('h', .help), ('o', .setting .output)]

inductive UsageError where
  | ambiguous (word : String)
  | missingValue (s : Setting)
  | unusedValue (value : String)
  | missingSource
  | unrecognized (words : List String)
  deriving DecidableEq, Repr

def UsageError.message : UsageError → String
  | .ambiguous word =>
    "ambiguous option: " ++ word ++ " could match " ++ ", ".intercalate (longFlags.map (·.1))
  | .missingValue s => "argument " ++ s.name ++ ": expected one argument"
  | .unusedValue value =>
    "argument -h/--help: ignored explicit argument " ++ Text.Quoted.encode value
  | .missingSource => "the following arguments are required: source"
  | .unrecognized words => "unrecognized arguments: " ++ " ".intercalate words

inductive Word where
  | plain (text : String)
  | divider
  | long (flag : Flag) (value : Option String)
  | short (flag : Flag) (behind : List Char)
  | unknown (text : String)
  deriving DecidableEq, Repr

def splitAtEquals (cs : List Char) : List Char × Option String :=
  match cs.dropWhile (· != '=') with
  | [] => (cs, none)
  | _ :: value => (cs.takeWhile (· != '='), some (String.ofList value))

-- Whether a text behind a dash makes it a negative number: digits, with a point before the last of
-- them or without. A line feed may follow.
def isNumber (cs : List Char) : Bool :=
  let body := if cs.getLast? == some '\n' then cs.dropLast else cs
  match body.dropWhile Text.isDecimal with
  | [] => !body.isEmpty
  | '.' :: fraction => !fraction.isEmpty && fraction.all Text.isDecimal
  | _ => false

def notOption (text : String) (behindDash : List Char) : Word :=
  if isNumber behindDash || behindDash.contains ' ' then .plain text else .unknown text

def longWord (text : String) : Except UsageError Word :=
  let (name, value) := splitAtEquals text.toList
  match longFlags.lookup (String.ofList name) with
  | some flag => .ok (.long flag value)
  | none =>
    match longFlags.filter fun f => name.isPrefixOf f.1.toList with
    | [] => .ok (notOption text (text.toList.drop 1))
    | [(_, flag)] => .ok (.long flag value)
    | _ => .error (.ambiguous text)

def attached? : List Char → Option String
  | [] => none
  | '=' :: value => some (String.ofList value)
  | value => some (String.ofList value)

def wordOf (text : String) : Except UsageError Word :=
  match text.toList with
  | '-' :: '-' :: _ => longWord text
  | '-' :: c :: rest =>
    match shortFlags.lookup c with
    | some flag => .ok (.short flag rest)
    | none => .ok (notOption text (c :: rest))
  | _ => .ok (.plain text)

def sortWords : List String → Except UsageError (List Word)
  | [] => .ok []
  | text :: rest =>
    if text = "--" then .ok (.divider :: rest.map .plain)
    else do return (← wordOf text) :: (← sortWords rest)

inductive Request where
  | help
  | run (o : Options)
  deriving DecidableEq, Repr

structure Partial where
  source : Option String := none
  output : Option String := none
  syscalls : Option String := none
  logLevel : Option String := none
  extra : List String := []

def Partial.set (p : Partial) (s : Setting) (value : Option String) : Partial :=
  match s with
  | .output => { p with output := value }
  | .syscalls => { p with syscalls := value }
  | .logLevel => { p with logLevel := value }

def Partial.setAttached (p : Partial) (dialect : Dialect) (s : Setting) (value : String) :
    Partial :=
  match dialect with
  | .early => p.set s (if value = "--" then none else some value)
  | .late => p.set s (some value)

def Partial.addExtra (p : Partial) (word : String) : Partial :=
  { p with extra := p.extra ++ [word] }

def Partial.finish (p : Partial) : Except UsageError Request :=
  match p.source with
  | none => .error .missingSource
  | some source =>
    if p.extra.isEmpty then .ok (.run ⟨source, p.output, p.syscalls, p.logLevel⟩)
    else .error (.unrecognized p.extra)

def Dialect.leaves : Dialect → List Char → Except UsageError Unit
  | .early, behind => .error (.unusedValue (String.ofList behind))
  | .late, '=' :: value => .error (.unusedValue (String.ofList value))
  | .late, '-' :: more => .error (.unusedValue (String.ofList ('-' :: more)))
  | .late, _ => .ok ()

-- Whether short options in the word of `-h` leave it to give help. One of them that needs a value
-- needs it though help comes first.
def helpBefore (dialect : Dialect) (next : Option Word) : List Char → Except UsageError Unit
  | [] => .ok ()
  | c :: more =>
    match shortFlags.lookup c, more with
    | none, more => dialect.leaves (c :: more)
    | some .help, more => helpBefore dialect next more
    | some (.setting s), [] =>
      match next with
      | some (.plain _) => .ok ()
      | _ => .error (.missingValue s)
    | some (.setting _), _ => .ok ()

-- Early, an equals sign right behind `-h` was left out.
def helpWith (dialect : Dialect) (next : Option Word) (behind : List Char) :
    Except UsageError Unit :=
  match dialect, behind with
  | .early, ['='] => .error (.unusedValue "")
  | .early, '=' :: value => helpBefore .early next value
  | dialect, behind => helpBefore dialect next behind

def take (dialect : Dialect) (p : Partial) : List Word → Except UsageError Request
  | [] => p.finish
  | .plain text :: rest =>
    match p.source with
    | some _ => take dialect (p.addExtra text) rest
    | none =>
      let p := { p with source := some text }
      match rest with
      -- Two dashes right behind the source belong to it.
      | .divider :: rest => take dialect p rest
      | rest => take dialect p rest
  | .divider :: rest =>
    match p.source, rest with
    | none, .plain text :: rest => take dialect { p with source := some text } rest
    | _, rest => take dialect (p.addExtra "--") rest
  | .unknown text :: rest => take dialect (p.addExtra text) rest
  | .long .help none :: _ => .ok .help
  | .long .help (some value) :: _ => .error (.unusedValue value)
  | .short .help behind :: rest => (helpWith dialect rest.head? behind).map fun _ => .help
  | .long (.setting s) (some value) :: rest => take dialect (p.setAttached dialect s value) rest
  | .long (.setting s) none :: rest => takeValue p s rest
  | .short (.setting s) behind :: rest =>
    match attached? behind with
    | some value => take dialect (p.setAttached dialect s value) rest
    | none => takeValue p s rest
where
  takeValue (p : Partial) (s : Setting) : List Word → Except UsageError Request
    | .plain value :: rest => take dialect (p.set s (some value)) rest
    | _ => .error (.missingValue s)

def Request.ofWords (dialect : Dialect) (words : List String) : Except UsageError Request := do
  take dialect {} (← sortWords words)

def usage : String :=
  "usage: aarch64-hints [-h] [-o OUTPUT] [--syscalls SYSCALLS]\n" ++
  "                     [--log-level LOG_LEVEL]\n" ++
  "                     source\n"

def help : String :=
  usage ++
  "\nAnota código AArch64 con pistas de syscalls\n" ++
  "\npositional arguments:\n" ++
  "  source                archivo .s/.asm de entrada (\x27-\x27 para stdin)\n" ++
  "\noptions:\n" ++
  "  -h, --help            show this help message and exit\n" ++
  "  -o OUTPUT, --output OUTPUT\n" ++
  "                        archivo de salida (por defecto stdout)\n" ++
  "  --syscalls SYSCALLS   tabla de syscalls alternativa en JSON\n" ++
  "  --log-level LOG_LEVEL\n"

end SvcLens.Command
