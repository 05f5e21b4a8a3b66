import SvcLens.Json.Reader
import SvcLens.Register
import SvcLens.Syscall
import SvcLens.Text.Lines
import SvcLens.Text.Utf8

namespace SvcLens

namespace TableFile

structure Role where
  register : Tracked
  name : Text.Loose
  notes : Json
  deriving BEq, Repr

structure Entry where
  name : Text.Loose
  roles : List Role
  returns : Text.Loose
  deriving BEq, Repr

def Role.argument (standIn : Text.Surrogate → Char) (r : Role) : Argument :=
  ⟨r.register.name, r.name.fill standIn, r.notes⟩

def Entry.syscall (standIn : Text.Surrogate → Char) (e : Entry) : Syscall :=
  ⟨e.name.fill standIn, e.roles.map (Role.argument standIn), e.returns.fill standIn⟩

end TableFile

abbrev TableFile := IntMap TableFile.Entry

namespace TableFile

-- The system calls that a file describes, with stand-ins for the surrogates in its texts.
def syscalls (f : TableFile) (standIn : Text.Surrogate → Char) : SyscallTable :=
  f.map (Entry.syscall standIn)

inductive Error where
  | encoding (error : Text.Utf8.Error)
  | json (error : Json.ReadError)
  | root
  | number (key : Text.Loose)
  | entry (number : Int)
  | arguments (number : Int)
  | register (number : Int) (name : Text.Loose)
  | argument (number : Int) (register : Tracked)
  | numeral (error : Numeral.Error)
  deriving DecidableEq, Repr

def numberOf? (key : Text.Loose) : Option Int :=
  key.string?.bind Numeral.ofLiteral?

-- Arguments are ordered by the number behind the first character, those without one first.
def orderOf (register : Text.Loose) : Except Error Int :=
  let digits := ((Text.Loose.string? (register.drop 1)).getD "").toList
  if digits.isEmpty || !digits.all Text.isDigitLike then .ok (-1)
  else
    match Numeral.readDecimal digits with
    | .ok n => .ok n
    | .error e => .error (.numeral e)

def inOrder (members : List (Text.Loose × Json)) : Except Error (List (Text.Loose × Json)) := do
  let keyed ← members.mapM fun m => do return (← orderOf m.1, m)
  return (keyed.mergeSort fun a b => a.1 ≤ b.1).map Prod.snd

def registerOf? (name : Text.Loose) : Option Tracked :=
  (name.string?.bind Tracked.ofName?).filter (· != .number)

def roleOf? (register : Tracked) : Json → Option Role
  | .string name => some ⟨register, name, .null⟩
  | .object members =>
    match Json.member? "name" members with
    | some (.string name) => some ⟨register, name, (Json.member? "notes" members).getD .null⟩
    | _ => none
  | _ => none

def argumentOf (number : Int) (member : Text.Loose × Json) : Except Error Role := do
  let some register := registerOf? member.1 | .error (.register number member.1)
  let some role := roleOf? register member.2 | .error (.argument number register)
  return role

def rolesOf (number : Int) (entry : List (Text.Loose × Json)) : Except Error (List Role) := do
  let v := (Json.member? "args" entry).getD .null
  if v.isVacant then return []
  let .object members := v | .error (.arguments number)
  (← inOrder members).mapM (argumentOf number)

def returnsOf (entry : List (Text.Loose × Json)) : Text.Loose :=
  match (Json.member? "returns" entry).getD (.ofText "") with
  | .object members => ((Json.member? "x0" members).getD (.ofText "")).asText
  | v => v.asText

def entryOf (key : Text.Loose) (v : Json) : Except Error (Int × Entry) := do
  let some number := numberOf? key | .error (.number key)
  let .object entry := v | .error (.entry number)
  let some (.string name) := Json.member? "name" entry | .error (.entry number)
  return (number, ⟨name, ← rolesOf number entry, returnsOf entry⟩)

def ofJson : Json → Except Error TableFile
  | .object members => do return .ofList (← members.mapM fun m => entryOf m.1 m.2)
  | _ => .error .root

def load (content : List UInt8) : Except Error TableFile :=
  match Text.Utf8.decode content with
  | .error e => .error (.encoding e)
  | .ok text =>
    match Json.read (Text.unifyBreaks text.toList) with
    | .error e => .error (.json e)
    | .ok v => ofJson v

def aboutSyscall (number : Int) (what : String) : String :=
  match Numeral.write number with
  | .ok n => "Syscall " ++ n ++ ": " ++ what
  | .error e => e.message

def Error.message (path : String) : Error → String
  | .encoding e => e.message
  | .json (.malformed cause before) =>
    "JSON inválido en " ++ path ++ ": " ++ (Json.ReadError.malformed cause before).message
  | .json e => e.message
  | .root => path ++ ": se esperaba un objeto en la raíz"
  | .number key => "Número de syscall inválido: " ++ Text.Quoted.encodeLoose key
  | .entry n => aboutSyscall n "se esperaba un objeto con \x27name\x27"
  | .arguments n =>
    aboutSyscall n "\x27args\x27 debe ser un objeto \x7bregistro: argumento\x7d"
  | .register n name =>
    aboutSyscall n ("registro de argumento inválido " ++ Text.Quoted.encodeLoose name)
  | .argument n r => aboutSyscall n ("argumento " ++ r.name ++ " sin \x27name\x27")
  | .numeral e => e.message

end TableFile

end SvcLens
