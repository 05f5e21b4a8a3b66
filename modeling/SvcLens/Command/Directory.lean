import SvcLens.Command.Files
import SvcLens.Text.Utf8

namespace SvcLens.Command

-- The files by path, and directories. A directory on the way to a file need not be listed.
structure Directory where
  files : List (List String × List UInt8)
  folders : List (List String)
  deriving DecidableEq, Repr

namespace Directory

def names (path : String) : List String :=
  (path.toList.splitOn '/').map String.ofList

def maxName : Nat := 255

def maxPath : Nat := 4095

def byteLength (s : String) : Nat :=
  (Text.Utf8.encode s).length

def ofPaths (files : List (String × List UInt8)) (folders : List String) : Directory where
  files := files.map fun f => ((names f.1).filter fun n => n != "" && n != ".", f.2)
  folders := folders.map fun f => (names f).filter fun n => n != "" && n != "."

def file? (d : Directory) (place : List String) : Option (List UInt8) :=
  d.files.lookup place

def isFolder (d : Directory) (place : List String) : Bool :=
  place.isEmpty || d.folders.any (fun f => place.isPrefixOf f) ||
    d.files.any (fun f => place.isPrefixOf f.1 && place != f.1)

inductive Goal where
  | inside (place : List String)
  | outside

def follow (d : Directory) (origin : Goal) (name : String) : Except FileError Goal :=
  match origin with
  | .outside =>
    if ["", ".", ".."].contains name then .ok .outside
    else if maxName < byteLength name then .error .nameTooLong
    else .error .missing
  | .inside place =>
    if !d.isFolder place then .error .notDirectory
    else if name = "" || name = "." then .ok (.inside place)
    else if name = ".." then .ok (if place.isEmpty then .outside else .inside place.dropLast)
    else if maxName < byteLength name then .error .nameTooLong
    else
      let next := place ++ [name]
      if d.isFolder next || (d.file? next).isSome then .ok (.inside next) else .error .missing

def start (path : String) : Except FileError (Goal × List String) :=
  if path.isEmpty then .error .missing
  else if maxPath < byteLength path then .error .nameTooLong
  else
    match names path with
    | "" :: rest => .ok (.outside, rest)
    | ns => .ok (.inside [], ns)

def read (d : Directory) (path : String) : Except FileError (List UInt8) := do
  let (origin, ns) ← start path
  match ← ns.foldlM d.follow origin with
  | .outside => .error .isDirectory
  | .inside place =>
    match d.file? place with
    | some content => .ok content
    | none => .error .isDirectory

def put (d : Directory) (place : List String) (content : List UInt8) : Directory :=
  { d with files := (place, content) :: d.files.filter fun f => f.1 != place }

-- The place that a file is written to. What ends in a slash or a dot can only be a directory.
def target (d : Directory) (path : String) : Except FileError (List String) := do
  let (origin, ns) ← start path
  let written := (ns.reverse.dropWhile (· == "")).reverse
  let goal ← written.dropLast.foldlM d.follow origin
  match goal, written.getLast? with
  | .outside, none => .error .isDirectory
  | .outside, some name =>
    if name = "." || name = ".." then .error .isDirectory
    else if maxName < byteLength name then .error .nameTooLong
    else .error .missing
  | .inside _, none => .error .isDirectory
  | .inside place, some name =>
    if !d.isFolder place then .error .notDirectory
    else if name = "." || name = ".." || written.length < ns.length then .error .isDirectory
    else if maxName < byteLength name then .error .nameTooLong
    else if d.isFolder (place ++ [name]) then .error .isDirectory
    else .ok (place ++ [name])

def changes (before after : Directory) : List (String × List UInt8) :=
  let changed := after.files.filter fun f => before.file? f.1 != some f.2
  (changed.map fun f => ("/".intercalate f.1, f.2)).mergeSort fun a b => a.1 ≤ b.1

def host (input : List UInt8) : Host (StateM Directory) where
  readFile path := do return (← get).read path
  writeFile path content := do
    match (← get).target path with
    | .error e => return .error e
    | .ok place =>
      modify (·.put place content)
      return .ok ()
  readInput := return input

end Directory

end SvcLens.Command
