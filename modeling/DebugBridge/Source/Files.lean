import DebugBridge.Source.Path
import DebugBridge.Text.Utf8

/-! A tree of files, and the resolution of path texts in it. -/

set_option autoImplicit false

namespace DebugBridge.Source

inductive FileFault where
  | notFound
  | notFolder
  | isFolder
  | notText
  | badName
  | nameTooLong
  deriving DecidableEq, Repr

def FileFault.message : FileFault → String
  | .notFound => "No such file or directory (os error 2)"
  | .notFolder => "Not a directory (os error 20)"
  | .isFolder => "Is a directory (os error 21)"
  | .notText => "stream did not contain valid UTF-8"
  | .badName => "file name contained an unexpected NUL byte"
  | .nameTooLong => "File name too long (os error 36)"

/-- Files and folders by their names from the root on. The root itself is the folder without names. -/
structure Files where
  files : List (List String × List UInt8)
  folders : List (List String)
  /-- The folder that relative paths begin at. -/
  workingFolder : List String

namespace Files

inductive Place where
  | file (names : List String)
  | folder (names : List String)
  deriving DecidableEq

def isFolder (tree : Files) (names : List String) : Bool := names.isEmpty || tree.folders.contains names

def greatestName : Nat := 255

def greatestPath : Nat := 4095

def exceeds (limit : Nat) (text : List Char) : Bool := limit < (Text.Utf8.encodeChars text).length

def partsOf (path : String) : Except FileFault (List (List Char)) :=
  let text := path.toList
  if text.isEmpty then .error .notFound
  else if text.contains '\x00' then .error .badName
  else if exceeds greatestPath text then .error .nameTooLong
  else .ok (Text.split '/' text)

def startOf (tree : Files) (path : String) : List String :=
  if path.toList.head? = some '/' then [] else tree.workingFolder

/-- Follow the texts between slashes from a folder on. Whatever follows a file, be it nothing or a dot, asks
for a folder. -/
def follow (tree : Files) (here : List String) : List (List Char) → Except FileFault Place
  | [] => .ok (.folder here)
  | [] :: rest | ['.'] :: rest => follow tree here rest
  | ['.', '.'] :: rest => follow tree here.dropLast rest
  | text :: rest =>
    let names := here ++ [String.ofList text]
    if exceeds greatestName text then .error .nameTooLong
    else if tree.isFolder names then follow tree names rest
    else if (tree.files.lookup names).isSome then
      if rest.isEmpty then .ok (.file names) else .error .notFolder
    else .error .notFound

def locate (tree : Files) (path : String) : Except FileFault Place :=
  (partsOf path).bind (tree.follow (tree.startOf path))

def read (tree : Files) (path : String) : Except FileFault (List UInt8) :=
  match tree.locate path with
  | .error fault => .error fault
  | .ok (.folder _) => .error .isFolder
  | .ok (.file names) =>
    match tree.files.lookup names with
    | some content => .ok content
    | none => .error .notFound

def enter (here : List String) (part : List Char) : List String :=
  match Component.ofChars? part with
  | none | some .current => here
  | some .parent => here.dropLast
  | some (.name name) => here ++ [name]

/-- The folders a path goes through, outermost first, the way back included. -/
def foldersThrough (tree : Files) (path : String) : List (List String) :=
  let parts := Text.split '/' path.toList
  (List.range parts.length).map fun n => (parts.take n).foldl enter (tree.startOf path)

def namesOf (tree : Files) (path : String) : List String :=
  (Text.split '/' path.toList).foldl enter (tree.startOf path)

def write (tree : Files) (path : String) (content : List UInt8) : Files :=
  let names := tree.namesOf path
  { tree with
    files := (names, content) :: tree.files.filter fun entry => entry.1 != names
    folders := tree.folders ++ (tree.foldersThrough path).filter fun folder => ! tree.folders.contains folder }

def delete (tree : Files) (path : String) : Bool × Files :=
  match tree.locate path with
  | .ok (.file names) => (true, { tree with files := tree.files.filter fun entry => entry.1 != names })
  | _ => (false, tree)

/-- The names of a file to be made. Slashes at the end ask for a folder, and no file is one. -/
def creationPlace (tree : Files) (path : String) : Except FileFault (List String) := do
  let parts ← partsOf path
  let named := (parts.reverse.dropWhile (·.isEmpty)).reverse
  match ← tree.follow (tree.startOf path) named.dropLast, named.getLast? with
  | .file _, _ => throw .notFolder
  | .folder _, none => throw .isFolder
  | .folder names, some last =>
    if parts.getLast? = some [] then throw .isFolder
    else if exceeds greatestName last then throw .nameTooLong
    else return names ++ [String.ofList last]

def openAtEnd (tree : Files) (path : String) : Except FileFault (List String × Files) :=
  match tree.locate path with
  | .ok (.file names) => .ok (names, tree)
  | .ok (.folder _) => .error .isFolder
  | .error _ =>
    (tree.creationPlace path).map fun names => (names, { tree with files := (names, []) :: tree.files })

def append (tree : Files) (names : List String) (content : List UInt8) : Files :=
  { tree with files := tree.files.map fun entry =>
      if entry.1 = names then (names, entry.2 ++ content) else entry }

end Files

end DebugBridge.Source
