/-!
Files by path. A path is resolved from its first part on, and every part but the
last must name a directory. Paths that do not start with a slash begin at the
working directory.
-/

namespace CarrierTape

inductive FileError where
  | notFound
  | isADirectory
  | notADirectory
  | nameTooLong
  /-- The content is not UTF-8 text. -/
  | invalidText
deriving DecidableEq

namespace FileError

def message : FileError → String
  | .notFound => "No such file or directory (os error 2)"
  | .notADirectory => "Not a directory (os error 20)"
  | .isADirectory => "Is a directory (os error 21)"
  | .nameTooLong => "File name too long (os error 36)"
  | .invalidText => "stream did not contain valid UTF-8"

end FileError

-- The comparison of the core library, also where another one is at hand.
attribute [local instance (high)] ByteArray.instDecidableEq

inductive Node where
  | file (content : ByteArray)
  | directory
deriving DecidableEq

/-- A resolved path: the names from the root or from the working directory on. -/
abbrev Place := List String

/-- Of two nodes at one place the first one counts. -/
structure FileTree where
  nodes : List (Place × Node)
deriving DecidableEq

def Place.root : Place :=
  ["/"]

/-- The root, the working directory, and those above it: directories in any case. -/
def Place.isBase (place : Place) : Bool :=
  place == Place.root || place.all (· == "..")

def decodeContent (content : ByteArray) : Except FileError String :=
  match String.fromUTF8? content with
  | some text => .ok text
  | none => .error .invalidText

namespace FileTree

def lookup (t : FileTree) (place : Place) : Option Node :=
  if Place.isBase place then some .directory
  else (t.nodes.find? (·.1 == place)).map (·.2)

/-- The parts of a path. A path with a slash in front starts at the root. -/
def parts (path : String) : List String :=
  match path.splitOn "/" with
  | "" :: rest => "/" :: rest
  | parts => parts

/-- The place of a part, seen from a directory. -/
def step (here : Place) (part : String) : Place :=
  if part = "" ∨ part = "." then here
  else if part != ".." then here ++ [part]
  else if here = Place.root then here
  else if Place.isBase here then here ++ [".."]
  else here.dropLast

def maxNameBytes : Nat :=
  255

def maxPathBytes : Nat :=
  4095

def checkSize (limit : Nat) (text : String) : Except FileError Unit :=
  if limit < text.utf8ByteSize then .error .nameTooLong else .ok ()

def checkDirectory (t : FileTree) (here : Place) : Except FileError Unit :=
  match t.lookup here with
  | none => .error .notFound
  | some (.file _) => .error .notADirectory
  | some .directory => .ok ()

def walk (t : FileTree) (here : Place) : List String → Except FileError Place
  | [] => .ok here
  | part :: rest => do
    t.checkDirectory here
    checkSize maxNameBytes part
    t.walk (step here part) rest

def find (t : FileTree) (path : String) : Except FileError Node := do
  checkSize maxPathBytes path
  let place ← t.walk [] (parts path)
  match t.lookup place with
  | some node => return node
  | none => throw .notFound

def exists? (t : FileTree) (path : String) : Bool :=
  match t.find path with
  | .ok _ => true
  | .error _ => false

def readText (t : FileTree) (path : String) : Except FileError String := do
  match ← t.find path with
  | .directory => throw .isADirectory
  | .file content => decodeContent content

/-- The parts of a path without the slashes at its end. -/
def namedParts (path : String) : List String :=
  ((parts path).reverse.dropWhile (· == "")).reverse

/-- The place at which writing to a path puts its file. A slash at the end asks for
a directory. -/
def target (t : FileTree) (path : String) : Except FileError Place := do
  checkSize maxPathBytes path
  let named := namedParts path
  let here ← t.walk [] named.dropLast
  t.checkDirectory here
  let name := named.getLastD ""
  if named ≠ parts path ∨ name = "." ∨ name = ".." then throw .isADirectory
  checkSize maxNameBytes name
  match t.lookup (here ++ [name]) with
  | some .directory => throw .isADirectory
  | _ => return here ++ [name]

/-- The tree with the file's whole content replaced, also if there was none. -/
def write (t : FileTree) (path : String) (content : ByteArray) : Except FileError FileTree := do
  let place ← t.target path
  return ⟨(place, .file content) :: t.nodes⟩

end FileTree

end CarrierTape
