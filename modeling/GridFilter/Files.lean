import GridFilter.Table
import GridFilter.Text.Blank

/-! Files as the program meets them: the ways in which reading or writing one fails, the extension of a path, what a
    host has to offer, and a host whose files are a tree in memory. -/

namespace GridFilter

/-! ### Faults -/

/-- Why a file could not be read or written. -/
inductive FileFault where
  | notFound
  | isDirectory
  | notDirectory
  | nameTooLong
  | nulInPath
  | other (message : String)
deriving DecidableEq, Repr

/-- The words for a fault, most of them those of the operating system. -/
def FileFault.message : FileFault → String
  | .notFound => "No such file or directory (os error 2)"
  | .isDirectory => "Is a directory (os error 21)"
  | .notDirectory => "Not a directory (os error 20)"
  | .nameTooLong => "File name too long (os error 36)"
  | .nulInPath => "file name contained an unexpected NUL byte"
  | .other message => message

/-- The fault says that something is at the end of the path. -/
def FileFault.isOfPresent : FileFault → Bool
  | .isDirectory | .other _ => true
  | .notFound | .notDirectory | .nameTooLong | .nulInPath => false

/-! ### Paths -/

namespace Path

/-- The components of a path; empty ones stand at doubled slashes and at both ends. -/
def components (path : String) : List (List Char) := Text.pieces (· == '/') path.toList

/-- The components in front of the name that a path ends with, and an empty one in its place. -/
def ahead (path : String) : List (List Char) :=
  ((components path).reverse.dropWhile (· == [])).tail.reverse ++ [[]]

/-- The greatest length of a component in bytes. -/
def maxNameSize : Nat := 255

/-- The name of the file that a path leads to. -/
def fileName? (path : String) : Option (List Char) :=
  match ((components path).filter fun c => c ≠ [] ∧ c ≠ ['.']).getLast? with
  | some ['.', '.'] | none => none
  | some name => some name

/-- The part of a file name behind its last dot, unless that dot is the first character. -/
def extensionOf? (name : List Char) : Option (List Char) :=
  let behind := name.reverse.takeWhile (· != '.')
  match name.reverse.dropWhile (· != '.') with
  | '.' :: _ :: _ => some behind.reverse
  | _ => none

/-- The extension of the file that a path leads to. -/
def extension? (path : String) : Option String :=
  ((fileName? path).bind extensionOf?).map String.ofList

/-- A name below a directory. -/
def below (directory name : String) : String := if directory = "" then name else directory ++ "/" ++ name

end Path

/-! ### Hosts -/

/-- What the program needs of its surroundings: reading and writing text files, and its standard input. -/
structure Host (m : Type → Type) where
  read : String → m (Except FileFault String)
  write : String → String → m (Except FileFault Unit)
  input : m (Except FileFault String)

namespace Host
variable {m : Type → Type} [Monad m]

/-- The path leads to a file. -/
def isFile (host : Host m) (path : String) : m Bool := do
  match ← host.read path with
  | .ok _ | .error (.other _) => return true
  | .error _ => return false

/-- The path leads to a file or a directory. -/
def isPresent (host : Host m) (path : String) : m Bool := do
  match ← host.read path with
  | .ok _ => return true
  | .error fault => return fault.isOfPresent

/-- The first of some paths that leads to a file. -/
def firstFile? (host : Host m) : List String → m (Option String)
  | [] => return none
  | path :: rest => do
    if ← host.isFile path then return some path else host.firstFile? rest

end Host

/-! ### Trees -/

/-- Files by the components of their paths from the root, the directories that exist besides those on the way to a
    file, and the directory that paths without a leading slash start from. There are no links, so that a place has one
    path from the root. -/
structure Tree where
  files : List (List (List Char) × String)
  directories : List (List (List Char))
  current : List (List Char)
deriving Repr

namespace Tree

/-- The text of the file at a place. -/
def file? (tree : Tree) (place : List (List Char)) : Option String := tree.files.lookup place

/-- The place is a directory. -/
def isDirectory (tree : Tree) (place : List (List Char)) : Bool :=
  tree.directories.any (place.isPrefixOf ·) || tree.files.any fun (path, _) => place.isPrefixOf path && place != path

/-- The place that components lead to from a directory. Each one but the last has to lead to a directory. -/
def walk (tree : Tree) (here : List (List Char)) : List (List Char) → Except FileFault (List (List Char))
  | [] => .ok here
  | name :: rest =>
    if Path.maxNameSize < Text.byteSize name then .error .nameTooLong
    else
      let next := if name = [] ∨ name = ['.'] then here else if name = ['.', '.'] then here.dropLast else here ++ [name]
      if rest = [] ∨ tree.isDirectory next then walk tree next rest
      else .error (if (tree.file? next).isSome then .notDirectory else .notFound)

/-- The place that components of a path lead to: from the root if the path starts there, else from the current
    directory. -/
def follow (tree : Tree) (path : String) (components : List (List Char)) : Except FileFault (List (List Char)) :=
  let chars := path.toList
  if '\x00' ∈ chars then .error .nulInPath
  else if chars = [] then .error .notFound
  else tree.walk (if chars.head? = some '/' then [] else tree.current) components

/-- The place that a path leads to. -/
def place (tree : Tree) (path : String) : Except FileFault (List (List Char)) :=
  tree.follow path (Path.components path)

/-- The place for a file that a path leads to. A slash at the end makes the path one of a directory. -/
def placeForFile (tree : Tree) (path : String) : Except FileFault (List (List Char)) :=
  if path.toList.getLast? = some '/' then (tree.follow path (Path.ahead path)).bind fun _ => .error .isDirectory
  else tree.place path

/-- The text of the file that a path leads to. -/
def read (tree : Tree) (path : String) : Except FileFault String :=
  match tree.place path with
  | .error fault => .error fault
  | .ok place =>
    match tree.file? place with
    | some text => .ok text
    | none => .error (if tree.isDirectory place then .isDirectory else .notFound)

/-- Files in which one has a new text. -/
def replace (place : List (List Char)) (text : String) :
    List (List (List Char) × String) → List (List (List Char) × String)
  | [] => [(place, text)]
  | (known, old) :: rest => if known = place then (known, text) :: rest else (known, old) :: replace place text rest

/-- Writes the file that a path leads to, in a directory that exists. -/
def write (tree : Tree) (path : String) (text : String) : Except FileFault Tree :=
  match tree.placeForFile path with
  | .error fault => .error fault
  | .ok place =>
    if tree.isDirectory place then .error .isDirectory
    else if tree.isDirectory place.dropLast then .ok { tree with files := replace place text tree.files }
    else .error .notFound

/-- The tree as a host, with a text for standard input. -/
def host (input : String) : Host (StateM Tree) where
  read path := do return (← get).read path
  write path text := do
    match (← get).write path text with
    | .ok tree =>
      set tree
      return .ok ()
    | .error fault => return .error fault
  input := return .ok input

end Tree

end GridFilter
