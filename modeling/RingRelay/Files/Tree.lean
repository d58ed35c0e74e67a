import RingRelay.Files.Path
import RingRelay.IoError
/- A tree of files and directories, and the file operations that the program needs.

   A place in the tree is given by the names from the root to it. Paths lead to places: from the
   root or from the working directory, one name after another, where `.` stays and `..` goes up. On
   the way every place must be a directory; what is wrong first decides the refusal. Besides files
   and directories there are two devices: one that swallows everything, and one on which no byte
   finds space. And an entry may be barred: it is there, but cannot be opened. -/
namespace RingRelay

/-- The names from the root of a tree to a place in it. -/
abbrev Place := List FileName

inductive Entry
  | file (content : Bytes)
  | directory
  /-- Takes everything and keeps nothing. There is nothing to read. -/
  | nullDevice
  /-- Has no space for a byte. There is no end of zero bytes to read. -/
  | fullDevice
  /-- Can neither be read nor be written, for the cause that is told to whoever tries. -/
  | barred (cause : IoError)
  deriving DecidableEq, Repr

/-- All bytes of an entry, read up to the end. Where there is no end, the memory gives out. -/
def Entry.bytes : Entry → Except IoError Bytes
  | .file content => .ok content
  | .directory => .error (.system .isADirectory)
  | .nullDevice => .ok []
  | .fullDevice => .error (.plain .outOfMemory)
  | .barred cause => .error cause

structure FileTree where
  entries : List (Place × Entry)
  workingDirectory : Place

namespace FileTree

/-- What is at a place. The root is always a directory. -/
def get? (tree : FileTree) (place : Place) : Option Entry :=
  if place.isEmpty then some .directory else tree.entries.lookup place

/-- The tree with another entry at a place. -/
def put (tree : FileTree) (place : Place) (entry : Entry) : FileTree :=
  { tree with entries := (place, entry) :: tree.entries.filter fun e => e.1 != place }

/-- The longest name that a file can have, in bytes. -/
def maxName : Nat := 255

/-- The longest path that can be used, in bytes. -/
def maxPath : Nat := 4095

/-! ## From paths to places -/

def dot : FileName := [0x2e]

def dotDot : FileName := [0x2e, 0x2e]

/-- The place to which the pieces of a path lead from a place. All but the last must be directories;
    the last need not exist. -/
def walk (tree : FileTree) : Place → List FileName → Except SystemRefusal Place
  | place, [] => .ok place
  | place, piece :: rest =>
    match tree.get? place with
    | none => .error .noEntry
    | some .directory =>
      if piece = [] ∨ piece = dot then walk tree place rest
      else if piece = dotDot then walk tree place.dropLast rest
      else if maxName < piece.length then .error .nameTooLong
      else walk tree (place ++ [piece]) rest
    | some _ => .error .notADirectory

/-- The place from which a path leads on. -/
def origin (tree : FileTree) (path : Path) : Place :=
  if Path.isAbsolute path then [] else tree.workingDirectory

/-- Refuses paths that cannot be used at all. -/
def checkPath (path : Path) : Except IoError Unit :=
  if path.contains 0 then .error .nulInPath
  else if path.isEmpty then .error (.system .noEntry)
  else if maxPath < path.length then .error (.system .nameTooLong)
  else .ok ()

/-- The error of a refusal. -/
def refused {α : Type} : Except SystemRefusal α → Except IoError α
  | .ok a => .ok a
  | .error refusal => .error (.system refusal)

/-- The place of an entry that exists. -/
def find (tree : FileTree) (path : Path) : Except IoError (Place × Entry) := do
  checkPath path
  let place ← refused (tree.walk (tree.origin path) (Path.pieces path))
  match tree.get? place with
  | none => .error (.system .noEntry)
  | some entry => return (place, entry)

/-- Whether a path leads to an entry. -/
def has (tree : FileTree) (path : Path) : Bool :=
  match tree.find path with
  | .ok _ => true
  | .error _ => false

/-! ## Reading -/

/-- The text of a file. -/
def readText (tree : FileTree) (path : Path) : Except IoError String := do
  let (_, entry) ← tree.find path
  let bytes ← entry.bytes
  match Utf8.decode? bytes with
  | none => .error .notUtf8
  | some cs => return String.ofList cs

/-- The place of an entry that is opened to be read. A directory can be opened, but not be read. -/
def openToRead (tree : FileTree) (path : Path) : Except IoError Place := do
  match ← tree.find path with
  | (_, .barred cause) => .error cause
  | (place, _) => return place

/-! ## Writing -/

/-- The place of a file that is to be written. A path with a slash at its end can only be meant for
    a directory. -/
def target (tree : FileTree) (path : Path) : Except IoError Place :=
  let named := (Path.pieces path).reverse.dropWhile List.isEmpty |>.reverse
  match named.getLast? with
  | none => .ok []
  | some name =>
    if name = dot ∨ name = dotDot then refused (tree.walk (tree.origin path) named)
    else do
      let above ← refused (tree.walk (tree.origin path) (named.dropLast ++ [[]]))
      if named.length < (Path.pieces path).length then .error (.system .isADirectory)
      else refused (tree.walk above [name])

/-- Empties a file to write it anew, or makes it if it does not exist: the tree afterwards and the
    place. -/
def create (tree : FileTree) (path : Path) : Except IoError (FileTree × Place) := do
  checkPath path
  let place ← tree.target path
  match tree.get? place with
  | none => return (tree.put place (.file []), place)
  | some (.file _) => return (tree.put place (.file []), place)
  | some .directory => .error (.system .isADirectory)
  | some .nullDevice => return (tree, place)
  | some .fullDevice => return (tree, place)
  | some (.barred cause) => .error cause

/-- Makes an empty file where nothing is. -/
def touch (tree : FileTree) (place : Place) : FileTree :=
  match tree.get? place with
  | none => tree.put place (.file [])
  | some _ => tree

/-- Writes behind the end of a file. What is no file takes nothing. -/
def append (tree : FileTree) (place : Place) (bytes : Bytes) : FileTree :=
  match tree.get? place with
  | some (.file content) => tree.put place (.file (content ++ bytes))
  | _ => tree

/-- Writes over the beginning of a file. What is longer than the bytes keeps its end, and what is no
    file takes nothing. -/
def overwrite (tree : FileTree) (place : Place) (bytes : Bytes) : FileTree :=
  match tree.get? place with
  | some (.file content) => tree.put place (.file (bytes ++ content.drop bytes.length))
  | _ => tree

/-- Goes along names and makes the directories that are missing. What was made stays if the way is
    barred later. `fresh` tells whether a directory was made before: then a file in the way stands
    where a directory is to be made, otherwise it stands where one is looked for. -/
def makeAll (tree : FileTree) (fresh : Bool) (place : Place) :
    List FileName → FileTree × Except SystemRefusal Place
  | [] => (tree, .ok place)
  | name :: rest =>
    if name = dotDot then makeAll tree fresh place.dropLast rest
    else if maxName < name.length then (tree, .error .nameTooLong)
    else
      match tree.get? (place ++ [name]) with
      | none => makeAll (tree.put (place ++ [name]) .directory) true (place ++ [name]) rest
      | some .directory => makeAll tree fresh (place ++ [name]) rest
      | some _ => (tree, .error (if fresh || rest.isEmpty then .fileExists else .notADirectory))

/-- The names in a path: its pieces that lead anywhere. -/
def names (path : Path) : List FileName :=
  (Path.pieces path).filter fun piece => !piece.isEmpty && piece != dot

/-- Whether the last piece of a path is a dot, but for slashes behind it. -/
def endsInDot (path : Path) : Bool :=
  ((Path.pieces path).filter fun piece => !piece.isEmpty).getLast? == some dot

/-- Makes a directory with all the directories on the way to it: the tree afterwards, and the place
    of the directory. A path that ends in a dot must lead to a directory already: of what is
    missing, only the way to it is made. -/
def makeDirectories (tree : FileTree) (path : Path) : FileTree × Except IoError Place :=
  match checkPath path with
  | .error error => (tree, .error error)
  | .ok () =>
    if endsInDot path then
      match tree.walk (tree.origin path) (names path ++ [dot]) with
      | .error .noEntry =>
        match makeAll tree false (tree.origin path) (names path).dropLast with
        | (tree, .error refusal) => (tree, .error (.system refusal))
        | (tree, .ok _) => (tree, refused (tree.walk (tree.origin path) (names path ++ [dot])))
      | result => (tree, refused result)
    else
      let (tree, place) := makeAll tree false (tree.origin path) (names path)
      (tree, refused place)

end FileTree

end RingRelay
