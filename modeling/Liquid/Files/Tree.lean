import Liquid.Error
import Liquid.Fields.Basic
import Liquid.Files.Path

/-!
# A tree of files

The files that templates are loaded from, as a tree of directories. Paths are followed from the top
of the tree; there is nothing above it.
-/

namespace Liquid.Files

/-- A file with its bytes, or a directory with its entries in ascending order of names. -/
inductive Tree
  | file (bytes : ByteArray)
  | directory (entries : List (String × Tree))

def maxNameBytes : Nat := 255

/-- The length in bytes from which a path is too long. -/
def maxPathBytes : Nat := 4096

namespace Tree

instance : Inhabited Tree := ⟨.directory []⟩

/-- The tree with something put at the end of a row of names; directories on the way are made. -/
def insert (content : Tree) : List String → Tree → Tree
  | [], _ => content
  | name :: rest, .directory entries =>
    let child := (Fields.find? name entries).getD (.directory [])
    .directory (Fields.insert name (insert content rest child) entries)
  | _ :: _, .file bytes => .file bytes

/-- The names that a path goes through, without the pieces that do not count. -/
def names (path : String) : List String :=
  (components path).filterMap fun
    | .normal name => some name
    | _ => none

/-- Goes on from a place through the pieces of a path. `above` holds the directories on the way, the
nearest first. -/
def follow (above : List Tree) (here : Tree) : List (List Char) → Except ReadFault Tree
  | [] => .ok here
  | piece :: rest =>
    match here with
    | .file _ => .error .notDirectory
    | .directory entries =>
      if piece = [] || piece = ['.'] then follow above here rest
      else if piece = ['.', '.'] then
        match above with
        | [] => .error .missing
        | parent :: above => follow above parent rest
      else
        let name := String.ofList piece
        if maxNameBytes < name.utf8ByteSize then .error .nameTooLong
        else
          match Fields.find? name entries with
          | some child => follow (here :: above) child rest
          | none => .error .missing

def find (tree : Tree) (path : String) : Except ReadFault Tree :=
  if path.contains '\x00' then .error .nulInName
  else if path = "" || path.startsWith "/" then .error .missing
  else if maxPathBytes ≤ path.utf8ByteSize then .error .nameTooLong
  else follow [] tree (pieces path.toList)

def exists? (tree : Tree) (path : String) : Bool :=
  match tree.find path with
  | .ok _ => true
  | .error _ => false

def isDirectory (tree : Tree) (path : String) : Bool :=
  match tree.find path with
  | .ok (.directory _) => true
  | _ => false

def isFile (tree : Tree) (path : String) : Bool :=
  match tree.find path with
  | .ok (.file _) => true
  | _ => false

/-- The names in the directory at a path, in ascending order. -/
def entryNames (tree : Tree) (path : String) : List String :=
  match tree.find path with
  | .ok (.directory entries) => entries.map Prod.fst
  | _ => []

def readText (tree : Tree) (path : String) : Except Error String :=
  let fail (fault : ReadFault) : Except Error String := .error (.load (.unreadable path fault))
  match tree.find path with
  | .error fault => fail fault
  | .ok (.directory _) => fail .isDirectory
  | .ok (.file bytes) =>
    match String.fromUTF8? bytes with
    | some text => .ok text
    | none => fail .notText

end Tree

end Liquid.Files
