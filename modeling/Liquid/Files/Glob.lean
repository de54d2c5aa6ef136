import Liquid.Files.GlobToken
import Liquid.Files.Tree

/-!
# File patterns

A pattern describes paths: a question mark stands for one character, a star for any row of
characters, brackets for one character out of a set, and two stars as a whole component for any row
of directories. The files that match are listed in ascending order, each directory before what lies
in it.
-/

namespace Liquid.Files

/-- What is wrong with a pattern, and at which character. -/
structure GlobError where
  position : Nat
  fault : GlobFault
deriving DecidableEq, Repr

namespace Glob

/-- The spans that the text between brackets stands for. -/
def spans : List Char → List CharSpan
  | a :: '-' :: b :: rest => (a, b) :: spans rest
  | a :: rest => (a, a) :: spans rest
  | [] => []

/-- Splits at the first closing bracket behind the first character. -/
def bracket? : List Char → Option (List Char × List Char)
  | [] => none
  | first :: rest =>
    match rest.dropWhile (· != ']') with
    | [] => none
    | _ :: after => some (first :: rest.takeWhile (· != ']'), after)

/-- The set at the front of a text whose opening bracket has been read. -/
def set? (cs : List Char) : Option (GlobToken × List Char) :=
  match cs with
  | '!' :: rest => (bracket? rest).map fun m => (.noneOf (spans m.1), m.2)
  | cs => (bracket? cs).map fun m => (.oneOf (spans m.1), m.2)

theorem length_bracket? {cs inner rest : List Char} (h : bracket? cs = some (inner, rest)) :
    rest.length < cs.length := by
  unfold bracket? at h
  split at h
  · simp at h
  · rename_i first tail
    split at h
    · simp at h
    · rename_i b after hd
      cases h
      have := (List.dropWhile_sublist (l := tail) (· != ']')).length_le
      rw [hd] at this
      simp only [List.length_cons] at this ⊢
      omega

theorem length_set? {cs : List Char} {token : GlobToken} {rest : List Char}
    (h : set? cs = some (token, rest)) : rest.length < cs.length := by
  unfold set? at h
  split at h <;>
  · obtain ⟨⟨inner, r⟩, hb, heq⟩ := Option.map_eq_some_iff.1 h
    cases heq
    have := length_bracket? hb
    simp only [List.length_cons] at *
    omega

/-- Reads a pattern from a position on. `previous` is the character in front, if there is one. Two
stars need a slash or an end of the pattern on both sides, and take the slash behind them along. -/
def readFrom (position : Nat) (previous : Option Char) (cs : List Char) :
    Except GlobError (List GlobToken) :=
  match cs with
  | [] => .ok []
  | '?' :: rest => (readFrom (position + 1) (some '?') rest).map (.anyChar :: ·)
  | '*' :: '*' :: '*' :: _ => .error ⟨position + 2, .wildcard⟩
  | '*' :: '*' :: rest =>
    if previous.any (· != '/') then .error ⟨position - 1, .recursiveWildcard⟩
    else
      match rest with
      | [] => .ok [.anyDirectories]
      | '/' :: after => (readFrom (position + 3) (some '/') after).map (.anyDirectories :: ·)
      | _ => .error ⟨position + 2, .recursiveWildcard⟩
  | '*' :: rest => (readFrom (position + 1) (some '*') rest).map (.anySequence :: ·)
  | '[' :: rest =>
    match _h : set? rest with
    | some (token, after) =>
      (readFrom (position + 1 + (rest.length - after.length)) (some ']') after).map (token :: ·)
    | none => .error ⟨position, .range⟩
  | c :: rest => (readFrom (position + 1) (some c) rest).map (.char c :: ·)
termination_by cs.length
decreasing_by
  all_goals first
    | (have hl := length_set? _h; simp only [List.length_cons]; omega)
    | (simp only [List.length_cons]; omega)

def read (pattern : String) : Except GlobError (List GlobToken) := readFrom 0 none pattern.toList

/-- The name that a component without wildcards stands for. -/
def literal? : List GlobToken → Option (List Char)
  | [] => some []
  | .char c :: tokens => (literal? tokens).map (c :: ·)
  | _ :: _ => none

/-- The component stands for any row of directories. -/
def isRecursive (tokens : List GlobToken) : Bool := tokens.contains .anyDirectories

def isHere (path : String) : Bool := components path == [.current]

def extend (path name : String) : String := if isHere path then name else join path name

/-- A pattern, split at its slashes. -/
structure Pattern where
  components : List (List GlobToken)
  /-- The pattern ends in a slash, so that only directories match. -/
  directoriesOnly : Bool
  /-- The pattern starts at the root of all files, which is above every tree. -/
  isAbsolute : Bool

/-- One of two recursive components side by side is enough. -/
def collapse : List (List GlobToken) → List (List GlobToken)
  | a :: b :: rest =>
    if isRecursive a && isRecursive b then collapse (b :: rest) else a :: collapse (b :: rest)
  | rest => rest

/-- The parts of a pattern between slashes; a slash at the end has nothing behind it. -/
def parts (cs : List Char) : List (List Char) :=
  match cs, (pieces cs).getLast? with
  | [], _ => [[]]
  | cs, some [] => (pieces cs).dropLast
  | cs, _ => pieces cs

/-- Reads a pattern as a whole and then each of its components. -/
def Pattern.read (pattern : String) : Except GlobError Pattern := do
  let _ ← Glob.read pattern
  let isAbsolute := pattern.startsWith "/"
  let cs := if isAbsolute then pattern.toList.drop 1 else pattern.toList
  let components ← (parts cs).mapM (readFrom 0 none)
  pure ⟨collapse components, pattern.endsWith "/", isAbsolute⟩

end Glob

namespace Tree

mutual

/-- Everything below a place, each directory before what lies in it. -/
def descendants (path : String) : Tree → List String
  | .file _ => []
  | .directory entries => entryDescendants path entries

/-- The entries of a directory, each before everything below it. -/
def entryDescendants (path : String) : List (String × Tree) → List String
  | [] => []
  | (name, child) :: rest =>
    (Glob.extend path name :: child.descendants (Glob.extend path name)) ++
      entryDescendants path rest

end

def allBelow (tree : Tree) (path : String) : List String :=
  match tree.find path with
  | .ok here => here.descendants path
  | .error _ => []

/-- A path fits the rest of a pattern as its last component. -/
def accept (tree : Tree) (directoriesOnly : Bool) (path : String) : List String :=
  if !directoriesOnly || tree.isDirectory path then [path] else []

/-- The name that a path ends in fits a component. -/
def nameFits (component : List GlobToken) (path : String) : Bool :=
  match fileName? path with
  | some name => Glob.fits component name.toList
  | none => false

/-- The directory itself and the one above it, which only a component that starts with a point can
stand for. -/
def specialNames (component : List GlobToken) : List String :=
  if component.head? = some (.char '.') then
    ["..", "."].filter fun name => Glob.fits component name.toList
  else []

/-- The paths that fit the components of a pattern from a path on. -/
def expand (tree : Tree) (directoriesOnly : Bool) : List (List GlobToken) → String → List String
  | [], path => tree.accept directoriesOnly path
  | component :: rest, path =>
    let goOn (next : String) := tree.expand directoriesOnly rest next
    match Glob.literal? component with
    | some name =>
      let special := name = ['.'] || name = ['.', '.']
      let next := Glob.extend path (String.ofList name)
      if (if special then tree.isDirectory path else tree.exists? next) then goOn next else []
    | none =>
      if Glob.isRecursive component then
        match rest with
        | [] => (tree.allBelow path).filter tree.isDirectory
        | following :: rest =>
          (tree.allBelow path).flatMap fun next =>
            if nameFits following next then tree.expand directoriesOnly rest next else []
      else if tree.isDirectory path then
        ((specialNames component).map (join path)).flatMap goOn ++
          (tree.entryNames path).flatMap fun name =>
            if Glob.fits component name.toList then goOn (Glob.extend path name) else []
      else []

/-- The paths that match a pattern, in the order in which they are visited. -/
def glob (tree : Tree) (pattern : Glob.Pattern) : List String :=
  if pattern.isAbsolute then [] else tree.expand pattern.directoriesOnly pattern.components "."

end Tree

end Liquid.Files
