/-!
# Paths

A path is a text; slashes split it into pieces. Empty pieces and single dots do not count, a leading
dot apart, and a path that starts with a slash starts at the root of all files.
-/

namespace Liquid.Files

/-- A step of a path. -/
inductive Component
  | root
  | current
  | parent
  | normal (name : String)
deriving DecidableEq, Repr

def pieces : List Char → List (List Char)
  | [] => [[]]
  | c :: cs =>
    if c = '/' then [] :: pieces cs
    else
      match pieces cs with
      | piece :: rest => (c :: piece) :: rest
      | [] => [[c]]

def joinPieces : List (List Char) → List Char
  | [] => []
  | [piece] => piece
  | piece :: rest => piece ++ '/' :: joinPieces rest

theorem pieces_ne_nil (cs : List Char) : pieces cs ≠ [] := by
  cases cs with
  | nil => simp [pieces]
  | cons c cs =>
    rw [pieces]
    split
    · simp
    · split <;> simp

theorem joinPieces_pieces (cs : List Char) : joinPieces (pieces cs) = cs := by
  induction cs with
  | nil => rfl
  | cons c cs ih =>
    rw [pieces]
    split
    · rename_i h
      subst h
      cases hp : pieces cs with
      | nil => exact absurd hp (pieces_ne_nil cs)
      | cons p ps => rw [hp] at ih; simp [joinPieces, ih]
    · split
      · rename_i p ps hp
        rw [hp] at ih
        cases ps with
        | nil => simp only [joinPieces] at ih ⊢; rw [ih]
        | cons q qs =>
          simp only [joinPieces, List.cons_append] at ih ⊢
          rw [ih]
      · rename_i hp
        exact absurd hp (pieces_ne_nil cs)

/-- The step that a piece stands for behind the first one. -/
def componentOf? (piece : List Char) : Option Component :=
  match piece with
  | [] => none
  | ['.'] => none
  | ['.', '.'] => some .parent
  | name => some (.normal (String.ofList name))

def components (path : String) : List Component :=
  match pieces path.toList with
  | [] => []
  | first :: rest =>
    let tail := rest.filterMap componentOf?
    if first = [] then if rest.isEmpty then [] else .root :: tail
    else if first = ['.'] then .current :: tail
    else (componentOf? first).toList ++ tail

def fileName? (path : String) : Option String :=
  match (components path).getLast? with
  | some (.normal name) => some name
  | _ => none

/-- A name up to its last point. A name whose only point is its first character has no such part. -/
def stem (name : String) : String :=
  let after := name.toList.reverse.takeWhile (· != '.')
  match name.toList.reverse.drop (after.length + 1) with
  | [] => name
  | before => String.ofList before.reverse

/-- The name that a template file is known by: its stem without a leading underscore. -/
def templateName? (path : String) : Option String :=
  (fileName? path).map fun name =>
    match (stem name).toList with
    | '_' :: rest => String.ofList rest
    | _ => stem name

/-- Puts a path behind another one. A path from the root stands by itself. -/
def join (base path : String) : String :=
  if path.startsWith "/" then path
  else if base = "" || base.endsWith "/" then base ++ path
  else base ++ "/" ++ path

/-- The pieces of a path without the ones at its end that do not count. -/
def dropEmptyEnd (ps : List (List Char)) : List (List Char) :=
  (ps.reverse.dropWhile fun piece => piece = [] || piece = ['.']).reverse

def directory (path : String) : String :=
  let kept := (dropEmptyEnd (pieces path.toList)).dropLast
  match dropEmptyEnd kept with
  | [] =>
    match kept.head? with
    | some [] => "/"
    | some piece => String.ofList piece
    | none => ""
  | ps => String.ofList (joinPieces ps)

def withFileName (path name : String) : String := join (directory path) name

end Liquid.Files
