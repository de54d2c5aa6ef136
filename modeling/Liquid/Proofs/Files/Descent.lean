import Liquid.Files.Tree
import Liquid.Proofs.Files.Steps

/-!
# Steps that stay below a root

Some steps stay below the place they start from when none of them leads above it. What stands at a
path in a tree of files is found by going its steps, so where the steps behind those of a root stay
below it, it stands in the directory at the root.
-/

namespace Liquid.Files

/-- Where steps lead from a place below a root, told by the names on the way, the last one first.
Nowhere as soon as a step leads above the root. -/
def descend? (place : List String) : List Component → Option (List String)
  | [] => some place
  | .normal name :: rest => descend? (name :: place) rest
  | .current :: rest => descend? place rest
  | .parent :: rest =>
    match place with
    | [] => none
    | _ :: above => descend? above rest
  | .root :: _ => none

lemma descend?_append (place : List String) (xs ys : List Component) :
    descend? place (xs ++ ys) = (descend? place xs).bind fun middle => descend? middle ys := by
  induction xs generalizing place with
  | nil => rfl
  | cons step rest ih =>
    cases step with
    | root => rfl
    | current => exact ih place
    | normal name => exact ih (name :: place)
    | parent =>
      cases place with
      | nil => rfl
      | cons _ above => exact ih above

lemma descend?_names (place names : List String) :
    descend? place (names.map .normal) = some (names.reverse ++ place) := by
  induction names generalizing place with
  | nil => rfl
  | cons name rest ih =>
    rw [List.map_cons, descend?, ih, List.reverse_cons, List.append_assoc]
    rfl

namespace Tree

/-- The place that steps lead to in a tree, with the directories on the way to it, the nearest
first. -/
def walk? (above : List Tree) (here : Tree) : List Component → Option (List Tree × Tree)
  | [] => some (above, here)
  | .normal name :: rest =>
    match here with
    | .file _ => none
    | .directory entries =>
      (Fields.find? name entries).bind fun child => walk? (.directory entries :: above) child rest
  | .current :: rest => walk? above here rest
  | .parent :: rest =>
    match above with
    | [] => none
    | parent :: above => walk? above parent rest
  | .root :: _ => none

def standsAt? : Tree → List String → Option Tree
  | here, [] => some here
  | .file _, _ :: _ => none
  | .directory entries, name :: rest =>
    (Fields.find? name entries).bind fun child => child.standsAt? rest

variable {tree here found root : Tree} {above outer : List Tree} {place : List String}

lemma walk?_append (above : List Tree) (here : Tree) (xs ys : List Component) :
    walk? above here (xs ++ ys) = (walk? above here xs).bind fun at' => walk? at'.1 at'.2 ys := by
  induction xs generalizing above here with
  | nil => rfl
  | cons step rest ih =>
    cases step with
    | root => rfl
    | current => exact ih above here
    | normal name =>
      cases here with
      | file bytes => rfl
      | directory entries =>
        simp only [List.cons_append, walk?]
        cases Fields.find? name entries with
        | none => rfl
        | some child => exact ih _ child
    | parent =>
      cases above with
      | nil => rfl
      | cons parent above => exact ih above parent

lemma standsAt?_append (tree : Tree) (xs ys : List String) :
    tree.standsAt? (xs ++ ys) = (tree.standsAt? xs).bind fun middle => middle.standsAt? ys := by
  induction xs generalizing tree with
  | nil => cases tree <;> rfl
  | cons name rest ih =>
    cases tree with
    | file bytes => rfl
    | directory entries =>
      simp only [List.cons_append, standsAt?]
      cases Fields.find? name entries with
      | none => rfl
      | some child => exact ih child

lemma exists_walk?_of_follow {ps : List (List Char)} (h : follow above here ps = .ok found) :
    ∃ around, walk? above here (ps.filterMap componentOf?) = some (around, found) := by
  induction ps generalizing above here with
  | nil =>
    cases h
    exact ⟨above, rfl⟩
  | cons piece rest ih =>
    unfold follow at h
    cases here with
    | file bytes => cases h
    | directory entries =>
      dsimp only at h
      split_ifs at h with hidle hparent hlong <;>
        rw [Bool.or_eq_true, decide_eq_true_eq, decide_eq_true_eq] at hidle
      · rw [List.filterMap_cons_none (componentOf?_eq_none_iff.2 hidle)]
        exact ih h
      · cases above with
        | nil => cases h
        | cons parent above =>
          subst hparent
          exact ih h
      · have hstep := componentOf?_of_name (not_or.1 hidle).1 (not_or.1 hidle).2 hparent
        rw [List.filterMap_cons_some hstep, walk?]
        cases hchild : Fields.find? (String.ofList piece) entries with
        | none =>
          rw [hchild] at h
          cases h
        | some child =>
          rw [hchild] at h
          exact ih h

lemma exists_walk?_of_find {path : String} (h : tree.find path = .ok found) :
    ∃ around, walk? [] tree (components path) = some (around, found) := by
  unfold find at h
  split_ifs at h with _ hrelative
  obtain ⟨around, hwalk⟩ := exists_walk?_of_follow h
  refine ⟨around, ?_⟩
  rw [Bool.or_eq_true, decide_eq_true_eq, not_or, startsWith_slash_iff] at hrelative
  rw [components_eq]
  cases hp : pieces path.toList with
  | nil => exact absurd hp (pieces_ne_nil _)
  | cons first rest =>
    have hfirst : first ≠ [] := by
      rintro rfl
      obtain hempty | hslash := pieces_eq_nil_cons hp
      · exact hrelative.1 (String.toList_inj.1 hempty)
      · exact hrelative.2 hslash
    rw [hp] at hwalk
    by_cases hdot : first = ['.']
    · subst hdot
      exact hwalk
    · rw [stepsOf_cons (.inl hfirst), leading_of_name hfirst hdot, ← List.filterMap_append]
      exact hwalk

/-- A place lies below a root, at a row of names and with directories around it. -/
inductive Lies (root : Tree) (outer : List Tree) : List String → List Tree → Tree → Prop
  | root : Lies root outer [] outer root
  | child {place : List String} {above : List Tree} {entries : List (String × Tree)}
      {name : String} {child : Tree} (h : Lies root outer place above (.directory entries))
      (hfind : Fields.find? name entries = some child) :
      Lies root outer (name :: place) (.directory entries :: above) child

lemma Lies.standsAt? (h : Lies root outer place above here) :
    root.standsAt? place.reverse = some here := by
  induction h with
  | root => cases root <;> rfl
  | @child _ _ _ _ descendant _ hfind ih =>
    rw [List.reverse_cons, standsAt?_append, ih, Option.bind_some, Tree.standsAt?, hfind,
      Option.bind_some]
    cases descendant <;> rfl

/-- Steps that stay below a root lead to places below it. -/
lemma Lies.walk? (h : Lies root outer place above here) {steps : List Component}
    {around : List Tree} {target : List String}
    (hwalk : here.walk? above steps = some (around, found))
    (hplace : descend? place steps = some target) : Lies root outer target around found := by
  induction steps generalizing place above here with
  | nil =>
    cases hwalk
    cases hplace
    exact h
  | cons step rest ih =>
    cases step with
    | root => cases hplace
    | current => exact ih h hwalk hplace
    | normal name =>
      cases here with
      | file bytes => cases hwalk
      | directory entries =>
        obtain ⟨child, hfind, hrest⟩ := Option.bind_eq_some_iff.1 hwalk
        exact ih (h.child hfind) hrest hplace
    | parent =>
      -- Below the root there is a directory to go back to, and it is below the root as well.
      cases h with
      | root => cases hplace
      | child hparent _ => exact ih hparent hwalk hplace

end Tree

end Liquid.Files
