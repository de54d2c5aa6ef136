import Liquid.Error
import Liquid.Text.Fragment

/-!
# Conditions

The tests of branching tags: comparisons of two tokens joined by the words `and` and `or`, or the
test of `else`, which always holds. A row of comparisons nests to the right: the last one is
innermost.
-/

namespace Liquid

/-- A word that joins two conditions. -/
inductive Connective
  | and
  | or
deriving DecidableEq, Repr

/-- A test. -/
inductive Condition
  /-- Compares two tokens, or asks for the truth of one when there is no operator; then goes on to a
  second condition joined by a word. -/
  | compare (left : String) (operator right : Option String)
      (next : Option (Connective × Condition))
  /-- Always holds. -/
  | otherwise
deriving Inhabited

namespace Condition

def single (left : String) (operator right : Option String) : Condition :=
  .compare left operator right none

/-- Joins a condition to what follows it, in place of what followed it before. -/
def join (c : Condition) (word : Connective) (next : Condition) : Condition :=
  match c with
  | .compare left operator right _ => .compare left operator right (some (word, next))
  | .otherwise => .otherwise

def isOtherwise : Condition → Bool
  | .otherwise => true
  | .compare .. => false

open Text

def startsInWord : List Char → Bool
  | c :: _ => isWord c
  | [] => false

/-- Puts a character in front of the first operand. -/
def push (c : Char) (split : List Char × List (Connective × List Char)) :
    List Char × List (Connective × List Char) :=
  (c :: split.1, split.2)

def cut (word : Connective) (split : List Char × List (Connective × List Char)) :
    List Char × List (Connective × List Char) :=
  ([], (word, split.1) :: split.2)

/-- Splits a text at the words `and` and `or`, wherever they stand between two ends of a word.
`inWord` says that a word character stands in front. -/
def splitWords (inWord : Bool) : List Char → List Char × List (Connective × List Char)
  | [] => ([], [])
  | c :: cs =>
    match c, cs with
    | 'a', 'n' :: 'd' :: rest =>
      if inWord || startsInWord rest then push 'a' (splitWords true ('n' :: 'd' :: rest))
      else cut .and (splitWords true rest)
    | 'o', 'r' :: rest =>
      if inWord || startsInWord rest then push 'o' (splitWords true ('r' :: rest))
      else cut .or (splitWords true rest)
    | c, cs => push c (splitWords (isWord c) cs)

def isOperatorChar (c : Char) : Bool := c.isLower || "=!<>_".contains c

/-- Reads one comparison: the first fragment, an operator, and a second fragment. -/
def readSingle (tag : String) (cs : List Char) : Except Error Condition :=
  match fragment.find? cs with
  | none => .error (.markup (.badCondition tag))
  | some (left, rest) =>
    let rest := dropBlanks rest
    let operator := rest.takeWhile isOperatorChar
    let right := fragment.run (dropBlanks (rest.dropWhile isOperatorChar))
    .ok <| single (String.ofList left)
      (if operator.isEmpty then none else some (String.ofList operator))
      (right.map fun m => String.ofList m.1)

def readJoined (tag : String) : List Char → List (Connective × List Char) → Except Error Condition
  | operand, [] => readSingle tag operand
  | operand, (word, next) :: more => do
    let rest ← readJoined tag next more
    let first ← readSingle tag operand
    pure (first.join word rest)

/-- Reads the markup of `if`, `unless` and `elsif`. -/
def read (tag markup : String) : Except Error Condition :=
  let split := splitWords false markup.toList
  readJoined tag split.1 split.2

/-- The next value of a `when` clause: behind the word `or` between blanks, or behind a comma. What
comes after that value counts up to the end of its line. -/
def whenTail? (cs : List Char) : Option (List Char) :=
  let upToLine (m : List Char × List Char) := m.1 ++ m.2.takeWhile (· != '\n')
  match dropBlanks cs with
  | ',' :: rest => (fragment.run (dropBlanks rest)).map upToLine
  | 'o' :: 'r' :: b :: rest =>
    if cs.head?.any isBlank && isBlank b then (fragment.run (dropBlanks rest)).map upToLine
    else none
  | _ => none

theorem length_whenTail? {cs tail : List Char} (h : whenTail? cs = some tail) :
    tail.length < cs.length := by
  have key {rest : List Char}
      (h : (fragment.run (dropBlanks rest)).map
        (fun m => m.1 ++ m.2.takeWhile (· != '\n')) = some tail) : tail.length ≤ rest.length := by
    obtain ⟨⟨a, r⟩, hr, rfl⟩ := Option.map_eq_some_iff.1 h
    have hl := congrArg List.length (eq_append_of_fragment hr)
    have ht := (List.takeWhile_sublist (l := r) (· != '\n')).length_le
    have hd := length_dropBlanks_le rest
    simp only [List.length_append] at hl ⊢
    omega
  have hd := length_dropBlanks_le cs
  unfold whenTail? at h
  split at h
  · rename_i rest heq
    rw [heq] at hd
    have := key h
    simp only [List.length_cons] at hd
    omega
  · rename_i b rest heq
    rw [heq] at hd
    split at h
    · have := key h
      simp only [List.length_cons] at hd
      omega
    · simp at h
  · simp at h

/-- The values of a `when` clause, the first one found anywhere in the text. -/
def whenValues (cs : List Char) : List String :=
  match _hf : fragment.find? cs with
  | none => []
  | some (value, rest) =>
    match _h : whenTail? rest with
    | some tail => String.ofList value :: whenValues tail
    | none => [String.ofList value]
termination_by cs.length
decreasing_by
  have := fragment.find?_shrinks _hf
  have := length_whenTail? _h
  omega

/-- The subject equals the first value, or the next one, and so on. -/
def equalsAny (subject : String) : String → List String → Condition
  | value, [] => single subject (some "==") (some value)
  | value, next :: more =>
    (single subject (some "==") (some value)).join .or (equalsAny subject next more)

def readWhen (subject markup : String) : Except Error Condition :=
  match whenValues markup.toList with
  | [] => .error (.markup .badWhen)
  | value :: more => .ok (equalsAny subject value more)

end Condition

end Liquid
