import Liquid.Error
import Liquid.Text.Fragment

/-!
# Tokens of a template

A template source is plain text with tags and outputs in it. A tag or output ends at the first
closing mark behind its opening mark; an opening mark that is never closed is plain text.
-/

namespace Liquid

/-- A piece of a template source. -/
inductive Token
  | text (s : String)
  | tag (name markup : String)
  | output (markup : String)
deriving DecidableEq, Repr

namespace Token

open Text

/-- The tag between a pair of marks. Its name is a word, and its markup what follows, trimmed. -/
def ofTag (inner : List Char) : Except Error Token :=
  match word.run (dropBlanks inner) with
  | some (name, markup) => .ok (.tag (String.ofList name) (String.ofList (trimChars markup)))
  | none => .error (.markup (.unnamedTag ("\x7b%" ++ String.ofList inner ++ "%\x7d")))

/-- The token of a text that was read backwards, unless it is empty. -/
def ofText (reversed : List Char) : List Token :=
  if reversed.isEmpty then [] else [.text (String.ofList reversed.reverse)]

theorem length_splitAtPair? {a b : Char} {cs before after : List Char}
    (h : splitAtPair? a b cs = some (before, after)) : after.length < cs.length := by
  have := congrArg List.length (splitAtPair?_eq_some h)
  simp at this
  omega

/-- Reads on with the plain text that has been read so far, backwards. -/
def scanFrom (reversed : List Char) (cs : List Char) : Except Error (List Token) :=
  match cs with
  | [] => .ok (ofText reversed)
  | '{' :: '%' :: rest =>
    match _h : splitAtPair? '%' '}' rest with
    | some (inner, after) =>
      match ofTag inner with
      | .error e => .error e
      | .ok token => (scanFrom [] after).map fun more => ofText reversed ++ token :: more
    | none => scanFrom ('{' :: reversed) ('%' :: rest)
  | '{' :: '{' :: rest =>
    match _h : splitAtPair? '}' '}' rest with
    | some (inner, after) =>
      (scanFrom [] after).map fun more =>
        ofText reversed ++ .output (String.ofList (trimChars inner)) :: more
    | none => scanFrom ('{' :: reversed) ('{' :: rest)
  | c :: rest => scanFrom (c :: reversed) rest
termination_by cs.length
decreasing_by
  all_goals first
    | (have hl := length_splitAtPair? _h; simp only [List.length_cons]; omega)
    | simp

def scan (source : String) : Except Error (List Token) := scanFrom [] source.toList

end Token

end Liquid
