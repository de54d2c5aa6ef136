import Liquid.Text.Fragment

/-!
# Output markup

The markup of an output: a token, and filters with their arguments behind bars. Reading never fails;
what is not understood is passed over.
-/

namespace Liquid

/-- A call of a filter as it is written. -/
structure FilterCall where
  name : String
  arguments : List String
deriving DecidableEq, Repr

/-- A token to resolve and the filters to send it through. -/
structure Output where
  token : String
  filters : List FilterCall
deriving DecidableEq, Repr

namespace Output

open Text

/-- An argument with the colon or comma in front of it. -/
def argument : Pattern (List Char) where
  run cs :=
    match dropBlanks cs with
    | c :: ds => if c == ':' || c == ',' then outputFragment.run (dropBlanks ds) else none
    | [] => none
  shrinks {cs a rest} h := by
    have hcs := length_dropBlanks_le cs
    split at h
    · rename_i c ds heq
      rw [heq] at hcs
      split at h
      · have hr := outputFragment.shrinks h
        have hds := length_dropBlanks_le ds
        simp only [List.length_cons] at hcs
        omega
      · simp at h
    · simp at h

def filterCall : Pattern FilterCall where
  run
    | '|' :: cs =>
      match word.run (dropBlanks cs) with
      | some (name, rest) =>
        let (arguments, last) := argument.many rest
        some (⟨String.ofList name, arguments.map String.ofList⟩, last)
      | none => none
    | _ => none
  shrinks {cs a rest} h := by
    split at h
    · rename_i ds
      split at h
      · rename_i name r hw
        have hr := word.shrinks hw
        have hds := length_dropBlanks_le ds
        have hm := argument.length_many_le r
        cases h
        simp only [List.length_cons]
        omega
      · simp at h
    · simp at h

def read (markup : String) : Output :=
  match outputFragment.run (dropBlanks markup.toList) with
  | some (token, rest) => ⟨String.ofList token, filterCall.findAll rest⟩
  | none => ⟨"", filterCall.findAll markup.toList⟩

end Output

end Liquid
