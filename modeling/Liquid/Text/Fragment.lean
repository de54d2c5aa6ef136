import Liquid.Text.Blank
import Liquid.Text.Pattern
import Liquid.Text.Word

/-!
# Fragments of markup

The smallest pieces of tag markup: a quoted text, or a bare run of characters up to a blank, a comma
or a bar. A quote that is never closed, or that closes at once, is an ordinary character of a bare
run; only output markup reads an empty pair of quotes as a text.
-/

namespace Liquid.Text

def isQuote (c : Char) : Bool := c == '"' || c == '\''

def isBare (c : Char) : Bool := !isBlank c && c != ',' && c != '|'

/-- A quoted text with both its quotes; `accepts` says what may stand between them. -/
def quotedWith (accepts : List Char → Bool) : Pattern (List Char) where
  run
    | [] => none
    | q :: cs =>
      if isQuote q then
        match splitAtChar? q cs with
        | some (inner, rest) => if accepts inner then some (q :: inner ++ [q], rest) else none
        | none => none
      else none
  shrinks {cs a rest} h := by
    cases cs with
    | nil => simp at h
    | cons q cs =>
      simp only at h
      split at h
      · split at h
        · rename_i inner r hs
          split at h
          · cases h
            have := congrArg List.length (splitAtChar?_eq_some hs).1
            simp at this ⊢
            omega
          · simp at h
        · simp at h
      · simp at h

def quoted : Pattern (List Char) := quotedWith fun inner => !inner.isEmpty

def quotedOrEmpty : Pattern (List Char) := quotedWith fun _ => true

def bare : Pattern (List Char) := run isBare

def fragment : Pattern (List Char) := quoted.orElse bare

/-- A fragment of output markup, where empty quotes are a text. -/
def outputFragment : Pattern (List Char) := quotedOrEmpty.orElse bare

theorem eq_append_of_run {p : Char → Bool} {cs a rest : List Char}
    (h : (run p).run cs = some (a, rest)) : cs = a ++ rest := by
  simp only [run] at h
  split at h
  · simp at h
  · cases h
    exact List.takeWhile_append_dropWhile.symm

theorem eq_append_of_quotedWith {accepts : List Char → Bool} {cs a rest : List Char}
    (h : (quotedWith accepts).run cs = some (a, rest)) : cs = a ++ rest := by
  cases cs with
  | nil => simp [quotedWith] at h
  | cons q cs =>
    simp only [quotedWith] at h
    split at h
    · split at h
      · rename_i inner r hs
        split at h
        · cases h
          simp [(splitAtChar?_eq_some hs).1]
        · simp at h
      · simp at h
    · simp at h

theorem eq_append_of_fragment {cs a rest : List Char} (h : fragment.run cs = some (a, rest)) :
    cs = a ++ rest := by
  rcases Option.or_eq_some_iff.1 h with h | ⟨_, h⟩
  · exact eq_append_of_quotedWith h
  · exact eq_append_of_run h

/-- Fragments that follow one another without a separator. -/
def fragmentRun : Pattern (List Char) := fragment.joined

def word : Pattern (List Char) := run isWord

/-- The characters of a variable path written without blanks or quotes. -/
def isPathChar (c : Char) : Bool := isWord c || c == '-' || c == '.' || c == '[' || c == ']'

/-- A closing parenthesis directly behind a path character belongs to it. -/
def withClosing (cs : List Char) : List Char → List Char × List Char
  | ')' :: rest => (cs ++ [')'], rest)
  | rest => (cs, rest)

theorem length_withClosing_le (cs ds : List Char) : (withClosing cs ds).2.length ≤ ds.length := by
  unfold withClosing
  split <;> simp

/-- One path character, with a parenthesis directly before or behind it. -/
def pathUnit : Pattern (List Char) where
  run
    | '(' :: c :: cs => if isPathChar c then some (withClosing ['(', c] cs) else none
    | c :: cs => if isPathChar c then some (withClosing [c] cs) else none
    | [] => none
  shrinks {cs a rest} h := by
    split at h
    · rename_i c cs
      split at h
      · have := length_withClosing_le ['(', c] cs
        rw [Option.some.inj h] at this
        simp only [List.length_cons] at this ⊢
        omega
      · simp at h
    · rename_i c cs _
      split at h
      · have := length_withClosing_le [c] cs
        rw [Option.some.inj h] at this
        simp only [List.length_cons] at this ⊢
        omega
      · simp at h
    · simp at h

/-- A path or range without blanks, commas or quotes. -/
def pathRun : Pattern (List Char) := pathUnit.joined

end Liquid.Text
