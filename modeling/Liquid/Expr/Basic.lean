import Liquid.Expr.Literal

/-!
# Expressions

The tree of a markup token: a literal, a range of two expressions, or a path. A path is a row of
segments, each a name or an expression in brackets; what stands between segments does not matter.
-/

namespace Liquid

mutual

/-- A token of markup, read. -/
inductive Expr
  | literal (v : Value)
  | range (low high : Expr)
  | path (segments : List Segment)

/-- One step of a path. -/
inductive Segment
  | name (key : String)
  | index (key : Expr)

end

namespace Segment

/-- The text of a segment: a name, or what stands between brackets. -/
inductive Source
  | name (key : List Char)
  | index (key : List Char)

/-- A run of name characters, each with a question mark behind it or without. -/
def nameRun : List Char → List Char × List Char
  | [] => ([], [])
  | c :: cs =>
    if Text.isNameChar c then
      match cs with
      | '?' :: ds => let (run, rest) := nameRun ds; (c :: '?' :: run, rest)
      | cs => let (run, rest) := nameRun cs; (c :: run, rest)
    else ([], c :: cs)

theorem length_nameRun (cs : List Char) :
    (nameRun cs).1.length + (nameRun cs).2.length = cs.length := by
  fun_induction nameRun cs with
  | case1 => rfl
  | case2 c _ ds run rest hr ih => simp_all; omega
  | case3 c cs _ _ run rest hr ih => simp_all; omega
  | case4 => simp

def nameSource : Text.Pattern Source where
  run cs := if (nameRun cs).1.isEmpty then none else some (.name (nameRun cs).1, (nameRun cs).2)
  shrinks {cs a rest} h := by
    split at h
    · simp at h
    · rename_i hne
      cases h
      have hl := length_nameRun cs
      have : (nameRun cs).1.length ≠ 0 := by simpa using hne
      omega

/-- Brackets at the front with something between them. -/
def indexSource : Text.Pattern Source where
  run
    | '[' :: cs =>
      match Text.splitAtChar? ']' cs with
      | some (inner, rest) => if inner.isEmpty then none else some (.index inner, rest)
      | none => none
    | _ => none
  shrinks {cs a rest} h := by
    split at h
    · rename_i ds
      split at h
      · rename_i inner r hs
        split at h
        · simp at h
        · cases h
          have := congrArg List.length (Text.splitAtChar?_eq_some hs).1
          simp at this ⊢
          omega
      · simp at h
    · simp at h

def source : Text.Pattern Source := indexSource.orElse nameSource

theorem length_of_index_mem {cs inner : List Char} (h : Source.index inner ∈ source.findAll cs) :
    inner.length < cs.length := by
  obtain ⟨ds, rest, hd, hr⟩ := source.exists_run_of_mem_findAll h
  refine Nat.lt_of_lt_of_le ?_ hd
  rcases Option.or_eq_some_iff.1 hr with hr | ⟨_, hr⟩
  · simp only [indexSource] at hr
    split at hr
    · split at hr
      · rename_i es inner' r hs
        split at hr
        · simp at hr
        · cases hr
          have := congrArg List.length (Text.splitAtChar?_eq_some hs).1
          simp at this ⊢
          omega
      · simp at hr
    · simp at hr
  · simp only [nameSource] at hr
    split at hr
    · simp at hr
    · cases hr

end Segment

namespace Expr

/-- Reads a token. Every text is an expression, in the worst case a path without segments. -/
def ofChars (cs : List Char) : Expr :=
  match Literal.value? cs with
  | some v => .literal v
  | none =>
    match _h : Literal.rangeEnds? cs with
    | some (low, high) => .range (ofChars low) (ofChars high)
    | none =>
      .path <| (Segment.source.findAll cs).attach.map fun
        | ⟨.name key, _⟩ => .name (String.ofList key)
        | ⟨.index inner, _⟩ => .index (ofChars inner)
termination_by cs.length
decreasing_by
  · exact (Literal.length_rangeEnds? _h).1
  · exact (Literal.length_rangeEnds? _h).2
  · exact Segment.length_of_index_mem ‹_›

/-- Reads a token as a path, whatever else it might denote. -/
def ofPath (cs : List Char) : Expr :=
  .path <| (Segment.source.findAll cs).map fun
    | .name key => .name (String.ofList key)
    | .index inner => .index (ofChars inner)

def ofToken (token : String) : Expr := ofChars token.toList

end Expr

end Liquid
