/-!
# Patterns over characters

A pattern reads a piece of text from the front and says what is left. It never succeeds without
consuming a character, so a text can be searched for all its matches from left to right. This file
holds the leftmost search, the list of all matches that do not overlap, and the greedy repetition.
-/

namespace Liquid.Text

/-- A reader of the front of a text that consumes at least one character when it succeeds. -/
structure Pattern (α : Type) where
  /-- What stands at the front, and the text after it. -/
  run : List Char → Option (α × List Char)
  /-- A success consumes something. -/
  shrinks : ∀ {cs a rest}, run cs = some (a, rest) → rest.length < cs.length

namespace Pattern

variable {α : Type}

/-- The first pattern where it succeeds, the second elsewhere. -/
def orElse (p q : Pattern α) : Pattern α where
  run cs := (p.run cs).or (q.run cs)
  shrinks {cs a rest} h := by
    rcases Option.or_eq_some_iff.1 h with h | ⟨_, h⟩
    · exact p.shrinks h
    · exact q.shrinks h

def find? (p : Pattern α) : List Char → Option (α × List Char)
  | [] => none
  | c :: cs => (p.run (c :: cs)).or (p.find? cs)

/-- All matches from left to right, each search starting where the last match ended. -/
def findAll (p : Pattern α) (cs : List Char) : List α :=
  match cs with
  | [] => []
  | c :: tail =>
    match _h : p.run (c :: tail) with
    | some (a, rest) => a :: p.findAll rest
    | none => p.findAll tail
termination_by cs.length
decreasing_by
  · exact p.shrinks _h
  · simp

/-- As many matches as follow one another directly, and the text after them. -/
def many (p : Pattern α) (cs : List Char) : List α × List Char :=
  match _h : p.run cs with
  | some (a, rest) => let (more, last) := p.many rest; (a :: more, last)
  | none => ([], cs)
termination_by cs.length
decreasing_by exact p.shrinks _h

theorem length_many_le (p : Pattern α) (cs : List Char) : (p.many cs).2.length ≤ cs.length := by
  induction hn : cs.length using Nat.strongRecOn generalizing cs with
  | _ n ih =>
    unfold many
    split
    · rename_i a rest h
      have hs := p.shrinks h
      have := ih rest.length (hn ▸ hs) rest rfl
      simp only
      omega
    · simp [hn]

def joined (p : Pattern (List Char)) : Pattern (List Char) where
  run cs := (p.run cs).map fun m => let (more, last) := p.many m.2; (m.1 ++ more.flatten, last)
  shrinks {cs a rest} h := by
    simp only [Option.map_eq_some_iff] at h
    obtain ⟨⟨b, r⟩, hr, heq⟩ := h
    cases heq
    exact Nat.lt_of_le_of_lt (p.length_many_le r) (p.shrinks hr)

theorem find?_shrinks (p : Pattern α) {cs rest : List Char} {a : α}
    (h : p.find? cs = some (a, rest)) : rest.length < cs.length := by
  induction cs with
  | nil => simp [find?] at h
  | cons c cs ih =>
    rcases Option.or_eq_some_iff.1 h with h | ⟨_, h⟩
    · exact p.shrinks h
    · exact Nat.lt_succ_of_lt (ih h)

theorem exists_run_of_mem_findAll (p : Pattern α) {cs : List Char} {a : α} (h : a ∈ p.findAll cs) :
    ∃ ds rest, ds.length ≤ cs.length ∧ p.run ds = some (a, rest) := by
  induction hn : cs.length using Nat.strongRecOn generalizing cs with
  | _ n ih =>
    cases cs with
    | nil => simp [findAll] at h
    | cons c tail =>
      rw [findAll] at h
      split at h
      · rename_i b rest hr
        rcases List.mem_cons.1 h with rfl | h
        · exact ⟨c :: tail, rest, Nat.le_of_eq hn, hr⟩
        · have hs := p.shrinks hr
          obtain ⟨ds, last, hd, hrun⟩ := ih rest.length (hn ▸ hs) h rfl
          exact ⟨ds, last, by omega, hrun⟩
      · simp only [List.length_cons] at hn
        obtain ⟨ds, last, hd, hrun⟩ := ih tail.length (by omega) h rfl
        exact ⟨ds, last, by omega, hrun⟩

theorem findAll_of_run {p : Pattern α} {cs rest : List Char} {a : α}
    (h : p.run cs = some (a, rest)) (hcs : cs ≠ []) : p.findAll cs = a :: p.findAll rest := by
  obtain ⟨c, tail, rfl⟩ := List.exists_cons_of_ne_nil hcs
  rw [findAll]
  split
  · rename_i hrun
    rw [h] at hrun
    cases hrun
    rfl
  · rename_i hrun
    rw [h] at hrun
    cases hrun

theorem findAll_of_run_none {p : Pattern α} {c : Char} {cs : List Char}
    (h : p.run (c :: cs) = none) : p.findAll (c :: cs) = p.findAll cs := by
  rw [findAll]
  split
  · rename_i hrun
    rw [h] at hrun
    cases hrun
  · rfl

theorem many_of_run {p : Pattern α} {cs rest : List Char} {a : α}
    (h : p.run cs = some (a, rest)) : p.many cs = (a :: (p.many rest).1, (p.many rest).2) := by
  rw [many]
  split
  · rename_i hrun
    rw [h] at hrun
    cases hrun
    rfl
  · rename_i hrun
    rw [h] at hrun
    cases hrun

theorem many_of_run_none {p : Pattern α} {cs : List Char} (h : p.run cs = none) :
    p.many cs = ([], cs) := by
  rw [many]
  split
  · rename_i hrun
    rw [h] at hrun
    cases hrun
  · rfl

theorem run_joined_of_many {p : Pattern (List Char)} {cs last : List Char}
    {found : List (List Char)} (h : p.many cs = (found, last)) (hfound : found ≠ []) :
    p.joined.run cs = some (found.flatten, last) := by
  cases hrun : p.run cs with
  | none =>
    rw [many_of_run_none hrun] at h
    cases h
    exact absurd rfl hfound
  | some m =>
    rw [many_of_run hrun] at h
    cases h
    simp [joined, hrun]

end Pattern

def run (p : Char → Bool) : Pattern (List Char) where
  run cs := if (cs.takeWhile p).isEmpty then none else some (cs.takeWhile p, cs.dropWhile p)
  shrinks {cs a rest} h := by
    split at h
    · simp at h
    · rename_i hne
      cases h
      cases cs with
      | nil => simp at hne
      | cons c cs =>
        by_cases hc : p c
        · simp only [List.dropWhile_cons, hc, if_true, List.length_cons]
          exact Nat.lt_succ_of_le (List.dropWhile_sublist p).length_le
        · simp [hc] at hne

/-- The text before the first `q` and the text after it. -/
def splitAtChar? (q : Char) : List Char → Option (List Char × List Char)
  | [] => none
  | c :: cs =>
    if c = q then some ([], cs) else (splitAtChar? q cs).map fun m => (c :: m.1, m.2)

theorem splitAtChar?_eq_some {q : Char} {cs before after : List Char}
    (h : splitAtChar? q cs = some (before, after)) : cs = before ++ q :: after ∧ q ∉ before := by
  induction cs generalizing before with
  | nil => simp [splitAtChar?] at h
  | cons c cs ih =>
    rw [splitAtChar?] at h
    split at h
    · rename_i hc
      cases h
      simp [hc]
    · rename_i hc
      obtain ⟨⟨b, r⟩, hr, heq⟩ := Option.map_eq_some_iff.1 h
      cases heq
      obtain ⟨hcs, hq⟩ := ih hr
      exact ⟨by rw [hcs]; rfl, by simp [hq, Ne.symm hc]⟩

theorem splitAtChar?_eq_none_iff {q : Char} {cs : List Char} :
    splitAtChar? q cs = none ↔ q ∉ cs := by
  induction cs with
  | nil => simp [splitAtChar?]
  | cons c cs ih =>
    rw [splitAtChar?]
    by_cases hc : c = q
    · simp [hc]
    · rw [if_neg hc, Option.map_eq_none_iff, ih, List.mem_cons, not_or]
      exact ⟨fun h => ⟨Ne.symm hc, h⟩, fun h => h.2⟩

theorem splitAtChar?_append {q : Char} {inner : List Char} (h : q ∉ inner) (rest : List Char) :
    splitAtChar? q (inner ++ q :: rest) = some (inner, rest) := by
  induction inner with
  | nil => simp [splitAtChar?]
  | cons c cs ih =>
    have hc : c ≠ q := fun he => h (by simp [he])
    have hcs : q ∉ cs := fun hm => h (List.mem_cons_of_mem _ hm)
    rw [List.cons_append, splitAtChar?, if_neg hc, ih hcs]
    rfl

/-- The text before the first `a` directly followed by `b`, and the text after the two. -/
def splitAtPair? (a b : Char) : List Char → Option (List Char × List Char)
  | [] => none
  | [_] => none
  | c :: d :: cs =>
    if c = a ∧ d = b then some ([], cs)
    else (splitAtPair? a b (d :: cs)).map fun m => (c :: m.1, m.2)

theorem splitAtPair?_eq_some {a b : Char} {cs before after : List Char}
    (h : splitAtPair? a b cs = some (before, after)) : cs = before ++ a :: b :: after := by
  induction cs generalizing before with
  | nil => simp [splitAtPair?] at h
  | cons c tail ih =>
    cases tail with
    | nil => simp [splitAtPair?] at h
    | cons d cs =>
      rw [splitAtPair?] at h
      split at h
      · rename_i hc
        cases h
        simp [hc.1, hc.2]
      · obtain ⟨⟨x, r⟩, hr, heq⟩ := Option.map_eq_some_iff.1 h
        cases heq
        rw [ih hr]
        rfl

end Liquid.Text
