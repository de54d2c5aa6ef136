import Liquid.Proofs.Condition.Print
import Liquid.Proofs.Context.Brackets
import Mathlib.Data.List.TakeWhile

/-!
# Names and paths in markup

Names and paths as they are written in markup, what a path resolves as when it is a single name, and
how much of a path the tags take that cut paths out by a class of characters of their own: up to the
first quote or question mark.
-/

namespace Liquid

open Text

/-! ### Names -/

/-- A text that is one name: name characters, each with a question mark behind it or without. -/
def IsName (cs : List Char) : Prop := cs ≠ [] ∧ Segment.nameRun cs = (cs, [])

instance : DecidablePred IsName := fun _ => inferInstanceAs (Decidable (_ ∧ _))

lemma isQuote_eq_true_iff {c : Char} : isQuote c = true ↔ c = '"' ∨ c = '\'' := by
  simp [isQuote]

lemma isUnmarked_of_isPathChar {c : Char} (h : isPathChar c = true) :
    isQuote c = false ∧ c ≠ '?' := by
  constructor
  · rw [Bool.eq_false_iff]
    intro hquote
    rcases isQuote_eq_true_iff.1 hquote with rfl | rfl <;> exact absurd h (by decide)
  · rintro rfl
    exact absurd h (by decide)

lemma isPathChar_of_isNameChar {c : Char} (h : isNameChar c = true) : isPathChar c = true := by
  unfold isNameChar at h
  simp [isPathChar, h]

lemma isBare_of_isNameChar {c : Char} (h : isNameChar c = true) : isBare c = true := by
  have hcases : isWord c = true ∨ c = '-' := by simpa [isNameChar] using h
  exact (Condition.isBare_of_operand (hcases.imp_right .inl)).1

lemma Segment.mem_nameRun (cs : List Char) :
    (∀ c ∈ (nameRun cs).1, isNameChar c = true ∨ c = '?') ∧
      ∀ c ∈ (nameRun cs).1.head?, isNameChar c = true := by
  fun_induction nameRun cs <;> simp_all

namespace IsName

variable {cs : List Char}

lemma mem (h : IsName cs) {c : Char} (hc : c ∈ cs) : isNameChar c = true ∨ c = '?' := by
  have hall := (Segment.mem_nameRun cs).1
  rw [h.2] at hall
  exact hall c hc

lemma exists_head (h : IsName cs) : ∃ c rest, cs = c :: rest ∧ isNameChar c = true := by
  obtain ⟨c, rest, rfl⟩ := List.exists_cons_of_ne_nil h.1
  have hhead := (Segment.mem_nameRun (c :: rest)).2
  rw [h.2] at hhead
  exact ⟨c, rest, rfl, hhead c rfl⟩

lemma isBare (h : IsName cs) {c : Char} (hc : c ∈ cs) : isBare c = true := by
  rcases h.mem hc with hname | rfl
  · exact isBare_of_isNameChar hname
  · decide

end IsName

lemma isName_of_forall {cs : List Char} (hne : cs ≠ []) (h : ∀ c ∈ cs, isNameChar c = true) :
    IsName cs := by
  refine ⟨hne, ?_⟩
  clear hne
  induction cs with
  | nil => rfl
  | cons c cs ih =>
    have hmark : cs.head? ≠ some '?' := by
      intro hhead
      obtain ⟨ds, rfl⟩ := List.head?_eq_some_iff.1 hhead
      exact absurd (h '?' (by simp)) (by decide)
    rw [Segment.nameRun_cons (h c List.mem_cons_self) hmark,
      ih fun d hd => h d (List.mem_cons_of_mem c hd)]

lemma isName_of_mem_findAll {cs : List Char}
    (h : Segment.Source.name cs ∈ Segment.source.findAll cs) : IsName cs := by
  obtain ⟨ds, rest, hlength, hrun⟩ := Segment.source.exists_run_of_mem_findAll h
  have hname : Segment.nameSource.run ds = some (.name cs, rest) := by
    rcases Option.or_eq_some_iff.1 hrun with hindex | ⟨-, hname⟩
    · simp only [Segment.indexSource] at hindex
      split at hindex
      · split at hindex
        · split at hindex <;> cases hindex
        · cases hindex
      · cases hindex
    · exact hname
  have hsplit := Segment.eq_append_of_nameRun ds
  simp only [Segment.nameSource] at hname
  split at hname
  · cases hname
  · rename_i hne
    cases hname
    have hrest : (Segment.nameRun ds).2 = [] := by
      have hsum := congrArg List.length hsplit
      rw [List.length_append] at hsum
      exact List.length_eq_zero_iff.1 (by omega)
    rw [hrest, List.append_nil] at hsplit
    rw [hsplit]
    refine ⟨fun hds => hne (by rw [hsplit, hds]; rfl), Prod.ext hsplit hrest⟩

lemma Expr.ofToken_eq_name_iff {token : String} :
    ofToken token = .path [.name token] ↔ IsName token.toList ∧ Literal.read? token = none := by
  have hpath (h : Literal.read? token = none) : ofToken token = ofPath token.toList := by
    obtain ⟨hvalue, hends⟩ := Literal.read?_eq_none_iff.1 h
    exact ofChars_eq_ofPath hvalue hends
  constructor
  · intro h
    have hread : Literal.read? token = none := by
      rw [Literal.read?_eq_none_iff]
      unfold ofToken ofChars at h
      split at h
      · cases h
      · rename_i hvalue
        split at h
        · cases h
        · exact ⟨hvalue, ‹_›⟩
    refine ⟨?_, hread⟩
    rw [hpath hread, ofPath] at h
    obtain ⟨source, hsource, hname⟩ := List.map_eq_singleton_iff.1 (Expr.path.inj h)
    cases source with
    | index inner => cases hname
    | name key =>
      obtain rfl : String.ofList key = token := Segment.name.inj hname
      rw [String.toList_ofList] at hsource ⊢
      exact isName_of_mem_findAll (hsource ▸ List.mem_singleton_self _)
  · rintro ⟨hname, hread⟩
    obtain ⟨c, cs, hcs, hc⟩ := hname.exists_head
    have hopen : token.toList.head? ≠ some '[' := by
      rw [hcs]
      rintro h
      obtain rfl := Option.some.inj h
      exact absurd hc (by decide)
    have hend : Segment.source.findAll [] = [] := by rw [Pattern.findAll]
    rw [hpath hread, ofPath, Segment.findAll_name hname.2 hname.1 hopen, hend]
    simp

/-! ### Paths as they are written -/

/-- A path as it is written: a name, and behind it names after points, and paths and quoted keys in
brackets. No blank, comma or bar stands in it. -/
inductive IsPath : List Char → Prop
  | name {cs : List Char} (h : IsName cs) : IsPath cs
  | field {front cs : List Char} (hfront : IsPath front) (h : IsName cs) :
      IsPath (front ++ '.' :: cs)
  | index {front key : List Char} (hfront : IsPath front) (h : IsPath key) :
      IsPath (front ++ '[' :: (key ++ [']']))
  | quoted {front key : List Char} {q : Char} (hfront : IsPath front) (hq : isQuote q = true)
      (hkey : ∀ c ∈ key, isBare c = true ∧ c ≠ q) : IsPath (front ++ '[' :: q :: (key ++ [q, ']']))

/-- The text has neither quotes nor question marks in it. -/
def IsUnmarked (cs : List Char) : Prop := ∀ c ∈ cs, isQuote c = false ∧ c ≠ '?'

instance : DecidablePred IsUnmarked := fun cs => List.decidableBAll _ cs

lemma IsUnmarked.append_iff {cs ds : List Char} :
    IsUnmarked (cs ++ ds) ↔ IsUnmarked cs ∧ IsUnmarked ds := List.forall_mem_append

lemma IsUnmarked.cons_iff {c : Char} {cs : List Char} :
    IsUnmarked (c :: cs) ↔ (isQuote c = false ∧ c ≠ '?') ∧ IsUnmarked cs := List.forall_mem_cons

namespace IsPath

variable {cs : List Char}

lemma isBare (h : IsPath cs) : ∀ c ∈ cs, isBare c = true := by
  induction h with
  | name h => exact fun c hc => h.isBare hc
  | field _ h ih =>
    rw [List.forall_mem_append, List.forall_mem_cons]
    exact ⟨ih, by decide, fun c hc => h.isBare hc⟩
  | index _ _ ih ihkey =>
    rw [List.forall_mem_append, List.forall_mem_cons, List.forall_mem_append]
    exact ⟨ih, by decide, ihkey, List.forall_mem_singleton.2 (by decide)⟩
  | @quoted _ _ q _ hq hkey ih =>
    have hquote : Text.isBare q = true := by
      rcases isQuote_eq_true_iff.1 hq with rfl | rfl <;> decide
    rw [List.forall_mem_append, List.forall_mem_cons, List.forall_mem_cons, List.forall_mem_append,
      List.forall_mem_cons]
    exact ⟨ih, by decide, hquote, fun c hc => (hkey c hc).1, hquote,
      List.forall_mem_singleton.2 (by decide)⟩

lemma exists_head (h : IsPath cs) : ∃ c rest, cs = c :: rest ∧ isNameChar c = true := by
  induction h with
  | name h => exact h.exists_head
  | field _ _ ih | index _ _ ih | quoted _ _ _ ih =>
    obtain ⟨c, rest, rfl, hc⟩ := ih
    exact ⟨c, _, List.cons_append .., hc⟩

lemma isPathChar_of_isUnmarked (h : IsPath cs) (hcs : IsUnmarked cs) :
    ∀ c ∈ cs, isPathChar c = true := by
  have hname {ds : List Char} (h : IsName ds) (hds : IsUnmarked ds) (c : Char) (hc : c ∈ ds) :
      isPathChar c = true :=
    isPathChar_of_isNameChar ((h.mem hc).resolve_right (hds c hc).2)
  induction h with
  | name h => exact hname h hcs
  | field _ h ih =>
    obtain ⟨hfront, -, hback⟩ := IsUnmarked.append_iff.1 hcs |>.imp_right IsUnmarked.cons_iff.1
    rw [List.forall_mem_append, List.forall_mem_cons]
    exact ⟨ih hfront, by decide, hname h hback⟩
  | index _ _ ih ihkey =>
    obtain ⟨hfront, -, hback⟩ := IsUnmarked.append_iff.1 hcs |>.imp_right IsUnmarked.cons_iff.1
    rw [List.forall_mem_append, List.forall_mem_cons, List.forall_mem_append]
    exact ⟨ih hfront, by decide, ihkey (IsUnmarked.append_iff.1 hback).1,
      List.forall_mem_singleton.2 (by decide)⟩
  | @quoted _ _ q _ hq _ _ =>
    have hmark := (hcs q (by simp)).1
    rw [hq] at hmark
    cases hmark

lemma isUnmarked_iff (h : IsPath cs) : IsUnmarked cs ↔ cs.takeWhile isPathChar = cs := by
  rw [List.takeWhile_eq_self_iff]
  exact ⟨h.isPathChar_of_isUnmarked, fun hall c hc => isUnmarked_of_isPathChar (hall c hc)⟩

end IsPath

/-! ### Cutting paths out -/

namespace Text

lemma run_pathUnit {c : Char} {cs : List Char} (hc : isPathChar c = true)
    (hcs : cs.head? ≠ some ')') : pathUnit.run (c :: cs) = some ([c], cs) := by
  have hopen : c ≠ '(' := by
    rintro rfl
    exact absurd hc (by decide)
  have hclosing : withClosing [c] cs = ([c], cs) := by
    unfold withClosing
    split
    · exact absurd rfl hcs
    · rfl
  simp [pathUnit, hopen, hc, hclosing]

/-- The text leaves the class of path characters at a quote or a question mark, if it leaves it. -/
def LeavesAtMark (cs : List Char) : Prop :=
  ∀ c ∈ (cs.dropWhile isPathChar).head?, isQuote c = true ∨ c = '?'

lemma LeavesAtMark.append {cs ds : List Char} (hcs : LeavesAtMark cs) (hds : LeavesAtMark ds) :
    LeavesAtMark (cs ++ ds) := by
  unfold LeavesAtMark at *
  rw [List.dropWhile_append]
  split
  · exact hds
  · cases hdrop : cs.dropWhile isPathChar with
    | nil => simp_all
    | cons c rest => simpa [hdrop] using hcs

lemma LeavesAtMark.of_forall {cs : List Char} (h : ∀ c ∈ cs, isPathChar c = true) :
    LeavesAtMark cs := by
  intro c hc
  rw [List.dropWhile_eq_nil_iff.2 h] at hc
  cases hc

lemma not_parenthesis_of_mark {c : Char} (h : isQuote c = true ∨ c = '?') :
    isPathChar c = false ∧ c ≠ '(' ∧ c ≠ ')' := by
  rw [isQuote_eq_true_iff] at h
  rcases h with (rfl | rfl) | rfl <;> decide

/-- As no parenthesis comes before the end of the class, the path is cut there. -/
lemma many_pathUnit {cs : List Char} (h : LeavesAtMark cs) :
    pathUnit.many cs = ((cs.takeWhile isPathChar).map ([·]), cs.dropWhile isPathChar) := by
  unfold LeavesAtMark at h
  induction cs with
  | nil => exact Pattern.many_of_run_none rfl
  | cons c cs ih =>
    by_cases hc : isPathChar c = true
    · rw [List.dropWhile_cons_of_pos hc] at h
      rw [List.takeWhile_cons_of_pos hc, List.dropWhile_cons_of_pos hc]
      have hnext : cs.head? ≠ some ')' := by
        intro hhead
        obtain ⟨ds, rfl⟩ := List.head?_eq_some_iff.1 hhead
        exact (not_parenthesis_of_mark (h ')' rfl)).2.2 rfl
      rw [Pattern.many_of_run (run_pathUnit hc hnext), ih h, List.map_cons]
    · rw [List.dropWhile_cons_of_neg hc] at h
      rw [List.takeWhile_cons_of_neg hc, List.dropWhile_cons_of_neg hc]
      obtain ⟨hother, hopen, -⟩ := not_parenthesis_of_mark (h c rfl)
      exact Pattern.many_of_run_none (by simp [pathUnit, hopen, hother])

lemma run_pathRun {c : Char} {cs : List Char} (hc : isPathChar c = true)
    (h : LeavesAtMark (c :: cs)) : pathRun.run (c :: cs) =
      some ((c :: cs).takeWhile isPathChar, (c :: cs).dropWhile isPathChar) := by
  have hfound : ((c :: cs).takeWhile isPathChar).map ([·]) ≠ [] := by simp [hc]
  rw [pathRun, Pattern.run_joined_of_many (many_pathUnit h) hfound]
  simp [← List.flatMap_def]

lemma Pattern.exists_run_of_find? {α : Type} {p : Pattern α} {cs : List Char}
    {found : α × List Char} (h : p.find? cs = some found) : ∃ ds, p.run ds = some found := by
  induction cs with
  | nil => cases h
  | cons c cs ih =>
    rcases Option.or_eq_some_iff.1 h with h | ⟨-, h⟩
    · exact ⟨c :: cs, h⟩
    · exact ih h

lemma Pattern.forall_mem_many {α : Type} {p : Pattern α} {P : α → Prop}
    (h : ∀ cs a rest, p.run cs = some (a, rest) → P a) (cs : List Char) :
    ∀ a ∈ (p.many cs).1, P a := by
  induction cs using Pattern.many.induct p with
  | case1 cs a rest hrun _ _ _ ih =>
    rw [many_of_run hrun]
    exact List.forall_mem_cons.2 ⟨h cs a rest hrun, ih⟩
  | case2 cs hrun =>
    rw [many_of_run_none hrun]
    simp

lemma mark_not_mem_of_run_pathUnit {cs found rest : List Char}
    (h : pathUnit.run cs = some (found, rest)) : found ≠ [] ∧ '?' ∉ found := by
  have hclosing (before after : List Char) (hne : before ≠ []) (hmark : '?' ∉ before) :
      (withClosing before after).1 ≠ [] ∧ '?' ∉ (withClosing before after).1 := by
    unfold withClosing
    split
    · exact ⟨by simp, by simpa using hmark⟩
    · exact ⟨hne, hmark⟩
  have hchar {c : Char} (hc : isPathChar c = true) : '?' ≠ c :=
    (isUnmarked_of_isPathChar hc).2.symm
  simp only [pathUnit] at h
  split at h
  · rename_i c after
    split at h
    · rename_i hc
      have hunit := hclosing ['(', c] after (by simp) (by simpa using hchar hc)
      rwa [Option.some.inj h] at hunit
    · cases h
  · rename_i c after _
    split at h
    · rename_i hc
      have hunit := hclosing [c] after (by simp) (by simpa using hchar hc)
      rwa [Option.some.inj h] at hunit
    · cases h
  · cases h

lemma mark_not_mem_of_run_pathRun {cs found rest : List Char}
    (h : pathRun.run cs = some (found, rest)) : found ≠ [] ∧ '?' ∉ found := by
  obtain ⟨⟨first, after⟩, hrun, heq⟩ := Option.map_eq_some_iff.1 h
  cases heq
  obtain ⟨hne, hfirst⟩ := mark_not_mem_of_run_pathUnit hrun
  have hmore := Pattern.forall_mem_many (fun _ _ _ hunit => (mark_not_mem_of_run_pathUnit hunit).2)
    after
  refine ⟨List.append_ne_nil_of_left_ne_nil hne _, ?_⟩
  rw [List.mem_append, List.mem_flatten]
  rintro (hmem | ⟨unit, hunit, hmem⟩)
  · exact hfirst hmem
  · exact hmore unit hunit hmem

end Text

lemma IsName.leavesAtMark {cs : List Char} (h : IsName cs) : LeavesAtMark cs := by
  intro c hc
  have hmem : c ∈ cs := (List.dropWhile_sublist isPathChar).mem (List.mem_of_mem_head? hc)
  have hother : ¬isPathChar c = true := by
    intro hclass
    obtain ⟨rest, hrest⟩ := List.head?_eq_some_iff.1 hc
    have hne : cs.dropWhile isPathChar ≠ [] := by simp [hrest]
    have hhead := List.head_dropWhile_not isPathChar hne
    simp only [hrest, List.head_cons] at hhead
    rw [hclass] at hhead
    cases hhead
  exact .inr ((h.mem hmem).resolve_left (mt isPathChar_of_isNameChar hother))

lemma IsPath.leavesAtMark {cs : List Char} (h : IsPath cs) : LeavesAtMark cs := by
  have hsingle {c : Char} (hc : isPathChar c = true) : LeavesAtMark [c] :=
    .of_forall (List.forall_mem_singleton.2 hc)
  induction h with
  | name h => exact h.leavesAtMark
  | field _ h ih => exact ih.append ((hsingle (c := '.') (by decide)).append h.leavesAtMark)
  | index _ _ ih ihkey =>
    exact ih.append ((hsingle (c := '[') (by decide)).append (ihkey.append (hsingle (by decide))))
  | @quoted _ _ q _ hq _ ih =>
    have hquote : isPathChar q = false := (not_parenthesis_of_mark (.inl hq)).1
    refine ih.append ((hsingle (c := '[') (by decide)).append fun c hc => ?_)
    rw [List.dropWhile_cons_of_neg (Bool.eq_false_iff.1 hquote)] at hc
    cases hc
    exact .inl hq

end Liquid
