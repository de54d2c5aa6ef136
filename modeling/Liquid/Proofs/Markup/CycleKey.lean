import Mathlib.Data.List.TakeWhile
import Mathlib.Tactic.SplitIfs
import Liquid.Markup.Tag
import Liquid.Proofs.Token.Print

/-!
# Groups of `cycle` tags without a name

A `cycle` tag without a name belongs to the group of its values: the key of the group is the list of
their tokens, joined by commas. A quoted token may hold commas of its own, but the joined tokens are
always read again as the same tokens, so the key tells the list.
-/

namespace Liquid

open Text

namespace Text

variable {cs a rest more : List Char}

lemma run_quoted_eq_none_iff {q : Char} (hq : isQuote q = true) :
    quoted.run (q :: cs) = none ↔ q ∉ cs ∨ cs.head? = some q := by
  simp only [quoted, quotedWith, hq, if_true]
  cases hsplit : splitAtChar? q cs with
  | none => simp [splitAtChar?_eq_none_iff.1 hsplit]
  | some found =>
    obtain ⟨inner, rest⟩ := found
    obtain ⟨rfl, hinner⟩ := splitAtChar?_eq_some hsplit
    cases inner with
    | nil => simp
    | cons c inner =>
      have hc : c ≠ q := fun hc => hinner (by simp [hc])
      simp [hc]

lemma run_quoted_append (h : quoted.run cs = some (a, rest)) (more : List Char) :
    quoted.run (a ++ more) = some (a, more) := by
  cases cs with
  | nil => simp [quoted, quotedWith] at h
  | cons q cs =>
    simp only [quoted, quotedWith] at h ⊢
    split at h
    · rename_i hq
      split at h
      · rename_i inner tail hsplit
        split at h
        · rename_i hfull
          cases h
          have hfresh := (splitAtChar?_eq_some hsplit).2
          have hne : inner ≠ [] := by simpa using hfull
          simp [hq, splitAtChar?_append hfresh, hne]
        · cases h
      · cases h
    · cases h

lemma run_quoted_bare_append (hquoted : quoted.run cs = none) (hbare : bare.run cs = some (a, rest))
    (hmore : ∀ c ∈ more, c ∈ rest ∨ isQuote c = false) : quoted.run (a ++ more) = none := by
  simp only [bare, run] at hbare
  split at hbare
  · cases hbare
  · rename_i hfull
    cases hbare
    cases cs with
    | nil => simp at hfull
    | cons q cs =>
      have hq : isBare q = true := by
        by_contra hq
        simp [hq] at hfull
      rw [List.takeWhile_cons_of_pos hq, List.cons_append]
      rw [List.dropWhile_cons_of_pos hq] at hmore
      cases hquote : isQuote q with
      | false => simp [quoted, quotedWith, hquote]
      | true =>
        rw [run_quoted_eq_none_iff hquote] at hquoted ⊢
        rcases hquoted with hopen | hclosed
        · left
          intro hmem
          rcases List.mem_append.1 hmem with hmem | hmem
          · exact hopen (List.takeWhile_subset _ hmem)
          · rcases hmore q hmem with hmem | hfalse
            · exact hopen (List.dropWhile_subset _ hmem)
            · rw [hquote] at hfalse
              cases hfalse
        · right
          cases cs with
          | nil => cases hclosed
          | cons c cs =>
            cases hclosed
            rw [List.takeWhile_cons_of_pos hq]
            rfl

/-- A fragment is read again from its own text, when what follows it neither goes on with it nor
closes a quote in it. -/
lemma run_fragment_append (h : fragment.run cs = some (a, rest))
    (hhead : ∀ c ∈ more.head?, isBare c = false)
    (hmore : ∀ c ∈ more, c ∈ rest ∨ isQuote c = false) :
    fragment.run (a ++ more) = some (a, more) := by
  rcases Option.or_eq_some_iff.1 h with hquoted | ⟨hquoted, hbare⟩
  · exact Option.or_eq_some_iff.2 (.inl (run_quoted_append hquoted more))
  · have hfull : a ≠ [] ∧ ∀ c ∈ a, isBare c = true := by
      simp only [bare, run] at hbare
      split at hbare
      · cases hbare
      · rename_i hfull
        cases hbare
        exact ⟨by simpa using hfull, fun c hc => List.mem_takeWhile_imp hc⟩
    refine Option.or_eq_some_iff.2 (.inr ⟨run_quoted_bare_append hquoted hbare hmore, ?_⟩)
    exact run_append hfull.1 hfull.2 hhead

lemma findAll_intercalate (cs : List Char) :
    (∀ c ∈ [','].intercalate (fragment.findAll cs), c ∈ cs ∨ isQuote c = false) ∧
      fragment.findAll ([','].intercalate (fragment.findAll cs)) = fragment.findAll cs := by
  induction cs using Pattern.findAll.induct fragment with
  | case1 => simp [Pattern.findAll, List.intercalate]
  | case2 c cs a rest hrun ih =>
    obtain ⟨hmem, hread⟩ := ih
    have hcs := eq_append_of_fragment hrun
    have hne : a ≠ [] := by
      rintro rfl
      have hshorter := fragment.shrinks hrun
      simp [hcs] at hshorter
    rw [Pattern.findAll_of_run hrun (List.cons_ne_nil _ _)]
    -- Behind the first fragment stands nothing, or a comma and the others.
    obtain ⟨more, hjoined, hmore, hothers⟩ : ∃ more,
        [','].intercalate (a :: fragment.findAll rest) = a ++ more ∧
          (more = [] ∨ more = ',' :: [','].intercalate (fragment.findAll rest)) ∧
          fragment.findAll more = fragment.findAll rest := by
      cases hrest : fragment.findAll rest with
      | nil => exact ⟨[], by simp, .inl rfl, by simp [Pattern.findAll]⟩
      | cons b others =>
        refine ⟨',' :: [','].intercalate (b :: others), ?_, .inr rfl, ?_⟩
        · rw [List.intercalate_cons_cons]
          simp
        · have hcomma : ∀ cs, fragment.run (',' :: cs) = none := fun cs => by
            simp [fragment, Pattern.orElse, quoted, quotedWith, bare, run, isBare, isQuote]
          rw [Pattern.findAll_of_run_none (hcomma _), ← hrest, hread]
    have hquotes : ∀ d ∈ more, d ∈ rest ∨ isQuote d = false := by
      intro d hd
      rcases hmore with rfl | rfl
      · cases hd
      · rcases List.mem_cons.1 hd with rfl | hd
        · exact .inr rfl
        · exact hmem d hd
    rw [hjoined, hcs]
    refine ⟨fun d hd => ?_, ?_⟩
    · rcases List.mem_append.1 hd with hd | hd
      · exact .inl (List.mem_append_left _ hd)
      · exact (hquotes d hd).imp_left (List.mem_append_right _)
    · have hhead : ∀ d ∈ more.head?, isBare d = false := by
        intro d hd
        rcases hmore with rfl | rfl
        · cases hd
        · cases hd
          rfl
      rw [Pattern.findAll_of_run (run_fragment_append hrun hhead hquotes) (by simp [hne]), hothers]
  | case3 c cs hrun ih =>
    rw [Pattern.findAll_of_run_none hrun]
    exact ⟨fun d hd => (ih.1 d hd).imp_left (List.mem_cons_of_mem _), ih.2⟩

end Text

namespace Cycle

variable {cs cs' : List Char} {markup key : String} {tag : Cycle}

lemma toList_valuesKey_valuesIn (cs : List Char) :
    (valuesKey (valuesIn cs)).toList =
      '\'' :: ([','].intercalate (fragment.findAll cs) ++ ['\'']) := by
  have htokens : (valuesIn cs).map String.toList = fragment.findAll cs := by
    simp [valuesIn, Function.comp_def]
  simp [valuesKey, String.toList_intercalate, htokens]

/-- The key of a group tells its values, also when there are commas in them. -/
theorem valuesKey_inj (h : valuesKey (valuesIn cs) = valuesKey (valuesIn cs')) :
    valuesIn cs = valuesIn cs' := by
  have hlist := congrArg String.toList h
  rw [toList_valuesKey_valuesIn, toList_valuesKey_valuesIn, List.cons.injEq] at hlist
  have hjoined := List.append_cancel_right hlist.2
  unfold valuesIn
  rw [← (findAll_intercalate cs).2, hjoined, (findAll_intercalate cs').2]

lemma values_of_read (h : read markup = .ok tag) (hgroup : tag.group = .values key) :
    (∃ cs, tag.values = valuesIn cs) ∧ key = valuesKey tag.values := by
  unfold read at h
  cases hfound : group? markup.toList with
  | some found =>
    rw [hfound] at h
    dsimp only at h
    split_ifs at h
    cases h
    cases hgroup
  | none =>
    rw [hfound] at h
    dsimp only at h
    split_ifs at h
    cases h
    cases hgroup
    exact ⟨⟨_, rfl⟩, rfl⟩

end Cycle

end Liquid
