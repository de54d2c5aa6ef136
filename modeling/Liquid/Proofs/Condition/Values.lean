import Liquid.Loader.Memory
import Liquid.Node.Parser
import Liquid.Proofs.Markup.Fragment
import Liquid.Render.Basic
import Mathlib.Data.List.TakeWhile

/-!
# Values of `when` clauses

The values of a `when` clause stand behind one another with a comma or the word `or` between them.
Reading takes one value at a time and goes on with what follows it. From the second value on only
the rest of that line is kept, so all values are read exactly when no line ends behind the second.
-/

namespace Liquid

namespace Condition

open Text

/-- What may stand between two values: a comma with blanks around it or without, or the word `or`
with blanks on both sides. -/
inductive IsSeparator : List Char → Prop
  | comma {before after : List Char} (hbefore : ∀ c ∈ before, isBlank c = true)
      (hafter : ∀ c ∈ after, isBlank c = true) : IsSeparator (before ++ ',' :: after)
  | or {before after : List Char} (hbefore : ∀ c ∈ before, isBlank c = true) (hfront : before ≠ [])
      (hafter : ∀ c ∈ after, isBlank c = true) (hback : after ≠ []) :
      IsSeparator (before ++ 'o' :: 'r' :: after)

/-- The source of values, each but the first with what stands in front of it. -/
def printValues (first : String) : List (String × String) → String
  | [] => first
  | (separator, next) :: more => first ++ separator ++ printValues next more

def printMore : List (String × String) → List Char
  | [] => []
  | (separator, next) :: more => separator.toList ++ (next.toList ++ printMore more)

/-- The values can be told apart: each is a fragment, and a separator stands in front of it. -/
def AreSeparated (links : List (String × String)) : Prop :=
  ∀ link ∈ links, IsSeparator link.1.toList ∧ IsFragment link.2.toList

lemma AreSeparated.cons {separator next : String} {more : List (String × String)}
    (hseparator : IsSeparator separator.toList) (hnext : IsFragment next.toList)
    (hmore : AreSeparated more) : AreSeparated ((separator, next) :: more) :=
  List.forall_mem_cons.2 ⟨⟨hseparator, hnext⟩, hmore⟩

lemma areSeparated_nil : AreSeparated [] := fun _ hlink => nomatch hlink

/-- The values behind the first one, told by what stands behind that. -/
def moreValues (cs : List Char) : List String :=
  match whenTail? cs with
  | some tail => whenValues tail
  | none => []

/-- What is left of a text up to the end of its line. -/
def upToLine (cs : List Char) : List Char := cs.takeWhile (· != '\n')

/-! ### Ends of lines -/

section Line

variable {cs : List Char}

lemma upToLine_append (h : '\n' ∉ cs) (rest : List Char) :
    upToLine (cs ++ rest) = cs ++ upToLine rest := by
  refine List.takeWhile_append_of_pos fun c hc => ?_
  simpa using fun heq : c = '\n' => h (heq ▸ hc)

lemma upToLine_eq_self (h : '\n' ∉ cs) : upToLine cs = cs := by
  have happend := upToLine_append h []
  rwa [List.append_nil, show upToLine [] = [] from rfl, List.append_nil] at happend

lemma upToLine_append_of_mem (h : '\n' ∈ cs) (rest : List Char) :
    upToLine (cs ++ rest) = upToLine cs := by
  obtain ⟨front, back, rfl, hfront⟩ := List.eq_append_cons_of_mem h
  rw [List.append_assoc, upToLine_append hfront, upToLine_append hfront]
  rfl

lemma not_mem_upToLine (cs : List Char) : '\n' ∉ upToLine cs := by
  intro hmem
  simpa using List.mem_takeWhile_imp hmem

lemma upToLine_upToLine (cs : List Char) : upToLine (upToLine cs) = upToLine cs :=
  upToLine_eq_self (not_mem_upToLine cs)

end Line

/-! ### One step -/

section Step

variable {before rest tail : List Char}

lemma whenTail?_of_blank (h : ∀ c ∈ before, isBlank c = true) : whenTail? before = none := by
  simp only [whenTail?, dropBlanks_eq_nil h]

lemma whenTail?_comma (h : ∀ c ∈ before, isBlank c = true) :
    whenTail? (before ++ ',' :: rest) =
      (fragment.run (dropBlanks rest)).map fun m => m.1 ++ upToLine m.2 := by
  have hcomma : isBlank ',' = false := by decide
  have hdrop : dropBlanks (before ++ ',' :: rest) = ',' :: rest :=
    dropBlanks_append h (by simpa using hcomma)
  simp only [whenTail?, hdrop]
  rfl

lemma whenTail?_or {b : Char} (h : ∀ c ∈ before, isBlank c = true) (hne : before ≠ [])
    (hb : isBlank b = true) :
    whenTail? (before ++ 'o' :: 'r' :: b :: rest) =
      (fragment.run (dropBlanks rest)).map fun m => m.1 ++ upToLine m.2 := by
  have ho : isBlank 'o' = false := by decide
  have hdrop : dropBlanks (before ++ 'o' :: 'r' :: b :: rest) = 'o' :: 'r' :: b :: rest :=
    dropBlanks_append h (by simpa using ho)
  have hhead : (before ++ 'o' :: 'r' :: b :: rest).head?.any isBlank = true := by
    obtain ⟨c, cs, rfl⟩ := List.exists_cons_of_ne_nil hne
    exact h c (by simp)
  simp only [whenTail?, hdrop, hhead, hb, Bool.and_self, if_true]
  rfl

lemma whenTail?_or_end (h : ∀ c ∈ before, isBlank c = true) :
    whenTail? (before ++ ['o', 'r']) = none := by
  have ho : isBlank 'o' = false := by decide
  have hdrop : dropBlanks (before ++ ['o', 'r']) = ['o', 'r'] :=
    dropBlanks_append h (by simpa using ho)
  simp only [whenTail?, hdrop]
  rfl

lemma sublist_of_whenTail? {cs : List Char} (h : whenTail? cs = some tail) : tail.Sublist cs := by
  have hrun {rest : List Char}
      (hrest : (fragment.run (dropBlanks rest)).map (fun m => m.1 ++ upToLine m.2) = some tail) :
      tail.Sublist rest := by
    obtain ⟨⟨a, r⟩, hfragment, rfl⟩ := Option.map_eq_some_iff.1 hrest
    have hparts : (a ++ upToLine r).Sublist (a ++ r) :=
      (List.Sublist.refl a).append (List.takeWhile_sublist _)
    rw [← eq_append_of_fragment hfragment] at hparts
    exact hparts.trans (List.dropWhile_sublist _)
  have hdrop : (dropBlanks cs).Sublist cs := List.dropWhile_sublist _
  unfold whenTail? at h
  split at h
  · rename_i rest heq
    rw [heq] at hdrop
    exact ((hrun h).cons _).trans hdrop
  · rename_i b rest heq
    rw [heq] at hdrop
    split at h
    · exact ((((hrun h).cons _).cons _).cons _).trans hdrop
    · cases h
  · cases h

end Step

namespace IsSeparator

variable {separator next rest : List Char}

lemma isBare_head (h : IsSeparator separator) (rest : List Char) :
    ∀ c ∈ (separator ++ rest).head?, isBare c = false := by
  have hcomma : isBare ',' = false := by decide
  cases h with
  | @comma before after hbefore _ =>
    cases before with
    | nil => simpa using hcomma
    | cons b before => simpa using isBare_of_isBlank (hbefore b (by simp))
  | @or before after hbefore hfront _ _ =>
    obtain ⟨b, before, rfl⟩ := List.exists_cons_of_ne_nil hfront
    simpa using isBare_of_isBlank (hbefore b (by simp))

lemma whenTail?_append (h : IsSeparator separator) (hnext : IsFragment next)
    (hrest : ∀ c ∈ rest.head?, isBare c = false) :
    whenTail? (separator ++ (next ++ rest)) = some (next ++ upToLine rest) := by
  have hrun := hnext.run_append hrest
  have hhead := hnext.isBlank_head rest
  cases h with
  | @comma before after hbefore hafter =>
    rw [List.append_assoc, List.cons_append, whenTail?_comma hbefore,
      dropBlanks_append hafter hhead, hrun]
    rfl
  | @or before after hbefore hfront hafter hback =>
    obtain ⟨b, after, rfl⟩ := List.exists_cons_of_ne_nil hback
    obtain ⟨hb, hblank⟩ := List.forall_mem_cons.1 hafter
    rw [List.append_assoc, List.cons_append, List.cons_append, List.cons_append,
      whenTail?_or hbefore hfront hb, dropBlanks_append hblank hhead, hrun]
    rfl

lemma whenTail?_upToLine (h : IsSeparator separator) (hline : '\n' ∈ separator) :
    whenTail? (upToLine separator) = none := by
  have hsub {cs : List Char} (hcs : ∀ c ∈ cs, isBlank c = true) :
      ∀ c ∈ upToLine cs, isBlank c = true := fun c hc => hcs c (List.takeWhile_subset _ hc)
  cases h with
  | @comma before after hbefore hafter =>
    by_cases hcut : '\n' ∈ before
    · rw [upToLine_append_of_mem hcut, whenTail?_of_blank (hsub hbefore)]
    · have hcs : upToLine (before ++ ',' :: after) = before ++ ',' :: upToLine after :=
        upToLine_append hcut _
      rw [hcs, whenTail?_comma hbefore, dropBlanks_eq_nil (hsub hafter)]
      rfl
  | @or before after hbefore hfront hafter hback =>
    by_cases hcut : '\n' ∈ before
    · rw [upToLine_append_of_mem hcut, whenTail?_of_blank (hsub hbefore)]
    · have hcs : upToLine (before ++ 'o' :: 'r' :: after) =
          before ++ 'o' :: 'r' :: upToLine after := upToLine_append hcut _
      have hblank := hsub hafter
      rw [hcs]
      cases hrest : upToLine after with
      | nil => exact whenTail?_or_end hbefore
      | cons b rest =>
        rw [hrest] at hblank
        obtain ⟨hb, hnone⟩ := List.forall_mem_cons.1 hblank
        rw [whenTail?_or hbefore hfront hb, dropBlanks_eq_nil hnone]
        rfl

end IsSeparator

/-! ### All steps -/

lemma whenValues_of_find? {cs a rest : List Char} (h : fragment.find? cs = some (a, rest)) :
    whenValues cs = String.ofList a :: moreValues rest := by
  rw [whenValues]
  unfold moreValues
  split
  · rename_i hnone
    rw [h] at hnone
    cases hnone
  · rename_i hsome
    rw [h] at hsome
    cases hsome
    split
    · rename_i htail
      rw [htail]
    · rename_i htail
      rw [htail]

lemma whenValues_append {first rest : List Char} (h : IsFragment first)
    (hrest : ∀ c ∈ rest.head?, isBare c = false) :
    whenValues (first ++ rest) = String.ofList first :: moreValues rest :=
  whenValues_of_find? (@IsFragment.find?_append _ [] _ h (by simp) hrest)

lemma sublist_of_mem_whenValues {cs : List Char} {value : String} (h : value ∈ whenValues cs) :
    value.toList.Sublist cs := by
  induction cs using whenValues.induct with
  | case1 cs hfind =>
    rw [whenValues] at h
    split at h
    · cases h
    · rename_i hsome
      rw [hfind] at hsome
      cases hsome
  | case2 cs a rest hfind tail htail ih =>
    obtain ⟨pad, rfl⟩ := exists_eq_of_find? hfind
    rw [whenValues_of_find? hfind, moreValues, htail] at h
    have hback : (a ++ rest).Sublist (pad ++ (a ++ rest)) := List.sublist_append_right _ _
    rcases List.mem_cons.1 h with rfl | hmore
    · rw [String.toList_ofList]
      exact (List.sublist_append_left _ _).trans hback
    · have htaken := (ih hmore).trans (sublist_of_whenTail? htail)
      exact (htaken.trans (List.sublist_append_right _ _)).trans hback
  | case3 cs a rest hfind htail =>
    obtain ⟨pad, rfl⟩ := exists_eq_of_find? hfind
    rw [whenValues_of_find? hfind, moreValues, htail, List.mem_singleton] at h
    rw [h, String.toList_ofList]
    exact (List.sublist_append_left _ _).trans (List.sublist_append_right _ _)

lemma sublist_of_mem_moreValues {cs : List Char} {value : String} (h : value ∈ moreValues cs) :
    value.toList.Sublist cs := by
  unfold moreValues at h
  split at h
  · rename_i tail htail
    exact (sublist_of_mem_whenValues h).trans (sublist_of_whenTail? htail)
  · cases h

lemma isBare_head_printMore {links : List (String × String)} (h : AreSeparated links) :
    ∀ c ∈ (printMore links).head?, isBare c = false := by
  cases links with
  | nil => simp [printMore]
  | cons link more => exact (h link (by simp)).1.isBare_head _

lemma head?_upToLine_printMore {links : List (String × String)} (h : AreSeparated links) :
    ∀ c ∈ (upToLine (printMore links)).head?, isBare c = false := by
  intro c hc
  refine isBare_head_printMore h c ?_
  obtain ⟨rest, hrest⟩ : upToLine (printMore links) <+: printMore links := List.takeWhile_prefix _
  obtain ⟨line, hline⟩ := List.head?_eq_some_iff.1 (Option.mem_def.1 hc)
  rw [← hrest, hline]
  rfl

lemma moreValues_printMore {separator next : String} {more : List (String × String)}
    (h : AreSeparated ((separator, next) :: more)) :
    moreValues (printMore ((separator, next) :: more)) =
      next :: moreValues (upToLine (printMore more)) := by
  obtain ⟨⟨hseparator, hnext⟩, hmore⟩ := List.forall_mem_cons.1 h
  have htail := hseparator.whenTail?_append hnext (isBare_head_printMore hmore)
  unfold moreValues
  rw [printMore, htail]
  dsimp only
  rw [whenValues_append hnext (head?_upToLine_printMore hmore), String.ofList_toList]
  rfl

/-- All values are read from a line exactly when it is not cut off before the last one's end. -/
lemma moreValues_upToLine_iff {links : List (String × String)} (h : AreSeparated links) :
    moreValues (upToLine (printMore links)) = links.map Prod.snd ↔ '\n' ∉ printMore links := by
  induction links with
  | nil =>
    exact iff_of_true rfl (by simp [printMore])
  | cons link more ih =>
    obtain ⟨separator, next⟩ := link
    obtain ⟨⟨hseparator, hnext⟩, hmore⟩ := List.forall_mem_cons.1 h
    rw [printMore]
    by_cases hline : '\n' ∈ separator.toList
    · -- The line ends between two values, and the next one is not found.
      refine iff_of_false ?_ (by simp [hline])
      rw [upToLine_append_of_mem hline, moreValues, hseparator.whenTail?_upToLine hline]
      simp
    · by_cases hvalue : '\n' ∈ next.toList
      · -- The line ends in a value, which is not read from what is left of it.
        refine iff_of_false ?_ (by simp [hvalue])
        intro hread
        have hmem : next ∈ moreValues
            (upToLine (separator.toList ++ (next.toList ++ printMore more))) := by
          rw [hread]
          simp
        exact not_mem_upToLine _ ((sublist_of_mem_moreValues hmem).subset hvalue)
      · have htail := hseparator.whenTail?_append hnext (head?_upToLine_printMore hmore)
        rw [upToLine_append hline, upToLine_append hvalue, moreValues, htail]
        dsimp only
        rw [upToLine_upToLine, whenValues_append hnext (head?_upToLine_printMore hmore),
          String.ofList_toList, List.map_cons, List.cons.injEq, ih hmore]
        simp [hline, hvalue]

lemma toList_printValues (first : String) (links : List (String × String)) :
    (printValues first links).toList = first.toList ++ printMore links := by
  induction links generalizing first with
  | nil => simp [printValues, printMore]
  | cons link more ih =>
    have hnext := ih link.2
    simp [printValues, printMore, hnext]

lemma not_mem_printMore_iff {c : Char} {links : List (String × String)} :
    c ∉ printMore links ↔ ∀ link ∈ links, c ∉ link.1.toList ∧ c ∉ link.2.toList := by
  induction links with
  | nil => simp [printMore]
  | cons link more ih => simp [printMore, ih, and_assoc]

/-! ### The test of a clause -/

lemma equalsAny_inj {subject first first' : String} {more more' : List String}
    (h : equalsAny subject first more = equalsAny subject first' more') :
    first = first' ∧ more = more' := by
  induction more generalizing first first' more' with
  | nil =>
    cases more' with
    | nil =>
      cases h
      exact ⟨rfl, rfl⟩
    | cons next' more' => cases h
  | cons next more ih =>
    cases more' with
    | nil => cases h
    | cons next' more' =>
      simp only [equalsAny, single, join, compare.injEq, Option.some.injEq, Prod.mk.injEq, true_and]
        at h
      obtain ⟨rfl, rfl⟩ := ih h.2
      exact ⟨h.1, rfl⟩

lemma readWhen_eq_iff {subject markup value : String} {more : List String} :
    readWhen subject markup = .ok (equalsAny subject value more) ↔
      whenValues markup.toList = value :: more := by
  unfold readWhen
  cases whenValues markup.toList with
  | nil => simp
  | cons first rest =>
    rw [Except.ok.injEq, List.cons.injEq]
    constructor
    · exact equalsAny_inj
    · rintro ⟨rfl, rfl⟩
      rfl

lemma evaluate_equalsAny (subject first : String) (more : List String) :
    (equalsAny subject first more).evaluate =
      (first :: more).anyM fun value => compareTokens subject (some "==") (some value) := by
  induction more generalizing first with
  | nil =>
    rw [List.anyM_cons, List.anyM_nil, equalsAny, single, evaluate]
    refine (bind_pure _).symm.trans (bind_congr fun holds => ?_)
    cases holds <;> rfl
  | cons next more ih =>
    rw [List.anyM_cons, equalsAny, single, join, evaluate, ih]

end Condition

namespace OpenBlock

open Condition Text

lemma clause_whenValues_iff (block : OpenBlock) {subject first : String}
    {links : List (String × String)} (hhead : block.head = .case subject)
    (hfirst : IsFragment first.toList) (hlinks : AreSeparated links) (more : List String) :
    block.clause "when" (printValues first links) =
        .ok { block with clauses := (equalsAny subject first more, []) :: block.clauses } ↔
      moreValues (printMore links) = more := by
  have hread := whenValues_append hfirst (isBare_head_printMore hlinks)
  rw [String.ofList_toList, ← toList_printValues] at hread
  have hiff := @readWhen_eq_iff subject (printValues first links) first more
  rw [hread, List.cons.injEq, eq_self, true_and] at hiff
  rw [← hiff, clause, hhead, BlockHead.clause]
  cases readWhen subject (printValues first links) with
  | error e => exact iff_of_false (by rintro ⟨⟩) (by rintro ⟨⟩)
  | ok test =>
    constructor
    · intro hok
      cases hok
      rfl
    · intro hok
      cases hok
      rfl

/-- A `when` clause takes any list of values and reads the first two of them. It reads all of them,
in their order, exactly when no line ends behind the second. The test of all compares the subject
with one value after the other, up to one that it equals. -/
theorem clause_printValues (block : OpenBlock) {subject first : String}
    {links : List (String × String)} (hhead : block.head = .case subject)
    (hfirst : IsFragment first.toList) (hlinks : AreSeparated links) :
    (∃ more, (links.map Prod.snd).take 1 <+: more ∧
      block.clause "when" (printValues first links) =
        .ok { block with clauses := (equalsAny subject first more, []) :: block.clauses }) ∧
    (block.clause "when" (printValues first links) =
        .ok { block with
          clauses := (equalsAny subject first (links.map Prod.snd), []) :: block.clauses } ↔
      ∀ link ∈ links.tail, '\n' ∉ link.1.toList ∧ '\n' ∉ link.2.toList) ∧
    (equalsAny subject first (links.map Prod.snd)).evaluate =
      (first :: links.map Prod.snd).anyM fun value =>
        compareTokens subject (some "==") (some value) := by
  have hclause := clause_whenValues_iff block hhead hfirst hlinks
  refine ⟨?_, ?_, evaluate_equalsAny subject first _⟩
  · refine ⟨moreValues (printMore links), ?_, (hclause _).2 rfl⟩
    cases links with
    | nil => exact List.nil_prefix
    | cons link more =>
      rw [moreValues_printMore hlinks]
      exact ⟨_, rfl⟩
  · rw [hclause]
    cases links with
    | nil => exact iff_of_true rfl (by simp)
    | cons link more =>
      obtain ⟨-, hmore⟩ := List.forall_mem_cons.1 hlinks
      rw [moreValues_printMore hlinks, List.map_cons, List.cons.injEq, eq_self, true_and,
        moreValues_upToLine_iff hmore, not_mem_printMore_iff]
      rfl

/-- Values with ends of lines up to the second one, and with separators inside their quotes. -/
def brokenLinks : List (String × String) :=
  [(" ,\n", "'a\nb, or'"), (" or\t", "c-d"), (",", "\"|'\"")]

lemma areSeparated_brokenLinks : AreSeparated brokenLinks := by
  have hquoted : IsFragment "'a\nb, or'".toList :=
    @IsFragment.quoted '\'' "a\nb, or".toList (by decide) (by decide) (by decide)
  have hbare : IsFragment "c-d".toList := .of_all (by decide) rfl
  have hbar : IsFragment "\"|'\"".toList :=
    @IsFragment.quoted '"' "|'".toList (by decide) (by decide) (by decide)
  have hlines : IsSeparator " ,\n".toList :=
    @IsSeparator.comma [' '] ['\n'] (List.all_eq_true.1 rfl) (List.all_eq_true.1 rfl)
  have hword : IsSeparator " or\t".toList :=
    @IsSeparator.or [' '] ['\t'] (List.all_eq_true.1 rfl) (by decide) (List.all_eq_true.1 rfl)
      (by decide)
  have hcomma : IsSeparator ",".toList := @IsSeparator.comma [] [] (by simp) (by simp)
  exact .cons hlines hquoted (.cons hword hbare (.cons hcomma hbar areSeparated_nil))

theorem clause_printValues_brokenLinks :
    OpenBlock.clause { name := "case", head := .case "x" } "when"
        "1 ,\n'a\nb, or' or\tc-d,\"|'\"" =
      .ok
        { name := "case"
          head := .case "x"
          clauses := [(equalsAny "x" "1" ["'a\nb, or'", "c-d", "\"|'\""], [])] } := by
  have hprint : printValues "1" brokenLinks = "1 ,\n'a\nb, or' or\tc-d,\"|'\"" := by decide
  have hfirst : IsFragment "1".toList := .of_all (by decide) rfl
  rw [← hprint]
  exact (clause_printValues { name := "case", head := .case "x" } rfl hfirst
    areSeparated_brokenLinks).2.1.2 (by decide)

/-- A value on the line behind the second one is lost, and the test does not hold of it. -/
theorem clause_cut_line :
    let s : Session := ⟨Environment.ofLoader (MemoryTemplates.toLoader {}), {}⟩
    AreSeparated [(", ", "2"), (",\n", "3")] ∧ ∃ test,
      OpenBlock.clause { name := "case", head := .case "3" } "when"
          (printValues "1" [(", ", "2"), (",\n", "3")]) =
        .ok { name := "case", head := .case "3", clauses := [(test, [])] } ∧
      (test.evaluate.run s).1 = .ok false ∧
      ((["1", "2", "3"].anyM fun value =>
        compareTokens "3" (some "==") (some value)).run s).1 = .ok true := by
  have hfirst : IsFragment "1".toList := .of_all (by decide) rfl
  have hsecond : IsFragment "2".toList := .of_all (by decide) rfl
  have hthird : IsFragment "3".toList := .of_all (by decide) rfl
  have hcomma : IsSeparator ", ".toList :=
    @IsSeparator.comma [] [' '] (by simp) (List.all_eq_true.1 rfl)
  have hline : IsSeparator ",\n".toList :=
    @IsSeparator.comma [] ['\n'] (by simp) (List.all_eq_true.1 rfl)
  have hlinks : AreSeparated [(", ", "2"), (",\n", "3")] :=
    .cons hcomma hsecond (.cons hline hthird areSeparated_nil)
  have hvalues : whenValues (printValues "1" [(", ", "2"), (",\n", "3")]).toList = ["1", "2"] := by
    rw [toList_printValues, whenValues_append hfirst (isBare_head_printMore hlinks),
      moreValues_printMore hlinks]
    rfl
  refine ⟨hlinks, equalsAny "3" "1" ["2"], ?_, ?_, ?_⟩
  · rw [clause, BlockHead.clause, readWhen_eq_iff.2 hvalues]
    rfl
  · with_unfolding_all rfl
  · with_unfolding_all rfl

end OpenBlock

end Liquid
