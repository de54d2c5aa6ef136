import Liquid.Proofs.Markup.CycleKey
import Liquid.Proofs.Markup.Fragment

/-!
# Group names of `cycle` tags

A `cycle` tag has a group name when a colon stands anywhere in its markup behind a bare character,
blanks between them aside. The search does not heed quotes, and quotes are bare characters, so a
colon in a quoted value makes what stands in front of it the name of a group.
-/

namespace Liquid

open Text

namespace Cycle

/-- A colon stands behind a bare character, blanks between them aside. `behind` says that a bare
character stands in front of the text. -/
def holdsGroup (behind : Bool) : List Char → Bool
  | [] => false
  | c :: cs => c == ':' && behind || holdsGroup (isBare c || isBlank c && behind) cs

section HoldsGroup

variable {behind : Bool} {c : Char} {cs rest : List Char}

lemma holdsGroup_cons_of_ne (hc : c ≠ ':') (cs : List Char) :
    holdsGroup behind (c :: cs) = holdsGroup (isBare c || isBlank c && behind) cs := by
  simp [holdsGroup, hc]

lemma holdsGroup_of_false (h : holdsGroup false cs = true) : holdsGroup behind cs = true := by
  cases behind with
  | false => exact h
  | true =>
    induction cs with
    | nil => cases h
    | cons c cs ih =>
      simp only [holdsGroup, Bool.and_false, Bool.false_or, Bool.or_false, Bool.and_true,
        Bool.or_eq_true] at h ⊢
      right
      cases hbare : isBare c with
      | true => rwa [hbare] at h
      | false =>
        rw [hbare] at h
        cases isBlank c with
        | true => exact ih h
        | false => exact h

lemma holdsGroup_append_blanks {pad : List Char} (hpad : ∀ b ∈ pad, isBlank b = true)
    (rest : List Char) : holdsGroup true (pad ++ ':' :: rest) = true := by
  induction pad with
  | nil => rfl
  | cons b pad ih =>
    obtain ⟨hb, hrest⟩ := List.forall_mem_cons.1 hpad
    have hmore := ih hrest
    simp [holdsGroup, hb, hmore]

lemma holdsGroup_append_bare (hcs : ∀ c ∈ cs, isBare c = true)
    (hrest : holdsGroup true rest = true) : holdsGroup true (cs ++ rest) = true := by
  induction cs with
  | nil => exact hrest
  | cons c cs ih =>
    obtain ⟨hc, hmore⟩ := List.forall_mem_cons.1 hcs
    have hnext := ih hmore
    simp [holdsGroup, hc, hnext]

lemma holdsGroup_append_quote {q : Char} (hq : isQuote q = true) (cs rest : List Char) :
    holdsGroup behind (cs ++ q :: rest) = (holdsGroup behind cs || holdsGroup true rest) := by
  induction cs generalizing behind with
  | nil =>
    have hne : q ≠ ':' := by
      rintro rfl
      exact absurd hq (by decide)
    rw [List.nil_append, holdsGroup_cons_of_ne hne, isBare_of_isQuote hq]
    rfl
  | cons c cs ih => simp [holdsGroup, ih, Bool.or_assoc]

lemma exists_blanks_of_holdsGroup (h : holdsGroup true cs = true)
    (hnone : holdsGroup false cs = false) :
    ∃ pad rest, cs = pad ++ ':' :: rest ∧ ∀ b ∈ pad, isBlank b = true := by
  induction cs with
  | nil => cases h
  | cons c cs ih =>
    by_cases hc : c = ':'
    · exact ⟨[], cs, by rw [hc]; rfl, by simp⟩
    · rw [holdsGroup_cons_of_ne hc] at h hnone
      rw [Bool.and_false, Bool.or_false] at hnone
      cases hbare : isBare c with
      | true =>
        rw [hbare, Bool.true_or] at h
        rw [hbare, h] at hnone
        cases hnone
      | false =>
        cases hblank : isBlank c with
        | true =>
          rw [hbare, hblank] at h
          rw [hbare] at hnone
          obtain ⟨pad, rest, rfl, hpad⟩ := ih h hnone
          exact ⟨c :: pad, rest, rfl, List.forall_mem_cons.2 ⟨hblank, hpad⟩⟩
        | false =>
          rw [hbare, hblank] at h
          rw [hbare] at hnone
          exact absurd (h.symm.trans hnone) (by decide)

end HoldsGroup

/-! ### Finding a group -/

section Found

variable {cs token rest before after values : List Char}

lemma exists_of_afterColon? (h : afterColon? cs = some values) :
    ∃ pad rest, cs = pad ++ ':' :: rest ∧ ∀ b ∈ pad, isBlank b = true := by
  unfold afterColon? at h
  split at h
  · rename_i rest heq
    refine ⟨cs.takeWhile isBlank, rest, ?_, fun b hb => List.mem_takeWhile_imp hb⟩
    rw [← heq]
    exact List.takeWhile_append_dropWhile.symm
  · cases h

lemma afterColon?_append {pad : List Char} (hpad : ∀ b ∈ pad, isBlank b = true) (rest : List Char) :
    afterColon? (pad ++ ':' :: rest) = some (dropBlanks rest) := by
  have hcolon : isBlank ':' = false := by decide
  have hdrop : dropBlanks (pad ++ ':' :: rest) = ':' :: rest :=
    dropBlanks_append hpad (by simpa using hcolon)
  simp only [afterColon?, hdrop]

lemma splitAtColon?_eq_some (h : splitAtColon? cs = some (before, after)) :
    ∃ c front, before = c :: front ∧ cs = c :: (front ++ ':' :: after) := by
  fun_induction splitAtColon? cs generalizing before with
  | case1 => cases h
  | case2 c cs front tail hfound ih =>
    cases h
    obtain ⟨d, more, rfl, rfl⟩ := ih hfound
    exact ⟨c, d :: more, rfl, rfl⟩
  | case3 c tail hnone =>
    cases h
    exact ⟨c, [], rfl, rfl⟩
  | case4 => cases h

lemma isSome_splitAtColon? (c : Char) (cs : List Char) :
    (splitAtColon? (c :: ':' :: cs)).isSome = true := by
  rw [splitAtColon?]
  split <;> rfl

lemma splitAtColon?_concat (h : cs ≠ []) : splitAtColon? (cs ++ [':']) = some (cs, []) := by
  induction cs with
  | nil => exact absurd rfl h
  | cons c cs ih =>
    cases cs with
    | nil => rfl
    | cons d ds =>
      have hnext := ih (List.cons_ne_nil d ds)
      rw [List.cons_append, splitAtColon?.eq_def]
      dsimp only
      rw [hnext]

lemma exists_of_isSome_quotedGroup? (h : (quotedGroup? cs).isSome = true) :
    ∃ token rest, quoted.run cs = some (token, rest) ∧ (afterColon? rest).isSome = true := by
  unfold quotedGroup? at h
  cases hrun : quoted.run cs with
  | none =>
    rw [hrun] at h
    cases h
  | some found =>
    rw [hrun] at h
    refine ⟨found.1, found.2, rfl, ?_⟩
    cases hafter : afterColon? found.2 with
    | none => simp [hafter] at h
    | some values => rfl

lemma bareGroup?_of_not_bare {c : Char} (hc : isBare c = false) (cs : List Char) :
    bareGroup? (c :: cs) = none := by
  simp [bareGroup?, bare, run, hc]

lemma isSome_bareGroup?_cons {c : Char} (hc : isBare c = true) (cs : List Char) :
    (bareGroup? (c :: cs)).isSome = ((afterColon? (cs.dropWhile isBare)).isSome ||
      (splitAtColon? (c :: cs.takeWhile isBare)).isSome) := by
  have hrun : bare.run (c :: cs) = some (c :: cs.takeWhile isBare, cs.dropWhile isBare) := by
    simp [bare, run, hc]
  simp only [bareGroup?, hrun, Option.bind_eq_bind, Option.bind_some]
  cases afterColon? (cs.dropWhile isBare) with
  | some values => rfl
  | none => cases splitAtColon? (c :: cs.takeWhile isBare) <;> rfl

lemma holdsGroup_of_bareGroup? {c : Char} (h : (bareGroup? (c :: cs)).isSome = true) :
    isBare c = true ∧ holdsGroup true cs = true := by
  have hc : isBare c = true := by
    by_contra hc
    rw [bareGroup?_of_not_bare (Bool.eq_false_iff.2 hc)] at h
    cases h
  have hall : ∀ d ∈ cs.takeWhile isBare, isBare d = true := fun d hd => List.mem_takeWhile_imp hd
  have hcs : cs.takeWhile isBare ++ cs.dropWhile isBare = cs := List.takeWhile_append_dropWhile
  refine ⟨hc, ?_⟩
  rw [isSome_bareGroup?_cons hc, Bool.or_eq_true, Option.isSome_iff_exists,
    Option.isSome_iff_exists] at h
  rcases h with ⟨values, hafter⟩ | ⟨⟨before, after⟩, hsplit⟩
  · obtain ⟨pad, rest, hrest, hpad⟩ := exists_of_afterColon? hafter
    rw [← hcs, hrest]
    exact holdsGroup_append_bare hall (holdsGroup_append_blanks hpad rest)
  · obtain ⟨d, front, -, hfront⟩ := splitAtColon?_eq_some hsplit
    obtain ⟨rfl, htake⟩ := List.cons.inj hfront
    rw [htake] at hall
    rw [← hcs, htake, List.append_assoc]
    exact holdsGroup_append_bare (fun d hd => hall d (List.mem_append_left _ hd))
      (@holdsGroup_append_blanks [] (by simp) _)

lemma holdsGroup_of_quotedGroup? {c : Char} (h : (quotedGroup? (c :: cs)).isSome = true) :
    isBare c = true ∧ holdsGroup true cs = true := by
  obtain ⟨token, rest, hrun, hafter⟩ := exists_of_isSome_quotedGroup? h
  obtain ⟨values, hvalues⟩ := Option.isSome_iff_exists.1 hafter
  obtain ⟨pad, tail, rfl, hpad⟩ := exists_of_afterColon? hvalues
  obtain ⟨q, inner, hq, -, -, heq⟩ := exists_of_run_quoted hrun
  rw [List.cons_append] at heq
  obtain ⟨rfl, rfl⟩ := List.cons.inj heq
  rw [holdsGroup_append_quote hq, holdsGroup_append_blanks hpad, Bool.or_true]
  exact ⟨isBare_of_isQuote hq, rfl⟩

lemma isSome_bareGroup? {c : Char} (hc : isBare c = true) {pad : List Char}
    (hpad : ∀ b ∈ pad, isBlank b = true) (rest : List Char) :
    (bareGroup? (c :: (pad ++ ':' :: rest))).isSome = true := by
  rw [isSome_bareGroup?_cons hc, Bool.or_eq_true]
  cases pad with
  | nil =>
    have hcolon : isBare ':' = true := by decide
    rw [List.nil_append, List.takeWhile_cons_of_pos hcolon]
    exact .inr (isSome_splitAtColon? c _)
  | cons b pad =>
    have hb : isBare b = false := isBare_of_isBlank (hpad b (by simp))
    have hrest : (b :: pad ++ ':' :: rest).dropWhile isBare = b :: pad ++ ':' :: rest :=
      List.dropWhile_cons_of_neg (by simp [hb])
    rw [hrest, afterColon?_append hpad]
    exact .inl rfl

/-- A group is found exactly where a colon stands behind a bare character. -/
theorem isSome_group? (cs : List Char) : (group? cs).isSome = holdsGroup false cs := by
  induction cs with
  | nil => rfl
  | cons c cs ih =>
    have hrest : holdsGroup false (c :: cs) = holdsGroup (isBare c) cs := by simp [holdsGroup]
    rw [group?, Option.isSome_or, Option.isSome_or, ih, hrest, Bool.eq_iff_iff]
    simp only [Bool.or_eq_true]
    constructor
    · rintro ((hquoted | hbare) | hlater)
      · obtain ⟨hc, hholds⟩ := holdsGroup_of_quotedGroup? hquoted
        rwa [hc]
      · obtain ⟨hc, hholds⟩ := holdsGroup_of_bareGroup? hbare
        rwa [hc]
      · exact holdsGroup_of_false hlater
    · intro hholds
      cases hlater : holdsGroup false cs with
      | true => exact .inr rfl
      | false =>
        cases hc : isBare c with
        | false =>
          rw [hc, hlater] at hholds
          cases hholds
        | true =>
          rw [hc] at hholds
          obtain ⟨pad, rest, rfl, hpad⟩ := exists_blanks_of_holdsGroup hholds hlater
          exact .inl (.inr (isSome_bareGroup? hc hpad rest))

end Found

/-! ### Quoted values -/

def quote (s : String) : String := "'" ++ s ++ "'"

/-- The source of quoted values, with commas between them. -/
def printQuoted (strings : List String) : String := ", ".intercalate (strings.map quote)

/-- The texts are not empty, and no quotes stand in them. -/
def AreQuotable (strings : List String) : Prop :=
  ∀ s ∈ strings, s ≠ "" ∧ ∀ c ∈ s.toList, isQuote c = false

def ofQuoted (group : CycleGroup) (strings : List String) (h : strings ≠ []) : Cycle :=
  ⟨group, strings.map quote, by simpa using h⟩

section Quoted

variable {s next : String} {more strings : List String}

lemma toList_quote (s : String) : (quote s).toList = '\'' :: (s.toList ++ ['\'']) := by
  simp [quote]

lemma isFragment_quote (hne : s ≠ "") (hs : ∀ c ∈ s.toList, isQuote c = false) :
    IsFragment (quote s).toList := by
  rw [toList_quote]
  refine .quoted (by decide) (by simpa using hne) fun hmem => ?_
  exact absurd (hs _ hmem) (by decide)

lemma toList_printQuoted_singleton (s : String) : (printQuoted [s]).toList = (quote s).toList := by
  simp [printQuoted]

lemma toList_printQuoted_cons (s next : String) (more : List String) :
    (printQuoted (s :: next :: more)).toList =
      (quote s).toList ++ ',' :: ' ' :: (printQuoted (next :: more)).toList := by
  unfold printQuoted
  rw [List.map_cons, List.map_cons, String.toList_intercalate, String.toList_intercalate,
    List.map_cons, List.map_cons, List.intercalate_cons_cons]
  simp

lemma exists_toList_printQuoted (h : strings ≠ []) :
    ∃ tail, (printQuoted strings).toList = '\'' :: tail := by
  obtain ⟨s, rest, rfl⟩ := List.exists_cons_of_ne_nil h
  cases rest with
  | nil => exact ⟨_, (toList_printQuoted_singleton s).trans (toList_quote s)⟩
  | cons next more =>
    rw [toList_printQuoted_cons, toList_quote]
    exact ⟨_, rfl⟩

lemma valuesIn_printQuoted (h : AreQuotable strings) :
    valuesIn (printQuoted strings).toList = strings.map quote := by
  induction strings with
  | nil => simp [printQuoted, valuesIn, Pattern.findAll]
  | cons s rest ih =>
    obtain ⟨⟨hne, hs⟩, hrest⟩ := List.forall_mem_cons.1 h
    have hquote := isFragment_quote hne hs
    have hfull : (quote s).toList ≠ [] := by simp [toList_quote]
    unfold valuesIn at ih ⊢
    cases rest with
    | nil =>
      have hrun := @IsFragment.run_append _ [] hquote (by simp)
      rw [List.append_nil] at hrun
      rw [toList_printQuoted_singleton, Pattern.findAll_of_run hrun hfull]
      simp [Pattern.findAll]
    | cons next more =>
      have hcomma : isBare ',' = false := by decide
      have hrun := @IsFragment.run_append _ (',' :: ' ' :: (printQuoted (next :: more)).toList)
        hquote (by simpa using hcomma)
      have hskip {c : Char} (hbare : isBare c = false) (hc : isQuote c = false) (cs : List Char) :
          fragment.findAll (c :: cs) = fragment.findAll cs := by
        apply Pattern.findAll_of_run_none
        simp [fragment, Pattern.orElse, quoted, quotedWith, bare, run, hbare, hc]
      rw [toList_printQuoted_cons, Pattern.findAll_of_run hrun (by simp [hfull]),
        hskip hcomma (by decide), hskip (by decide) (by decide), List.map_cons, ih hrest,
        String.ofList_toList]
      rfl

lemma holdsGroup_printQuoted (strings : List String) (behind : Bool) :
    holdsGroup behind (printQuoted strings).toList =
      strings.any fun s => holdsGroup true s.toList := by
  have hquote {behind : Bool} (s : String) (rest : List Char) :
      holdsGroup behind ((quote s).toList ++ rest) =
        (holdsGroup true s.toList || holdsGroup true rest) := by
    have hq : isQuote '\'' = true := by decide
    have hfirst := @holdsGroup_append_quote behind '\'' hq [] (s.toList ++ '\'' :: rest)
    have hsecond := @holdsGroup_append_quote true '\'' hq s.toList rest
    rw [List.nil_append] at hfirst
    rw [toList_quote, List.cons_append, List.append_assoc, List.singleton_append, hfirst, hsecond]
    rfl
  induction strings generalizing behind with
  | nil => rfl
  | cons s rest ih =>
    cases rest with
    | nil =>
      have hlast := @hquote behind s []
      rw [List.append_nil] at hlast
      rw [toList_printQuoted_singleton, hlast]
      rfl
    | cons next more =>
      have hspace : holdsGroup true (',' :: ' ' :: (printQuoted (next :: more)).toList) =
          holdsGroup false (printQuoted (next :: more)).toList := by
        rw [holdsGroup_cons_of_ne (by decide), holdsGroup_cons_of_ne (by decide)]
        rfl
      rw [toList_printQuoted_cons, hquote, hspace, ih]
      rfl

end Quoted

/-! ### Reading -/

section Read

variable {markup : String} {values : List String} {token text : List Char}

lemma read_of_group?_none (hgroup : group? markup.toList = none)
    (hvalues : valuesIn markup.toList = values) (hne : values ≠ []) :
    read markup = .ok ⟨.values (valuesKey values), values, hne⟩ := by
  subst hvalues
  simp only [read, hgroup]
  rw [dif_pos hne]

lemma read_of_group?_some (hgroup : group? markup.toList = some (token, text))
    (hvalues : valuesIn text = values) (hne : values ≠ []) :
    read markup = .ok ⟨.named (String.ofList token), values, hne⟩ := by
  subst hvalues
  simp only [read, hgroup]
  rw [dif_pos hne]

lemma read_printQuoted_iff {strings : List String} (hne : strings ≠ [])
    (h : AreQuotable strings) :
    read (printQuoted strings) =
        .ok (ofQuoted (.values (valuesKey (strings.map quote))) strings hne) ↔
      ∀ s ∈ strings, holdsGroup true s.toList = false := by
  have hgroup := isSome_group? (printQuoted strings).toList
  rw [holdsGroup_printQuoted] at hgroup
  constructor
  · intro hread s hs
    by_contra hholds
    have hany : (strings.any fun s => holdsGroup true s.toList) = true :=
      List.any_eq_true.2 ⟨s, hs, eq_true_of_ne_false hholds⟩
    obtain ⟨⟨token, text⟩, hfound⟩ := Option.isSome_iff_exists.1 (hgroup.trans hany)
    unfold read at hread
    rw [hfound] at hread
    dsimp only at hread
    split_ifs at hread
    cases hread
  · intro hnone
    have hany : (strings.any fun s => holdsGroup true s.toList) = false :=
      List.any_eq_false.2 fun s hs => by simp [hnone s hs]
    have hfound : group? (printQuoted strings).toList = none :=
      Option.isNone_iff_eq_none.1 (Option.isSome_eq_false_iff.1 (hgroup.trans hany))
    exact read_of_group?_none hfound (valuesIn_printQuoted h) _

lemma read_named_printQuoted {strings : List String} (hne : strings ≠ []) (h : AreQuotable strings)
    {name : String} (hname : name ≠ "") (hword : ∀ c ∈ name.toList, isWord c = true) :
    read (name ++ ": " ++ printQuoted strings) = .ok (ofQuoted (.named name) strings hne) := by
  obtain ⟨tail, htail⟩ := exists_toList_printQuoted hne
  obtain ⟨c, cs, hcs⟩ := List.exists_cons_of_ne_nil (show name.toList ≠ [] by simpa using hname)
  have hbare : ∀ d ∈ name.toList ++ [':'], isBare d = true := by
    intro d hd
    rcases List.mem_append.1 hd with hd | hd
    · exact (isBare_of_isWord (hword d hd)).1
    · obtain rfl := List.mem_singleton.1 hd
      decide
  have hrun : bare.run (name.toList ++ [':'] ++ ' ' :: '\'' :: tail) =
      some (name.toList ++ [':'], ' ' :: '\'' :: tail) :=
    run_append (by simp) hbare (by simp [isBare, isBlank_space])
  have hafter : afterColon? (' ' :: '\'' :: tail) = none := rfl
  have hsplit := splitAtColon?_concat (show name.toList ≠ [] by simpa using hname)
  have hfound : bareGroup? (name.toList ++ [':'] ++ ' ' :: '\'' :: tail) =
      some (name.toList, '\'' :: tail) := by
    simp only [bareGroup?, hrun, hafter, hsplit, Option.bind_eq_bind, Option.bind_some]
    rfl
  have hquoted : quotedGroup? (name.toList ++ [':'] ++ ' ' :: '\'' :: tail) = none := by
    have hquote : isQuote c = false := (isBare_of_isWord (hword c (by simp [hcs]))).2
    simp [hcs, quotedGroup?, quoted, quotedWith, hquote]
  have hgroup : group? (name ++ ": " ++ printQuoted strings).toList =
      some (name.toList, '\'' :: tail) := by
    have hmarkup : (name ++ ": " ++ printQuoted strings).toList =
        name.toList ++ [':'] ++ ' ' :: '\'' :: tail := by simp [htail]
    rw [hmarkup]
    rw [hcs] at hfound hquoted ⊢
    exact Option.or_eq_some_iff.2 (.inl (Option.or_eq_some_iff.2 (.inr ⟨hquoted, hfound⟩)))
  have hvalues := valuesIn_printQuoted h
  rw [htail] at hvalues
  have hread := read_of_group?_some hgroup hvalues (by simpa using hne)
  rwa [String.ofList_toList] at hread

end Read

end Cycle

end Liquid
