import Liquid.Markup.Tag
import Liquid.Proofs.Markup.Fragment

/-!
# Attributes behind a text

Attributes are written as words with colons and values, behind separators. The search for them goes
over a whole text and does not heed quotes: behind a text that ends in a bare character it finds
them exactly when no colon of that text has a value behind it.
-/

namespace Liquid

open Text

/-- A colon stands in front of a bare character, blanks between them aside. -/
def holdsAttribute : List Char → Bool
  | [] => false
  | c :: cs => c == ':' && (dropBlanks cs).head?.any isBare || holdsAttribute cs

/-- The text may follow a value: it starts with no bare character, and it does not make a word in
front of it a key. -/
structure SetsOff (cs : List Char) : Prop where
  head : ∀ c ∈ cs.head?, isBare c = false
  next : ∀ c ∈ (dropBlanks cs).head?, c ≠ ':'

section Search

variable {front tail rest cs : List Char} {last : Char}

lemma holdsAttribute_append (front : List Char) (h : holdsAttribute cs = true) :
    holdsAttribute (front ++ cs) = true := by
  induction front with
  | nil => exact h
  | cons c front ih => simp [holdsAttribute, ih]

lemma holdsAttribute_colon (h : (dropBlanks cs).head?.any isBare = true) :
    holdsAttribute (':' :: cs) = true := by
  simp [holdsAttribute, h]

lemma SetsOff.isWord_head (h : SetsOff cs) : ∀ c ∈ cs.head?, isWord c = false := by
  intro c hc
  rw [Bool.eq_false_iff]
  intro hword
  have hbare := h.head c hc
  rw [(isBare_of_isWord hword).1] at hbare
  cases hbare

lemma exists_colon_of_run (hlast : isBare last = true) (hcolon : last ≠ ':') (htail : SetsOff tail)
    {found : String × String}
    (h : attributePattern.run (front ++ last :: tail) = some (found, rest)) :
    ∃ before pad after, front = before ++ ':' :: (pad ++ after) ∧
      (∀ tail, dropBlanks (pad ++ (after ++ last :: tail)) = after ++ last :: tail) ∧
      fragment.run (after ++ last :: tail) = some (found.2.toList, rest) := by
  simp only [attributePattern] at h
  split at h
  · rename_i behind heq
    obtain ⟨m, hm, hfound⟩ := Option.map_eq_some_iff.1 h
    cases hfound
    rcases exists_dropWhile isWord front last with hall | ⟨word, after, rfl, hword⟩
    · have hdrop := (takeWhile_append_of_stop hall htail.isWord_head).2
      rw [List.append_assoc, List.singleton_append] at hdrop
      rw [hdrop] at heq
      exact absurd rfl (htail.next ':' (by simp [heq]))
    · obtain ⟨blanks, more, rfl, hblanks⟩ := exists_dropBlanks hlast after
      rw [hword, hblanks] at heq
      cases more with
      | nil => exact absurd (List.cons.inj heq).1 hcolon
      | cons c more =>
        rw [List.cons_append] at heq
        obtain ⟨rfl, rfl⟩ := List.cons.inj heq
        obtain ⟨pad, value, rfl, hpad⟩ := exists_dropBlanks hlast more
        have hpad' : ∀ tail, dropBlanks (pad ++ (value ++ last :: tail)) = value ++ last :: tail :=
          fun tail => by rw [← List.append_assoc, hpad]
        refine ⟨word ++ blanks, pad, value, by simp, hpad', ?_⟩
        rw [← hpad tail, hm, String.toList_ofList]
  · cases h

lemma run_colon_ne_none (hlast : isBare last = true)
    (h : (dropBlanks (front ++ [last])).head?.any isBare = true) (tail : List Char) :
    attributePattern.run (':' :: (front ++ last :: tail)) ≠ none := by
  have hword : isWord ':' = false := by decide
  have hblank : isBlank ':' = false := by decide
  obtain ⟨pad, after, rfl, hpad⟩ := exists_dropBlanks hlast front
  have hmark : dropBlanks ((':' :: (pad ++ after ++ last :: tail)).dropWhile isWord) =
      ':' :: (pad ++ after ++ last :: tail) := by
    simp [dropBlanks, hword, hblank]
  simp only [attributePattern, hmark, hpad]
  rw [hpad] at h
  rw [Ne, Option.map_eq_none_iff, run_fragment_eq_none_iff]
  cases after <;> simpa using h

lemma findAll_of_not_holds (hlast : isBare last = true) (hcolon : last ≠ ':')
    (htail : SetsOff tail) (h : holdsAttribute (front ++ [last]) = false) :
    attributePattern.findAll (front ++ last :: tail) = attributePattern.findAll tail := by
  have hnone {front : List Char} (h : holdsAttribute (front ++ [last]) = false) :
      attributePattern.run (front ++ last :: tail) = none := by
    rw [Option.eq_none_iff_forall_ne_some]
    rintro ⟨found, rest⟩ hrun
    obtain ⟨before, pad, after, rfl, hpad, hvalue⟩ := exists_colon_of_run hlast hcolon htail hrun
    cases hbare : (after ++ [last]).head?.any isBare with
    | true =>
      have hholds : holdsAttribute (':' :: (pad ++ (after ++ [last]))) = true :=
        holdsAttribute_colon (by rwa [hpad])
      have hfront := holdsAttribute_append before hholds
      rw [List.append_assoc, List.cons_append, List.append_assoc, hfront] at h
      cases h
    | false =>
      have hnone : fragment.run (after ++ last :: tail) = none :=
        run_fragment_eq_none_iff.2 (by cases after <;> simpa using hbare)
      rw [hnone] at hvalue
      cases hvalue
  induction front with
  | nil => exact Pattern.findAll_of_run_none (@hnone [] h)
  | cons c front ih =>
    have hrest : holdsAttribute (front ++ [last]) = false := by
      rw [List.cons_append, holdsAttribute, Bool.or_eq_false_iff] at h
      exact h.2
    rw [← ih hrest]
    exact Pattern.findAll_of_run_none (hnone h)

lemma dropBlanks_gap {gap : List Char} (hgap : ∀ c ∈ gap, isBlank c = true ∨ c = ',')
    (hcs : ∀ c ∈ cs.head?, isBlank c = false) :
    (dropBlanks (gap ++ cs)).head? = some ',' ∨ dropBlanks (gap ++ cs) = cs := by
  induction gap with
  | nil => exact .inr (@dropBlanks_append [] cs (by simp) hcs)
  | cons b gap ih =>
    obtain ⟨hb, hmore⟩ := List.forall_mem_cons.1 hgap
    rcases hb with hblank | rfl
    · have hdrop : dropBlanks (b :: gap ++ cs) = dropBlanks (gap ++ cs) :=
        List.dropWhile_cons_of_pos hblank
      rw [hdrop]
      exact ih hmore
    · have hcomma : isBlank ',' = false := by decide
      have hdrop : dropBlanks (',' :: gap ++ cs) = ',' :: gap ++ cs :=
        List.dropWhile_cons_of_neg (by simp [hcomma])
      exact .inl (by rw [hdrop]; rfl)

lemma SetsOff.gap {gap : List Char} (hne : gap ≠ [])
    (hgap : ∀ c ∈ gap, isBlank c = true ∨ c = ',')
    (hcs : ∀ c ∈ cs.head?, isBlank c = false ∧ c ≠ ':') : SetsOff (gap ++ cs) := by
  constructor
  · obtain ⟨b, gap, rfl⟩ := List.exists_cons_of_ne_nil hne
    have hb : isBare b = false := by
      rcases hgap b (by simp) with hblank | rfl
      · exact isBare_of_isBlank hblank
      · decide
    simpa using hb
  · rcases dropBlanks_gap hgap fun c hc => (hcs c hc).1 with hcomma | hdrop
    · simp [hcomma]
    · rw [hdrop]
      exact fun c hc => (hcs c hc).2

lemma SetsOff.run_attribute (h : SetsOff cs) : attributePattern.run cs = none := by
  have hdrop := (@takeWhile_append_of_stop isWord [] cs (by simp) h.isWord_head).2
  rw [List.nil_append] at hdrop
  simp only [attributePattern, hdrop]
  split
  · rename_i behind heq
    exact absurd rfl (h.next ':' (by simp [heq]))
  · rfl

lemma findAll_gap {gap : List Char} (hgap : ∀ c ∈ gap, isBlank c = true ∨ c = ',')
    (hcs : ∀ c ∈ cs.head?, isBlank c = false ∧ c ≠ ':') :
    attributePattern.findAll (gap ++ cs) = attributePattern.findAll cs := by
  induction gap with
  | nil => rfl
  | cons b gap ih =>
    have hnone := (SetsOff.gap (List.cons_ne_nil b gap) hgap hcs).run_attribute
    rw [List.cons_append] at hnone ⊢
    rw [Pattern.findAll_of_run_none hnone, ih (List.forall_mem_cons.1 hgap).2]

lemma run_fragment_cases (htail : SetsOff tail) {found : List Char}
    (h : fragment.run (front ++ last :: tail) = some (found, rest)) :
    rest = tail ∨ (∃ after, rest = after ++ last :: tail ∧ after <:+ front) ∨
      ∃ q inner inside, isQuote q = true ∧ found = q :: (inner ++ [q]) ∧ q ∉ inner ∧
        inside <:+ inner ∧ tail = inside ++ q :: rest := by
  rcases Option.or_eq_some_iff.1 h with hquoted | ⟨-, hbare⟩
  · obtain ⟨q, inner, hq, rfl, hinner, heq⟩ := exists_of_run_quoted hquoted
    rw [← List.singleton_append, ← List.append_assoc] at heq
    rcases exists_of_append_eq heq with ⟨inside, hcs, rfl⟩ | ⟨behind, hfront, rfl⟩
    · refine .inr (.inr ⟨q, inner, inside, hq, rfl, hinner, ?_, rfl⟩)
      cases front with
      | nil => exact ⟨[], (List.cons.inj hcs).2.symm⟩
      | cons c front => exact ⟨front ++ [last], (List.cons.inj hcs).2.symm⟩
    · rcases List.eq_nil_or_concat behind with rfl | ⟨after, c, rfl⟩
      · exact .inl rfl
      · rw [List.concat_eq_append, ← List.cons_append, ← List.append_assoc] at hfront
        obtain ⟨rfl, hlast⟩ := List.append_inj' hfront rfl
        obtain rfl := List.singleton_inj.1 hlast
        exact .inr (.inl ⟨after, by simp, ⟨q :: (inner ++ [q]), by simp⟩⟩)
  · simp only [bare, run] at hbare
    split at hbare
    · cases hbare
    · cases hbare
      rcases exists_dropWhile isBare front last with hall | ⟨before, after, rfl, hdrop⟩
      · have hdrop := (takeWhile_append_of_stop hall htail.head).2
        rw [List.append_assoc, List.singleton_append] at hdrop
        exact .inl hdrop
      · exact .inr (.inl ⟨after, hdrop tail, List.suffix_append before after⟩)

end Search

/-- An attribute as it is written: separators, a word and a colon, and a value behind blanks. -/
structure WrittenAttribute where
  gap : List Char
  key : String
  pad : List Char
  value : String
  gap_ne : gap ≠ []
  gap_separates : ∀ c ∈ gap, isBlank c = true ∨ c = ','
  key_ne : key ≠ ""
  key_word : ∀ c ∈ key.toList, isWord c = true
  pad_blank : ∀ c ∈ pad, isBlank c = true
  value_token : IsTerm value.toList ∨ IsToken value.toList

namespace WrittenAttribute

/-- What stands in front of the value. -/
def lead (a : WrittenAttribute) : List Char := a.gap ++ (a.key.toList ++ ':' :: a.pad)

def source (a : WrittenAttribute) : List Char := a.lead ++ a.value.toList

def pair (a : WrittenAttribute) : String × String := (a.key, a.value)

variable (a : WrittenAttribute) {as : List WrittenAttribute} {rest : List Char}

lemma exists_key : ∃ c cs, a.key.toList = c :: cs ∧ isWord c = true := by
  have hne : a.key.toList ≠ [] := by simpa using a.key_ne
  obtain ⟨c, cs, hkey⟩ := List.exists_cons_of_ne_nil hne
  exact ⟨c, cs, hkey, a.key_word c (by simp [hkey])⟩

lemma value_head (rest : List Char) :
    ∀ c ∈ (a.value.toList ++ rest).head?, isBlank c = false :=
  a.value_token.elim (fun h => h.isBlank_head rest) fun h => h.isBlank_head rest

lemma run_value (hrest : ∀ c ∈ rest.head?, isBare c = false) :
    fragment.run (a.value.toList ++ rest) = some (a.value.toList, rest) :=
  a.value_token.elim (fun h => h.run_fragment hrest) fun h => h.run_fragment hrest

lemma exists_last_value {q : Char} (hq : isQuote q = true) (hmem : q ∈ a.value.toList) :
    ∃ front last, a.value.toList = front ++ [last] ∧ isBare last = true ∧ last ≠ ':' := by
  rcases a.value_token with hterm | htoken
  · obtain ⟨z, inner, hz, hvalue⟩ := hterm.exists_quotes hq hmem
    exact ⟨z :: inner, z, hvalue, isBare_of_isQuote hz, ne_colon_of_isQuote hz⟩
  · exact htoken.exists_last

lemma isQuote_lead : ∀ c ∈ a.lead, isQuote c = false := by
  have hcomma : isQuote ',' = false := by decide
  have hcolon : isQuote ':' = false := by decide
  intro c hc
  simp only [lead, List.mem_append, List.mem_cons] at hc
  rcases hc with hgap | hkey | rfl | hpad
  · rcases a.gap_separates c hgap with hblank | rfl
    · exact isQuote_of_isBlank hblank
    · exact hcomma
  · exact (isBare_of_isWord (a.key_word c hkey)).2
  · exact hcolon
  · exact isQuote_of_isBlank (a.pad_blank c hpad)

lemma key_head (rest : List Char) :
    ∀ c ∈ (a.key.toList ++ rest).head?, isBlank c = false ∧ c ≠ ':' := by
  obtain ⟨c, cs, hkey, hc⟩ := a.exists_key
  have hcolon : isWord ':' = false := by decide
  have hne : c ≠ ':' := by
    rintro rfl
    rw [hc] at hcolon
    cases hcolon
  simpa [hkey] using ⟨isBlank_of_isWord hc, hne⟩

lemma source_append (rest : List Char) : a.source ++ rest =
    a.gap ++ (a.key.toList ++ ':' :: (a.pad ++ (a.value.toList ++ rest))) := by
  simp [source, lead]

lemma setsOff_sources (as : List WrittenAttribute) : SetsOff (as.flatMap source) := by
  cases as with
  | nil => exact ⟨by simp, by simp [dropBlanks]⟩
  | cons a as =>
    rw [List.flatMap_cons, source_append]
    exact .gap a.gap_ne a.gap_separates (a.key_head _)

lemma run_source (hrest : ∀ c ∈ rest.head?, isBare c = false) :
    attributePattern.run (a.key.toList ++ ':' :: (a.pad ++ (a.value.toList ++ rest))) =
      some (a.pair, rest) := by
  have hcolon : isWord ':' = false := by decide
  have hblank : isBlank ':' = false := by decide
  obtain ⟨htake, hdrop⟩ := @takeWhile_append_of_stop isWord a.key.toList
    (':' :: (a.pad ++ (a.value.toList ++ rest))) a.key_word (by simpa using hcolon)
  have hmark : dropBlanks (':' :: (a.pad ++ (a.value.toList ++ rest))) =
      ':' :: (a.pad ++ (a.value.toList ++ rest)) := List.dropWhile_cons_of_neg (by simp [hblank])
  have hpad := dropBlanks_append a.pad_blank (a.value_head rest)
  simp only [attributePattern, htake, hdrop, hmark, hpad, a.run_value hrest,
    Option.map_some, String.ofList_toList]
  rfl

/-- The attributes found in what is written of them are those attributes. -/
lemma findAll_sources (as : List WrittenAttribute) :
    attributePattern.findAll (as.flatMap source) = as.map pair := by
  induction as with
  | nil => simp [Pattern.findAll]
  | cons a as ih =>
    have hne : a.key.toList ++ ':' :: (a.pad ++ (a.value.toList ++ as.flatMap source)) ≠ [] := by
      simp
    rw [List.flatMap_cons, source_append, findAll_gap a.gap_separates (a.key_head _),
      Pattern.findAll_of_run (a.run_source (setsOff_sources as).head) hne, ih, List.map_cons]

lemma eq_of_findAll_sources {later : List WrittenAttribute} (hlater : later <:+ as)
    (h : attributePattern.findAll (as.flatMap source) = later.map pair) : later = as := by
  rw [findAll_sources] at h
  have hlength := congrArg List.length h
  rw [List.length_map, List.length_map] at hlength
  exact hlater.eq_of_length hlength.symm

lemma exists_value_of_quote {q : Char} (hq : isQuote q = true) {inside : List Char}
    (h : as.flatMap source = inside ++ q :: rest) :
    ∃ front a back before after, as = front ++ a :: back ∧ a.value.toList = before ++ q :: after ∧
      inside = front.flatMap source ++ (a.lead ++ before) ∧
      rest = after ++ back.flatMap source := by
  induction as generalizing inside with
  | nil => simp at h
  | cons a as ih =>
    rw [List.flatMap_cons] at h
    rcases exists_of_append_eq h with ⟨more, rfl, hmore⟩ | ⟨after, hsource, rfl⟩
    · obtain ⟨front, b, back, before, after, rfl, hvalue, rfl, rfl⟩ := ih hmore
      exact ⟨a :: front, b, back, before, after, rfl, hvalue, by simp, rfl⟩
    · rcases exists_of_append_eq hsource with ⟨before, rfl, hvalue⟩ | ⟨more, hlead, -⟩
      · exact ⟨[], a, as, before, after, rfl, hvalue, rfl, rfl⟩
      · have hnone := a.isQuote_lead q (by simp [hlead])
        rw [hq] at hnone
        cases hnone

lemma holdsAttribute_lead {q : Char} (hq : isQuote q = true) :
    holdsAttribute (a.lead ++ [q]) = true := by
  have hdrop : dropBlanks (a.pad ++ [q]) = [q] :=
    dropBlanks_append a.pad_blank (by simpa using isBlank_of_isQuote hq)
  have hcolon : holdsAttribute (':' :: (a.pad ++ [q])) = true :=
    holdsAttribute_colon (by rw [hdrop]; simpa using isBare_of_isQuote hq)
  have happend := holdsAttribute_append (a.gap ++ a.key.toList) hcolon
  simpa [lead] using happend

/-- A value that reaches from the front into the attributes leaves a text behind it in which the
search finds too much or too little. -/
lemma exists_of_swallowed {later : List WrittenAttribute} {q : Char} {inner inside : List Char}
    (hq : isQuote q = true) (hinner : q ∉ inner) (hinside : inside <:+ inner)
    (has : as.flatMap source = inside ++ q :: rest) (hlater : a :: later <:+ as)
    (hvalue : a.value.toList = q :: (inner ++ [q]))
    (hrest : attributePattern.findAll rest = later.map pair) :
    ∃ front last back, rest = front ++ last :: back.flatMap source ∧ isBare last = true ∧
      last ≠ ':' ∧ later <:+ back ∧ (later = back → holdsAttribute (front ++ [last]) = true) := by
  have hfresh : q ∉ inside := fun hmem => hinner (hinside.mem hmem)
  obtain ⟨passed, b, back, before, after, rfl, hb, rfl, rfl⟩ := exists_value_of_quote hq has
  obtain ⟨skipped, hskipped⟩ := hlater
  -- The value ends inside `b`. Its attribute is `b` itself, or stands in front of `b` or behind.
  rcases exists_of_append_eq hskipped with ⟨more, rfl, hmore⟩ | ⟨more, -, rfl⟩
  · cases more with
    | nil =>
      obtain ⟨rfl, rfl⟩ := List.cons.inj hmore
      rw [hvalue] at hb
      cases before with
      | nil =>
        obtain ⟨-, rfl⟩ := List.cons.inj hb
        refine ⟨inner, q, later, by simp, isBare_of_isQuote hq, ne_colon_of_isQuote hq,
          List.suffix_rfl, fun _ => ?_⟩
        obtain ⟨start, rfl⟩ := hinside
        have hlead := holdsAttribute_append (start ++ (skipped ++ []).flatMap source)
          (a.holdsAttribute_lead hq)
        simpa using hlead
      | cons c before =>
        obtain ⟨rfl, -⟩ := List.cons.inj hb
        exact absurd (by simp) hfresh
    | cons d more =>
      -- In front of `b` the value would lie inside itself, with its quotes.
      obtain ⟨rfl, rfl⟩ := List.cons.inj hmore
      exact absurd (by simp [source, hvalue]) hfresh
  · obtain ⟨start, z, hend, hz, hcolon⟩ := b.exists_last_value hq (by simp [hb])
    have hback : later <:+ more ++ a :: later :=
      (List.suffix_cons a later).trans (List.suffix_append more (a :: later))
    have hshorter : later ≠ more ++ a :: later := by
      intro heq
      have hlength := congrArg List.length heq
      simp only [List.length_append, List.length_cons] at hlength
      omega
    rcases List.eq_nil_or_concat after with rfl | ⟨front, last, rfl⟩
    · rw [List.nil_append] at hrest
      exact absurd (eq_of_findAll_sources hback hrest) hshorter
    · rw [List.concat_eq_append, hend, ← List.cons_append, ← List.append_assoc] at hb
      obtain rfl := List.singleton_inj.1 (List.append_inj' hb rfl).2
      exact ⟨front, z, more ++ a :: later, by simp, hz, hcolon, hback,
        fun heq => absurd heq hshorter⟩

/-- Behind a text that ends in a bare character, the search finds the attributes, or some at the end
of their list, just when there is nothing in that text that it takes for one. -/
lemma not_holds_of_findAll {later : List WrittenAttribute} {front : List Char} {last : Char}
    (hlast : isBare last = true) (hcolon : last ≠ ':') (hlater : later <:+ as)
    (h : attributePattern.findAll (front ++ last :: as.flatMap source) = later.map pair) :
    holdsAttribute (front ++ [last]) = false ∧ later = as := by
  -- Behind a match the text is shorter, and again it is attributes behind a bare character.
  induction hn : (front ++ last :: as.flatMap source).length using Nat.strongRecOn
    generalizing front last as later with
  | _ n ih =>
  cases hrun : attributePattern.run (front ++ last :: as.flatMap source) with
  | none =>
    cases front with
    | nil =>
      rw [List.nil_append] at h hrun
      rw [Pattern.findAll_of_run_none hrun] at h
      exact ⟨by simp [holdsAttribute, hcolon], eq_of_findAll_sources hlater h⟩
    | cons c front =>
      rw [List.cons_append] at h hrun
      rw [Pattern.findAll_of_run_none hrun] at h
      obtain ⟨hmore, heq⟩ := ih _ (by simp [← hn]) hlast hcolon hlater h rfl
      refine ⟨?_, heq⟩
      have hidle : (c == ':' && (dropBlanks (front ++ [last])).head?.any isBare) = false := by
        rw [Bool.eq_false_iff]
        intro hvalue
        obtain ⟨hc, hvalue⟩ := Bool.and_eq_true_iff.1 hvalue
        obtain rfl := eq_of_beq hc
        exact run_colon_ne_none hlast hvalue _ hrun
      rw [List.cons_append, holdsAttribute, hidle, hmore]
      rfl
  | some m =>
    obtain ⟨found, rest⟩ := m
    have hshrinks := attributePattern.shrinks hrun
    rw [Pattern.findAll_of_run hrun (by simp)] at h
    cases later with
    | nil => cases h
    | cons a later =>
      obtain ⟨rfl, hrest⟩ := List.cons.inj h
      have hmore : later <:+ as := (List.suffix_cons a later).trans hlater
      have hshorter : later ≠ as := by
        intro heq
        have hlength := hlater.length_le
        rw [heq, List.length_cons] at hlength
        omega
      obtain ⟨before, pad, after, rfl, hpad, hvalue⟩ :=
        exists_colon_of_run hlast hcolon (setsOff_sources as) hrun
      rcases run_fragment_cases (setsOff_sources as) hvalue with
        rfl | ⟨behind, rfl, -⟩ | ⟨q, inner, inside, hq, hfound, hinner, hinside, htail⟩
      · exact absurd (eq_of_findAll_sources hmore hrest) hshorter
      · exact absurd (ih _ (by omega) hlast hcolon hmore hrest rfl).2 hshorter
      · obtain ⟨front, last, back, rfl, hlast, hcolon, hback, hholds⟩ :=
          a.exists_of_swallowed hq hinner hinside htail hlater hfound hrest
        obtain ⟨hnone, heq⟩ := ih _ (by omega) hlast hcolon hback hrest rfl
        rw [hholds heq] at hnone
        cases hnone

end WrittenAttribute

end Liquid
