import Liquid.Proofs.Markup.Attributes

/-!
# Markup of `include` tags

An `include` tag is written as the name of a partial, the object it is given, and attributes behind
separators. The search for attributes goes over the whole markup and does not heed quotes, so it
finds what is written exactly when no colon in front of the attributes has a value behind it.
-/

namespace Liquid

open Text

namespace Include

/-- An object as it is written: the word for it and its token, blanks in front of each. -/
structure WrittenObject where
  gap : List Char
  word : String
  pad : List Char
  token : String
  gap_ne : gap ≠ []
  gap_blank : ∀ c ∈ gap, isBlank c = true
  word_eq : word = "with" ∨ word = "for"
  pad_ne : pad ≠ []
  pad_blank : ∀ c ∈ pad, isBlank c = true
  token_whole : IsToken token.toList

namespace WrittenObject

def source (o : WrittenObject) : List Char :=
  o.gap ++ (o.word.toList ++ (o.pad ++ o.token.toList))

end WrittenObject

/-- An `include` tag as it is written: the name of a partial between quotes, an object, and
attributes. -/
structure Written where
  quote : Char
  name : List Char
  object : Option WrittenObject
  attributes : List WrittenAttribute
  isQuote_quote : isQuote quote = true
  quote_not_mem : quote ∉ name

namespace Written

variable (w : Written)

def template : List Char := w.quote :: (w.name ++ [w.quote])

def front : List Char := w.template ++ (w.object.elim [] WrittenObject.source)

def markup : String := String.ofList (w.front ++ w.attributes.flatMap WrittenAttribute.source)

def tag : Include where
  template := String.ofList w.template
  binding := w.object.map WrittenObject.token
  attributes := w.attributes.map WrittenAttribute.pair

end Written

section Reading

variable {cs rest : List Char}

lemma run_fragmentRun (h : fragment.run (cs ++ rest) = some (cs, rest))
    (hrest : ∀ c ∈ rest.head?, isBare c = false) :
    fragmentRun.run (cs ++ rest) = some (cs, rest) := by
  have hmany := Pattern.many_of_run h
  rw [Pattern.many_of_run_none (run_fragment_eq_none_iff.2 hrest)] at hmany
  have hrun := Pattern.run_joined_of_many hmany (List.cons_ne_nil _ _)
  rwa [List.flatten_singleton] at hrun

lemma binding?_of_word {word tail : List Char} (hword : word = "with".toList ∨ word = "for".toList)
    (hdrop : dropBlanks cs = word ++ tail) :
    binding? cs = if cs.head?.any isBlank && tail.head?.any isBlank then
      (fragmentRun.run (dropBlanks tail)).map Prod.fst else none := by
  rcases hword with rfl | rfl
  · have hwith : dropBlanks cs = 'w' :: 'i' :: 't' :: 'h' :: tail := hdrop
    rw [binding?, hwith]
    rfl
  · have hfor : dropBlanks cs = 'f' :: 'o' :: 'r' :: tail := hdrop
    rw [binding?, hfor]
    rfl

lemma exists_word_of_binding? {found : List Char} (h : binding? cs = some found) :
    ∃ word tail, (word = "with".toList ∨ word = "for".toList) ∧ dropBlanks cs = word ++ tail ∧
      tail.head?.any isBlank = true := by
  have hblanks {tail : List Char}
      (h : (if cs.head?.any isBlank && tail.head?.any isBlank then
        (fragmentRun.run (dropBlanks tail)).map Prod.fst else none) = some found) :
      tail.head?.any isBlank = true := by
    split at h
    · rename_i hboth
      exact (Bool.and_eq_true_iff.1 hboth).2
    · cases h
  unfold binding? at h
  split at h
  · rename_i tail hdrop
    exact ⟨_, tail, .inl rfl, hdrop, hblanks h⟩
  · rename_i tail hdrop
    exact ⟨_, tail, .inr rfl, hdrop, hblanks h⟩
  · cases h

lemma binding?_source (o : WrittenObject) (hrest : ∀ c ∈ rest.head?, isBare c = false) :
    binding? (o.source ++ rest) = some o.token.toList := by
  have hrun := run_fragmentRun (o.token_whole.run_fragment hrest) hrest
  have hpad := dropBlanks_append o.pad_blank (o.token_whole.isBlank_head rest)
  have hsource : o.source ++ rest =
      o.gap ++ (o.word.toList ++ (o.pad ++ (o.token.toList ++ rest))) := by
    simp [WrittenObject.source]
  have hany {pad cs : List Char} (hne : pad ≠ []) (hblank : ∀ c ∈ pad, isBlank c = true) :
      (pad ++ cs).head?.any isBlank = true := by
    obtain ⟨b, pad, rfl⟩ := List.exists_cons_of_ne_nil hne
    exact hblank b (by simp)
  have hword : o.word.toList = "with".toList ∨ o.word.toList = "for".toList :=
    o.word_eq.imp (congrArg String.toList) (congrArg String.toList)
  have hstart : ∀ c ∈ (o.word.toList ++ (o.pad ++ (o.token.toList ++ rest))).head?,
      isBlank c = false := by
    have hw : isBlank 'w' = false := by decide
    have hf : isBlank 'f' = false := by decide
    rcases hword with hword | hword
    · simpa [hword] using hw
    · simpa [hword] using hf
  rw [hsource, binding?_of_word hword (dropBlanks_append o.gap_blank hstart), hpad, hrun,
    hany o.gap_ne o.gap_blank, hany o.pad_ne o.pad_blank]
  rfl

lemma binding?_sources (as : List WrittenAttribute) :
    binding? (as.flatMap WrittenAttribute.source) = none := by
  rw [Option.eq_none_iff_forall_ne_some]
  intro found h
  obtain ⟨word, tail, hword, hdrop, htail⟩ := exists_word_of_binding? h
  cases as with
  | nil => rcases hword with rfl | rfl <;> cases hdrop
  | cons a as =>
    rw [List.flatMap_cons, WrittenAttribute.source_append] at hdrop
    rcases dropBlanks_gap a.gap_separates fun c hc => (a.key_head _ c hc).1 with hcomma | hkey
    · rw [hdrop] at hcomma
      rcases hword with rfl | rfl <;> cases hcomma
    · rcases exists_of_append_eq (hdrop.symm.trans hkey) with ⟨more, hmore, rfl⟩ | ⟨more, hcut, -⟩
      · cases more with
        | nil =>
          have hcolon : isBlank ':' = false := by decide
          simp [hcolon] at htail
        | cons c more =>
          have hc := isBlank_of_isWord (a.key_word c (by simp [hmore]))
          simp [hc] at htail
      · have hcolon : ':' ∈ word := by simp [hcut]
        rcases hword with rfl | rfl <;> exact absurd hcolon (by decide)

end Reading

namespace Written

variable (w : Written)

lemma exists_last : ∃ front last, w.front = front ++ [last] ∧ isBare last = true ∧ last ≠ ':' := by
  unfold front
  cases w.object with
  | none =>
    obtain ⟨front, last, htemplate, hlast⟩ :=
      (IsToken.quoted w.isQuote_quote w.quote_not_mem).exists_last
    exact ⟨front, last, by simpa [template] using htemplate, hlast⟩
  | some o =>
    obtain ⟨front, last, htoken, hlast⟩ := o.token_whole.exists_last
    exact ⟨w.template ++ (o.gap ++ (o.word.toList ++ (o.pad ++ front))), last,
      by simp [WrittenObject.source, htoken], hlast⟩

/-- The attributes found are those that are written just when none is found in front of them. -/
lemma attributes_markup_iff :
    Liquid.attributes w.markup = w.tag.attributes ↔ holdsAttribute w.front = false := by
  obtain ⟨front, last, hfront, hlast, hcolon⟩ := w.exists_last
  have hmarkup : w.markup.toList =
      front ++ last :: w.attributes.flatMap WrittenAttribute.source := by
    simp [markup, hfront]
  rw [Liquid.attributes, hmarkup, hfront]
  constructor
  · exact fun h => (WrittenAttribute.not_holds_of_findAll hlast hcolon List.suffix_rfl h).1
  · intro h
    rw [findAll_of_not_holds hlast hcolon (WrittenAttribute.setsOff_sources _) h,
      WrittenAttribute.findAll_sources]
    rfl

lemma read_markup :
    read w.markup = .ok { w.tag with attributes := Liquid.attributes w.markup } := by
  have htail := (WrittenAttribute.setsOff_sources w.attributes).head
  have hobject : ∃ rest, w.markup.toList = w.template ++ rest ∧
      (∀ c ∈ rest.head?, isBare c = false) ∧
      binding? rest = (w.object.map WrittenObject.token).map String.toList := by
    unfold markup front
    cases w.object with
    | none =>
      refine ⟨w.attributes.flatMap WrittenAttribute.source, by simp, htail, ?_⟩
      exact binding?_sources w.attributes
    | some o =>
      refine ⟨o.source ++ w.attributes.flatMap WrittenAttribute.source, by simp, ?_, ?_⟩
      · obtain ⟨b, gap, hgap⟩ := List.exists_cons_of_ne_nil o.gap_ne
        have hb := isBare_of_isBlank (o.gap_blank b (by simp [hgap]))
        simpa [WrittenObject.source, hgap] using hb
      · exact binding?_source o htail
  obtain ⟨rest, hmarkup, hrest, hbinding⟩ := hobject
  have hname := IsTerm.quoted w.isQuote_quote w.quote_not_mem
  have hrun := run_fragmentRun (hname.run_fragment hrest) hrest
  have hfind : fragmentRun.find? w.markup.toList = some (w.template, rest) := by
    rw [hmarkup]
    exact Option.or_eq_some_iff.2 (.inl hrun)
  simp only [read, hfind, hbinding, tag]
  cases w.object <;> simp

/-- An `include` tag is read as the name and the object that are written, and with the attributes
that are written exactly when no colon in front of them has a value behind it. -/
theorem read_markup_iff :
    (∃ found, read w.markup = .ok { w.tag with attributes := found }) ∧
      (read w.markup = .ok w.tag ↔ holdsAttribute w.front = false) := by
  have hread := w.read_markup
  refine ⟨⟨_, hread⟩, ?_⟩
  rw [hread, ← attributes_markup_iff]
  constructor
  · intro h
    exact congrArg Include.attributes (Except.ok.inj h)
  · intro h
    rw [h]

/-- Colons in every quoted text, and none that has a value behind it in front of the attributes. -/
def manyColons : Written where
  quote := '\''
  name := ['a', ':', ',', ' ', 'b']
  object := some
    { gap := [' '], word := "for", pad := [' '], token := "\"c: |\""
      gap_ne := by decide, gap_blank := by simp [isBlank_space], word_eq := .inr rfl
      pad_ne := by decide, pad_blank := by simp [isBlank_space]
      token_whole := @IsToken.quoted '"' ['c', ':', ' ', '|'] (by decide) (by decide) }
  attributes :=
    [{ gap := [',', ' '], key := "k", pad := [' '], value := "'x: y'"
       gap_ne := by decide, gap_separates := by simp [isBlank_space]
       key_ne := by decide, key_word := List.all_eq_true.1 (by decide)
       pad_blank := by simp [isBlank_space]
       value_token := .inl <| .of_all_ne '\'' ['x', ':', ' ', 'y'] (by decide) (by decide) },
     { gap := [' '], key := "m", pad := [], value := "e['f:g']"
       gap_ne := by decide, gap_separates := by simp [isBlank_space]
       key_ne := by decide, key_word := List.all_eq_true.1 (by decide)
       pad_blank := by simp
       value_token := .inr <| @IsToken.bare ['e', '[', '\'', 'f', ':', 'g', '\''] ']'
         (List.all_eq_true.1 (by decide)) (by simp [isQuote]) (by decide) }]
  isQuote_quote := by decide
  quote_not_mem := by decide

theorem read_markup_iff_manyColons :
    manyColons.markup = "'a:, b' for \"c: |\", k: 'x: y' m:e['f:g']" ∧
      read manyColons.markup =
        .ok ⟨"'a:, b'", some "\"c: |\"", [("k", "'x: y'"), ("m", "e['f:g']")]⟩ :=
  ⟨by decide, (read_markup_iff manyColons).2.2 (by decide)⟩

/-- A colon between the quotes of the name is taken for that of an attribute. -/
theorem read_markup_colon : read "'a:b'" = .ok ⟨"'a:b'", none, [("a", "b'")]⟩ := by
  with_unfolding_all rfl

end Written

end Include

end Liquid
