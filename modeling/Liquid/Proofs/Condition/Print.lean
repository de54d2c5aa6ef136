import Liquid.Markup.Condition
import Liquid.Proofs.Markup.Fragment
import Liquid.Value.Compare

/-!
# Printing conditions

A row of comparisons joined by the words `and` and `or` is printed with single spaces between its
parts. Read again it gives the condition that nests to the right, exactly as long as no operand
holds one of the two words between two ends of a word. The split at these words looks at the raw
text, so neither quotes nor hyphens and points keep a word in an operand from being taken for a
joining one.
-/

namespace Liquid

def Connective.text : Connective → String
  | .and => "and"
  | .or => "or"

/-- One comparison as it is written: an operand by itself, or an operand, an operator and a second
operand. -/
structure Clause where
  left : String
  comparison : Option (String × String)

namespace Condition

open Text

/-- An operand that stands for itself: a quoted text with something in it, or a run of word
characters, hyphens and points other than the two joining words. -/
def IsOperand (s : String) : Prop :=
  (∃ q inner, isQuote q = true ∧ inner ≠ [] ∧ q ∉ inner ∧ s.toList = q :: (inner ++ [q])) ∨
    s ≠ "" ∧ (∀ c ∈ s.toList, isWord c = true ∨ c = '-' ∨ c = '.') ∧ s ≠ "and" ∧ s ≠ "or"

lemma isOperand_bare {s : String} (hne : s ≠ "")
    (hchars : (s.toList.all fun c => isWord c || c == '-' || c == '.') = true) (hand : s ≠ "and")
    (hor : s ≠ "or") : IsOperand s := by
  refine .inr ⟨hne, fun c hc => ?_, hand, hor⟩
  simpa [or_assoc] using List.all_eq_true.1 hchars c hc

end Condition

namespace Clause

open Condition (IsOperand)

def operator (clause : Clause) : Option String := clause.comparison.map Prod.fst

def right (clause : Clause) : Option String := clause.comparison.map Prod.snd

/-- The operands of a comparison, the left one first. -/
def operands (clause : Clause) : List String := clause.left :: clause.right.toList

def print (clause : Clause) : String :=
  match clause.comparison with
  | none => clause.left
  | some (operator, right) => clause.left ++ " " ++ operator ++ " " ++ right

/-- The operands stand for themselves, and the operator is one that every environment has. -/
structure Printable (clause : Clause) : Prop where
  operands : ∀ operand ∈ clause.operands, IsOperand operand
  operator : ∀ operator ∈ clause.operator, Fields.contains operator Operator.defaults = true

end Clause

namespace Condition

open Text

def printRow (first : Clause) : List (Connective × Clause) → String
  | [] => first.print
  | (word, next) :: more => first.print ++ " " ++ word.text ++ " " ++ printRow next more

/-- The condition of comparisons joined by words: each one holds all that follows it. -/
def ofRow (first : Clause) : List (Connective × Clause) → Condition
  | [] => .compare first.left first.operator first.right none
  | (word, next) :: more =>
    .compare first.left first.operator first.right (some (word, ofRow next more))

/-- One of the joining words stands in a text, and no word character stands next to it. -/
def HoldsConnective (cs : List Char) : Prop :=
  ∃ before after, ∃ word : Connective, cs = before ++ word.text.toList ++ after ∧
    (∀ c ∈ before.getLast?, isWord c = false) ∧ ∀ c ∈ after.head?, isWord c = false

def links : Condition → Nat
  | .compare _ _ _ (some (_, next)) => next.links + 1
  | .compare _ _ _ none => 0
  | .otherwise => 0

/-! ### Splitting at the joining words -/

lemma startsInWord_eq_false_iff {cs : List Char} :
    startsInWord cs = false ↔ ∀ c ∈ cs.head?, isWord c = false := by
  cases cs <;> simp [startsInWord]

/-- A joining word stands at the front of a text, and the text goes on with no word character. -/
def CutsAt (cs : List Char) (word : Connective) (rest : List Char) : Prop :=
  cs = word.text.toList ++ rest ∧ startsInWord rest = false

lemma isWord_of_mem_text {word : Connective} {c : Char} (h : c ∈ word.text.toList) :
    isWord c = true := by
  cases word <;> simp [Connective.text] at h <;> rcases h with rfl | rfl | rfl <;> decide

lemma splitWords_cut {cs rest : List Char} {word : Connective} (h : CutsAt cs word rest) :
    splitWords false cs = cut word (splitWords true rest) := by
  obtain ⟨rfl, hrest⟩ := h
  cases word <;> simp [Connective.text, splitWords, hrest]

lemma splitWords_push {inWord : Bool} {c : Char} {cs : List Char}
    (h : inWord = true ∨ ∀ word rest, ¬CutsAt (c :: cs) word rest) :
    splitWords inWord (c :: cs) = push c (splitWords (isWord c) cs) := by
  have ha : isWord 'a' = true := by decide
  have ho : isWord 'o' = true := by decide
  have hkept (word : Connective) (rest : List Char) (hcs : c :: cs = word.text.toList ++ rest) :
      (inWord || startsInWord rest) = true := by
    rcases h with rfl | h
    · rfl
    · have hstart : startsInWord rest ≠ false := fun hrest => h word rest ⟨hcs, hrest⟩
      simp [eq_true_of_ne_false hstart]
  rw [splitWords.eq_def]
  split
  · rename_i heq
    cases heq
  · rename_i c' cs' heq
    obtain ⟨rfl, rfl⟩ := List.cons.inj heq
    split
    · rename_i rest
      rw [if_pos (hkept .and rest rfl), ha]
    · rename_i rest
      rw [if_pos (hkept .or rest rfl), ho]
    · rfl

/-- Puts the operands of a second split behind those of a first one, the last and the first of them
being one. -/
def appendSplit (first : List Char) :
    List (Connective × List Char) → List Char × List (Connective × List Char) →
      List Char × List (Connective × List Char)
  | [], split => (first ++ split.1, split.2)
  | (word, next) :: more, split =>
    let joined := appendSplit next more split
    (first, (word, joined.1) :: joined.2)

lemma length_appendSplit (first : List Char) (more : List (Connective × List Char))
    (split : List Char × List (Connective × List Char)) :
    (appendSplit first more split).2.length = more.length + split.2.length := by
  induction more generalizing first with
  | nil => simp [appendSplit]
  | cons link more ih =>
    have hrest := ih link.2
    simp only [appendSplit, List.length_cons] at hrest ⊢
    omega

lemma push_appendSplit (c : Char) (first : List Char) (more : List (Connective × List Char))
    (split : List Char × List (Connective × List Char)) :
    push c (appendSplit first more split) = appendSplit (c :: first) more split := by
  cases more <;> rfl

/-- A character that is no word character parts a text for the split. -/
lemma splitWords_append {c : Char} (hc : isWord c = false) (inWord : Bool) (a b : List Char) :
    splitWords inWord (a ++ c :: b) = appendSplit (splitWords inWord a).1 (splitWords inWord a).2
      (push c (splitWords false b)) := by
  have hne (word : Connective) : c ∉ word.text.toList := by
    intro hmem
    rw [isWord_of_mem_text hmem] at hc
    cases hc
  induction hn : a.length using Nat.strongRecOn generalizing a inWord with
  | _ n ih =>
    cases a with
    | nil =>
      have hpush : splitWords inWord (c :: b) = push c (splitWords (isWord c) b) := by
        apply splitWords_push
        right
        rintro word rest ⟨heq, -⟩
        have hlen : 0 < word.text.toList.length := by cases word <;> decide
        obtain ⟨d, ds, hd⟩ := List.exists_cons_of_length_pos hlen
        rw [hd] at heq
        obtain ⟨rfl, -⟩ := List.cons.inj heq
        exact hne word (by rw [hd]; simp)
      rw [List.nil_append, hpush, hc]
      rfl
    | cons d as =>
      by_cases hcut : inWord = false ∧ ∃ word rest, CutsAt (d :: as) word rest
      · -- The word is cut out of `a`, and what follows it goes on to `c`.
        obtain ⟨rfl, word, rest, heq, hrest⟩ := hcut
        have hrest' : startsInWord (rest ++ c :: b) = false := by
          cases rest with
          | nil => exact hc
          | cons e es => exact hrest
        have hlen : rest.length < n := by
          have hl := congrArg List.length heq
          have hpos : 0 < word.text.toList.length := by cases word <;> decide
          rw [List.length_append] at hl
          omega
        have hlong : CutsAt (d :: as ++ c :: b) word (rest ++ c :: b) :=
          ⟨by rw [heq, List.append_assoc], hrest'⟩
        rw [splitWords_cut hlong, splitWords_cut ⟨heq, hrest⟩, ih rest.length hlen true rest rfl]
        rfl
      · have hshort : inWord = true ∨ ∀ word rest, ¬CutsAt (d :: as) word rest := by
          cases inWord with
          | true => exact .inl rfl
          | false => exact .inr fun word rest h => hcut ⟨rfl, word, rest, h⟩
        have hlong : inWord = true ∨ ∀ word rest, ¬CutsAt (d :: (as ++ c :: b)) word rest := by
          refine hshort.imp id fun h word rest hcuts => ?_
          obtain ⟨heq, hrest⟩ := hcuts
          rw [← List.cons_append] at heq
          obtain ⟨tail, hword, htail⟩ | ⟨tail, ha, hr⟩ := List.append_eq_append_iff.1 heq
          · -- The word would reach beyond `a`, over the character `c`.
            cases tail with
            | nil =>
              have ha : d :: as = word.text.toList ++ [] := by simpa using hword.symm
              exact h word [] ⟨ha, rfl⟩
            | cons e es =>
              obtain ⟨rfl, -⟩ := List.cons.inj htail
              exact hne word (by rw [hword]; simp)
          · refine h word tail ⟨ha, ?_⟩
            cases tail with
            | nil => rfl
            | cons e es =>
              rw [hr] at hrest
              exact hrest
        have hlen : as.length < n := by
          rw [← hn, List.length_cons]
          omega
        rw [List.cons_append, splitWords_push hlong, splitWords_push hshort,
          ih as.length hlen (isWord d) as rfl, push_appendSplit]
        rfl

lemma splitWords_eq_self {cs : List Char} (h : ¬HoldsConnective cs) :
    splitWords false cs = (cs, []) := by
  have key (inWord : Bool) (before rest : List Char) (hcs : cs = before ++ rest)
      (hin : inWord = (before.getLast?.any isWord)) : splitWords inWord rest = (rest, []) := by
    induction rest generalizing before inWord with
    | nil => rfl
    | cons c rest ih =>
      have hnocut : inWord = true ∨ ∀ word tail, ¬CutsAt (c :: rest) word tail := by
        cases hw : inWord with
        | true => exact .inl rfl
        | false =>
          refine .inr fun word tail hcuts => h ⟨before, tail, word, ?_, ?_, ?_⟩
          · rw [hcs, hcuts.1, List.append_assoc]
          · intro d hd
            rw [hin, Option.mem_def.1 hd] at hw
            exact hw
          · exact startsInWord_eq_false_iff.1 hcuts.2
      have hrest := ih (isWord c) (before ++ [c]) (by rw [hcs]; simp) (by simp)
      rw [splitWords_push hnocut, hrest]
      rfl
  exact key false [] cs rfl rfl

lemma splitWords_ne_nil {cs : List Char} (h : HoldsConnective cs) :
    (splitWords false cs).2 ≠ [] := by
  obtain ⟨before, after, word, rfl, hbefore, hafter⟩ := h
  have hcut : CutsAt (word.text.toList ++ after) word after :=
    ⟨rfl, startsInWord_eq_false_iff.2 hafter⟩
  cases hlast : before.getLast? with
  | none =>
    obtain rfl : before = [] := List.getLast?_eq_none_iff.1 hlast
    rw [List.nil_append, splitWords_cut hcut]
    simp [cut]
  | some c =>
    obtain ⟨front, rfl⟩ := List.getLast?_eq_some_iff.1 hlast
    have hc : isWord c = false := hbefore c hlast
    have hlength := length_appendSplit (splitWords false front).1 (splitWords false front).2
      (push c (splitWords false (word.text.toList ++ after)))
    rw [List.append_assoc, List.append_assoc, List.singleton_append, splitWords_append hc]
    intro hnil
    rw [hnil, splitWords_cut hcut] at hlength
    simp [push, cut] at hlength

lemma splitWords_eq_nil_iff {cs : List Char} :
    (splitWords false cs).2 = [] ↔ ¬HoldsConnective cs := by
  constructor
  · exact fun hnil h => splitWords_ne_nil h hnil
  · intro h
    rw [splitWords_eq_self h]

/-! ### Reading one comparison -/

lemma isBare_of_operand {c : Char} (h : isWord c = true ∨ c = '-' ∨ c = '.') :
    isBare c = true ∧ isQuote c = false := by
  obtain hword | rfl | rfl := h
  · exact isBare_of_isWord hword
  · decide
  · decide

lemma IsOperand.isFragment {s : String} (h : IsOperand s) : IsFragment s.toList := by
  obtain ⟨q, inner, hq, hne, hinner, hs⟩ | ⟨hne, hchars, -, -⟩ := h
  · rw [hs]
    exact .quoted hq hne hinner
  · exact .bare (by simpa using hne) fun c hc => isBare_of_operand (hchars c hc)

lemma operator_facts {operator : String}
    (h : Fields.contains operator Operator.defaults = true) :
    (∀ c ∈ operator.toList, isOperatorChar c = true) ∧ operator ≠ "" ∧
      (∀ c ∈ operator.toList.head?, isBlank c = false) ∧
      splitWords false operator.toList = (operator.toList, []) := by
  obtain ⟨test, hfind⟩ := Option.isSome_iff_exists.1 h
  have hmem := Fields.mem_of_find?_ofList hfind
  simp only [List.mem_cons, List.not_mem_nil, or_false, Prod.mk.injEq] at hmem
  have hchars (c : Char) :
      isOperatorChar c = (c.isLower || ['=', '!', '<', '>', '_'].contains c) := by
    simp [isOperatorChar]
  have hfacts : operator.toList.all isOperatorChar = true ∧ operator ≠ "" ∧
      (operator.toList.head?.all fun c => !isBlank c) = true ∧
      splitWords false operator.toList = (operator.toList, []) := by
    rw [funext hchars]
    rcases hmem with h | h | h | h | h | h | h | h <;> obtain ⟨rfl, -⟩ := h <;> decide
  obtain ⟨hall, hne, hhead, hsplit⟩ := hfacts
  refine ⟨List.all_eq_true.1 hall, hne, fun c hc => ?_, hsplit⟩
  exact Bool.not_eq_eq_eq_not.1 ((Option.all_eq_true _ _).1 hhead c hc)

lemma readSingle_print {clause : Clause} (h : clause.Printable) (tag : String)
    {pad rest : List Char} (hpad : ∀ c ∈ pad, isBlank c = true)
    (hrest : ∀ c ∈ rest, isBlank c = true) :
    readSingle tag (pad ++ (clause.print.toList ++ rest)) =
      .ok (single clause.left clause.operator clause.right) := by
  have hspace : isBare ' ' = false := by decide
  have hstop : ∀ c ∈ rest.head?, isBare c = false := by
    intro c hc
    exact isBare_of_isBlank (hrest c (List.mem_of_mem_head? hc))
  have hleft : IsFragment clause.left.toList :=
    (h.operands _ (by simp [Clause.operands])).isFragment
  obtain ⟨left, _ | ⟨operator, right⟩⟩ := clause
  · have hfind := hleft.find?_append hpad hstop
    have hnothing := dropBlanks_eq_nil hrest
    simp only [Clause.print, readSingle, hfind, hnothing]
    simp [Clause.operator, Clause.right, dropBlanks, fragment, Pattern.orElse, quoted, quotedWith,
      bare, run]
  · have hright : IsFragment right.toList :=
      (h.operands _ (by simp [Clause.operands, Clause.right])).isFragment
    obtain ⟨hchars, hne, hblank, -⟩ :=
      operator_facts (h.operator operator (by simp [Clause.operator]))
    have hfind := @IsFragment.find?_append _ pad
      (' ' :: (operator.toList ++ ' ' :: (right.toList ++ rest))) hleft hpad (by simp [hspace])
    have hfirst : dropBlanks (' ' :: (operator.toList ++ ' ' :: (right.toList ++ rest))) =
        operator.toList ++ ' ' :: (right.toList ++ rest) := by
      refine @dropBlanks_append [' '] _ (by simp [isBlank_space]) ?_
      have hchars : operator.toList ≠ [] := by simpa using hne
      obtain ⟨c, cs, hcs⟩ := List.exists_cons_of_ne_nil hchars
      rw [hcs] at hblank ⊢
      exact hblank
    have hoperator := @takeWhile_append_of_stop isOperatorChar _ (' ' :: (right.toList ++ rest))
      hchars (by simp [isOperatorChar])
    have hsecond : dropBlanks (' ' :: (right.toList ++ rest)) = right.toList ++ rest :=
      @dropBlanks_append [' '] _ (by simp [isBlank_space]) (hright.isBlank_head rest)
    have hrun := hright.run_append hstop
    have hsource : (Clause.print ⟨left, some (operator, right)⟩).toList ++ rest =
        left.toList ++ ' ' :: (operator.toList ++ ' ' :: (right.toList ++ rest)) := by
      simp [Clause.print]
    rw [hsource]
    simp only [readSingle, hfind, hfirst, hoperator.1, hoperator.2, hsecond, hrun]
    simp [Clause.operator, Clause.right, hne]

/-! ### Reading a row of comparisons -/

/-- The texts of the comparisons that a row is split into. -/
def splitRow (first : Clause) :
    List (Connective × Clause) → List Char × List (Connective × List Char)
  | [] => splitWords false first.print.toList
  | (word, next) :: more =>
    appendSplit (splitWords false first.print.toList).1 (splitWords false first.print.toList).2
      ([' '], (word, ' ' :: (splitRow next more).1) :: (splitRow next more).2)

lemma splitWords_printRow (first : Clause) (rest : List (Connective × Clause)) :
    splitWords false (printRow first rest).toList = splitRow first rest := by
  induction rest generalizing first with
  | nil => rfl
  | cons link more ih =>
    obtain ⟨word, next⟩ := link
    have hsource : (printRow first ((word, next) :: more)).toList =
        first.print.toList ++ ' ' :: (word.text.toList ++ ' ' :: (printRow next more).toList) := by
      simp [printRow]
    have hcut : CutsAt (word.text.toList ++ ' ' :: (printRow next more).toList) word
        (' ' :: (printRow next more).toList) := ⟨rfl, isWord_space⟩
    have htail : splitWords true (' ' :: (printRow next more).toList) =
        push ' ' (splitRow next more) := by
      rw [splitWords_push (.inl rfl), isWord_space, ih]
    rw [hsource, splitWords_append isWord_space, splitWords_cut hcut, htail]
    rfl

lemma splitWords_print {clause : Clause} (h : clause.Printable) :
    (splitWords false clause.print.toList).2 = [] ↔
      ∀ operand ∈ clause.operands, ¬HoldsConnective operand.toList := by
  obtain ⟨left, _ | ⟨operator, right⟩⟩ := clause
  · simp [Clause.print, Clause.operands, Clause.right, splitWords_eq_nil_iff]
  · obtain ⟨-, -, -, hoperator⟩ := operator_facts (h.operator operator (by simp [Clause.operator]))
    have hsource : (Clause.print ⟨left, some (operator, right)⟩).toList =
        left.toList ++ ' ' :: (operator.toList ++ ' ' :: right.toList) := by simp [Clause.print]
    have hcount : (splitWords false (Clause.print ⟨left, some (operator, right)⟩).toList).2.length =
        (splitWords false left.toList).2.length + (splitWords false right.toList).2.length := by
      rw [hsource, splitWords_append isWord_space, splitWords_append isWord_space, hoperator]
      simp [length_appendSplit, push, appendSplit]
    rw [← List.length_eq_zero_iff, hcount]
    simp only [Clause.operands, Clause.right, Option.map_some, Option.toList_some,
      List.forall_mem_cons, List.not_mem_nil, false_implies, implies_true, and_true,
      ← splitWords_eq_nil_iff, ← List.length_eq_zero_iff]
    omega

lemma length_le_splitRow (first : Clause) (rest : List (Connective × Clause)) :
    rest.length ≤ (splitRow first rest).2.length := by
  induction rest generalizing first with
  | nil => exact Nat.zero_le _
  | cons link more ih =>
    have hnext := ih link.2
    simp only [splitRow, length_appendSplit, List.length_cons]
    omega

lemma splitWords_eq_nil_of_length {first : Clause} {rest : List (Connective × Clause)}
    (h : (splitRow first rest).2.length = rest.length) :
    ∀ clause ∈ first :: rest.map Prod.snd, (splitWords false clause.print.toList).2 = [] := by
  induction rest generalizing first with
  | nil => exact List.forall_mem_singleton.2 (List.length_eq_zero_iff.1 h)
  | cons link more ih =>
    have hnext := length_le_splitRow link.2 more
    simp only [splitRow, length_appendSplit, List.length_cons] at h
    refine List.forall_mem_cons.2 ⟨List.length_eq_zero_iff.1 ?_, ih ?_⟩
    · omega
    · omega

lemma readJoined_splitRow {first : Clause} {rest : List (Connective × Clause)}
    (h : ∀ clause ∈ first :: rest.map Prod.snd, clause.Printable)
    (hwhole : ∀ clause ∈ first :: rest.map Prod.snd,
      (splitWords false clause.print.toList).2 = [])
    (tag : String) {pad : List Char} (hpad : ∀ c ∈ pad, isBlank c = true) :
    readJoined tag (pad ++ (splitRow first rest).1) (splitRow first rest).2 =
      .ok (ofRow first rest) := by
  have hself (clause : Clause) (hc : clause ∈ first :: rest.map Prod.snd) :
      splitWords false clause.print.toList = (clause.print.toList, []) :=
    splitWords_eq_self (splitWords_eq_nil_iff.1 (hwhole clause hc))
  induction rest generalizing first pad with
  | nil =>
    have hread := @readSingle_print first (h first (by simp)) tag pad [] hpad (by simp)
    rw [List.append_nil] at hread
    simp only [splitRow, hself first (by simp), readJoined]
    exact hread
  | cons link more ih =>
    obtain ⟨word, next⟩ := link
    have hread := @readSingle_print first (h first (by simp)) tag pad [' '] hpad
      (by simp [isBlank_space])
    have hmore := @ih next (fun clause hc => h clause (by simp_all))
      (fun clause hc => hwhole clause (by simp_all)) [' '] (by simp [isBlank_space])
      (fun clause hc => hself clause (by simp_all))
    rw [List.singleton_append] at hmore
    simp only [splitRow, hself first (by simp), appendSplit, readJoined, hmore, hread]
    rfl

lemma links_join (c : Condition) (word : Connective) (next : Condition)
    (h : c ≠ .otherwise) : (c.join word next).links = next.links + 1 := by
  cases c with
  | compare left operator right before => rfl
  | otherwise => exact absurd rfl h

/-- A row of operands is read as a condition with as many links as there are cuts. -/
lemma links_of_readJoined {tag : String} {operand : List Char}
    {more : List (Connective × List Char)} {c : Condition}
    (h : readJoined tag operand more = .ok c) : c.links = more.length := by
  have hsingle {operand : List Char} {c : Condition} (h : readSingle tag operand = .ok c) :
      c ≠ .otherwise ∧ c.links = 0 := by
    unfold readSingle at h
    split at h
    · cases h
    · obtain rfl := Except.ok.inj h
      exact ⟨Condition.noConfusion, rfl⟩
  induction more generalizing operand c with
  | nil => exact (hsingle h).2
  | cons link more ih =>
    obtain ⟨word, next⟩ := link
    rw [readJoined] at h
    cases hmore : readJoined tag next more with
    | error e =>
      rw [hmore] at h
      cases h
    | ok rest =>
      cases hfirst : readSingle tag operand with
      | error e =>
        rw [hmore, hfirst] at h
        cases h
      | ok first =>
        rw [hmore, hfirst] at h
        cases h
        rw [links_join _ _ _ (hsingle hfirst).1, ih hmore, List.length_cons]

lemma links_ofRow (first : Clause) (rest : List (Connective × Clause)) :
    (ofRow first rest).links = rest.length := by
  induction rest generalizing first with
  | nil => rfl
  | cons link more ih =>
    rw [ofRow, links, ih, List.length_cons]

/-- Comparisons printed in a row are read as the condition that nests to the right exactly when none
of their operands holds a joining word between two ends of a word. -/
theorem read_printRow_iff (tag : String) {first : Clause} {rest : List (Connective × Clause)}
    (h : ∀ clause ∈ first :: rest.map Prod.snd, clause.Printable) :
    read tag (printRow first rest) = .ok (ofRow first rest) ↔
      ∀ clause ∈ first :: rest.map Prod.snd, ∀ operand ∈ clause.operands,
        ¬HoldsConnective operand.toList := by
  have hread : read tag (printRow first rest) =
      readJoined tag (splitRow first rest).1 (splitRow first rest).2 := by
    rw [← splitWords_printRow]
    rfl
  rw [hread]
  constructor
  · intro hok clause hclause
    have hlinks := links_of_readJoined hok
    rw [links_ofRow] at hlinks
    have hwhole := splitWords_eq_nil_of_length hlinks.symm clause hclause
    exact (splitWords_print (h clause hclause)).1 hwhole
  · intro hnone
    have hwhole : ∀ clause ∈ first :: rest.map Prod.snd,
        (splitWords false clause.print.toList).2 = [] := fun clause hclause =>
      (splitWords_print (h clause hclause)).2 (hnone clause hclause)
    exact @readJoined_splitRow first rest h hwhole tag [] (by simp)

/-- Comparisons whose operands hold blanks, commas, bars, hyphens and points, and the joining words
inside longer ones. -/
def mixedRow : List Clause :=
  [⟨"'sandy, or_else'", some ("==", "x.y-android")⟩, ⟨"for.1", none⟩,
    ⟨"\"a | b\"", some ("contains", "-4.5")⟩]

lemma printable_mixedRow : ∀ clause ∈ mixedRow, clause.Printable := by
  have hquoted : IsOperand "'sandy, or_else'" :=
    .inl ⟨'\'', "sandy, or_else".toList, by decide, by decide, by decide, by decide⟩
  have hdouble : IsOperand "\"a | b\"" :=
    .inl ⟨'"', "a | b".toList, by decide, by decide, by decide, by decide⟩
  have hplace : IsOperand "x.y-android" :=
    isOperand_bare (by decide) (by decide) (by decide) (by decide)
  have hindex : IsOperand "for.1" := isOperand_bare (by decide) (by decide) (by decide) (by decide)
  have hnumber : IsOperand "-4.5" := isOperand_bare (by decide) (by decide) (by decide) (by decide)
  intro clause hclause
  simp only [mixedRow, List.mem_cons, List.not_mem_nil, or_false] at hclause
  obtain rfl | rfl | rfl := hclause
  · exact ⟨by simp [Clause.operands, Clause.right, hquoted, hplace], by decide⟩
  · exact ⟨by simp [Clause.operands, Clause.right, hindex], by decide⟩
  · exact ⟨by simp [Clause.operands, Clause.right, hdouble, hnumber], by decide⟩

theorem read_printRow_iff_mixedRow :
    read "elsif" "'sandy, or_else' == x.y-android and for.1 or \"a | b\" contains -4.5" =
      .ok (.compare "'sandy, or_else'" (some "==") (some "x.y-android")
        (some (.and, .compare "for.1" none none
          (some (.or, .compare "\"a | b\"" (some "contains") (some "-4.5") none))))) := by
  refine (@read_printRow_iff "elsif" ⟨"'sandy, or_else'", some ("==", "x.y-android")⟩
    [(.and, ⟨"for.1", none⟩), (.or, ⟨"\"a | b\"", some ("contains", "-4.5")⟩)]
    printable_mixedRow).2 ?_
  simp only [← splitWords_eq_nil_iff]
  decide

/-- A word between quotes is taken for a joining one. -/
theorem read_quoted_word :
    (⟨"x", some ("==", "'a and b'")⟩ : Clause).Printable ∧
      read "if" (printRow ⟨"x", some ("==", "'a and b'")⟩ []) ≠
        .ok (ofRow ⟨"x", some ("==", "'a and b'")⟩ []) := by
  have hbare : IsOperand "x" := isOperand_bare (by decide) (by decide) (by decide) (by decide)
  have hquoted : IsOperand "'a and b'" :=
    .inl ⟨'\'', "a and b".toList, by decide, by decide, by decide, by decide⟩
  refine ⟨⟨by simp [Clause.operands, Clause.right, hbare, hquoted], by decide⟩, ?_⟩
  intro hread
  have hlinks := links_of_readJoined hread
  have hcuts : (splitWords false "x == 'a and b'".toList).2.length = 1 := by decide
  rw [links_ofRow] at hlinks
  exact absurd (hlinks.trans hcuts) (by decide)

end Condition

end Liquid
