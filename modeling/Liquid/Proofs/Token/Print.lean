import Liquid.Token
import Mathlib.Data.List.Chain
import Mathlib.Tactic.Lemma

/-!
# Printing tokens

Tokens printed one after the other are split into the same tokens again, as long as no text holds an
opening mark or ends in the first half of one, and no markup holds its closing mark.
-/

namespace Liquid

namespace Text

lemma isChain_of_unpaired {a b : Char} {cs : List Char} (h : ¬[a, b] <:+: cs) :
    cs.IsChain fun x y => ¬(x = a ∧ y = b) := by
  rw [List.isChain_iff_forall_rel_of_append_cons_cons]
  rintro x y before after hcs ⟨rfl, rfl⟩
  exact h ⟨before, after, by simp [hcs]⟩

lemma splitAtPair?_append {a b : Char} {before : List Char}
    (h : before.IsChain fun x y => ¬(x = a ∧ y = b)) (hlast : before.getLast? ≠ some a)
    (after : List Char) : splitAtPair? a b (before ++ a :: b :: after) = some (before, after) := by
  induction before with
  | nil => simp [splitAtPair?]
  | cons c cs ih =>
    cases cs with
    | nil =>
      have hc : c ≠ a := by simpa using hlast
      simp [splitAtPair?, hc]
    | cons d ds =>
      obtain ⟨hcd, hds⟩ := List.isChain_cons_cons.1 h
      have htail := ih hds (by simpa using hlast)
      simp only [List.cons_append] at htail ⊢
      rw [splitAtPair?, if_neg hcd, htail]
      rfl

lemma splitAtPair?_padded {a b : Char} {cs : List Char} (ha : a ≠ ' ') (hb : b ≠ ' ')
    (h : cs.IsChain fun x y => ¬(x = a ∧ y = b)) (after : List Char) :
    splitAtPair? a b ((' ' :: (cs ++ [' '])) ++ a :: b :: after) =
      some (' ' :: (cs ++ [' ']), after) := by
  apply splitAtPair?_append
  · refine List.isChain_cons.2 ⟨fun y _ hy => ha hy.1.symm, ?_⟩
    refine h.append (List.isChain_singleton _) fun x _ y hy hxy => ?_
    obtain rfl : ' ' = y := by simpa using hy
    exact hb hxy.2.symm
  · rw [← List.cons_append, List.getLast?_concat]
    exact fun h => ha (Option.some.inj h).symm

lemma isBlank_space : isBlank ' ' = true := by decide

lemma isWord_space : isWord ' ' = false := by decide

lemma isBlank_of_isWord {c : Char} (h : isWord c = true) : isBlank c = false := by
  have hnone : ∀ range ∈ blankRanges, ∀ n ∈ List.range' range.1 (range.2 + 1 - range.1),
      isWord (Char.ofNat n) = false := by decide +kernel
  cases hb : isBlank c with
  | false => rfl
  | true =>
    obtain ⟨range, hrange, hlow, hhigh⟩ := inRanges_eq_true_iff.1 hb
    have hmem : c.toNat ∈ List.range' range.1 (range.2 + 1 - range.1) := by
      rw [List.mem_range'_1]
      omega
    have hword := hnone range hrange c.toNat hmem
    rw [Char.ofNat_toNat, h] at hword
    cases hword

lemma trimChars_padded (cs : List Char) : trimChars (' ' :: (cs ++ [' '])) = trimChars cs := by
  unfold trimChars dropBlanks dropBlanksEnd
  rw [List.dropWhile_cons_of_pos isBlank_space, List.dropWhile_append]
  cases hd : cs.dropWhile isBlank with
  | nil => simp [isBlank_space]
  | cons c rest => simp [isBlank_space]

lemma ofList_trimChars_padded {s : String} (h : trim s = s) :
    String.ofList (trimChars (' ' :: (s.toList ++ [' ']))) = s := by
  rw [trimChars_padded]
  exact h

section Run

variable {p : Char → Bool} {cs rest : List Char}

lemma takeWhile_append_of_stop (hcs : ∀ c ∈ cs, p c = true)
    (hrest : ∀ c ∈ rest.head?, p c = false) :
    (cs ++ rest).takeWhile p = cs ∧ (cs ++ rest).dropWhile p = rest := by
  rw [List.takeWhile_append_of_pos hcs, List.dropWhile_append_of_pos hcs]
  cases rest with
  | nil => simp
  | cons c tail =>
    have hc : p c = false := hrest c (by simp)
    simp [hc]

lemma run_append (hne : cs ≠ []) (hcs : ∀ c ∈ cs, p c = true)
    (hrest : ∀ c ∈ rest.head?, p c = false) : (run p).run (cs ++ rest) = some (cs, rest) := by
  obtain ⟨htake, hdrop⟩ := takeWhile_append_of_stop hcs hrest
  have hfull : cs.isEmpty = false := List.isEmpty_eq_false_iff.2 hne
  simp only [run, htake, hdrop, hfull, Bool.false_eq_true, if_false]

end Run

end Text

namespace Token

open Text

def print : Token → String
  | .text s => s
  | .tag name markup => "\x7b% " ++ name ++ " " ++ markup ++ " %\x7d"
  | .output markup => "\x7b\x7b " ++ markup ++ " \x7d\x7d"

def printAll (tokens : List Token) : String := String.join (tokens.map print)

def IsText : Token → Prop
  | .text _ => True
  | _ => False

/-- The token can be told from what stands around it. -/
def Printable : Token → Prop
  | .text s =>
    s ≠ "" ∧ ¬['{', '{'] <:+: s.toList ∧ ¬['{', '%'] <:+: s.toList ∧ s.toList.getLast? ≠ some '{'
  | .tag name markup =>
    name ≠ "" ∧ (∀ c ∈ name.toList, isWord c = true) ∧ trim markup = markup ∧
      ¬['%', '}'] <:+: markup.toList
  | .output markup => trim markup = markup ∧ ¬['}', '}'] <:+: markup.toList

/-- All tokens can be told from what stands around them, and no two texts stand side by side. -/
structure AllPrintable (tokens : List Token) : Prop where
  printable : ∀ token ∈ tokens, token.Printable
  apart : tokens.IsChain fun a b => ¬(a.IsText ∧ b.IsText)

lemma toList_print_tag (name markup : String) :
    (print (.tag name markup)).toList =
      '{' :: '%' :: (' ' :: ((name.toList ++ ' ' :: markup.toList) ++ [' '])) ++ ['%', '}'] := by
  simp [print]

lemma toList_print_output (markup : String) :
    (print (.output markup)).toList =
      '{' :: '{' :: (' ' :: (markup.toList ++ [' '])) ++ ['}', '}'] := by
  simp [print]

lemma scanFrom_text {cs : List Char} (hoo : cs.IsChain fun x y => ¬(x = '{' ∧ y = '{'))
    (hot : cs.IsChain fun x y => ¬(x = '{' ∧ y = '%')) (hlast : cs.getLast? ≠ some '{')
    (reversed rest : List Char) :
    scanFrom reversed (cs ++ rest) = scanFrom (cs.reverse ++ reversed) rest := by
  induction cs generalizing reversed with
  | nil => rfl
  | cons c cs ih =>
    -- A brace that opens nothing is a character like any other.
    have hplain (d : Char) (tail : List Char) (hd : cs ++ rest = d :: tail) (hc : c = '{') :
        d ≠ '{' ∧ d ≠ '%' := by
      cases cs with
      | nil => exact absurd (congrArg some hc) (by simpa using hlast)
      | cons d' ds =>
        obtain ⟨rfl, -⟩ := List.cons.inj hd
        exact ⟨fun hd => (List.isChain_cons_cons.1 hoo).1 ⟨hc, hd⟩,
          fun hd => (List.isChain_cons_cons.1 hot).1 ⟨hc, hd⟩⟩
    have hstep : scanFrom reversed (c :: (cs ++ rest)) = scanFrom (c :: reversed) (cs ++ rest) := by
      rw [scanFrom.eq_def]
      split
      · rename_i hcs
        cases hcs
      · rename_i hcs
        obtain ⟨hc, hd⟩ := List.cons.inj hcs
        exact absurd rfl (hplain _ _ hd hc).2
      · rename_i hcs
        obtain ⟨hc, hd⟩ := List.cons.inj hcs
        exact absurd rfl (hplain _ _ hd hc).1
      · rename_i hcs
        cases hcs
        rfl
    have hlast' : cs.getLast? ≠ some '{' := by
      cases cs with
      | nil => simp
      | cons d ds => simpa using hlast
    rw [List.cons_append, hstep, ih hoo.tail hot.tail hlast', List.reverse_cons,
      List.append_assoc]
    rfl

lemma ofTag_padded {name markup : String} (hne : name ≠ "")
    (hname : ∀ c ∈ name.toList, isWord c = true) (htrim : trim markup = markup) :
    ofTag (' ' :: ((name.toList ++ ' ' :: markup.toList) ++ [' '])) = .ok (.tag name markup) := by
  have hne' : name.toList ≠ [] := by simpa using hne
  obtain ⟨c, cs, hcs⟩ := List.exists_cons_of_ne_nil hne'
  have hc : isBlank c = false := isBlank_of_isWord (hname c (by simp [hcs]))
  have hdrop : dropBlanks (' ' :: (name.toList ++ (' ' :: (markup.toList ++ [' '])))) =
      name.toList ++ ' ' :: (markup.toList ++ [' ']) := by
    rw [hcs]
    simp [dropBlanks, isBlank_space, hc]
  have hword : word.run (name.toList ++ ' ' :: (markup.toList ++ [' '])) =
      some (name.toList, ' ' :: (markup.toList ++ [' '])) :=
    run_append hne' hname (by simp [isWord_space])
  have hmarkup := ofList_trimChars_padded htrim
  unfold ofTag
  rw [List.append_assoc, List.cons_append, hdrop, hword]
  simp only [hmarkup, String.ofList_toList]

lemma scanFrom_tag {name markup : String} (h : (Token.tag name markup).Printable)
    (reversed rest : List Char) :
    scanFrom reversed ((print (.tag name markup)).toList ++ rest) =
      (scanFrom [] rest).map fun more => ofText reversed ++ .tag name markup :: more := by
  obtain ⟨hne, hname, htrim, hclosed⟩ := h
  have hunclosed : ¬['%', '}'] <:+: name.toList := by
    intro hpair
    have hpercent := hname '%' (hpair.subset (by simp))
    exact absurd hpercent (by decide)
  have hinner : (name.toList ++ ' ' :: markup.toList).IsChain fun x y => ¬(x = '%' ∧ y = '}') := by
    refine (isChain_of_unpaired hunclosed).append ?_ fun x _ y hy hxy => ?_
    · exact List.isChain_cons.2 ⟨fun y _ hy => by simp at hy, isChain_of_unpaired hclosed⟩
    · obtain rfl : ' ' = y := by simpa using hy
      simp at hxy
  have hsplit := splitAtPair?_padded (by decide) (by decide) hinner rest
  have htag := ofTag_padded hne hname htrim
  rw [toList_print_tag]
  simp only [List.cons_append, List.append_assoc, List.nil_append] at hsplit htag ⊢
  rw [scanFrom]
  split
  · rename_i inner after hfound
    rw [hsplit] at hfound
    cases hfound
    rw [htag]
  · rename_i hnone
    rw [hsplit] at hnone
    cases hnone

lemma scanFrom_output {markup : String} (h : (Token.output markup).Printable)
    (reversed rest : List Char) :
    scanFrom reversed ((print (.output markup)).toList ++ rest) =
      (scanFrom [] rest).map fun more => ofText reversed ++ .output markup :: more := by
  obtain ⟨htrim, hclosed⟩ := h
  have hsplit := splitAtPair?_padded (by decide) (by decide) (isChain_of_unpaired hclosed) rest
  have hmarkup := ofList_trimChars_padded htrim
  rw [toList_print_output]
  simp only [List.cons_append, List.append_assoc, List.nil_append] at hsplit ⊢
  rw [scanFrom]
  split
  · rename_i inner after hfound
    rw [hsplit] at hfound
    cases hfound
    rw [hmarkup]
  · rename_i hnone
    rw [hsplit] at hnone
    cases hnone

lemma scanFrom_printAll {tokens : List Token} (h : AllPrintable tokens) {reversed : List Char}
    (hr : ∀ token ∈ tokens.head?, token.IsText → reversed = []) :
    scanFrom reversed (printAll tokens).toList = .ok (ofText reversed ++ tokens) := by
  -- A text that has been read waits for what ends it, and that is never another text.
  induction tokens generalizing reversed with
  | nil =>
    change scanFrom reversed [] = _
    rw [scanFrom, List.append_nil]
  | cons token rest ih =>
    obtain ⟨hprintable, hrest⟩ := List.forall_mem_cons.1 h.printable
    obtain ⟨hnext, hapart⟩ := List.isChain_cons.1 h.apart
    have hsource : (printAll (token :: rest)).toList =
        token.print.toList ++ (printAll rest).toList := by simp [printAll]
    rw [hsource]
    cases token with
    | text s =>
      obtain ⟨hne, hoo, hot, hlast⟩ := hprintable
      obtain rfl := hr (.text s) (by simp) trivial
      rw [print, scanFrom_text (isChain_of_unpaired hoo) (isChain_of_unpaired hot) hlast]
      have htail : scanFrom (s.toList.reverse ++ []) (printAll rest).toList =
          .ok (ofText (s.toList.reverse ++ []) ++ rest) :=
        ih ⟨hrest, hapart⟩ fun other ho hother => absurd ⟨trivial, hother⟩ (hnext other ho)
      rw [htail]
      simp [ofText, hne]
    | tag name markup =>
      have htail : scanFrom [] (printAll rest).toList = .ok (ofText [] ++ rest) :=
        ih ⟨hrest, hapart⟩ fun _ _ _ => rfl
      rw [scanFrom_tag hprintable, htail]
      rfl
    | output markup =>
      have htail : scanFrom [] (printAll rest).toList = .ok (ofText [] ++ rest) :=
        ih ⟨hrest, hapart⟩ fun _ _ _ => rfl
      rw [scanFrom_output hprintable, htail]
      rfl

/-- Tokens that can be told apart are got back from their source. -/
theorem scan_printAll {tokens : List Token} (h : AllPrintable tokens) :
    scan (printAll tokens) = .ok tokens :=
  scanFrom_printAll h fun _ _ _ => rfl

/-- Tokens with halves of marks and with marks of the other kind in them. -/
def halfMarks : List Token :=
  [.text "\x7b a %\x7d", .tag "if" "x \x7d\x7d %", .output "y %\x7d \x7b", .tag "endif" "",
   .text "\x7d"]

theorem scan_printAll_halfMarks : scan (printAll halfMarks) = .ok halfMarks := by
  refine scan_printAll ⟨fun token h => ?_, by simp [halfMarks, IsText]⟩
  simp only [halfMarks, List.mem_cons, List.not_mem_nil, or_false] at h
  rcases h with rfl | rfl | rfl | rfl | rfl <;> simp [Printable] <;> decide

end Token

end Liquid
