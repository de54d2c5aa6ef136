import Liquid.Context.Resolve
import Liquid.Proofs.Number.Digits

/-!
# Literal tokens

The forms that a literal token may have, and what a token of each form denotes. A token is read as a
literal exactly when it has one of the forms. So quoted texts, the decimal texts of whole numbers,
and ranges between two of these resolve to what they spell.
-/

namespace Liquid

open Number Text

namespace Literal

/-- The words that stand for values, and no text at all. -/
def keywords : List (String × Value) :=
  [("", .null), ("nil", .null), ("null", .null), ("true", .bool true), ("false", .bool false),
   ("blank", .text ""), ("empty", .text "")]

/-- Two texts with two points between them: both have something in them, and in the whole no two
points with something behind them stand further on. -/
structure IsLastSplit (low high : List Char) : Prop where
  low_ne_nil : low ≠ []
  high_ne_nil : high ≠ []
  last : ∀ low' high', low ++ '.' :: '.' :: high = low' ++ '.' :: '.' :: high' → high' ≠ [] →
    low'.length ≤ low.length

/-- The forms of literal tokens. -/
inductive Denotes : List Char → Literal → Prop
  | keyword {word : String} {v : Value} (h : (word, v) ∈ keywords) : Denotes word.toList (.value v)
  /-- A text between two equal quotes, whatever it holds. -/
  | quoted {q : Char} (inner : List Char) (hq : isQuote q = true) :
      Denotes (q :: (inner ++ [q])) (.value (.text (String.ofList inner)))
  /-- A run of digits, as the word of 64 bits that it spells. -/
  | whole {digits : List Char} {n : Int64} (h : isDigits digits = true)
      (hn : n.toInt = digitsValue digits) : Denotes digits (.value (.int n))
  /-- A run of digits for which there is no such word. -/
  | wide {digits : List Char} (h : isDigits digits = true)
      (hwide : Int64.maxValue.toInt < digitsValue digits) :
      Denotes digits (.value (.float (doubleOfDigits digits [])))
  | fraction {whole tail : List Char} (hwhole : isDigits whole = true)
      (htail : isDigits tail = true) :
      Denotes (whole ++ '.' :: tail) (.value (.float (doubleOfDigits whole tail)))
  /-- Two texts without blanks in parentheses, with two points between them. -/
  | range {low high : List Char} (hblank : ∀ c ∈ low ++ high, isBlank c = false)
      (hsplit : IsLastSplit low high) :
      Denotes ('(' :: (low ++ '.' :: '.' :: (high ++ [')'])))
        (.range (String.ofList low) (String.ofList high))

/-! ### Splitting a range -/

section Split

variable {cs low high : List Char}

lemma exists_splitAtDots? (hlow : low ≠ []) (hhigh : high ≠ []) :
    ∃ found, splitAtDots? (low ++ '.' :: '.' :: high) = some found := by
  induction low with
  | nil => exact absurd rfl hlow
  | cons c low ih =>
    rw [List.cons_append, splitAtDots?.eq_def]
    dsimp only
    cases hrest : splitAtDots? (low ++ '.' :: '.' :: high) with
    | some found => exact ⟨_, rfl⟩
    | none =>
      cases low with
      | nil =>
        obtain ⟨d, rest, rfl⟩ := List.exists_cons_of_ne_nil hhigh
        exact ⟨_, rfl⟩
      | cons d low =>
        obtain ⟨found, hfound⟩ := ih (List.cons_ne_nil d low)
        rw [hrest] at hfound
        cases hfound

lemma isLastSplit_of_splitAtDots? (h : splitAtDots? cs = some (low, high)) :
    cs = low ++ '.' :: '.' :: high ∧ IsLastSplit low high := by
  refine ⟨splitAtDots?_eq_some h, ?_⟩
  fun_induction splitAtDots? cs generalizing low with
  | case1 => cases h
  | case2 c cs front back hfound ih =>
    cases h
    obtain ⟨hfront, hback, hlast⟩ := ih hfound
    refine ⟨List.cons_ne_nil _ _, hback, fun low' high' heq hne => ?_⟩
    cases low' with
    | nil => exact Nat.zero_le _
    | cons d low' => exact Nat.succ_le_succ (hlast low' high' (List.cons.inj heq).2 hne)
  | case3 c d rest hnone =>
    cases h
    refine ⟨List.cons_ne_nil _ _, List.cons_ne_nil _ _, fun low' high' heq hne => ?_⟩
    cases low' with
    | nil => exact Nat.zero_le _
    | cons e low' =>
      cases low' with
      | nil => exact Nat.le_refl _
      | cons f low' =>
        obtain ⟨found, hfound⟩ := exists_splitAtDots? (List.cons_ne_nil f low') hne
        have hrest : '.' :: '.' :: d :: rest = f :: low' ++ '.' :: '.' :: high' :=
          (List.cons.inj heq).2
        rw [← hrest, hnone] at hfound
        cases hfound
  | case4 => cases h

lemma splitAtDots?_of_isLastSplit (h : IsLastSplit low high) :
    splitAtDots? (low ++ '.' :: '.' :: high) = some (low, high) := by
  obtain ⟨⟨low', high'⟩, hfound⟩ := exists_splitAtDots? h.low_ne_nil h.high_ne_nil
  obtain ⟨heq, hlast⟩ := isLastSplit_of_splitAtDots? hfound
  have hlength : low.length = low'.length :=
    Nat.le_antisymm (hlast.last low high heq.symm h.high_ne_nil)
      (h.last low' high' heq hlast.high_ne_nil)
  obtain ⟨rfl, hback⟩ := List.append_inj heq hlength
  cases hback
  exact hfound

end Split

/-! ### Reading each form -/

section Forms

variable {cs low high : List Char} {v : Value}

lemma keyword?_eq_some (h : keyword? cs = some v) : (String.ofList cs, v) ∈ keywords := by
  unfold keyword? at h
  split at h
  all_goals first
    | cases h
      rename_i hword
      rw [hword]
      simp [keywords]
    | cases h

lemma keyword?_of_mem {word : String} (h : (word, v) ∈ keywords) :
    keyword? word.toList = some v := by
  unfold keyword?
  rw [String.ofList_toList]
  simp only [keywords, List.mem_cons, List.not_mem_nil, or_false, Prod.mk.injEq] at h
  rcases h with ⟨rfl, rfl⟩ | ⟨rfl, rfl⟩ | ⟨rfl, rfl⟩ | ⟨rfl, rfl⟩ | ⟨rfl, rfl⟩ | ⟨rfl, rfl⟩ |
    ⟨rfl, rfl⟩
  all_goals rfl

lemma keyword?_eq_none_of_head {c : Char} (hc : c.isAlpha = false) (cs : List Char) :
    keyword? (c :: cs) = none := by
  rw [Option.eq_none_iff_forall_ne_some]
  intro v h
  have hstart : ∀ entry ∈ keywords, ∀ d ∈ entry.1.toList.head?, d.isAlpha = true := by
    simp [keywords]
  have halpha := hstart _ (keyword?_eq_some h) c (by simp)
  rw [hc] at halpha
  cases halpha

lemma unquote?_eq_some_iff {inner : List Char} :
    unquote? cs = some inner ↔ ∃ q, isQuote q = true ∧ cs = q :: (inner ++ [q]) := by
  constructor
  · intro h
    cases cs with
    | nil => cases h
    | cons q ds =>
      simp only [unquote?] at h
      split_ifs at h with hq
      cases h
      exact ⟨q, hq.1, by rw [List.dropLast_append_getLast? q hq.2]⟩
  · rintro ⟨q, hq, rfl⟩
    simp [unquote?, hq]

lemma unquote?_eq_none_of_head {c : Char} (hc : isQuote c = false) (cs : List Char) :
    unquote? (c :: cs) = none := by
  simp [unquote?, hc]

lemma fraction?_eq_some (h : fraction? cs = some v) :
    ∃ whole tail, isDigits whole = true ∧ isDigits tail = true ∧ cs = whole ++ '.' :: tail ∧
      v = .float (doubleOfDigits whole tail) := by
  unfold fraction? at h
  split at h
  · rename_i whole tail hsplit
    split_ifs at h with hdigits
    obtain ⟨hwhole, htail⟩ := (Bool.and_eq_true _ _).mp hdigits
    obtain ⟨rfl, -⟩ := splitAtChar?_eq_some hsplit
    rw [readFloat?_of_point hwhole htail] at h
    cases h
    exact ⟨whole, tail, hwhole, htail, rfl, rfl⟩
  · cases h

lemma point_not_mem_of_isDigits (h : isDigits cs = true) : '.' ∉ cs := fun hmem =>
  absurd ((isDigits_iff.1 h).2 '.' hmem) (by decide)

lemma fraction?_of_point {whole tail : List Char} (hwhole : isDigits whole = true)
    (htail : isDigits tail = true) :
    fraction? (whole ++ '.' :: tail) = some (.float (doubleOfDigits whole tail)) := by
  have hsplit := splitAtChar?_append (point_not_mem_of_isDigits hwhole) tail
  simp [fraction?, hsplit, hwhole, htail, readFloat?_of_point hwhole htail]

lemma rangeEnds?_eq_some_iff :
    rangeEnds? cs = some (low, high) ↔
      cs = '(' :: (low ++ '.' :: '.' :: (high ++ [')'])) ∧
        (∀ c ∈ low ++ high, isBlank c = false) ∧ IsLastSplit low high := by
  constructor
  · intro h
    unfold rangeEnds? at h
    split at h
    · rename_i ds
      split_ifs at h with hshape
      obtain ⟨hlast, hblank⟩ := hshape
      obtain ⟨hsplit, hends⟩ := isLastSplit_of_splitAtDots? h
      have hds : ds = low ++ '.' :: '.' :: (high ++ [')']) := by
        rw [← List.dropLast_append_getLast? _ hlast, hsplit]
        simp
      refine ⟨by rw [hds], fun c hc => ?_, hends⟩
      have hmem : c ∈ ds := by
        rw [hds]
        rcases List.mem_append.1 hc with hc | hc <;> simp [hc]
      simpa using List.all_eq_true.1 hblank c hmem
    · cases h
  · rintro ⟨rfl, hblank, hends⟩
    have hall : (low ++ '.' :: '.' :: (high ++ [')'])).all (!isBlank ·) = true := by
      have hpoint : isBlank '.' = false := by decide
      have hclosing : isBlank ')' = false := by decide
      obtain ⟨hlow, hhigh⟩ := List.forall_mem_append.1 hblank
      simp [hpoint, hclosing]
      exact ⟨hlow, hhigh⟩
    have hinner : low ++ '.' :: '.' :: (high ++ [')']) = low ++ '.' :: '.' :: high ++ [')'] := by
      simp
    have hlast : (low ++ '.' :: '.' :: (high ++ [')'])).getLast? = some ')' := by
      rw [hinner, List.getLast?_concat]
    have hdrop : (low ++ '.' :: '.' :: (high ++ [')'])).dropLast = low ++ '.' :: '.' :: high := by
      rw [hinner, List.dropLast_concat]
    simp only [rangeEnds?, hlast, hall, hdrop, and_self, if_true]
    exact splitAtDots?_of_isLastSplit hends

end Forms

/-! ### Reading a token -/

section Reading

variable {cs : List Char} {v : Value} {literal : Literal}

lemma denotes_of_value? (h : value? cs = some v) : Denotes cs (.value v) := by
  unfold value? at h
  rcases Option.or_eq_some_iff.1 h with h | ⟨-, h⟩
  · have hword := Denotes.keyword (keyword?_eq_some h)
    rwa [String.toList_ofList] at hword
  rcases Option.or_eq_some_iff.1 h with h | ⟨-, h⟩
  · obtain ⟨inner, hinner, rfl⟩ := Option.map_eq_some_iff.1 h
    obtain ⟨q, hq, rfl⟩ := unquote?_eq_some_iff.1 hinner
    exact .quoted inner hq
  rcases Option.or_eq_some_iff.1 h with h | ⟨-, h⟩
  · unfold whole? at h
    split_ifs at h with hdigits
    split at h
    · rename_i n hn
      cases h
      exact .whole hdigits ((readInt64?_eq_some_iff hdigits).1 hn)
    · rename_i hnone
      rw [readFloat?_of_isDigits hdigits] at h
      cases h
      exact .wide hdigits ((readInt64?_eq_none_iff hdigits).1 hnone)
  · obtain ⟨whole, tail, hwhole, htail, rfl, rfl⟩ := fraction?_eq_some h
    exact .fraction hwhole htail

lemma value?_of_head {c : Char} (halpha : c.isAlpha = false) (hquote : isQuote c = false)
    (cs : List Char) : value? (c :: cs) = (whole? (c :: cs)).or (fraction? (c :: cs)) := by
  simp [value?, keyword?_eq_none_of_head halpha, unquote?_eq_none_of_head hquote]

lemma value?_of_isDigits {digits : List Char} (h : isDigits digits = true) (rest : List Char) :
    value? (digits ++ rest) = (whole? (digits ++ rest)).or (fraction? (digits ++ rest)) := by
  obtain ⟨hne, hdigits⟩ := isDigits_iff.1 h
  obtain ⟨c, tail, rfl⟩ := List.exists_cons_of_ne_nil hne
  have hc : c.isAlpha = false ∧ isQuote c = false :=
    of_isDigit (P := fun d => d.isAlpha = false ∧ isQuote d = false) (by decide)
      (hdigits c List.mem_cons_self)
  exact value?_of_head hc.1 hc.2 _

lemma whole?_of_isDigits {digits : List Char} (h : isDigits digits = true) :
    value? digits = whole? digits := by
  have hfraction : fraction? digits = none := by
    have hsplit := splitAtChar?_eq_none_iff.2 (point_not_mem_of_isDigits h)
    simp [fraction?, hsplit]
  have hvalue := value?_of_isDigits h []
  rw [List.append_nil] at hvalue
  rw [hvalue, hfraction, Option.or_none]

lemma value?_of_denotes (h : Denotes cs (.value v)) : value? cs = some v := by
  cases h with
  | keyword h => simp [value?, keyword?_of_mem h]
  | @quoted q inner hq =>
    have hcases : q = '"' ∨ q = '\'' := by simpa [isQuote] using hq
    have halpha : q.isAlpha = false := by rcases hcases with rfl | rfl <;> decide
    have hinner : unquote? (q :: (inner ++ [q])) = some inner :=
      unquote?_eq_some_iff.2 ⟨q, hq, rfl⟩
    simp [value?, keyword?_eq_none_of_head halpha, hinner]
  | whole h hn =>
    have hread := (readInt64?_eq_some_iff h).2 hn
    rw [whole?_of_isDigits h, whole?, if_pos h, hread]
  | wide h hwide =>
    have hread := (readInt64?_eq_none_iff h).2 hwide
    rw [whole?_of_isDigits h, whole?, if_pos h, hread, readFloat?_of_isDigits h]
    rfl
  | @fraction whole tail hwhole htail =>
    have hnot : ¬isDigits (whole ++ '.' :: tail) = true := fun hdigits =>
      point_not_mem_of_isDigits hdigits (by simp)
    have hnone : whole? (whole ++ '.' :: tail) = none := by
      rw [whole?, if_neg hnot]
    rw [value?_of_isDigits hwhole, hnone, fraction?_of_point hwhole htail, Option.none_or]

lemma value?_parenthesis (cs : List Char) : value? ('(' :: cs) = none := by
  have hnot : ¬isDigits ('(' :: cs) = true := fun hdigits =>
    absurd ((isDigits_iff.1 hdigits).2 '(' List.mem_cons_self) (by decide)
  have hfraction : fraction? ('(' :: cs) = none := by
    rw [Option.eq_none_iff_forall_ne_some]
    intro v h
    obtain ⟨whole, tail, hwhole, -, heq, -⟩ := fraction?_eq_some h
    obtain ⟨hne, hdigits⟩ := isDigits_iff.1 hwhole
    obtain ⟨c, rest, rfl⟩ := List.exists_cons_of_ne_nil hne
    obtain rfl := (List.cons.inj heq).1
    exact absurd (hdigits '(' List.mem_cons_self) (by decide)
  rw [value?_of_head (by decide) (by decide), hfraction, whole?, if_neg hnot]
  rfl

lemma read?_eq_some_iff {token : String} :
    read? token = some literal ↔ Denotes token.toList literal := by
  unfold read?
  generalize token.toList = cs
  constructor
  · intro h
    split at h
    · rename_i v hvalue
      cases h
      exact denotes_of_value? hvalue
    · obtain ⟨⟨low, high⟩, hends, rfl⟩ := Option.map_eq_some_iff.1 h
      obtain ⟨rfl, hblank, hsplit⟩ := rangeEnds?_eq_some_iff.1 hends
      exact .range hblank hsplit
  · intro h
    cases literal with
    | value v => rw [value?_of_denotes h]
    | range low high =>
      generalize hliteral : Literal.range low high = literal at h
      cases h with
      | @range low' high' hblank hsplit =>
        cases hliteral
        rw [value?_parenthesis, rangeEnds?_eq_some_iff.2 ⟨rfl, hblank, hsplit⟩]
        rfl
      | _ => cases hliteral

lemma toNat_lt_of_isAlphanum {c : Char} (h : c.isAlphanum = true) : c.toNat < 128 := by
  change (decide (65 ≤ c.val ∧ c.val ≤ 90) || decide (97 ≤ c.val) && decide (c.val ≤ 122) ||
    decide (48 ≤ c.val) && decide (c.val ≤ 57)) = true at h
  change c.val.toNat < 128
  simp only [Bool.or_eq_true, Bool.and_eq_true, decide_eq_true_eq, UInt32.le_iff_toNat_le] at h
  rcases h with (⟨-, h⟩ | ⟨-, h⟩) | ⟨-, h⟩ <;> exact Nat.lt_of_le_of_lt h (by decide)

/-- A literal that starts with neither a quote nor a parenthesis is made of letters and digits of the
ASCII range and points. -/
lemma isAlphanum_of_denotes (h : Denotes cs literal)
    (hhead : ∀ c ∈ cs.head?, isQuote c = false ∧ c ≠ '(') :
    ∀ c ∈ cs, c.isAlphanum = true ∨ c = '.' := by
  have hdigits {digits : List Char} (hall : isDigits digits = true) :
      ∀ c ∈ digits, c.isAlphanum = true ∨ c = '.' := fun c hc =>
    .inl <| of_isDigit (P := fun d => d.isAlphanum = true) (by decide) ((isDigits_iff.1 hall).2 c hc)
  cases h with
  | @keyword word v hword =>
    have hletters : ∀ entry ∈ keywords, ∀ c ∈ entry.1.toList, c.isAlphanum = true ∨ c = '.' := by
      simp [keywords]
    exact hletters _ hword
  | quoted inner hq =>
    have hnot := (hhead _ rfl).1
    rw [hq] at hnot
    cases hnot
  | whole hall | wide hall => exact hdigits hall
  | fraction hwhole htail =>
    exact List.forall_mem_append.2
      ⟨hdigits hwhole, List.forall_mem_cons.2 ⟨.inr rfl, hdigits htail⟩⟩
  | range => exact absurd rfl (hhead _ rfl).2

lemma value?_eq_none_of_mem {c : Char} (hhead : ∀ d ∈ cs.head?, isQuote d = false ∧ d ≠ '(')
    (hmem : c ∈ cs) (hc : c.isAlphanum = false) (hpoint : c ≠ '.') : value? cs = none := by
  rw [Option.eq_none_iff_forall_ne_some]
  intro v h
  rcases isAlphanum_of_denotes (denotes_of_value? h) hhead c hmem with halphanum | heq
  · rw [hc] at halphanum
    cases halphanum
  · exact hpoint heq

end Reading

/-- Of three points the last two divide a range. -/
example : read? "(1...3)" = some (.range "1." "3") := rfl

end Literal

/-! ### Resolving literals -/

lemma Value.exists_range (low high : Int64) :
    ∃ items, Value.range low high = .list items ∧
      (items.length : Int) = max 0 (high.toInt - low.toInt + 1) ∧
      ∀ i (h : i < items.length), ∃ n : Int64, items[i] = .int n ∧ n.toInt = low.toInt + i := by
  refine ⟨_, rfl, ?_, fun i h => ⟨low + Int64.ofNat i, by simp, ?_⟩⟩
  · rw [List.length_map, List.length_range]
    omega
  · have hlow := low.le_toInt
    have hhigh := high.toInt_lt
    rw [List.length_map, List.length_range] at h
    have hword : low + Int64.ofNat i = Int64.ofInt (low.toInt + i) := by
      rw [Int64.ofInt_add, Int64.ofInt_toInt]
      rfl
    rw [hword]
    exact Int64.toInt_ofInt_of_le (by omega) (by omega)

lemma resolve_of_value? {token : String} {v : Value} (h : Literal.value? token.toList = some v)
    (ctx : Context) : resolve token ctx = (v, ctx) := by
  have htoken : Expr.ofToken token = .literal v := by
    rw [Expr.ofToken, Expr.ofChars, h]
  rw [resolve, htoken]
  rfl

lemma resolve_quotes (s : String) (ctx : Context) : resolve ("'" ++ s ++ "'") ctx = (.text s, ctx) := by
  have hquoted := Literal.value?_of_denotes (.quoted s.toList (q := '\'') (by decide))
  have htoken : ("'" ++ s ++ "'").toList = '\'' :: (s.toList ++ ['\'']) := by simp
  rw [String.ofList_toList, ← htoken] at hquoted
  exact resolve_of_value? hquoted ctx

lemma Expr.ofChars_range {low high : List Char} (hblank : ∀ c ∈ low ++ high, isBlank c = false)
    (hsplit : Literal.IsLastSplit low high) :
    ofChars ('(' :: (low ++ '.' :: '.' :: (high ++ [')']))) =
      .range (ofChars low) (ofChars high) := by
  have hends := Literal.rangeEnds?_eq_some_iff.2 ⟨rfl, hblank, hsplit⟩
  rw [ofChars, Literal.value?_parenthesis]
  dsimp only
  split
  · rename_i hfound
    rw [hends] at hfound
    cases hfound
    rfl
  · rename_i hnone
    rw [hends] at hnone
    cases hnone

lemma Literal.isLastSplit_of_not_mem {low high : List Char} (hlow : low ≠ []) (hhigh : high ≠ [])
    (h : '.' ∉ high) : IsLastSplit low high := by
  refine ⟨hlow, hhigh, fun low' high' heq _ => ?_⟩
  rcases List.append_eq_append_iff.1 heq with ⟨more, rfl, hmore⟩ | ⟨more, rfl, -⟩
  · cases more with
    | nil => simp
    | cons c more =>
      exfalso
      have hrest : '.' :: high = more ++ '.' :: '.' :: high' := (List.cons.inj hmore).2
      cases more with
      | nil => exact h ((List.cons.inj hrest).2 ▸ List.mem_cons_self)
      | cons d more =>
        apply h
        rw [(List.cons.inj hrest).2]
        simp
  · simp

lemma Expr.ofChars_digits {low high : List Char} (hlow : isDigits low = true)
    (hhigh : isDigits high = true) :
    ofChars ('(' :: (low ++ '.' :: '.' :: (high ++ [')']))) =
      .range (ofChars low) (ofChars high) := by
  obtain ⟨hlowne, hlowdigits⟩ := isDigits_iff.1 hlow
  obtain ⟨hhighne, hhighdigits⟩ := isDigits_iff.1 hhigh
  refine ofChars_range (List.forall_mem_append.2 ⟨fun c hc => ?_, fun c hc => ?_⟩)
    (Literal.isLastSplit_of_not_mem hlowne hhighne (Literal.point_not_mem_of_isDigits hhigh))
  · exact of_isDigit (P := fun d => isBlank d = false) (by decide) (hlowdigits c hc)
  · exact of_isDigit (P := fun d => isBlank d = false) (by decide) (hhighdigits c hc)

namespace Literal

/-- A token is read as a literal exactly when it has one of the forms of literals, and then as what
that form denotes; digits of other scripts make no literal. So a text in quotes resolves to itself,
the decimal text of a whole number to that number, and a range of two such texts to the list of all
whole numbers from the one to the other. -/
theorem reads_denotations :
    (∀ token literal, read? token = some literal ↔ Denotes token.toList literal) ∧
      (∀ token, (∀ c ∈ token.toList.head?, isQuote c = false ∧ c ≠ '(') →
        (∃ c ∈ token.toList, 128 ≤ c.toNat) → read? token = none) ∧
      (∀ (s : String) (ctx : Context), (resolve ("'" ++ s ++ "'")).run ctx = (.text s, ctx)) ∧
      (∀ a : Int64, 0 ≤ a.toInt → ∀ ctx : Context,
        (resolve (toString a)).run ctx = (.int a, ctx)) ∧
      ∀ a b : Int64, 0 ≤ a.toInt → 0 ≤ b.toInt → ∀ ctx : Context, ∃ items,
        (resolve ("(" ++ toString a ++ ".." ++ toString b ++ ")")).run ctx = (.list items, ctx) ∧
          (items.length : Int) = max 0 (b.toInt - a.toInt + 1) ∧
          ∀ i (h : i < items.length), ∃ n : Int64, items[i] = .int n ∧ n.toInt = a.toInt + i := by
  have hnumber {n : Int64} (hn : 0 ≤ n.toInt) : value? (toString n).toList = some (.int n) := by
    obtain ⟨hdigits, hvalue⟩ := digits_toString hn
    exact value?_of_denotes (.whole hdigits hvalue)
  refine ⟨fun _ _ => read?_eq_some_iff, fun token hhead hwide => ?_, resolve_quotes,
    fun a ha ctx => resolve_of_value? (hnumber ha) ctx, fun a b ha hb ctx => ?_⟩
  · rw [Option.eq_none_iff_forall_ne_some]
    intro literal h
    obtain ⟨c, hc, hge⟩ := hwide
    rcases isAlphanum_of_denotes (read?_eq_some_iff.1 h) hhead c hc with halphanum | rfl
    · exact absurd (toNat_lt_of_isAlphanum halphanum) (Nat.not_lt.2 hge)
    · exact absurd hge (by decide)
  · have hresolve : resolve ("(" ++ toString a ++ ".." ++ toString b ++ ")") ctx =
        (Value.range a b, ctx) := by
      have hends {n : Int64} (hn : 0 ≤ n.toInt) :
          Expr.ofChars (toString n).toList = .literal (.int n) := by
        rw [Expr.ofChars, hnumber hn]
      have htoken : ("(" ++ toString a ++ ".." ++ toString b ++ ")").toList =
          '(' :: ((toString a).toList ++ '.' :: '.' :: ((toString b).toList ++ [')'])) := by simp
      rw [resolve, Expr.ofToken, htoken,
        Expr.ofChars_digits (digits_toString ha).1 (digits_toString hb).1, hends ha, hends hb]
      rfl
    obtain ⟨items, hitems, hlength, heach⟩ := Value.exists_range a b
    exact ⟨items, by rw [← hitems]; exact hresolve, hlength, heach⟩

theorem reads_denotations_months :
    (read? "٣" = none ∧ ∀ c ∈ "٣".toList.head?, isQuote c = false ∧ c ≠ '(') ∧
      0 ≤ (1 : Int64).toInt ∧ 0 ≤ (12 : Int64).toInt ∧
      (resolve (toString (12 : Int64))).run {} = (.int 12, {}) ∧
      ∃ items, (resolve "(1..12)").run {} = (.list items, {}) ∧ items.length = 12 ∧
        ∃ n : Int64, items[11]? = some (.int n) ∧ n.toInt = 12 := by
  obtain ⟨-, hother, -, hnumber, hrange⟩ := reads_denotations
  have hone : 0 ≤ (1 : Int64).toInt := by decide
  have htwelve : 0 ≤ (12 : Int64).toInt := by decide
  have hhead : ∀ c ∈ "٣".toList.head?, isQuote c = false ∧ c ≠ '(' := by
    rintro _ ⟨⟩
    decide
  have hwide : ∃ c ∈ "٣".toList, 128 ≤ c.toNat := ⟨'٣', by decide, by decide⟩
  obtain ⟨items, hitems, hlength, heach⟩ := hrange 1 12 hone htwelve {}
  have hcount : items.length = 12 := by
    have hmax : max 0 ((12 : Int64).toInt - (1 : Int64).toInt + 1) = 12 := by decide
    omega
  obtain ⟨n, hitem, hn⟩ := heach 11 (by omega)
  refine ⟨⟨hother _ hhead hwide, hhead⟩, hone, htwelve, hnumber 12 htwelve {}, items, ?_, hcount, n,
    ?_, ?_⟩
  · have htext :
        "(" ++ toString (1 : Int64) ++ ".." ++ toString (12 : Int64) ++ ")" = "(1..12)" := by decide
    rw [← htext]
    exact hitems
  · rw [List.getElem?_eq_getElem (by omega), hitem]
  · rw [hn]
    decide

end Literal

end Liquid
