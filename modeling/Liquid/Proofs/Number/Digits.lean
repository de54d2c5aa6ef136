import Liquid.Number.Numeral
import Liquid.Proofs.Token.Print

/-!
# Numbers in digits

What is read from a run of digits, and from two runs with a point between them. The decimal text of
a whole number is a run of digits that is read as that number.
-/

namespace Liquid.Number

open Text (takeWhile_append_of_stop)

variable {cs rest whole tail : List Char}

lemma isDigits_iff : isDigits cs = true ↔ cs ≠ [] ∧ ∀ c ∈ cs, c.isDigit = true := by
  simp [isDigits]

lemma of_isDigit {P : Char → Prop} [DecidablePred P]
    (hall : "0123456789".toList.all (fun d => decide (P d)) = true) {c : Char}
    (h : c.isDigit = true) : P c := by
  have hrange : 48 ≤ c.toNat ∧ c.toNat ≤ 57 := by
    simpa [Char.isDigit, UInt32.le_iff_toNat_le] using h
  have hdigits : ∀ n ∈ List.range' 48 10, Char.ofNat n ∈ "0123456789".toList := by decide
  have hmem : c.toNat ∈ List.range' 48 10 := by
    rw [List.mem_range'_1]
    omega
  have hc := hdigits c.toNat hmem
  rw [Char.ofNat_toNat] at hc
  exact of_decide_eq_true (List.all_eq_true.1 hall c hc)

lemma splitSign_of_isDigits (h : isDigits cs = true) (rest : List Char) :
    splitSign (cs ++ rest) = (false, cs ++ rest) := by
  obtain ⟨hne, hdigits⟩ := isDigits_iff.1 h
  obtain ⟨c, ds, rfl⟩ := List.exists_cons_of_ne_nil hne
  have hc : c.isDigit = true := hdigits c List.mem_cons_self
  have hsign : c ≠ '-' ∧ c ≠ '+' := of_isDigit (P := fun d => d ≠ '-' ∧ d ≠ '+') (by decide) hc
  unfold splitSign
  split
  · rename_i heq
    exact absurd (List.cons.inj heq).1 hsign.1
  · rename_i heq
    exact absurd (List.cons.inj heq).1 hsign.2
  · rfl

/-! ### Whole numbers -/

lemma readInt64?_of_isDigits (h : isDigits cs = true) :
    readInt64? cs = if (digitsValue cs : Int) ≤ Int64.maxValue.toInt then
      some (Int64.ofInt (digitsValue cs)) else none := by
  have hsign := splitSign_of_isDigits h []
  have hmin : Int64.minValue.toInt ≤ (digitsValue cs : Int) := by
    rw [Int64.toInt_minValue]
    omega
  rw [List.append_nil] at hsign
  simp only [readInt64?, hsign, h, if_true, Bool.false_eq_true, if_false, toInt64?, hmin, true_and]

lemma readInt64?_eq_some_iff (h : isDigits cs = true) {n : Int64} :
    readInt64? cs = some n ↔ n.toInt = digitsValue cs := by
  rw [readInt64?_of_isDigits h]
  split_ifs with hle
  · have hword : (Int64.ofInt (digitsValue cs)).toInt = digitsValue cs := by
      rw [Int64.toInt_maxValue] at hle
      exact Int64.toInt_ofInt_of_le (by omega) (by omega)
    rw [Option.some.injEq, eq_comm, ← Int64.toInt_inj, hword]
  · have hlt := n.toInt_lt
    rw [Int64.toInt_maxValue] at hle
    refine ⟨fun hnone => ?_, fun heq => ?_⟩
    · cases hnone
    · omega

lemma readInt64?_eq_none_iff (h : isDigits cs = true) :
    readInt64? cs = none ↔ Int64.maxValue.toInt < digitsValue cs := by
  rw [readInt64?_of_isDigits h]
  split_ifs with hle
  · simpa using hle
  · simpa using hle

lemma digitsValue_repr (n : Nat) : digitsValue (Nat.repr n).toList = n := by
  rw [Nat.toList_repr]
  exact Nat.ofDigitChars_toDigits (by decide) (by decide)

lemma isDigits_repr (n : Nat) : isDigits (Nat.repr n).toList = true := by
  rw [Nat.toList_repr, isDigits_iff]
  exact ⟨Nat.toDigits_ne_nil, fun c => Nat.isDigit_of_mem_toDigits (by decide) (by decide)⟩

lemma digits_toString {n : Int64} (h : 0 ≤ n.toInt) :
    isDigits (toString n).toList = true ∧ n.toInt = digitsValue (toString n).toList := by
  obtain ⟨m, hm⟩ := Int.eq_ofNat_of_zero_le h
  have htext : toString n = Nat.repr m := by
    change toString n.toInt = _
    rw [hm]
    rfl
  rw [htext, digitsValue_repr]
  exact ⟨isDigits_repr m, hm⟩

/-! ### Doubles -/

lemma splitPoint?_of_isDigits (h : isDigits cs = true) : splitPoint? cs = some (cs, []) := by
  obtain ⟨hne, hdigits⟩ := isDigits_iff.1 h
  obtain ⟨htake, hdrop⟩ := @takeWhile_append_of_stop _ _ [] hdigits (by simp)
  rw [List.append_nil] at htake hdrop
  simp [splitPoint?, htake, hdrop, hne]

lemma splitPoint?_of_point (hwhole : isDigits whole = true) (htail : isDigits tail = true) :
    splitPoint? (whole ++ '.' :: tail) = some (whole, tail) := by
  obtain ⟨hne, hdigits⟩ := isDigits_iff.1 hwhole
  obtain ⟨htake, hdrop⟩ := @takeWhile_append_of_stop _ _ ('.' :: tail) hdigits (by simp)
  have hall : tail.all Char.isDigit = true := List.all_eq_true.2 (isDigits_iff.1 htail).2
  simp [splitPoint?, htake, hdrop, hall, hne]

lemma read?_of_splitPoint? (hcs : isDigits cs = true)
    (hrest : ∀ c ∈ rest, c.isDigit = true ∨ c = '.')
    (hpoint : splitPoint? (cs ++ rest) = some (whole, tail)) :
    Numeral.read? (cs ++ rest) =
      some (.finite false (digitsValue (whole ++ tail)) (-(tail.length : Int))) := by
  obtain ⟨hne, hdigits⟩ := isDigits_iff.1 hcs
  have hsign := splitSign_of_isDigits hcs rest
  -- The first character is a digit, so the text is none of the words.
  have hword (word : String) (hstart : word.toList.head?.any Char.isDigit = false) :
      (String.ofList ((cs ++ rest).map Char.toLower) == word) = false := by
    rw [beq_eq_false_iff_ne]
    rintro rfl
    obtain ⟨c, ds, rfl⟩ := List.exists_cons_of_ne_nil hne
    have hc : c.isDigit = true := hdigits c List.mem_cons_self
    have hlower : c.toLower = c := of_isDigit (P := fun d => d.toLower = d) (by decide) hc
    simp [hlower, hc] at hstart
  have hmark : ∀ c ∈ cs ++ rest, (!(c == 'e' || c == 'E')) = true := by
    intro c hc
    have hkind : c.isDigit = true ∨ c = '.' := by
      rcases List.mem_append.1 hc with hc | hc
      · exact .inl (hdigits c hc)
      · exact hrest c hc
    rcases hkind with hdigit | rfl
    · exact of_isDigit (P := fun d => (!(d == 'e' || d == 'E')) = true) (by decide) hdigit
    · decide
  have hexponent : splitExponent? (cs ++ rest) = some (cs ++ rest, 0) := by
    have hstop := @takeWhile_append_of_stop _ _ [] hmark (by simp)
    rw [List.append_nil] at hstop
    simp only [splitExponent?, hstop.2]
  have hnan := hword "nan" (by decide)
  have hinf := hword "inf" (by decide)
  have hinfinity := hword "infinity" (by decide)
  simp only [Numeral.read?, hsign, hnan, hinf, hinfinity, hexponent, hpoint, Bool.false_eq_true,
    Bool.or_self, if_false, Option.bind_eq_bind, Option.bind_some, Int.zero_sub]

/-- The double of the number with these digits before and behind its point. -/
def doubleOfDigits (whole tail : List Char) : Float :=
  (Numeral.finite false (digitsValue (whole ++ tail)) (-(tail.length : Int))).toFloat

lemma readFloat?_of_isDigits (h : isDigits cs = true) :
    readFloat? cs = some (doubleOfDigits cs []) := by
  have hread := @read?_of_splitPoint? cs [] cs [] h (by simp)
    (by rw [List.append_nil]; exact splitPoint?_of_isDigits h)
  rw [doubleOfDigits]
  rw [List.append_nil] at hread ⊢
  rw [readFloat?, hread]
  rfl

lemma readFloat?_of_point (hwhole : isDigits whole = true) (htail : isDigits tail = true) :
    readFloat? (whole ++ '.' :: tail) = some (doubleOfDigits whole tail) := by
  have hrest : ∀ c ∈ '.' :: tail, c.isDigit = true ∨ c = '.' :=
    List.forall_mem_cons.2 ⟨.inr rfl, fun c hc => .inl ((isDigits_iff.1 htail).2 c hc)⟩
  have hread := read?_of_splitPoint? hwhole hrest (splitPoint?_of_point hwhole htail)
  rw [readFloat?, hread]
  rfl

end Liquid.Number
