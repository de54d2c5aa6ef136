import Liquid.Proofs.Number.Double
import Mathlib.Algebra.Order.Field.Rat
import Mathlib.Order.Compare
import Mathlib.Tactic.Positivity

/-!
# Comparisons

The comparisons that every environment starts with fit each other: swapping the sides turns each of
them into the one that reads the other way round, for any two values. Between whole numbers and
decimals they hold just when the relation holds between the rational numbers that are denoted, so
that these are totally ordered whatever their kinds and scales.
-/

namespace Liquid

/-- What the comparison of a name tells of two values, if there is one of that name. -/
def Operator.tells? (name : String) (l r : Value) : Option Bool :=
  (Fields.find? name defaults).map fun test => (test l r).result

namespace Operator

def comparisons : List String := ["==", "!=", "<>", "<", ">", "<=", ">="]

section Tells

variable (l r : Value)

lemma tells?_eq : tells? "==" l r = some (l.equals r) := rfl

lemma tells?_ne : tells? "!=" l r = some (!l.equals r) := rfl

lemma tells?_unequal : tells? "<>" l r = some (!l.equals r) := rfl

lemma tells?_lt : tells? "<" l r = some (l.compare? r == some .lt) := rfl

lemma tells?_gt : tells? ">" l r = some (l.compare? r == some .gt) := rfl

lemma tells?_le :
    tells? "<=" l r = some (l.compare? r == some .lt || l.compare? r == some .eq) := rfl

lemma tells?_ge :
    tells? ">=" l r = some (l.compare? r == some .gt || l.compare? r == some .eq) := rfl

end Tells

end Operator

/-! ### Swapping the sides -/

namespace Number.Decimal

lemma compare_swap (a b : Decimal) : b.compare a = (a.compare b).swap :=
  (Int.compare_swap _ _).symm

end Number.Decimal

lemma Date.compare_swap (a b : Date) : b.compare a = (a.compare b).swap := by
  unfold compare
  rw [Ordering.swap_then, Ordering.swap_then, Int.compare_swap, Nat.compare_swap, Nat.compare_swap]

lemma DateTime.compare_swap (a b : DateTime) : b.compare a = (a.compare b).swap := by
  unfold compare
  simp only [Ordering.swap_then, ← Date.compare_swap, Nat.compare_swap]

namespace Value

open Number (Decimal)

lemma exactCompare?_swap (a b : Value) :
    b.exactCompare? a = (a.exactCompare? b).map Ordering.swap := by
  cases a with
  | int m =>
    cases b with
    | int n => exact congrArg some (Int.compare_swap _ _).symm
    | decimal d => exact congrArg some (Decimal.compare_swap _ _)
    | _ => rfl
  | decimal c =>
    cases b with
    | int n | decimal d => exact congrArg some (Decimal.compare_swap _ _)
    | _ => rfl
  | _ => cases b <;> rfl

lemma compare?_swap (a b : Value) : b.compare? a = (a.compare? b).map Ordering.swap := by
  unfold compare?
  rw [exactCompare?_swap a b]
  cases a.exactCompare? b with
  | some order => rfl
  | none =>
    cases a with
    | int | float | decimal =>
      cases b with
      | int | float | decimal => exact Double.floatCompare?_swap _ _
      | _ => rfl
    | text s =>
      cases b with
      | text t => exact congrArg some Std.OrientedOrd.eq_swap
      | _ => rfl
    | date c =>
      cases b with
      | date d => exact congrArg some (Date.compare_swap c d)
      | _ => rfl
    | dateTime s =>
      cases b with
      | dateTime t => exact congrArg some (DateTime.compare_swap s t)
      | _ => rfl
    | _ => cases b <;> rfl

mutual

lemma same_comm : (a b : Value) → a.same b = b.same a
  | .list as, b => by
    cases b with
    | list bs => exact sameItems_comm as bs
    | _ => rfl
  | .map as, b => by
    cases b with
    | map bs => exact sameFields_comm as bs
    | _ => rfl
  | .float x, b => by
    cases b with
    | float y => exact Double.beq_comm x y
    | _ => rfl
  | .decimal c, b => by
    cases b with
    | decimal d =>
      unfold same
      rw [Decimal.compare_swap c d]
      cases c.compare d <;> rfl
    | _ => rfl
  | .null, b => by cases b <;> rfl
  | .bool _, b | .int _, b | .text _, b | .date _, b | .dateTime _, b | .deferred .., b
  | .object .., b => by
    cases b <;> first | rfl | exact BEq.comm

lemma sameItems_comm : (as bs : List Value) → sameItems as bs = sameItems bs as
  | [], bs => by cases bs <;> rfl
  | a :: as, [] => rfl
  | a :: as, b :: bs => by
    rw [sameItems, sameItems, same_comm a b, sameItems_comm as bs]

lemma sameFields_comm : (as bs : List (String × Value)) → sameFields as bs = sameFields bs as
  | [], bs => by cases bs <;> rfl
  | a :: as, [] => rfl
  | (j, a) :: as, (k, b) :: bs => by
    rw [sameFields, sameFields, same_comm a b, sameFields_comm as bs, BEq.comm]

end

lemma equals_comm (a b : Value) : a.equals b = b.equals a := by
  unfold equals
  rw [exactCompare?_swap a b]
  cases a.exactCompare? b with
  | some order => cases order <;> rfl
  | none =>
    cases a with
    | int | float | decimal =>
      cases b with
      | int | float | decimal =>
        dsimp only [Option.map_none, toFloat?]
        rw [Double.abs_sub_comm]
      | _ => exact same_comm _ _
    | text =>
      cases b with
      | list | map => rfl
      | _ => exact same_comm _ _
    | list | map =>
      cases b with
      | text => rfl
      | _ => exact same_comm _ _
    | _ => cases b <;> exact same_comm _ _

end Value

/-- The comparisons are there for any two values and fit each other under swapping: equality does
not depend on the sides, its two negations are just that, each order is the other one read from the
right, no two values are ordered both ways, and a strict order is an order and excludes the opposite
one. -/
theorem Operator.tells?_swap (l r : Value) :
    (∀ name ∈ comparisons, ∃ answer, tells? name l r = some answer) ∧
      tells? "==" l r = tells? "==" r l ∧
      tells? "!=" l r = (tells? "==" l r).map not ∧
      tells? "<>" l r = (tells? "==" l r).map not ∧
      tells? "<" l r = tells? ">" r l ∧
      tells? "<=" l r = tells? ">=" r l ∧
      ¬(tells? "<" l r = some true ∧ tells? ">" l r = some true) ∧
      (tells? "<" l r = some true → tells? "<=" l r = some true ∧ tells? ">=" l r = some false) := by
  have hequals : l.equals r = r.equals l := Value.equals_comm l r
  have horder : r.compare? l = (l.compare? r).map Ordering.swap := Value.compare?_swap l r
  refine ⟨?_, ?_, rfl, rfl, ?_, ?_, ?_, ?_⟩
  · simp only [comparisons, List.forall_mem_cons]
    exact ⟨⟨_, tells?_eq l r⟩, ⟨_, tells?_ne l r⟩, ⟨_, tells?_unequal l r⟩, ⟨_, tells?_lt l r⟩,
      ⟨_, tells?_gt l r⟩, ⟨_, tells?_le l r⟩, ⟨_, tells?_ge l r⟩, List.forall_mem_nil _⟩
  · rw [tells?_eq, tells?_eq, hequals]
  · rw [tells?_lt, tells?_gt, horder]
    rcases l.compare? r with _ | ⟨_ | _ | _⟩ <;> rfl
  · rw [tells?_le, tells?_ge, horder]
    rcases l.compare? r with _ | ⟨_ | _ | _⟩ <;> rfl
  · rw [tells?_lt, tells?_gt]
    rcases l.compare? r with _ | ⟨_ | _ | _⟩ <;> decide
  · rw [tells?_lt, tells?_le, tells?_ge]
    rcases l.compare? r with _ | ⟨_ | _ | _⟩ <;> decide

/-! ### Whole numbers and decimals -/

def Number.Decimal.toRat (d : Decimal) : ℚ := d.mantissa / 10 ^ d.scale

/-- The number that a whole number or a decimal denotes. -/
def Value.rational? : Value → Option ℚ
  | .int n => some n.toInt
  | .decimal d => some d.toRat
  | _ => none

namespace Number.Decimal

lemma toRat_ofInt64 (n : Int64) : (ofInt64 n).toRat = n.toInt := by
  simp [toRat, ofInt64]

lemma compare_eq (a b : Decimal) : a.compare b = Ord.compare a.toRat b.toRat := by
  have hpos (d : Decimal) : (0 : ℚ) < 10 ^ d.scale := by positivity
  have hunit (d : Decimal) : ((d.unit : Int) : ℚ) = 10 ^ d.scale := by
    change (((10 ^ d.scale : Nat) : Int) : ℚ) = _
    push_cast
    rfl
  have hlt (a b : Decimal) : a.toRat < b.toRat ↔ a.mantissa * b.unit < b.mantissa * a.unit := by
    unfold toRat
    rw [div_lt_div_iff₀ (hpos a) (hpos b), ← hunit a, ← hunit b]
    norm_cast
  unfold compare
  rcases lt_trichotomy a.toRat b.toRat with h | h | h
  · rw [compare_lt_iff_lt.2 h, compare_lt_iff_lt.2 ((hlt a b).1 h)]
  · have hnot : ¬a.mantissa * b.unit < b.mantissa * a.unit := fun h' => h.not_lt ((hlt a b).2 h')
    have hnot' : ¬b.mantissa * a.unit < a.mantissa * b.unit := fun h' =>
      h.symm.not_lt ((hlt b a).2 h')
    rw [compare_eq_iff_eq.2 h, compare_eq_iff_eq.2 (le_antisymm (not_lt.1 hnot') (not_lt.1 hnot))]
  · rw [compare_gt_iff_gt.2 h, compare_gt_iff_gt.2 ((hlt b a).1 h)]

end Number.Decimal

namespace Value

open Number (Decimal)

variable {l r : Value} {x y : ℚ}

/-- Whole numbers and decimals compare without going through doubles. -/
lemma exactCompare?_of_rational? (hl : l.rational? = some x) (hr : r.rational? = some y) :
    l.exactCompare? r = some (compare x y) := by
  cases l with
  | int m =>
    cases hl
    cases r with
    | int n =>
      cases hr
      have hwhole : compare m.toInt n.toInt = (Decimal.ofInt64 m).compare (Decimal.ofInt64 n) := by
        simp [Decimal.compare, Decimal.ofInt64, Decimal.unit]
      rw [exactCompare?, hwhole, Decimal.compare_eq, Decimal.toRat_ofInt64, Decimal.toRat_ofInt64]
    | decimal d =>
      cases hr
      rw [exactCompare?, Decimal.compare_eq, Decimal.toRat_ofInt64]
    | _ => cases hr
  | decimal c =>
    cases hl
    cases r with
    | int n =>
      cases hr
      rw [exactCompare?, Decimal.compare_eq, Decimal.toRat_ofInt64]
    | decimal d =>
      cases hr
      rw [exactCompare?, Decimal.compare_eq]
    | _ => cases hr
  | _ => cases hl

lemma equals_of_rational? (hl : l.rational? = some x) (hr : r.rational? = some y) :
    l.equals r = decide (x = y) := by
  unfold equals
  rw [exactCompare?_of_rational? hl hr]
  rcases lt_trichotomy x y with h | h | h
  · simp [compare_lt_iff_lt.2 h, h.ne]
  · simp [h]
  · simp [compare_gt_iff_gt.2 h, h.ne']

lemma compare?_of_rational? (hl : l.rational? = some x) (hr : r.rational? = some y) :
    l.compare? r = some (compare x y) := by
  unfold compare?
  rw [exactCompare?_of_rational? hl hr]

end Value

namespace Operator

variable {l r : Value} {x y : ℚ}

/-- A comparison of whole numbers and decimals tells how the numbers they denote relate. -/
def TellsExactly (l r : Value) (x y : ℚ) : Prop :=
  tells? "==" l r = some (decide (x = y)) ∧ tells? "!=" l r = some (decide (x ≠ y)) ∧
    tells? "<" l r = some (decide (x < y)) ∧ tells? ">" l r = some (decide (x > y)) ∧
    tells? "<=" l r = some (decide (x ≤ y)) ∧ tells? ">=" l r = some (decide (x ≥ y))

lemma tellsExactly_of_rational? (hl : l.rational? = some x) (hr : r.rational? = some y) :
    TellsExactly l r x y := by
  have hequals := Value.equals_of_rational? hl hr
  have horder := Value.compare?_of_rational? hl hr
  unfold TellsExactly
  rw [tells?_eq, tells?_ne, tells?_lt, tells?_gt, tells?_le, tells?_ge, hequals, horder]
  rcases lt_trichotomy x y with h | rfl | h
  · simp [compare_lt_iff_lt.2 h, h, h.le, h.ne, h.not_gt, h.not_ge]
  · simp
  · simp [compare_gt_iff_gt.2 h, h, h.le, h.ne', h.not_gt, h.not_ge]

/-- Whole numbers and decimals compare as the rational numbers they denote. Of less, equal and
greater exactly one holds for any two of them, and equality and order are transitive across both
kinds and all scales. -/
theorem tells?_of_rational? {l m r : Value} {x y z : ℚ} (hl : l.rational? = some x)
    (hm : m.rational? = some y) (hr : r.rational? = some z) :
    TellsExactly l m x y ∧
      (∃! name, name ∈ ["<", "==", ">"] ∧ tells? name l m = some true) ∧
      (tells? "==" l m = some true → tells? "==" m r = some true → tells? "==" l r = some true) ∧
      (tells? "<" l m = some true → tells? "<" m r = some true → tells? "<" l r = some true) := by
  obtain ⟨heq, -, hlt, hgt, -, -⟩ := tellsExactly_of_rational? hl hm
  obtain ⟨heq', -, hlt', -⟩ := tellsExactly_of_rational? hm hr
  obtain ⟨heq'', -, hlt'', -⟩ := tellsExactly_of_rational? hl hr
  have holds (name : String) (h : name ∈ ["<", "==", ">"] ∧ tells? name l m = some true) :
      name = "<" ∧ x < y ∨ name = "==" ∧ x = y ∨ name = ">" ∧ x > y := by
    obtain ⟨hname, htells⟩ := h
    simp only [List.mem_cons, List.not_mem_nil, or_false] at hname
    rcases hname with rfl | rfl | rfl
    · exact .inl ⟨rfl, by simpa [hlt] using htells⟩
    · exact .inr (.inl ⟨rfl, by simpa [heq] using htells⟩)
    · exact .inr (.inr ⟨rfl, by simpa [hgt] using htells⟩)
  refine ⟨tellsExactly_of_rational? hl hm, ?_, ?_, ?_⟩
  · rcases lt_trichotomy x y with h | h | h
    · refine ⟨"<", ⟨by simp, by simp [hlt, h]⟩, fun name hname => ?_⟩
      rcases holds name hname with ⟨rfl, h'⟩ | ⟨rfl, h'⟩ | ⟨rfl, h'⟩
      exacts [rfl, absurd h' h.ne, absurd h' h.not_gt]
    · refine ⟨"==", ⟨by simp, by simp [heq, h]⟩, fun name hname => ?_⟩
      rcases holds name hname with ⟨rfl, h'⟩ | ⟨rfl, h'⟩ | ⟨rfl, h'⟩
      exacts [absurd h h'.ne, rfl, absurd h h'.ne']
    · refine ⟨">", ⟨by simp, by simp [hgt, h]⟩, fun name hname => ?_⟩
      rcases holds name hname with ⟨rfl, h'⟩ | ⟨rfl, h'⟩ | ⟨rfl, h'⟩
      exacts [absurd h' h.not_gt, absurd h' h.ne', rfl]
  · simp only [heq, heq', heq'', Option.some.injEq, decide_eq_true_eq]
    exact Eq.trans
  · simp only [hlt, hlt', hlt'', Option.some.injEq, decide_eq_true_eq]
    exact lt_trans

/-- A decimal between two whole numbers that are one number as doubles. -/
def betweenDoubles : Value :=
  .decimal { mantissa := 90071992547409925, scale := 1, mantissa_lt := by decide,
             scale_le := by decide }

theorem tells?_of_rational?_betweenDoubles :
    tells? "<" (.int 9007199254740992) betweenDoubles = some true ∧
      tells? "<" betweenDoubles (.int 9007199254740993) = some true ∧
      tells? "<" (.int 9007199254740992) (.int 9007199254740993) = some true := by
  have hexact := @tells?_of_rational? (.int 9007199254740992) betweenDoubles
    (.int 9007199254740993) _ _ _ rfl rfl rfl
  have hlow : tells? "<" (.int 9007199254740992) betweenDoubles = some true := by decide
  have hhigh : tells? "<" betweenDoubles (.int 9007199254740993) = some true := by decide
  exact ⟨hlow, hhigh, hexact.2.2.2 hlow hhigh⟩

end Operator

end Liquid
