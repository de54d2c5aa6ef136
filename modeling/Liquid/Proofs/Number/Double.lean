import Liquid.Value.Compare
import Mathlib.Tactic.Lemma

/-!
# Doubles under swapping

Two doubles that change places reverse their order and keep their distance. Both hold for all
doubles, bit for bit: the two zeros, the infinities and what is not a number included.

A double is packed into bits after each operation and unpacked before the next one. Of an unpacked
double, a change of sign is all that swapping the operands of a difference can do, and packing keeps
apart the sign from the rest.
-/

namespace Liquid

open Float.Model

namespace Double

/-! ### Order -/

lemma compare_swap (a b : UnpackedFloat) : b.compare a = (a.compare b).map Ordering.swap := by
  cases a with
  | notANumber => cases b <;> rfl
  | infinity s =>
    cases b with
    | infinity t => cases s <;> cases t <;> rfl
    | notANumber | zero | finite => cases s <;> rfl
  | zero s =>
    cases b with
    | infinity t | finite t => cases t <;> rfl
    | notANumber | zero => rfl
  | finite s m e =>
    cases b with
    | infinity t => cases t <;> rfl
    | notANumber => rfl
    | zero t => cases s <;> rfl
    | finite t n f =>
      have hsize : (compare f e).then (compare n m) = ((compare e f).then (compare m n)).swap := by
        rw [Ordering.swap_then, Int.compare_swap, Nat.compare_swap]
      cases s <;> cases t
      · exact congrArg (some ·.swap) hsize
      · rfl
      · rfl
      · exact congrArg some hsize

/-- The order of doubles is the one of what they unpack to. -/
lemma floatCompare?_eq (x y : Float) :
    Value.floatCompare? x y = x.toModel.unpack.compare y.toModel.unpack := by
  have hlt (x y : Float) : x < y ↔ x.toModel.unpack.compare y.toModel.unpack = some .lt := by
    change decide (x.toModel < y.toModel) = true ↔ _
    rw [decide_eq_true_iff]
    exact beq_iff_eq
  have heq : (x == y) = (x.toModel.unpack.compare y.toModel.unpack == some .eq) := rfl
  unfold Value.floatCompare?
  rw [heq]
  simp only [hlt, compare_swap x.toModel.unpack]
  rcases x.toModel.unpack.compare y.toModel.unpack with _ | ⟨_ | _ | _⟩ <;> rfl

theorem floatCompare?_swap (x y : Float) :
    Value.floatCompare? y x = (Value.floatCompare? x y).map Ordering.swap := by
  rw [floatCompare?_eq, floatCompare?_eq, compare_swap]

theorem beq_comm (x y : Float) : (x == y) = (y == x) := by
  change (x.toModel.unpack.compare y.toModel.unpack == some .eq) =
    (y.toModel.unpack.compare x.toModel.unpack == some .eq)
  rw [compare_swap x.toModel.unpack]
  rcases x.toModel.unpack.compare y.toModel.unpack with _ | ⟨_ | _ | _⟩ <;> rfl

/-! ### Distance -/

section Unpacked

variable {spec : Format}

lemma abs_round (s t : UnpackedFloat.Sign) (m : Nat) (e : Int) :
    (UnpackedFloat.round spec s m e).abs = (UnpackedFloat.round spec t m e).abs := by
  unfold UnpackedFloat.round UnpackedFloat.roundWithAccuracy
  dsimp only
  rw [apply_dite UnpackedFloat.abs, apply_dite UnpackedFloat.abs]
  rfl

lemma abs_normalize_neg (m e : Int) (s : UnpackedFloat.Sign) :
    (UnpackedFloat.normalize spec (-m) e s).abs = (UnpackedFloat.normalize spec m e s).abs := by
  unfold UnpackedFloat.normalize
  rcases Int.lt_trichotomy m 0 with h | rfl | h
  · have hneg : compare (-m) 0 = .gt := Int.compare_eq_gt.2 (Int.neg_pos_of_neg h)
    rw [Int.compare_eq_lt.2 h, hneg]
    exact abs_round _ _ _ _
  · rfl
  · have hneg : compare (-m) 0 = .lt := Int.compare_eq_lt.2 (Int.neg_neg_of_pos h)
    rw [Int.compare_eq_gt.2 h, hneg, Int.neg_neg]
    exact abs_round _ _ _ _

lemma abs_sub_unpacked (a b : UnpackedFloat) :
    (UnpackedFloat.sub spec a b).abs = (UnpackedFloat.sub spec b a).abs := by
  cases a with
  | notANumber => cases b <;> rfl
  | infinity s =>
    cases b with
    | infinity t => cases s <;> cases t <;> rfl
    | notANumber | zero | finite => rfl
  | zero s =>
    cases b with
    | zero t => cases s <;> cases t <;> rfl
    | notANumber | infinity | finite => rfl
  | finite s m e =>
    cases b with
    | notANumber | infinity | zero => rfl
    | finite t n f =>
      unfold UnpackedFloat.sub
      dsimp only
      rw [← abs_normalize_neg, Int.neg_sub, Int.min_comm]

lemma abs_unpack {v w : BitVec spec.numBits}
    (hexponent : UnpackedFloat.unpackExponent v = UnpackedFloat.unpackExponent w)
    (hmantissa : UnpackedFloat.unpackMantissa v = UnpackedFloat.unpackMantissa w) :
    (UnpackedFloat.unpack spec v).abs = (UnpackedFloat.unpack spec w).abs := by
  have hfinite {s t : UnpackedFloat.Sign} {m n : Nat} {e f : Int} (hm : 0 < m) (hn : 0 < n)
      (hmantissa : m = n) (hexponent : e = f) :
      (UnpackedFloat.finite s m e hm).abs = (UnpackedFloat.finite t n f hn).abs := by
    subst hmantissa hexponent
    rfl
  unfold UnpackedFloat.unpack
  dsimp only
  by_cases hlast : UnpackedFloat.unpackExponent w = -1#_
  · rw [if_pos (hexponent.trans hlast), if_pos hlast]
    by_cases hempty : UnpackedFloat.unpackMantissa w = 0#_
    · rw [if_pos (hmantissa.trans hempty), if_pos hempty]
      rfl
    · rw [if_neg (hmantissa ▸ hempty), if_neg hempty]
  · rw [if_neg (hexponent ▸ hlast), if_neg hlast]
    by_cases hfirst : UnpackedFloat.unpackExponent w = 0#_
    · rw [if_pos (hexponent.trans hfirst), if_pos hfirst]
      by_cases hempty : UnpackedFloat.unpackMantissa w = 0#_
      · rw [dif_pos (hmantissa.trans hempty), dif_pos hempty]
        rfl
      · rw [dif_neg (hmantissa ▸ hempty), dif_neg hempty]
        exact hfinite _ _ (by rw [hmantissa]) (by rw [hexponent])
    · rw [if_neg (hexponent ▸ hfirst), if_neg hfirst]
      exact hfinite _ _ (by rw [hmantissa]) (by rw [hexponent])

lemma abs_unpack_packComponents (s t : UnpackedFloat.Sign) (exponent : BitVec spec.exponentBits)
    (mantissa : BitVec spec.mantissaBitsWithoutImplicit) :
    (UnpackedFloat.unpack spec (UnpackedFloat.packComponents spec s exponent mantissa)).abs =
      (UnpackedFloat.unpack spec (UnpackedFloat.packComponents spec t exponent mantissa)).abs := by
  apply abs_unpack
  · rw [UnpackedFloat.unpackExponent_packComponents, UnpackedFloat.unpackExponent_packComponents]
  · rw [UnpackedFloat.unpackMantissa_packComponents, UnpackedFloat.unpackMantissa_packComponents]

/-- Doubles of the same size have the same size after they have been packed. -/
lemma abs_unpack_pack {a b : UnpackedFloat} (h : a.abs = b.abs) :
    (UnpackedFloat.unpack spec (UnpackedFloat.pack spec a)).abs =
      (UnpackedFloat.unpack spec (UnpackedFloat.pack spec b)).abs := by
  cases a <;> cases b <;> cases h
  case notANumber.notANumber => rfl
  case infinity.infinity => exact abs_unpack_packComponents _ _ _ _
  case zero.zero => exact abs_unpack_packComponents _ _ _ _
  case finite.finite =>
    unfold UnpackedFloat.pack
    dsimp only
    split
    · exact abs_unpack_packComponents _ _ _ _
    · split <;> exact abs_unpack_packComponents _ _ _ _

end Unpacked

theorem abs_sub_comm (x y : Float) : (x - y).abs = (y - x).abs :=
  congrArg (fun size => Float.ofModel (pack size))
    (abs_unpack_pack (abs_sub_unpacked x.toModel.unpack y.toModel.unpack))

end Double

end Liquid
