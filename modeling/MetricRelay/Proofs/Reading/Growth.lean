import MetricRelay.Reading.Rate
import Mathlib.Algebra.GroupWithZero.Nat

namespace MetricRelay

namespace Rate

theorem toNat_counterDelta (before after : UInt64) :
    (counterDelta before after).toNat = after.toNat - before.toNat := by
  unfold counterDelta
  split
  · rename_i hle
    exact UInt64.toNat_sub_of_le after before hle
  · rename_i hlt
    have : after.toNat ≤ before.toNat := Nat.le_of_not_le hlt
    simp [Nat.sub_eq_zero_of_le this]

theorem toNat_cappedAdd (a b : UInt64) :
    (cappedAdd a b).toNat = min (a.toNat + b.toNat) (2 ^ 64 - 1) := by
  have hsize : UInt64.size = 2 ^ 64 := rfl
  unfold cappedAdd
  split
  · rename_i hfits
    rw [UInt64.toNat_add, Nat.mod_eq_of_lt (hsize ▸ hfits)]
    omega
  · rename_i hlarge
    rw [UInt64.toNat_ofNat']
    omega

-- Capping on the way is the same as capping in the end.
theorem toNat_foldl_cappedAdd (parts : List UInt64) (first : UInt64) :
    (parts.foldl cappedAdd first).toNat =
      min (first.toNat + (parts.map UInt64.toNat).sum) (2 ^ 64 - 1) := by
  induction parts generalizing first with
  | nil =>
      have := first.toNat_lt
      simp only [List.foldl_nil, List.map_nil, List.sum_nil]
      omega
  | cons part parts ih =>
      rw [List.foldl_cons, ih, toNat_cappedAdd, List.map_cons, List.sum_cons]
      omega

-- Zero divided by what is greater is zero: what compares as greater is a number, and not negative.
theorem zero_div_of_pos {x : Float} (h : 0 < x) : 0 / x = 0 := by
  have hzero : (0 : Float).toModel.unpack = .zero .positive := rfl
  have hless : (0 : Float).toModel.unpack.compare x.toModel.unpack = some .lt := by
    have hlt : (0 : Float).toModel < x.toModel := of_decide_eq_true h
    exact beq_iff_eq.mp hlt
  have hquotient : (0 : Float).toModel.unpack.div .binary64 x.toModel.unpack = .zero .positive := by
    rw [hzero] at hless ⊢
    generalize x.toModel.unpack = u at hless ⊢
    cases u with
    | notANumber => cases hless
    | zero sign => cases hless
    | infinity sign =>
        cases sign with
        | positive => rfl
        | negative => cases hless
    | finite sign mantissa exponent hpos =>
        cases sign with
        | positive => rfl
        | negative => cases hless
  change Float.ofModel (.pack ((0 : Float).toModel.unpack.div .binary64 x.toModel.unpack)) = 0
  rw [hquotient]
  rfl

theorem perSecond_zero (elapsed : Span) : perSecond 0 elapsed = 0 := by
  have hzero : (0 : UInt64).toFloat = 0 := rfl
  unfold perSecond
  rw [hzero]
  split
  · rename_i hpos
    exact zero_div_of_pos hpos
  · rfl

end Rate

end MetricRelay
