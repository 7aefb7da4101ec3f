import MetricRelay.Calendar.Civil
import Mathlib.Algebra.GroupWithZero.Nat

namespace MetricRelay.Calendar

-- Whether a leap year has its day more depends on the remainders alone, so that the days before a
-- year grow by its length.
theorem daysBeforeYear_succ (year : Int) :
    daysBeforeYear (year + 1) = daysBeforeYear year + (monthLengths year).sum := by
  have hleap : isLeap year = true ↔ year % 4 = 0 ∧ (year % 100 ≠ 0 ∨ year % 400 = 0) := by
    simp [isLeap]
  have hlength : (monthLengths year).sum = if isLeap year then 366 else 365 := by
    unfold monthLengths
    cases isLeap year <;> rfl
  rw [hlength]
  unfold daysBeforeYear
  split
  · rename_i h
    have := hleap.mp h
    omega
  · rename_i h
    have := mt hleap.mpr h
    omega

-- The estimate is right or off by one, which the days before the years tell.
theorem yearOf_bounds (days : Int) :
    daysBeforeYear (yearOf days) ≤ days ∧ days < daysBeforeYear (yearOf days + 1) := by
  unfold yearOf
  dsimp only
  split
  · rename_i h
    refine ⟨h, ?_⟩
    unfold daysBeforeYear
    omega
  · split
    · rename_i h h'
      exact ⟨h', by omega⟩
    · rename_i h h'
      refine ⟨?_, ?_⟩
      · unfold daysBeforeYear
        omega
      · rw [Int.sub_add_cancel]
        omega

-- A day of a year lies in one of its months: the days of the months before it and the days before
-- it in its own month make up its distance from the beginning.
theorem monthAndDay_eq {lengths : List Nat} {days : Nat} (first : Nat) (h : days < lengths.sum) :
    ∃ k rest, monthAndDay first days lengths = (first + k, rest + 1) ∧
      (lengths.take k).sum + rest = days ∧ ∃ n, lengths[k]? = some n ∧ rest < n := by
  induction lengths generalizing first days with
  | nil => exact absurd h (Nat.not_lt_zero days)
  | cons n lengths ih =>
      rw [monthAndDay]
      split
      · rename_i hn
        exact ⟨0, days, rfl, by simp, n, rfl, hn⟩
      · rename_i hn
        rw [List.sum_cons] at h
        obtain ⟨k, rest, heq, hsum, m, hm, hrest⟩ := ih (first + 1) (by omega : days - n < _)
        refine ⟨k + 1, rest, ?_, ?_, m, hm, hrest⟩
        · rw [heq, Nat.add_assoc, Nat.add_comm 1]
        · rw [List.take_succ_cons, List.sum_cons]
          omega

-- Every number is that of the day it stands for, and that day is one of the calendar.
theorem Date.ofNumber_exists (n : Int) :
    (Date.ofNumber n).Exists ∧ (Date.ofNumber n).number = n := by
  obtain ⟨hle, hlt⟩ := yearOf_bounds (n + daysBeforeEpoch)
  rw [daysBeforeYear_succ] at hlt
  unfold Date.ofNumber
  dsimp only
  generalize yearOf (n + daysBeforeEpoch) = year at hle hlt ⊢
  obtain ⟨days, hdays⟩ := Int.eq_ofNat_of_zero_le (Int.sub_nonneg_of_le hle)
  rw [hdays, Int.toNat_natCast]
  have hfits : days < (monthLengths year).sum := by omega
  obtain ⟨k, rest, heq, hsum, m, hm, hrest⟩ := monthAndDay_eq 1 hfits
  have hk : k < 12 := (List.getElem?_eq_some_iff.mp hm).1
  rw [heq]
  have hmonth : 1 + k - 1 = k := Nat.add_sub_cancel_left 1 k
  constructor
  · refine ⟨?_, ?_, ?_, ?_⟩
    · exact Nat.le_add_right 1 k
    · dsimp only
      omega
    · exact Nat.le_add_left 1 rest
    · dsimp only [monthLength]
      rw [hmonth, hm]
      exact hrest
  · dsimp only [Date.number]
    rw [hmonth]
    change _ + ((List.take k (monthLengths year)).sum : Int) + _ - _ - _ = n
    omega

end MetricRelay.Calendar
