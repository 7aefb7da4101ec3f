import MetricRelay.Proofs.Reading.Growth
import Mathlib.Algebra.Order.BigOperators.Group.List
import Mathlib.Algebra.Order.Field.Rat
import Mathlib.Tactic.Positivity

namespace MetricRelay

open Rate

namespace CpuTicks

-- The categories of time in the order in which they are added up. The shares of four of them are
-- reported.
def categories : List (CpuTicks → UInt64) :=
  [user, nice, system, idle, iowait, irq, softirq, steal]

def reported : List (CpuTicks → UInt64) :=
  [system, user, iowait, idle]

def unreported : List (CpuTicks → UInt64) :=
  [nice, irq, softirq, steal]

-- The ticks of some categories together.
def ticksOf (cs : List (CpuTicks → UInt64)) (t : CpuTicks) : Nat :=
  (cs.map fun c => (c t).toNat).sum

-- The share of a category, in exact arithmetic.
def share (t : CpuTicks) (c : CpuTicks → UInt64) : ℚ :=
  (c t).toNat / t.window.toNat

variable (t before after : CpuTicks)

theorem delta_category {c : CpuTicks → UInt64} (hc : c ∈ categories) :
    c (before.delta after) = counterDelta (c before) (c after) := by
  simp only [categories, List.mem_cons, List.not_mem_nil, or_false] at hc
  rcases hc with rfl | rfl | rfl | rfl | rfl | rfl | rfl | rfl <;> rfl

theorem ticksOf_categories : ticksOf categories t = ticksOf reported t + ticksOf unreported t := by
  simp only [ticksOf, categories, reported, unreported, List.map_cons, List.map_nil, List.sum_cons,
    List.sum_nil]
  omega

theorem ticksOf_delta_eq_zero {cs : List (CpuTicks → UInt64)} (hcs : cs ⊆ categories) :
    ticksOf cs (before.delta after) = 0 ↔ ∀ c ∈ cs, c after ≤ c before := by
  have hzero : ∀ c ∈ cs, (c (before.delta after)).toNat = 0 ↔ c after ≤ c before := by
    intro c hc
    rw [delta_category before after (hcs hc), toNat_counterDelta, UInt64.le_iff_toNat_le]
    omega
  rw [ticksOf, List.sum_eq_zero_iff, List.forall_mem_map]
  exact forall₂_congr hzero

theorem unreported_subset : unreported ⊆ categories := by
  simp [unreported, categories]

-- No ticks at all.
def still : CpuTicks :=
  ⟨0, 0, 0, 0, 0, 0, 0, 0⟩

theorem eq_still_of_le (h : ∀ c ∈ categories, c after ≤ c before) :
    before.delta after = still := by
  have hzero : ∀ c ∈ categories, c (before.delta after) = 0 := by
    intro c hc
    rw [delta_category before after hc, ← UInt64.toNat_inj, toNat_counterDelta]
    exact Nat.sub_eq_zero_of_le (h c hc)
  simp only [categories, List.forall_mem_cons] at hzero
  generalize before.delta after = d at hzero
  cases d
  simp_all [still]

theorem toNat_sums (k : Nat) :
    (((categories.tail.take k).map (· t)).foldl cappedAdd t.user).toNat =
      min (ticksOf (categories.take (k + 1)) t) (2 ^ 64 - 1) := by
  rw [toNat_foldl_cappedAdd, List.map_map]
  rfl

theorem toNat_total : t.total.toNat = min (ticksOf categories t) (2 ^ 64 - 1) :=
  toNat_sums t 7

theorem toNat_window : t.window.toNat = max 1 (min (ticksOf categories t) (2 ^ 64 - 1)) := by
  have htotal := t.toNat_total
  unfold window
  split
  · rename_i hzero
    rw [hzero] at htotal
    change 0 = _ at htotal
    change 1 = _
    omega
  · rename_i hne
    have hpos : t.total.toNat ≠ 0 := fun h => hne (UInt64.toNat_inj.mp h)
    omega

theorem window_pos : (0 : ℚ) < t.window.toNat := by
  have hwindow := t.toNat_window
  exact_mod_cast (by omega : 0 < t.window.toNat)

theorem le_window {c : CpuTicks → UInt64} (hc : c ∈ reported) :
    (c t).toNat ≤ t.window.toNat := by
  have hle : (c t).toNat ≤ ticksOf reported t :=
    List.single_le_sum (fun _ _ => Nat.zero_le _) _ (List.mem_map_of_mem hc)
  have hmost := (c t).toNat_lt
  rw [toNat_window, ticksOf_categories]
  omega

theorem share_nonneg (c : CpuTicks → UInt64) : 0 ≤ t.share c := by
  unfold share
  positivity

theorem share_le_one {c : CpuTicks → UInt64} (hc : c ∈ reported) : t.share c ≤ 1 := by
  rw [share, div_le_one t.window_pos]
  exact_mod_cast t.le_window hc

theorem share_still {c : CpuTicks → UInt64} (hc : c ∈ reported) : still.share c = 0 := by
  simp only [reported, List.mem_cons, List.not_mem_nil, or_false] at hc
  rcases hc with rfl | rfl | rfl | rfl <;> simp [share, still]

theorem sum_share (cs : List (CpuTicks → UInt64)) :
    (cs.map t.share).sum = (ticksOf cs t : ℚ) / t.window.toNat := by
  induction cs with
  | nil => simp [ticksOf]
  | cons c cs ih =>
      rw [List.map_cons, List.sum_cons, ih, share, ← add_div]
      simp [ticksOf]

theorem sum_share_reported_le (hfits : ticksOf categories t < 2 ^ 64) :
    (reported.map t.share).sum ≤ 1 := by
  have hwindow := t.toNat_window
  have hparts := t.ticksOf_categories
  rw [sum_share, div_le_one t.window_pos]
  exact_mod_cast (by omega : ticksOf reported t ≤ t.window.toNat)

-- Without any ticks the window is one tick, and the shares make up nothing of it.
theorem sum_share_reported_eq_one (hfits : ticksOf categories t < 2 ^ 64) :
    (reported.map t.share).sum = 1 ↔ ticksOf categories t ≠ 0 ∧ ticksOf unreported t = 0 := by
  have hwindow := t.toNat_window
  have hparts := t.ticksOf_categories
  rw [sum_share, div_eq_one_iff_eq t.window_pos.ne', Nat.cast_inj]
  omega

theorem usage_eq (cpuNum : UInt64) :
    let d := before.delta after
    usage before after cpuNum =
      ⟨cpuNum, d.system.toFloat / d.window.toFloat, d.user.toFloat / d.window.toFloat,
        d.iowait.toFloat / d.window.toFloat, d.idle.toFloat / d.window.toFloat⟩ :=
  rfl

theorem usage_still (hstill : before.delta after = still) (cpuNum : UInt64) :
    usage before after cpuNum = ⟨cpuNum, 0, 0, 0, 0⟩ := by
  have hnone : (0 : UInt64).toFloat / still.window.toFloat = 0 := by decide +kernel
  rw [usage_eq, hstill]
  exact congrArg (fun x => (⟨cpuNum, x, x, x, x⟩ : CpuUsage)) hnone

-- The shares that are reported are fractions of one whole, however the counters moved. The whole is
-- never zero, and without any progress all shares are zero. As long as it is no more than a word
-- holds, the shares make up at most the whole, and all of it exactly if there was progress but none
-- that is not reported. Differences and sums are exact up to the largest word, where they stay.
theorem usage_proper (before after : CpuTicks) (cpuNum : UInt64) :
    let d := before.delta after
    usage before after cpuNum =
      ⟨cpuNum, d.system.toFloat / d.window.toFloat, d.user.toFloat / d.window.toFloat,
        d.iowait.toFloat / d.window.toFloat, d.idle.toFloat / d.window.toFloat⟩ ∧
    (1 ≤ d.window.toNat ∧ d.window.toNat ≤ 2 ^ 64 - 1) ∧
    (∀ c ∈ reported, (c d).toNat ≤ d.window.toNat ∧ 0 ≤ d.share c ∧ d.share c ≤ 1) ∧
    ((∀ c ∈ categories, c after ≤ c before) →
      (∀ c ∈ reported, d.share c = 0) ∧ usage before after cpuNum = ⟨cpuNum, 0, 0, 0, 0⟩) ∧
    (ticksOf categories d < 2 ^ 64 →
      (reported.map d.share).sum ≤ 1 ∧
      ((reported.map d.share).sum = 1 ↔
        (∃ c ∈ categories, c before < c after) ∧ ∀ c ∈ unreported, c after ≤ c before)) ∧
    (∀ c ∈ categories, ((c d).toNat : ℤ) = max 0 ((c after).toNat - (c before).toNat)) ∧
    (∀ k, (((categories.tail.take k).map (· d)).foldl cappedAdd d.user).toNat =
      min (ticksOf (categories.take (k + 1)) d) (2 ^ 64 - 1)) ∧
    d.total.toNat = min (ticksOf categories d) (2 ^ 64 - 1) := by
  intro d
  have hwindow := d.toNat_window
  refine ⟨usage_eq before after cpuNum, ⟨by omega, by omega⟩,
    fun c hc => ⟨d.le_window hc, d.share_nonneg c, d.share_le_one hc⟩, ?_, ?_, ?_, d.toNat_sums,
    d.toNat_total⟩
  · intro hbehind
    have hstill : d = still := eq_still_of_le before after hbehind
    exact ⟨fun c hc => hstill ▸ share_still hc, usage_still before after hstill cpuNum⟩
  · intro hfits
    have hsome : ticksOf categories d ≠ 0 ↔ ∃ c ∈ categories, c before < c after := by
      rw [ne_eq, ticksOf_delta_eq_zero before after (List.Subset.refl categories)]
      simp
    have hrest := ticksOf_delta_eq_zero before after unreported_subset
    refine ⟨d.sum_share_reported_le hfits, ?_⟩
    rw [d.sum_share_reported_eq_one hfits, hsome, hrest]
  · intro c hc
    rw [delta_category before after hc, toNat_counterDelta]
    omega

-- Counters that went further than a word can count do not start over.
example :
    (CpuTicks.mk 0xFFFFFFFFFFFFFFFF 0 0xFFFFFFFFFFFFFFFF 0 0 0 0 0).window = 0xFFFFFFFFFFFFFFFF := by
  decide

end CpuTicks

end MetricRelay
