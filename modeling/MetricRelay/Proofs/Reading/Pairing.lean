import MetricRelay.Proofs.Reading.Growth
import Mathlib.Data.Int.Notation
import Mathlib.Data.List.Forall2

namespace MetricRelay

open Rate

section

variable {α β : Type} (nameOf : α → String)

-- Whether an entry is the last of a reading that bears the name.
def IsLastNamed (name : String) (reading : List α) (r : α) : Prop :=
  ∃ earlier later, reading = earlier ++ r :: later ∧ nameOf r = name ∧
    ∀ other ∈ later, nameOf other ≠ name

theorem lastNamed?_eq_some_iff {name : String} {reading : List α} {r : α} :
    lastNamed? nameOf name reading = some r ↔ IsLastNamed nameOf name reading r := by
  rw [lastNamed?, List.find?_eq_some_iff_append]
  constructor
  · rintro ⟨hname, later, earlier, hsplit, hlater⟩
    refine ⟨earlier.reverse, later.reverse, ?_, beq_iff_eq.mp hname, ?_⟩
    · rw [← List.reverse_reverse reading, hsplit]
      simp
    · intro other hother
      simpa using hlater other (List.mem_reverse.mp hother)
  · rintro ⟨earlier, later, rfl, hname, hlater⟩
    refine ⟨beq_iff_eq.mpr hname, later.reverse, earlier.reverse, by simp, ?_⟩
    intro other hother
    simpa using hlater other (List.mem_reverse.mp hother)

theorem lastNamed?_eq_none_iff {name : String} {reading : List α} :
    lastNamed? nameOf name reading = none ↔ name ∉ reading.map nameOf := by
  simp [lastNamed?]

-- Where no name occurs twice, the last entry that bears it is the only one.
theorem lastNamed?_eq_some_iff_mem {name : String} {reading : List α} {r : α}
    (hnodup : (reading.map nameOf).Nodup) :
    lastNamed? nameOf name reading = some r ↔ r ∈ reading ∧ nameOf r = name := by
  rw [lastNamed?_eq_some_iff]
  constructor
  · rintro ⟨earlier, later, rfl, hname, -⟩
    exact ⟨by simp, hname⟩
  · rintro ⟨hmem, rfl⟩
    obtain ⟨earlier, later, rfl⟩ := List.append_of_mem hmem
    refine ⟨earlier, later, rfl, rfl, fun other hother hsame => ?_⟩
    rw [List.map_append, List.map_cons] at hnodup
    have hlater := (List.nodup_cons.mp (List.nodup_append.mp hnodup).2.1).1
    exact hlater (List.mem_map.mpr ⟨other, hother, hsame⟩)

theorem lastNamed?_perm {reading other : List α} (hperm : reading.Perm other)
    (hnodup : (reading.map nameOf).Nodup) (name : String) :
    lastNamed? nameOf name other = lastNamed? nameOf name reading := by
  have hother : (other.map nameOf).Nodup := (hperm.map nameOf).nodup_iff.mp hnodup
  ext r
  rw [lastNamed?_eq_some_iff_mem nameOf hother, lastNamed?_eq_some_iff_mem nameOf hnodup,
    hperm.mem_iff]

-- What rates between two readings owe to the readings. `told` is what becomes of a name in a rate,
-- and `Between` says which rate two entries of one name make.
structure Pairs (told : String → String) (shown : β → String) (Between : α → α → β → Prop)
    (rates : List α → List α → List β) : Prop where
  -- one rate for each later entry whose name the earlier reading has, in the order of these entries
  scan (before after : List α) : List.Forall₂
    (fun now r => ∃ past, IsLastNamed nameOf (nameOf now) before past ∧ Between past now r)
    (after.filter fun now => nameOf now ∈ before.map nameOf) (rates before after)
  -- nothing comes of a name that either reading lacks
  common (before after : List α) : ∀ r ∈ rates before after,
    ∃ past ∈ before, ∃ now ∈ after, nameOf past = nameOf now ∧ Between past now r
  -- nothing is shown more often than it was read
  count_le (before after : List α) (name : String) :
    ((rates before after).map shown).count name ≤
      (after.map fun now => told (nameOf now)).count name
  -- the order of an earlier reading without repetition does not matter
  perm {before other : List α} (hperm : before.Perm other) (hnodup : (before.map nameOf).Nodup)
    (after : List α) : rates other after = rates before after

-- What is made of each later entry and the last earlier one of its name.
def matched (rate : α → α → β) (before after : List α) : List β :=
  after.filterMap fun now => (lastNamed? nameOf (nameOf now) before).map fun past => rate past now

theorem matched_scan (rate : α → α → β) (before after : List α) :
    List.Forall₂ (fun now r => ∃ past, IsLastNamed nameOf (nameOf now) before past ∧
        r = rate past now)
      (after.filter fun now => nameOf now ∈ before.map nameOf)
      (matched nameOf rate before after) := by
  unfold matched
  induction after with
  | nil => exact .nil
  | cons now after ih =>
      cases hlast : lastNamed? nameOf (nameOf now) before with
      | none =>
          have hmissing := (lastNamed?_eq_none_iff nameOf).mp hlast
          rw [List.filter_cons_of_neg (by simpa using hmissing),
            List.filterMap_cons_none (by rw [hlast]; rfl)]
          exact ih
      | some past =>
          have hpresent : nameOf now ∈ before.map nameOf := by
            by_contra hmissing
            rw [(lastNamed?_eq_none_iff nameOf).mpr hmissing] at hlast
            cases hlast
          rw [List.filter_cons_of_pos (by simpa using hpresent),
            List.filterMap_cons_some (by rw [hlast]; rfl)]
          exact .cons ⟨past, (lastNamed?_eq_some_iff nameOf).mp hlast, rfl⟩ ih

theorem pairs_matched {told : String → String} {shown : β → String} {Between : α → α → β → Prop}
    (rate : α → α → β) (hrate : ∀ past now, Between past now (rate past now))
    (hshown : ∀ past now, shown (rate past now) = told (nameOf now)) :
    Pairs nameOf told shown Between (matched nameOf rate) where
  scan before after := by
    refine (matched_scan nameOf rate before after).imp ?_
    rintro now r ⟨past, hlast, rfl⟩
    exact ⟨past, hlast, hrate past now⟩
  common before after := by
    intro r hr
    obtain ⟨now, hnow, hmap⟩ := List.mem_filterMap.mp hr
    obtain ⟨past, hlast, rfl⟩ := Option.map_eq_some_iff.mp hmap
    obtain ⟨earlier, later, rfl, hname, -⟩ := (lastNamed?_eq_some_iff nameOf).mp hlast
    exact ⟨past, by simp, now, hnow, hname, hrate past now⟩
  count_le before after name := by
    have hnames : (after.filter fun now => nameOf now ∈ before.map nameOf).map
        (fun now => told (nameOf now)) = (matched nameOf rate before after).map shown := by
      refine (congrFun₂ List.forall₂_eq_eq_eq _ _).mp ?_
      rw [List.forall₂_map_left_iff, List.forall₂_map_right_iff]
      refine (matched_scan nameOf rate before after).imp ?_
      rintro now r ⟨past, -, rfl⟩
      exact (hshown past now).symm
    rw [← hnames]
    exact (List.filter_sublist.map _).count_le name
  perm hperm hnodup after := by
    simp only [matched, lastNamed?_perm nameOf hperm hnodup]

end

-- A change per second of a counter that grew, and zero of one that was set back.
def IsRate (elapsed : Span) (past now : UInt64) (x : Float) : Prop :=
  ∃ growth : UInt64, (growth.toNat : ℤ) = max 0 ((now.toNat : ℤ) - past.toNat) ∧
    x = perSecond growth elapsed ∧ (now < past → x = 0)

theorem isRate_perSecond (elapsed : Span) (past now : UInt64) :
    IsRate elapsed past now (perSecond (counterDelta past now) elapsed) := by
  refine ⟨_, ?_, rfl, fun hback => ?_⟩
  · rw [toNat_counterDelta]
    omega
  · rw [counterDelta, if_neg (UInt64.not_le.mpr hback), perSecond_zero]

structure DiskRate.Between (elapsed : Span) (past now : DiskCounters) (r : DiskRate) : Prop where
  name : r.name.toList = now.name.toList.filter fun c => c ≠ '\\' && c ≠ '.'
  queueLength : r.queueLength = now.queueLength
  reads : IsRate elapsed past.reads now.reads r.readPerSecond
  readBytes : IsRate elapsed past.readBytes now.readBytes r.readBytesPerSecond
  writes : IsRate elapsed past.writes now.writes r.writePerSecond
  writeBytes : IsRate elapsed past.writeBytes now.writeBytes r.writeBytesPerSecond

structure NetRate.Between (elapsed : Span) (past now : NetCounters) (r : NetRate) : Prop where
  name : r.name = now.name
  recvBytes : r.recvBytes = now.recvBytes
  recvCount : r.recvCount = now.recvPackets
  sentBytes : r.sentBytes = now.sentBytes
  sentCount : r.sentCount = now.sentPackets
  recvRate : IsRate elapsed past.recvBytes now.recvBytes r.recvBytesPerSecond
  sentRate : IsRate elapsed past.sentBytes now.sentBytes r.sentBytesPerSecond

-- The rates of devices and of interfaces pair each later entry with the last earlier one of its
-- name, as it was read. Only then a device loses the backslashes and dots of its name.
theorem rates_pair (elapsed : Span) :
    Pairs DiskCounters.name plainName DiskRate.name (DiskRate.Between elapsed)
      (DiskCounters.rates · · elapsed) ∧
    Pairs NetCounters.name id NetRate.name (NetRate.Between elapsed)
      (NetCounters.rates · · elapsed) := by
  constructor
  · refine pairs_matched DiskCounters.name (fun past now => past.rate now elapsed)
      (fun past now => ?_) fun _ _ => rfl
    exact ⟨by simp [DiskCounters.rate, plainName], rfl, isRate_perSecond .., isRate_perSecond ..,
      isRate_perSecond .., isRate_perSecond ..⟩
  · refine pairs_matched NetCounters.name (fun past now => past.rate now elapsed)
      (fun past now => ?_) fun _ _ => rfl
    exact ⟨rfl, rfl, rfl, rfl, rfl, isRate_perSecond .., isRate_perSecond ..⟩

-- A device whose earlier name looks the same once it is reported is another device.
example :
    (DiskCounters.rates [⟨"sda", 1, 1, 1, 1, 0⟩, ⟨"s.db", 2, 2, 2, 2, 0⟩]
      [⟨"s.da", 5, 5, 5, 5, 0⟩, ⟨"s.db", 7, 7, 7, 7, 3⟩] ⟨1, 0⟩).map DiskRate.name = ["sdb"] := by
  decide +kernel

end MetricRelay
