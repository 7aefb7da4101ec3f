import MetricRelay.Proofs.Restart.Present

namespace MetricRelay

namespace Node

open Scheduler

-- The times at which jobs are dispatched, among what leaves.
def departing (ds : List (Nat × Execution)) : List (Nat × Job) :=
  ds.map fun d => (d.1, d.2.job)

theorem departing_append (ds more : List (Nat × Execution)) :
    departing (ds ++ more) = departing ds ++ departing more :=
  List.map_append

variable {n m : Node} {w w' : Transport} {others : List Task} {t : Task}

-- The same against a transport.
private theorem present_met_of_none (w : Transport) (hready : n.ready = t :: others)
    (ht : n.scheduler.errand? t = none) : ((n.facing w t).step t others).present = n.present := by
  have hfaced : (n.facing w t).scheduler.errand? t = none := by
    rw [← ht]
    cases t <;> rfl
  rw [present_step_of_none ((facing_ready w n t).trans hready) hfaced, present_facing]

private theorem present_met_of_some {x : Errand} (w : Transport) (hready : n.ready = t :: others)
    (ht : n.scheduler.errand? t = some x) :
    ((n.facing w t).step t others).present =
      ({ n.present with ready := others.filterMap n.scheduler.errand? } : Present).perform
        ((n.ending? t).map (·.2)) x := by
  have hsame : (n.facing w t).scheduler = n.scheduler ∧ (n.facing w t).ending? t = n.ending? t ∧
      (n.facing w t).present = n.present := by
    cases t <;> exact ⟨rfl, rfl, rfl⟩
  obtain ⟨hscheduler, hending, hpresent⟩ := hsame
  rw [present_step_of_some ((facing_ready w n t).trans hready) (hscheduler ▸ ht), hscheduler,
    hending, hpresent]

-- The next errand is the same in two nodes with the same present run. It runs in the same way if it
-- is no half of a collection or they agree on how that comes out.
private theorem present_met_congr (w w' : Transport) {t' : Task} {others' : List Task}
    {x x' : Errand} (h : n.present = m.present) (hready : n.ready = t :: others)
    (hready' : m.ready = t' :: others') (ht : n.scheduler.errand? t = some x)
    (ht' : m.scheduler.errand? t' = some x') (hagree : Agree n.upshots m.upshots) :
    ((n.facing w t).step t others).present = ((m.facing w' t').step t' others').present ∧
      departing n.leaving = departing m.leaving := by
  have hqueue := congrArg Present.ready h
  simp only [present, hready, hready', List.filterMap_cons_some ht,
    List.filterMap_cons_some ht'] at hqueue
  obtain ⟨rfl, hrest⟩ := List.cons.inj hqueue
  refine ⟨?_, ?_⟩
  · rw [present_met_of_some w hready ht, present_met_of_some w' hready' ht', h, hrest]
    cases x with
    | tick => rfl
    | half second j =>
        rw [upshots_of_half hready ht, upshots_of_half hready' ht'] at hagree
        have hresult := hagree _ List.mem_cons_self _ List.mem_cons_self rfl rfl rfl
        exact congrArg (Present.perform _ · _) hresult
  · rw [departing, departing, leaving_of_some hready ht, leaving_of_some hready' ht', h]

-- Two nodes with the same present run go the same way while corresponding collections come out in
-- the same way, whatever else there is in them: first what is ready, then while time passes.
theorem drainVia_present (h : n.present = m.present)
    (hagree : Agree (n.drainNotes w upshots) (m.drainNotes w' upshots)) :
    (n.drainVia w).present = (m.drainVia w').present ∧
      departing (n.drainNotes w leaving) = departing (m.drainNotes w' leaving) := by
  revert h hagree
  refine drainVia_pairs w w' (fun n t => (n.scheduler.errand? t).isSome)
    ?done ?left ?right ?both ?ahead ?behind n m
  case done =>
    intro n m hnone hnone' h _
    rw [drainVia_of_ready hnone, drainVia_of_ready hnone', drainNotes_of_ready hnone,
      drainNotes_of_ready hnone']
    exact ⟨h, rfl⟩
  case left =>
    intro n m t others hsome ht ih h hagree
    have ht : n.scheduler.errand? t = none := by simpa using ht
    rw [drainNotes_of_cons hsome, upshots_of_none hsome ht] at hagree
    rw [drainVia_of_cons hsome, drainNotes_of_cons hsome, leaving_of_none hsome ht]
    exact ih ((present_met_of_none w hsome ht).trans h) hagree
  case right =>
    intro n m t others hsome ht ih h hagree
    have ht : m.scheduler.errand? t = none := by simpa using ht
    rw [drainNotes_of_cons hsome, upshots_of_none hsome ht] at hagree
    rw [drainVia_of_cons hsome, drainNotes_of_cons hsome, leaving_of_none hsome ht]
    exact ih (h.trans (present_met_of_none w' hsome ht).symm) hagree
  case both =>
    intro n m t others t' others' hsome hsome' ht ht' ih h hagree
    obtain ⟨x, hx⟩ := Option.isSome_iff_exists.mp ht
    obtain ⟨x', hx'⟩ := Option.isSome_iff_exists.mp ht'
    rw [drainNotes_of_cons hsome, drainNotes_of_cons hsome'] at hagree
    obtain ⟨hnow, hlater⟩ := hagree.append
    obtain ⟨hmet, hleft⟩ := present_met_congr w w' h hsome hsome' hx hx' hnow
    obtain ⟨hdrain, hleft'⟩ := ih hmet hlater
    rw [drainVia_of_cons hsome, drainVia_of_cons hsome', drainNotes_of_cons hsome,
      drainNotes_of_cons hsome', departing_append, departing_append, hleft, hleft']
    exact ⟨hdrain, rfl⟩
  case ahead =>
    intro n m t others hsome ht hnone h
    obtain ⟨x, hx⟩ := Option.isSome_iff_exists.mp ht
    have hqueue := congrArg Present.ready h
    simp only [present, hsome, hnone, List.filterMap_cons_some hx, List.filterMap_nil] at hqueue
    cases hqueue
  case behind =>
    intro n m t others hnone hsome ht h
    obtain ⟨x, hx⟩ := Option.isSome_iff_exists.mp ht
    have hqueue := congrArg Present.ready h
    simp only [present, hsome, hnone, List.filterMap_cons_some hx, List.filterMap_nil] at hqueue
    cases hqueue

theorem runUntilVia_present (h : n.present = m.present) {till : Nat}
    (hagree : Agree (n.notesUntil w upshots till) (m.notesUntil w' upshots till)) :
    (n.runUntilVia w till).present = (m.runUntilVia w' till).present ∧
      departing (n.notesUntil w leaving till) = departing (m.notesUntil w' leaving till) := by
  have hclock : n.clock = m.clock := congrArg Present.clock h
  revert h hagree
  refine runUntilVia_pairs w w' till ?rest ?wake n m hclock
  case rest =>
    intro n m hclock hnone hnone' h hagree
    rw [notesUntil_eq, notesUntil_eq w' upshots till m, hnone, hnone'] at hagree
    obtain ⟨hdrain, hleft⟩ := drainVia_present h hagree.append.1
    rw [runUntilVia_eq, runUntilVia_eq w' till m, notesUntil_eq, notesUntil_eq w' leaving till m,
      hnone, hnone', List.append_nil, List.append_nil]
    refine ⟨?_, hleft⟩
    rw [hclock]
    exact congrArg (fun p : Present => { p with clock := max m.clock till }) hdrain
  case wake =>
    intro n m d hclock hd hle hfirst hfirst' ih h hagree
    obtain ⟨hrun, hnotes⟩ := runUntilVia_wake upshots hd hle hfirst
    obtain ⟨hrun', hnotes'⟩ := runUntilVia_wake upshots (hclock ▸ hd) hle hfirst'
    rw [← hnotes, ← hnotes'] at hagree
    obtain ⟨hdrain, hleft⟩ := drainVia_present h hagree.append.1
    have hwoken : ((n.drainVia w).wake d).present = ((m.drainVia w').wake d).present := by
      rw [present_wake, present_wake, hdrain]
    obtain ⟨hsame, hleft'⟩ := ih hwoken hagree.append.2
    rw [← hrun, ← hrun', ← (runUntilVia_wake leaving hd hle hfirst).2,
      ← (runUntilVia_wake leaving (hclock ▸ hd) hle hfirst').2, departing_append,
      departing_append, hleft, hleft']
    exact ⟨hsame, rfl⟩

end Node

end MetricRelay
