import MetricRelay.Proofs.Restart.SideBySide
import MetricRelay.Proofs.Scheduling.Coherence

namespace MetricRelay

-- Whether a stimulus lets the run go on.
def Stimulus.keepsRunning : Stimulus → Bool
  | .stop | .drop => false
  | _ => true

-- What a start tells depends on nothing that is left of earlier runs.
theorem Scheduler.start_congr {s s' : Scheduler} (h : s.running = s'.running)
    (entries : List Sentinel) (now : Nat) : (s.start entries now).1 = (s'.start entries now).1 := by
  rw [start_eq, start_eq, h]
  split
  · rfl
  · dsimp only
    split
    · rfl
    · split <;> rfl

namespace Node

open Scheduler

variable {n m : Node} {w w' : Transport}

theorem NoFuture.drainVia (h : n.NoFuture) (w : Transport) : (n.drainVia w).NoFuture := by
  fun_induction Node.drainVia w n with
  | case1 => exact h
  | case2 n t others hready ih =>
      have hfaced : (n.facing w t).NoFuture := by
        cases t <;> exact h
      have hstepped := hfaced.after (.perform 0)
      rw [after_of_ready ((facing_ready w n t).trans hready)] at hstepped
      exact ih hstepped

theorem NoFuture.wake (h : n.NoFuture) (d : Nat) : (n.wake d).NoFuture := by
  intro t ht
  refine h t ?_
  rcases List.mem_append.mp ht with ht | ht
  · rcases List.mem_append.mp ht with ht | ht
    · exact List.mem_append_left _ ht
    · obtain ⟨sleeper, hsleeper, rfl⟩ := List.mem_map.mp ht
      exact List.mem_append_right _ (List.mem_map_of_mem (List.mem_filter.mp hsleeper).1)
  · obtain ⟨sleeper, hsleeper, rfl⟩ := List.mem_map.mp ht
    exact List.mem_append_right _ (List.mem_map_of_mem (List.mem_filter.mp hsleeper).1)

theorem NoFuture.runUntilVia (h : n.NoFuture) (w : Transport) (till : Nat) :
    (n.runUntilVia w till).NoFuture := by
  fun_induction Node.runUntilVia w till n with
  | case1 n hnone => exact h.drainVia w
  | case2 n d hwake ih => exact ih ((h.drainVia w).wake d)

theorem NoFuture.undergo (h : n.NoFuture) (w : Transport) (s : Stimulus) :
    (n.undergo w s).NoFuture := by
  cases s with
  | start entries => exact h.after (.start entries)
  | stop => exact h.after .stop
  | drop => exact h.after .drop
  | listen l => exact h.after (.listen l)
  | sleep millis =>
      simp only [Node.undergo, sleepVia]
      split
      · exact h
      · exact h.runUntilVia w _

-- Without a run there are no errands.
theorem present_of_idle (h : n.scheduler.running = false) :
    n.present = ⟨n.context, n.clock, false, n.scheduler.active, n.scheduler.period, [], []⟩ := by
  have hnone : ∀ t, n.scheduler.errand? t = none := by
    intro t
    cases t <;> simp [errand?, isCurrent, h]
  simp [present, hnone, h]

-- A start that is accepted makes a run of which nothing but the first tick is there, whatever is
-- left of earlier ones.
theorem NoFuture.present_start (h : n.NoFuture) {entries : List Sentinel} {report : StartReport}
    (hstart : (n.start entries).1 = .ok report) :
    (n.start entries).2.present =
      ⟨n.context, n.clock, true, jobsFrom n.clock 0 (entries.filter Sentinel.isActive),
        some report.tick, [.tick], []⟩ := by
  obtain ⟨hrunning, hepoch, hactive⟩ := start_ok (start_scheduler hstart)
  have hperiod := (start_period (start_scheduler hstart)).1
  rw [start_node hstart]
  generalize (n.start entries).2.scheduler = s at hrunning hepoch hactive hperiod
  have hcurrent : ∀ epoch ≤ n.scheduler.epoch, s.isCurrent epoch = false := by
    intro epoch hle
    have hne : n.scheduler.epoch + 1 ≠ epoch := by omega
    simp [isCurrent, hepoch, hne]
  have hold : ∀ t ∈ n.tasks, s.errand? t = none := by
    intro t ht
    have hpast := h t ht
    cases t with
    | tick epoch => simp [errand?, hcurrent epoch (hpast epoch rfl)]
    | collect e | close e started p => simp [errand?, hcurrent e.epoch (hpast e.epoch rfl)]
    | deliver | reply => rfl
  have hready : n.ready.filterMap s.errand? = [] :=
    List.filterMap_eq_nil_iff.mpr fun t ht => hold t (List.mem_append_left _ ht)
  have hasleep : (n.asleep.filterMap fun e => (s.errand? e.2).map (e.1, ·)) = [] :=
    List.filterMap_eq_nil_iff.mpr fun e he => by
      rw [hold e.2 (List.mem_append_right _ (List.mem_map_of_mem he))]
      rfl
  have htick : s.errand? (.tick s.epoch) = some .tick := by simp [errand?, isCurrent, hrunning]
  simp only [present, List.filterMap_append, hready, hasleep, hrunning, hactive, hperiod,
    List.nil_append, List.filterMap_cons_some htick, List.filterMap_nil]

theorem start_present (h : n.present = m.present) (hn : n.NoFuture) (hm : m.NoFuture)
    (entries : List Sentinel) :
    (n.start entries).1 = (m.start entries).1 ∧
      (n.start entries).2.present = (m.start entries).2.present := by
  have hrunning : n.scheduler.running = m.scheduler.running := congrArg Present.running h
  have hclock : n.clock = m.clock := congrArg Present.clock h
  have hcontext : n.context = m.context := congrArg Present.context h
  have hreport : (n.start entries).1 = (m.start entries).1 := by
    rw [start_fst, start_fst, start_congr hrunning, hclock]
  refine ⟨hreport, ?_⟩
  cases hout : (m.start entries).1 with
  | error f => rw [start_of_error hout, start_of_error (hreport.trans hout), h]
  | ok report =>
      rw [hm.present_start hout, hn.present_start (hreport.trans hout), hclock, hcontext]

theorem undergo_present (h : n.present = m.present) (hn : n.NoFuture) (hm : m.NoFuture)
    {s : Stimulus} (hs : s.keepsRunning = true)
    (hagree : Agree (n.notes w upshots s) (m.notes w' upshots s)) :
    (n.undergo w s).present = (m.undergo w' s).present ∧
      departing (n.notes w leaving s) = departing (m.notes w' leaving s) := by
  cases s with
  | start entries => exact ⟨(start_present h hn hm entries).2, rfl⟩
  | stop => cases hs
  | drop => cases hs
  | listen l => exact ⟨h, rfl⟩
  | sleep millis =>
      have hclock : n.clock = m.clock := congrArg Present.clock h
      simp only [undergo, sleepVia, notes, hclock] at hagree ⊢
      split
      · exact ⟨h, rfl⟩
      · rename_i hmillis
        rw [if_neg hmillis, if_neg hmillis] at hagree
        exact runUntilVia_present h hagree

theorem through_present (h : n.present = m.present) (hn : n.NoFuture) (hm : m.NoFuture)
    {ss : List Stimulus} (hss : ∀ s ∈ ss, s.keepsRunning = true)
    (hagree : Agree (n.notesThrough w upshots ss) (m.notesThrough w' upshots ss)) :
    (n.through w ss).present = (m.through w' ss).present ∧
      departing (n.notesThrough w leaving ss) = departing (m.notesThrough w' leaving ss) := by
  induction ss generalizing n m with
  | nil => exact ⟨h, rfl⟩
  | cons s rest ih =>
      obtain ⟨hnow, hlater⟩ := hagree.append
      obtain ⟨hsame, hleft⟩ := undergo_present h hn hm (hss s List.mem_cons_self) hnow
      obtain ⟨hsame', hleft'⟩ := ih hsame (hn.undergo w s) (hm.undergo w' s)
        (fun s hs => hss s (List.mem_cons_of_mem _ hs)) hlater
      refine ⟨hsame', ?_⟩
      rw [notesThrough, notesThrough, departing_append, departing_append, hleft, hleft']

-- Nothing but a start begins a run.
theorem idle_follow (h : n.scheduler.running = false) {hs : List Happening}
    (hhs : ∀ entries, .start entries ∉ hs) : (n.follow hs).scheduler.running = false := by
  induction hs using List.reverseRecOn with
  | nil => exact h
  | append_singleton hs happening ih =>
      have hidle := ih fun entries hmem => hhs entries (List.mem_append_left _ hmem)
      rw [follow_concat]
      refine Bool.eq_false_iff.mpr fun hrunning => ?_
      obtain ⟨entries, report, rfl, -⟩ | ⟨hbefore, -⟩ := (running_after _ _).mp hrunning
      · exact hhs entries (List.mem_append_right hs (List.mem_singleton_self _))
      · exact absurd hbefore (Bool.eq_false_iff.mp hidle)

-- A scheduler that was stopped starts as a new one, however often it was started and stopped before
-- and whatever of earlier runs is still to end, be it jobs of the same entries: the start tells the
-- same, and as long as nobody stops it, at any time the same jobs are at work, stand in the same
-- way and have been dispatched at the same times. The new one has the same context and is started
-- at the same time. It may read and deliver differently as long as collections that correspond to
-- each other come out in the same way. Nobody can start a scheduler that was dropped.
theorem restart_afresh (context : Context) (source source' : Source) (relay relay' : Relay)
    {past later : List Happening} (hdrop : .drop ∉ past ++ .stop :: later)
    (hlater : ∀ entries, .start entries ∉ later) (w w' : Transport) (entries : List Sentinel)
    {ss : List Stimulus} (hss : ∀ s ∈ ss, s.keepsRunning = true) :
    let n := (Node.new context source relay).follow (past ++ .stop :: later)
    let m := { Node.new context source' relay' with clock := n.clock }
    let run := .start entries :: ss
    Agree (n.notesThrough w upshots run) (m.notesThrough w' upshots run) →
    (n.start entries).1 = (m.start entries).1 ∧
      (n.through w run).clock = (m.through w' run).clock ∧
      (n.through w run).scheduler.running = (m.through w' run).scheduler.running ∧
      (n.through w run).scheduler.period = (m.through w' run).scheduler.period ∧
      (n.through w run).scheduler.active = (m.through w' run).scheduler.active ∧
      (n.through w run).status = (m.through w' run).status ∧
      departing (n.departuresThrough w run) = departing (m.departuresThrough w' run) := by
  intro n m run hagree
  have hcoherent : n.Coherent := (coherent_new context source relay).follow hdrop
  have hidle : n.scheduler.running = false := by
    have hstop : n = (((Node.new context source relay).follow past).after .stop).follow later :=
      follow_append past (.stop :: later)
    rw [hstop]
    exact idle_follow (stop_running _) hlater
  have hfresh : n.present = m.present := by
    obtain ⟨hactive, hperiod⟩ := hcoherent.scheduler.idle hidle
    have hcontext : n.context = context := context_follow _ _
    rw [present_of_idle hidle, hactive, hperiod, hcontext]
    rfl
  have hpast : m.NoFuture := fun t ht => absurd ht List.not_mem_nil
  have hrun : ∀ s ∈ run, s.keepsRunning = true := by
    intro s hs
    rcases List.mem_cons.mp hs with rfl | hs
    · rfl
    · exact hss s hs
  obtain ⟨hsame, hleft⟩ := through_present hfresh hcoherent.past hpast hrun hagree
  have hclock := congrArg Present.clock hsame
  have hactive := congrArg Present.active hsame
  refine ⟨(start_present hfresh hcoherent.past hpast entries).1, hclock,
    congrArg Present.running hsame, congrArg Present.period hsame, hactive, ?_, ?_⟩
  · simp only [present] at hclock hactive
    rw [status, status, Scheduler.status, Scheduler.status, hclock, hactive]
  · rw [departuresThrough_eq_notes, departuresThrough_eq_notes]
    exact hleft

-- One of two jobs had its only run and is still being collected when the scheduler stops, the other
-- one is not due. Started again, both are dispatched at once, and as often as in a new scheduler
-- that delivers nothing.
theorem restart_afresh_retired :
    let a : Sentinel := ⟨[.cpu], [⟨"http://north", .http, none⟩], 1, 1, []⟩
    let b : Sentinel := ⟨[.gc], [⟨"http://south", .http, none⟩], -1, 1, []⟩
    let start : Node := .new ⟨"east", 500, false⟩ .idle (.new .standard)
    let kind : Transport := fun _ _ _ => .status 200
    let rude : Transport := fun _ _ _ => .refused
    let past : List Happening :=
      [.start [a, b], .perform 0, .perform 0, .perform 0, .elapse 200]
    let n := start.follow (past ++ .stop :: [.elapse 100])
    let m := { start with clock := n.clock }
    let run : List Stimulus := [.start [a, b], .sleep 2500]
    (start.follow past).scheduler.active.map (fun j => (j.id, j.next)) = [(1, 1000)] ∧
      n.live.map (·.job.id) = [0] ∧
      (n.through kind run).status = (m.through rude run).status ∧
      departing (n.departuresThrough kind run) = departing (m.departuresThrough rude run) ∧
      (departing (n.departuresThrough kind run)).map (fun d => (d.1, d.2.id, d.2.runs)) =
        [(300, 0, 1), (300, 1, 1), (1300, 1, 2), (2300, 1, 3)] := by
  intro a b start kind rude past n m run
  have hdrop : .drop ∉ past ++ .stop :: [.elapse 100] := by simp [past]
  have hlater : ∀ entries, .start entries ∉ [Happening.elapse 100] := by simp
  have hss : ∀ s ∈ [Stimulus.sleep 2500], s.keepsRunning = true := by simp [Stimulus.keepsRunning]
  have hthrough : ∀ (w : Transport) (k : Node) {α : Type} (note : Node → List α),
      (k.start [a, b]).2.clock = 300 →
        k.notesThrough w note run = (k.start [a, b]).2.notesUntil w note 2800 := by
    intro w k α note hclock
    simp [run, notesThrough, notes, undergo, hclock]
  have hclock : (n.start [a, b]).2.clock = 300 := by decide +kernel
  have hclock' : (m.start [a, b]).2.clock = 300 := by decide +kernel
  have hsame : ((notesWithin? kind upshots 10 2800 7 (n.start [a, b]).2).bind fun vs =>
      (notesWithin? rude upshots 10 2800 7 (m.start [a, b]).2).map fun vs' =>
        decide (Agree vs vs')) = some true := by decide +kernel +zetaReduce
  have hgone : (notesWithin? kind leaving 10 2800 7 (n.start [a, b]).2).map
      (fun ds => (departing ds).map fun d => (d.1, d.2.id, d.2.runs)) =
        some [(300, 0, 1), (300, 1, 1), (1300, 1, 2), (2300, 1, 3)] := by
    decide +kernel +zetaReduce
  have hagree : Agree (n.notesThrough kind upshots run) (m.notesThrough rude upshots run) := by
    obtain ⟨vs, hvs, hsame⟩ := Option.bind_eq_some_iff.mp hsame
    obtain ⟨vs', hvs', hagree⟩ := Option.map_eq_some_iff.mp hsame
    rw [hthrough kind n upshots hclock, hthrough rude m upshots hclock', notesUntil_of_within hvs,
      notesUntil_of_within hvs']
    exact of_decide_eq_true hagree
  obtain ⟨-, -, -, -, -, hstatus, hleft⟩ := restart_afresh ⟨"east", 500, false⟩ .idle .idle
    (.new .standard) (.new .standard) hdrop hlater kind rude [a, b] hss hagree
  refine ⟨by decide +kernel, by decide +kernel, hstatus, hleft, ?_⟩
  obtain ⟨ds, hds, hgone⟩ := Option.map_eq_some_iff.mp hgone
  rw [departuresThrough_eq_notes, hthrough kind n leaving hclock, notesUntil_of_within hds]
  exact hgone

end Node

end MetricRelay
