import MetricRelay.Delivery.Dispatcher
import MetricRelay.Proofs.Delivery.ExportPairing
import Mathlib.Data.List.Nodup

namespace MetricRelay

-- What becomes of an export whose answer comes.
def Export.answered (e : Export) : Export :=
  match e.fate with
  | .awaiting status => { e with fate := .over (Relay.outcomeOf status) }
  | _ => e

-- An answer on its way: when it comes, for which export, and what it is.
structure Arrival where
  due : Nat
  number : Nat
  key : String
  status : UInt16

namespace Traffic

variable {t : Traffic}

-- Whether an arrival is that of an export that waits for it.
def Expects (t : Traffic) (a : Arrival) : Prop :=
  ∃ s : Subscriber, s.key = a.key ∧ t.exports[a.number]? = some ⟨s, .awaiting a.status⟩

-- An answer that comes in its time ends its export and no other.
theorem exists_follow_arrival {a : Arrival} (hfuture : t.clock ≤ a.due) (h : t.Expects a) :
    ∃ evs, (t.follow evs).clock = a.due ∧
      (t.follow evs).relay = (t.relay.settle a.key a.status a.due).2 ∧
      ∀ number, (t.follow evs).exports[number]? =
        if number = a.number then t.exports[number]?.map Export.answered
        else t.exports[number]? := by
  obtain ⟨s, hkey, hget⟩ := h
  obtain ⟨hlt, -⟩ := List.getElem?_eq_some_iff.mp hget
  have hclock : t.clock + (a.due - t.clock) = a.due := Nat.add_sub_cancel' hfuture
  have hfollow : t.follow [.elapse (a.due - t.clock), .answer a.number] = { t with
      clock := a.due
      relay := (t.relay.settle s.key a.status a.due).2
      exports := t.exports.set a.number ⟨s, .over (Relay.outcomeOf a.status)⟩ } := by
    change (t.after (.elapse (a.due - t.clock))).after (.answer a.number) = _
    rw [after_answer (t := t.after (.elapse (a.due - t.clock))) hget]
    simp only [after, hclock]
  refine ⟨[.elapse (a.due - t.clock), .answer a.number], ?_⟩
  rw [hfollow]
  refine ⟨rfl, by rw [hkey], fun number => ?_⟩
  rw [List.getElem?_set]
  by_cases hsame : number = a.number
  · rw [hsame, if_pos rfl, if_pos rfl, if_pos hlt, hget]
    rfl
  · rw [if_neg (Ne.symm hsame), if_neg hsame]

-- So do answers that come one after the other.
theorem exists_follow_arrivals (arrivals : List Arrival)
    (hsorted : arrivals.Pairwise fun a b => a.due ≤ b.due)
    (hfuture : ∀ a ∈ arrivals, t.clock ≤ a.due)
    (halone : (arrivals.map Arrival.number).Nodup)
    (hexpects : ∀ a ∈ arrivals, t.Expects a) :
    ∃ evs, (∀ till, t.clock ≤ till → (∀ a ∈ arrivals, a.due ≤ till) →
        (t.follow evs).clock ≤ till) ∧
      (t.follow evs).relay =
        arrivals.foldl (fun r a => (r.settle a.key a.status a.due).2) t.relay ∧
      ∀ number, (t.follow evs).exports[number]? =
        if number ∈ arrivals.map Arrival.number then t.exports[number]?.map Export.answered
        else t.exports[number]? := by
  induction arrivals generalizing t with
  | nil => exact ⟨[], fun _ h _ => h, rfl, fun number => by simp [follow]⟩
  | cons a rest ih =>
      obtain ⟨hfirst, hsorted⟩ := List.pairwise_cons.mp hsorted
      obtain ⟨hother, halone⟩ := List.nodup_cons.mp halone
      obtain ⟨evs, hclock, hrelay, hexports⟩ := exists_follow_arrival
        (hfuture a List.mem_cons_self) (hexpects a List.mem_cons_self)
      have hrest : ∀ b ∈ rest, (t.follow evs).Expects b := by
        intro b hb
        have hne : b.number ≠ a.number := fun heq => hother (heq ▸ List.mem_map_of_mem hb)
        obtain ⟨s, hkey, hget⟩ := hexpects b (List.mem_cons_of_mem a hb)
        exact ⟨s, hkey, by rw [hexports, if_neg hne, hget]⟩
      obtain ⟨more, hbound, hrelay', hexports'⟩ :=
        ih hsorted (fun b hb => hclock ▸ hfirst b hb) halone hrest
      refine ⟨evs ++ more, ?_⟩
      rw [follow_append]
      refine ⟨fun till _ hall => ?_, by rw [hrelay', hrelay]; rfl, fun number => ?_⟩
      · exact hbound till (hclock ▸ hall a List.mem_cons_self)
          fun b hb => hall b (List.mem_cons_of_mem a hb)
      · rw [hexports', hexports, List.map_cons]
        by_cases hsame : number = a.number
        · rw [hsame, if_neg hother, if_pos rfl, if_pos List.mem_cons_self]
        · simp [hsame]

end Traffic

def Stage.fate : Stage → Fate
  | .over o => .over o
  | .awaiting _ status => .awaiting status
  | .unanswered => .unanswered

-- How an export ended for somebody who waited for it.
def Verdict.fate : Verdict → Fate
  | .outcome o => .over o
  | .cancelled | .gaveUp => .cancelled

theorem Launch.stage_fate (l : Launch) (now : Nat) : (l.stage now).fate = l.fate := by
  cases l <;> rfl

namespace Dispatcher

variable {d d' : Dispatcher} {t : Traffic} {tagged : List (Nat × Parcel)}

-- What can be done with a dispatcher, and what somebody who waits is told.
inductive Move (d : Dispatcher) : Option (Parcel × Verdict) → Dispatcher → Prop where
  | begin (destination : Nat) (s : Subscriber) (x : Snapshot) :
      d.Move none (d.begin destination s x)
  | sleep (millis : Nat) : d.Move none (d.sleep millis)
  | await {place : Nat} {p : Parcel} {v : Verdict} {d' : Dispatcher}
      (h : d.await place = some (p, v, d')) : d.Move (some (p, v)) d'
  | abort {p : Parcel} {v : Verdict} {d' : Dispatcher} (h : d.abort = some (p, v, d')) :
      d.Move (some (p, v)) d'
  | relink (network : Network) :
      d.Move none { d with relay := { d.relay with network := network } }

-- Whether the parcels of a dispatcher are exports with the numbers given: their stages are the
-- fates of these exports, no other export waits, and no answer is late.
structure Carries (d : Dispatcher) (t : Traffic) (tagged : List (Nat × Parcel)) : Prop where
  clock_eq : t.clock = d.clock
  relay_eq : t.relay = d.relay
  parcels : tagged.map (·.2) = d.underway
  alone : (tagged.map (·.1)).Nodup
  shown : ∀ e ∈ tagged, ∃ s : Subscriber, s.key = e.2.key ∧
    t.exports[e.1]? = some ⟨s, e.2.stage.fate⟩
  complete : ∀ number s f, t.exports[number]? = some ⟨s, f⟩ → f.isWaiting = true →
    number ∈ tagged.map (·.1)
  prompt : ∀ e ∈ tagged, ∀ due status, e.2.stage = .awaiting due status → d.clock ≤ due

theorem Carries.begin (h : d.Carries t tagged) (destination : Nat) (s : Subscriber)
    (x : Snapshot) :
    ∃ tagged', (d.begin destination s x).Carries (t.after (.begin s x)) tagged' := by
  have hfresh : ∀ e ∈ tagged, e.1 < t.exports.length := by
    intro e he
    obtain ⟨s', -, hget⟩ := h.shown e he
    exact (List.getElem?_eq_some_iff.mp hget).1
  have hexports : (t.after (.begin s x)).exports =
      t.exports ++ [⟨s, (d.relay.launch d.clock s x).1.fate⟩] := by
    rw [← h.relay_eq, ← h.clock_eq]
    rfl
  have hrelay : (t.after (.begin s x)).relay = (d.relay.launch d.clock s x).2 := by
    rw [← h.relay_eq, ← h.clock_eq]
    rfl
  refine ⟨tagged ++ [(t.exports.length,
    ⟨destination, s.key, (d.relay.launch d.clock s x).1.stage d.clock⟩)], h.clock_eq, hrelay,
    ?_, ?_, ?_, ?_, ?_⟩
  · rw [List.map_append, h.parcels]
    rfl
  · rw [List.map_append, List.map_singleton, List.nodup_append']
    refine ⟨h.alone, List.nodup_singleton _, ?_⟩
    simp only [List.disjoint_singleton, List.mem_map, not_exists, not_and]
    exact fun e he hsame => Nat.ne_of_lt (hfresh e he) hsame
  · intro e he
    rcases List.mem_append.mp he with he | he
    · obtain ⟨s', hkey, hget⟩ := h.shown e he
      exact ⟨s', hkey, by rw [hexports, List.getElem?_append_left (hfresh e he), hget]⟩
    · cases List.mem_singleton.mp he
      exact ⟨s, rfl, by rw [hexports, List.getElem?_concat_length, Launch.stage_fate]⟩
  · intro number s' f hget hwaiting
    rw [List.map_append, List.mem_append, hexports] at *
    by_cases hlt : number < t.exports.length
    · rw [List.getElem?_append_left hlt] at hget
      exact .inl (h.complete number s' f hget hwaiting)
    · have hle := (List.getElem?_eq_some_iff.mp hget).1
      rw [List.length_append, List.length_singleton] at hle
      exact .inr (List.mem_singleton.mpr (Nat.le_antisymm (Nat.le_of_lt_succ hle)
        (Nat.le_of_not_lt hlt)))
  · intro e he due status hstage
    rcases List.mem_append.mp he with he | he
    · exact h.prompt e he due status hstage
    · cases List.mem_singleton.mp he
      change (d.relay.launch d.clock s x).1.stage d.clock = _ at hstage
      cases hl : (d.relay.launch d.clock s x).1 with
      | awaiting millis code =>
          rw [hl] at hstage
          cases hstage
          exact Nat.le_add_right _ _
      | _ => rw [hl] at hstage; cases hstage

-- The answer that comes to a parcel up to a time.
def arrival? (till : Nat) (e : Nat × Parcel) : Option Arrival :=
  match e.2.stage with
  | .awaiting due status => if due ≤ till then some ⟨due, e.1, e.2.key, status⟩ else none
  | _ => none

theorem arrival?_eq_some {till : Nat} {e : Nat × Parcel} {a : Arrival}
    (h : arrival? till e = some a) :
    a.number = e.1 ∧ a.key = e.2.key ∧ e.2.stage = .awaiting a.due a.status ∧ a.due ≤ till := by
  unfold arrival? at h
  split at h
  · rename_i hstage
    split at h
    · rename_i hdue
      cases h
      exact ⟨rfl, rfl, hstage, hdue⟩
    · cases h
  · cases h

-- A parcel whose answer has come is over, and others are as they were.
theorem later_of_arrival? {till : Nat} {e : Nat × Parcel} {a : Arrival}
    (h : arrival? till e = some a) :
    e.2.later till = { e.2 with stage := .over (Relay.outcomeOf a.status) } := by
  obtain ⟨-, -, hstage, hdue⟩ := arrival?_eq_some h
  simp only [Parcel.later, hstage, hdue, if_true]

theorem later_of_arrival?_eq_none {till : Nat} {e : Nat × Parcel} (h : arrival? till e = none) :
    e.2.later till = e.2 := by
  obtain ⟨number, destination, key, stage⟩ := e
  cases stage with
  | awaiting due status =>
      by_cases hdue : due ≤ till
      · simp [arrival?, hdue] at h
      · simp only [Parcel.later, hdue, if_false]
  | _ => rfl

-- The arrivals up to a time in their order.
def arrivals (till : Nat) (tagged : List (Nat × Parcel)) : List Arrival :=
  (tagged.filterMap (arrival? till)).mergeSort fun a b => a.due ≤ b.due

theorem mem_arrivals {till : Nat} {a : Arrival} :
    a ∈ arrivals till tagged ↔ ∃ e ∈ tagged, arrival? till e = some a := by
  rw [arrivals, (List.mergeSort_perm ..).mem_iff, List.mem_filterMap]

theorem arrivals_sorted (till : Nat) :
    (arrivals till tagged).Pairwise fun a b => a.due ≤ b.due := by
  have hsorted : (arrivals till tagged).Pairwise fun a b => decide (a.due ≤ b.due) = true := by
    refine List.pairwise_mergeSort (fun a b c hab hbc => ?_) (fun a b => ?_) _
    · exact decide_eq_true (Nat.le_trans (of_decide_eq_true hab) (of_decide_eq_true hbc))
    · simpa using Nat.le_total a.due b.due
  exact hsorted.imp fun h => of_decide_eq_true h

theorem answers_eq (till : Nat) :
    answers till (tagged.map (·.2)) =
      (arrivals till tagged).map fun a => (a.due, a.key, a.status) := by
  have hsort : (arrivals till tagged).map (fun a => (a.due, a.key, a.status)) =
      ((tagged.filterMap (arrival? till)).map fun a => (a.due, a.key, a.status)).mergeSort
        fun a b => decide (a.1 ≤ b.1) := List.map_mergeSort fun _ _ _ _ => rfl
  rw [hsort, answers, List.filterMap_map, List.map_filterMap]
  congr 1
  refine List.filterMap_congr fun e _ => ?_
  obtain ⟨number, destination, key, stage⟩ := e
  cases stage with
  | awaiting due status => by_cases hdue : due ≤ till <;> simp [arrival?, hdue]
  | _ => rfl

theorem arrivals_alone (h : (tagged.map (·.1)).Nodup) (till : Nat) :
    ((arrivals till tagged).map Arrival.number).Nodup := by
  have hsublist : ((tagged.filterMap (arrival? till)).map Arrival.number).Sublist
      (tagged.map (·.1)) := by
    induction tagged with
    | nil => exact .slnil
    | cons e rest ih =>
        have hrest := ih (List.nodup_cons.mp h).2
        cases harrival : arrival? till e with
        | none =>
            rw [List.filterMap_cons_none harrival]
            exact hrest.cons _
        | some a =>
            rw [List.filterMap_cons_some harrival, List.map_cons, List.map_cons,
              (arrival?_eq_some harrival).1]
            exact hrest.cons_cons _
  exact ((List.mergeSort_perm ..).map _).nodup_iff.mpr (h.sublist hsublist)

theorem number_mem_arrivals (halone : (tagged.map (·.1)).Nodup) (till : Nat) {e : Nat × Parcel}
    (he : e ∈ tagged) :
    e.1 ∈ (arrivals till tagged).map Arrival.number ↔ (arrival? till e).isSome = true := by
  rw [Option.isSome_iff_exists, List.mem_map]
  constructor
  · rintro ⟨a, ha, hnumber⟩
    obtain ⟨e', he', harrival⟩ := mem_arrivals.mp ha
    have hsame : e' = e := by
      refine List.inj_on_of_nodup_map halone he' he ?_
      rw [← (arrival?_eq_some harrival).1, hnumber]
    exact ⟨a, hsame ▸ harrival⟩
  · rintro ⟨a, harrival⟩
    exact ⟨a, mem_arrivals.mpr ⟨e, he, harrival⟩, (arrival?_eq_some harrival).1⟩

-- The parcel of an export that is answered is over, and others are as they were.
theorem later_eq (till : Nat) (e : Nat × Parcel) (s : Subscriber) :
    (e.2.later till).key = e.2.key ∧
      (⟨s, (e.2.later till).stage.fate⟩ : Export) =
        if (arrival? till e).isSome then Export.answered ⟨s, e.2.stage.fate⟩
        else ⟨s, e.2.stage.fate⟩ := by
  cases harrival : arrival? till e with
  | some a =>
      rw [later_of_arrival? harrival, (arrival?_eq_some harrival).2.2.1]
      exact ⟨rfl, rfl⟩
  | none =>
      rw [later_of_arrival?_eq_none harrival]
      exact ⟨rfl, rfl⟩

theorem lt_of_later_awaiting {till due : Nat} {status : UInt16} {e : Nat × Parcel}
    (h : (e.2.later till).stage = .awaiting due status) :
    e.2.stage = .awaiting due status ∧ till < due := by
  cases harrival : arrival? till e with
  | some a => rw [later_of_arrival? harrival] at h; cases h
  | none =>
      rw [later_of_arrival?_eq_none harrival] at h
      refine ⟨h, ?_⟩
      rw [← Nat.not_le]
      intro hdue
      simp [arrival?, h, hdue] at harrival

theorem answered_waiting {e : Export} (h : e.answered.fate.isWaiting = true) :
    e.fate.isWaiting = true := by
  obtain ⟨s, f⟩ := e
  cases f with
  | awaiting => rfl
  | _ => exact h

-- Time that passes brings the answers that come until then.
theorem Carries.advanceTo (h : d.Carries t tagged) (till : Nat) :
    ∃ evs, (d.advanceTo till).Carries (t.follow evs)
      (tagged.map fun e => (e.1, e.2.later till)) := by
  have htags : (tagged.map fun e => (e.1, e.2.later till)).map (·.1) = tagged.map (·.1) := by
    rw [List.map_map]
    rfl
  have hcome : ∀ a ∈ arrivals till tagged, t.clock ≤ a.due ∧ a.due ≤ till ∧ t.Expects a := by
    intro a ha
    obtain ⟨e, he, harrival⟩ := mem_arrivals.mp ha
    obtain ⟨hnumber, hkey, hstage, hdue⟩ := arrival?_eq_some harrival
    obtain ⟨s, hkey', hget⟩ := h.shown e he
    rw [hstage] at hget
    exact ⟨h.clock_eq ▸ h.prompt e he _ _ hstage, hdue, s, hkey'.trans hkey.symm, hnumber ▸ hget⟩
  obtain ⟨evs, hbound, hrelay, hexports⟩ := Traffic.exists_follow_arrivals (t := t)
    (arrivals till tagged) (arrivals_sorted till) (fun a ha => (hcome a ha).1)
    (arrivals_alone h.alone till) (fun a ha => (hcome a ha).2.2)
  have hclock : (t.follow evs).clock ≤ max d.clock till :=
    hbound _ (h.clock_eq ▸ Nat.le_max_left ..)
      fun a ha => Nat.le_trans (hcome a ha).2.1 (Nat.le_max_right ..)
  have hfollow : t.follow (evs ++ [.elapse (max d.clock till - (t.follow evs).clock)]) =
      { t.follow evs with clock := max d.clock till } := by
    rw [Traffic.follow_concat, Traffic.after, Nat.add_sub_cancel' hclock]
  refine ⟨evs ++ [.elapse (max d.clock till - (t.follow evs).clock)], ?_⟩
  rw [hfollow]
  refine ⟨rfl, ?_, ?_, htags ▸ h.alone, ?_, ?_, ?_⟩
  · change (t.follow evs).relay = _
    rw [hrelay, h.relay_eq, Dispatcher.advanceTo, ← h.parcels, answers_eq, List.foldl_map]
  · rw [Dispatcher.advanceTo, ← h.parcels, List.map_map, List.map_map]
    rfl
  · intro e' he'
    obtain ⟨e, he, rfl⟩ := List.mem_map.mp he'
    obtain ⟨s, hkey, hget⟩ := h.shown e he
    obtain ⟨hkey', hexport⟩ := later_eq till e s
    refine ⟨s, hkey.trans hkey'.symm, ?_⟩
    change (t.follow evs).exports[e.1]? = some ⟨s, (e.2.later till).stage.fate⟩
    rw [hexports, hget, hexport]
    simp only [number_mem_arrivals h.alone till he]
    split <;> rfl
  · intro number s f hget hwaiting
    change (t.follow evs).exports[number]? = some ⟨s, f⟩ at hget
    rw [htags]
    rw [hexports] at hget
    split at hget
    · obtain ⟨⟨s', f'⟩, hget', heq⟩ := Option.map_eq_some_iff.mp hget
      exact h.complete number s' f' hget' (answered_waiting (by rw [heq]; exact hwaiting))
    · exact h.complete number s f hget hwaiting
  · intro e' he' due status hstage
    obtain ⟨e, he, rfl⟩ := List.mem_map.mp he'
    obtain ⟨hstage', hlater⟩ := lt_of_later_awaiting hstage
    exact Nat.max_le.mpr ⟨h.prompt e he due status hstage', Nat.le_of_lt hlater⟩

theorem perm_cons_eraseIdx {place : Nat} {e : Nat × Parcel} (he : tagged[place]? = some e) :
    tagged.Perm (e :: tagged.eraseIdx place) := by
  obtain ⟨hlt, rfl⟩ := List.getElem?_eq_some_iff.mp he
  exact (List.getElem_cons_eraseIdx_perm hlt).symm

theorem mem_eraseIdx_of_ne {place : Nat} {e e' : Nat × Parcel} (he : tagged[place]? = some e)
    (he' : e' ∈ tagged) (hne : e' ≠ e) : e' ∈ tagged.eraseIdx place :=
  (List.mem_cons.mp ((perm_cons_eraseIdx he).mem_iff.mp he')).resolve_left hne

theorem tag_notMem_eraseIdx (halone : (tagged.map (·.1)).Nodup) {place : Nat} {e : Nat × Parcel}
    (he : tagged[place]? = some e) : e.1 ∉ (tagged.eraseIdx place).map (·.1) := by
  have hperm := (perm_cons_eraseIdx he).map (·.1)
  rw [List.map_cons] at hperm
  exact (List.nodup_cons.mp (hperm.nodup_iff.mp halone)).1

-- Taking away a parcel that is over leaves the exports alone.
theorem Carries.leave (h : d.Carries t tagged) {place : Nat} {e : Nat × Parcel}
    (he : tagged[place]? = some e) (hover : e.2.stage.fate.isWaiting = false) :
    { d with underway := d.underway.eraseIdx place }.Carries t (tagged.eraseIdx place) := by
  have hsublist : (tagged.eraseIdx place).Sublist tagged := List.eraseIdx_sublist ..
  refine ⟨h.clock_eq, h.relay_eq, ?_, h.alone.sublist (hsublist.map _), ?_, ?_, ?_⟩
  · rw [← List.eraseIdx_map, h.parcels]
  · exact fun e' he' => h.shown e' (hsublist.subset he')
  · intro number s f hget hwaiting
    obtain ⟨e', he', rfl⟩ := List.mem_map.mp (h.complete number s f hget hwaiting)
    refine List.mem_map_of_mem (mem_eraseIdx_of_ne he he' ?_)
    rintro rfl
    obtain ⟨s', -, hget'⟩ := h.shown e' he'
    cases hget.symm.trans hget'
    rw [hover] at hwaiting
    cases hwaiting
  · exact fun e' he' => h.prompt e' (hsublist.subset he')

-- Taking away a parcel that is not gives up its export.
theorem Carries.abandon (h : d.Carries t tagged) {place : Nat} {e : Nat × Parcel}
    (he : tagged[place]? = some e) (hwaiting : e.2.stage.fate.isWaiting = true) :
    { d with
        relay := d.relay.abandon e.2.key d.clock
        underway := d.underway.eraseIdx place }.Carries
      (t.after (.cancel e.1)) (tagged.eraseIdx place) ∧
    ∃ s : Subscriber, s.key = e.2.key ∧
      (t.after (.cancel e.1)).exports[e.1]? = some ⟨s, .cancelled⟩ := by
  have hsublist : (tagged.eraseIdx place).Sublist tagged := List.eraseIdx_sublist ..
  obtain ⟨s, hkey, hget⟩ := h.shown e (List.mem_of_getElem? he)
  obtain ⟨hlt, -⟩ := List.getElem?_eq_some_iff.mp hget
  have hafter : t.after (.cancel e.1) = { t with
      relay := t.relay.abandon s.key t.clock
      exports := t.exports.set e.1 ⟨s, .cancelled⟩ } := by
    simp only [Traffic.after, Traffic.cancel, hget, hwaiting, if_true]
  rw [hafter]
  refine ⟨⟨h.clock_eq, ?_, ?_, h.alone.sublist (hsublist.map _), ?_, ?_, ?_⟩, s, hkey,
    List.getElem?_set_self hlt⟩
  · change t.relay.abandon s.key t.clock = _
    rw [h.relay_eq, h.clock_eq, hkey]
  · rw [← List.eraseIdx_map, h.parcels]
  · intro e' he'
    obtain ⟨s', hkey', hget'⟩ := h.shown e' (hsublist.subset he')
    have hne : e.1 ≠ e'.1 := fun heq =>
      tag_notMem_eraseIdx h.alone he (heq ▸ List.mem_map_of_mem he')
    exact ⟨s', hkey', by rw [List.getElem?_set_ne hne, hget']⟩
  · intro number s' f hget' hwaiting'
    change (t.exports.set e.1 ⟨s, .cancelled⟩)[number]? = some ⟨s', f⟩ at hget'
    by_cases hsame : e.1 = number
    · rw [← hsame, List.getElem?_set_self hlt] at hget'
      cases hget'
      cases hwaiting'
    · rw [List.getElem?_set_ne hsame] at hget'
      obtain ⟨e', he', rfl⟩ := List.mem_map.mp (h.complete number s' f hget' hwaiting')
      exact List.mem_map_of_mem (mem_eraseIdx_of_ne he he' fun heq => hsame (by rw [heq]))
  · exact fun e' he' => h.prompt e' (hsublist.subset he')

-- Somebody who waits for a parcel is told the fate of its export.
def Told (tagged : List (Nat × Parcel)) (t : Traffic) (p : Parcel) (v : Verdict) : Prop :=
  ∃ number s, (number, p) ∈ tagged ∧ s.key = p.key ∧ t.exports[number]? = some ⟨s, v.fate⟩

theorem Carries.exists_tag (h : d.Carries t tagged) {place : Nat} {p : Parcel}
    (hp : d.underway[place]? = some p) : ∃ number, tagged[place]? = some (number, p) := by
  rw [← h.parcels, List.getElem?_map, Option.map_eq_some_iff] at hp
  obtain ⟨⟨number, p'⟩, hget, rfl⟩ := hp
  exact ⟨number, hget⟩

theorem getElem?_later {place number : Nat} {p : Parcel}
    (htag : tagged[place]? = some (number, p)) (till : Nat) :
    (tagged.map fun e => (e.1, e.2.later till))[place]? = some (number, p.later till) := by
  rw [List.getElem?_map, htag]
  rfl

-- Nobody waits for ever: in the end the export is given up.
theorem Carries.leaveLate (h : d.Carries t tagged) {place number limit : Nat} {p : Parcel}
    (htag : tagged[place]? = some (number, p)) (hwaiting : p.stage.fate.isWaiting = true)
    (hnone : arrival? limit (number, p) = none) (hlimit : d.clock ≤ limit) :
    ∃ evs tagged', (await.leaveLate d place p.key limit).Carries (t.follow evs) tagged' ∧
      Told tagged (t.follow evs) p .gaveUp := by
  obtain ⟨evs, hadvanced⟩ := h.advanceTo limit
  have hsame : p.later limit = p := later_of_arrival?_eq_none hnone
  have hclock : (d.advanceTo limit).clock = limit := Nat.max_eq_right hlimit
  have htag' := getElem?_later htag limit
  rw [hsame] at htag'
  obtain ⟨hcarries, s, hkey, hget⟩ := hadvanced.abandon htag' hwaiting
  have hleave : await.leaveLate d place p.key limit = { d.advanceTo limit with
      relay := (d.advanceTo limit).relay.abandon p.key (d.advanceTo limit).clock
      underway := (d.advanceTo limit).underway.eraseIdx place } := by
    simp only [await.leaveLate]
    rw [hclock]
  rw [hleave]
  have hfollow := Traffic.follow_concat (t := t) evs (.cancel number)
  rw [← hfollow] at hcarries hget
  exact ⟨_, _, hcarries, number, s, List.mem_of_getElem? htag, hkey, hget⟩

theorem Carries.await (h : d.Carries t tagged) {place : Nat} {p : Parcel} {v : Verdict}
    (hawait : d.await place = some (p, v, d')) :
    ∃ evs tagged', d'.Carries (t.follow evs) tagged' ∧ Told tagged (t.follow evs) p v := by
  simp only [Dispatcher.await, Option.map_eq_some_iff] at hawait
  obtain ⟨p', hp, hcase⟩ := hawait
  obtain ⟨number, htag⟩ := h.exists_tag hp
  have hmem := List.mem_of_getElem? htag
  split at hcase
  · rename_i o hstage
    cases hcase
    obtain ⟨s, hkey, hget⟩ := h.shown _ hmem
    refine ⟨[], _, h.leave htag ?_, number, s, hmem, hkey, ?_⟩
    · rw [hstage]
      rfl
    · rw [hstage] at hget
      exact hget
  · rename_i due status hstage
    split at hcase
    · cases hcase
      obtain ⟨evs, hadvanced⟩ := h.advanceTo due
      have hlater : p.later due = { p with stage := .over (Relay.outcomeOf status) } := by
        simp only [Parcel.later, hstage, Nat.le_refl, if_true]
      have htag' := getElem?_later htag due
      rw [hlater] at htag'
      obtain ⟨s, hkey, hget⟩ := hadvanced.shown _ (List.mem_of_getElem? htag')
      exact ⟨evs, _, hadvanced.leave htag' rfl, number, s, hmem, hkey, hget⟩
    · rename_i hlate
      cases hcase
      refine h.leaveLate htag (by rw [hstage]; rfl) ?_ (Nat.le_add_right _ _)
      simp [arrival?, hstage, hlate]
  · rename_i hstage
    cases hcase
    refine h.leaveLate htag (by rw [hstage]; rfl) ?_ (Nat.le_add_right _ _)
    simp [arrival?, hstage]

theorem Carries.abort (h : d.Carries t tagged) {p : Parcel} {v : Verdict}
    (habort : d.abort = some (p, v, d')) :
    ∃ evs tagged', d'.Carries (t.follow evs) tagged' ∧ Told tagged (t.follow evs) p v := by
  unfold Dispatcher.abort at habort
  split at habort
  · cases habort
  · rename_i p' rest hunderway
    have hp : d.underway[0]? = some p' := by rw [hunderway]; rfl
    have hrest : d.underway.eraseIdx 0 = rest := by rw [hunderway]; rfl
    obtain ⟨number, htag⟩ := h.exists_tag hp
    have hmem := List.mem_of_getElem? htag
    split at habort
    · rename_i o hstage
      cases habort
      obtain ⟨s, hkey, hget⟩ := h.shown _ hmem
      rw [hstage] at hget
      have hleave := h.leave htag (by rw [hstage]; rfl)
      rw [hrest] at hleave
      exact ⟨[], _, hleave, number, s, hmem, hkey, hget⟩
    · rename_i hstage
      cases habort
      have hwaiting : p.stage.fate.isWaiting = true := by
        rcases hcase : p.stage with o | _ | _
        · exact absurd hcase (hstage o)
        · rfl
        · rfl
      obtain ⟨hcarries, s, hkey, hget⟩ := h.abandon htag hwaiting
      rw [hrest] at hcarries
      exact ⟨[.cancel number], _, hcarries, number, s, hmem, hkey, hget⟩

-- Whatever is done with a dispatcher happens to its exports.
theorem Carries.move (h : d.Carries t tagged) {told : Option (Parcel × Verdict)}
    (hmove : d.Move told d') :
    ∃ evs tagged', d'.Carries (t.follow evs) tagged' ∧
      ∀ p v, told = some (p, v) → Told tagged (t.follow evs) p v := by
  cases hmove with
  | begin destination s x =>
      obtain ⟨tagged', hcarries⟩ := h.begin destination s x
      exact ⟨[.begin s x], tagged', hcarries, fun p v htold => by cases htold⟩
  | sleep millis =>
      obtain ⟨evs, hcarries⟩ := h.advanceTo (d.clock + millis)
      exact ⟨evs, _, hcarries, fun p v htold => by cases htold⟩
  | await hawait =>
      obtain ⟨evs, tagged', hcarries, htold⟩ := h.await hawait
      exact ⟨evs, tagged', hcarries, fun p v heq => by cases heq; exact htold⟩
  | abort habort =>
      obtain ⟨evs, tagged', hcarries, htold⟩ := h.abort habort
      exact ⟨evs, tagged', hcarries, fun p v heq => by cases heq; exact htold⟩
  | relink network =>
      refine ⟨[.relink network], tagged, ⟨h.clock_eq, ?_, h.parcels, h.alone, h.shown, h.complete,
        h.prompt⟩, fun p v htold => by cases htold⟩
      exact congrArg (fun r : Relay => { r with network := network }) h.relay_eq

-- The deliveries of a dispatcher are exports that share its relay, whatever is done with it.
theorem exists_carries (exporters : Exporters) (network : Network) (policy : BreakerPolicy)
    (hd : Relation.ReflTransGen (fun d d' => ∃ told, Move d told d')
      (.new ⟨exporters, network, .new policy, []⟩) d) :
    ∃ evs tagged, d.Carries ((Traffic.new exporters network policy).follow evs) tagged := by
  induction hd with
  | refl =>
      refine ⟨[], [], rfl, rfl, rfl, List.nodup_nil, ?_, ?_, ?_⟩
      · exact fun e he => absurd he List.not_mem_nil
      · intro number s f hget
        cases hget
      · exact fun e he => absurd he List.not_mem_nil
  | tail _ hmove ih =>
      obtain ⟨evs, tagged, hbefore⟩ := ih
      obtain ⟨told, hmove⟩ := hmove
      obtain ⟨more, tagged', hafter, -⟩ := hbefore.move hmove
      exact ⟨evs ++ more, tagged', by rwa [Traffic.follow_append]⟩

end Dispatcher

end MetricRelay
