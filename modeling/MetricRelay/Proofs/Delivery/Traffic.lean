import MetricRelay.Delivery.Relay
import MetricRelay.Proofs.Delivery.BreakerHistory
import Mathlib.Data.List.Perm.Basic

namespace MetricRelay

-- How far an export has got: it returned, it waits for an answer with a status or in vain, or it
-- was given up while it waited.
inductive Fate where
  | over (o : Outcome)
  | awaiting (status : UInt16)
  | unanswered
  | cancelled
deriving DecidableEq

structure Export where
  subscriber : Subscriber
  fate : Fate

-- What can happen to exports. Answers come at any time and in any order, an export may be given up
-- before, and destinations may change how they react.
inductive Event where
  | begin (s : Subscriber) (x : Snapshot)
  | answer (number : Nat)
  | cancel (number : Nat)
  | elapse (millis : Nat)
  | relink (network : Network)

-- Exports that share a relay, in the order in which they began. They are known by their places.
structure Traffic where
  clock : Nat
  relay : Relay
  exports : List Export

-- Whether an event is the answer to an export with a number, or its end.
def Event.concerns (number : Nat) : Event → Bool
  | .answer i | .cancel i => i == number
  | .begin _ _ | .elapse _ | .relink _ => false

namespace Fate

def isWaiting : Fate → Bool
  | .awaiting _ | .unanswered => true
  | .over _ | .cancelled => false

-- Whether the breaker let the export through.
def isAllowed (f : Fate) : Bool :=
  f != .over .skipped

-- The result that the breaker is to have of an export, if any: none as long as the export waits,
-- and none if it was skipped.
def result? : Fate → Option Bool
  | .over .delivered => some true
  | .over .failed | .over .panicked | .cancelled => some false
  | .over .skipped | .awaiting _ | .unanswered => none

-- What an event makes of the export with a number.
def meet (number : Nat) (f : Fate) : Event → Fate
  | .answer i =>
    match f with
    | .awaiting status => if i = number then .over (Relay.outcomeOf status) else f
    | _ => f
  | .cancel i => if i = number && f.isWaiting then .cancelled else f
  | .begin _ _ | .elapse _ | .relink _ => f

-- An export that was allowed either has its result or waits.
theorem isAllowed_eq (f : Fate) :
    f.isAllowed = (f.result?.isSome || f.isWaiting) ∧ (f.result?.isSome && f.isWaiting) = false := by
  cases f with
  | «over» o => cases o <;> exact ⟨rfl, rfl⟩
  | awaiting | unanswered | cancelled => exact ⟨rfl, rfl⟩

end Fate

def Launch.fate : Launch → Fate
  | .over o => .over o
  | .awaiting _ status => .awaiting status
  | .unanswered => .unanswered

-- What becomes of an export whose request is met so.
def Reaction.fate : Reaction → Fate
  | .status code => .over (Relay.outcomeOf code)
  | .refused => .over .failed
  | .delayed millis code => if millis = 0 then .over (Relay.outcomeOf code) else .awaiting code
  | .silent => .unanswered

namespace Relay

-- The request that a delivery makes.
def posting? (r : Relay) (now : Nat) (s : Subscriber) (x : Snapshot) : Option Request :=
  if r.breaker.check s.key now then
    match r.exporters s.kind (.ofMillis now) s x with
    | .value request => some request
    | .fault _ | .panic _ => none
  else none

-- How far an encoded snapshot gets at once.
def fateOf (r : Relay) : Ending Request → Fate
  | .value request => (r.network.reaction request.url).fate
  | .fault _ => .over .failed
  | .panic _ => .over .panicked

-- How far a delivery gets at once.
def fate (r : Relay) (now : Nat) (s : Subscriber) (x : Snapshot) : Fate :=
  if r.breaker.check s.key now then r.fateOf (r.exporters s.kind (.ofMillis now) s x)
  else .over .skipped

theorem result?_outcomeOf (status : UInt16) :
    (Fate.over (outcomeOf status)).result? = some (isSuccess status) := by
  cases h : isSuccess status <;> simp [outcomeOf, h, Fate.result?]

-- A request is only made by an export that was allowed.
theorem isAllowed_fateOf (r : Relay) (encoded : Ending Request) :
    (r.fateOf encoded).isAllowed = true := by
  have hover : ∀ status, (Fate.over (outcomeOf status)).isAllowed = true := by
    intro status
    rw [(Fate.isAllowed_eq _).1, result?_outcomeOf]
    rfl
  cases encoded with
  | fault | panic => rfl
  | value request =>
      cases hreaction : r.network.reaction request.url with
      | status code => simp only [fateOf, hreaction, Reaction.fate, hover]
      | delayed millis code =>
          simp only [fateOf, hreaction, Reaction.fate]
          split
          · exact hover code
          · rfl
      | refused | silent =>
          simp only [fateOf, hreaction]
          rfl

-- Meeting a request tells the breaker the result if there is one already, and nothing else.
theorem meet_eq (r : Relay) (key : String) (now : Nat) (reaction : Reaction) :
    (r.meet key now reaction).1.fate = reaction.fate ∧
      (r.meet key now reaction).2 =
        { r with
          breaker := r.breaker.after
            (reaction.fate.result?.map fun ok => (now, .result key ok)).toList } := by
  cases reaction with
  | status code =>
      simp only [Relay.meet, settle, Reaction.fate, result?_outcomeOf]
      exact ⟨rfl, rfl⟩
  | refused => exact ⟨rfl, rfl⟩
  | delayed millis code =>
      simp only [Relay.meet, settle, Reaction.fate]
      split
      · rw [result?_outcomeOf]
        exact ⟨rfl, rfl⟩
      · exact ⟨rfl, rfl⟩
  | silent => exact ⟨rfl, rfl⟩

-- The first part of a delivery checks the circuit, makes its request if there is one, and tells the
-- result if there is one already.
theorem launch_eq (r : Relay) (now : Nat) (s : Subscriber) (x : Snapshot) :
    (r.launch now s x).1.fate = r.fate now s x ∧
      (r.launch now s x).2 =
        { r with
          breaker := r.breaker.after ((now, .check s.key) ::
            ((r.fate now s x).result?.map fun ok => (now, .result s.key ok)).toList)
          journal := ((r.posting? now s x).map (now, ·)).toList ++ r.journal } := by
  unfold launch Relay.fate fateOf posting?
  cases r.breaker.check s.key now with
  | false => exact ⟨rfl, rfl⟩
  | true =>
      cases r.exporters s.kind (.ofMillis now) s x with
      | fault e => exact ⟨rfl, rfl⟩
      | panic text => exact ⟨rfl, rfl⟩
      | value request =>
          have h := meet_eq (post { r with breaker := r.breaker.touch s.key } now request) s.key now
            (r.network.reaction request.url)
          exact h

end Relay

-- Whether every request is addressed to the subscriber that it is made for.
def Exporters.Addressed (es : Exporters) : Prop :=
  ∀ now s x request, es s.kind now s x = .value request → request.url = s.url

theorem Exporter.withAuth_url (s : Subscriber) (r : Request) : (withAuth s r).url = r.url := by
  unfold withAuth
  split <;> rfl

theorem Exporters.standard_addressed : standard.Addressed := by
  intro now s x request h
  cases hkind : s.kind with
  | http =>
      rw [hkind] at h
      cases h
      exact Exporter.withAuth_url ..
  | prometheus =>
      rw [hkind] at h
      change Ending.ofExcept (Exporter.remoteRequest now s x) = .value request at h
      unfold Exporter.remoteRequest at h
      cases hbody : Exporter.packed (Exporter.headlineRequest x (Int64.ofInt now.millis)) with
      | error f =>
          rw [hbody] at h
          cases h
      | ok body =>
          rw [hbody] at h
          cases h
          exact Exporter.withAuth_url ..

namespace Traffic

def new (exporters : Exporters) (network : Network) (p : BreakerPolicy) : Traffic :=
  ⟨0, ⟨exporters, network, .new p, []⟩, []⟩

def begin (t : Traffic) (s : Subscriber) (x : Snapshot) : Traffic :=
  let (l, r) := t.relay.launch t.clock s x
  { t with relay := r, exports := t.exports ++ [⟨s, l.fate⟩] }

-- An answer reaches nobody but an export that waits for it.
def answer (t : Traffic) (number : Nat) : Traffic :=
  match t.exports[number]? with
  | some ⟨s, .awaiting status⟩ =>
    let (o, r) := t.relay.settle s.key status t.clock
    { t with relay := r, exports := t.exports.set number ⟨s, .over o⟩ }
  | _ => t

-- Gives an export up, unless it is over.
def cancel (t : Traffic) (number : Nat) : Traffic :=
  match t.exports[number]? with
  | some ⟨s, f⟩ =>
    if f.isWaiting then
      { t with
        relay := t.relay.abandon s.key t.clock
        exports := t.exports.set number ⟨s, .cancelled⟩ }
    else t
  | none => t

def after (t : Traffic) : Event → Traffic
  | .begin s x => t.begin s x
  | .answer number => t.answer number
  | .cancel number => t.cancel number
  | .elapse millis => { t with clock := t.clock + millis }
  | .relink network => { t with relay := { t.relay with network := network } }

def follow (t : Traffic) (evs : List Event) : Traffic :=
  evs.foldl after t

-- The number of the export that an event is about.
def concerned (t : Traffic) : Event → Option Nat
  | .begin _ _ => some t.exports.length
  | .answer number | .cancel number => some number
  | .elapse _ | .relink _ => none

-- The result of the export with a number, if it has one, and whom it is about.
def result? (t : Traffic) (number : Nat) : Option (String × Bool) :=
  t.exports[number]?.bind fun e => e.fate.result?.map (e.subscriber.key, ·)

-- A call of the breaker on behalf of an export.
structure Note where
  number : Nat
  time : Nat
  call : Breaker.Call

-- A request that an export made.
structure Post where
  number : Nat
  time : Nat
  request : Request

-- The calls of the breaker that are due with an event: a check for an export that begins, and the
-- result of an export that had none before.
def noted (t : Traffic) (ev : Event) : List Note :=
  let checks := match ev with
    | .begin s _ => [⟨t.exports.length, t.clock, .check s.key⟩]
    | _ => []
  let results := match t.concerned ev with
    | some number =>
      match t.result? number, (t.after ev).result? number with
      | none, some (key, ok) => [⟨number, t.clock, .result key ok⟩]
      | _, _ => []
    | none => []
  checks ++ results

-- The requests that are made with an event.
def sent (t : Traffic) (ev : Event) : List Post :=
  match t.concerned ev with
  | some number =>
    ((t.after ev).relay.requests.drop t.relay.requests.length).map fun r => ⟨number, r.1, r.2⟩
  | none => []

-- What comes of some events one after the other.
def gather {α : Type} (what : Traffic → Event → List α) (t : Traffic) : List Event → List α
  | [] => []
  | ev :: evs => what t ev ++ gather what (t.after ev) evs

-- All that an event can do: begin an export, end one that waits, or leave the exports alone. With
-- it go calls of the breaker and requests.
inductive Step (t : Traffic) : Event → List Note → List Post → Traffic → Prop where
  | begin (s : Subscriber) (x : Snapshot) :
      t.Step (.begin s x)
        (⟨t.exports.length, t.clock, .check s.key⟩ ::
          ((t.relay.fate t.clock s x).result?.map fun ok =>
            ⟨t.exports.length, t.clock, .result s.key ok⟩).toList)
        ((t.relay.posting? t.clock s x).map (⟨t.exports.length, t.clock, ·⟩)).toList
        { t with
          relay := (t.relay.launch t.clock s x).2
          exports := t.exports ++ [⟨s, t.relay.fate t.clock s x⟩] }
  | finish {ev : Event} {number : Nat} {s : Subscriber} {f : Fate} {ok : Bool}
      (hev : ev.concerns number = true) (hget : t.exports[number]? = some ⟨s, f⟩)
      (hwaiting : f.isWaiting = true) (hresult : (f.meet number ev).result? = some ok) :
      t.Step ev [⟨number, t.clock, .result s.key ok⟩] [] { t with
        relay := t.relay.record s.key ok t.clock
        exports := t.exports.set number ⟨s, f.meet number ev⟩ }
  | rest {ev : Event} {clock : Nat} {network : Network}
      (hsame : ∀ (number : Nat) (s : Subscriber) (f : Fate), t.exports[number]? = some ⟨s, f⟩ →
        f.meet number ev = f) :
      t.Step ev [] [] { t with clock := clock, relay := { t.relay with network := network } }

variable {t : Traffic}

private theorem result?_of_waiting {number : Nat} {s : Subscriber} {f : Fate}
    (hget : t.exports[number]? = some ⟨s, f⟩) (h : f.isWaiting = true) : t.result? number = none := by
  cases f with
  | awaiting status => simp [result?, hget, Fate.result?]
  | unanswered => simp [result?, hget, Fate.result?]
  | _ => cases h

theorem after_begin (t : Traffic) (s : Subscriber) (x : Snapshot) :
    t.after (.begin s x) = { t with
      relay := (t.relay.launch t.clock s x).2
      exports := t.exports ++ [⟨s, t.relay.fate t.clock s x⟩] } := by
  simp only [after, Traffic.begin, (t.relay.launch_eq t.clock s x).1]

theorem after_answer {number : Nat} {s : Subscriber} {status : UInt16}
    (h : t.exports[number]? = some ⟨s, .awaiting status⟩) :
    t.after (.answer number) = { t with
      relay := (t.relay.settle s.key status t.clock).2
      exports := t.exports.set number ⟨s, .over (Relay.outcomeOf status)⟩ } := by
  simp only [after, answer, h]
  rfl

theorem sent_begin (t : Traffic) (s : Subscriber) (x : Snapshot) :
    t.sent (.begin s x) =
      ((t.relay.posting? t.clock s x).map (⟨t.exports.length, t.clock, ·⟩)).toList := by
  cases h : t.relay.posting? t.clock s x <;>
    simp [sent, concerned, after_begin, Relay.requests, (t.relay.launch_eq t.clock s x).2, h]

private theorem step_begin (t : Traffic) (s : Subscriber) (x : Snapshot) :
    t.Step (.begin s x) (t.noted (.begin s x)) (t.sent (.begin s x)) (t.after (.begin s x)) := by
  have hnoted : t.noted (.begin s x) = ⟨t.exports.length, t.clock, .check s.key⟩ ::
      ((t.relay.fate t.clock s x).result?.map fun ok =>
        ⟨t.exports.length, t.clock, .result s.key ok⟩).toList := by
    cases h : (t.relay.fate t.clock s x).result? <;>
      simp [noted, concerned, result?, after_begin, h]
  rw [hnoted, sent_begin, after_begin]
  exact .begin s x

private theorem step_finish {ev : Event} {number : Nat} {s : Subscriber} {f : Fate} (ok : Bool)
    (hev : ev.concerns number = true) (hget : t.exports[number]? = some ⟨s, f⟩)
    (hwaiting : f.isWaiting = true) (hresult : (f.meet number ev).result? = some ok)
    (hafter : t.after ev = { t with
      relay := t.relay.record s.key ok t.clock
      exports := t.exports.set number ⟨s, f.meet number ev⟩ }) :
    t.Step ev (t.noted ev) (t.sent ev) (t.after ev) := by
  obtain ⟨hlt, -⟩ := List.getElem?_eq_some_iff.mp hget
  have hconcerned : t.concerned ev = some number := by
    cases ev <;> simp_all [Event.concerns, concerned]
  have hnoted : t.noted ev = [⟨number, t.clock, .result s.key ok⟩] := by
    have hbefore := result?_of_waiting hget hwaiting
    have hnow : (t.after ev).result? number = some (s.key, ok) := by
      simp [hafter, result?, hlt, hresult]
    cases ev with
    | answer | cancel => simp [noted, hconcerned, hbefore, hnow]
    | _ => cases hev
  have hsent : t.sent ev = [] := by
    simp [sent, hconcerned, hafter, Relay.requests, Relay.record]
  rw [hnoted, hsent, hafter]
  exact .finish hev hget hwaiting hresult

private theorem step_rest {ev : Event} (clock : Nat) (network : Network)
    (hev : ∀ s x, ev ≠ .begin s x)
    (hsame : ∀ (number : Nat) (s : Subscriber) (f : Fate), t.exports[number]? = some ⟨s, f⟩ →
      f.meet number ev = f)
    (hafter : t.after ev =
      { t with clock := clock, relay := { t.relay with network := network } }) :
    t.Step ev (t.noted ev) (t.sent ev) (t.after ev) := by
  have hresults : ∀ number, (t.after ev).result? number = t.result? number := by
    intro number
    rw [hafter]
    rfl
  have hnoted : t.noted ev = [] := by
    cases ev with
    | begin s x => exact absurd rfl (hev s x)
    | answer number | cancel number =>
        simp only [noted, concerned, hresults]
        cases t.result? number <;> rfl
    | elapse | relink => rfl
  have hsent : t.sent ev = [] := by
    cases h : t.concerned ev <;> simp [sent, h, hafter, Relay.requests]
  rw [hnoted, hsent, hafter]
  exact .rest hsame

-- Nothing happens to an export that an event does not concern.
theorem meet_of_not_concerns {number : Nat} {ev : Event} (h : ev.concerns number = false)
    (f : Fate) : f.meet number ev = f := by
  cases ev with
  | answer i => cases f <;> simp_all [Event.concerns, Fate.meet]
  | cancel i => simp_all [Event.concerns, Fate.meet]
  | begin | elapse | relink => rfl

private theorem step_idle {ev : Event} (hev : ∀ s x, ev ≠ .begin s x)
    (hsame : ∀ (number : Nat) (s : Subscriber) (f : Fate), t.exports[number]? = some ⟨s, f⟩ →
      f.meet number ev = f)
    (hafter : t.after ev = t) : t.Step ev (t.noted ev) (t.sent ev) (t.after ev) :=
  step_rest t.clock t.relay.network hev hsame hafter

private theorem step_answer (t : Traffic) (number : Nat) :
    t.Step (.answer number) (t.noted (.answer number)) (t.sent (.answer number))
      (t.after (.answer number)) := by
  by_cases hawaiting : ∃ s status, t.exports[number]? = some ⟨s, .awaiting status⟩
  · obtain ⟨s, status, hget⟩ := hawaiting
    refine step_finish (isSuccess status) (by simp [Event.concerns]) hget rfl ?_ ?_
    · simp [Fate.meet, Relay.result?_outcomeOf]
    · simp [after, answer, hget, Fate.meet, Relay.settle]
  · have hother : ∀ s status, t.exports[number]? ≠ some ⟨s, .awaiting status⟩ :=
      fun s status hget => hawaiting ⟨s, status, hget⟩
    refine step_idle (fun _ _ => Event.noConfusion) ?_ ?_
    · intro i s f hget
      cases f with
      | awaiting status =>
          have hne : number ≠ i := fun h => hother s status (h ▸ hget)
          simp [Fate.meet, hne]
      | _ => rfl
    · cases hget : t.exports[number]? with
      | none => simp only [after, answer, hget]
      | some e =>
          obtain ⟨s, f⟩ := e
          cases f with
          | awaiting status => exact absurd hget (hother s status)
          | _ => simp only [after, answer, hget]

private theorem step_cancel (t : Traffic) (number : Nat) :
    t.Step (.cancel number) (t.noted (.cancel number)) (t.sent (.cancel number))
      (t.after (.cancel number)) := by
  by_cases hwaits : ∃ s f, t.exports[number]? = some ⟨s, f⟩ ∧ f.isWaiting = true
  · obtain ⟨s, f, hget, hwaiting⟩ := hwaits
    refine step_finish false (by simp [Event.concerns]) hget hwaiting ?_ ?_
    · simp [Fate.meet, hwaiting, Fate.result?]
    · simp [after, cancel, hget, hwaiting, Fate.meet, Relay.abandon]
  · have hover : ∀ s f, t.exports[number]? = some ⟨s, f⟩ → f.isWaiting = false := by
      intro s f hget
      rw [← Bool.not_eq_true]
      exact fun hwaiting => hwaits ⟨s, f, hget, hwaiting⟩
    refine step_idle (fun _ _ => Event.noConfusion) ?_ ?_
    · intro i s f hget
      by_cases hi : number = i
      · subst hi
        simp [Fate.meet, hover s f hget]
      · simp [Fate.meet, hi]
    · simp only [after, cancel]
      split
      · rename_i hget
        rw [hover _ _ hget]
        rfl
      · rfl

theorem step_after (t : Traffic) (ev : Event) :
    t.Step ev (t.noted ev) (t.sent ev) (t.after ev) := by
  cases ev with
  | begin s x => exact step_begin t s x
  | answer number => exact step_answer t number
  | cancel number => exact step_cancel t number
  | elapse millis =>
      exact step_rest (t.clock + millis) t.relay.network (fun _ _ => Event.noConfusion)
        (fun _ _ _ _ => rfl) rfl
  | relink network =>
      exact step_rest t.clock network (fun _ _ => Event.noConfusion) (fun _ _ _ _ => rfl) rfl

theorem follow_append (evs more : List Event) :
    t.follow (evs ++ more) = (t.follow evs).follow more :=
  List.foldl_append

theorem follow_concat (evs : List Event) (ev : Event) :
    t.follow (evs ++ [ev]) = (t.follow evs).after ev :=
  follow_append evs [ev]

theorem gather_append {α : Type} (what : Traffic → Event → List α) (evs more : List Event) :
    gather what t (evs ++ more) = gather what t evs ++ gather what (t.follow evs) more := by
  induction evs generalizing t with
  | nil => rfl
  | cons ev rest ih =>
      rw [List.cons_append, gather, ih, gather, List.append_assoc]
      rfl

theorem gather_concat {α : Type} (what : Traffic → Event → List α) (evs : List Event) (ev : Event) :
    gather what t (evs ++ [ev]) = gather what t evs ++ what (t.follow evs) ev := by
  rw [gather_append, gather, gather, List.append_nil]

section

variable {t' : Traffic} {ev : Event} {notes : List Note} {posts : List Post}

-- The exports that have begun go on by what concerns them.
theorem Step.exports (h : t.Step ev notes posts t') {number : Nat} {s : Subscriber} {f : Fate}
    (hget : t.exports[number]? = some ⟨s, f⟩) :
    t'.exports[number]? = some ⟨s, f.meet number ev⟩ := by
  obtain ⟨hlt, -⟩ := List.getElem?_eq_some_iff.mp hget
  cases h with
  | begin s' x => rw [List.getElem?_append_left hlt, hget]; rfl
  | @finish _ i s' f' ok hev hget' hwaiting hresult =>
      by_cases hi : i = number
      · subst hi
        rw [hget] at hget'
        cases hget'
        rw [List.getElem?_set_self hlt]
      · have hother : ev.concerns number = false := by
          cases ev <;> simp_all [Event.concerns]
        rw [List.getElem?_set_ne hi, hget, meet_of_not_concerns hother]
  | rest hsame => rw [hsame number s f hget, hget]

theorem Step.length_le (h : t.Step ev notes posts t') : t.exports.length ≤ t'.exports.length := by
  cases h with
  | begin s x => simp
  | finish => simp
  | rest => exact Nat.le_refl _

-- Only an export that begins makes a request.
theorem Step.posts_number (h : t.Step ev notes posts t') {p : Post} (hp : p ∈ posts) :
    p.number = t.exports.length ∧ p.number < t'.exports.length := by
  cases h with
  | begin s x =>
      rw [Option.mem_toList, Option.map_eq_some_iff] at hp
      obtain ⟨request, -, rfl⟩ := hp
      simp
  | finish => cases hp
  | rest => cases hp

theorem Step.breaker (h : t.Step ev notes posts t') :
    t'.relay.breaker = t.relay.breaker.after (notes.map fun n => (n.time, n.call)) := by
  cases h with
  | begin s x =>
      rw [(t.relay.launch_eq t.clock s x).2]
      cases (t.relay.fate t.clock s x).result? <;> rfl
  | finish => rfl
  | rest => rfl

theorem Step.requests (h : t.Step ev notes posts t') :
    t'.relay.requests = t.relay.requests ++ posts.map fun p => (p.time, p.request) := by
  cases h with
  | begin s x =>
      simp only [Relay.requests, (t.relay.launch_eq t.clock s x).2]
      cases t.relay.posting? t.clock s x <;> simp
  | finish => exact (List.append_nil _).symm
  | rest => exact (List.append_nil _).symm

theorem Step.note_time (h : t.Step ev notes posts t') {n : Note} (hn : n ∈ notes) :
    n.time = t.clock := by
  cases h with
  | begin s x =>
      rcases List.mem_cons.mp hn with rfl | hn
      · rfl
      · rw [Option.mem_toList, Option.map_eq_some_iff] at hn
        obtain ⟨ok, -, rfl⟩ := hn
        rfl
  | finish => rw [List.mem_singleton.mp hn]
  | rest => cases hn

theorem Step.exporters (h : t.Step ev notes posts t') :
    t'.relay.exporters = t.relay.exporters := by
  cases h with
  | begin s x => rw [(t.relay.launch_eq t.clock s x).2]
  | finish => rfl
  | rest => rfl

end

-- The results of an export among calls of the breaker.
def resultsOf (number : Nat) (notes : List Note) : List (Nat × Breaker.Call) :=
  notes.filterMap fun n =>
    match n.call with
    | .result _ _ => if n.number = number then some (n.time, n.call) else none
    | _ => none

def postsOf (number : Nat) (posts : List Post) : List (Nat × Request) :=
  posts.filterMap fun p => if p.number = number then some (p.time, p.request) else none

-- How many exports to a URL have got so far.
def countOf (t : Traffic) (url : String) (p : Fate → Bool) : Nat :=
  t.exports.countP fun e => e.subscriber.key == url && p e.fate

section

variable {t' : Traffic} {ev : Event} {notes : List Note} {posts : List Post}

theorem result?_of_length_le {number : Nat} (h : t.exports.length ≤ number) :
    t.result? number = none := by
  simp [result?, List.getElem?_eq_none h]

-- An export gets its result once, with the event that ends it.
theorem Step.results (h : t.Step ev notes posts t') (number : Nat) :
    ((t'.result? number).map fun r => Breaker.Call.result r.1 r.2).toList =
      ((t.result? number).map fun r => Breaker.Call.result r.1 r.2).toList ++
        (resultsOf number notes).map (·.2) := by
  cases h with
  | begin s x =>
      rcases Nat.lt_trichotomy number t.exports.length with hlt | rfl | hgt
      · have hsame : ({ t with
            relay := (t.relay.launch t.clock s x).2
            exports := t.exports ++ [⟨s, t.relay.fate t.clock s x⟩] } : Traffic).result? number =
            t.result? number := by
          simp only [result?, List.getElem?_append_left hlt]
        rw [hsame]
        cases (t.relay.fate t.clock s x).result? <;>
          simp [resultsOf, Nat.ne_of_gt hlt]
      · rw [result?_of_length_le (Nat.le_refl _)]
        cases hfate : (t.relay.fate t.clock s x).result? <;> simp [result?, resultsOf, hfate]
      · rw [result?_of_length_le (Nat.le_of_lt hgt),
          result?_of_length_le (by simpa [Nat.succ_le_iff] using hgt)]
        cases (t.relay.fate t.clock s x).result? <;>
          simp [resultsOf, Nat.ne_of_lt hgt]
  | @finish _ i s f ok hev hget hwaiting hresult =>
      obtain ⟨hlt, -⟩ := List.getElem?_eq_some_iff.mp hget
      by_cases hi : i = number
      · subst hi
        rw [result?_of_waiting hget hwaiting]
        simp [result?, resultsOf, hlt, hresult]
      · simp [result?, resultsOf, List.getElem?_set_ne hi, hi]
  | rest hsame => exact (List.append_nil _).symm

-- Every result is that of one export.
theorem Step.count (h : t.Step ev notes posts t') (url : String) :
    t'.countOf url (·.result?.isSome) = t.countOf url (·.result?.isSome) +
      (Breaker.results url (notes.map fun n => (n.time, n.call))).length := by
  cases h with
  | begin s x =>
      cases hfate : (t.relay.fate t.clock s x).result? with
      | none => simp [countOf, Breaker.results, Breaker.resultFor?, hfate]
      | some ok =>
          by_cases hkey : s.key = url <;>
            simp [countOf, Breaker.results, Breaker.resultFor?, List.filterMap_cons, hfate, hkey]
  | @finish _ i s f ok hev hget hwaiting hresult =>
      obtain ⟨hlt, heq⟩ := List.getElem?_eq_some_iff.mp hget
      have hnone : f.result? = none := by
        cases f with
        | awaiting status => rfl
        | unanswered => rfl
        | _ => cases hwaiting
      by_cases hkey : s.key = url <;>
        simp [countOf, Breaker.results, Breaker.resultFor?, List.countP_set hlt, heq, hnone, hresult,
          hkey]
  | rest hsame => rfl

end

theorem countOf_isAllowed (t : Traffic) (url : String) :
    t.countOf url Fate.isAllowed =
      t.countOf url (·.result?.isSome) + t.countOf url Fate.isWaiting := by
  unfold countOf
  induction t.exports with
  | nil => rfl
  | cons e rest ih =>
      obtain ⟨hor, hand⟩ := e.fate.isAllowed_eq
      simp only [List.countP_cons, ih, hor]
      cases e.subscriber.key == url <;> cases hr : e.fate.result?.isSome <;>
        cases hw : e.fate.isWaiting <;> simp_all <;> omega

theorem length_arrivals (r : Relay) (url : String) :
    (r.arrivals url).length = r.requests.countP (·.2.url == url) := by
  rw [Relay.arrivals, List.length_map, ← List.countP_eq_length_filter]

private theorem countP_set_of_eq {α : Type} {p : α → Bool} {as : List α} {i : Nat} {a b : α}
    (hget : as[i]? = some a) (h : p b = p a) : (as.set i b).countP p = as.countP p := by
  obtain ⟨hlt, rfl⟩ := List.getElem?_eq_some_iff.mp hget
  rw [(List.set_perm_cons_eraseIdx hlt b).countP_eq, List.countP_cons, h, ← List.countP_cons,
    (List.getElem_cons_eraseIdx_perm hlt).countP_eq]

-- With each export that is allowed and encoded goes a request to its URL.
theorem arrivals_after (hes : t.relay.exporters.Addressed) {ev : Event}
    (henc : ∀ s x, ev = .begin s x →
      ∃ request, t.relay.exporters s.kind (.ofMillis t.clock) s x = .value request)
    (url : String) :
    ((t.after ev).relay.arrivals url).length + t.countOf url Fate.isAllowed =
      (t.relay.arrivals url).length + (t.after ev).countOf url Fate.isAllowed := by
  have hstep := t.step_after ev
  rw [length_arrivals, length_arrivals, hstep.requests, List.countP_append, Nat.add_assoc,
    Nat.add_left_cancel_iff]
  generalize t.after ev = t', t.noted ev = notes, t.sent ev = posts at hstep
  cases hstep with
  | begin s x =>
      obtain ⟨request, hvalue⟩ := henc s x rfl
      have hurl : request.url = s.key := hes _ s x request hvalue
      cases hcheck : t.relay.breaker.check s.key t.clock with
      | false => simp [countOf, Relay.posting?, Relay.fate, hcheck, Fate.isAllowed]
      | true =>
          simp [countOf, Relay.posting?, Relay.fate, hcheck, hvalue, Relay.isAllowed_fateOf, hurl,
            Nat.add_comm]
  | finish hev hget hwaiting hresult =>
      refine (Nat.zero_add _).trans (countP_set_of_eq hget ?_).symm
      simp [Fate.isAllowed_eq, hwaiting, hresult]
  | rest hsame => exact Nat.zero_add _

end Traffic

end MetricRelay
