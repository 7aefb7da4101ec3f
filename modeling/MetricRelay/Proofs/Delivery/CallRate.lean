import MetricRelay.Proofs.Delivery.ExportPairing

namespace MetricRelay

-- What there is to know of the exports to one URL at a moment: when requests were made, when the
-- URL failed since its last success, the latest time first, and how many exports wait.
structure Route where
  clock : Nat
  arrivals : List Nat
  fails : List Nat
  waiting : Nat

namespace Route

variable {p : BreakerPolicy} {since span : Nat} {r r' : Route}

-- Whether a moment is in the window that begins at `since` and lasts `span`.
def InWindow (since span time : Nat) : Prop :=
  since ≤ time ∧ time ≤ since + span

instance (since span time : Nat) : Decidable (InWindow since span time) :=
  inferInstanceAs (Decidable (_ ∧ _))

-- What can come to pass on a route: time goes by, an export is let through and makes its request if
-- there is one to make, or one that waits ends. Within the window no export begins while another
-- one waits, and none succeeds.
inductive Step (p : BreakerPolicy) (since span : Nat) (r : Route) : Route → Prop where
  | idle {clock : Nat} (hlater : r.clock ≤ clock) : r.Step p since span { r with clock := clock }
  | attempt (sent : Bool)
      (hallowed : (Circuit.ofStreak p r.fails).allows r.clock = true)
      (hserial : InWindow since span r.clock → r.waiting = 0) :
      r.Step p since span { r with
        arrivals := r.arrivals ++ if sent then [r.clock] else []
        waiting := r.waiting + 1 }
  | ending {waiting : Nat} (success : Bool) (hwaiting : r.waiting = waiting + 1)
      (hfailing : InWindow since span r.clock → success = false) :
      r.Step p since span { r with
        fails := if success then [] else r.clock :: r.fails
        waiting := waiting }

-- How many requests were made within the window.
def calls (since span : Nat) (r : Route) : Nat :=
  r.arrivals.countP fun time => InWindow since span time

-- The requests of the window that are more than the limit are a cooldown apart, and each of the
-- window's requests that does not wait any more has failed since. No failure lies ahead.
structure Paced (p : BreakerPolicy) (since span : Nat) (r : Route) : Prop where
  bounded : (r.calls since span - p.limit.toNat) * p.cooldown ≤ span
  early : r.clock < since → r.calls since span = 0
  spaced : since ≤ r.clock →
    since + (r.calls since span - p.limit.toNat) * p.cooldown ≤ r.clock
  failed : InWindow since span r.clock → r.calls since span ≤ r.fails.length + r.waiting
  rested : InWindow since span r.clock → r.waiting = 0 → p.limit.toNat ≤ r.calls since span →
    since + (r.calls since span - p.limit.toNat) * p.cooldown ≤ r.fails.headD 0
  past : ∀ latest ∈ r.fails.head?, latest ≤ r.clock

theorem Paced.idle (h : r.Paced p since span) {clock : Nat} (hlater : r.clock ≤ clock) :
    { r with clock := clock }.Paced p since span := by
  have hlimit : 0 < p.limit.toNat := p.limit_pos
  -- a route that enters the window with time has made none of its requests
  have hentered : InWindow since span clock →
      InWindow since span r.clock ∨ r.calls since span = 0 := by
    rintro ⟨-, hend⟩
    by_cases hbefore : r.clock < since
    · exact .inr (h.early hbefore)
    · exact .inl ⟨Nat.le_of_not_lt hbefore, Nat.le_trans hlater hend⟩
  refine ⟨h.bounded, fun hearly => h.early (Nat.lt_of_le_of_lt hlater hearly), ?_, ?_, ?_,
    fun latest hlatest => Nat.le_trans (h.past latest hlatest) hlater⟩
  · intro hsince
    change since + (r.calls since span - p.limit.toNat) * p.cooldown ≤ clock
    by_cases hbefore : r.clock < since
    · rw [h.early hbefore, Nat.zero_sub, Nat.zero_mul]
      exact hsince
    · exact Nat.le_trans (h.spaced (Nat.le_of_not_lt hbefore)) hlater
  · intro hin
    change r.calls since span ≤ _
    rcases hentered hin with hin | hnone
    · exact h.failed hin
    · rw [hnone]
      exact Nat.zero_le _
  · intro hin hwaiting hcalls
    change p.limit.toNat ≤ r.calls since span at hcalls
    rcases hentered hin with hin | hnone
    · exact h.rested hin hwaiting hcalls
    · omega

theorem calls_attempt (r : Route) (since span : Nat) (sent : Bool) :
    let r' := { r with
      arrivals := r.arrivals ++ if sent then [r.clock] else []
      waiting := r.waiting + 1 }
    r'.calls since span = r.calls since span ∨
      InWindow since span r.clock ∧ r'.calls since span = r.calls since span + 1 := by
  by_cases hin : InWindow since span r.clock <;> cases sent <;> simp [calls, hin]

theorem Paced.attempt (hlast : since + span + p.cooldown ≤ Clock.last) (h : r.Paced p since span)
    (sent : Bool) (hallowed : (Circuit.ofStreak p r.fails).allows r.clock = true)
    (hserial : InWindow since span r.clock → r.waiting = 0) :
    { r with
      arrivals := r.arrivals ++ if sent then [r.clock] else []
      waiting := r.waiting + 1 }.Paced p since span := by
  obtain hsame | ⟨hin, hmore⟩ := calls_attempt r since span sent
  · refine ⟨hsame ▸ h.bounded, fun hearly => hsame ▸ h.early hearly, fun hsince => hsame ▸
      h.spaced hsince, fun hin => ?_, fun _ hwaiting => absurd hwaiting (Nat.succ_ne_zero _),
      h.past⟩
    rw [hsame]
    exact Nat.le_succ_of_le (h.failed hin)
  · have hfailed := h.failed hin
    rw [hserial hin, Nat.add_zero] at hfailed
    have hspaced : since + (r.calls since span + 1 - p.limit.toNat) * p.cooldown ≤ r.clock := by
      by_cases hfew : r.calls since span < p.limit.toNat
      · rw [Nat.sub_eq_zero_of_le hfew, Nat.zero_mul]
        exact hin.1
      · -- the limit was reached, so the cooldown since the latest failure is over
        have hreached := Nat.le_of_not_lt hfew
        have hlimit : 0 < p.limit.toNat := p.limit_pos
        obtain ⟨latest, hlatest⟩ : ∃ latest, r.fails.head? = some latest :=
          ⟨_, List.head?_eq_some_head (List.ne_nil_of_length_pos (by omega))⟩
        have hpast := h.past latest hlatest
        have hend := hin.2
        have hcooled := Circuit.le_of_ofStreak_allows hlatest (Nat.le_trans hreached hfailed)
          (by omega) hallowed
        have hrested := h.rested hin (hserial hin) hreached
        rw [List.headD_eq_head?_getD, hlatest, Option.getD_some] at hrested
        rw [Nat.succ_sub hreached, Nat.succ_mul]
        omega
    refine ⟨?_, fun hearly => absurd hin.1 (Nat.not_le.mpr hearly), fun _ => hmore ▸ hspaced,
      fun _ => ?_, fun _ hwaiting => absurd hwaiting (Nat.succ_ne_zero _), h.past⟩
    · have hend := hin.2
      rw [hmore]
      omega
    · rw [hmore]
      exact Nat.succ_le_succ (hserial hin ▸ hfailed)

theorem Paced.ending (h : r.Paced p since span) {waiting : Nat} (success : Bool)
    (hwaiting : r.waiting = waiting + 1)
    (hfailing : InWindow since span r.clock → success = false) :
    { r with
      fails := if success then [] else r.clock :: r.fails
      waiting := waiting }.Paced p since span := by
  refine ⟨h.bounded, h.early, h.spaced, ?_, ?_, ?_⟩
  · intro hin
    have := h.failed hin
    rw [hfailing hin]
    change r.calls since span ≤ (r.clock :: r.fails).length + waiting
    rw [List.length_cons]
    omega
  · intro hin _ _
    rw [hfailing hin]
    exact h.spaced hin.1
  · intro latest hlatest
    cases success with
    | true => cases hlatest
    | false =>
        cases hlatest
        exact Nat.le_refl _

theorem Paced.step (hlast : since + span + p.cooldown ≤ Clock.last) (h : r.Paced p since span)
    (hstep : r.Step p since span r') : r'.Paced p since span := by
  cases hstep with
  | idle hlater => exact h.idle hlater
  | attempt sent hallowed hserial => exact h.attempt hlast sent hallowed hserial
  | ending success hwaiting hfailing => exact h.ending success hwaiting hfailing

theorem Paced.steps (hlast : since + span + p.cooldown ≤ Clock.last) (h : r.Paced p since span)
    (hsteps : Relation.ReflTransGen (Step p since span) r r') : r'.Paced p since span := by
  induction hsteps with
  | refl => exact h
  | tail _ hstep ih => exact ih.step hlast hstep

theorem Paced.calls_le (h : r.Paced p since span) (hcooldown : 0 < p.cooldown) :
    r.calls since span ≤ p.limit.toNat + span / p.cooldown := by
  have hmore := (Nat.le_div_iff_mul_le hcooldown).mpr h.bounded
  omega

theorem paced_new (p : BreakerPolicy) (since span : Nat) :
    (⟨0, [], [], 0⟩ : Route).Paced p since span where
  bounded := by simp [calls]
  early _ := rfl
  spaced hsince := by simpa [calls] using hsince
  failed _ := Nat.zero_le _
  rested _ _ hlimit := absurd hlimit (Nat.not_le.mpr p.limit_pos)
  past := nofun

end Route

-- Whether an export to a URL begins.
def Event.begins (url : String) : Event → Bool
  | .begin s _ => s.key == url
  | _ => false

namespace Traffic

variable {t : Traffic} {url : String} {calls : List (Nat × Breaker.Call)}

def route (t : Traffic) (calls : List (Nat × Breaker.Call)) (url : String) : Route :=
  ⟨t.clock, t.relay.arrivals url, Breaker.streak url calls, t.countOf url Fate.isWaiting⟩

theorem clock_le_after (t : Traffic) (ev : Event) : t.clock ≤ (t.after ev).clock := by
  cases ev with
  | begin s x => simp [after_begin]
  | answer number =>
      simp only [after, answer]
      split <;> exact Nat.le_refl _
  | cancel number =>
      simp only [after, cancel]
      split
      · split <;> exact Nat.le_refl _
      · exact Nat.le_refl _
  | elapse millis => exact Nat.le_add_right _ _
  | relink network => exact Nat.le_refl _

theorem arrivals_launch {r : Relay} (haddressed : r.exporters.Addressed) (now : Nat)
    (s : Subscriber) (x : Snapshot) (url : String) :
    (r.launch now s x).2.arrivals url =
      r.arrivals url ++ if s.key = url ∧ (r.posting? now s x).isSome then [now] else [] := by
  rw [(r.launch_eq now s x).2]
  cases hposting : r.posting? now s x with
  | none => simp [Relay.arrivals, Relay.requests]
  | some request =>
      have hurl : request.url = s.key := by
        unfold Relay.posting? at hposting
        split at hposting
        · split at hposting
          · rename_i hvalue
            cases hposting
            exact haddressed _ s x request hvalue
          · cases hposting
          · cases hposting
        · cases hposting
      by_cases hkey : s.key = url <;>
        simp [Relay.arrivals, Relay.requests, List.filter_append, hurl, hkey]

theorem countOf_begin (t : Traffic) (relay : Relay) (s : Subscriber) (f : Fate) (url : String) :
    countOf { t with relay := relay, exports := t.exports ++ [⟨s, f⟩] } url Fate.isWaiting =
      t.countOf url Fate.isWaiting + if s.key = url ∧ f.isWaiting = true then 1 else 0 := by
  by_cases hkey : s.key = url <;> cases hwaiting : f.isWaiting <;> simp [countOf, hkey, hwaiting]

theorem countOf_finish {number : Nat} {s : Subscriber} {f f' : Fate} (relay : Relay)
    (hget : t.exports[number]? = some ⟨s, f⟩) (hwaiting : f.isWaiting = true)
    (hover : f'.isWaiting = false) (url : String) :
    t.countOf url Fate.isWaiting =
      countOf { t with relay := relay, exports := t.exports.set number ⟨s, f'⟩ } url
        Fate.isWaiting + if s.key = url then 1 else 0 := by
  obtain ⟨hlt, hat⟩ := List.getElem?_eq_some_iff.mp hget
  have hbefore := (List.getElem_cons_eraseIdx_perm hlt).countP_eq
    fun e => e.subscriber.key == url && e.fate.isWaiting
  have hafter := (List.set_perm_cons_eraseIdx hlt ⟨s, f'⟩).countP_eq
    fun e : Export => e.subscriber.key == url && e.fate.isWaiting
  by_cases hkey : s.key = url <;>
    simp [countOf, ← hbefore, hafter, hat, hkey, hwaiting, hover]

theorem streak_begin (calls : List (Nat × Breaker.Call)) (now : Nat) (key : String)
    (result : Option Bool) (url : String) :
    Breaker.streak url (calls ++ (now, .check key) ::
        (result.map fun ok => (now, .result key ok)).toList) =
      if key = url then result.elim (Breaker.streak url calls) fun ok =>
        if ok then [] else now :: Breaker.streak url calls
      else Breaker.streak url calls := by
  have hcheck : Breaker.streak url (calls ++ [(now, .check key)]) = Breaker.streak url calls :=
    Breaker.streak_concat_other rfl calls
  cases result with
  | none => simpa using hcheck
  | some ok =>
      rw [Option.map_some, Option.toList_some, List.append_cons]
      by_cases hkey : key = url
      · subst hkey
        rw [Breaker.streak_concat_result, hcheck, if_pos rfl]
        rfl
      · rw [Breaker.streak_concat_other (by simp [Breaker.resultFor?, hkey]), hcheck, if_neg hkey]

open Route Relation

variable {p : BreakerPolicy} {since span : Nat}

theorem route_begin (hbreaker : t.relay.breaker = (Breaker.new p).after calls)
    (haddressed : t.relay.exporters.Addressed) (s : Subscriber) (x : Snapshot)
    (hserial : s.key = url → InWindow since span t.clock → t.countOf url Fate.isWaiting = 0)
    (hfailing : s.key = url → InWindow since span t.clock →
      (t.relay.fate t.clock s x).result? ≠ some true) :
    ReflTransGen (Route.Step p since span) (t.route calls url)
      (route { t with
          relay := (t.relay.launch t.clock s x).2
          exports := t.exports ++ [⟨s, t.relay.fate t.clock s x⟩] }
        (calls ++ (t.clock, .check s.key) ::
          ((t.relay.fate t.clock s x).result?.map fun ok =>
            (t.clock, .result s.key ok)).toList) url) := by
  rw [route, route, arrivals_launch haddressed, countOf_begin, streak_begin]
  by_cases hkey : s.key = url
  · subst hkey
    simp only [true_and, if_true]
    cases hcheck : t.relay.breaker.check s.key t.clock with
    | false =>
        have hfate : t.relay.fate t.clock s x = .over .skipped := by simp [Relay.fate, hcheck]
        have hposting : t.relay.posting? t.clock s x = none := by simp [Relay.posting?, hcheck]
        rw [hfate, hposting, if_neg (by simp), if_neg (by simp [Fate.isWaiting]), List.append_nil]
        exact .refl
    | true =>
        have hallowed :
            (Circuit.ofStreak p (Breaker.streak s.key calls)).allows t.clock = true := by
          rw [← Breaker.circuit_after, ← hbreaker]
          exact hcheck
        have hfate : (t.relay.fate t.clock s x).isAllowed = true := by
          rw [Relay.fate, if_pos hcheck]
          exact Relay.isAllowed_fateOf ..
        obtain ⟨hor, hand⟩ := Fate.isAllowed_eq (t.relay.fate t.clock s x)
        have hattempt := Step.attempt (r := t.route calls s.key)
          (t.relay.posting? t.clock s x).isSome hallowed (hserial rfl)
        cases hresult : (t.relay.fate t.clock s x).result? with
        | none =>
            have hwaiting : (t.relay.fate t.clock s x).isWaiting = true := by
              simpa [hresult, hfate] using hor
            rw [if_pos hwaiting]
            exact .single hattempt
        | some ok =>
            -- an attempt that is over at once has waited for no time
            have hover : (t.relay.fate t.clock s x).isWaiting = false := by
              simpa [hresult] using hand
            rw [hover]
            refine .tail (.single hattempt) (.ending ok rfl fun hin => ?_)
            have hne := hfailing rfl hin
            cases ok with
            | true => exact absurd hresult hne
            | false => rfl
  · simp only [hkey, false_and, if_false, List.append_nil, Nat.add_zero]
    exact .refl

theorem route_finish {number : Nat} {s : Subscriber} {f f' : Fate} {ok : Bool}
    (hget : t.exports[number]? = some ⟨s, f⟩) (hwaiting : f.isWaiting = true)
    (hresult : f'.result? = some ok)
    (hfailing : s.key = url → InWindow since span t.clock → ok = false) :
    ReflTransGen (Route.Step p since span) (t.route calls url)
      (route { t with
          relay := t.relay.record s.key ok t.clock
          exports := t.exports.set number ⟨s, f'⟩ }
        (calls ++ [(t.clock, .result s.key ok)]) url) := by
  have hover : f'.isWaiting = false := by
    cases f' with
    | awaiting status => cases hresult
    | unanswered => cases hresult
    | _ => rfl
  have hcount := countOf_finish (t.relay.record s.key ok t.clock) hget hwaiting hover url
  by_cases hkey : s.key = url
  · subst hkey
    rw [if_pos rfl] at hcount
    rw [route, route, Breaker.streak_concat_result]
    exact .single (.ending ok hcount (hfailing rfl))
  · rw [if_neg hkey, Nat.add_zero] at hcount
    rw [route, route, Breaker.streak_concat_other (by simp [Breaker.resultFor?, hkey]), ← hcount]
    exact .refl

theorem route_after {ev : Event}
    (hbreaker : t.relay.breaker = (Breaker.new p).after calls)
    (haddressed : t.relay.exporters.Addressed)
    (hserial : ev.begins url = true → InWindow since span t.clock →
      t.countOf url Fate.isWaiting = 0)
    (hfailing : ∀ r ∈ Breaker.results url ((t.noted ev).map fun n => (n.time, n.call)),
      InWindow since span r.1 → r.2 = false) :
    ReflTransGen (Route.Step p since span) (t.route calls url)
      ((t.after ev).route (calls ++ (t.noted ev).map fun n => (n.time, n.call)) url) := by
  have hstep := t.step_after ev
  have hclock := t.clock_le_after ev
  generalize t.after ev = t', t.noted ev = notes, t.sent ev = posts at *
  cases hstep with
  | begin s x =>
      rw [List.map_cons, ← Option.toList_map, Option.map_map]
      refine route_begin hbreaker haddressed s x (fun hkey => hserial (beq_iff_eq.mpr hkey)) ?_
      intro hkey hin htrue
      have hmem := hfailing (t.clock, true)
        (by simp [Breaker.results, Breaker.resultFor?, htrue, hkey]) hin
      cases hmem
  | @finish _ number s f ok hev hget hwaiting hresult =>
      refine route_finish hget hwaiting hresult fun hkey hin => ?_
      exact hfailing (t.clock, ok) (by simp [Breaker.results, Breaker.resultFor?, hkey]) hin
  | @rest _ clock network hsame =>
      rw [List.map_nil, List.append_nil]
      exact .single (.idle hclock)

theorem route_follow {exporters : Exporters} {network : Network}
    (haddressed : exporters.Addressed) {evs : List Event}
    (hserial : ∀ pre ev post, evs = pre ++ ev :: post → ev.begins url = true →
      InWindow since span ((new exporters network p).follow pre).clock →
      ((new exporters network p).follow pre).countOf url Fate.isWaiting = 0)
    (hfailing : ∀ r ∈ Breaker.results url
        ((gather noted (new exporters network p) evs).map fun n => (n.time, n.call)),
      InWindow since span r.1 → r.2 = false) :
    ReflTransGen (Route.Step p since span) ⟨0, [], [], 0⟩
      (((new exporters network p).follow evs).route
        ((gather noted (new exporters network p) evs).map fun n => (n.time, n.call)) url) := by
  induction evs using List.reverseRecOn with
  | nil => exact .refl
  | append_singleton evs ev ih =>
      rw [gather_concat, List.map_append, Breaker.results_append, List.forall_mem_append]
        at hfailing
      rw [follow_concat, gather_concat, List.map_append]
      refine (ih (fun pre ev' post hsplit => hserial pre ev' (post ++ [ev]) (by simp [hsplit]))
        hfailing.1).trans (route_after (follow_breaker evs) ?_ (hserial evs ev [] rfl) hfailing.2)
      rw [follow_exporters]
      exact haddressed

-- A URL at which every attempt fails is left alone most of the time. In a window of time in which
-- none succeeds and none begins while another one waits, the URL gets no more requests than fit the
-- limit, and one for each cooldown that fits the window, as long as the clock can tell the end of a
-- cooldown that begins with the end of the window. It does not matter what happened before the
-- window, and how long each attempt takes to fail.
theorem arrivals_in_window_le {exporters : Exporters} (haddressed : exporters.Addressed)
    (network : Network) {policy : BreakerPolicy} (hcooldown : 0 < policy.cooldown) {url : String}
    {since span : Nat} (hlast : since + span + policy.cooldown ≤ Clock.last) {evs : List Event}
    (hserial : ∀ pre ev post, evs = pre ++ ev :: post → ev.begins url = true →
      InWindow since span ((new exporters network policy).follow pre).clock →
      ((new exporters network policy).follow pre).countOf url Fate.isWaiting = 0)
    (hfailing : ∀ r ∈ Breaker.results url
        ((gather noted (new exporters network policy) evs).map fun n => (n.time, n.call)),
      InWindow since span r.1 → r.2 = false) :
    (((new exporters network policy).follow evs).relay.arrivals url).countP
        (fun time => InWindow since span time) ≤
      policy.limit.toNat + span / policy.cooldown := by
  have hpaced := (paced_new policy since span).steps hlast
    (route_follow haddressed hserial hfailing)
  exact hpaced.calls_le hcooldown

-- A destination accepts a snapshot and then fails 200 milliseconds after each request. The second
-- failure opens its circuit, and in 2600 milliseconds there are as many requests as there may be.
theorem arrivals_in_window_le_reached :
    let policy : BreakerPolicy := ⟨2, 1000, by decide⟩
    let attempt : Event := .begin ⟨"http://north", .http, none⟩ (.empty "east" (.ofMillis 0))
    let evs : List Event := [attempt, .relink ⟨[("http://north", .delayed 200 503)]⟩, .elapse 100,
      attempt, .elapse 200, .answer 1, attempt, .elapse 200, .answer 2, attempt, .elapse 1000,
      attempt, .elapse 200, .answer 4, .elapse 1000, attempt]
    let start := new .standard .calm policy
    let arrivals := (start.follow evs).relay.arrivals "http://north"
    0 < policy.cooldown ∧ 100 + 2600 + policy.cooldown ≤ Clock.last ∧
      (∀ pre ev post, evs = pre ++ ev :: post → ev.begins "http://north" = true →
        InWindow 100 2600 (start.follow pre).clock →
        (start.follow pre).countOf "http://north" Fate.isWaiting = 0) ∧
      (∀ r ∈ Breaker.results "http://north"
          ((gather noted start evs).map fun n => (n.time, n.call)),
        InWindow 100 2600 r.1 → r.2 = false) ∧
      arrivals = [0, 100, 300, 1500, 2700] ∧
      arrivals.countP (fun time => InWindow 100 2600 time) ≤ 2 + 2600 / 1000 := by
  intro policy attempt evs start arrivals
  have hall : (evs.zipIdx.all fun e => !e.1.begins "http://north" ||
      (start.follow (evs.take e.2)).countOf "http://north" Fate.isWaiting == 0) = true := by
    decide +kernel +zetaReduce
  have hserial : ∀ pre ev post, evs = pre ++ ev :: post → ev.begins "http://north" = true →
      InWindow 100 2600 (start.follow pre).clock →
      (start.follow pre).countOf "http://north" Fate.isWaiting = 0 := by
    intro pre ev post hsplit hbegins _
    have hat : (ev, pre.length) ∈ evs.zipIdx := by
      rw [hsplit, List.mem_zipIdx_iff_getElem?]
      simp
    have hone := List.all_eq_true.mp hall _ hat
    rw [hsplit] at hone
    simpa [hbegins] using hone
  have hfailing : ∀ r ∈ Breaker.results "http://north"
      ((gather noted start evs).map fun n => (n.time, n.call)),
      InWindow 100 2600 r.1 → r.2 = false := by
    decide +kernel +zetaReduce
  have hlast : 100 + 2600 + policy.cooldown ≤ Clock.last := by decide
  exact ⟨by decide, hlast, hserial, hfailing, by decide +kernel +zetaReduce,
    arrivals_in_window_le Exporters.standard_addressed .calm (by decide) hlast hserial hfailing⟩

-- With a cooldown whose end the clock cannot tell, a destination that refuses every connection is
-- never left alone: there are more requests in the window than the limit allows without a cooldown.
theorem arrivals_with_endless_cooldown :
    let policy : BreakerPolicy := .make 1 (seconds 18446744073709551615)
    let attempt : Event := .begin ⟨"http://north", .http, none⟩ (.empty "east" (.ofMillis 0))
    let evs : List Event := [attempt, .elapse 1000, attempt, .elapse 1000, attempt]
    let start := new .standard ⟨[("http://north", .refused)]⟩ policy
    let arrivals := (start.follow evs).relay.arrivals "http://north"
    0 < policy.cooldown ∧
      (∀ k, (start.follow (evs.take k)).countOf "http://north" Fate.isWaiting = 0) ∧
      (∀ r ∈ Breaker.results "http://north"
          ((gather noted start evs).map fun n => (n.time, n.call)), r.2 = false) ∧
      arrivals = [0, 1000, 2000] ∧
      policy.limit.toNat + 2000 / policy.cooldown <
        arrivals.countP fun time => InWindow 0 2000 time := by
  intro policy attempt evs start arrivals
  have hserial : ∀ k ≤ 5,
      (start.follow (evs.take k)).countOf "http://north" Fate.isWaiting = 0 := by
    decide +kernel +zetaReduce
  refine ⟨by decide, fun k => ?_, by decide +kernel +zetaReduce, by decide +kernel +zetaReduce,
    by decide +kernel +zetaReduce⟩
  rcases Nat.le_total k 5 with hk | hk
  · exact hserial k hk
  · have hall : evs.take k = evs.take 5 := List.take_of_length_le hk
    rw [hall]
    exact hserial 5 (Nat.le_refl _)

end Traffic

end MetricRelay
