import MetricRelay.Proofs.Delivery.Traffic

namespace MetricRelay

-- The status of the answer that has reached an export, going by how its request was met and by what
-- concerned the export first after that.
def arrival? (met : Reaction) (next : Option Event) : Option UInt16 :=
  match met with
  | .status code => some code
  | .delayed millis code =>
    if millis = 0 then some code
    else match next with
      | some (.answer _) => some code
      | _ => none
  | .refused | .silent => none

namespace Fate

variable {number : Nat}

-- Nothing happens to an export that does not wait.
theorem meet_of_not_waiting {f : Fate} (h : f.isWaiting = false) (ev : Event) :
    f.meet number ev = f := by
  cases f with
  | awaiting status => cases h
  | unanswered => cases h
  | _ => cases ev <;> simp [meet, isWaiting]

theorem foldl_meet_of_not_waiting {f : Fate} (h : f.isWaiting = false) (evs : List Event) :
    evs.foldl (meet number) f = f := by
  induction evs with
  | nil => rfl
  | cons ev rest ih => rw [List.foldl_cons, meet_of_not_waiting h, ih]

theorem foldl_meet_over (o : Outcome) (evs : List Event) :
    evs.foldl (meet number) (.over o) = .over o :=
  foldl_meet_of_not_waiting rfl evs

-- An export that waits in vain never returns.
theorem foldl_meet_unanswered (evs : List Event) :
    evs.foldl (meet number) .unanswered = .unanswered ∨
      evs.foldl (meet number) .unanswered = .cancelled := by
  induction evs with
  | nil => exact .inl rfl
  | cons ev rest ih =>
      rw [List.foldl_cons]
      cases ev with
      | cancel i =>
          by_cases hi : i = number
          · have hgone : meet number .unanswered (.cancel i) = .cancelled := by
              simp [meet, isWaiting, hi]
            rw [hgone]
            exact .inr (foldl_meet_of_not_waiting rfl rest)
          · have hsame : meet number .unanswered (.cancel i) = .unanswered := by simp [meet, hi]
            rw [hsame]
            exact ih
      | _ => exact ih

-- What concerns a waiting export first settles it for good.
theorem foldl_meet_awaiting (status : UInt16) (evs : List Event) :
    evs.foldl (meet number) (.awaiting status) =
      match evs.find? (Event.concerns number) with
      | some (.answer _) => .over (Relay.outcomeOf status)
      | some _ => .cancelled
      | none => .awaiting status := by
  induction evs with
  | nil => rfl
  | cons ev rest ih =>
      rw [List.foldl_cons, List.find?_cons]
      cases hev : ev.concerns number with
      | false => rw [Traffic.meet_of_not_concerns hev, ih]
      | true =>
          cases ev with
          | answer i =>
              have hi : i = number := by simpa [Event.concerns] using hev
              have hover : meet number (.awaiting status) (.answer i) =
                  .over (Relay.outcomeOf status) := by simp [meet, hi]
              rw [hover, foldl_meet_over]
          | cancel i =>
              have hi : i = number := by simpa [Event.concerns] using hev
              have hgone : meet number (.awaiting status) (.cancel i) = .cancelled := by
                simp [meet, isWaiting, hi]
              rw [hgone, foldl_meet_of_not_waiting rfl]
          | begin | elapse | relink => cases hev

theorem outcomeOf_eq_delivered {status : UInt16} :
    Relay.outcomeOf status = .delivered ↔ 200 ≤ status ∧ status ≤ 299 := by
  simp [Relay.outcomeOf, isSuccess]

-- An export that was met in some way returns with delivery exactly if a success has reached it, and
-- else with failure if it returns.
theorem foldl_meet_reaction (met : Reaction) (evs : List Event) :
    let f := evs.foldl (meet number) met.fate
    (f = .over .delivered ↔
      ∃ code, arrival? met (evs.find? (Event.concerns number)) = some code ∧
        200 ≤ code ∧ code ≤ 299) ∧
    ∀ o, f = .over o → o = .delivered ∨ o = .failed := by
  have hcode : ∀ code : UInt16,
      (Fate.over (Relay.outcomeOf code) = .over .delivered ↔
        ∃ code', some code = some code' ∧ 200 ≤ code' ∧ code' ≤ 299) ∧
      ∀ o, Fate.over (Relay.outcomeOf code) = .over o → o = .delivered ∨ o = .failed := by
    intro code
    constructor
    · rw [Fate.over.injEq, outcomeOf_eq_delivered]
      simp
    · rintro o ho
      cases ho
      cases h : isSuccess code <;> simp [Relay.outcomeOf, h]
  intro f
  cases met with
  | status code =>
      have hf : f = .over (Relay.outcomeOf code) := foldl_meet_over _ evs
      rw [hf]
      exact hcode code
  | refused =>
      have hf : f = .over .failed := foldl_meet_over _ evs
      rw [hf]
      simp [arrival?]
  | delayed millis code =>
      by_cases hnow : millis = 0
      · have hf : f = .over (Relay.outcomeOf code) := by
          have hfate : Reaction.fate (.delayed millis code) = .over (Relay.outcomeOf code) :=
            if_pos hnow
          simp only [f, hfate, foldl_meet_over]
        simp only [hf, arrival?, hnow, if_true]
        exact hcode code
      · have hf := @foldl_meet_awaiting number code evs
        have hfate : Reaction.fate (.delayed millis code) = .awaiting code := if_neg hnow
        simp only [f, hfate, hf, arrival?, hnow, if_false]
        cases evs.find? (Event.concerns number) with
        | none => simp
        | some ev =>
            cases ev with
            | answer i => exact hcode code
            | _ => simp
  | silent =>
      have hf : f = .unanswered ∨ f = .cancelled := foldl_meet_unanswered evs
      rcases hf with hf | hf <;> simp [hf, arrival?]

-- An export that was not skipped and is over has its result, which says whether it delivered.
theorem result?_of_not_waiting {f : Fate} (hallowed : f ≠ .over .skipped)
    (hover : f.isWaiting = false) : f.result? = some (f == .over .delivered) := by
  rcases f with o | status | _ | _
  · cases o with
    | skipped => exact absurd rfl hallowed
    | _ => rfl
  · cases hover
  · cases hover
  · rfl

-- An export that is let through is met by its destination, unless there is nothing to send.
theorem foldl_meet_allowed {r : Relay} {now : Nat} {s : Subscriber}
    (hcheck : r.breaker.check s.key now = true) (x : Snapshot) (evs : List Event) :
    let encoded := r.exporters s.kind (.ofMillis now) s x
    let f := evs.foldl (meet number) (r.fate now s x)
    (f = .over .delivered ↔ ∃ request code, encoded = .value request ∧
      arrival? (r.network.reaction request.url) (evs.find? (Event.concerns number)) = some code ∧
      200 ≤ code ∧ code ≤ 299) ∧
    ∀ o, f = .over o → o ≠ .delivered →
      o = .failed ∨ o = .panicked ∧ ∃ text, encoded = .panic text := by
  intro encoded f
  have hlaunched : r.fate now s x = r.fateOf encoded := if_pos hcheck
  have hfate : f = evs.foldl (meet number) (r.fateOf encoded) := by rw [← hlaunched]
  clear_value f encoded
  subst hfate
  cases encoded with
  | value request =>
      obtain ⟨hdelivered, hreturns⟩ := @foldl_meet_reaction number
        (r.network.reaction request.url) evs
      rw [Relay.fateOf]
      constructor
      · rw [hdelivered]
        simp
      · intro o ho hne
        exact .inl ((hreturns o ho).resolve_left hne)
  | fault e => simp [Relay.fateOf, foldl_meet_over]
  | panic text => simp [Relay.fateOf, foldl_meet_over]

end Fate

namespace Traffic

variable {t : Traffic}

theorem follow_breaker (evs : List Event) :
    (t.follow evs).relay.breaker =
      t.relay.breaker.after ((gather noted t evs).map fun n => (n.time, n.call)) := by
  induction evs using List.reverseRecOn with
  | nil => rfl
  | append_singleton evs ev ih =>
      rw [follow_concat, (step_after _ ev).breaker, ih, gather_concat, List.map_append,
        Breaker.after_append]

theorem follow_requests (evs : List Event) :
    (t.follow evs).relay.requests =
      t.relay.requests ++ (gather sent t evs).map fun p => (p.time, p.request) := by
  induction evs using List.reverseRecOn with
  | nil => exact (List.append_nil _).symm
  | append_singleton evs ev ih =>
      rw [follow_concat, (step_after _ ev).requests, ih, gather_concat, List.map_append,
        List.append_assoc]

theorem follow_exporters (evs : List Event) :
    (t.follow evs).relay.exporters = t.relay.exporters := by
  induction evs using List.reverseRecOn with
  | nil => rfl
  | append_singleton evs ev ih => rw [follow_concat, (step_after _ ev).exporters, ih]

theorem follow_exports {number : Nat} {s : Subscriber} {f : Fate}
    (hget : t.exports[number]? = some ⟨s, f⟩) (evs : List Event) :
    (t.follow evs).exports[number]? = some ⟨s, evs.foldl (Fate.meet number) f⟩ := by
  induction evs using List.reverseRecOn with
  | nil => exact hget
  | append_singleton evs ev ih =>
      rw [follow_concat, (step_after _ ev).exports ih, List.foldl_concat]

theorem resultsOf_append (number : Nat) (notes more : List Note) :
    resultsOf number (notes ++ more) = resultsOf number notes ++ resultsOf number more :=
  List.filterMap_append

theorem follow_results (evs : List Event) (number : Nat) :
    (((t.follow evs).result? number).map fun r => Breaker.Call.result r.1 r.2).toList =
      ((t.result? number).map fun r => Breaker.Call.result r.1 r.2).toList ++
        (resultsOf number (gather noted t evs)).map (·.2) := by
  induction evs using List.reverseRecOn with
  | nil => exact (List.append_nil _).symm
  | append_singleton evs ev ih =>
      rw [follow_concat, (step_after _ ev).results, ih, gather_concat, resultsOf_append,
        List.map_append, List.append_assoc]

theorem follow_count (evs : List Event) (url : String) :
    (t.follow evs).countOf url (·.result?.isSome) = t.countOf url (·.result?.isSome) +
      (Breaker.results url ((gather noted t evs).map fun n => (n.time, n.call))).length := by
  induction evs using List.reverseRecOn with
  | nil => rfl
  | append_singleton evs ev ih =>
      rw [follow_concat, (step_after _ ev).count, ih, gather_concat, List.map_append,
        Breaker.results_append, List.length_append, Nat.add_assoc]

-- The result of an export bears the time at which the export ends.
theorem exists_ending {number : Nat} {s : Subscriber} {f : Fate} {ok : Bool} {evs : List Event}
    (hnone : t.result? number = none) (hnow : (t.follow evs).exports[number]? = some ⟨s, f⟩)
    (hok : f.result? = some ok) :
    ∃ before ev later, evs = before ++ ev :: later ∧ (t.follow before).result? number = none ∧
      (t.follow (before ++ [ev])).exports[number]? = some ⟨s, f⟩ ∧
      resultsOf number (gather noted t evs) = [((t.follow before).clock, .result s.key ok)] := by
  induction evs using List.reverseRecOn with
  | nil => simp [follow] at hnow; simp [result?, hnow, hok] at hnone
  | append_singleton evs ev ih =>
      have hresult : (t.follow (evs ++ [ev])).result? number = some (s.key, ok) := by
        simp [result?, hnow, hok]
      have hsofar := follow_results (t := t) evs number
      have hlast := (step_after (t.follow evs) ev).results number
      rw [← follow_concat, hresult] at hlast
      rw [hnone] at hsofar
      cases hbefore : (t.follow evs).result? number with
      | none =>
          refine ⟨evs, ev, [], rfl, hbefore, hnow, ?_⟩
          rw [hbefore] at hsofar hlast
          have hearlier : resultsOf number (gather noted t evs) = [] :=
            List.map_eq_nil_iff.mp hsofar.symm
          obtain ⟨⟨time, call⟩, hone, hcall⟩ := List.map_eq_singleton_iff.mp hlast.symm
          change call = .result s.key ok at hcall
          have htime : time = (t.follow evs).clock := by
            have hmem : (time, call) ∈ resultsOf number ((t.follow evs).noted ev) := by
              rw [hone]
              exact List.mem_singleton_self _
            obtain ⟨n, hn, hkept⟩ := List.mem_filterMap.mp hmem
            rw [← (step_after (t.follow evs) ev).note_time hn]
            split at hkept
            · split at hkept <;> cases hkept
              rfl
            · cases hkept
          rw [gather_concat, resultsOf_append, hearlier, hone, htime, hcall]
          rfl
      | some r =>
          obtain ⟨⟨s', f'⟩, hget, hr⟩ := Option.bind_eq_some_iff.mp hbefore
          have hover : f'.isWaiting = false := by
            cases f' with
            | awaiting status => cases hr
            | unanswered => cases hr
            | _ => rfl
          have hstays := (step_after (t.follow evs) ev).exports hget
          rw [Fate.meet_of_not_waiting hover, ← follow_concat, hnow] at hstays
          cases hstays
          obtain ⟨before, ev', later, rfl, hnot, hthen, hresults⟩ := ih hget
          refine ⟨before, ev', later ++ [ev], by simp, hnot, hthen, ?_⟩
          have hmore : resultsOf number ((t.follow (before ++ ev' :: later)).noted ev) = [] := by
            have hlength := congrArg List.length hlast
            rw [hbefore] at hlength
            simpa using hlength
          rw [gather_concat, resultsOf_append, hresults, hmore, List.append_nil]

-- Requests come from the exports that begin meanwhile.
theorem follow_posts_number {evs : List Event} {p : Post} (hp : p ∈ gather sent t evs) :
    t.exports.length ≤ p.number ∧ p.number < (t.follow evs).exports.length := by
  induction evs generalizing t with
  | nil => cases hp
  | cons ev rest ih =>
      have hlength : (t.after ev).exports.length ≤ ((t.after ev).follow rest).exports.length := by
        clear ih hp
        generalize t.after ev = t
        induction rest using List.reverseRecOn with
        | nil => exact Nat.le_refl _
        | append_singleton evs ev ih =>
            rw [follow_concat]
            exact Nat.le_trans ih (step_after _ ev).length_le
      have hbefore := (step_after t ev).length_le
      rcases List.mem_append.mp hp with hp | hp
      · obtain ⟨hnumber, hlt⟩ := (step_after t ev).posts_number hp
        exact ⟨Nat.le_of_eq hnumber.symm, Nat.lt_of_lt_of_le hlt hlength⟩
      · obtain ⟨hle, hlt⟩ := ih hp
        exact ⟨Nat.le_trans hbefore hle, hlt⟩

theorem postsOf_eq_nil {number : Nat} {posts : List Post} (h : ∀ p ∈ posts, p.number ≠ number) :
    postsOf number posts = [] := by
  refine List.filterMap_eq_nil_iff.mpr fun p hp => ?_
  rw [if_neg (h p hp)]

theorem postsOf_append (number : Nat) (posts more : List Post) :
    postsOf number (posts ++ more) = postsOf number posts ++ postsOf number more :=
  List.filterMap_append

-- What an export sends it sends as it begins.
theorem follow_postsOf (t : Traffic) (pre post : List Event) (s : Subscriber) (x : Snapshot) :
    let b := t.follow pre
    postsOf b.exports.length (gather sent t (pre ++ .begin s x :: post)) =
      ((b.relay.posting? b.clock s x).map (b.clock, ·)).toList := by
  intro b
  have hbefore : postsOf b.exports.length (gather sent t pre) = [] :=
    postsOf_eq_nil fun p hp => Nat.ne_of_lt (follow_posts_number hp).2
  have hafter : postsOf b.exports.length (gather sent (b.after (.begin s x)) post) = [] := by
    refine postsOf_eq_nil fun p hp => Nat.ne_of_gt ?_
    have hle := (follow_posts_number hp).1
    rw [after_begin] at hle
    simp only [List.length_append, List.length_singleton] at hle
    omega
  have hown : postsOf b.exports.length (b.sent (.begin s x)) =
      ((b.relay.posting? b.clock s x).map (b.clock, ·)).toList := by
    rw [sent_begin]
    cases b.relay.posting? b.clock s x <;> simp [postsOf]
  rw [gather_append, gather, postsOf_append, postsOf_append, hbefore, hafter, hown,
    List.nil_append, List.append_nil]

-- An export that begins is checked first. Without leave it is skipped: it makes no request, and the
-- breaker gets no result. Otherwise it makes its request, if there is one to make, and the breaker
-- gets one result with the event that ends it, which is a success exactly if an answer with a
-- success has arrived; and exactly then it returns with delivery. This is all that the breaker is
-- called with, whatever else happens meanwhile. So the exports to a URL that were allowed are those
-- that have a result and those that wait, and all of them count as one.
theorem exports_paired (exporters : Exporters) (network : Network) (policy : BreakerPolicy)
    (evs : List Event) :
    let start := new exporters network policy
    let t := start.follow evs
    let notes := gather noted start evs
    let calls := notes.map fun n => (n.time, n.call)
    let posts := gather sent start evs
    t.relay.breaker = (Breaker.new policy).after calls ∧
    t.relay.requests = posts.map (fun p => (p.time, p.request)) ∧
    (∀ pre s x post, evs = pre ++ .begin s x :: post →
      let b := start.follow pre
      let number := b.exports.length
      let encoded := exporters s.kind (.ofMillis b.clock) s x
      ∃ fate, t.exports[number]? = some ⟨s, fate⟩ ∧
      (b.relay.breaker.check s.key b.clock = false →
        fate = .over .skipped ∧ postsOf number posts = [] ∧ resultsOf number notes = []) ∧
      (b.relay.breaker.check s.key b.clock = true →
        (postsOf number posts = match encoded with
          | .value request => [(b.clock, request)]
          | _ => []) ∧
        (fate.isWaiting = true → resultsOf number notes = []) ∧
        (fate.isWaiting = false → ∃ before ev later, evs = before ++ ev :: later ∧
          (start.follow before).result? number = none ∧
          (start.follow (before ++ [ev])).exports[number]? = some ⟨s, fate⟩ ∧
          resultsOf number notes =
            [((start.follow before).clock, .result s.key (fate == .over .delivered))]) ∧
        (fate = .over .delivered ↔ ∃ request code, encoded = .value request ∧
          arrival? (b.relay.network.reaction request.url)
            (post.find? (Event.concerns number)) = some code ∧ 200 ≤ code ∧ code ≤ 299) ∧
        ∀ o, fate = .over o → o ≠ .delivered →
          o = .failed ∨ o = .panicked ∧ ∃ text, encoded = .panic text)) ∧
    (∀ url, t.countOf url Fate.isAllowed =
      (Breaker.results url calls).length + t.countOf url Fate.isWaiting) ∧
    ∀ url, (t.relay.breaker.failures url).toNat =
      min (Breaker.streak url calls).length (2 ^ 32 - 1) := by
  intro start t notes calls posts
  have hbreaker : t.relay.breaker = (Breaker.new policy).after calls := follow_breaker evs
  refine ⟨hbreaker, ?_, ?_, ?_, ?_⟩
  · exact follow_requests evs
  · rintro pre s x post rfl b number encoded
    have hbegun : (b.after (.begin s x)).exports[number]? =
        some ⟨s, b.relay.fate b.clock s x⟩ := by
      rw [after_begin]
      exact List.getElem?_concat_length
    have hexporters : b.relay.exporters = exporters := follow_exporters pre
    let fate := post.foldl (Fate.meet number) (b.relay.fate b.clock s x)
    have hnow : t.exports[number]? = some ⟨s, fate⟩ := by
      have hsplit : t = (b.after (.begin s x)).follow post := follow_append pre (.begin s x :: post)
      rw [hsplit]
      exact follow_exports hbegun post
    have hposts : postsOf number posts =
        ((b.relay.posting? b.clock s x).map (b.clock, ·)).toList := follow_postsOf start pre post s x
    have hresults : (resultsOf number notes).map (·.2) =
        (fate.result?.map fun ok => Breaker.Call.result s.key ok).toList := by
      have hnone : start.result? number = none := rfl
      have hresult : t.result? number = fate.result?.map (s.key, ·) := by
        rw [Traffic.result?, hnow]
        rfl
      have hall := follow_results (t := start) (pre ++ .begin s x :: post) number
      rw [hnone] at hall
      change ((t.result? number).map _).toList = [] ++ _ at hall
      rw [hresult, Option.map_map, List.nil_append] at hall
      exact hall.symm
    refine ⟨fate, hnow, ?_, ?_⟩
    · intro hcheck
      have hskipped : fate = .over .skipped := by
        have hfate : b.relay.fate b.clock s x = .over .skipped := by
          simp only [Relay.fate, hcheck, Bool.false_eq_true, if_false]
        simp only [fate, hfate, Fate.foldl_meet_over]
      rw [hskipped] at hresults
      refine ⟨hskipped, ?_, List.map_eq_nil_iff.mp hresults⟩
      simp [hposts, Relay.posting?, hcheck]
    · intro hcheck
      obtain ⟨hdelivered, hreturns⟩ := @Fate.foldl_meet_allowed number _ _ _ hcheck x post
      rw [hexporters] at hdelivered hreturns
      refine ⟨?_, ?_, ?_, hdelivered, hreturns⟩
      · simp only [hposts, Relay.posting?, hcheck, if_true, hexporters, encoded]
        cases exporters s.kind (.ofMillis b.clock) s x <;> rfl
      · intro hwaiting
        have hnone : fate.result? = none := by
          cases h : fate with
          | awaiting status => rfl
          | unanswered => rfl
          | _ => rw [h] at hwaiting; cases hwaiting
        rw [hnone] at hresults
        exact List.map_eq_nil_iff.mp hresults
      · intro hover
        have hallowed : fate ≠ .over .skipped := by
          intro hskipped
          rcases hreturns .skipped hskipped (by decide) with h | ⟨h, -⟩ <;> cases h
        exact exists_ending rfl hnow (Fate.result?_of_not_waiting hallowed hover)
  · intro url
    have hcount := follow_count (t := start) evs url
    rw [countOf_isAllowed, hcount]
    exact congrArg (· + _) (Nat.zero_add _)
  · intro url
    rw [Breaker.failures, hbreaker, Breaker.circuit_after, Circuit.ofStreak_failures]

end Traffic

end MetricRelay
