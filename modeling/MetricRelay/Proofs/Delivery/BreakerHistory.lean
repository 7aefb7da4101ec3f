import MetricRelay.Delivery.Breaker
import Mathlib.Algebra.Group.Nat.Defs
import Mathlib.Data.List.Induction

namespace MetricRelay

namespace Circuit

theorem allows_eq_false_iff (c : Circuit) (now : Nat) :
    c.allows now = false ↔ ∃ till ∈ c.openUntil, now < till := by
  cases h : c.openUntil <;> simp [allows, h]

theorem retryIn_eq (c : Circuit) (now : Nat) :
    c.retryIn now = c.openUntil.elim 0 (· - now) := by
  cases h : c.openUntil <;> simp [retryIn, h]

-- The circuit of a key whose failures since its last success happened at the given times, the
-- latest one first. The count stops at the largest word; the limit cannot be larger. Every failure
-- from the limit on opens the circuit if the clock can tell the end of the cooldown, and the latest
-- that does so counts.
def ofStreak (p : BreakerPolicy) (times : List Nat) : Circuit where
  failures := UInt32.ofNat (min times.length (2 ^ 32 - 1))
  openUntil :=
    (times.take (times.length + 1 - p.limit.toNat)).findSome? (Clock.later? · p.cooldown)

theorem ofStreak_failures (p : BreakerPolicy) (times : List Nat) :
    (ofStreak p times).failures.toNat = min times.length (2 ^ 32 - 1) := by
  simp only [ofStreak, UInt32.toNat_ofNat']
  omega

theorem ofStreak_nil (p : BreakerPolicy) : ofStreak p [] = fresh := by
  simp [ofStreak, fresh]

theorem record_success (p : BreakerPolicy) (now : Nat) (c : Circuit) :
    c.record p now true = ofStreak p [] := by
  simp [record, ofStreak_nil]

-- The count one failure later. At the largest word it stays.
theorem oneMore_eq {m : Nat} {c : Circuit} (h : c.failures.toNat = min m (2 ^ 32 - 1)) :
    c.oneMore = UInt32.ofNat (min (m + 1) (2 ^ 32 - 1)) := by
  apply UInt32.toNat.inj
  have hmost : c.failures = 0xFFFFFFFF ↔ c.failures.toNat = 2 ^ 32 - 1 := by
    rw [← UInt32.toNat_inj]
    rfl
  rw [UInt32.toNat_ofNat', oneMore]
  split
  · rename_i he
    have := hmost.mp he
    omega
  · rename_i hne
    have : c.failures.toNat ≠ 2 ^ 32 - 1 := fun he => hne (hmost.mpr he)
    rw [UInt32.toNat_add]
    simp only [UInt32.reduceToNat]
    omega

variable (p : BreakerPolicy) (times : List Nat) (now : Nat)

-- The word at which the count stops hides no failure that the limit asks for.
theorem limit_le_oneMore :
    p.limit ≤ (ofStreak p times).oneMore ↔ p.limit.toNat ≤ times.length + 1 := by
  have hlimit : p.limit.toNat < 2 ^ 32 := p.limit.toNat_lt
  rw [oneMore_eq (ofStreak_failures p times), UInt32.le_iff_toNat_le, UInt32.toNat_ofNat']
  omega

-- A failure puts its time in front. Below the limit the circuit was not open, so keeping what it
-- had is the same as leaving it closed; from the limit on, what it had is what the earlier failures
-- make of it.
theorem record_failure :
    (ofStreak p times).record p now false = ofStreak p (now :: times) := by
  have hcount := oneMore_eq (ofStreak_failures p times)
  by_cases hopen : p.limit.toNat ≤ times.length + 1
  · have htake : times.length + 1 + 1 - p.limit.toNat = times.length + 1 - p.limit.toNat + 1 := by
      omega
    rw [record, if_neg Bool.false_ne_true, if_pos ((limit_le_oneMore p times).mpr hopen), hcount]
    cases h : Clock.later? now p.cooldown <;> simp [ofStreak, htake, h]
  · have hbefore : times.length + 1 - p.limit.toNat = 0 := by omega
    have hafter : times.length + 1 + 1 - p.limit.toNat = 0 := by omega
    rw [record, if_neg Bool.false_ne_true,
      if_neg (mt (limit_le_oneMore p times).mp hopen), hcount]
    simp [ofStreak, hbefore, hafter]

theorem ofStreak_panics (success : Bool) :
    (ofStreak p times).panics p now success = true ↔
      success = false ∧ p.limit.toNat ≤ times.length + 1 ∧ Clock.last < now + p.cooldown := by
  simp only [panics, Bool.and_eq_true, Bool.not_eq_true', decide_eq_true_eq, limit_le_oneMore,
    Option.isNone_iff_eq_none, Clock.later?_eq_none, and_assoc]

-- The latest failure is what counts exactly if the clock can tell the end of its cooldown.
theorem findSome?_later?_eq_latest_iff {times : List Nat} {latest count cooldown : Nat}
    (h : latest ∈ times.head?) (hcount : 0 < count) :
    (times.take count).findSome? (Clock.later? · cooldown) = some (latest + cooldown) ↔
      latest + cooldown ≤ Clock.last := by
  obtain ⟨earlier, rfl⟩ : ∃ earlier, times = latest :: earlier := List.head?_eq_some_iff.mp h
  obtain ⟨rest, rfl⟩ : ∃ rest, count = rest + 1 := ⟨count - 1, by omega⟩
  constructor
  · intro hfound
    obtain ⟨time, -, htime⟩ := List.exists_of_findSome?_eq_some hfound
    obtain ⟨hle, heq⟩ := Clock.later?_eq_some.mp htime
    exact heq ▸ hle
  · intro hle
    simp [Clock.later?_of_le hle]

-- As long as the clock can tell the end of a cooldown, an open circuit lets nothing through before.
theorem le_of_ofStreak_allows {p : BreakerPolicy} {times : List Nat} {latest now : Nat}
    (h : latest ∈ times.head?) (hmany : p.limit.toNat ≤ times.length)
    (hlast : latest + p.cooldown ≤ Clock.last)
    (hallowed : (ofStreak p times).allows now = true) : latest + p.cooldown ≤ now := by
  have htill : (ofStreak p times).openUntil = some (latest + p.cooldown) :=
    (findSome?_later?_eq_latest_iff h (by omega)).mpr hlast
  simpa [allows, htill] using hallowed

theorem ofStreak_state :
    (ofStreak p times).state p now =
      if times.length < p.limit.toNat then .closed
      else if ∃ till ∈ (ofStreak p times).openUntil, now < till then .opened else .halfOpen := by
  have hlimit : p.limit.toNat < 2 ^ 32 := p.limit.toNat_lt
  have hcount : (ofStreak p times).failures < p.limit ↔ times.length < p.limit.toNat := by
    rw [UInt32.lt_iff_toNat_lt, ofStreak_failures]
    omega
  cases h : (ofStreak p times).openUntil <;> simp [state, hcount, h]

end Circuit

theorem BreakerPolicy.make_limit (limit : UInt32) (cooldown : Nat) :
    (make limit cooldown).limit.toNat = max limit.toNat 1 := by
  by_cases h : 0 < limit
  · have hpos : 0 < limit.toNat := h
    simp only [make, h, dite_true]
    omega
  · have hzero : ¬0 < limit.toNat := h
    simp only [make, h, dite_false, UInt32.reduceToNat]
    omega

theorem BreakerPolicy.make_cooldown (limit : UInt32) (cooldown : Nat) :
    (make limit cooldown).cooldown = cooldown := by
  unfold make
  split <;> rfl

namespace Breaker

theorem find?_put (key other : String) (c : Circuit) (l : List (String × Circuit)) :
    (put key c l).find? (fun e => e.1 == other) =
      if key = other then some (key, c) else l.find? fun e => e.1 == other := by
  induction l with
  | nil => by_cases h : key = other <;> simp [put, h]
  | cons e rest ih =>
      by_cases hk : e.1 = key
      · by_cases h : key = other <;> simp [put, hk, h]
      · by_cases he : e.1 = other
        · have h : other ≠ key := fun h => hk (he.trans h)
          simp [put, he, h, h.symm]
        · simp [put, hk, he, ih]

-- Making room for a circuit shows nowhere.
@[simp] theorem circuit_touch (b : Breaker) (key other : String) :
    (b.touch key).circuit other = b.circuit other := by
  by_cases h : key = other
  · subst h
    simp [touch, circuit, find?_put]
  · simp [touch, circuit, find?_put, h]

theorem circuit_record (b : Breaker) (key other : String) (success : Bool) (now : Nat) :
    (b.record key success now).circuit other =
      if key = other then (b.circuit key).record b.policy now success else b.circuit other := by
  by_cases h : key = other <;> simp [record, circuit, find?_put, h]

inductive Call where
  | check (key : String)
  | result (key : String) (success : Bool)
  | state (key : String)
  | failures (key : String)
  | retryIn (key : String)

inductive Answer where
  | allowed (yes : Bool)
  | noted
  | panicked
  | state (s : CircuitState)
  | failures (n : UInt32)
  | retryIn (millis : Nat)
deriving DecidableEq

def Call.key : Call → String
  | .check key | .result key _ | .state key | .failures key | .retryIn key => key

def answer (b : Breaker) (now : Nat) : Call → Answer
  | .check key => .allowed (b.check key now)
  | .result key success => if b.panics key success now then .panicked else .noted
  | .state key => .state (b.state key now)
  | .failures key => .failures (b.failures key)
  | .retryIn key => .retryIn (b.retryIn key now)

-- The breaker after a call. A check makes room for a circuit, a result changes it.
def heed (b : Breaker) (now : Nat) : Call → Breaker
  | .check key => b.touch key
  | .result key success => b.record key success now
  | .state _ | .failures _ | .retryIn _ => b

def after (b : Breaker) (calls : List (Nat × Call)) : Breaker :=
  calls.foldl (fun b c => b.heed c.1 c.2) b

def resultFor? (key : String) : Nat × Call → Option (Nat × Bool)
  | (time, .result k success) => if k = key then some (time, success) else none
  | _ => none

def results (key : String) (calls : List (Nat × Call)) : List (Nat × Bool) :=
  calls.filterMap (resultFor? key)

-- When a key failed since its last success, the latest time first.
def streak (key : String) (calls : List (Nat × Call)) : List Nat :=
  ((results key calls).reverse.takeWhile fun r => !r.2).map (·.1)

theorem after_concat (b : Breaker) (calls : List (Nat × Call)) (c : Nat × Call) :
    b.after (calls ++ [c]) = (b.after calls).heed c.1 c.2 := by
  simp [after]

theorem after_append (b : Breaker) (calls more : List (Nat × Call)) :
    b.after (calls ++ more) = (b.after calls).after more := by
  simp [after]

@[simp] theorem heed_policy (b : Breaker) (now : Nat) (c : Call) :
    (b.heed now c).policy = b.policy := by
  cases c <;> rfl

theorem after_policy (b : Breaker) (calls : List (Nat × Call)) :
    (b.after calls).policy = b.policy := by
  induction calls using List.reverseRecOn with
  | nil => rfl
  | append_singleton calls c ih => rw [after_concat, heed_policy, ih]

theorem results_append (key : String) (calls more : List (Nat × Call)) :
    results key (calls ++ more) = results key calls ++ results key more := by
  simp [results]

theorem streak_concat_other {key : String} {c : Nat × Call} (h : resultFor? key c = none)
    (calls : List (Nat × Call)) : streak key (calls ++ [c]) = streak key calls := by
  simp [streak, results, h]

theorem streak_concat_result (key : String) (time : Nat) (success : Bool)
    (calls : List (Nat × Call)) :
    streak key (calls ++ [(time, .result key success)]) =
      if success then [] else time :: streak key calls := by
  cases success <;> simp [streak, results, resultFor?]

-- A circuit is what the streak of its key makes of it.
theorem circuit_after (p : BreakerPolicy) (calls : List (Nat × Call)) (key : String) :
    ((new p).after calls).circuit key = .ofStreak p (streak key calls) := by
  induction calls using List.reverseRecOn with
  | nil => exact (Circuit.ofStreak_nil p).symm
  | append_singleton calls c ih =>
      obtain ⟨time, call⟩ := c
      rw [after_concat]
      cases call with
      | result k success =>
          simp only [heed, circuit_record, after_policy]
          by_cases h : k = key
          · subst h
            rw [if_pos rfl, streak_concat_result, ih]
            cases success
            · exact Circuit.record_failure p _ time
            · exact Circuit.record_success p time _
          · rw [if_neg h, streak_concat_other (by simp [resultFor?, h])]
            exact ih
      | check k => rw [streak_concat_other rfl]; simpa [heed] using ih
      | state k => rw [streak_concat_other rfl]; exact ih
      | failures k => rw [streak_concat_other rfl]; exact ih
      | retryIn k => rw [streak_concat_other rfl]; exact ih

-- Calls that tell nothing of a key change no later answer about it.
theorem answer_congr (p : BreakerPolicy) {calls other : List (Nat × Call)} {c : Call}
    (h : results c.key other = results c.key calls) (now : Nat) :
    ((new p).after other).answer now c = ((new p).after calls).answer now c := by
  have hc : ((new p).after other).circuit c.key = ((new p).after calls).circuit c.key := by
    rw [circuit_after, circuit_after, streak, streak, h]
  cases c <;> simp only [Call.key] at hc <;>
    simp only [answer, check, panics, state, failures, retryIn, hc, after_policy]

-- All that a breaker ever answers about a key follows from the failures told of it since its last
-- success. Those from the threshold on are to open the circuit; the latest of them for which the
-- clock can tell the end of the cooldown says until when it is open. As long as the clock can tell
-- it for the latest failure, that is a cooldown after this failure. Where it cannot, the call that
-- tells of the failure panics, and the circuit is no longer open than it was before. Checks,
-- questions and calls about other keys in between show nowhere, and the time told until the next
-- try is exact.
theorem answers_eq_history (threshold : UInt32) (cooldown : Nat) (past : List (Nat × Call))
    (key : String) (now : Nat) :
    let b := (new (.make threshold cooldown)).after past
    let times := streak key past
    let fails := times.length
    let needed := max threshold.toNat 1
    let till? := (times.take (fails + 1 - needed)).findSome? (Clock.later? · cooldown)
    (b.failures key).toNat = min fails (2 ^ 32 - 1) ∧
      (b.check key now = false ↔ ∃ till ∈ till?, now < till) ∧
      b.state key now = (if fails < needed then .closed
        else if ∃ till ∈ till?, now < till then .opened else .halfOpen) ∧
      b.retryIn key now = till?.elim 0 (· - now) ∧
      (fails < needed → till? = none) ∧
      (∀ latest ∈ times.head?, needed ≤ fails →
        (till? = some (latest + cooldown) ↔ latest + cooldown ≤ Clock.last)) ∧
      (∀ success, b.answer now (.result key success) =
        if success = false ∧ needed ≤ fails + 1 ∧ Clock.last < now + cooldown then .panicked
        else .noted) ∧
      (∀ (other : List (Nat × Call)) (c : Call), c.key = key →
        results key other = results key past →
        ((new (.make threshold cooldown)).after other).answer now c = b.answer now c) ∧
      ∀ idle : List (Nat × Call), results key idle = [] →
        (b.after idle).check key (now + b.retryIn key now) = true ∧
          ∀ wait < b.retryIn key now, (b.after idle).check key (now + wait) = false := by
  intro b times fails needed till?
  let p := BreakerPolicy.make threshold cooldown
  have hlimit : p.limit.toNat = needed := BreakerPolicy.make_limit threshold cooldown
  have hcooldown : p.cooldown = cooldown := BreakerPolicy.make_cooldown threshold cooldown
  have hcircuit : b.circuit key = .ofStreak p times := circuit_after p past key
  have hpolicy : b.policy = p := after_policy _ _
  have htill : (Circuit.ofStreak p times).openUntil = till? := by
    rw [Circuit.ofStreak, hlimit, hcooldown]
  have hcheck : ∀ time, b.check key time = false ↔ ∃ till ∈ till?, time < till := by
    intro time
    rw [check, hcircuit, Circuit.allows_eq_false_iff, htill]
  have hretry : b.retryIn key now = till?.elim 0 (· - now) := by
    rw [retryIn, hcircuit, Circuit.retryIn_eq, htill]
  refine ⟨?_, hcheck now, ?_, hretry, ?_, ?_, ?_, ?_, ?_⟩
  · rw [failures, hcircuit, Circuit.ofStreak_failures]
  · rw [state, hcircuit, hpolicy, Circuit.ofStreak_state, hlimit, htill]
  · intro hfew
    have hnone : fails + 1 - needed = 0 := by omega
    simp only [till?, hnone, List.take_zero, List.findSome?_nil]
  · intro latest hlatest hmany
    exact Circuit.findSome?_later?_eq_latest_iff hlatest (by omega)
  · intro success
    have hpanics := Circuit.ofStreak_panics p times now success
    rw [hlimit, hcooldown] at hpanics
    simp only [answer, panics, hcircuit, hpolicy, hpanics, fails]
  · rintro other c rfl hsame
    exact answer_congr p hsame now
  · intro idle hidle
    have hlater : ∀ time, (b.after idle).check key time = b.check key time := by
      intro time
      have hsame : results key (past ++ idle) = results key past := by
        rw [results_append, hidle, List.append_nil]
      have := answer_congr p (c := .check key) hsame time
      rw [after_append] at this
      exact Answer.allowed.inj this
    simp only [hlater]
    constructor
    · rw [← Bool.not_eq_false, hcheck, hretry]
      rintro ⟨till, htill, hnow⟩
      rw [htill, Option.elim_some] at hnow
      omega
    · intro wait hwait
      rw [hretry] at hwait
      cases htill : till? with
      | none => simp [htill] at hwait
      | some till =>
        rw [htill, Option.elim_some] at hwait
        exact (hcheck _).mpr ⟨till, htill, by omega⟩

-- A cooldown whose end the clock cannot tell at any time: after the one failure that is to open the
-- circuit, it is not open, and the destination may be tried again at once.
theorem check_of_endless_cooldown :
    let cooldown := seconds 18446744073709551615
    let past := [(0, Call.result "a" false)]
    let b := (new (.make 1 cooldown)).after past
    ¬(b.check "a" 0 = false ↔
        1 ≤ (streak "a" past).length ∧ 0 < (streak "a" past).headD 0 + cooldown) ∧
      b.state "a" 0 = .halfOpen ∧ b.retryIn "a" 0 = 0 := by
  decide

-- A threshold of zero acts as one.
example : ((new (.make 0 10)).after [(3, .result "a" false)]).retryIn "a" 5 = 8 := by decide

end Breaker

end MetricRelay
