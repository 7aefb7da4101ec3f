import MetricRelay.Collection.Join
import Mathlib.Algebra.Group.Int.Defs
import Mathlib.Algebra.Group.Nat.Defs
import Mathlib.Data.List.Induction

namespace MetricRelay.Join

variable {α : Type}

inductive Call (α : Type) where
  | complete (contribute : α → α)
  | fail (f : Fault)
  | close

def call (j : Join α) : Call α → Option (Delivery α) × Join α
  | .complete contribute => j.complete contribute
  | .fail f => j.fail f
  | .close => j.close

def after (j : Join α) (calls : List (Call α)) : Join α :=
  calls.foldl (fun j c => (j.call c).2) j

-- What each of some calls hands over, in order.
def answers (j : Join α) : List (Call α) → List (Option (Delivery α))
  | [] => []
  | c :: rest => (j.call c).1 :: answers (j.call c).2 rest

def Call.isCompletion : Call α → Bool
  | .complete _ => true
  | _ => false

def Call.isFailure : Call α → Bool
  | .fail _ => true
  | _ => false

def Call.isClosing : Call α → Bool
  | .close => true
  | _ => false

def Call.fault? : Call α → Option Fault
  | .fail f => some f
  | _ => none

def completions (calls : List (Call α)) : Nat :=
  calls.countP Call.isCompletion

-- The value with the contributions of all completions, in order.
def contributed (value : α) (calls : List (Call α)) : α :=
  calls.foldl (fun v c => match c with
    | .complete contribute => contribute v
    | _ => v) value

-- Whether calls settle a join of `k` contributions: one of them fails it, or they complete it, or
-- there is nothing to complete and one of them closes it.
def settled (k : Nat) (calls : List (Call α)) : Bool :=
  calls.any Call.isFailure || decide (max k 1 ≤ completions calls) ||
    (decide (k = 0) && calls.any Call.isClosing)

-- Whether a call is the first that settles the join.
def settles (k : Nat) (before : List (Call α)) (c : Call α) : Bool :=
  settled k (before ++ [c]) && !settled k before

-- What the call that settles a join is to hand over.
def outcome (value : α) (before : List (Call α)) : Call α → Delivery α
  | .fail f => .error f
  | c => .ok (contributed value (before ++ [c]))

theorem after_concat (j : Join α) (calls : List (Call α)) (c : Call α) :
    j.after (calls ++ [c]) = ((j.after calls).call c).2 := by
  simp [after]

theorem after_append (j : Join α) (calls more : List (Call α)) :
    j.after (calls ++ more) = (j.after calls).after more := by
  simp [after]

theorem settled_eq_false_iff {k : Nat} {calls : List (Call α)} :
    settled k calls = false ↔ calls.any Call.isFailure = false ∧ completions calls < max k 1 ∧
      (k = 0 → calls.any Call.isClosing = false) := by
  simp only [settled, Bool.or_eq_false_iff, decide_eq_false_iff_not, Bool.and_eq_false_imp,
    decide_eq_true_eq, Nat.not_le, and_assoc]

theorem settled_concat {k : Nat} {calls : List (Call α)} (h : settled k calls = false)
    (c : Call α) :
    settled k (calls ++ [c]) = match c with
      | .fail _ => true
      | .complete _ => decide (max k 1 ≤ completions calls + 1)
      | .close => decide (k = 0) := by
  obtain ⟨hfail, hcount, hclose⟩ := settled_eq_false_iff.mp h
  have hcount : ¬max k 1 ≤ completions calls := by omega
  cases c with
  | fail f => simp [settled, Call.isFailure]
  | complete contribute =>
      have hnow : completions (calls ++ [.complete contribute]) = completions calls + 1 := by
        simp [completions, Call.isCompletion]
      have hopen : (decide (k = 0) && calls.any Call.isClosing) = false := by
        by_cases hk : k = 0
        · rw [hclose hk, Bool.and_false]
        · simp [hk]
      simp only [settled, hnow, List.any_append, hfail, List.any_cons, List.any_nil,
        Call.isFailure, Call.isClosing, Bool.or_false, Bool.false_or, hopen]
  | close =>
      have hnow : completions (calls ++ [Call.close (α := α)]) = completions calls := by
        simp [completions, Call.isCompletion]
      simp only [settled, hnow, List.any_append, hfail, hcount]
      simp [Call.isFailure, Call.isClosing]

theorem settled_append_left {k : Nat} {calls : List (Call α)} (more : List (Call α))
    (h : settled k calls = true) : settled k (calls ++ more) = true := by
  simp only [settled, completions, List.any_append, List.countP_append, Bool.or_eq_true,
    Bool.and_eq_true, decide_eq_true_eq] at h ⊢
  rcases h with (h | h) | ⟨hk, h⟩
  · exact .inl (.inl (.inl h))
  · have := of_decide_eq_true h
    exact .inl (.inr (by omega))
  · exact .inr ⟨hk, .inl h⟩

theorem exists_settles {k : Nat} {calls : List (Call α)} (h : settled k calls = true) :
    ∃ before c rest, calls = before ++ c :: rest ∧ settles k before c = true := by
  induction calls using List.reverseRecOn with
  | nil => simp [settled, completions] at h
  | append_singleton calls c ih =>
      by_cases hbefore : settled k calls = true
      · obtain ⟨before, c', rest, rfl, hsettles⟩ := ih hbefore
        exact ⟨before, c', rest ++ [c], by simp, hsettles⟩
      · exact ⟨calls, c, [], rfl, by simp [settles, h, hbefore]⟩

-- A join that still waits for some of its `k` contributions after some calls.
structure Waiting (k : Nat) (value : α) (calls : List (Call α)) (j : Join α) : Prop where
  remaining : j.remaining.toInt = k - completions calls
  value : j.value = some (contributed value calls)
  waiting : j.waiting = true
  unsettled : settled k calls = false

structure Spent (j : Join α) : Prop where
  value : j.value = none
  waiting : j.waiting = false

theorem toInt_sub_one {r : Int64} (h : -2 ^ 63 < r.toInt) : (r - 1).toInt = r.toInt - 1 := by
  have hlt := r.toInt_lt
  rw [Int64.toInt_sub, Int64.toInt_one, Int.bmod_eq_of_le (by omega) (by omega)]

theorem waiting_expecting (k : UInt64) (hk : k.toNat < 2 ^ 63) (value : α) :
    Waiting k.toNat value [] (expecting k value) where
  remaining := by
    have h : k.toInt64 = Int64.ofNat k.toNat := by
      rw [← UInt64.toInt64_ofNat', UInt64.ofNat_toNat]
    simp [expecting, completions, h, Int64.toInt_ofNat_of_lt hk]
  value := rfl
  waiting := rfl
  unsettled := by simp [settled, completions]

theorem Spent.call {j : Join α} (h : Spent j) (c : Call α) : j.call c = (none, j) := by
  have hdeliver : ∀ f : Option Fault, j.deliver f = (none, j) := by
    intro f
    simp [deliver, h.waiting]
  cases c with
  | complete contribute => simp [Join.call, complete, h.value]
  | fail f => exact hdeliver (some f)
  | close =>
      simp only [Join.call, close, hdeliver]
      split <;> rfl

theorem Spent.after {j : Join α} (h : Spent j) (calls : List (Call α)) : j.after calls = j := by
  induction calls with
  | nil => rfl
  | cons c rest ih =>
      simp only [Join.after, List.foldl_cons, h.call c]
      exact ih

-- How a call should change a join that waits: it settles it and hands over what it should, or it
-- leaves it waiting and hands over nothing.
def Advances (k : Nat) (value : α) (calls : List (Call α)) (c : Call α)
    (r : Option (Delivery α) × Join α) : Prop :=
  (settled k (calls ++ [c]) = true ∧ r.1 = some (outcome value calls c) ∧ Spent r.2 ∧
      r.2.remaining.toInt = k - completions (calls ++ [c])) ∨
    (r.1 = none ∧ Waiting k value (calls ++ [c]) r.2)

section

variable {k : Nat} {value : α} {calls : List (Call α)} {j : Join α}

theorem Waiting.fail (h : Waiting k value calls j) (f : Fault) :
    Advances k value calls (.fail f) (j.fail f) := by
  refine .inl ⟨settled_concat h.unsettled (.fail f), ?_, ?_, ?_⟩
  · simp [Join.fail, deliver, h.waiting, outcome]
  · constructor <;> simp [Join.fail, deliver, h.waiting]
  · simp [Join.fail, deliver, h.waiting, h.remaining, completions, Call.isCompletion]

-- The last contribution is the one that finds the counter at one, or at zero if none was expected.
theorem Waiting.complete (hk : k < 2 ^ 63) (h : Waiting k value calls j) (contribute : α → α) :
    Advances k value calls (.complete contribute) (j.complete contribute) := by
  have hconcat := settled_concat h.unsettled (.complete contribute)
  have hcount := (settled_eq_false_iff.mp h.unsettled).2.1
  have hr := h.remaining
  have hnow : completions (calls ++ [.complete contribute]) = completions calls + 1 := by
    simp [completions, Call.isCompletion]
  have hvalue : contribute (contributed value calls) =
      contributed value (calls ++ [.complete contribute]) := by
    simp [contributed]
  have hsub : (j.remaining - 1).toInt = k - completions (calls ++ [.complete contribute]) := by
    rw [toInt_sub_one (by omega), hr, hnow]
    omega
  have hlast : j.remaining ≤ 1 ↔ max k 1 ≤ completions calls + 1 := by
    rw [Int64.le_iff_toInt_le, hr, Int64.toInt_one]
    omega
  by_cases hle : j.remaining ≤ 1
  · refine .inl ⟨hconcat.trans (decide_eq_true (hlast.mp hle)), ?_, ?_, ?_⟩
    · simp [Join.complete, deliver, h.value, h.waiting, hle, outcome, hvalue]
    · constructor <;> simp [Join.complete, deliver, h.value, h.waiting, hle]
    · simpa [Join.complete, deliver, h.value, h.waiting, hle] using hsub
  · refine .inr ⟨by simp [Join.complete, h.value, hle], ?_, ?_, ?_, ?_⟩
    · simpa [Join.complete, h.value, hle] using hsub
    · simp [Join.complete, h.value, hle, hvalue]
    · simp [Join.complete, h.value, hle, h.waiting]
    · exact hconcat.trans (decide_eq_false fun hm => hle (hlast.mpr hm))

theorem Waiting.close (h : Waiting k value calls j) :
    Advances k value calls .close j.close := by
  have hconcat := settled_concat h.unsettled .close
  have hcount := (settled_eq_false_iff.mp h.unsettled).2.1
  have hr := h.remaining
  have hsame : completions (calls ++ [Call.close (α := α)]) = completions calls := by
    simp [completions, Call.isCompletion]
  have hvalue : contributed value (calls ++ [.close]) = contributed value calls := by
    simp [contributed]
  have hnone : j.remaining ≤ 0 ↔ k = 0 := by
    rw [Int64.le_iff_toInt_le, hr, Int64.toInt_zero]
    omega
  by_cases hle : j.remaining ≤ 0
  · refine .inl ⟨hconcat.trans (decide_eq_true (hnone.mp hle)), ?_, ?_, ?_⟩
    · simp [Join.close, deliver, h.value, h.waiting, hle, outcome, hvalue]
    · constructor <;> simp [Join.close, deliver, h.waiting, hle]
    · simpa [Join.close, deliver, h.waiting, hle, hsame] using hr
  · refine .inr ⟨by simp [Join.close, hle], ?_, ?_, ?_, ?_⟩
    · simpa [Join.close, hle, hsame] using hr
    · simpa [Join.close, hle, hvalue] using h.value
    · simpa [Join.close, hle] using h.waiting
    · exact hconcat.trans (decide_eq_false fun hk0 => hle (hnone.mpr hk0))

theorem Waiting.call (hk : k < 2 ^ 63) (h : Waiting k value calls j) (c : Call α) :
    Advances k value calls c (j.call c) := by
  cases c with
  | complete contribute => exact h.complete hk contribute
  | fail f => exact h.fail f
  | close => exact h.close

end

theorem after_expecting (k : UInt64) (hk : k.toNat < 2 ^ 63) (value : α) (calls : List (Call α)) :
    Waiting k.toNat value calls ((expecting k value).after calls) ∨
      (settled k.toNat calls = true ∧ Spent ((expecting k value).after calls)) := by
  induction calls using List.reverseRecOn with
  | nil => exact .inl (waiting_expecting k hk value)
  | append_singleton calls c ih =>
      rw [after_concat]
      rcases ih with hwait | ⟨hsettled, hspent⟩
      · rcases hwait.call hk c with ⟨hs, _, hspent, _⟩ | ⟨_, hnext⟩
        · exact .inr ⟨hs, hspent⟩
        · exact .inl hnext
      · rw [hspent.call c]
        exact .inr ⟨settled_append_left [c] hsettled, hspent⟩

-- The call that settles a join hands over what it should, all others nothing.
theorem call_answer (k : UInt64) (hk : k.toNat < 2 ^ 63) (value : α) (before : List (Call α))
    (c : Call α) :
    (((expecting k value).after before).call c).1 =
      if settles k.toNat before c then some (outcome value before c) else none := by
  rcases after_expecting k hk value before with hwait | ⟨hsettled, hspent⟩
  · rcases hwait.call hk c with ⟨hs, hanswer, _⟩ | ⟨hanswer, hnext⟩
    · simp [settles, hs, hwait.unsettled, hanswer]
    · simp [settles, hnext.unsettled, hanswer]
  · simp [settles, hsettled, hspent.call c]

-- It also fixes what is left to be counted, and nothing changes the join after it.
theorem settles_final (k : UInt64) (hk : k.toNat < 2 ^ 63) (value : α) {before : List (Call α)}
    {c : Call α} (h : settles k.toNat before c = true) (rest : List (Call α)) :
    let j := (expecting k value).after (before ++ [c])
    j.remaining.toInt = k.toNat - completions (before ++ [c]) ∧
      (expecting k value).after (before ++ c :: rest) = j := by
  intro j
  simp only [settles, Bool.and_eq_true, Bool.not_eq_true'] at h
  have hwait : Waiting k.toNat value before ((expecting k value).after before) := by
    rcases after_expecting k hk value before with hwait | ⟨hsettled, _⟩
    · exact hwait
    · simp [hsettled] at h
  have hj : j = (((expecting k value).after before).call c).2 := after_concat _ _ _
  rcases hwait.call hk c with ⟨_, _, hspent, hremaining⟩ | ⟨_, hnext⟩
  · rw [← hj] at hspent hremaining
    refine ⟨hremaining, ?_⟩
    rw [List.append_cons, after_append]
    exact hspent.after rest
  · simp [hnext.unsettled] at h

theorem answers_append (j : Join α) (calls more : List (Call α)) :
    j.answers (calls ++ more) = j.answers calls ++ (j.after calls).answers more := by
  induction calls generalizing j with
  | nil => rfl
  | cons c rest ih => simp only [List.cons_append, answers, ih]; rfl

theorem countP_answers (k : UInt64) (hk : k.toNat < 2 ^ 63) (value : α) (calls : List (Call α)) :
    ((expecting k value).answers calls).countP Option.isSome =
      if settled k.toNat calls then 1 else 0 := by
  induction calls using List.reverseRecOn with
  | nil => rw [(waiting_expecting k hk value).unsettled]; rfl
  | append_singleton calls c ih =>
      rw [answers_append, List.countP_append, ih]
      simp only [answers, call_answer k hk, settles]
      by_cases hbefore : settled k.toNat calls = true
      · simp [hbefore, settled_append_left [c] hbefore]
      · by_cases hnow : settled k.toNat (calls ++ [c]) = true <;> simp [hbefore, hnow]

theorem findSome?_answers (k : UInt64) (hk : k.toNat < 2 ^ 63) (value : α) {before : List (Call α)}
    {c : Call α} (h : settles k.toNat before c = true) (rest : List (Call α)) :
    ((expecting k value).answers (before ++ c :: rest)).findSome? id =
      some (outcome value before c) := by
  have hopen : settled k.toNat before = false := by
    simp only [settles, Bool.and_eq_true, Bool.not_eq_true'] at h
    exact h.2
  have hnone : ((expecting k value).answers before).findSome? id = none := by
    have hcount := countP_answers k hk value before
    rw [hopen, if_neg (by decide), List.countP_eq_zero] at hcount
    rw [List.findSome?_eq_none_iff]
    intro a ha
    simpa using hcount a ha
  rw [answers_append, List.findSome?_append, hnone, Option.none_or]
  simp [answers, call_answer k hk, h]

theorem completions_eq_length {calls : List (Call α)} (hfail : calls.any Call.isFailure = false)
    (hclose : ∀ c ∈ calls, c.isClosing = false) : completions calls = calls.length := by
  rw [completions, List.countP_eq_length]
  intro c hc
  have hf := List.any_eq_false.mp hfail c hc
  have hcl := hclose c hc
  cases c with
  | complete contribute => rfl
  | fail f => exact absurd rfl hf
  | close => cases hcl

-- Once a join is closed, as many contributions and failures as it expects settle it.
theorem settled_close_cons {calls : List (Call α)} (hclose : ∀ c ∈ calls, c.isClosing = false) :
    settled calls.length (.close :: calls) = true := by
  by_cases hfail : calls.any Call.isFailure = true
  · simp [settled, hfail]
  · have hfail : calls.any Call.isFailure = false := by simpa using hfail
    have hcount : completions (.close :: calls) = calls.length := by
      rw [← completions_eq_length hfail hclose]
      rfl
    by_cases hzero : calls.length = 0
    · simp [settled, hzero, Call.isClosing]
    · have : max calls.length 1 ≤ calls.length := by omega
      simp [settled, hcount, this]

theorem findSome?_fault?_eq_none {calls : List (Call α)} (h : calls.any Call.isFailure = false) :
    calls.findSome? Call.fault? = none := by
  rw [List.findSome?_eq_none_iff]
  intro c hc
  have := List.any_eq_false.mp h c hc
  cases c with
  | fail f => exact absurd rfl this
  | _ => rfl

theorem toNat_ofNat_length {calls : List (Call α)} (h : calls.length < 2 ^ 63) :
    (UInt64.ofNat calls.length).toNat = calls.length := by
  rw [UInt64.toNat_ofNat']
  omega

theorem countP_answers_close {calls : List (Call α)} (hlen : calls.length < 2 ^ 63)
    (hclose : ∀ c ∈ calls, c.isClosing = false) (value : α) :
    ((expecting (UInt64.ofNat calls.length) value).answers (.close :: calls)).countP
      Option.isSome = 1 := by
  have hk := toNat_ofNat_length hlen
  rw [countP_answers _ (by omega), hk, settled_close_cons hclose]
  rfl

-- A join that is closed at the beginning and then gets as many contributions and failures as it
-- expects contributions hands over the first fault, or else the value with all of them.
theorem findSome?_answers_close {calls : List (Call α)} (hlen : calls.length < 2 ^ 63)
    (hclose : ∀ c ∈ calls, c.isClosing = false) (value : α) :
    ((expecting (UInt64.ofNat calls.length) value).answers (.close :: calls)).findSome? id =
      some (match calls.findSome? Call.fault? with
        | some e => .error e
        | none => .ok (contributed value calls)) := by
  have hk := toNat_ofNat_length hlen
  obtain ⟨before, c, rest, heq, hsettles⟩ := exists_settles (settled_close_cons hclose)
  rw [heq, findSome?_answers _ (by omega) value (by rwa [hk])]
  simp only [settles, Bool.and_eq_true, Bool.not_eq_true'] at hsettles
  obtain ⟨hnow, hopen⟩ := hsettles
  rw [settled_concat hopen c] at hnow
  congr 1
  cases before with
  | nil =>
      -- the closing call itself settles the join, which then expects nothing
      obtain ⟨rfl, rfl⟩ := List.cons.inj heq
      have hnone : calls = [] := List.length_eq_zero_iff.mp (of_decide_eq_true hnow)
      rw [hnone]
      rfl
  | cons first before =>
      obtain ⟨rfl, hcalls⟩ := List.cons.inj (heq.trans (List.cons_append ..))
      have hbefore : before.any Call.isFailure = false := by
        simpa [Call.isFailure] using (settled_eq_false_iff.mp hopen).1
      have hclosed : ∀ c ∈ before, c.isClosing = false :=
        fun c hc => hclose c (by simp [hcalls, hc])
      cases c with
      | fail f =>
          rw [hcalls, List.findSome?_append, findSome?_fault?_eq_none hbefore]
          rfl
      | close => cases hclose .close (by simp [hcalls])
      | complete contribute =>
          -- only contributions came before, so this one is the last call of all
          have hcount : completions (.close :: before) = before.length :=
            (completions_eq_length hbefore hclosed)
          have hlength := congrArg List.length hcalls
          simp only [List.length_append, List.length_cons] at hlength
          have hlast := of_decide_eq_true hnow
          have hrest : rest = [] := List.length_eq_zero_iff.mp (by omega)
          rw [hcalls, hrest, List.findSome?_append, findSome?_fault?_eq_none hbefore]
          rfl

-- Whatever is done to a join of `k` contributions and in whatever order, the value is handed over
-- at the first call that settles it, and at no other. That call hands over the fault that it
-- brings, or else the value with all contributions so far, each made once and in order; from then
-- on the join stays as it is.
theorem hands_over_once (k : UInt64) (hk : k.toNat < 2 ^ 63) (value : α) (calls : List (Call α)) :
    let j := expecting k value
    (∀ before c rest, calls = before ++ c :: rest →
      ((j.after before).call c).1 =
          (if settles k.toNat before c then some (outcome value before c) else none) ∧
        (∀ f, ((j.after before).call c).1 = some (.error f) → c = .fail f) ∧
        (settles k.toNat before c = true →
          (j.after calls).remaining.toInt = k.toNat - completions (before ++ [c]) ∧
            j.after calls = j.after (before ++ [c]))) ∧
    (settled k.toNat calls = true →
      ∃ before c rest, calls = before ++ c :: rest ∧ settles k.toNat before c = true) ∧
    (settled k.toNat calls = false →
      (j.after calls).remaining.toInt = k.toNat - completions calls) ∧
    (j.after calls).isDelivered = settled k.toNat calls ∧
    (j.answers calls).countP Option.isSome = if settled k.toNat calls then 1 else 0 := by
  intro j
  refine ⟨?_, exists_settles, ?_, ?_, countP_answers k hk value calls⟩
  · rintro before c rest rfl
    have hanswer := call_answer k hk value before c
    refine ⟨hanswer, ?_, ?_⟩
    · intro f herror
      rw [hanswer] at herror
      split at herror
      · cases c <;> simp_all [outcome]
      · cases herror
    · intro hsettles
      obtain ⟨hremaining, hsame⟩ := settles_final k hk value hsettles rest
      exact ⟨hsame ▸ hremaining, hsame⟩
  · intro hopen
    rcases after_expecting k hk value calls with hwait | ⟨hsettled, _⟩
    · exact hwait.remaining
    · simp [hopen] at hsettled
  · rcases after_expecting k hk value calls with hwait | ⟨hsettled, hspent⟩
    · simp [isDelivered, j, hwait.waiting, hwait.unsettled]
    · simp [isDelivered, j, hspent.waiting, hsettled]

-- A join of two: closing it in between does nothing, the second completion hands the value over,
-- and a failure and a completion come too late.
theorem hands_over_once_two :
    ((expecting 2 []).answers [.complete (1 :: ·), .close, .complete (2 :: ·),
      .fail .noActiveJobs, .complete (3 :: ·)]).countP Option.isSome = 1 ∧
    (((expecting 2 []).after [.complete (1 :: ·), .close]).call (.complete (2 :: ·))).1 =
      some (.ok [2, 1]) := by
  have h := hands_over_once 2 (by decide) ([] : List Nat)
    [.complete (1 :: ·), .close, .complete (2 :: ·), .fail .noActiveJobs, .complete (3 :: ·)]
  refine ⟨h.2.2.2.2, ?_⟩
  exact (h.1 [.complete (1 :: ·), .close] (.complete (2 :: ·)) _ rfl).1

end MetricRelay.Join
