import Mathlib.Data.Prod.Lex
import Mathlib.Order.Bounds.Basic
import MetricRelay.Proofs.Settings.WebUrls

namespace MetricRelay

open Text

section First

variable {α β : Type}

-- What a function tells at the first argument at which it tells anything.
inductive First [LT α] (f : α → Option β) : Option β → Prop
  | none (h : ∀ a, f a = none) : First f none
  | some {a : α} {b : β} (h : f a = some b) (before : ∀ a' < a, f a' = none) : First f (some b)

namespace First

theorem eq_none_iff [LT α] {f : α → Option β} {r : Option β} (h : First f r) :
    r = .none ↔ ∀ a, f a = .none := by
  cases h with
  | none h => exact iff_of_true rfl h
  | some h before => exact iff_of_false nofun fun hnone => by simp [hnone] at h

theorem eq_some_iff [LinearOrder α] {f : α → Option β} {r : Option β} (h : First f r) {b : β} :
    r = .some b ↔ ∃ a, f a = .some b ∧ ∀ a' < a, f a' = .none := by
  constructor
  · rintro rfl
    cases h with
    | some h before => exact ⟨_, h, before⟩
  · rintro ⟨a, ha, hbefore⟩
    cases h with
    | none h => simp [h a] at ha
    | @some a' b' h before =>
        rcases lt_trichotomy a a' with hlt | rfl | hlt
        · simp [before a hlt] at ha
        · rw [← h, ha]
        · simp [hbefore a' hlt] at h

-- The number zero comes first, and then the others.
theorem of_succ {f : Nat → Option β} {r : Option β} (h : First (fun i => f (i + 1)) r) :
    First f ((f 0).or r) := by
  cases hzero : f 0 with
  | some b => exact .some hzero fun a ha => absurd ha (Nat.not_lt_zero a)
  | none =>
      cases h with
      | none h =>
          refine .none fun a => ?_
          cases a with
          | zero => exact hzero
          | succ a => exact h a
      | some h before =>
          refine .some h fun a ha => ?_
          cases a with
          | zero => exact hzero
          | succ a => exact before a (Nat.lt_of_succ_lt_succ ha)

theorem findSome? (f : α → Option β) (as : List α) :
    First (fun i : Nat => (as[i]?).bind f) (as.findSome? f) := by
  induction as with
  | nil => exact .none fun _ => rfl
  | cons a as ih =>
      have hor : (a :: as).findSome? f = (f a).or (as.findSome? f) := by
        rw [List.findSome?_cons]
        cases f a <;> rfl
      rw [hor]
      exact of_succ ih

end First

end First

namespace Settings

-- What validation looks at in an entry, in its order: first the entry itself, then its subscribers
-- one by one, and of each the URL before the credentials.
inductive Spot where
  | interval
  | count
  | ports
  | url (subscriber : Nat)
  | auth (subscriber : Nat)

namespace Spot

def rank : Spot → ℕ ×ₗ ℕ ×ₗ ℕ
  | interval => toLex (0, toLex (0, 0))
  | count => toLex (1, toLex (0, 0))
  | ports => toLex (2, toLex (0, 0))
  | url subscriber => toLex (3, toLex (subscriber, 0))
  | auth subscriber => toLex (3, toLex (subscriber, 1))

theorem rank_injective : Function.Injective rank := by
  intro a b h
  cases a <;> cases b <;> simp_all [rank]

instance : LinearOrder Spot :=
  LinearOrder.lift' rank rank_injective

theorem lt_iff {a b : Spot} : a < b ↔ a.rank < b.rank :=
  Iff.rfl

theorem not_lt_interval (a : Spot) : ¬a < interval := by
  cases a <;> simp [lt_iff, rank, Prod.Lex.toLex_lt_toLex]

theorem lt_count {a : Spot} (h : a < count) : a = interval := by
  cases a <;> simp_all [lt_iff, rank, Prod.Lex.toLex_lt_toLex]

theorem lt_ports {a : Spot} (h : a < ports) : a = interval ∨ a = count := by
  cases a <;> simp_all [lt_iff, rank, Prod.Lex.toLex_lt_toLex]

theorem lt_url {a : Spot} {j : Nat} (h : a < url j) :
    a = interval ∨ a = count ∨ a = ports ∨ ∃ i < j, a = url i ∨ a = auth i := by
  cases a <;> simp_all [lt_iff, rank, Prod.Lex.toLex_lt_toLex]

theorem lt_auth {a : Spot} {j : Nat} (h : a < auth j) : a < url j ∨ a = url j := by
  cases a <;> simp_all [lt_iff, rank, Prod.Lex.toLex_lt_toLex]

end Spot

-- A place in a list of entries.
structure Place where
  entry : Nat
  spot : Spot

namespace Place

def rank (q : Place) : ℕ ×ₗ Spot :=
  toLex (q.entry, q.spot)

theorem rank_injective : Function.Injective rank := by
  rintro ⟨i, a⟩ ⟨j, b⟩ h
  simp_all [rank]

instance : LinearOrder Place :=
  LinearOrder.lift' rank rank_injective

theorem lt_iff {q q' : Place} :
    q < q' ↔ q.entry < q'.entry ∨ q.entry = q'.entry ∧ q.spot < q'.spot :=
  Prod.Lex.toLex_lt_toLex

end Place

-- What stands in a place. A problem with credentials is told by the URL that they are for.
inductive Stated where
  | interval (seconds : UInt64)
  | count (times : Int64)
  | ports (listed : List UInt16)
  | url (text : String)
  | auth (address : String) (auth : Option Credentials)

-- What is wrong with it in the entry with a given number.
def Stated.problem? (entry : Nat) : Stated → Option Problem
  | .interval seconds => if seconds = 0 then some (.noInterval entry) else none
  | .count times => if times = 0 ∨ times < -1 then some (.badCount entry times) else none
  | .ports listed => if 0 ∈ listed then some (.portZero entry) else none
  | .url text => if isWebUrl (trim text.toList) then none else some (.foreignUrl entry text)
  | .auth _ none => none
  | .auth address (some c) =>
    if c.enable = true ∧ c.username = "" then some (.noUsername entry address) else none

def statedAt? (e : Sentinel) : Spot → Option Stated
  | .interval => some (.interval e.interval)
  | .count => some (.count e.count)
  | .ports => some (.ports e.listenedPorts)
  | .url subscriber => (e.subscribers[subscriber]?).map fun s => .url s.url
  | .auth subscriber => (e.subscribers[subscriber]?).map fun s => .auth s.url s.auth

-- The entries as validation sees them. It never asks for whom or for what they are.
def stated? (es : List Sentinel) (q : Place) : Option Stated :=
  (es[q.entry]?).bind (statedAt? · q.spot)

def problemAt? (es : List Sentinel) (q : Place) : Option Problem :=
  (stated? es q).bind (Stated.problem? q.entry)

-- The problem of an entry at a place in it.
def spotProblem? (entry : Nat) (e : Sentinel) (spot : Spot) : Option Problem :=
  (statedAt? e spot).bind (Stated.problem? entry)

theorem subscriberProblem?_eq (entry : Nat) (s : Subscriber) :
    subscriberProblem? entry s =
      ((Stated.url s.url).problem? entry).or ((Stated.auth s.url s.auth).problem? entry) := by
  rw [subscriberProblem?, Subscriber.enabledAuth]
  cases hurl : isWebUrl (trim s.url.toList) with
  | false => simp [Stated.problem?, hurl]
  | true =>
      cases s.auth with
      | none => simp [Stated.problem?, hurl]
      | some c => cases hon : c.enable <;> simp [Stated.problem?, Option.filter, hurl, hon]

theorem subscriberProblem?_bind (entry : Nat) (e : Sentinel) (j : Nat) :
    (e.subscribers[j]?).bind (subscriberProblem? entry) =
      (spotProblem? entry e (.url j)).or (spotProblem? entry e (.auth j)) := by
  rw [spotProblem?, spotProblem?, statedAt?, statedAt?]
  cases e.subscribers[j]? with
  | none => rfl
  | some s => exact subscriberProblem?_eq entry s

theorem spotProblem?_interval (entry : Nat) (e : Sentinel) :
    spotProblem? entry e .interval = if e.interval = 0 then some (.noInterval entry) else none :=
  rfl

theorem spotProblem?_count (entry : Nat) (e : Sentinel) :
    spotProblem? entry e .count =
      if e.count = 0 ∨ e.count < -1 then some (.badCount entry e.count) else none :=
  rfl

theorem spotProblem?_ports (entry : Nat) (e : Sentinel) :
    spotProblem? entry e .ports =
      if e.listenedPorts.contains 0 then some (.portZero entry) else none := by
  simp [spotProblem?, statedAt?, Stated.problem?]

-- If nothing else is wrong with an entry, its subscribers have the first problem.
theorem first_subscriberProblem? {entry : Nat} {e : Sentinel}
    (hinterval : spotProblem? entry e .interval = none)
    (hcount : spotProblem? entry e .count = none) (hports : spotProblem? entry e .ports = none) :
    First (spotProblem? entry e) (e.subscribers.findSome? (subscriberProblem? entry)) := by
  have hsubscribers := First.findSome? (subscriberProblem? entry) e.subscribers
  simp only [subscriberProblem?_bind] at hsubscribers
  generalize e.subscribers.findSome? (subscriberProblem? entry) = found at hsubscribers ⊢
  cases hsubscribers with
  | none hnone =>
      simp only [Option.or_eq_none_iff] at hnone
      refine .none fun a => ?_
      cases a with
      | interval => exact hinterval
      | count => exact hcount
      | ports => exact hports
      | url j => exact (hnone j).1
      | auth j => exact (hnone j).2
  | @some j p hp hbefore =>
      simp only [Option.or_eq_none_iff] at hbefore
      have hurl : ∀ a < Spot.url j, spotProblem? entry e a = none := by
        intro a ha
        obtain rfl | rfl | rfl | ⟨i, hi, rfl | rfl⟩ := Spot.lt_url ha
        · exact hinterval
        · exact hcount
        · exact hports
        · exact (hbefore i hi).1
        · exact (hbefore i hi).2
      obtain hp | ⟨hnone, hp⟩ := Option.or_eq_some_iff.mp hp
      · exact .some hp hurl
      · refine .some hp fun a ha => ?_
        rcases Spot.lt_auth ha with ha | rfl
        · exact hurl a ha
        · exact hnone

-- What validation finds in an entry is the problem at the least place in it.
theorem first_entryProblem? (entry : Nat) (e : Sentinel) :
    First (spotProblem? entry e) (entryProblem? entry e) := by
  have hfirst := spotProblem?_interval entry e
  have hsecond := spotProblem?_count entry e
  have hthird := spotProblem?_ports entry e
  rw [entryProblem?]
  split
  · rename_i hinterval
    rw [if_pos hinterval] at hfirst
    exact .some hfirst fun a ha => absurd ha (Spot.not_lt_interval a)
  rename_i hinterval
  rw [if_neg hinterval] at hfirst
  split
  · rename_i hcount
    rw [if_pos hcount] at hsecond
    refine .some hsecond fun a ha => ?_
    rw [Spot.lt_count ha, hfirst]
  rename_i hcount
  rw [if_neg hcount] at hsecond
  split
  · rename_i hports
    rw [if_pos hports] at hthird
    refine .some hthird fun a ha => ?_
    rcases Spot.lt_ports ha with rfl | rfl
    · exact hfirst
    · exact hsecond
  · rename_i hports
    rw [if_neg hports] at hthird
    exact first_subscriberProblem? hfirst hsecond hthird

theorem first_entriesProblem? (first : Nat) (es : List Sentinel) :
    First (fun i : Nat => (es[i]?).bind (entryProblem? (first + i))) (entriesProblem? first es) := by
  induction es generalizing first with
  | nil => exact .none fun _ => rfl
  | cons e es ih =>
      have hrest : ∀ i, first + 1 + i = first + (i + 1) := fun i => by omega
      have hnext := ih (first + 1)
      simp only [hrest] at hnext
      exact First.of_succ hnext

theorem first_entry (es : List Sentinel) (i : Nat) :
    First (fun spot => problemAt? es ⟨i, spot⟩) ((es[i]?).bind (entryProblem? i)) := by
  simp only [problemAt?, stated?]
  cases es[i]? with
  | none => exact .none fun _ => rfl
  | some e => exact first_entryProblem? i e

-- What validation finds in a list of entries is the problem at the least place.
theorem first_problemAt? (es : List Sentinel) : First (problemAt? es) (entriesProblem? 0 es) := by
  have hentries := first_entriesProblem? 0 es
  simp only [Nat.zero_add] at hentries
  have hnone : ∀ {i : Nat}, (es[i]?).bind (entryProblem? i) = none →
      ∀ spot, problemAt? es ⟨i, spot⟩ = none := (first_entry es _).eq_none_iff.mp
  generalize entriesProblem? 0 es = found at hentries ⊢
  cases hentries with
  | none h => exact .none fun q => hnone (h q.entry) q.spot
  | @some i p h before =>
      obtain ⟨spot, hspot, hbefore⟩ := (first_entry es i).eq_some_iff.mp h
      refine .some hspot ?_
      rintro ⟨i', spot'⟩ hq
      obtain hlt | ⟨rfl, hlt⟩ := Place.lt_iff.mp hq
      · exact hnone (before i' hlt) spot'
      · exact hbefore spot' hlt

-- The places at which there is a problem.
def troubled (es : List Sentinel) : Set Place :=
  {q | (problemAt? es q).isSome}

theorem entriesProblem?_eq_some_iff {es : List Sentinel} {p : Problem} :
    entriesProblem? 0 es = some p ↔
      ∃ q, IsLeast (troubled es) q ∧ problemAt? es q = some p := by
  rw [(first_problemAt? es).eq_some_iff]
  refine exists_congr fun q => ?_
  constructor
  · rintro ⟨hp, hbefore⟩
    refine ⟨⟨by simp [troubled, hp], fun q' hq' => ?_⟩, hp⟩
    by_contra hlt
    simp [troubled, hbefore q' (lt_of_not_ge hlt)] at hq'
  · rintro ⟨⟨-, hleast⟩, hp⟩
    refine ⟨hp, fun q' hlt => ?_⟩
    by_contra hsome
    exact absurd (hleast (Option.isSome_iff_ne_none.mpr hsome)) (not_le_of_gt hlt)

theorem entriesProblem?_eq_none_iff {es : List Sentinel} :
    entriesProblem? 0 es = none ↔ troubled es = ∅ := by
  rw [(first_problemAt? es).eq_none_iff, Set.eq_empty_iff_forall_notMem]
  simp [troubled]

-- The problem with the number of its entry increased.
def Problem.moved (more : Nat) : Problem → Problem
  | blankName => blankName
  | noThreshold => noThreshold
  | noInterval entry => noInterval (more + entry)
  | badCount entry count => badCount (more + entry) count
  | portZero entry => portZero (more + entry)
  | foreignUrl entry url => foreignUrl (more + entry) url
  | noUsername entry url => noUsername (more + entry) url

theorem subscriberProblem?_add (more entry : Nat) (s : Subscriber) :
    subscriberProblem? (more + entry) s =
      (subscriberProblem? entry s).map (Problem.moved more) := by
  unfold subscriberProblem?
  split
  · rfl
  · split
    · split <;> rfl
    · rfl

theorem entryProblem?_add (more entry : Nat) (e : Sentinel) :
    entryProblem? (more + entry) e = (entryProblem? entry e).map (Problem.moved more) := by
  unfold entryProblem?
  split
  · rfl
  split
  · rfl
  split
  · rfl
  · rw [List.map_findSome?]
    exact congrArg (e.subscribers.findSome? ·) (funext (subscriberProblem?_add more entry))

theorem entriesProblem?_add (more first : Nat) (es : List Sentinel) :
    entriesProblem? (more + first) es = (entriesProblem? first es).map (Problem.moved more) := by
  induction es generalizing first with
  | nil => rfl
  | cons e es ih =>
      rw [entriesProblem?, entriesProblem?, entryProblem?_add, Nat.add_assoc, ih]
      cases entryProblem? first e <;> rfl

theorem entriesProblem?_append (first : Nat) (a b : List Sentinel) :
    entriesProblem? first (a ++ b) =
      (entriesProblem? first a).or (entriesProblem? (a.length + first) b) := by
  induction a generalizing first with
  | nil => simp [entriesProblem?]
  | cons e a ih =>
      have hlength : a.length + (first + 1) = (e :: a).length + first := by
        rw [List.length_cons]
        omega
      rw [List.cons_append, entriesProblem?, entriesProblem?, ih, hlength, Option.or_assoc]

theorem isSome_spotProblem?_url {entry : Nat} {e : Sentinel} {j : Nat} :
    (spotProblem? entry e (.url j)).isSome ↔
      ∃ sub, e.subscribers[j]? = some sub ∧ ¬isWebUrl (trim sub.url.toList) = true := by
  rw [spotProblem?, statedAt?]
  cases e.subscribers[j]? with
  | none => simp
  | some sub => simp [Stated.problem?]

theorem isSome_spotProblem?_auth {entry : Nat} {e : Sentinel} {j : Nat} :
    (spotProblem? entry e (.auth j)).isSome ↔ ∃ sub, e.subscribers[j]? = some sub ∧
      ∃ c, sub.auth = some c ∧ c.enable = true ∧ c.username = "" := by
  rw [spotProblem?, statedAt?]
  cases e.subscribers[j]? with
  | none => simp
  | some sub => cases hauth : sub.auth <;> simp [Stated.problem?, hauth]

-- What makes an entry unfit, wherever it stands.
theorem exists_spotProblem?_iff (entry : Nat) (e : Sentinel) :
    (∃ spot, (spotProblem? entry e spot).isSome) ↔
      e.interval = 0 ∨ e.count = 0 ∨ e.count < -1 ∨ 0 ∈ e.listenedPorts ∨
        ∃ sub ∈ e.subscribers, ¬isWebUrl (trim sub.url.toList) = true ∨
          ∃ c, sub.auth = some c ∧ c.enable = true ∧ c.username = "" := by
  constructor
  · rintro ⟨spot, hspot⟩
    cases spot with
    | interval =>
        left
        simpa [spotProblem?_interval] using hspot
    | count =>
        have hcount : e.count = 0 ∨ e.count < -1 := by simpa [spotProblem?_count] using hspot
        tauto
    | ports =>
        right; right; right; left
        simpa [spotProblem?_ports] using hspot
    | url j =>
        right; right; right; right
        obtain ⟨sub, hsub, hurl⟩ := isSome_spotProblem?_url.mp hspot
        exact ⟨sub, List.mem_of_getElem? hsub, .inl hurl⟩
    | auth j =>
        right; right; right; right
        obtain ⟨sub, hsub, hauth⟩ := isSome_spotProblem?_auth.mp hspot
        exact ⟨sub, List.mem_of_getElem? hsub, .inr hauth⟩
  · rintro (hinterval | hcount | hcount | hports | ⟨sub, hsub, hurl | hauth⟩)
    · exact ⟨.interval, by simp [spotProblem?_interval, hinterval]⟩
    · exact ⟨.count, by simp [spotProblem?_count, hcount]⟩
    · exact ⟨.count, by simp [spotProblem?_count, hcount]⟩
    · exact ⟨.ports, by simp [spotProblem?_ports, hports]⟩
    · obtain ⟨j, hj⟩ := List.mem_iff_getElem?.mp hsub
      exact ⟨.url j, isSome_spotProblem?_url.mpr ⟨sub, hj, hurl⟩⟩
    · obtain ⟨j, hj⟩ := List.mem_iff_getElem?.mp hsub
      exact ⟨.auth j, isSome_spotProblem?_auth.mpr ⟨sub, hj, hauth⟩⟩

theorem troubled_nonempty_iff {es : List Sentinel} :
    (troubled es).Nonempty ↔ ∃ e ∈ es,
      e.interval = 0 ∨ e.count = 0 ∨ e.count < -1 ∨ 0 ∈ e.listenedPorts ∨
        ∃ sub ∈ e.subscribers, ¬isWebUrl (trim sub.url.toList) = true ∨
          ∃ c, sub.auth = some c ∧ c.enable = true ∧ c.username = "" := by
  have hplace : ∀ (i : Nat) (spot : Spot) (e : Sentinel), es[i]? = some e →
      problemAt? es ⟨i, spot⟩ = spotProblem? i e spot := by
    intro i spot e he
    rw [problemAt?, stated?, he]
    rfl
  constructor
  · rintro ⟨⟨i, spot⟩, hq⟩
    rw [troubled, Set.mem_ofPred_eq] at hq
    cases he : es[i]? with
    | none => simp [problemAt?, stated?, he] at hq
    | some e =>
        rw [hplace i spot e he] at hq
        exact ⟨e, List.mem_of_getElem? he, (exists_spotProblem?_iff i e).mp ⟨spot, hq⟩⟩
  · rintro ⟨e, he, hunfit⟩
    obtain ⟨i, hi⟩ := List.mem_iff_getElem?.mp he
    obtain ⟨spot, hspot⟩ := (exists_spotProblem?_iff i e).mpr hunfit
    exact ⟨⟨i, spot⟩, by rwa [troubled, Set.mem_ofPred_eq, hplace i spot e hi]⟩

theorem problem?_of_named {s : Settings} (hname : trim s.name.toList ≠ [])
    (hthreshold : s.breaker.failureThreshold ≠ 0) :
    s.problem? = entriesProblem? 0 s.sentinel := by
  rw [problem?, if_neg hname, if_neg hthreshold]

theorem validate_eq_error_iff {s : Settings} {f : Fault} :
    s.validate = .error f ↔ ∃ p, s.problem? = some p ∧ f = .config p.message := by
  unfold validate
  cases s.problem? with
  | none => simp
  | some p => simp [eq_comm]

theorem validate_eq_ok_iff {s : Settings} : s.validate = .ok () ↔ s.problem? = none := by
  unfold validate
  cases s.problem? <;> simp

theorem validate_eq_error_iff_isLeast {s : Settings} (hname : trim s.name.toList ≠ [])
    (hthreshold : s.breaker.failureThreshold ≠ 0) {f : Fault} :
    s.validate = .error f ↔ ∃ q p, IsLeast (troubled s.sentinel) q ∧
      problemAt? s.sentinel q = some p ∧ f = .config p.message := by
  simp only [validate_eq_error_iff, problem?_of_named hname hthreshold,
    entriesProblem?_eq_some_iff]
  constructor
  · rintro ⟨p, ⟨q, hq, hp⟩, rfl⟩
    exact ⟨q, p, hq, hp, rfl⟩
  · rintro ⟨q, p, hq, hp, rfl⟩
    exact ⟨p, ⟨q, hq, hp⟩, rfl⟩

-- A least problem is the least one of all entries that say the same up to its place.
theorem isLeast_troubled_congr {es es' : List Sentinel} {q : Place}
    (hq : IsLeast (troubled es) q) (hsame : ∀ q' ≤ q, stated? es' q' = stated? es q') :
    IsLeast (troubled es') q ∧ problemAt? es' q = problemAt? es q := by
  have hproblem : ∀ q' ≤ q, problemAt? es' q' = problemAt? es q' := fun q' hq' => by
    rw [problemAt?, problemAt?, hsame q' hq']
  refine ⟨⟨?_, fun q' hq' => ?_⟩, hproblem q le_rfl⟩
  · rw [troubled, Set.mem_ofPred_eq, hproblem q le_rfl]
    exact hq.1
  · by_contra hlt
    rw [troubled, Set.mem_ofPred_eq, hproblem q' (le_of_not_ge hlt)] at hq'
    exact hlt (hq.2 hq')

def withEntries (s : Settings) (es : List Sentinel) : Settings :=
  { s with sentinel := es }

theorem problem?_append {s : Settings} (hname : trim s.name.toList ≠ [])
    (hthreshold : s.breaker.failureThreshold ≠ 0) (a b : List Sentinel) :
    (s.withEntries (a ++ b)).problem? = (s.withEntries a).problem?.or
      ((s.withEntries b).problem?.map (Problem.moved a.length)) := by
  have hentries : ∀ es, (s.withEntries es).problem? = entriesProblem? 0 es := fun es =>
    problem?_of_named (s := s.withEntries es) hname hthreshold
  rw [hentries, hentries, hentries, entriesProblem?_append, entriesProblem?_add]

-- Validation tells the problem at the least place, entry by entry. So problems of entries in front
-- hide those of entries behind, a problem of entries behind is told by its place in the whole list,
-- and nothing that stands behind the least problem has any influence.
theorem validate_least {s : Settings} (hname : trim s.name.toList ≠ [])
    (hthreshold : s.breaker.failureThreshold ≠ 0) :
    ((∃ f, s.validate = .error f) ↔ ∃ e ∈ s.sentinel,
      e.interval = 0 ∨ e.count = 0 ∨ e.count < -1 ∨ 0 ∈ e.listenedPorts ∨
        ∃ sub ∈ e.subscribers,
          ¬("http://".toList <+: trim sub.url.toList ∨
            "https://".toList <+: trim sub.url.toList) ∨
          ∃ c, sub.auth = some c ∧ c.enable = true ∧ c.username = "") ∧
    (∀ f, s.validate = .error f ↔ ∃ q p, IsLeast (troubled s.sentinel) q ∧
      problemAt? s.sentinel q = some p ∧ f = .config p.message) ∧
    (∀ a b : List Sentinel,
      (∀ f, (s.withEntries a).validate = .error f →
        (s.withEntries (a ++ b)).validate = .error f) ∧
      ((s.withEntries a).validate = .ok () →
        ((s.withEntries b).validate = .ok () → (s.withEntries (a ++ b)).validate = .ok ()) ∧
        ∀ q p, IsLeast (troubled b) q → problemAt? b q = some p →
          (s.withEntries b).validate = .error (.config p.message) ∧
          (s.withEntries (a ++ b)).validate = .error (.config (p.moved a.length).message))) ∧
    ∀ s' : Settings, trim s'.name.toList ≠ [] → s'.breaker.failureThreshold ≠ 0 →
      ∀ q, IsLeast (troubled s.sentinel) q →
        (∀ q' ≤ q, stated? s'.sentinel q' = stated? s.sentinel q') →
        s'.validate = s.validate := by
  have hleast : ∀ es f, (s.withEntries es).validate = .error f ↔ ∃ q p,
      IsLeast (troubled es) q ∧ problemAt? es q = some p ∧ f = .config p.message := fun es f =>
    validate_eq_error_iff_isLeast (s := s.withEntries es) hname hthreshold
  refine ⟨?_, hleast s.sentinel, fun a b => ⟨fun f hf => ?_, fun ha => ⟨fun hb => ?_, ?_⟩⟩, ?_⟩
  · have hfails : (∃ f, s.validate = .error f) ↔ (troubled s.sentinel).Nonempty := by
      rw [Set.nonempty_iff_ne_empty, ne_eq, ← entriesProblem?_eq_none_iff,
        ← problem?_of_named hname hthreshold, ← validate_eq_ok_iff]
      cases s.validate <;> simp
    rw [hfails, troubled_nonempty_iff]
    simp only [isWebUrl_iff]
  · obtain ⟨p, hp, rfl⟩ := validate_eq_error_iff.mp hf
    refine validate_eq_error_iff.mpr ⟨p, ?_, rfl⟩
    rw [problem?_append hname hthreshold, hp, Option.some_or]
  · rw [validate_eq_ok_iff] at ha hb ⊢
    rw [problem?_append hname hthreshold, ha, hb]
    rfl
  · intro q p hq hp
    have hb : (s.withEntries b).problem? = some p := by
      rw [problem?_of_named (s := s.withEntries b) hname hthreshold, entriesProblem?_eq_some_iff]
      exact ⟨q, hq, hp⟩
    rw [validate_eq_ok_iff] at ha
    refine ⟨validate_eq_error_iff.mpr ⟨p, hb, rfl⟩, validate_eq_error_iff.mpr ⟨_, ?_, rfl⟩⟩
    rw [problem?_append hname hthreshold, ha, hb]
    rfl
  · intro s' hname' hthreshold' q hq hsame
    obtain ⟨hq', hproblem⟩ := isLeast_troubled_congr hq hsame
    obtain ⟨p, hp⟩ := Option.isSome_iff_exists.mp hq.1
    have hs : s.validate = .error (.config p.message) :=
      (hleast s.sentinel _).mpr ⟨q, p, hq, hp, rfl⟩
    rw [hs, validate_eq_error_iff_isLeast hname' hthreshold']
    exact ⟨q, p, hq', hproblem.trans hp, rfl⟩

-- The first entry has nothing to do and nobody to send to, but may stand as it is. The second has
-- three problems, of which the count comes first, and so it stays when the others are gone.
theorem validate_least_count :
    let idle : Sentinel := ⟨[], [], -1, 1, []⟩
    let unfit : Sentinel := ⟨[.cpu], [⟨"ftp://north", .http, none⟩], -2, 1, [80, 0]⟩
    let better : Sentinel := ⟨[], [⟨"http://north", .http, none⟩], -2, 1, []⟩
    let s : Settings := { Settings.default with sentinel := [unfit] }
    let s' : Settings := { Settings.default with name := "south", sentinel := [better, idle] }
    s.validate = .error (.config "sentinel[0].count must be -1 or positive, got -2") ∧
      (s.withEntries [idle]).validate = .ok () ∧
      (s.withEntries ([idle] ++ [unfit])).validate =
        .error (.config "sentinel[1].count must be -1 or positive, got -2") ∧
      s'.validate = s.validate := by
  intro idle unfit better s s'
  have hname : trim s.name.toList ≠ [] := by decide
  have hname' : trim s'.name.toList ≠ [] := by decide
  have hthreshold : s.breaker.failureThreshold ≠ 0 := by decide
  have hproblem : problemAt? [unfit] ⟨0, .count⟩ = some (.badCount 0 (-2)) := by decide
  have hbefore : ∀ q < (⟨0, .count⟩ : Place), q = ⟨0, .interval⟩ := by
    rintro ⟨i, spot⟩ hq
    obtain hlt | ⟨rfl, hlt⟩ := Place.lt_iff.mp hq
    · exact absurd hlt (Nat.not_lt_zero i)
    · exact congrArg (Place.mk 0) (Spot.lt_count hlt)
  have hinterval : problemAt? [unfit] ⟨0, .interval⟩ = none := by decide
  have hleast : IsLeast (troubled [unfit]) ⟨0, .count⟩ := by
    refine ⟨by simp [troubled, hproblem], fun q hq => ?_⟩
    by_contra hlt
    rw [hbefore q (lt_of_not_ge hlt), troubled, Set.mem_ofPred_eq, hinterval] at hq
    cases hq
  obtain ⟨-, herror, happend, hlater⟩ := validate_least hname hthreshold
  have hidle : (s.withEntries [idle]).validate = .ok () := by decide
  refine ⟨(herror _).mpr ⟨_, _, hleast, hproblem, ?_⟩, hidle,
    (((happend [idle] [unfit]).2 hidle).2 _ _ hleast hproblem).2.trans ?_,
    hlater s' hname' hthreshold _ hleast fun q hq => ?_⟩
  · decide
  · decide
  · rcases hq.lt_or_eq with hlt | rfl
    · rw [hbefore q hlt]
      rfl
    · rfl

end Settings

end MetricRelay
