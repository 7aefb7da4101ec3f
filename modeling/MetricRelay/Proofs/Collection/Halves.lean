import MetricRelay.Proofs.Collection.JoinCalls
import MetricRelay.Proofs.Collection.Probing
import Mathlib.Data.List.Nodup
import Mathlib.Data.List.Perm.Subperm

namespace MetricRelay

namespace Kind

theorem mem_requested {kinds : List Kind} {k : Kind} : k ∈ requested kinds ↔ k ∈ kinds := by
  have hall : k ∈ all := by cases k <;> decide
  simp [requested, hall]

theorem nodup_requested (kinds : List Kind) : (requested kinds).Nodup :=
  List.Nodup.filter _ (by decide)

theorem length_le_of_nodup {ks : List Kind} (h : ks.Nodup) : ks.length ≤ 11 := by
  have hsub : ks ⊆ all := by
    intro k _
    cases k <;> decide
  exact (List.Nodup.subperm h hsub).length_le

end Kind

namespace Collection

open Probe

-- The readings of a kind leave alone what those of another one will give.
theorem stillFault_pastStill (ports : List UInt16) (s : Source) {k k' : Kind} (h : k ≠ k') :
    stillFault ports (s.pastStill k) k' = stillFault ports s k' := by
  revert h
  cases k <;> cases k' <;> intro h <;> first | rfl | exact absurd rfl h

theorem fillStill_pastStill (ports : List UInt16) (s : Source) (x : Snapshot) {k k' : Kind}
    (h : k ≠ k') : fillStill ports (s.pastStill k) x k' = fillStill ports s x k' := by
  revert h
  cases k <;> cases k' <;> intro h <;> first | rfl | exact absurd rfl h

theorem firstFault_pastFirst (s : Source) {k k' : Kind} (h : k ≠ k') :
    firstFault 0 (s.pastFirst k) k' = firstFault 0 s k' := by
  revert h
  cases k <;> cases k' <;> intro h <;> first | rfl | exact absurd rfl h

theorem firstAhead_pastFirst (s : Source) {k k' : Kind} (h : k ≠ k') :
    firstAhead 0 (s.pastFirst k) k' = firstAhead 0 s k' := by
  revert h
  cases k <;> cases k' <;> intro h <;> first | rfl | exact absurd rfl h

theorem secondFault_pastSecond (s : Source) {k k' : Kind} (h : k ≠ k') :
    secondFault (s.pastSecond k) k' = secondFault s k' := by
  revert h
  cases k <;> cases k' <;> intro h <;> first | rfl | exact absurd rfl h

theorem fillSecond_pastSecond (elapsed : Span) (s : Source) (x : Snapshot) {k : Kind} {f : First}
    (h : k ≠ f.kind) : fillSecond elapsed (s.pastSecond k) x f = fillSecond elapsed s x f := by
  revert h
  cases k <;> cases f <;> intro h <;> first | rfl | exact absurd rfl h

theorem findSome?_congr {α β : Type} {f g : α → Option β} {l : List α}
    (h : ∀ a ∈ l, f a = g a) : l.findSome? f = l.findSome? g := by
  rw [← List.head?_filterMap, ← List.head?_filterMap, List.filterMap_congr h]

private theorem findSome?_cons_or {α β : Type} (f : α → Option β) (a : α) (l : List α) :
    (a :: l).findSome? f = (f a).or (l.findSome? f) := by
  cases h : f a <;> simp [h]

-- The sections that one reading gives, or the first fault among their readings.
theorem reads_stillAll (ports : List UInt16) {ks : List Kind} (hks : ks.Nodup) {s : Source}
    (h : s.NeverPanics) (x : Snapshot) :
    Reads (stillAll ports ks x) s (ks.findSome? (stillFault ports s))
      (some (ks.foldl (fillStill ports s) x)) (ks.foldl Source.pastStill s) := by
  induction ks generalizing s x with
  | nil => exact .pure x
  | cons k rest ih =>
      obtain ⟨hk, hrest⟩ := List.nodup_cons.mp hks
      have hne : ∀ k' ∈ rest, k ≠ k' := fun k' hk' he => hk (he ▸ hk')
      have htail := ih hrest (h.pastStill k) (fillStill ports s x k)
      rw [findSome?_congr fun k' hk' => stillFault_pastStill ports s (hne k' hk'),
        List.foldl_ext _ _ _ fun y k' hk' => fillStill_pastStill ports s y (hne k' hk')] at htail
      rw [findSome?_cons_or]
      refine (reads_still h ports x k).bind fun y hy => ?_
      cases hy
      exact htail

-- The first readings of rates, or the first fault among them.
theorem reads_firstAll {ks : List Kind} (hks : ks.Nodup) {s : Source} (h : s.NeverPanics) :
    Reads (firstAll ks) s (ks.findSome? (firstFault 0 s)) (some (ks.filterMap (firstAhead 0 s)))
      (ks.foldl Source.pastFirst s) := by
  induction ks generalizing s with
  | nil => exact .pure []
  | cons k rest ih =>
      obtain ⟨hk, hrest⟩ := List.nodup_cons.mp hks
      have hne : ∀ k' ∈ rest, k ≠ k' := fun k' hk' he => hk (he ▸ hk')
      have htail := ih hrest (h.pastFirst k)
      rw [findSome?_congr fun k' hk' => firstFault_pastFirst s (hne k' hk'),
        List.filterMap_congr fun k' hk' => firstAhead_pastFirst s (hne k' hk')] at htail
      rw [findSome?_cons_or]
      refine (reads_first h k).bind fun f hf => ?_
      refine htail.map fun fs hfs => ?_
      cases hf
      cases hfs
      cases hahead : firstAhead 0 s k <;> simp [hahead]

-- What a second reading does to the join.
def callOf (elapsed : Span) (s : Source) (f : First) : Join.Call Snapshot :=
  match secondFault s f.kind with
  | some e => .fail e
  | none => .complete fun x => fillSecond elapsed s x f

-- What second readings that are taken in order do to the join, one after the other.
def calls (elapsed : Span) : List First → Source → List (Join.Call Snapshot)
  | [], _ => []
  | f :: fs, s =>
    match second elapsed f s with
    | (.value section_, s') => .complete section_ :: calls elapsed fs s'
    | (.fault e, s') => .fail e :: calls elapsed fs s'
    | (.panic _, s') => calls elapsed fs s'

theorem calls_eq {fs : List First} (hfs : (fs.map First.kind).Nodup) {s : Source}
    (h : s.NeverPanics) (elapsed : Span) : calls elapsed fs s = fs.map (callOf elapsed s) := by
  induction fs generalizing s with
  | nil => rfl
  | cons f rest ih =>
      obtain ⟨hf, hrest⟩ := List.nodup_cons.mp hfs
      have htail :
          rest.map (callOf elapsed (s.pastSecond f.kind)) = rest.map (callOf elapsed s) := by
        apply List.map_congr_left
        intro g hg
        have hne : f.kind ≠ g.kind := fun he => hf (he ▸ List.mem_map_of_mem hg)
        simp only [callOf, secondFault_pastSecond s hne, fillSecond_pastSecond elapsed s _ hne]
      have hih := ih hrest (h.pastSecond f.kind)
      rw [htail] at hih
      have hsecond := second_eq h elapsed f
      cases hfault : secondFault s f.kind with
      | some e =>
          rw [hfault] at hsecond
          simp only [calls, hsecond, hih, List.map_cons, callOf, hfault]
      | none =>
          rw [hfault] at hsecond
          simp only [calls, hsecond, hih, List.map_cons, callOf, hfault]

theorem contributions_eq (elapsed : Span) (fs : List First) (j : Join Snapshot) (s : Source) :
    (contributions elapsed fs j s).1 = (j.answers (calls elapsed fs s)).findSome? id := by
  induction fs generalizing j s with
  | nil => rfl
  | cons f rest ih =>
      rcases h : second elapsed f s with ⟨section_ | e | text, s'⟩ <;>
        simp only [contributions, calls, h, ih, Join.answers, findSome?_cons_or, Join.call, id,
          Option.none_or]

-- The second half gives what closing the join and the second readings hand over.
theorem finish?_eq (elapsed : Span) (p : Pending) (s : Source) :
    (finish? elapsed p s).1 =
      ((Join.expecting (UInt64.ofNat p.firsts.length) p.sofar).answers
        (.close :: calls elapsed p.firsts s)).findSome? id := by
  simp only [finish?, Join.answers, Join.call, findSome?_cons_or, id]
  split
  · rename_i d hd
    simp [hd]
  · rename_i hd
    rw [hd, Option.none_or]
    exact contributions_eq ..

theorem callOf_fault? (elapsed : Span) (s : Source) (f : First) :
    (callOf elapsed s f).fault? = secondFault s f.kind := by
  unfold callOf
  split <;> simp_all [Join.Call.fault?]

theorem isClosing_callOf (elapsed : Span) (s : Source) (fs : List First) :
    ∀ c ∈ fs.map (callOf elapsed s), c.isClosing = false := by
  intro c hc
  obtain ⟨f, _, rfl⟩ := List.mem_map.mp hc
  unfold callOf
  split <;> rfl

theorem contributed_calls {elapsed : Span} {s : Source} {fs : List First}
    (h : ∀ f ∈ fs, secondFault s f.kind = none) (x : Snapshot) :
    Join.contributed x (fs.map (callOf elapsed s)) = fs.foldl (fillSecond elapsed s) x := by
  induction fs generalizing x with
  | nil => rfl
  | cons f rest ih =>
      have hcall : callOf elapsed s f = .complete fun x => fillSecond elapsed s x f := by
        simp only [callOf, h f (by simp)]
      have := ih (fun g hg => h g (by simp [hg])) (fillSecond elapsed s x f)
      simpa [Join.contributed, hcall] using this

theorem finish?_calls {p : Pending} (hkinds : (p.firsts.map First.kind).Nodup) {s : Source}
    (h : s.NeverPanics) (elapsed : Span) :
    (finish? elapsed p s).1 = some (match p.firsts.findSome? fun f => secondFault s f.kind with
      | some e => .error e
      | none => .ok (p.firsts.foldl (fillSecond elapsed s) p.sofar)) := by
  have hlen := Kind.length_le_of_nodup hkinds
  rw [List.length_map] at hlen
  have hanswers := Join.findSome?_answers_close (by rw [List.length_map]; omega)
    (isClosing_callOf elapsed s p.firsts) p.sofar
  rw [List.length_map, List.findSome?_map] at hanswers
  rw [finish?_eq, calls_eq hkinds h, hanswers]
  have hfault : (Join.Call.fault? ∘ callOf elapsed s) = fun f => secondFault s f.kind := by
    funext f
    exact callOf_fault? elapsed s f
  rw [hfault]
  cases hnone : p.firsts.findSome? fun f => secondFault s f.kind with
  | some e => rfl
  | none => simp only [contributed_calls (List.findSome?_eq_none_iff.mp hnone)]

end Collection

end MetricRelay
