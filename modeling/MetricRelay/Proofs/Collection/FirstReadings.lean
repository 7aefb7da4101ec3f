import MetricRelay.Proofs.Collection.Halves

namespace MetricRelay

namespace Probe

variable {α β : Type}

-- Whether all values that readings in a row can give have a property.
def Gives (p : Probe α) (P : α → Prop) : Prop :=
  ∀ s a, (p s).1 = .value a → P a

theorem Gives.pure {a : α} {P : α → Prop} (h : P a) : (Pure.pure a : Probe α).Gives P := by
  intro s b hb
  cases hb
  exact h

theorem Gives.bind {p : Probe α} {next : α → Probe β} {P : α → Prop} {Q : β → Prop}
    (h : p.Gives P) (hnext : ∀ a, P a → (next a).Gives Q) : (p >>= next).Gives Q := by
  intro s b hb
  change (andThen p next s).1 = .value b at hb
  unfold andThen at hb
  split at hb
  · rename_i a s' hp
    exact hnext a (h s a (by rw [hp])) s' b hb
  · cases hb
  · cases hb

theorem gives_true (p : Probe α) : p.Gives fun _ => True :=
  fun _ _ _ => trivial

end Probe

namespace Collection

open Probe

-- Exactly the rates have first readings.
theorem gives_first (k : Kind) : (first k).Gives fun f => f.isSome = k.isRate := by
  cases k with
  | cpu => exact (gives_true _).bind fun _ _ => (gives_true _).bind fun _ _ => .pure rfl
  | diskIo | network => exact (gives_true _).bind fun _ _ => .pure rfl
  | _ => exact .pure rfl

theorem gives_firstAll (ks : List Kind) :
    (firstAll ks).Gives fun fs => fs.isEmpty = !ks.any Kind.isRate := by
  induction ks with
  | nil => exact .pure rfl
  | cons k rest ih =>
      refine (gives_first k).bind fun f hf => ih.bind fun fs hfs => .pure ?_
      cases f with
      | none => simpa [← hf] using hfs
      | some first => simp [← hf]

theorem gives_start (node : String) (timestamp : Timestamp) (kinds : List Kind)
    (ports : List UInt16) :
    (start node timestamp kinds ports).Gives fun p => p.firsts.isEmpty = !kinds.any Kind.isRate := by
  have hany : (Kind.requested kinds).any Kind.isRate = kinds.any Kind.isRate := by
    rw [Bool.eq_iff_iff]
    simp [Kind.mem_requested]
  refine (gives_true _).bind fun s _ => (gives_firstAll _).bind fun fs hfs => .pure ?_
  rw [hfs, hany]

end Collection

end MetricRelay
