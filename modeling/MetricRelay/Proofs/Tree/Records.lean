import MetricRelay.Proofs.Json.RoundTrip

namespace MetricRelay

open MetricRelay.Tree Json

namespace Tree

-- A record as named values, some of which may be left out.
def filed (slots : List (String × Field)) : List (String × Tree) :=
  slots.filterMap fun s => s.2.map fun t => (s.1, t)

theorem mem_filed {slots : List (String × Field)} {e : String × Tree} :
    e ∈ filed slots ↔ (e.1, some e.2) ∈ slots := by
  simp only [filed, List.mem_filterMap, Option.map_eq_some_iff]
  constructor
  · rintro ⟨⟨name, field⟩, hslot, t, rfl, rfl⟩
    exact hslot
  · intro hslot
    exact ⟨_, hslot, e.2, rfl, rfl⟩

theorem filed_cons (s : String × Field) (slots : List (String × Field)) :
    filed (s :: slots) = (s.2.map fun t => (s.1, t)).toList ++ filed slots := by
  cases hfield : s.2 <;> simp [filed, hfield]

theorem filter_filed {slots : List (String × Field)} (hnodup : (slots.map (·.1)).Nodup)
    {s : String × Field} (hs : s ∈ slots) :
    (filed slots).filter (fun e => e.1 == s.1) = (s.2.map fun t => (s.1, t)).toList := by
  induction slots with
  | nil => cases hs
  | cons first slots ih =>
      obtain ⟨hfirst, hnodup⟩ := List.nodup_cons.mp hnodup
      rw [filed_cons, List.filter_append]
      rcases List.mem_cons.mp hs with rfl | hs
      · have hlater : (filed slots).filter (fun e => e.1 == s.1) = [] := by
          refine List.filter_eq_nil_iff.mpr fun e he hname => hfirst ?_
          exact List.mem_map.mpr ⟨_, mem_filed.mp he, beq_iff_eq.mp hname⟩
        rw [hlater, List.append_nil]
        cases s.2 <;> simp
      · have hother : first.1 ≠ s.1 := fun h => hfirst (List.mem_map.mpr ⟨s, hs, h.symm⟩)
        rw [ih hnodup hs]
        cases first.2 <;> simp [hother]

theorem mapM_map {α β γ : Type} {f : α → β} {g : β → Option γ} {k : α → γ} {as : List α}
    (h : ∀ a ∈ as, g (f a) = some (k a)) : (as.map f).mapM g = some (as.map k) := by
  induction as with
  | nil => rfl
  | cons a as ih =>
      obtain ⟨ha, has⟩ := List.forall_mem_cons.mp h
      rw [List.map_cons, List.mapM_cons, ha, ih has]
      rfl

-- A record with different names for its values gives each of them back under its name.
theorem fields?_filed (d : Dialect) (slots : List (String × Field))
    (hnodup : (slots.map (·.1)).Nodup) :
    fields? d (slots.map (·.1)) (.table (filed slots)) = some (slots.map (·.2)) := by
  refine mapM_map fun s hs => ?_
  rw [filter_filed hnodup hs]
  cases s.2 <;> rfl

-- A tree that stands for a value: text keeps it whole, it is told from an absent value, and it is
-- read as the value.
structure Holds {α : Type} (read : Tree → Option α) (t : Tree) (a : α) : Prop where
  readable : Readable t
  filled : t ≠ .null
  reads : read t = some a

theorem holds_text (s : String) : Holds text? (.text s) s :=
  ⟨.text s, Tree.noConfusion, rfl⟩

theorem holds_flag (b : Bool) : Holds flag? (.flag b) b :=
  ⟨.flag b, Tree.noConfusion, rfl⟩

theorem holds_uint16 (n : UInt16) : Holds uint16? (ofUInt16 n) n := by
  have hn := n.toNat_lt
  have hin : (0 : Int) ≤ n.toNat ∧ (n.toNat : Int) ≤ 65535 := by omega
  refine ⟨.integer (by omega) (by omega), Tree.noConfusion, ?_⟩
  simp [uint16?, ofUInt16, between?, hin.2]

theorem holds_uint32 (n : UInt32) : Holds uint32? (ofUInt32 n) n := by
  have hn := n.toNat_lt
  have hin : (0 : Int) ≤ n.toNat ∧ (n.toNat : Int) ≤ 4294967295 := by omega
  refine ⟨.integer (by omega) (by omega), Tree.noConfusion, ?_⟩
  simp [uint32?, ofUInt32, between?, hin.2]

theorem holds_uint64 (n : UInt64) : Holds uint64? (ofUInt64 n) n := by
  have hn := n.toNat_lt
  have hin : (0 : Int) ≤ n.toNat ∧ (n.toNat : Int) ≤ 18446744073709551615 := by omega
  refine ⟨.integer (by omega) (by omega), Tree.noConfusion, ?_⟩
  simp [uint64?, ofUInt64, between?, hin.2]

theorem holds_int64 (n : Int64) : Holds int64? (ofInt64 n) n := by
  have hlow := n.le_toInt
  have hhigh := n.toInt_lt
  refine ⟨.integer (by omega) (by omega), Tree.noConfusion, ?_⟩
  rw [int64?, ofInt64, between?, if_pos (by omega), Option.map_some, Int64.ofInt_toInt]

theorem holds_real {x : Float} (h : ReadsBack x) : Holds real? (ofReal x) x := by
  have hreal : ofReal x = .real x := if_pos h.1
  rw [hreal]
  exact ⟨.real h, Tree.noConfusion, rfl⟩

theorem Holds.required {α : Type} {read : Tree → Option α} {t : Tree} {a : α}
    (h : Holds read t a) : Tree.required read (some t) = some a :=
  h.reads

theorem Holds.withDefault {α : Type} {read : Tree → Option α} {t : Tree} {a fallback : α}
    (h : Holds read t a) : Tree.withDefault read fallback (some t) = some a :=
  h.reads

theorem Holds.optional {α : Type} {read : Tree → Option α} {write : α → Tree} {content : Option α}
    (h : ∀ a ∈ content, Holds read (write a) a) :
    Tree.optional read (content.map write) = some content := by
  cases content with
  | none => rfl
  | some a =>
      have ha := h a rfl
      rw [Option.map_some, Tree.optional, ha.reads]
      · rfl
      · exact fun hnull => ha.filled hnull

theorem Holds.readable_map {α : Type} {read : Tree → Option α} {write : α → Tree}
    {content : Option α} (h : ∀ a ∈ content, Holds read (write a) a) :
    ∀ t ∈ content.map write, Readable t := by
  intro t ht
  obtain ⟨a, ha, rfl⟩ := Option.map_eq_some_iff.mp ht
  exact (h a ha).readable

theorem Holds.list {α : Type} {read : Tree → Option α} {write : α → Tree} {as : List α}
    (h : ∀ a ∈ as, Holds read (write a) a) :
    Holds (listOf? read) (.list (as.map write)) as where
  readable := .list fun t ht => by
    obtain ⟨a, ha, rfl⟩ := List.mem_map.mp ht
    exact (h a ha).readable
  filled := Tree.noConfusion
  reads := by
    rw [listOf?, mapM_map (k := id) fun a ha => (h a ha).reads, List.map_id]

-- A record stands for a value if the parts that it has stand for theirs and those that it leaves
-- out are made up for.
theorem holds_filed {α : Type} {read : Tree → Option α} {d : Dialect} {a : α}
    {slots : List (String × Field)} {make : List Field → Option α}
    (hread : ∀ t, read t = (fields? d (slots.map (·.1)) t).bind make)
    (hnodup : (slots.map (·.1)).Nodup) (hreadable : ∀ s ∈ slots, ∀ t ∈ s.2, Readable t)
    (hmake : make (slots.map (·.2)) = some a) : Holds read (.table (filed slots)) a where
  readable := .table fun e he => hreadable _ (mem_filed.mp he) _ rfl
  filled := Tree.noConfusion
  reads := by
    rw [hread, fields?_filed d slots hnodup]
    exact hmake

-- A record that leaves nothing out.
theorem holds_record {α : Type} {read : Tree → Option α} {d : Dialect} {a : α}
    {entries : List (String × Tree)} {make : List Field → Option α}
    (hread : ∀ t, read t = (fields? d (entries.map (·.1)) t).bind make)
    (hnodup : (entries.map (·.1)).Nodup) (hreadable : ∀ e ∈ entries, Readable e.2)
    (hmake : make (entries.map fun e => some e.2) = some a) :
    Holds read (.table entries) a := by
  have hfiled : filed (entries.map fun e => (e.1, some e.2)) = entries := by
    rw [filed, List.filterMap_map]
    exact List.filterMap_some
  have hnames : (entries.map fun e => (e.1, some e.2)).map (·.1) = entries.map (·.1) := by
    simp
  rw [← hfiled]
  refine holds_filed (fun t => hnames ▸ hread t) (hnames ▸ hnodup) ?_ ?_
  · intro s hs t ht
    obtain ⟨e, he, rfl⟩ := List.mem_map.mp hs
    cases ht
    exact hreadable e he
  · rw [List.map_map]
    exact hmake

end Tree

end MetricRelay
