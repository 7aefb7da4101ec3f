import MetricRelay.Proofs.Tree.Records
import Mathlib.Data.List.Forall2

namespace MetricRelay.Tree

-- The values that a table has under a name.
def under (name : String) (entries : List (String × Tree)) : List Tree :=
  (entries.filter fun e => e.1 == name).map (·.2)

-- A part of a record: the name it goes by, the value that goes without saying, if there is one, and
-- in which ways its value may be restated.
structure Part where
  name : String
  silent : Option Tree
  restates : Tree → Tree → Prop

-- How the values under the name of a part may change. One that goes without saying may be left out.
inductive Part.Restated (p : Part) : List Tree → List Tree → Prop where
  | kept {t t' : Tree} (h : p.restates t t') : p.Restated [t] [t']
  | leftOut {t : Tree} (h : p.silent = some t) : p.Restated [t] []
  | missing : p.Restated [] []

-- Whether a document restates a record. Nobody asks for entries of other names than those of the
-- parts, nor for the order of the entries.
inductive RestatesRecord (parts : List Part) : Tree → Tree → Prop where
  | same (t : Tree) : RestatesRecord parts t t
  | table {entries entries' : List (String × Tree)}
      (h : ∀ p ∈ parts, p.Restated (under p.name entries) (under p.name entries')) :
      RestatesRecord parts (.table entries) (.table entries')

-- Whether a document restates a list, item by item.
inductive RestatesList (restates : Tree → Tree → Prop) : Tree → Tree → Prop where
  | same (t : Tree) : RestatesList restates t t
  | items {items items' : List Tree} (h : List.Forall₂ restates items items') :
      RestatesList restates (.list items) (.list items')

namespace Part

-- A part that is given as it is, if it is given.
def plain (name : String) (silent : Option Tree) : Part :=
  ⟨name, silent, Eq⟩

-- A part that is a record of its own.
def record (name : String) (silent : Option Tree) (parts : List Part) : Part :=
  ⟨name, silent, RestatesRecord parts⟩

-- A part that is a list of records. Where it is empty it goes without saying.
def records (name : String) (parts : List Part) : Part :=
  ⟨name, some (.list []), RestatesList (RestatesRecord parts)⟩

@[simp] theorem plain_name (name : String) (silent : Option Tree) :
    (plain name silent).name = name :=
  rfl

@[simp] theorem record_name (name : String) (silent : Option Tree) (parts : List Part) :
    (record name silent parts).name = name :=
  rfl

@[simp] theorem records_name (name : String) (parts : List Part) :
    (records name parts).name = name :=
  rfl

-- Whether a way to read the field of a part takes no notice of a restatement.
def Unmoved {α : Type} (p : Part) (read : Field → Option α) : Prop :=
  ∀ {ts ts' : List Tree}, p.Restated ts ts' → read ts'.head? = read ts.head?

end Part

section Fields

variable {α : Type} {read : Tree → Option α} {name : String} {parts : List Part}

theorem unmoved_withDefault {p : Part} {a : α}
    (hrestates : ∀ t t', p.restates t t' → read t' = read t)
    (hsilent : ∀ t, p.silent = some t → read t = some a) : p.Unmoved (withDefault read a) := by
  intro ts ts' h
  cases h with
  | kept h => exact hrestates _ _ h
  | leftOut h => exact (hsilent _ h).symm
  | missing => rfl

theorem unmoved_plain {t : Tree} {a : α} (h : read t = some a) :
    (Part.plain name (some t)).Unmoved (withDefault read a) := by
  refine unmoved_withDefault (fun t t' hsame => ?_) fun t' hsilent => ?_
  · cases hsame
    rfl
  · cases hsilent
    exact h

theorem unmoved_record {t : Tree} {a : α} (h : read t = some a)
    (hread : ∀ t t', RestatesRecord parts t t' → read t' = read t) :
    (Part.record name (some t) parts).Unmoved (withDefault read a) := by
  refine unmoved_withDefault hread fun t' hsilent => ?_
  cases hsilent
  exact h

theorem listOf?_restated {restates : Tree → Tree → Prop}
    (hrestates : ∀ t t', restates t t' → read t' = read t) {t t' : Tree}
    (h : RestatesList restates t t') : listOf? read t' = listOf? read t := by
  cases h with
  | same => rfl
  | items h =>
      rw [listOf?, listOf?]
      induction h with
      | nil => rfl
      | cons hfirst _ ih => rw [List.mapM_cons, List.mapM_cons, hrestates _ _ hfirst, ih]

theorem listOf?_nil (read : Tree → Option α) : listOf? read (.list []) = some [] :=
  rfl

theorem unmoved_records (hread : ∀ t t', RestatesRecord parts t t' → read t' = read t) :
    (Part.records name parts).Unmoved (withDefault (listOf? read) []) := by
  refine unmoved_withDefault (fun t t' => listOf?_restated hread) fun t' hsilent => ?_
  cases hsilent
  exact listOf?_nil read

theorem unmoved_required : (Part.plain name none).Unmoved (required read) := by
  intro ts ts' h
  cases h with
  | kept hsame =>
      cases hsame
      rfl
  | leftOut hsilent => cases hsilent
  | missing => rfl

theorem optional_some {t : Tree} (h : t ≠ .null) :
    optional read (some t) = (read t).map some := by
  cases t with
  | null => exact absurd rfl h
  | _ => rfl

-- A record that is restated is no null, so it is not taken for one that is absent.
theorem unmoved_optional (hread : ∀ t t', RestatesRecord parts t t' → read t' = read t) :
    (Part.record name none parts).Unmoved (optional read) := by
  intro ts ts' h
  cases h with
  | kept h =>
      have hsame := hread _ _ h
      cases h with
      | same => rfl
      | table =>
          rw [List.head?_cons, List.head?_cons, optional_some Tree.noConfusion,
            optional_some Tree.noConfusion, hsame]
  | leftOut hsilent => cases hsilent
  | missing => rfl

end Fields

theorem Part.Restated.length_le {p : Part} {ts ts' : List Tree} (h : p.Restated ts ts') :
    ts.length ≤ 1 ∧ ts'.length ≤ 1 := by
  cases h <;> simp

-- A record whose names occur once at most is read by what stands under them.
theorem fields?_under (d : Dialect) {names : List String} {entries : List (String × Tree)}
    (h : ∀ name ∈ names, (under name entries).length ≤ 1) :
    fields? d names (.table entries) = some (names.map fun name => (under name entries).head?) := by
  have hall : fields? d (names.map id) (.table entries) =
      some (names.map fun name => (under name entries).head?) := by
    refine mapM_map fun name hname => ?_
    have hlength := h name hname
    unfold under at *
    rw [id_eq]
    generalize entries.filter (fun e => e.1 == name) = es at hlength
    cases es with
    | nil => rfl
    | cons e more =>
        cases more with
        | nil => rfl
        | cons => simp at hlength
  rwa [List.map_id] at hall

-- A record is read the same from every document that restates it if its fields are.
theorem read_restated {α : Type} {d : Dialect} {read : Tree → Option α} {parts : List Part}
    {make : List Field → Option α}
    (hread : ∀ t, read t = (fields? d (parts.map Part.name) t).bind make)
    (hmake : ∀ before after : String → List Tree,
      (∀ p ∈ parts, p.Restated (before p.name) (after p.name)) →
      make ((parts.map Part.name).map fun name => (after name).head?) =
        make ((parts.map Part.name).map fun name => (before name).head?))
    {t t' : Tree} (h : RestatesRecord parts t t') : read t' = read t := by
  cases h with
  | same => rfl
  | @table entries entries' h =>
      have hlength : ∀ name ∈ parts.map Part.name,
          (under name entries).length ≤ 1 ∧ (under name entries').length ≤ 1 :=
        List.forall_mem_map.mpr fun p hp => (h p hp).length_le
      rw [hread, hread, fields?_under d fun name hname => (hlength name hname).1,
        fields?_under d fun name hname => (hlength name hname).2]
      exact hmake (under · entries) (under · entries') h

-- The same for a record of one part.
theorem read_restated_one {α β : Type} {d : Dialect} {read : Tree → Option α}
    {field : Tree → Option β} {name : String} {silent : Tree} {b : β}
    {make : List Field → Option α} (hread : ∀ t, read t = (fields? d [name] t).bind make)
    (hsilent : field silent = some b)
    (hmake : ∀ f f', withDefault field b f' = withDefault field b f → make [f'] = make [f])
    {t t' : Tree} (h : RestatesRecord [.plain name (some silent)] t t') : read t' = read t := by
  refine read_restated hread (fun before after hparts => ?_) h
  have hpart := hparts _ (List.mem_singleton_self _)
  exact hmake _ _ (unmoved_plain hsilent hpart)

end MetricRelay.Tree
