namespace MetricRelay

-- A document, as any of the text formats gives it: scalars, lists and tables. A table keeps the
-- order of its entries and entries of equal names. `unreadable` stands for a scalar that is well
-- formed but has no value here, such as a number out of range.
inductive Tree where
  | null
  | flag (b : Bool)
  | integer (n : Int)
  | real (x : Float)
  | text (s : String)
  | unreadable
  | list (items : List Tree)
  | table (entries : List (String × Tree))

namespace Tree

-- How formats differ in what they let pass for a record or a variant.
structure Dialect where
  -- a list may stand for a record even if it has more items than the record has fields
  surplusItems : Bool
  -- the value under the name of a variant without content
  emptyContent : Tree → Bool

-- The value of a field that may be absent.
abbrev Field := Option Tree

-- What a record holds for each of the names: by name if it is written as a table, by place if
-- it is written as a list. Two entries for one name are refused; other names are passed over.
def fields? (d : Dialect) (names : List String) : Tree → Option (List Field)
  | .table entries =>
    names.mapM fun n =>
      match entries.filter fun e => e.1 == n with
      | [] => some none
      | [e] => some (some e.2)
      | _ => none
  | .list items =>
    if !d.surplusItems && names.length < items.length then none
    else some (names.zipIdx.map fun p => items[p.2]?)
  | _ => none

-- A field that falls back on a value when it is absent.
def withDefault {α : Type} (read : Tree → Option α) (fallback : α) : Field → Option α
  | none => some fallback
  | some t => read t

-- A field that has to be there.
def required {α : Type} (read : Tree → Option α) : Field → Option α
  | none => none
  | some t => read t

-- A field that may be absent or null.
def optional {α : Type} (read : Tree → Option α) : Field → Option (Option α)
  | none | some .null => some none
  | some t => (read t).map some

def flag? : Tree → Option Bool
  | .flag b => some b
  | _ => none

def text? : Tree → Option String
  | .text s => some s
  | _ => none

-- An integer of the closed range.
def between? (low high : Int) : Tree → Option Int
  | .integer n => if low ≤ n ∧ n ≤ high then some n else none
  | _ => none

def uint16? (t : Tree) : Option UInt16 :=
  (t.between? 0 65535).map fun n => UInt16.ofNat n.toNat

def uint32? (t : Tree) : Option UInt32 :=
  (t.between? 0 4294967295).map fun n => UInt32.ofNat n.toNat

def uint64? (t : Tree) : Option UInt64 :=
  (t.between? 0 18446744073709551615).map fun n => UInt64.ofNat n.toNat

def int32? (t : Tree) : Option Int32 :=
  (t.between? (-2147483648) 2147483647).map Int32.ofInt

def int64? (t : Tree) : Option Int64 :=
  (t.between? (-9223372036854775808) 9223372036854775807).map Int64.ofInt

-- A double; an integer counts as one, rounded to the nearest.
def real? : Tree → Option Float
  | .real x => some x
  | .integer n => some (Float.ofInt n)
  | _ => none

def listOf? {α : Type} (read : Tree → Option α) : Tree → Option (List α)
  | .list items => items.mapM read
  | _ => none

-- The name of a variant without content: a text, or a table with that one name.
def variant? (d : Dialect) : Tree → Option String
  | .text s => some s
  | .table [(s, content)] => if d.emptyContent content then some s else none
  | _ => none

-- The last value under a name of a table.
def get? (name : String) : Tree → Option Tree
  | .table entries => (entries.reverse.find? fun e => e.1 == name).map (·.2)
  | _ => none

def ofUInt16 (n : UInt16) : Tree := .integer n.toNat

def ofUInt32 (n : UInt32) : Tree := .integer n.toNat

def ofUInt64 (n : UInt64) : Tree := .integer n.toNat

def ofInt64 (n : Int64) : Tree := .integer n.toInt

-- A double as an entry of a document; what is not finite has no number there.
def ofReal (x : Float) : Tree :=
  if x.isFinite then .real x else .null

end Tree

end MetricRelay
