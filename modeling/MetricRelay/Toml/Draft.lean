import MetricRelay.Tree

namespace MetricRelay.Toml

-- How a table of a document came about: under a header of its own, on the way to another header,
-- or by a name with dots.
inductive Origin where
  | header
  | passed
  | dotted
deriving DecidableEq

-- What stands under a name while a document is being read. A list of tables is not empty, and
-- its last table is the one that grows.
inductive Item where
  | value (t : Tree)
  | table (origin : Origin) (entries : List (String × Item))
  | tables (items : List (List (String × Item)))

abbrev Entries := List (String × Item)

namespace Entries

def find? (name : String) (es : Entries) : Option Item :=
  (List.find? (fun e => e.1 == name) es).map (·.2)

-- Puts an item under a name, in the place of the one that stands there.
def put (name : String) (item : Item) : Entries → Entries
  | [] => [(name, item)]
  | e :: es => if e.1 == name then (name, item) :: es else e :: put name item es

-- Changes the table at the end of a path. Tables that are missing on the way come to be as `how`
-- says. A name with dots does not lead into a table that has a header, and no path leads into
-- a value.
def within (how : Origin) (change : Origin → Entries → Option Entries) :
    List String → Origin → Entries → Option Entries
  | [], origin, es => change origin es
  | k :: ks, _, es =>
    match es.find? k with
    | none => do
      some (es.put k (.table how (← within how change ks how [])))
    | some (.value _) => none
    | some (.table origin inner) =>
      if how = .dotted ∧ origin = .header then none
      else do some (es.put k (.table origin (← within how change ks origin inner)))
    | some (.tables items) => do
      let last ← within how change ks .header (items.getLast?.getD [])
      some (es.put k (.tables (items.dropLast ++ [last])))

-- Adds a value under a path from a table with a header. It has to be new, and a path with dots
-- ends in a table made by such paths.
def add (path : List String) (name : String) (t : Tree) (es : Entries) : Option Entries :=
  es.within .dotted (fun origin inner =>
    if (origin == .dotted) == path.isEmpty then none
    else if (inner.find? name).isSome then none
    else some (inner.put name (.value t))) path .header

-- Adds the table of a header. It may be there already if it was only passed on the way to others.
def begin (path : List String) (name : String) (es : Entries) : Option Entries :=
  es.within .passed (fun _ inner =>
    match inner.find? name with
    | none => some (inner.put name (.table .header []))
    | some (.table .passed entries) => some (inner.put name (.table .header entries))
    | some _ => none) path .header

-- Adds one more table to a list of tables.
def append (path : List String) (name : String) (es : Entries) : Option Entries :=
  es.within .passed (fun _ inner =>
    match inner.find? name with
    | none => some (inner.put name (.tables [[]]))
    | some (.tables items) => some (inner.put name (.tables (items ++ [[]])))
    | some _ => none) path .header

-- Adds a value to the table that the header `place` began.
def addAt (place path : List String) (name : String) (t : Tree) (es : Entries) : Option Entries :=
  es.within .passed (fun _ inner => inner.add path name t) place .header

end Entries

mutual

def Item.toTree : Item → Tree
  | .value t => t
  | .table _ entries => .table (entryTrees entries)
  | .tables items => .list (tableTrees items)

def entryTrees : List (String × Item) → List (String × Tree)
  | [] => []
  | (k, item) :: es => (k, item.toTree) :: entryTrees es

def tableTrees : List (List (String × Item)) → List Tree
  | [] => []
  | es :: rest => .table (entryTrees es) :: tableTrees rest

end

end MetricRelay.Toml
