import MetricRelay.Toml.Draft
import MetricRelay.Toml.Scalar

namespace MetricRelay.Toml

-- Lists and tables within a value are nested less deep than this, and names have fewer parts.
def depthLimit : Nat := 80

-- Blanks, line endings and comments.
def skipAll : Nat → List Char → Rest
  | 0, cs => cs
  | fuel + 1, cs =>
    match cs with
    | '#' :: rest => match newline? (skipComment rest) with
      | some rest' => skipAll fuel rest'
      | none => skipComment rest
    | c :: rest =>
      if isSpace c then skipAll fuel rest
      else match newline? (c :: rest) with
        | some rest' => skipAll fuel rest'
        | none => c :: rest
    | [] => []

def filler (cs : List Char) : Rest :=
  skipAll cs.length cs

-- A path: the names before the last, and the last.
def key? (cs : List Char) : Option ((List String × String) × Rest) := do
  let (names, rest) ← path cs.length cs
  if depthLimit ≤ names.length then none
  else some ((names.dropLast, ← names.getLast?), rest)

-- A value that is neither list nor table.
def scalar (cs : List Char) : Option (Tree × Rest) :=
  match cs with
  | [] => none
  | c :: rest =>
    if c = '"' ∨ c = apostrophe then (text? cs).map fun r => (.text r.1, r.2)
    else if c = 't' then
      if rest.take 3 = ['r', 'u', 'e'] then some (.flag true, rest.drop 3) else none
    else if c = 'f' then
      if rest.take 4 = ['a', 'l', 's', 'e'] then some (.flag false, rest.drop 4) else none
    else number? cs

mutual

-- A value at the front of the text. Every step into a value or on to the next one takes one from
-- the fuel, and each of them reads a character.
def value : Nat → Nat → List Char → Option (Tree × Rest)
  | 0, _, _ => none
  | fuel + 1, depth, cs =>
    match cs with
    | '[' :: rest =>
      if depthLimit ≤ depth + 1 then none
      else match filler rest with
        | ']' :: rest' => some (.list [], rest')
        | rest' => (items fuel (depth + 1) rest').map fun r => (.list r.1, r.2)
    | '\x7b' :: rest =>
      if depthLimit ≤ depth + 1 then none
      else match skip rest with
        | '\x7d' :: rest' => some (.table [], rest')
        | rest' => (entries fuel (depth + 1) [] rest').map fun r => (.table (entryTrees r.1), r.2)
    | _ => scalar cs

-- The items of a list up to its end, the first one included. A comma may follow the last.
def items : Nat → Nat → List Char → Option (List Tree × Rest)
  | 0, _, _ => none
  | fuel + 1, depth, cs =>
    match value fuel depth (filler cs) with
    | none => none
    | some (t, rest) =>
      match filler rest with
      | ']' :: rest' => some ([t], rest')
      | ',' :: rest' =>
        match filler rest' with
        | ']' :: rest'' => some ([t], rest'')
        | rest'' => (items fuel depth rest'').map fun r => (t :: r.1, r.2)
      | _ => none

-- The entries of a table on one line up to its end, the first one included, added to those
-- before.
def entries : Nat → Nat → Entries → List Char → Option (Entries × Rest)
  | 0, _, _, _ => none
  | fuel + 1, depth, before, cs =>
    match key? cs with
    | none => none
    | some ((parents, name), rest) =>
      match rest with
      | '=' :: rest =>
        match value fuel depth (skip rest) with
        | none => none
        | some (t, rest) =>
          match before.add parents name t with
          | none => none
          | some after =>
            match skip rest with
            | '\x7d' :: rest' => some (after, rest')
            | ',' :: rest' => entries fuel depth after rest'
            | _ => none
      | _ => none

end

-- One line of a document, or several that a value spans.
inductive Statement where
  | blank
  | table (parents : List String) (name : String)
  | item (parents : List String) (name : String)
  | entry (parents : List String) (name : String) (t : Tree)

def statement? (cs : List Char) : Option (Statement × Rest) :=
  match cs with
  | '#' :: _ => (endOfLine? cs).map fun r => (.blank, r)
  | '[' :: '[' :: rest => do
    let ((parents, name), rest) ← key? rest
    match rest with
    | ']' :: ']' :: rest => some (.item parents name, ← endOfLine? rest)
    | _ => none
  | '[' :: rest => do
    let ((parents, name), rest) ← key? rest
    match rest with
    | ']' :: rest => some (.table parents name, ← endOfLine? rest)
    | _ => none
  | _ =>
    match newline? cs with
    | some rest => some (.blank, rest)
    | none => do
      let ((parents, name), rest) ← key? cs
      match rest with
      | '=' :: rest =>
        let (t, rest) ← value (rest.length + 1) 0 (skip rest)
        some (.entry parents name t, ← endOfLine? rest)
      | _ => none

-- All statements of a text; `fuel` bounds their number.
def statements : Nat → List Char → Option (List Statement)
  | 0, cs => if skip cs = [] then some [] else none
  | fuel + 1, cs =>
    match skip cs with
    | [] => some []
    | rest => do
      let (s, rest) ← statement? rest
      some (s :: (← statements fuel rest))

-- Adds what the statements say to the entries so far; `place` is the path of the last header.
def build : List String → Entries → List Statement → Option Entries
  | _, es, [] => some es
  | place, es, .blank :: rest => build place es rest
  | _, es, .table parents name :: rest => do
    build (parents ++ [name]) (← es.begin parents name) rest
  | _, es, .item parents name :: rest => do
    build (parents ++ [name]) (← es.append parents name) rest
  | place, es, .entry parents name t :: rest => do
    build place (← es.addAt place parents name t) rest

-- The document that a text holds. A byte order mark may stand before it.
def read? (s : String) : Option Tree := do
  let cs := match s.toList with
    | c :: rest => if c = Char.ofNat 0xFEFF then rest else c :: rest
    | [] => []
  let es ← build [] [] (← statements cs.length cs)
  some (.table (entryTrees es))

-- A record written as a list may have items to spare, and a variant without content may hold an
-- empty table or list.
def dialect : Tree.Dialect where
  surplusItems := true
  emptyContent
    | .table [] | .list [] => true
    | _ => false

end MetricRelay.Toml
