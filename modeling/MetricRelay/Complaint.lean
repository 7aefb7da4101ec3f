import MetricRelay.Text.Blank
import MetricRelay.Text.Numeral

namespace MetricRelay

-- What a reader of documents has to say against one, and the line and the column where. Line zero
-- stands for no place in particular.
structure Complaint where
  text : String
  line : Nat
  column : Nat
deriving DecidableEq

namespace Complaint

-- A number of digits alone that fits 64 bits.
def number? (cs : List Char) : Option Nat := do
  let n ← Numeral.read? 10 cs
  if n < UInt64.size then some n else none

-- A line and a column with the word between them.
def place? (cs : List Char) : Option (Nat × Nat) := do
  let (line, column) ← Text.cutAt? " column ".toList cs
  return (← number? line, ← number? column)

-- A complaint whose text may end in its place. Behind the first ` at line ` there must be nothing
-- but the place; otherwise all is text.
def ofText (text : String) : Complaint :=
  match Text.cutAt? " at line ".toList text.toList with
  | some (before, behind) =>
    match place? behind with
    | some (line, column) => ⟨String.ofList before, line, column⟩
    | none => ⟨text, 0, 0⟩
  | none => ⟨text, 0, 0⟩

def message (c : Complaint) : String :=
  if c.line = 0 then c.text
  else c.text ++ " at line " ++ String.ofList (Numeral.decimal c.line) ++ " column " ++
    String.ofList (Numeral.decimal c.column)

end Complaint

end MetricRelay
