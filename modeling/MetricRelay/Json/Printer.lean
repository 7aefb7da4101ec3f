import MetricRelay.Decimal.Layout
import MetricRelay.Text.Numeral
import MetricRelay.Tree

namespace MetricRelay.Json

-- The letter that stands for a character after a backslash, where there is one.
def letter? (c : Char) : Option Char :=
  if c = '"' then some '"'
  else if c = '\\' then some '\\'
  else if c = Char.ofNat 8 then some 'b'
  else if c = Char.ofNat 12 then some 'f'
  else if c = '\n' then some 'n'
  else if c = '\r' then some 'r'
  else if c = '\t' then some 't'
  else none

-- A character as it stands between quotes. Control characters without a letter are written by
-- number, all others as they are.
def escapeChar (c : Char) : List Char :=
  match letter? c with
  | some l => ['\\', l]
  | none => if c.toNat < 32 then '\\' :: 'u' :: Numeral.padded 16 4 c.toNat else [c]

def quote (s : String) : List Char :=
  '"' :: (s.toList.flatMap escapeChar ++ ['"'])

def integer (n : Int) : List Char :=
  if n < 0 then '-' :: Numeral.decimal n.natAbs else Numeral.decimal n.natAbs

-- Items with a comma between them.
def commas : List (List Char) → List Char
  | [] => []
  | [x] => x
  | x :: xs => x ++ ',' :: commas xs

mutual

-- The text without any space. What has no number or text of its own is written as null.
def compact : Tree → List Char
  | .null | .unreadable => ['n', 'u', 'l', 'l']
  | .flag true => ['t', 'r', 'u', 'e']
  | .flag false => ['f', 'a', 'l', 's', 'e']
  | .integer n => integer n
  | .real x => if x.isFinite then Decimal.write x else ['n', 'u', 'l', 'l']
  | .text s => quote s
  | .list items => '[' :: (commas (compactItems items) ++ [']'])
  | .table entries => '\x7b' :: (commas (compactEntries entries) ++ ['\x7d'])

def compactItems : List Tree → List (List Char)
  | [] => []
  | t :: ts => compact t :: compactItems ts

def compactEntries : List (String × Tree) → List (List Char)
  | [] => []
  | (k, t) :: es => (quote k ++ ':' :: compact t) :: compactEntries es

end

-- A new line, indented by two spaces a level.
def newline (level : Nat) : List Char :=
  '\n' :: List.replicate (2 * level) ' '

-- A bracketed block with one item a line. A block without items has no line break.
def block (left right : Char) (level : Nat) (items : List (List Char)) : List Char :=
  if items = [] then [left, right]
  else left :: (commas (items.map fun i => newline (level + 1) ++ i) ++ newline level ++ [right])

mutual

-- The text with one item or entry a line.
def pretty (level : Nat) : Tree → List Char
  | .list items => block '[' ']' level (prettyItems (level + 1) items)
  | .table entries => block '\x7b' '\x7d' level (prettyEntries (level + 1) entries)
  | .null | .unreadable => ['n', 'u', 'l', 'l']
  | .flag b => compact (.flag b)
  | .integer n => integer n
  | .real x => compact (.real x)
  | .text s => quote s

def prettyItems (level : Nat) : List Tree → List (List Char)
  | [] => []
  | t :: ts => pretty level t :: prettyItems level ts

def prettyEntries (level : Nat) : List (String × Tree) → List (List Char)
  | [] => []
  | (k, t) :: es => (quote k ++ ':' :: ' ' :: pretty level t) :: prettyEntries level es

end

def render (t : Tree) : String :=
  String.ofList (compact t)

def renderPretty (t : Tree) : String :=
  String.ofList (pretty 0 t)

end MetricRelay.Json
