import MetricRelay.Text.Numeral

namespace MetricRelay.Toml

abbrev Rest := List Char

def isSpace (c : Char) : Bool :=
  c = ' ' || c = '\t'

def skip : List Char → Rest :=
  List.dropWhile isSpace

-- Characters that may stand for themselves: no control character but the tab.
def isPlain (c : Char) : Bool :=
  c = '\t' || (0x20 ≤ c.toNat && c.toNat ≠ 0x7F)

-- The text behind a line ending, which is a line feed with or without a carriage return before.
def newline? : List Char → Option Rest
  | '\n' :: rest => some rest
  | '\r' :: '\n' :: rest => some rest
  | _ => none

-- The text behind a comment, of which the `#` was read.
def skipComment : List Char → Rest :=
  List.dropWhile isPlain

-- The text behind the end of a line: blanks, perhaps a comment, then a line ending or nothing.
def endOfLine? (cs : List Char) : Option Rest :=
  let rest := match skip cs with
    | '#' :: r => skipComment r
    | r => r
  if rest = [] then some [] else newline? rest

-- The character with the number written in exactly `width` hexadecimal digits.
def scalar? (width : Nat) (cs : List Char) : Option (Char × Rest) := do
  let ds := cs.take width
  if ds.length < width then none
  else
    let n ← Numeral.read? 16 ds
    if n < 0xD800 ∨ (0xE000 ≤ n ∧ n < 0x110000) then some (Char.ofNat n, cs.drop width) else none

-- What a backslash stands for together with what follows it.
def escape? : List Char → Option (Char × Rest)
  | 'b' :: rest => some (Char.ofNat 8, rest)
  | 't' :: rest => some ('\t', rest)
  | 'n' :: rest => some ('\n', rest)
  | 'f' :: rest => some (Char.ofNat 12, rest)
  | 'r' :: rest => some ('\r', rest)
  | '"' :: rest => some ('"', rest)
  | '\\' :: rest => some ('\\', rest)
  | 'u' :: rest => scalar? 4 rest
  | 'U' :: rest => scalar? 8 rest
  | _ => none

-- A text in quotes on one line, from after the opening quote; `fuel` bounds its length.
def basic : Nat → List Char → Option (List Char × Rest)
  | 0, _ => none
  | _, [] => none
  | _, '"' :: rest => some ([], rest)
  | fuel + 1, '\\' :: rest =>
    match escape? rest with
    | none => none
    | some (c, rest') => (basic fuel rest').map fun r => (c :: r.1, r.2)
  | fuel + 1, c :: rest =>
    if isPlain c then (basic fuel rest).map fun r => (c :: r.1, r.2) else none

def apostrophe : Char :=
  Char.ofNat 39

-- A text in apostrophes on one line, from after the opening one. Nothing in it is special.
def literal (cs : List Char) : Option (List Char × Rest) :=
  let isBody := fun c => isPlain c && c ≠ apostrophe
  match cs.dropWhile isBody with
  | c :: rest => if c = apostrophe then some (cs.takeWhile isBody, rest) else none
  | [] => none

-- Blanks and line endings.
def skipLines : List Char → Rest
  | [] => []
  | '\r' :: '\n' :: rest => skipLines rest
  | c :: rest => if isSpace c || c = '\n' then skipLines rest else c :: rest

-- How many times the character stands at the front.
def run (c : Char) (cs : List Char) : Nat :=
  (cs.takeWhile (· = c)).length

-- The end of a text in triple quotes: three of them close it, and up to two before belong to it.
def closing? (quote : Char) (cs : List Char) : Option (List Char × Rest) :=
  let n := run quote cs
  if 3 ≤ n ∧ n ≤ 5 then some (List.replicate (n - 3) quote, cs.drop n) else none

-- A text in triple quotes, from after the opening and the line ending right behind it. Line
-- endings become line feeds; a backslash at the end of a line joins it with the next text.
def multiBasic : Nat → List Char → Option (List Char × Rest)
  | 0, _ => none
  | _, [] => none
  | fuel + 1, '"' :: rest =>
    if run '"' ('"' :: rest) < 3 then
      (multiBasic fuel rest).map fun r => ('"' :: r.1, r.2)
    else closing? '"' ('"' :: rest)
  | fuel + 1, '\\' :: rest =>
    match newline? (skip rest) with
    | some rest' => multiBasic fuel (skipLines rest')
    | none =>
      match escape? rest with
      | none => none
      | some (c, rest') => (multiBasic fuel rest').map fun r => (c :: r.1, r.2)
  | fuel + 1, c :: rest =>
    match newline? (c :: rest) with
    | some rest' => (multiBasic fuel rest').map fun r => ('\n' :: r.1, r.2)
    | none => if isPlain c then (multiBasic fuel rest).map fun r => (c :: r.1, r.2) else none

-- The same in triple apostrophes, where backslashes are not special.
def multiLiteral : Nat → List Char → Option (List Char × Rest)
  | 0, _ => none
  | _, [] => none
  | fuel + 1, c :: rest =>
    if c = apostrophe then
      if run apostrophe (c :: rest) < 3 then
        (multiLiteral fuel rest).map fun r => (c :: r.1, r.2)
      else closing? apostrophe (c :: rest)
    else match newline? (c :: rest) with
      | some rest' => (multiLiteral fuel rest').map fun r => ('\n' :: r.1, r.2)
      | none => if isPlain c then (multiLiteral fuel rest).map fun r => (c :: r.1, r.2) else none

-- What follows a line ending at the front, if there is one.
def dropNewline (cs : List Char) : Rest :=
  (newline? cs).getD cs

-- A quoted text on one line, of which nothing was read yet.
def quoted? (cs : List Char) : Option (List Char × Rest) :=
  match cs with
  | '"' :: rest => basic (rest.length + 1) rest
  | c :: rest => if c = apostrophe then literal rest else none
  | [] => none

-- Any text value.
def text? (cs : List Char) : Option (String × Rest) :=
  let body :=
    if 3 ≤ run '"' cs then
      let rest := dropNewline (cs.drop 3)
      multiBasic (rest.length + 1) rest
    else if 3 ≤ run apostrophe cs then
      let rest := dropNewline (cs.drop 3)
      multiLiteral (rest.length + 1) rest
    else quoted? cs
  body.map fun r => (String.ofList r.1, r.2)

-- Characters of a name that needs no quotes.
def isBare (c : Char) : Bool :=
  ('a' ≤ c && c ≤ 'z') || ('A' ≤ c && c ≤ 'Z') || ('0' ≤ c && c ≤ '9') || c = '-' || c = '_'

def name? (cs : List Char) : Option (String × Rest) :=
  match cs.takeWhile isBare with
  | [] => (quoted? cs).map fun r => (String.ofList r.1, r.2)
  | w => some (String.ofList w, cs.dropWhile isBare)

-- Names with dots between them and blanks anywhere around; `fuel` bounds their number.
def path : Nat → List Char → Option (List String × Rest)
  | 0, _ => none
  | fuel + 1, cs =>
    match name? (skip cs) with
    | none => none
    | some (k, rest) =>
      match skip rest with
      | '.' :: rest' => (path fuel rest').map fun r => (k :: r.1, r.2)
      | rest' => some ([k], rest')

end MetricRelay.Toml
