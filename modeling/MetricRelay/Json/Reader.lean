import MetricRelay.Decimal.Reading
import MetricRelay.Tree

namespace MetricRelay.Json

-- What is left of a text after a part of it was read.
abbrev Rest := List Char

def isSpace (c : Char) : Bool :=
  c = ' ' || c = '\t' || c = '\n' || c = '\r'

def skip : List Char → Rest :=
  List.dropWhile isSpace

-- One place of a text between quotes: a character, or half of a surrogate pair that lacks the
-- other half.
inductive Mark where
  | char (c : Char)
  | half

-- The character that a letter stands for after a backslash.
def unletter? (c : Char) : Option Char :=
  if c = '"' then some '"'
  else if c = '\\' then some '\\'
  else if c = '/' then some '/'
  else if c = 'b' then some (Char.ofNat 8)
  else if c = 'f' then some (Char.ofNat 12)
  else if c = 'n' then some '\n'
  else if c = 'r' then some '\r'
  else if c = 't' then some '\t'
  else none

def isHigh (n : Nat) : Bool :=
  0xD800 ≤ n && n ≤ 0xDBFF

def isLow (n : Nat) : Bool :=
  0xDC00 ≤ n && n ≤ 0xDFFF

-- The characters between the quotes, from after the opening one. `pending` is a high surrogate
-- just read, which makes a character with a low one right behind it and a half otherwise.
def marks : Option Nat → List Char → Option (List Mark × Rest)
  | _, [] => none
  | pending, '"' :: rest => some (if pending.isSome then [.half] else [], rest)
  | pending, '\\' :: 'u' :: a :: b :: c :: d :: rest =>
    match Numeral.read? 16 [a, b, c, d] with
    | none => none
    | some n =>
      if isHigh n then
        (marks (some n) rest).map fun r => (if pending.isSome then .half :: r.1 else r.1, r.2)
      else
        let here :=
          match pending with
          | some h =>
            if isLow n then [.char (Char.ofNat (0x10000 + (h - 0xD800) * 0x400 + (n - 0xDC00)))]
            else [.half, .char (Char.ofNat n)]
          | none => if isLow n then [.half] else [.char (Char.ofNat n)]
        (marks none rest).map fun r => (here ++ r.1, r.2)
  | pending, '\\' :: c :: rest =>
    match unletter? c with
    | none => none
    | some x =>
      (marks none rest).map fun r =>
        (if pending.isSome then .half :: .char x :: r.1 else .char x :: r.1, r.2)
  | pending, c :: rest =>
    if c.toNat < 32 then none
    else
      (marks none rest).map fun r =>
        (if pending.isSome then .half :: .char c :: r.1 else .char c :: r.1, r.2)

-- The text that marks spell, unless one of them is a half.
def spell : List Mark → Option (List Char)
  | [] => some []
  | .char c :: ms => (spell ms).map (c :: ·)
  | .half :: _ => none

-- A text from after its opening quote; none inside for one that cannot be spelled.
def text? (cs : List Char) : Option (Option String × Rest) :=
  (marks none cs).map fun r => ((spell r.1).map String.ofList, r.2)

-- The digits at the front.
def digits (cs : List Char) : List Char × Rest :=
  (cs.takeWhile Numeral.isDigit, cs.dropWhile Numeral.isDigit)

-- One digit or more at the front.
def someDigits? (cs : List Char) : Option (List Char × Rest) :=
  match digits cs with
  | ([], _) => none
  | r => some r

-- The whole part of a number. A zero is not followed by another digit.
def whole? (cs : List Char) : Option (List Char × Rest) :=
  match someDigits? cs with
  | some ('0' :: _ :: _, _) => none
  | r => r

def fraction? : List Char → Option (Option (List Char) × Rest)
  | '.' :: cs => (someDigits? cs).map fun r => (some r.1, r.2)
  | cs => some (none, cs)

def signedDigits? (cs : List Char) : Option (Option (Bool × List Char) × Rest) :=
  match cs with
  | '+' :: rest => (someDigits? rest).map fun r => (some (false, r.1), r.2)
  | '-' :: rest => (someDigits? rest).map fun r => (some (true, r.1), r.2)
  | _ => (someDigits? cs).map fun r => (some (false, r.1), r.2)

def exponent? : List Char → Option (Option (Bool × List Char) × Rest)
  | 'e' :: cs | 'E' :: cs => signedDigits? cs
  | cs => some (none, cs)

def literal? (cs : List Char) : Option (Decimal.Literal × Rest) := do
  let (negative, cs) := match cs with
    | '-' :: rest => (true, rest)
    | _ => (false, cs)
  let (whole, cs) ← whole? cs
  let (fraction, cs) ← fraction? cs
  let (exponent, cs) ← exponent? cs
  some (⟨negative, whole, fraction, exponent⟩, cs)

-- A number is an integer if it is written as one and fits 64 bits, signed or not. Minus zero and
-- all others are doubles.
def number (l : Decimal.Literal) : Tree :=
  let real := match l.real? with
    | some x => .real x
    | none => .unreadable
  if l.isInteger then
    match Numeral.read? 10 l.whole with
    | some n =>
      if l.negative then
        if 0 < n ∧ Int64.minValue.toInt ≤ -(n : Int) then .integer (-(n : Int)) else real
      else if n < UInt64.size then .integer n else real
    | none => real
  else real

-- The text after a word, if it starts with that word.
def after? : List Char → List Char → Option Rest
  | [], cs => some cs
  | w :: ws, c :: cs => if w = c then after? ws cs else none
  | _ :: _, [] => none

mutual

-- A value at the front of the text. Every step into a value or on to the next one takes one from
-- the fuel, and each of them reads a character.
def value : Nat → List Char → Option (Tree × Rest)
  | 0, _ => none
  | fuel + 1, cs =>
    match skip cs with
    | '"' :: rest =>
      (text? rest).map fun r => (match r.1 with | some s => .text s | none => .unreadable, r.2)
    | '[' :: rest =>
      match skip rest with
      | ']' :: rest' => some (.list [], rest')
      | rest' => (items fuel rest').map fun r => (.list r.1, r.2)
    | '\x7b' :: rest =>
      match skip rest with
      | '\x7d' :: rest' => some (.table [], rest')
      | rest' =>
        (entries fuel rest').map fun r =>
          (match r.1 with | some es => .table es | none => .unreadable, r.2)
    | 'n' :: rest => (after? ['u', 'l', 'l'] rest).map fun r => (.null, r)
    | 't' :: rest => (after? ['r', 'u', 'e'] rest).map fun r => (.flag true, r)
    | 'f' :: rest => (after? ['a', 'l', 's', 'e'] rest).map fun r => (.flag false, r)
    | rest => (literal? rest).map fun r => (number r.1, r.2)

-- The items of a list up to its end, the first one included.
def items : Nat → List Char → Option (List Tree × Rest)
  | 0, _ => none
  | fuel + 1, cs =>
    match value fuel cs with
    | none => none
    | some (t, rest) =>
      match skip rest with
      | ',' :: rest' => (items fuel rest').map fun r => (t :: r.1, r.2)
      | ']' :: rest' => some ([t], rest')
      | _ => none

-- The entries of a table up to its end, the first one included; none inside if the name of one
-- cannot be spelled.
def entries : Nat → List Char → Option (Option (List (String × Tree)) × Rest)
  | 0, _ => none
  | fuel + 1, cs =>
    match skip cs with
    | '"' :: rest =>
      match text? rest with
      | none => none
      | some (k, rest') =>
        match skip rest' with
        | ':' :: rest'' =>
          match value fuel rest'' with
          | none => none
          | some (t, left) =>
            let entry := k.map fun k => (k, t)
            match skip left with
            | ',' :: left' =>
              (entries fuel left').map fun r =>
                ((match entry, r.1 with | some e, some es => some (e :: es) | _, _ => none), r.2)
            | '\x7d' :: left' => some (entry.map fun e => [e], left')
            | _ => none
        | _ => none
    | _ => none

end

-- The document that a text holds, with nothing but space around it.
def read? (s : String) : Option Tree :=
  let cs := s.toList
  match value (cs.length + 1) cs with
  | some (t, rest) => if skip rest = [] then some t else none
  | none => none

-- A record written as a list has no items to spare, and a variant without content may hold null.
def dialect : Tree.Dialect where
  surplusItems := false
  emptyContent
    | .null => true
    | _ => false

end MetricRelay.Json
