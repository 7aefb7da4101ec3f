namespace MetricRelay.Text

-- The white space characters of Unicode 15, as closed ranges of code points.
def blankRanges : List (Nat × Nat) :=
  [(0x09, 0x0D), (0x20, 0x20), (0x85, 0x85), (0xA0, 0xA0), (0x1680, 0x1680), (0x2000, 0x200A),
    (0x2028, 0x2029), (0x202F, 0x202F), (0x205F, 0x205F), (0x3000, 0x3000)]

def isBlank (c : Char) : Bool :=
  blankRanges.any fun r => r.1 ≤ c.toNat && c.toNat ≤ r.2

-- The text without the blanks at either end.
def trim (cs : List Char) : List Char :=
  ((cs.dropWhile isBlank).reverse.dropWhile isBlank).reverse

def trimmed (s : String) : String :=
  String.ofList (trim s.toList)

-- Whether no word goes on here: the text is over or a blank follows.
def atBreak : List Char → Bool
  | [] => true
  | c :: _ => isBlank c

-- The maximal runs of characters that are not blank, in order.
def words : List Char → List (List Char)
  | [] => []
  | c :: rest =>
    if isBlank c then words rest
    else if atBreak rest then [c] :: words rest
    else match words rest with
      | [] => [[c]]
      | w :: ws => (c :: w) :: ws

-- The lines of a text. A line ends at a line feed, and a carriage return just before the line
-- feed belongs to the ending. Nothing follows the last ending.
def lines : List Char → List (List Char)
  | [] => []
  | '\n' :: rest => [] :: lines rest
  | '\r' :: '\n' :: rest => [] :: lines rest
  | c :: rest =>
    match lines rest with
    | [] => [[c]]
    | l :: ls => (c :: l) :: ls

-- What stands before and after the first `mark`, if there is one.
def cut? (mark : Char) : List Char → Option (List Char × List Char)
  | [] => none
  | c :: rest => if c = mark then some ([], rest) else (cut? mark rest).map fun p => (c :: p.1, p.2)

-- What stands before and after the first place where `mark` stands, if there is one.
def cutAt? (mark : List Char) : List Char → Option (List Char × List Char)
  | [] => if mark = [] then some ([], []) else none
  | c :: rest =>
    if mark.isPrefixOf (c :: rest) then some ([], (c :: rest).drop mark.length)
    else (cutAt? mark rest).map fun p => (c :: p.1, p.2)

-- What stands before and after the last `mark`, if there is one.
def cutLast? (mark : Char) (cs : List Char) : Option (List Char × List Char) :=
  (cut? mark cs.reverse).map fun p => (p.2.reverse, p.1.reverse)

end MetricRelay.Text
