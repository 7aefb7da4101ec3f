namespace MetricRelay.Text.Base64

def alphabet : List Char :=
  "ABCDEFGHIJKLMNOPQRSTUVWXYZabcdefghijklmnopqrstuvwxyz0123456789+/".toList

-- The letter for six bits.
def letter (n : Nat) : Char :=
  alphabet[n % 64]?.getD '='

-- Three bytes become four letters; what lacks to three bytes is filled up at the end.
def encode : List UInt8 → List Char
  | a :: b :: c :: rest =>
    let n := 65536 * a.toNat + 256 * b.toNat + c.toNat
    letter (n / 262144) :: letter (n / 4096) :: letter (n / 64) :: letter n :: encode rest
  | [a, b] =>
    let n := 1024 * a.toNat + 4 * b.toNat
    [letter (n / 4096), letter (n / 64), letter n, '=']
  | [a] => [letter (a.toNat / 4), letter (16 * a.toNat), '=', '=']
  | [] => []

-- The six bits that a letter stands for.
def value? (c : Char) : Option Nat :=
  if 'A' ≤ c ∧ c ≤ 'Z' then some (c.toNat - 65)
  else if 'a' ≤ c ∧ c ≤ 'z' then some (26 + (c.toNat - 97))
  else if '0' ≤ c ∧ c ≤ '9' then some (52 + (c.toNat - 48))
  else if c = '+' then some 62
  else if c = '/' then some 63
  else none

-- The number whose groups of six bits are given by letters, the highest first.
def number? (cs : List Char) : Option Nat :=
  cs.foldlM (fun n c => (value? c).map (64 * n + ·)) 0

-- The bytes that a text stands for. It has to be filled up to groups of four, and the bits behind
-- the last byte have to be zero.
def decode? : List Char → Option (List UInt8)
  | [] => some []
  | [a, b, '=', '='] => do
    let n ← number? [a, b]
    if n % 16 = 0 then some [UInt8.ofNat (n / 16)] else none
  | [a, b, c, '='] => do
    let n ← number? [a, b, c]
    if n % 4 = 0 then some [UInt8.ofNat (n / 1024), UInt8.ofNat (n / 4)] else none
  | a :: b :: c :: d :: rest => do
    let n ← number? [a, b, c, d]
    some (UInt8.ofNat (n / 65536) :: UInt8.ofNat (n / 256) :: UInt8.ofNat n :: (← decode? rest))
  | _ => none

end MetricRelay.Text.Base64
