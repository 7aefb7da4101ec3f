import MetricRelay.Wire

namespace MetricRelay.Snappy

open Wire

-- A piece of packed data: bytes as they are, or a stretch of what came `offset` bytes earlier,
-- which may overlap with itself.
inductive Element where
  | literal (bytes : Bytes)
  | copy (offset length : Nat)
deriving DecidableEq

-- Appends `length` bytes, each equal to the one `offset` before it.
def repeatFrom (offset : Nat) : Nat → Array UInt8 → Array UInt8
  | 0, out => out
  | length + 1, out => repeatFrom offset length (out.push (out[out.size - offset]?.getD 0))

-- Adds what an element stands for. A copy has to start within what is there.
def Element.expand? (out : Array UInt8) : Element → Option (Array UInt8)
  | literal bytes => some (out ++ bytes.toArray)
  | copy offset length =>
    if 0 < offset ∧ offset ≤ out.size then some (repeatFrom offset length out) else none

def expand? (es : List Element) : Option (Array UInt8) :=
  es.foldlM Element.expand? #[]

-- The head of a literal: its length less one, in the first byte if it is small.
def literalHead (n : Nat) : Bytes :=
  if n < 60 then [UInt8.ofNat (4 * n)]
  else if n < 256 then [0xF0, UInt8.ofNat n]
  else 0xF4 :: littleEndian 2 n

-- A copy of up to 64 bytes. Short ones from nearby take two bytes.
def smallCopy (offset length : Nat) : Bytes :=
  if length ≤ 11 ∧ offset ≤ 2047 then
    [UInt8.ofNat (32 * (offset / 256) + 4 * (length - 4) + 1), UInt8.ofNat offset]
  else UInt8.ofNat (4 * (length - 1) + 2) :: littleEndian 2 offset

-- A copy of any length. Long ones are cut so that at least four bytes are left for the last cut.
def copyBytes (offset length : Nat) : Bytes :=
  if 68 ≤ length then smallCopy offset 64 ++ copyBytes offset (length - 64)
  else if 64 < length then smallCopy offset 60 ++ smallCopy offset (length - 60)
  else smallCopy offset length

def Element.encode : Element → Bytes
  | literal bytes => literalHead (bytes.length - 1) ++ bytes
  | copy offset length => copyBytes offset length

-- A literal whose length less one is given in `width` bytes, or directly.
def literal? (direct : Nat) (bs : Bytes) : Option (Element × Bytes) := do
  let (n, rest) ←
    if direct < 60 then some (direct, bs)
    else (take? (direct - 59) bs).map fun r => (ofLittleEndian r.1, r.2)
  (take? (n + 1) rest).map fun r => (.literal r.1, r.2)

-- A copy whose offset is given in `width` bytes, above which come the bits of `high`.
def copy? (width high length : Nat) (bs : Bytes) : Option (Element × Bytes) :=
  (take? width bs).map fun r => (.copy (Nat.pow 256 width * high + ofLittleEndian r.1) length, r.2)

-- The element at the front. The two low bits of its first byte tell what it is.
def element? : Bytes → Option (Element × Bytes)
  | [] => none
  | b :: rest =>
    let n := b.toNat / 4
    match b.toNat % 4 with
    | 0 => literal? n rest
    | 1 => copy? 1 (n / 8) (n % 8 + 4) rest
    | 2 => copy? 2 0 (n + 1) rest
    | _ => copy? 4 0 (n + 1) rest

-- All elements; `fuel` bounds their number.
def elements : Nat → Bytes → Option (List Element)
  | _, [] => some []
  | 0, _ => none
  | fuel + 1, bs => do
    let (e, rest) ← element? bs
    some (e :: (← elements fuel rest))

-- The data that was packed: its length is written in front of the elements.
def decompress? (packed : Bytes) : Option Bytes := do
  let (size, rest) ← varint? packed
  let out ← expand? (← elements rest.length rest)
  if out.size = size then some out.toList else none

end MetricRelay.Snappy
