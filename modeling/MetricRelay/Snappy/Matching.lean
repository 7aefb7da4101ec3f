import MetricRelay.Snappy.Element

namespace MetricRelay.Snappy

open Wire

-- A block of data in which stretches that came before are looked for.
abbrev Block := Array UInt8

def Block.byte (b : Block) (i : Nat) : UInt8 :=
  b[i]?.getD 0

-- The four bytes from a place on.
def Block.word (b : Block) (i : Nat) : UInt32 :=
  (b.byte i).toUInt32 ||| (b.byte (i + 1)).toUInt32 <<< 8 ||| (b.byte (i + 2)).toUInt32 <<< 16 |||
    (b.byte (i + 3)).toUInt32 <<< 24

def Block.slice (b : Block) (start stop : Nat) : Bytes :=
  (b.extract start stop).toList

-- The places seen last, by the hash of the four bytes there.
abbrev Places := Array Nat

-- The number of bits of a hash: as many as the block has use for, from 8 to 14.
def hashBits (size : Nat) : Nat → Nat
  | 0 => 14
  | more + 1 => if size ≤ Nat.pow 2 (13 - more) then 13 - more else hashBits size more

-- The greatest hash has all of `bits` bits set.
def hash (bits : Nat) (word : UInt32) : Nat :=
  ((word * 0x1E35A7BD) >>> UInt32.ofNat (32 - bits)).toNat

-- How far the data from `i` on agrees with the data from `j` on, up to the end of the block.
def Block.agreement (b : Block) (i j : Nat) : Nat :=
  if h : j < b.size then
    if b.byte i = b.byte j then 1 + b.agreement (i + 1) (j + 1) else 0
  else 0
termination_by b.size - j

-- What is being done at a place: looking for data that came before, with the hash of the place
-- and the number of bytes passed over since the last find, or writing a copy of what came at
-- `source`, or nothing more.
inductive Phase where
  | seeking (hash passed : Nat)
  | copying (source : Nat)
  | done
deriving DecidableEq

structure Cursor where
  places : Places
  -- up to where elements have been given
  given : Nat
  place : Nat
  phase : Phase

-- The places before this one are looked at.
def limit (b : Block) : Nat :=
  b.size - 15

-- The bytes given as a literal between two places, if there are any.
def literalBetween (b : Block) (start stop : Nat) : List Element :=
  if start < stop then [.literal (b.slice start stop)] else []

-- Looks at one place: the elements that this gives, and where to go on. The further nothing was
-- found, the more bytes are passed over.
def Cursor.step (b : Block) (bits : Nat) (c : Cursor) : List Element × Cursor :=
  let isMatch := fun (i j : Nat) => i < j && b.word i == b.word j
  match c.phase with
  | .done => ([], c)
  | .seeking h passed =>
    let stride := 1 + passed / 32
    let next := c.place + stride
    if limit b < next then ([], { c with phase := .done })
    else
      let candidate := c.places[h]?.getD 0
      let places := c.places.setIfInBounds h c.place
      if isMatch candidate c.place then
        (literalBetween b c.given c.place, ⟨places, c.place, c.place, .copying candidate⟩)
      else
        ([], ⟨places, c.given, next, .seeking (hash bits (b.word next)) (passed + stride)⟩)
  | .copying source =>
    let length := 4 + b.agreement (source + 4) (c.place + 4)
    let stop := c.place + length
    let found := [Element.copy (c.place - source) length]
    if limit b ≤ stop then (found, ⟨c.places, stop, stop, .done⟩)
    else
      let places := c.places.setIfInBounds (hash bits (b.word (stop - 1))) (stop - 1)
      let h := hash bits (b.word stop)
      let candidate := places[h]?.getD 0
      let places := places.setIfInBounds h stop
      if isMatch candidate stop then (found, ⟨places, stop, stop, .copying candidate⟩)
      else
        (found, ⟨places, stop, stop + 1, .seeking (hash bits (b.word (stop + 1))) 0⟩)

-- The elements from a cursor on, in at most `fuel` steps. What is not given by then is a literal.
def Cursor.run (b : Block) (bits : Nat) : Nat → Cursor → List Element
  | 0, c => literalBetween b c.given b.size
  | fuel + 1, c =>
    if c.phase = .done then literalBetween b c.given b.size
    else
      let r := c.step b bits
      r.1 ++ Cursor.run b bits fuel r.2

-- The elements that stand for a block. Nothing is looked for in a small one.
def blockElements (b : Block) : List Element :=
  if b.size < 17 then literalBetween b 0 b.size
  else
    let bits := hashBits b.size 6
    Cursor.run b bits (2 * b.size)
      ⟨Array.replicate (Nat.pow 2 bits) 0, 0, 1, .seeking (hash bits (b.word 1)) 0⟩

def blockSize : Nat := 65536

-- Data cut into blocks of one size and a last one that may be smaller.
def blocks (data : Bytes) : List Bytes :=
  if data = [] then []
  else data.take blockSize :: blocks (data.drop blockSize)
termination_by data.length
decreasing_by
  have := List.length_pos_iff.2 ‹¬data = []›
  simp only [List.length_drop, blockSize]
  omega

-- The packed form: the length, then the elements of one block after the other.
def compress (data : Bytes) : Bytes :=
  varint data.length ++
    (blocks data).flatMap fun b => (blockElements b.toArray).flatMap Element.encode

-- The largest length that can be written.
def mostBytes : Nat := UInt32.size - 1

-- Whether data of this length can be packed even if nothing in it can be shortened.
def fits (size : Nat) : Bool :=
  32 + size + size / 6 ≤ mostBytes

end MetricRelay.Snappy
