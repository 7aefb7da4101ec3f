namespace MetricRelay.Wire

abbrev Bytes := List UInt8

-- A number in groups of seven bits, least first; all bytes but the last have their top bit set.
def varint (n : Nat) : Bytes :=
  if n < 128 then [UInt8.ofNat n] else UInt8.ofNat (n % 128 + 128) :: varint (n / 128)

-- The number at the front.
def varint? : Bytes → Option (Nat × Bytes)
  | [] => none
  | b :: rest =>
    if b < 128 then some (b.toNat, rest)
    else (varint? rest).map fun r => (b.toNat - 128 + 128 * r.1, r.2)

-- A number in `width` bytes, least first. Higher bits are dropped.
def littleEndian : Nat → Nat → Bytes
  | 0, _ => []
  | width + 1, n => UInt8.ofNat n :: littleEndian width (n / 256)

def ofLittleEndian : Bytes → Nat
  | [] => 0
  | b :: rest => b.toNat + 256 * ofLittleEndian rest

-- What a field holds.
inductive Value where
  | number (n : UInt64)
  | double (bits : UInt64)
  | block (bytes : Bytes)
  | single (bits : UInt32)
deriving DecidableEq

-- A message is a row of numbered fields.
structure Field where
  tag : Nat
  value : Value
deriving DecidableEq

-- How the type of a value is marked beside the number of its field.
def Value.mark : Value → Nat
  | number _ => 0
  | double _ => 1
  | block _ => 2
  | single _ => 5

def Value.encode : Value → Bytes
  | number n => varint n.toNat
  | double bits => littleEndian 8 bits.toNat
  | block bytes => varint bytes.length ++ bytes
  | single bits => littleEndian 4 bits.toNat

def Field.encode (f : Field) : Bytes :=
  varint (8 * f.tag + f.value.mark) ++ f.value.encode

def encode (fields : List Field) : Bytes :=
  fields.flatMap Field.encode

-- As many bytes as asked for, from the front.
def take? (n : Nat) (bs : Bytes) : Option (Bytes × Bytes) :=
  let r := bs.splitAt n
  if r.1.length = n then some r else none

-- The value with a mark at the front.
def value? (mark : Nat) (bs : Bytes) : Option (Value × Bytes) :=
  match mark with
  | 0 => do
    let (n, rest) ← varint? bs
    if n < UInt64.size then some (.number (UInt64.ofNat n), rest) else none
  | 1 => (take? 8 bs).map fun r => (.double (UInt64.ofNat (ofLittleEndian r.1)), r.2)
  | 2 => do
    let (n, rest) ← varint? bs
    (take? n rest).map fun r => (.block r.1, r.2)
  | 5 => (take? 4 bs).map fun r => (.single (UInt32.ofNat (ofLittleEndian r.1)), r.2)
  | _ => none

def field? (bs : Bytes) : Option (Field × Bytes) := do
  let (key, rest) ← varint? bs
  let (v, rest) ← value? (key % 8) rest
  some (⟨key / 8, v⟩, rest)

-- All fields; `fuel` bounds their number.
def fields : Nat → Bytes → Option (List Field)
  | _, [] => some []
  | 0, _ => none
  | fuel + 1, bs => do
    let (f, rest) ← field? bs
    some (f :: (← fields fuel rest))

def decode? (bs : Bytes) : Option (List Field) :=
  fields bs.length bs

-- The values of the fields with a number, in order.
def valuesOf (tag : Nat) (fs : List Field) : List Value :=
  fs.filterMap fun f => if f.tag = tag then some f.value else none

end MetricRelay.Wire
