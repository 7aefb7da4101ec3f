import MetricRelay.Text.Bytes
import MetricRelay.Wire

namespace MetricRelay

structure Label where
  name : String
  value : String
deriving DecidableEq

-- A value at a time in milliseconds. The value is a double, given by its bits.
structure Sample where
  value : UInt64
  timestamp : Int64
deriving DecidableEq

structure TimeSeries where
  labels : List Label
  samples : List Sample
deriving DecidableEq

-- What a family of metrics is about. The kind is one of a numbered list.
structure FamilyInfo where
  kind : Int32
  name : String
  help : String
  unit : String
deriving DecidableEq

-- What is sent to a store of time series.
structure WriteRequest where
  series : List TimeSeries
  families : List FamilyInfo
deriving DecidableEq

open Wire

-- Fields of messages. An empty text and a zero are left out, since they are what a missing field
-- stands for.
namespace Wire

def textField (tag : Nat) (s : String) : List Field :=
  if s = "" then [] else [⟨tag, .block (Text.bytes s)⟩]

def intField (tag : Nat) (n : Int) : List Field :=
  if n = 0 then [] else [⟨tag, .number (Int64.ofInt n).toUInt64⟩]

-- Zero has two doubles, of which one has a sign.
def doubleField (tag : Nat) (bits : UInt64) : List Field :=
  if bits = 0 ∨ bits = 0x8000000000000000 then [] else [⟨tag, .double bits⟩]

def messageField (tag : Nat) (message : List Field) : Field :=
  ⟨tag, .block (encode message)⟩

-- The last of several fields with the same number counts.
def text? (tag : Nat) (fs : List Field) : Option String :=
  match (valuesOf tag fs).getLast? with
  | none => some ""
  | some (.block bytes) => Text.ofBytes? bytes
  | some _ => none

def int? (tag : Nat) (fs : List Field) : Option Int64 :=
  match (valuesOf tag fs).getLast? with
  | none => some 0
  | some (.number n) => some n.toInt64
  | some _ => none

def double? (tag : Nat) (fs : List Field) : Option UInt64 :=
  match (valuesOf tag fs).getLast? with
  | none => some 0
  | some (.double bits) => some bits
  | some _ => none

-- A message within another.
def message? {α : Type} (read : List Field → Option α) : Value → Option α
  | .block bytes => (decode? bytes).bind read
  | _ => none

def messages? {α : Type} (read : List Field → Option α) (tag : Nat) (fs : List Field) :
    Option (List α) :=
  (valuesOf tag fs).mapM (message? read)

end Wire

namespace Label

def fields (l : Label) : List Field :=
  textField 1 l.name ++ textField 2 l.value

def ofFields? (fs : List Field) : Option Label := do
  some ⟨← text? 1 fs, ← text? 2 fs⟩

end Label

namespace Sample

def fields (s : Sample) : List Field :=
  doubleField 1 s.value ++ intField 2 s.timestamp.toInt

def ofFields? (fs : List Field) : Option Sample := do
  some ⟨← double? 1 fs, ← int? 2 fs⟩

end Sample

namespace TimeSeries

def fields (t : TimeSeries) : List Field :=
  t.labels.map (fun l => messageField 1 l.fields) ++
    t.samples.map (fun s => messageField 2 s.fields)

def ofFields? (fs : List Field) : Option TimeSeries := do
  some ⟨← messages? Label.ofFields? 1 fs, ← messages? Sample.ofFields? 2 fs⟩

end TimeSeries

namespace FamilyInfo

def fields (f : FamilyInfo) : List Field :=
  intField 1 f.kind.toInt ++ textField 2 f.name ++ textField 4 f.help ++ textField 5 f.unit

def ofFields? (fs : List Field) : Option FamilyInfo := do
  some ⟨(← int? 1 fs).toInt32, ← text? 2 fs, ← text? 4 fs, ← text? 5 fs⟩

end FamilyInfo

namespace WriteRequest

def fields (r : WriteRequest) : List Field :=
  r.series.map (fun t => messageField 1 t.fields) ++
    r.families.map (fun f => messageField 3 f.fields)

def encode (r : WriteRequest) : Bytes :=
  Wire.encode r.fields

def ofFields? (fs : List Field) : Option WriteRequest := do
  some ⟨← messages? TimeSeries.ofFields? 1 fs, ← messages? FamilyInfo.ofFields? 3 fs⟩

def decode? (bytes : Bytes) : Option WriteRequest := do
  ofFields? (← Wire.decode? bytes)

end WriteRequest

end MetricRelay
