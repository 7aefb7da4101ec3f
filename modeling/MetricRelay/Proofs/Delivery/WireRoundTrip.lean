import MetricRelay.Delivery.WriteRequest
import Mathlib.Algebra.Group.Nat.Defs

namespace MetricRelay

namespace Text

theorem ofBytes?_bytes (s : String) : ofBytes? (bytes s) = some s := by
  unfold ofBytes? bytes String.fromUTF8?
  exact dif_pos s.isValidUTF8

theorem bytes_inj {s t : String} : bytes s = bytes t ↔ s = t := by
  refine ⟨fun h => ?_, congrArg bytes⟩
  have hread : ofBytes? (bytes s) = ofBytes? (bytes t) := by rw [h]
  rwa [ofBytes?_bytes, ofBytes?_bytes, Option.some.injEq] at hread

end Text

namespace Wire

theorem varint?_varint (n : Nat) (rest : Bytes) : varint? (varint n ++ rest) = some (n, rest) := by
  fun_induction varint n with
  | case1 n h =>
      have hlow : UInt8.ofNat n < 128 := by
        rw [UInt8.lt_iff_toNat_lt, UInt8.toNat_ofNat_of_lt' (Nat.lt_trans h (by decide))]
        exact h
      simp only [List.cons_append, List.nil_append, varint?, hlow, if_true]
      rw [UInt8.toNat_ofNat_of_lt' (Nat.lt_trans h (by decide))]
  | case2 n h ih =>
      have hfits : n % 128 + 128 < UInt8.size := by
        have : UInt8.size = 256 := rfl
        omega
      have hhigh : ¬UInt8.ofNat (n % 128 + 128) < 128 := by
        rw [UInt8.lt_iff_toNat_lt, UInt8.toNat_ofNat_of_lt' hfits]
        exact Nat.not_lt.mpr (Nat.le_add_left 128 _)
      simp only [List.cons_append, varint?, hhigh, if_false, ih, Option.map_some]
      rw [UInt8.toNat_ofNat_of_lt' hfits]
      congr 2
      omega

theorem varint_ne_nil (n : Nat) : varint n ≠ [] := by
  unfold varint
  split <;> exact List.cons_ne_nil _ _

@[simp] theorem length_littleEndian (width n : Nat) : (littleEndian width n).length = width := by
  induction width generalizing n with
  | zero => rfl
  | succ width ih => rw [littleEndian, List.length_cons, ih]

theorem ofLittleEndian_littleEndian {width n : Nat} (h : n < 256 ^ width) :
    ofLittleEndian (littleEndian width n) = n := by
  induction width generalizing n with
  | zero => exact (Nat.lt_one_iff.mp h).symm
  | succ width ih =>
      rw [Nat.pow_succ, Nat.mul_comm] at h
      rw [littleEndian, ofLittleEndian, ih (Nat.div_lt_of_lt_mul h), UInt8.toNat_ofNat']
      omega

theorem take?_append {n : Nat} {front : Bytes} (h : front.length = n) (rest : Bytes) :
    take? n (front ++ rest) = some (front, rest) := by
  subst h
  simp [take?]

theorem value?_encode (v : Value) (rest : Bytes) :
    value? v.mark (v.encode ++ rest) = some (v, rest) := by
  cases v with
  | number n =>
      have hfits : n.toNat < UInt64.size := n.toNat_lt
      simp [value?, Value.mark, Value.encode, varint?_varint, hfits]
  | double bits =>
      have hfits : bits.toNat < 256 ^ 8 := bits.toNat_lt
      simp [value?, Value.mark, Value.encode, take?_append (length_littleEndian 8 _),
        ofLittleEndian_littleEndian hfits]
  | block bytes =>
      simp [value?, Value.mark, Value.encode, List.append_assoc, varint?_varint,
        take?_append (rfl : bytes.length = bytes.length)]
  | single bits =>
      have hfits : bits.toNat < 256 ^ 4 := bits.toNat_lt
      simp [value?, Value.mark, Value.encode, take?_append (length_littleEndian 4 _),
        ofLittleEndian_littleEndian hfits]

theorem Value.mark_lt (v : Value) : v.mark < 8 := by
  cases v <;> simp [mark]

theorem field?_encode (f : Field) (rest : Bytes) :
    field? (f.encode ++ rest) = some (f, rest) := by
  have hmark := f.value.mark_lt
  have hlow : (8 * f.tag + f.value.mark) % 8 = f.value.mark := by omega
  have hhigh : (8 * f.tag + f.value.mark) / 8 = f.tag := by omega
  simp [field?, Field.encode, List.append_assoc, varint?_varint, hlow, hhigh, value?_encode]

theorem Field.encode_ne_nil (f : Field) : f.encode ≠ [] := by
  simp [Field.encode, varint_ne_nil]

theorem fields_encode {fuel : Nat} {fs : List Field} (h : fs.length ≤ fuel) :
    fields fuel (encode fs) = some fs := by
  induction fs generalizing fuel with
  | nil => simp [encode, fields]
  | cons f rest ih =>
      cases fuel with
      | zero => cases h
      | succ fuel =>
          have hrest : fields fuel (encode rest) = some rest := ih (Nat.le_of_succ_le_succ h)
          have hsplit : encode (f :: rest) = f.encode ++ encode rest := rfl
          rw [fields, hsplit, field?_encode]
          · simp [hrest]
          · simp [hsplit, f.encode_ne_nil]

theorem length_le_encode (fs : List Field) : fs.length ≤ (encode fs).length := by
  induction fs with
  | nil => exact Nat.zero_le _
  | cons f rest ih =>
      have hf := List.length_pos_iff.mpr f.encode_ne_nil
      simp only [encode, List.flatMap_cons, List.length_append, List.length_cons] at ih ⊢
      omega

-- Fields are read back as they were written.
theorem decode?_encode (fs : List Field) : decode? (encode fs) = some fs :=
  fields_encode (length_le_encode fs)

theorem valuesOf_append (tag : Nat) (fs gs : List Field) :
    valuesOf tag (fs ++ gs) = valuesOf tag fs ++ valuesOf tag gs :=
  List.filterMap_append

-- Fields with other numbers do not count, nor do those that are left out.
private theorem valuesOf_unless (tag tag' : Nat) (v : Value) (absent : Prop) [Decidable absent] :
    valuesOf tag (if absent then [] else [⟨tag', v⟩]) =
      if tag' = tag then (if absent then [] else [v]) else [] := by
  by_cases habsent : absent
  · simp [habsent, valuesOf]
  · by_cases htag : tag' = tag <;> simp [habsent, htag, valuesOf]

theorem valuesOf_textField (tag tag' : Nat) (s : String) :
    valuesOf tag (textField tag' s) =
      if tag' = tag then (if s = "" then [] else [.block (Text.bytes s)]) else [] :=
  valuesOf_unless ..

theorem valuesOf_intField (tag tag' : Nat) (n : Int) :
    valuesOf tag (intField tag' n) =
      if tag' = tag then (if n = 0 then [] else [.number (Int64.ofInt n).toUInt64]) else [] :=
  valuesOf_unless ..

theorem valuesOf_doubleField (tag tag' : Nat) (bits : UInt64) :
    valuesOf tag (doubleField tag' bits) =
      if tag' = tag then
        (if bits = 0 ∨ bits = 0x8000000000000000 then [] else [.double bits])
      else [] :=
  valuesOf_unless ..

theorem valuesOf_messages {α : Type} (tag tag' : Nat) (write : α → List Field) (xs : List α) :
    valuesOf tag (xs.map fun x => messageField tag' (write x)) =
      if tag' = tag then xs.map fun x => .block (encode (write x)) else [] := by
  induction xs with
  | nil => simp [valuesOf]
  | cons x rest ih => by_cases htag : tag' = tag <;> simp_all [valuesOf, messageField]

section

variable {tag : Nat} {fs : List Field}

-- What is left out reads as the empty text.
theorem text?_eq {s : String}
    (h : valuesOf tag fs = if s = "" then [] else [.block (Text.bytes s)]) :
    text? tag fs = some s := by
  unfold text?
  rw [h]
  by_cases hs : s = ""
  · simp [hs]
  · simp [hs, Text.ofBytes?_bytes]

theorem int?_eq {n : Int}
    (h : valuesOf tag fs = if n = 0 then [] else [.number (Int64.ofInt n).toUInt64]) :
    int? tag fs = some (Int64.ofInt n) := by
  unfold int?
  rw [h]
  by_cases hn : n = 0 <;> simp [hn]

-- Both zeros are left out, and what is left out reads as the one without a sign.
theorem double?_eq {bits : UInt64}
    (h : valuesOf tag fs =
      if bits = 0 ∨ bits = 0x8000000000000000 then [] else [.double bits]) :
    double? tag fs = some (if bits = 0x8000000000000000 then 0 else bits) := by
  unfold double?
  rw [h]
  by_cases hzero : bits = 0
  · simp [hzero]
  · by_cases hsign : bits = 0x8000000000000000 <;> simp [hzero, hsign]

variable {α β : Type} {write : α → List Field} {read : List Field → Option β} {g : α → β}

-- Messages within a message come back in their order, each as its own fields are read.
theorem messages?_eq {xs : List α}
    (h : valuesOf tag fs = xs.map fun x => .block (encode (write x)))
    (hread : ∀ x, read (write x) = some (g x)) : messages? read tag fs = some (xs.map g) := by
  rw [messages?, h]
  clear h
  induction xs with
  | nil => rfl
  | cons x rest ih => simp [List.mapM_cons, message?, decode?_encode, hread, ih]

end

end Wire

open Wire

theorem Label.ofFields?_fields (l : Label) : ofFields? l.fields = some l := by
  have hname : text? 1 l.fields = some l.name :=
    text?_eq (by simp [fields, valuesOf_append, valuesOf_textField])
  have hvalue : text? 2 l.fields = some l.value :=
    text?_eq (by simp [fields, valuesOf_append, valuesOf_textField])
  simp [ofFields?, hname, hvalue]

-- The sample as it is read back: with the zero that has no sign in place of the other.
def Sample.unsigned (s : Sample) : Sample :=
  { s with value := if s.value = 0x8000000000000000 then 0 else s.value }

theorem Sample.ofFields?_fields (s : Sample) : ofFields? s.fields = some s.unsigned := by
  have hvalue : double? 1 s.fields = some s.unsigned.value :=
    double?_eq (by simp [fields, valuesOf_append, valuesOf_doubleField, valuesOf_intField])
  have htime : int? 2 s.fields = some (Int64.ofInt s.timestamp.toInt) :=
    int?_eq (by simp [fields, valuesOf_append, valuesOf_doubleField, valuesOf_intField])
  simp [ofFields?, hvalue, htime, unsigned]

def TimeSeries.unsigned (t : TimeSeries) : TimeSeries :=
  { t with samples := t.samples.map Sample.unsigned }

theorem TimeSeries.ofFields?_fields (t : TimeSeries) : ofFields? t.fields = some t.unsigned := by
  have hlabels : messages? Label.ofFields? 1 t.fields = some (t.labels.map id) :=
    messages?_eq (by simp [fields, valuesOf_append, valuesOf_messages]) Label.ofFields?_fields
  have hsamples : messages? Sample.ofFields? 2 t.fields = some (t.samples.map Sample.unsigned) :=
    messages?_eq (by simp [fields, valuesOf_append, valuesOf_messages]) Sample.ofFields?_fields
  simp [ofFields?, hlabels, hsamples, unsigned]

theorem FamilyInfo.ofFields?_fields (f : FamilyInfo) : ofFields? f.fields = some f := by
  have hkind : int? 1 f.fields = some (Int64.ofInt f.kind.toInt) :=
    int?_eq (by simp [fields, valuesOf_append, valuesOf_textField, valuesOf_intField])
  have hname : text? 2 f.fields = some f.name :=
    text?_eq (by simp [fields, valuesOf_append, valuesOf_textField, valuesOf_intField])
  have hhelp : text? 4 f.fields = some f.help :=
    text?_eq (by simp [fields, valuesOf_append, valuesOf_textField, valuesOf_intField])
  have hunit : text? 5 f.fields = some f.unit :=
    text?_eq (by simp [fields, valuesOf_append, valuesOf_textField, valuesOf_intField])
  simp [ofFields?, hkind, hname, hhelp, hunit]

namespace WriteRequest

-- The request as it is read back.
def unsigned (r : WriteRequest) : WriteRequest :=
  { r with series := r.series.map TimeSeries.unsigned }

theorem ofFields?_fields (r : WriteRequest) : ofFields? r.fields = some r.unsigned := by
  have hseries : messages? TimeSeries.ofFields? 1 r.fields =
      some (r.series.map TimeSeries.unsigned) :=
    messages?_eq (by simp [fields, valuesOf_append, valuesOf_messages]) TimeSeries.ofFields?_fields
  have hfamilies : messages? FamilyInfo.ofFields? 3 r.fields = some (r.families.map id) :=
    messages?_eq (by simp [fields, valuesOf_append, valuesOf_messages]) FamilyInfo.ofFields?_fields
  simp [ofFields?, hseries, hfamilies, unsigned]

-- A request is read back as it was written, but for the sign of zeros among its samples.
theorem decode?_encode (r : WriteRequest) : decode? r.encode = some r.unsigned := by
  simp [decode?, encode, Wire.decode?_encode, ofFields?_fields]

end WriteRequest

end MetricRelay
