import MetricRelay.Proofs.Delivery.WireRoundTrip
import MetricRelay.Proofs.Snappy.Expansion
import Mathlib.Data.List.Basic

namespace MetricRelay.Snappy

open Wire

-- How the length of a copy is cut into lengths that can be written.
def cuts (length : Nat) : List Nat :=
  if 68 ≤ length then 64 :: cuts (length - 64)
  else if 64 < length then [60, length - 60]
  else [length]

theorem cuts_bounds {length : Nat} (h : 4 ≤ length) : ∀ l ∈ cuts length, 4 ≤ l ∧ l ≤ 64 := by
  fun_induction cuts length with
  | case1 length hlong ih =>
      intro l hl
      rcases List.mem_cons.mp hl with rfl | hl
      · decide
      · exact ih (by omega) l hl
  | case2 length hshort hlong =>
      intro l hl
      simp only [List.mem_cons, List.not_mem_nil, or_false] at hl
      omega
  | case3 length hlong hshort =>
      intro l hl
      rw [List.mem_singleton.mp hl]
      omega

theorem copyBytes_eq (offset length : Nat) :
    copyBytes offset length = (cuts length).flatMap (smallCopy offset) := by
  fun_induction copyBytes offset length with
  | case1 length hlong ih => rw [cuts, if_pos hlong, List.flatMap_cons, ih]
  | case2 length hshort hlong =>
      rw [cuts, if_neg hshort, if_pos hlong, List.flatMap_cons, List.flatMap_cons, List.flatMap_nil,
        List.append_nil]
  | case3 length hlong hshort =>
      rw [cuts, if_neg hlong, if_neg hshort, List.flatMap_cons, List.flatMap_nil, List.append_nil]

namespace Element

-- An element that is read back as it is: a copy is not longer than one cut.
def Short : Element → Prop
  | literal bytes => 0 < bytes.length ∧ bytes.length ≤ 65536
  | copy offset length => offset < 65536 ∧ 4 ≤ length ∧ length ≤ 64

-- The elements that an element is written as.
def pieces : Element → List Element
  | literal bytes => [literal bytes]
  | copy offset length => (cuts length).map (copy offset)

theorem short_pieces {e : Element} (h : e.Writable) : ∀ e' ∈ e.pieces, e'.Short := by
  cases e with
  | literal bytes =>
      intro e' he'
      rw [List.mem_singleton.mp he']
      exact h
  | copy offset length =>
      intro e' he'
      obtain ⟨l, hl, rfl⟩ := List.mem_map.mp he'
      exact ⟨h.1, cuts_bounds h.2 l hl⟩

theorem encode_copy {offset length : Nat} (h : length ≤ 64) :
    (copy offset length).encode = smallCopy offset length := by
  rw [encode, copyBytes, if_neg (by omega), if_neg (by omega)]

theorem encode_pieces {e : Element} (h : e.Writable) : e.pieces.flatMap encode = e.encode := by
  cases e with
  | literal bytes => exact List.append_nil _
  | copy offset length =>
      rw [pieces, encode, copyBytes_eq, List.flatMap_map]
      refine List.flatMap_congr fun l hl => ?_
      exact encode_copy (cuts_bounds h.2 l hl).2

private theorem expand_cuts {offset length : Nat} {out : Array UInt8} (hpos : 0 < offset)
    (hle : offset ≤ out.size) :
    expandFrom? out ((cuts length).map (copy offset)) = some (repeatFrom offset length out) := by
  have hcopy : ∀ (l : Nat) (out : Array UInt8), offset ≤ out.size →
      (copy offset l).expand? out = some (repeatFrom offset l out) :=
    fun l out hout => if_pos ⟨hpos, hout⟩
  fun_induction cuts length generalizing out with
  | case1 length hlong ih =>
      have hlater : offset ≤ (repeatFrom offset 64 out).size := by
        rw [size_repeatFrom]
        omega
      have hjoin : length = 64 + (length - 64) := by omega
      rw [List.map_cons, expandFrom?, List.foldlM_cons, hcopy 64 out hle, hjoin, repeatFrom_add,
        Nat.add_sub_cancel_left]
      exact ih hlater
  | case2 length hshort hlong =>
      have hlater : offset ≤ (repeatFrom offset 60 out).size := by
        rw [size_repeatFrom]
        omega
      have hjoin : length = 60 + (length - 60) := by omega
      rw [List.map_cons, List.map_cons, List.map_nil, expandFrom?, List.foldlM_cons,
        hcopy 60 out hle, hjoin, repeatFrom_add, Nat.add_sub_cancel_left]
      change expandFrom? _ [copy offset (length - 60)] = _
      rw [expandFrom?, List.foldlM_cons, hcopy _ _ hlater]
      rfl
  | case3 length hlong hshort =>
      rw [List.map_cons, List.map_nil, expandFrom?, List.foldlM_cons, hcopy length out hle]
      rfl

-- A copy in pieces gives what it gives in one.
theorem expand_pieces {e : Element} {out out' : Array UInt8} (h : e.expand? out = some out') :
    expandFrom? out e.pieces = some out' := by
  cases e with
  | literal bytes => simpa [pieces, expandFrom?] using h
  | copy offset length =>
      simp only [expand?, Option.ite_none_right_eq_some, Option.some.injEq] at h
      obtain ⟨⟨hpos, hle⟩, rfl⟩ := h
      exact expand_cuts hpos hle

private theorem toNat_ofNat {n : Nat} (h : n < 256) : (UInt8.ofNat n).toNat = n :=
  UInt8.toNat_ofNat_of_lt' h

theorem element?_literal {bytes : Bytes} (hpos : 0 < bytes.length) (hle : bytes.length ≤ 65536)
    (rest : Bytes) : element? ((literal bytes).encode ++ rest) = some (literal bytes, rest) := by
  have hlength : bytes.length - 1 + 1 = bytes.length := by omega
  have htake : take? bytes.length (bytes ++ rest) = some (bytes, rest) := take?_append rfl rest
  rw [encode, literalHead]
  generalize bytes.length - 1 = n at hlength
  split
  · rename_i hsmall
    have hkind : 4 * n % 4 = 0 := by omega
    have hdirect : 4 * n / 4 = n := by omega
    rw [List.singleton_append, List.cons_append, element?, toNat_ofNat (by omega)]
    rw [hkind, hdirect]
    simp [literal?, hsmall, hlength, htake]
  · split
    · have hone : ofLittleEndian [UInt8.ofNat n] = n := by
        rw [ofLittleEndian, ofLittleEndian, toNat_ofNat (by omega)]
        rfl
      have hwidth : take? 1 (UInt8.ofNat n :: (bytes ++ rest)) =
          some ([UInt8.ofNat n], bytes ++ rest) := take?_append (rfl : [_].length = 1) _
      simp [element?, literal?, hwidth, hone, hlength, htake]
    · have htwo : ofLittleEndian (littleEndian 2 n) = n :=
        ofLittleEndian_littleEndian (by omega)
      have hwidth := take?_append (length_littleEndian 2 n) (bytes ++ rest)
      simp [element?, literal?, hwidth, htwo, hlength, htake]

theorem element?_smallCopy {offset length : Nat} (hoffset : offset < 65536) (hpos : 4 ≤ length)
    (hle : length ≤ 64) (rest : Bytes) :
    element? (smallCopy offset length ++ rest) = some (copy offset length, rest) := by
  rw [smallCopy]
  split
  · rename_i hnear
    obtain ⟨hshort, hnear⟩ := hnear
    have hkind : (32 * (offset / 256) + 4 * (length - 4) + 1) % 4 = 1 := by omega
    have hhead : (32 * (offset / 256) + 4 * (length - 4) + 1) / 4 =
        8 * (offset / 256) + (length - 4) := by omega
    have hhigh : (8 * (offset / 256) + (length - 4)) / 8 = offset / 256 := by omega
    have hlow : (length - 4) % 8 + 4 = length := by omega
    have hwidth : take? 1 (UInt8.ofNat offset :: rest) = some ([UInt8.ofNat offset], rest) :=
      take?_append (rfl : [_].length = 1) _
    have hjoin : 256 * (offset / 256) + ofLittleEndian [UInt8.ofNat offset] = offset := by
      rw [ofLittleEndian, ofLittleEndian, UInt8.toNat_ofNat']
      omega
    simp only [List.cons_append, List.nil_append, element?]
    rw [toNat_ofNat (by omega), hhead, hkind]
    simp [copy?, hhigh, hlow, hwidth, hjoin]
  · have hkind : (4 * (length - 1) + 2) % 4 = 2 := by omega
    have hhead : (4 * (length - 1) + 2) / 4 + 1 = length := by omega
    have hwidth := take?_append (length_littleEndian 2 offset) rest
    have hjoin : ofLittleEndian (littleEndian 2 offset) = offset :=
      ofLittleEndian_littleEndian (by omega)
    simp only [List.cons_append, element?]
    rw [toNat_ofNat (by omega), hhead, hkind]
    simp [copy?, hwidth, hjoin]

-- An element is read back from what it is written as.
theorem element?_encode {e : Element} (h : e.Short) (rest : Bytes) :
    element? (e.encode ++ rest) = some (e, rest) := by
  cases e with
  | literal bytes => exact element?_literal h.1 h.2 rest
  | copy offset length =>
      rw [encode_copy h.2.2]
      exact element?_smallCopy h.1 h.2.1 h.2.2 rest

theorem encode_ne_nil {e : Element} (h : e.Short) : e.encode ≠ [] := by
  intro hnil
  have hread := element?_encode h []
  rw [hnil] at hread
  cases hread

end Element

theorem elements_encode {fuel : Nat} {es : List Element} (h : ∀ e ∈ es, e.Short)
    (hfuel : es.length ≤ fuel) : elements fuel (es.flatMap Element.encode) = some es := by
  induction es generalizing fuel with
  | nil => simp [elements]
  | cons e rest ih =>
      cases fuel with
      | zero => cases hfuel
      | succ fuel =>
          have hrest : elements fuel (rest.flatMap Element.encode) = some rest :=
            ih (fun e' he' => h e' (List.mem_cons_of_mem _ he')) (Nat.le_of_succ_le_succ hfuel)
          have he := h e List.mem_cons_self
          rw [List.flatMap_cons, elements, Element.element?_encode he]
          · simp [hrest]
          · simp [Element.encode_ne_nil he]

theorem length_le_flatMap_encode {es : List Element} (h : ∀ e ∈ es, e.Short) :
    es.length ≤ (es.flatMap Element.encode).length := by
  induction es with
  | nil => exact Nat.zero_le _
  | cons e rest ih =>
      have he := List.length_pos_iff.mpr (Element.encode_ne_nil (h e List.mem_cons_self))
      have hrest := ih fun e' he' => h e' (List.mem_cons_of_mem _ he')
      simp only [List.flatMap_cons, List.length_append, List.length_cons]
      omega

-- Elements that can be written stand for the same after they were read back, in pieces.
theorem exists_elements {es : List Element} {data : Array UInt8} (h : ∀ e ∈ es, e.Writable)
    (hdata : expandFrom? #[] es = some data) :
    ∃ ws, elements (es.flatMap Element.encode).length (es.flatMap Element.encode) = some ws ∧
      expand? ws = some data := by
  have hshort : ∀ e ∈ es.flatMap Element.pieces, e.Short := by
    intro e he
    obtain ⟨whole, hwhole, he⟩ := List.mem_flatMap.mp he
    exact Element.short_pieces (h whole hwhole) e he
  have hbytes : (es.flatMap Element.pieces).flatMap Element.encode = es.flatMap Element.encode := by
    rw [List.flatMap_assoc]
    exact List.flatMap_congr fun e he => Element.encode_pieces (h e he)
  have hexpand : ∀ out, expandFrom? out es = some data →
      expandFrom? out (es.flatMap Element.pieces) = some data := by
    clear hdata h hshort hbytes
    induction es with
    | nil => exact fun out hout => hout
    | cons e rest ih =>
        intro out hout
        rw [expandFrom?, List.foldlM_cons] at hout
        obtain ⟨next, hnext, hrest⟩ := Option.bind_eq_some_iff.mp hout
        rw [List.flatMap_cons, expandFrom?_append (Element.expand_pieces hnext)]
        exact ih next hrest
  refine ⟨es.flatMap Element.pieces, ?_, hexpand #[] hdata⟩
  rw [← hbytes]
  exact elements_encode hshort (length_le_flatMap_encode hshort)

-- Blocks lie one behind the other, and none is larger than it may be.
theorem flatten_blocks (data : Bytes) :
    (blocks data).flatten = data ∧ ∀ block ∈ blocks data, block.length ≤ blockSize := by
  fun_induction blocks data with
  | case1 => exact ⟨rfl, nofun⟩
  | case2 data hne ih =>
      refine ⟨?_, ?_⟩
      · rw [List.flatten_cons, ih.1, List.take_append_drop]
      · intro block hblock
        rcases List.mem_cons.mp hblock with rfl | hblock
        · exact List.length_take_le _ _
        · exact ih.2 block hblock

theorem expand_blocks {bs : List Bytes} (h : ∀ block ∈ bs, block.length ≤ blockSize)
    (front : Array UInt8) :
    expandFrom? front (bs.flatMap fun block => blockElements block.toArray) =
      some (front ++ bs.flatten.toArray) := by
  induction bs generalizing front with
  | nil => simp [expandFrom?]
  | cons block rest ih =>
      have hblock := (blockElements_expand (b := block.toArray)
        (h block List.mem_cons_self)).2 front
      rw [List.flatMap_cons, expandFrom?_append hblock,
        ih (fun b hb => h b (List.mem_cons_of_mem _ hb))]
      simp

-- Packed data unpacks to what it was, whatever its length.
theorem decompress?_compress (data : Bytes) : decompress? (compress data) = some data := by
  obtain ⟨hflat, hblocks⟩ := flatten_blocks data
  have hwritable : ∀ e ∈ (blocks data).flatMap fun block => blockElements block.toArray,
      e.Writable := by
    intro e he
    obtain ⟨block, hblock, he⟩ := List.mem_flatMap.mp he
    exact (blockElements_expand (b := block.toArray) (hblocks block hblock)).1 e he
  have hexpand := expand_blocks hblocks #[]
  rw [hflat, Array.empty_append] at hexpand
  obtain ⟨ws, hread, hws⟩ := exists_elements hwritable hexpand
  rw [List.flatMap_assoc] at hread
  simp only [decompress?, compress, varint?_varint]
  simp only [bind, Option.bind_some, hread, hws, List.size_toArray, if_true]

end MetricRelay.Snappy
