import MetricRelay.Snappy.Matching
import Mathlib.Algebra.Group.Nat.Defs

namespace MetricRelay.Snappy

open Wire

-- Adds what some elements stand for to what is there.
def expandFrom? (out : Array UInt8) (es : List Element) : Option (Array UInt8) :=
  es.foldlM Element.expand? out

theorem expandFrom?_append {out out' : Array UInt8} {es : List Element}
    (h : expandFrom? out es = some out') (more : List Element) :
    expandFrom? out (es ++ more) = expandFrom? out' more := by
  simp only [expandFrom?] at h ⊢
  rw [List.foldlM_append, h]
  rfl

-- Whether an element can be written: what it stands for lies within one block, and a copy is not too
-- short.
def Element.Writable : Element → Prop
  | literal bytes => 0 < bytes.length ∧ bytes.length ≤ 65536
  | copy offset length => offset < 65536 ∧ 4 ≤ length

namespace Block

variable {b : Block}

theorem byte_eq {i : Nat} (h : i < b.size) : b.byte i = b[i] := by
  simp [byte, h]

theorem agreement_le {i j : Nat} (h : j ≤ b.size) : j + b.agreement i j ≤ b.size := by
  fun_induction agreement b i j with
  | case1 i j hj heq ih =>
      have := ih hj
      omega
  | case2 => exact h
  | case3 => exact h

theorem byte_agreement {i j k : Nat} (h : k < b.agreement i j) : b.byte (i + k) = b.byte (j + k) := by
  fun_induction agreement b i j generalizing k with
  | case1 i j hj heq ih =>
      cases k with
      | zero => exact heq
      | succ k =>
          have := ih (k := k) (by omega)
          rwa [Nat.add_right_comm, Nat.add_assoc, Nat.add_right_comm j, Nat.add_assoc j] at this
  | case2 => exact absurd h (Nat.not_lt_zero _)
  | case3 => exact absurd h (Nat.not_lt_zero _)

-- The bytes of a word stand in its bits one beside the other.
theorem toNat_word (i : Nat) :
    (b.word i).toNat = (b.byte i).toNat + 2 ^ 8 * (b.byte (i + 1)).toNat +
      2 ^ 16 * (b.byte (i + 2)).toNat + 2 ^ 24 * (b.byte (i + 3)).toNat := by
  have h0 := (b.byte i).toNat_lt
  have h1 := (b.byte (i + 1)).toNat_lt
  have h2 := (b.byte (i + 2)).toNat_lt
  have h3 := (b.byte (i + 3)).toNat_lt
  have hor : ∀ low bits high : Nat, low < 2 ^ bits →
      low ||| 2 ^ bits * high = low + 2 ^ bits * high := by
    intro low bits high hlow
    rw [Nat.or_comm, ← Nat.two_pow_add_eq_or_of_lt hlow, Nat.add_comm]
  have hshift : ∀ (bits : Nat) (x : UInt8), bits ≤ 24 →
      x.toNat <<< bits % 2 ^ 32 = 2 ^ bits * x.toNat := by
    intro bits x hbits
    rw [Nat.shiftLeft_eq, Nat.mul_comm]
    refine Nat.mod_eq_of_lt ?_
    calc 2 ^ bits * x.toNat < 2 ^ bits * 2 ^ 8 := by
          exact Nat.mul_lt_mul_of_pos_left x.toNat_lt (Nat.two_pow_pos bits)
      _ ≤ 2 ^ 24 * 2 ^ 8 := Nat.mul_le_mul_right _ (Nat.pow_le_pow_right (by decide) hbits)
  simp only [word, UInt32.toNat_or, UInt32.toNat_shiftLeft, UInt8.toNat_toUInt32,
    UInt32.reduceToNat, Nat.reduceMod]
  rw [hshift 8 _ (by decide), hshift 16 _ (by decide), hshift 24 _ (by decide), hor _ 8 _ h0,
    hor _ 16 _ (by omega), hor _ 24 _ (by omega)]

-- Equal words are equal in each of their bytes.
theorem byte_eq_of_word_eq {i j k : Nat} (h : b.word i = b.word j) (hk : k < 4) :
    b.byte (i + k) = b.byte (j + k) := by
  have hword := congrArg UInt32.toNat h
  rw [toNat_word, toNat_word] at hword
  have hi0 := (b.byte i).toNat_lt
  have hi1 := (b.byte (i + 1)).toNat_lt
  have hi2 := (b.byte (i + 2)).toNat_lt
  have hj0 := (b.byte j).toNat_lt
  have hj1 := (b.byte (j + 1)).toNat_lt
  have hj2 := (b.byte (j + 2)).toNat_lt
  apply UInt8.toNat_inj.mp
  obtain rfl | rfl | rfl | rfl : k = 0 ∨ k = 1 ∨ k = 2 ∨ k = 3 := by omega
  · rw [Nat.add_zero, Nat.add_zero]
    omega
  all_goals omega

end Block

theorem size_repeatFrom (offset length : Nat) (out : Array UInt8) :
    (repeatFrom offset length out).size = out.size + length := by
  induction length generalizing out with
  | zero => rfl
  | succ length ih => rw [repeatFrom, ih, Array.size_push]; omega

theorem repeatFrom_add (offset m n : Nat) (out : Array UInt8) :
    repeatFrom offset (m + n) out = repeatFrom offset n (repeatFrom offset m out) := by
  induction m generalizing out with
  | zero => rw [Nat.zero_add]; rfl
  | succ m ih => rw [Nat.succ_add, repeatFrom, repeatFrom, ih]

-- A copy of what agrees with the block goes on with the block, also where it overlaps with itself.
theorem repeatFrom_block {b : Block} (front : Array UInt8) {source place length : Nat}
    (hsource : source < place) (hfits : place + length ≤ b.size)
    (hsame : ∀ k < length, b.byte (source + k) = b.byte (place + k)) :
    repeatFrom (place - source) length (front ++ b.extract 0 place) =
      front ++ b.extract 0 (place + length) := by
  induction length generalizing source place with
  | zero => rfl
  | succ length ih =>
      have hplace : place < b.size := by omega
      have hsize : (front ++ b.extract 0 place).size - (place - source) = front.size + source := by
        simp only [Array.size_append, Array.size_extract]
        omega
      have hlast : (front ++ b.extract 0 place)[front.size + source]?.getD 0 = b[place] := by
        have hzero := hsame 0 (Nat.succ_pos _)
        rw [Nat.add_zero, Nat.add_zero, Block.byte_eq hplace, Block.byte_eq (by omega)] at hzero
        rw [Array.getElem?_append_right (Nat.le_add_right _ _), Nat.add_sub_cancel_left,
          Array.getElem?_extract_of_lt (by omega), ← hzero]
        simp
      have hpush : (front ++ b.extract 0 place).push b[place] =
          front ++ b.extract 0 (place + 1) := by
        rw [Array.push_append, Array.push_extract_getElem hplace, Nat.zero_min]
      have hrest : ∀ k < length, b.byte (source + 1 + k) = b.byte (place + 1 + k) := by
        intro k hk
        have := hsame (k + 1) (by omega)
        rwa [Nat.add_comm k, ← Nat.add_assoc, ← Nat.add_assoc] at this
      have hlater : source + 1 < place + 1 := Nat.succ_lt_succ hsource
      have hnext := ih hlater (by omega) hrest
      rw [Nat.add_sub_add_right, Nat.add_assoc, Nat.add_comm 1] at hnext
      rw [repeatFrom, hsize, hlast, hpush, hnext]

-- What holds of a cursor on its way through a block. The words at both ends of a copy agree, and
-- lie within the block.
structure Cursor.Sane (b : Block) (c : Cursor) : Prop where
  given_le : c.given ≤ b.size
  seeking : ∀ h passed, c.phase = .seeking h passed → c.given ≤ c.place
  copying : ∀ source, c.phase = .copying source →
    c.given = c.place ∧ source < c.place ∧ c.place + 15 ≤ b.size ∧ b.word source = b.word c.place

section

variable {b : Block}

theorem literalBetween_expand (front : Array UInt8) {start stop : Nat} (h : start ≤ stop) :
    expandFrom? (front ++ b.extract 0 start) (literalBetween b start stop) =
      some (front ++ b.extract 0 stop) := by
  unfold literalBetween
  split
  · have hjoin : b.extract 0 start ++ b.extract start stop = b.extract 0 stop := by
      simp [Array.extract_append_extract, Nat.max_eq_right h]
    simp only [expandFrom?, Element.expand?, Block.slice, List.foldlM_cons, List.foldlM_nil,
      Array.toArray_toList, Array.append_assoc, hjoin]
    rfl
  · have heq : start = stop := by omega
    rw [heq]
    rfl

theorem literalBetween_writable (hsize : b.size ≤ 65536) {start stop : Nat} (hstop : stop ≤ b.size) :
    ∀ e ∈ literalBetween b start stop, e.Writable := by
  intro e he
  unfold literalBetween at he
  split at he
  · rw [List.mem_singleton.mp he]
    simp only [Element.Writable, Block.slice, Array.length_toList, Array.size_extract]
    omega
  · cases he

-- What was not given by the end of a block follows as a literal.
theorem literalBetween_rest (hsize : b.size ≤ 65536) {given : Nat} (h : given ≤ b.size) :
    (∀ e ∈ literalBetween b given b.size, e.Writable) ∧
      ∀ front : Array UInt8, expandFrom? (front ++ b.extract 0 given)
        (literalBetween b given b.size) = some (front ++ b) := by
  refine ⟨literalBetween_writable hsize (Nat.le_refl _), fun front => ?_⟩
  rw [literalBetween_expand front h, Array.extract_size]

-- The length of the copy that is made at a place of data that agrees with what came at `source`.
def copyLength (b : Block) (source place : Nat) : Nat :=
  4 + b.agreement (source + 4) (place + 4)

theorem copy_expand (front : Array UInt8) {source place : Nat} (hsource : source < place)
    (hplace : place + 4 ≤ b.size) (hword : b.word source = b.word place) :
    place + copyLength b source place ≤ b.size ∧
      expandFrom? (front ++ b.extract 0 place) [.copy (place - source) (copyLength b source place)] =
        some (front ++ b.extract 0 (place + copyLength b source place)) := by
  have hfits : place + copyLength b source place ≤ b.size := by
    have := Block.agreement_le (b := b) (i := source + 4) hplace
    unfold copyLength
    omega
  refine ⟨hfits, ?_⟩
  have hsame : ∀ k < copyLength b source place, b.byte (source + k) = b.byte (place + k) := by
    intro k hk
    by_cases hfirst : k < 4
    · exact Block.byte_eq_of_word_eq hword hfirst
    · have hrest := Block.byte_agreement (b := b) (i := source + 4) (j := place + 4) (k := k - 4)
        (by unfold copyLength at hk; omega)
      rwa [Nat.add_assoc, Nat.add_assoc, Nat.add_sub_cancel' (by omega)] at hrest
  have hstart : 0 < place - source ∧ place - source ≤ (front ++ b.extract 0 place).size := by
    simp only [Array.size_append, Array.size_extract]
    omega
  simp only [expandFrom?, List.foldlM_cons, List.foldlM_nil, Element.expand?, hstart, and_self,
    if_true, repeatFrom_block front hsource hfits hsame]
  rfl

-- Where a cursor is after one place, what it gave on the way, and what that stands for.
theorem Cursor.Sane.step {c : Cursor} (h : c.Sane b) (hsize : b.size ≤ 65536) (bits : Nat) :
    (c.step b bits).2.Sane b ∧ (∀ e ∈ (c.step b bits).1, e.Writable) ∧
      ∀ front : Array UInt8, expandFrom? (front ++ b.extract 0 c.given) (c.step b bits).1 =
        some (front ++ b.extract 0 (c.step b bits).2.given) := by
  obtain ⟨places, given, place, phase⟩ := c
  have hgiven : given ≤ b.size := h.given_le
  cases phase with
  | done => exact ⟨h, by simp [Cursor.step], fun front => rfl⟩
  | seeking hash passed =>
      have hle : given ≤ place := h.seeking hash passed rfl
      simp only [Cursor.step]
      split
      · exact ⟨⟨hgiven, nofun, nofun⟩, nofun, fun front => rfl⟩
      · rename_i hnext
        have hroom : place + 15 ≤ b.size := by
          unfold limit at hnext
          omega
        split
        · rename_i hmatch
          simp only [Bool.and_eq_true, decide_eq_true_eq, beq_iff_eq] at hmatch
          have hplace : place ≤ b.size := Nat.le_trans (Nat.le_add_right place 15) hroom
          refine ⟨⟨hplace, nofun, ?_⟩, literalBetween_writable hsize hplace,
            fun front => literalBetween_expand front hle⟩
          rintro source ⟨⟩
          exact ⟨rfl, hmatch.1, hroom, hmatch.2⟩
        · refine ⟨⟨hgiven, ?_, nofun⟩, nofun, fun front => rfl⟩
          intro _ _ _
          exact Nat.le_trans hle (Nat.le_add_right _ _)
  | copying source =>
      have hends : given = place ∧ source < place ∧ place + 15 ≤ b.size ∧
          b.word source = b.word place := h.copying source rfl
      obtain ⟨rfl, hsource, hroom, hword⟩ := hends
      have hcopy := fun front => copy_expand (b := b) front hsource (by omega) hword
      have hstop := (hcopy #[]).1
      have hwritable : ∀ e ∈ [Element.copy (given - source) (copyLength b source given)],
          e.Writable := by
        intro e he
        rw [List.mem_singleton.mp he]
        exact ⟨by omega, Nat.le_add_right 4 _⟩
      simp only [Cursor.step]
      split
      · exact ⟨⟨hstop, nofun, nofun⟩, hwritable, fun front => (hcopy front).2⟩
      · rename_i hlimit
        split
        · rename_i hmatch
          simp only [Bool.and_eq_true, decide_eq_true_eq, beq_iff_eq] at hmatch
          have hroom' : given + copyLength b source given + 15 ≤ b.size := by
            unfold limit at hlimit
            unfold copyLength
            omega
          refine ⟨⟨hstop, nofun, ?_⟩, hwritable, fun front => (hcopy front).2⟩
          rintro source' ⟨⟩
          exact ⟨rfl, hmatch.1, hroom', hmatch.2⟩
        · refine ⟨⟨hstop, ?_, nofun⟩, hwritable, fun front => (hcopy front).2⟩
          intro _ _ _
          exact Nat.le_succ _

-- A block comes back from the elements that stand for it, behind all that came before.
theorem Cursor.Sane.run {c : Cursor} (h : c.Sane b) (hsize : b.size ≤ 65536) (bits fuel : Nat) :
    (∀ e ∈ Cursor.run b bits fuel c, e.Writable) ∧
      ∀ front : Array UInt8, expandFrom? (front ++ b.extract 0 c.given) (Cursor.run b bits fuel c) =
        some (front ++ b) := by
  induction fuel generalizing c with
  | zero => exact literalBetween_rest hsize h.given_le
  | succ fuel ih =>
      rw [Cursor.run]
      split
      · exact literalBetween_rest hsize h.given_le
      · obtain ⟨hsane, hwritable, hexpand⟩ := h.step hsize bits
        have hmore := ih hsane
        refine ⟨fun e he => ?_, fun front => ?_⟩
        · rcases List.mem_append.mp he with he | he
          · exact hwritable e he
          · exact hmore.1 e he
        · rw [expandFrom?_append (hexpand front)]
          exact hmore.2 front

theorem blockElements_expand (hsize : b.size ≤ 65536) :
    (∀ e ∈ blockElements b, e.Writable) ∧
      ∀ front : Array UInt8, expandFrom? front (blockElements b) = some (front ++ b) := by
  have hempty : ∀ front : Array UInt8, front ++ b.extract 0 0 = front := by simp
  unfold blockElements
  split
  · have hrest := literalBetween_rest hsize (Nat.zero_le b.size)
    simpa only [hempty] using hrest
  · have hsane : Cursor.Sane b ⟨Array.replicate (Nat.pow 2 (hashBits b.size 6)) 0, 0, 1,
        .seeking (hash (hashBits b.size 6) (b.word 1)) 0⟩ :=
      ⟨Nat.zero_le _, fun _ _ _ => Nat.zero_le _, nofun⟩
    have hrun := hsane.run hsize (hashBits b.size 6) (2 * b.size)
    simpa only [hempty] using hrun

end

end MetricRelay.Snappy
