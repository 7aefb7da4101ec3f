import Mathlib.Algebra.Order.Ring.Nat
import Mathlib.Data.List.Induction
import MetricRelay.Text.Base64

namespace MetricRelay.Text.Base64

-- A run of letters that is a run of code points too.
theorem letter_of_run {low high : Char} {first : Nat}
    (hrun : ∀ i ≤ high.toNat - low.toNat, letter (first + i) = Char.ofNat (low.toNat + i))
    (hfirst : first + (high.toNat - low.toNat) < 64) {c : Char} (hc : low ≤ c ∧ c ≤ high) :
    first + (c.toNat - low.toNat) < 64 ∧ c = letter (first + (c.toNat - low.toNat)) := by
  have hlow : low.toNat ≤ c.toNat := UInt32.le_iff_toNat_le.mp hc.1
  have hhigh : c.toNat ≤ high.toNat := UInt32.le_iff_toNat_le.mp hc.2
  refine ⟨by omega, ?_⟩
  rw [hrun _ (by omega), Nat.add_sub_cancel' hlow, Char.ofNat_toNat]

theorem value?_letter (n : Nat) : value? (letter n) = some (n % 64) := by
  have hall : ∀ v < 64, value? (letter v) = some v := by decide +kernel
  have hmod : letter n = letter (n % 64) := by rw [letter, letter, Nat.mod_mod]
  rw [hmod, hall _ (Nat.mod_lt n (by decide))]

theorem value?_eq_some_iff {c : Char} {v : Nat} : value? c = some v ↔ v < 64 ∧ c = letter v := by
  constructor
  · intro h
    unfold value? at h
    split at h
    · rename_i hc
      obtain rfl := Option.some.inj h
      have hrun : ∀ i ≤ 'Z'.toNat - 'A'.toNat, letter (0 + i) = Char.ofNat ('A'.toNat + i) := by
        decide
      simpa using letter_of_run hrun (by decide) hc
    split at h
    · rename_i hc
      obtain rfl := Option.some.inj h
      exact letter_of_run (by decide) (by decide) hc
    split at h
    · rename_i hc
      obtain rfl := Option.some.inj h
      exact letter_of_run (by decide) (by decide) hc
    split at h
    · rename_i hc
      obtain rfl := Option.some.inj h
      exact ⟨by decide, hc⟩
    split at h
    · rename_i hc
      obtain rfl := Option.some.inj h
      exact ⟨by decide, hc⟩
    · cases h
  · rintro ⟨hv, rfl⟩
    rw [value?_letter, Nat.mod_eq_of_lt hv]

theorem letter_ne_fill (n : Nat) : letter n ≠ '=' := by
  intro h
  have hvalue := value?_letter n
  rw [h] at hvalue
  cases hvalue

-- The letters for the lowest groups of six bits, the highest of these first.
def letters : Nat → Nat → List Char
  | 0, _ => []
  | count + 1, n => letters count (n / 64) ++ [letter n]

theorem letters_two (n : Nat) : letters 2 n = [letter (n / 64), letter n] :=
  rfl

theorem letters_three (n : Nat) :
    letters 3 n = [letter (n / 4096), letter (n / 64), letter n] := by
  simp [letters, Nat.div_div_eq_div_mul]

theorem letters_four (n : Nat) :
    letters 4 n = [letter (n / 262144), letter (n / 4096), letter (n / 64), letter n] := by
  simp [letters, Nat.div_div_eq_div_mul]

theorem length_letters (count n : Nat) : (letters count n).length = count := by
  induction count generalizing n with
  | zero => rfl
  | succ count ih => rw [letters, List.length_append, ih, List.length_singleton]

theorem number?_concat (cs : List Char) (c : Char) :
    number? (cs ++ [c]) = (number? cs).bind fun n => (value? c).map (64 * n + ·) := by
  simp [number?]

-- Letters stand for the number that they write out.
theorem number?_eq_some_iff {cs : List Char} {n : Nat} :
    number? cs = some n ↔ n < 64 ^ cs.length ∧ cs = letters cs.length n := by
  induction cs using List.reverseRecOn generalizing n with
  | nil => simp [number?, letters, eq_comm]
  | append_singleton cs c ih =>
      have hlength : n < 64 ^ (cs ++ [c]).length ↔ n / 64 < 64 ^ cs.length := by
        rw [List.length_append, List.length_singleton, Nat.pow_succ,
          Nat.div_lt_iff_lt_mul (by decide)]
      have hletters : cs ++ [c] = letters (cs ++ [c]).length n ↔
          cs = letters cs.length (n / 64) ∧ c = letter n := by
        simp [letters]
      rw [hlength, hletters, ← and_assoc, ← ih, number?_concat]
      constructor
      · intro h
        obtain ⟨m, hm, hc⟩ := Option.bind_eq_some_iff.mp h
        obtain ⟨v, hv, rfl⟩ := Option.map_eq_some_iff.mp hc
        obtain ⟨hlt, rfl⟩ := value?_eq_some_iff.mp hv
        have hdiv : (64 * m + v) / 64 = m := by omega
        have hlow : (64 * m + v) % 64 = v % 64 := by omega
        exact ⟨by rw [hdiv, hm], by rw [letter, letter, hlow]⟩
      · rintro ⟨hcs, rfl⟩
        rw [hcs, Option.bind_some, value?_letter, Option.map_some, Nat.div_add_mod]

theorem number?_letters {count n : Nat} (h : n < 64 ^ count) :
    number? (letters count n) = some n := by
  rw [number?_eq_some_iff, length_letters]
  exact ⟨h, rfl⟩

theorem ofNat_eq_of_mod {n : Nat} {b : UInt8} (h : n % 256 = b.toNat) : UInt8.ofNat n = b := by
  rw [← UInt8.toNat_inj, UInt8.toNat_ofNat', h]

-- Whatever is written is read again.
theorem decode?_encode (bs : List UInt8) : decode? (encode bs) = some bs := by
  fun_induction encode bs with
  | case1 a b c rest n ih =>
      have ha := a.toNat_lt
      have hb := b.toNat_lt
      have hc := c.toNat_lt
      have hread := number?_letters (show n < 64 ^ 4 by omega)
      have hfirst : UInt8.ofNat (n / 65536) = a := ofNat_eq_of_mod (by omega)
      have hsecond : UInt8.ofNat (n / 256) = b := ofNat_eq_of_mod (by omega)
      have hthird : UInt8.ofNat n = c := ofNat_eq_of_mod (by omega)
      rw [letters_four] at hread
      rw [decode?, hread, ih]
      · simp [hfirst, hsecond, hthird]
      · simp [letter_ne_fill]
      · simp [letter_ne_fill]
  | case2 a b n =>
      have ha := a.toNat_lt
      have hb := b.toNat_lt
      have hread := number?_letters (show n < 64 ^ 3 by omega)
      have hfirst : UInt8.ofNat (n / 1024) = a := ofNat_eq_of_mod (by omega)
      have hsecond : UInt8.ofNat (n / 4) = b := ofNat_eq_of_mod (by omega)
      have hlow : n % 4 = 0 := by omega
      rw [letters_three] at hread
      rw [decode?, hread]
      · simp [hfirst, hsecond, hlow]
      · simp [letter_ne_fill]
  | case3 a =>
      have ha := a.toNat_lt
      have hfour : 16 * a.toNat / 64 = a.toNat / 4 := by omega
      have hread := number?_letters (show 16 * a.toNat < 64 ^ 2 by omega)
      rw [letters_two, hfour] at hread
      rw [decode?, hread]
      simp
  | case4 => rfl

-- Nothing else is read.
theorem eq_encode_of_decode? {t : List Char} {bs : List UInt8} (h : decode? t = some bs) :
    t = encode bs := by
  fun_induction decode? t generalizing bs with
  | case1 =>
      cases h
      rfl
  | case2 a b =>
      obtain ⟨n, hn, h⟩ := Option.bind_eq_some_iff.mp h
      obtain ⟨hlt, hletters⟩ := number?_eq_some_iff.mp hn
      replace hlt : n < 64 ^ 2 := hlt
      split at h
      · cases h
        have hbyte : (UInt8.ofNat (n / 16)).toNat = n / 16 := by
          rw [UInt8.toNat_ofNat']
          omega
        have hfour : n / 16 / 4 = n / 64 := by omega
        have hall : 16 * (n / 16) = n := by omega
        cases hletters.trans (letters_two n)
        rw [encode, hbyte, hfour, hall]
      · cases h
  | case3 a b c _ =>
      obtain ⟨n, hn, h⟩ := Option.bind_eq_some_iff.mp h
      obtain ⟨hlt, hletters⟩ := number?_eq_some_iff.mp hn
      replace hlt : n < 64 ^ 3 := hlt
      split at h
      · cases h
        have hall : 1024 * (UInt8.ofNat (n / 1024)).toNat + 4 * (UInt8.ofNat (n / 4)).toNat =
            n := by
          rw [UInt8.toNat_ofNat', UInt8.toNat_ofNat']
          omega
        cases hletters.trans (letters_three n)
        rw [encode, hall]
      · cases h
  | case4 a b c d rest _ _ ih =>
      obtain ⟨n, hn, h⟩ := Option.bind_eq_some_iff.mp h
      obtain ⟨bs', hbs', h⟩ := Option.bind_eq_some_iff.mp h
      obtain ⟨hlt, hletters⟩ := number?_eq_some_iff.mp hn
      replace hlt : n < 64 ^ 4 := hlt
      cases h
      have hall : 65536 * (UInt8.ofNat (n / 65536)).toNat + 256 * (UInt8.ofNat (n / 256)).toNat +
          (UInt8.ofNat n).toNat = n := by
        rw [UInt8.toNat_ofNat', UInt8.toNat_ofNat', UInt8.toNat_ofNat']
        omega
      cases hletters.trans (letters_four n)
      rw [ih hbs', encode, hall]
  | case5 => cases h

theorem length_encode (bs : List UInt8) : (encode bs).length = 4 * ((bs.length + 2) / 3) := by
  fun_induction encode bs with
  | case1 a b c rest n ih =>
      simp only [List.length_cons, ih]
      omega
  | case2 => simp
  | case3 => simp
  | case4 => rfl

theorem decode?_eq_some_iff {t : List Char} {bs : List UInt8} :
    decode? t = some bs ↔ t = encode bs :=
  ⟨eq_encode_of_decode?, fun h => h ▸ decode?_encode bs⟩

end MetricRelay.Text.Base64
