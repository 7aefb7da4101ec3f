import MetricRelay.Text.Blank
import MetricRelay.Text.Numeral
import Mathlib.Algebra.Group.Nat.Defs

namespace MetricRelay.Numeral

variable {base : Nat}

-- The sign for a digit stands for it in every base that has it.
theorem digit?_symbol (hbase : base ≤ 36) {d : Nat} (hd : d < base) :
    digit? base (symbol d) = some d := by
  have hdecimal : ∀ d < 10, ('0' ≤ symbol d ∧ symbol d ≤ '9') ∧ (symbol d).toNat = d + 48 := by
    decide
  have hletter : ∀ d < 36, 10 ≤ d → ¬('0' ≤ symbol d ∧ symbol d ≤ '9') ∧
      ('a' ≤ symbol d ∧ symbol d ≤ 'z') ∧ (symbol d).toNat = d + 87 := by
    decide
  by_cases hsmall : d < 10
  · obtain ⟨hrange, hcode⟩ := hdecimal d hsmall
    simp only [digit?, if_pos hrange, hcode, Nat.add_sub_cancel, if_pos hd]
  · obtain ⟨hnone, hrange, hcode⟩ := hletter d (Nat.lt_of_lt_of_le hd hbase) (Nat.le_of_not_lt hsmall)
    simp only [digit?, if_neg hnone, if_pos hrange, hcode, Nat.add_sub_cancel, if_pos hd]

theorem isDigit_symbol {d : Nat} (hd : d < 10) : isDigit (symbol d) = true := by
  have hall : ∀ d < 10, isDigit (symbol d) = true := by decide
  exact hall d hd

theorem continue?_append (sofar : Nat) (cs more : List Char) :
    continue? base sofar (cs ++ more) =
      (continue? base sofar cs).bind fun n => continue? base n more := by
  induction cs generalizing sofar with
  | nil => rfl
  | cons c rest ih =>
      rw [List.cons_append, continue?, continue?]
      cases digit? base c with
      | none => rfl
      | some d => exact ih (base * sofar + d)

theorem digitsUp_lt (hbase : 0 < base) {fuel n : Nat} : ∀ d ∈ digitsUp base fuel n, d < base := by
  induction fuel generalizing n with
  | zero => nofun
  | succ fuel ih =>
      intro d hd
      rw [digitsUp] at hd
      split at hd
      · rename_i hn
        rwa [List.mem_singleton.mp hd]
      · rcases List.mem_cons.mp hd with rfl | hd
        · exact Nat.mod_lt n hbase
        · exact ih d hd

theorem digitsUp_ne_nil (fuel n : Nat) : digitsUp base (fuel + 1) n ≠ [] := by
  rw [digitsUp]
  split <;> exact List.cons_ne_nil _ _

-- The digits, the greatest first, go on with a number as its digits do.
theorem continue?_digitsUp (htwo : 2 ≤ base) (hbase : base ≤ 36) {fuel n : Nat} (hn : n < fuel) :
    continue? base 0 ((digitsUp base fuel n).reverse.map symbol) = some n := by
  induction fuel generalizing n with
  | zero => exact absurd hn (Nat.not_lt_zero n)
  | succ fuel ih =>
      rw [digitsUp]
      split
      · rename_i hsmall
        simp [continue?, digit?_symbol hbase hsmall]
      · rename_i hlarge
        have hdiv : n / base < fuel := by
          have := Nat.div_lt_self (Nat.lt_of_lt_of_le (by omega) (Nat.le_of_not_lt hlarge)) htwo
          omega
        have hmod : n % base < base := Nat.mod_lt n (by omega)
        rw [List.reverse_cons, List.map_append, continue?_append, ih hdiv]
        simp [continue?, digit?_symbol hbase hmod, Nat.div_add_mod]

theorem length_digitsUp {width fuel n : Nat} (hn : n < base ^ (width + 1)) :
    (digitsUp base fuel n).length ≤ width + 1 := by
  induction fuel generalizing width n with
  | zero => exact Nat.zero_le _
  | succ fuel ih =>
      rw [digitsUp]
      split
      · exact Nat.succ_le_succ (Nat.zero_le width)
      · rename_i hlarge
        cases width with
        | zero => exact absurd (by simpa using hn) hlarge
        | succ width =>
            have hdiv : n / base < base ^ (width + 1) := by
              refine Nat.div_lt_of_lt_mul ?_
              rwa [Nat.pow_succ, Nat.mul_comm] at hn
            exact Nat.succ_le_succ (ih hdiv)

theorem write_ne_nil (base n : Nat) : write base n ≠ [] := by
  simpa [write] using digitsUp_ne_nil n n

theorem continue?_write (htwo : 2 ≤ base) (hbase : base ≤ 36) (n : Nat) :
    continue? base 0 (write base n) = some n :=
  continue?_digitsUp htwo hbase (Nat.lt_succ_self n)

-- A text without digits stands for nothing, so that reading is going on with zero for all others.
theorem read?_eq {cs : List Char} (h : cs ≠ []) : read? base cs = continue? base 0 cs := by
  cases cs with
  | nil => exact absurd rfl h
  | cons c rest => rfl

theorem read?_write (htwo : 2 ≤ base) (hbase : base ≤ 36) (n : Nat) :
    read? base (write base n) = some n := by
  rw [read?_eq (write_ne_nil base n), continue?_write htwo hbase]

theorem continue?_zeros (hbase : base ≤ 36) (hpos : 0 < base) (count : Nat) :
    continue? base 0 (List.replicate count '0') = some 0 := by
  induction count with
  | zero => rfl
  | succ count ih =>
      have hzero : digit? base '0' = some 0 := digit?_symbol hbase hpos
      simpa [List.replicate_succ, continue?, hzero] using ih

-- Zeros on the left change nothing.
theorem read?_padded (htwo : 2 ≤ base) (hbase : base ≤ 36) (width n : Nat) :
    read? base (padded base width n) = some n := by
  have hne : padded base width n ≠ [] := by simp [padded, write_ne_nil]
  rw [read?_eq hne, padded, continue?_append, continue?_zeros hbase (by omega)]
  exact continue?_write htwo hbase n

theorem length_padded {width n : Nat} (hn : n < base ^ (width + 1)) :
    (padded base (width + 1) n).length = width + 1 := by
  have hle : (write base n).length ≤ width + 1 := by
    have hle : (digitsUp base (n + 1) n).length ≤ width + 1 := length_digitsUp hn
    simpa [write] using hle
  simp only [padded, List.length_append, List.length_replicate]
  omega

-- A digit written by `write` or `padded` is one of the base.
theorem exists_of_mem_padded (hpos : 0 < base) {width n : Nat} {c : Char}
    (h : c ∈ padded base width n) : ∃ d < base, symbol d = c := by
  rcases List.mem_append.mp h with h | h
  · exact ⟨0, hpos, (List.eq_of_mem_replicate h).symm⟩
  · obtain ⟨d, hd, rfl⟩ := List.mem_map.mp h
    exact ⟨d, digitsUp_lt hpos d (List.mem_reverse.mp hd), rfl⟩

-- A text in which the letters at some places are capitals.
def withCapitals (capital : Nat → Bool) (cs : List Char) : List Char :=
  cs.mapIdx fun place c => if capital place then c.toUpper else c

theorem digit?_toUpper (hbase : base ≤ 36) {d : Nat} (hd : d < base) :
    digit? base (symbol d).toUpper = some d := by
  have hdecimal : ∀ d < 10, (symbol d).toUpper = symbol d := by decide
  have hletter : ∀ d < 36, 10 ≤ d → ¬('0' ≤ (symbol d).toUpper ∧ (symbol d).toUpper ≤ '9') ∧
      ¬('a' ≤ (symbol d).toUpper ∧ (symbol d).toUpper ≤ 'z') ∧
      ('A' ≤ (symbol d).toUpper ∧ (symbol d).toUpper ≤ 'Z') ∧
      (symbol d).toUpper.toNat = d + 55 := by
    decide
  by_cases hsmall : d < 10
  · rw [hdecimal d hsmall, digit?_symbol hbase hd]
  · obtain ⟨hdigit, hlower, hupper, hcode⟩ :=
      hletter d (Nat.lt_of_lt_of_le hd hbase) (Nat.le_of_not_lt hsmall)
    simp only [digit?, if_neg hdigit, if_neg hlower, if_pos hupper, hcode, Nat.add_sub_cancel,
      if_pos hd]

-- Capitals stand for the same digits.
theorem continue?_withCapitals (hbase : base ≤ 36) (capital : Nat → Bool) (sofar : Nat)
    {cs : List Char} (hcs : ∀ c ∈ cs, ∃ d < base, symbol d = c) :
    continue? base sofar (withCapitals capital cs) = continue? base sofar cs := by
  induction cs generalizing capital sofar with
  | nil => rfl
  | cons c cs ih =>
      obtain ⟨⟨d, hd, rfl⟩, hrest⟩ := List.forall_mem_cons.mp hcs
      have hdigit : digit? base (if capital 0 then (symbol d).toUpper else symbol d) =
          digit? base (symbol d) := by
        split
        · rw [digit?_toUpper hbase hd, digit?_symbol hbase hd]
        · rfl
      have htail := fun n => ih (fun place => capital (place + 1)) n hrest
      rw [withCapitals] at htail
      rw [withCapitals, List.mapIdx_cons, continue?, continue?, hdigit, digit?_symbol hbase hd]
      exact htail _

theorem read?_withCapitals (htwo : 2 ≤ base) (hbase : base ≤ 36) (capital : Nat → Bool)
    (width n : Nat) : read? base (withCapitals capital (padded base width n)) = some n := by
  have hne : padded base width n ≠ [] := by simp [padded, write_ne_nil]
  have hcapitals : withCapitals capital (padded base width n) ≠ [] := by
    simpa [withCapitals] using hne
  rw [read?_eq hcapitals, continue?_withCapitals hbase capital 0
    fun c => exists_of_mem_padded (by omega), ← read?_eq hne, read?_padded htwo hbase]

theorem exists_of_mem_withCapitals {capital : Nat → Bool} {cs : List Char} {c : Char}
    (h : c ∈ withCapitals capital cs) : ∃ c' ∈ cs, c = c' ∨ c = c'.toUpper := by
  obtain ⟨place, hplace, rfl⟩ := List.mem_mapIdx.mp h
  refine ⟨cs[place], List.getElem_mem hplace, ?_⟩
  split
  · exact .inr rfl
  · exact .inl rfl

theorem count?_of_read? {most n : Nat} {cs : List Char} (hsign : cs.head? ≠ some '+')
    (hread : read? base cs = some n) (hn : n ≤ most) : count? base most cs = some n := by
  unfold count?
  split
  · exact absurd rfl hsign
  · rw [hread]
    exact if_pos hn

theorem isDigit_of_mem_decimal {n : Nat} {c : Char} (h : c ∈ decimal n) : isDigit c = true := by
  obtain ⟨d, hd, rfl⟩ := List.mem_map.mp h
  exact isDigit_symbol (digitsUp_lt (by decide) d (List.mem_reverse.mp hd))

theorem isDigit_of_mem_padded {width n : Nat} {c : Char} (h : c ∈ padded 10 width n) :
    isDigit c = true := by
  rcases List.mem_append.mp h with h | h
  · rw [List.eq_of_mem_replicate h]
    rfl
  · exact isDigit_of_mem_decimal h

theorem isBlank_of_isDigit {c : Char} (h : isDigit c = true) : Text.isBlank c = false := by
  have hrange : 48 ≤ c.toNat ∧ c.toNat ≤ 57 := by
    simpa [isDigit, Char.le_def, UInt32.le_iff_toNat_le] using h
  simp only [Text.isBlank, Text.blankRanges, List.any_cons, List.any_nil, Bool.or_false,
    Bool.or_eq_false_iff, Bool.and_eq_false_iff, decide_eq_false_iff_not]
  omega

theorem count?_decimal {most n : Nat} (hn : n ≤ most) : count? 10 most (decimal n) = some n := by
  refine count?_of_read? (fun hsign => ?_) (read?_write (by decide) (by decide) n) hn
  exact absurd (isDigit_of_mem_decimal (List.mem_of_head? hsign)) (by decide)

theorem digitsUp_getLast? (htwo : 2 ≤ base) {fuel n : Nat} (hn : n < fuel) (hpos : 0 < n) :
    (digitsUp base fuel n).getLast? ≠ some 0 := by
  induction fuel generalizing n with
  | zero => exact absurd hn (Nat.not_lt_zero n)
  | succ fuel ih =>
      rw [digitsUp]
      split
      · intro hlast
        cases hlast
        exact Nat.lt_irrefl 0 hpos
      · rename_i hlarge
        have hlt : n / base < n := Nat.div_lt_self hpos htwo
        have hdiv : 0 < n / base := Nat.div_pos (Nat.le_of_not_lt hlarge) (by omega)
        cases fuel with
        | zero => omega
        | succ fuel =>
            rw [List.getLast?_cons_of_ne_nil (digitsUp_ne_nil fuel _)]
            exact ih (by omega) hdiv

-- Only zero is written with a zero in front.
theorem decimal_zero_front {n : Nat} {cs : List Char} (h : decimal n = '0' :: cs) : cs = [] := by
  rcases Nat.eq_zero_or_pos n with rfl | hpos
  · cases h
    rfl
  · have hfront : ((digitsUp 10 (n + 1) n).getLast?).map symbol = some '0' := by
      have hhead := congrArg List.head? h
      rwa [decimal, write, List.head?_map, List.head?_reverse] at hhead
    obtain ⟨d, hlast, hsymbol⟩ := Option.map_eq_some_iff.mp hfront
    have honly : ∀ d < 10, symbol d = '0' → d = 0 := by decide
    have hzero := honly d (digitsUp_lt (by decide) d (List.mem_of_getLast? hlast)) hsymbol
    exact absurd (hzero ▸ hlast) (digitsUp_getLast? (by decide) (Nat.lt_succ_self n) hpos)

-- A text of digits is told from what follows by a character that is none.
theorem takeWhile_isDigit {cs : List Char} (rest : List Char)
    (hcs : ∀ c ∈ cs, isDigit c = true) (hrest : ∀ c ∈ rest.head?, isDigit c = false) :
    (cs ++ rest).takeWhile isDigit = cs ∧ (cs ++ rest).dropWhile isDigit = rest := by
  have hstop : rest.takeWhile isDigit = [] ∧ rest.dropWhile isDigit = rest := by
    cases rest with
    | nil => exact ⟨rfl, rfl⟩
    | cons c rest =>
        have hc : isDigit c = false := hrest c rfl
        simp [hc]
  rw [List.takeWhile_append_of_pos hcs, List.dropWhile_append_of_pos hcs, hstop.1, hstop.2,
    List.append_nil]
  exact ⟨rfl, rfl⟩

end MetricRelay.Numeral
