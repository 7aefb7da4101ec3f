import MetricRelay.Calendar.Timestamp
import MetricRelay.Proofs.Calendar.Days
import MetricRelay.Proofs.Text.Numerals

namespace MetricRelay.Timestamp

open Calendar Numeral

-- A text that begins with a character that is no blank is read from there.
theorem skip_cons {c : Char} (h : Text.isBlank c = false) (rest : List Char) :
    skip (c :: rest) = c :: rest := by
  simp [skip, h]

theorem skip_digits {cs : List Char} (hne : cs ≠ []) (hdigits : ∀ c ∈ cs, isDigit c = true)
    (rest : List Char) : skip (cs ++ rest) = cs ++ rest := by
  cases cs with
  | nil => exact absurd rfl hne
  | cons c cs => exact skip_cons (isBlank_of_isDigit (hdigits c List.mem_cons_self)) _

theorem padded_ne_nil (width n : Nat) : padded 10 width n ≠ [] := by
  simp [padded, write_ne_nil]

-- A number written with all its places is read by as many, whatever follows.
theorem number?_padded {width n : Nat} (h : n < 10 ^ (width + 1)) (rest : List Char) :
    number? (width + 1) (padded 10 (width + 1) n ++ rest) = some (n, rest) := by
  have hlength : (padded 10 (width + 1) n).length = width + 1 := length_padded h
  have hdigits : ∀ c ∈ padded 10 (width + 1) n, isDigit c = true := fun c hc =>
    isDigit_of_mem_padded hc
  have htake : ((padded 10 (width + 1) n ++ rest).take (width + 1)).takeWhile isDigit =
      padded 10 (width + 1) n := by
    rw [List.take_left' hlength]
    simpa using (takeWhile_isDigit [] hdigits (by simp)).1
  rw [number?, skip_digits (padded_ne_nil _ n) hdigits]
  simp only [htake, read?_padded (by decide : 2 ≤ 10) (by decide : 10 ≤ 36), Option.map_some,
    List.drop_left]

theorem two?_padded {n : Nat} (h : n < 100) (rest : List Char) :
    number? 2 (padded 10 2 n ++ rest) = some (n, rest) :=
  number?_padded h rest

theorem year?_yearText {year : Int} (h : 0 ≤ year ∧ year ≤ 9999) (rest : List Char) :
    year? (yearText year ++ rest) = some (year, rest) := by
  have hpast : ¬year < 0 := by omega
  have hfuture : ¬9999 < year := by omega
  have hdigits : ∀ c ∈ padded 10 4 year.natAbs, isDigit c = true := fun c hc =>
    isDigit_of_mem_padded hc
  have hread : number? 4 (padded 10 4 year.natAbs ++ rest) = some (year.natAbs, rest) :=
    number?_padded (by omega) rest
  have hnat : ((year.natAbs : Nat) : Int) = year := by omega
  rw [year?, yearText, if_neg hpast, if_neg hfuture, skip_digits (padded_ne_nil 4 _) hdigits]
  split
  · rename_i heq
    have hsign := hdigits '-' (by
      cases hcs : padded 10 4 year.natAbs with
      | nil => exact absurd hcs (padded_ne_nil 4 _)
      | cons c cs =>
          rw [hcs] at heq
          cases heq
          exact List.mem_cons_self)
    cases hsign
  · rename_i heq
    have hsign := hdigits '+' (by
      cases hcs : padded 10 4 year.natAbs with
      | nil => exact absurd hcs (padded_ne_nil 4 _)
      | cons c cs =>
          rw [hcs] at heq
          cases heq
          exact List.mem_cons_self)
    cases hsign
  · rw [hread, Option.map_some, hnat]

-- The digits behind the point stand for the nanoseconds, however many of them were left out.
theorem fraction?_fraction {nanos : Nat} (h : nanos < 1000000000) (rest : List Char) :
    fraction? (fraction nanos ++ 'Z' :: rest) = some (nanos, 'Z' :: rest) := by
  have hdigits : ∀ width n, n < 10 ^ (width + 1) → width + 1 ≤ 9 →
      fraction? ('.' :: padded 10 (width + 1) n ++ 'Z' :: rest) =
        some (n * Nat.pow 10 (9 - (width + 1)), 'Z' :: rest) := by
    intro width n hn hwidth
    have hlength : (padded 10 (width + 1) n).length = width + 1 := length_padded hn
    have hall : ∀ c ∈ padded 10 (width + 1) n, isDigit c = true := fun c hc =>
      isDigit_of_mem_padded hc
    obtain ⟨htake, hdrop⟩ := takeWhile_isDigit ('Z' :: rest) hall (by simp [isDigit])
    have hkept : (padded 10 (width + 1) n).take 9 = padded 10 (width + 1) n :=
      List.take_of_length_le (by omega)
    simp only [List.cons_append, fraction?, htake, hdrop, hkept, hlength,
      read?_padded (by decide : 2 ≤ 10) (by decide : 10 ≤ 36), Option.map_some]
  unfold fraction
  split
  · rename_i hzero
    rw [hzero]
    rfl
  · split
    · rw [hdigits 2 (nanos / 1000000) (by omega) (by decide)]
      have hvalue : nanos / 1000000 * Nat.pow 10 (9 - (2 + 1)) = nanos := by
        change nanos / 1000000 * 1000000 = nanos
        omega
      rw [hvalue]
    · split
      · rw [hdigits 5 (nanos / 1000) (by omega) (by decide)]
        have hvalue : nanos / 1000 * Nat.pow 10 (9 - (5 + 1)) = nanos := by
          change nanos / 1000 * 1000 = nanos
          omega
        rw [hvalue]
      · rw [hdigits 8 nanos (by omega) (by decide)]
        have hvalue : nanos * Nat.pow 10 (9 - (8 + 1)) = nanos := Nat.mul_one nanos
        rw [hvalue]

theorem after?_cons {mark : Char} (h : Text.isBlank mark = false) (rest : List Char) :
    after? mark (mark :: rest) = some rest := by
  rw [after?, skip_cons h]
  simp

-- The day and the time of day, as they are written.
def dateText (d : Date) : List Char :=
  yearText d.year ++ '-' :: padded 10 2 d.month ++ '-' :: padded 10 2 d.day

def timeText (second nanos : Nat) : List Char :=
  padded 10 2 (second / 3600) ++ ':' :: padded 10 2 (second / 60 % 60) ++
    ':' :: padded 10 2 (second % 60 + nanos / 1000000000) ++ fraction (nanos % 1000000000)

theorem date?_dateText {d : Date} (hyear : 0 ≤ d.year ∧ d.year ≤ 9999) (hd : d.Exists)
    (rest : List Char) : date? (dateText d ++ rest) = some (d, rest) := by
  obtain ⟨-, hmonth, -, hday⟩ := id hd
  have hmonth : d.month < 100 := by omega
  have hday : d.day < 100 := by
    have hall : ∀ n ∈ monthLengths d.year, n ≤ 31 := by
      unfold monthLengths
      cases isLeap d.year <;> decide
    have hlength : monthLength d.year d.month ≤ 31 := by
      unfold monthLength
      cases hget : (monthLengths d.year)[d.month - 1]? with
      | none => exact Nat.zero_le _
      | some n => exact hall n (List.mem_of_getElem? hget)
    omega
  have hfits : yearFits d.year = true := by
    simp only [yearFits, Bool.and_eq_true, decide_eq_true_eq]
    omega
  have hdash : Text.isBlank '-' = false := by decide
  simp only [date?, dateText, List.append_assoc, List.cons_append, year?_yearText hyear,
    after?_cons hdash, two?_padded hmonth, two?_padded hday, Option.bind_eq_bind,
    Option.bind_some, hfits, hd, and_self, if_true]

-- A second may go on through a leap second only if it is the last one of its minute.
theorem time?_timeText {second nanos : Nat} (hsecond : second < 86400)
    (hnanos : nanos < 1000000000 ∨ nanos < 2000000000 ∧ second % 60 = 59) (rest : List Char) :
    time? (timeText second nanos ++ 'Z' :: rest) = some ((second, nanos), 'Z' :: rest) := by
  have hcolon : Text.isBlank ':' = false := by decide
  have hhour : second / 3600 < 100 := by omega
  have hminute : second / 60 % 60 < 100 := by omega
  have hlast : second % 60 + nanos / 1000000000 < 100 := by omega
  have hin : ¬(23 < second / 3600 ∨ 59 < second / 60 % 60 ∨
      60 < second % 60 + nanos / 1000000000) := by omega
  simp only [time?, timeText, List.append_assoc, List.cons_append, after?_cons hcolon,
    two?_padded hhour, two?_padded hminute, two?_padded hlast,
    fraction?_fraction (Nat.mod_lt nanos (by decide : 0 < 1000000000)), Option.bind_eq_bind,
    Option.bind_some, if_neg hin]
  by_cases hleap : nanos < 1000000000
  · have hwhole : second % 60 + nanos / 1000000000 ≠ 60 := by omega
    have hsum : 3600 * (second / 3600) + 60 * (second / 60 % 60) +
        (second % 60 + nanos / 1000000000) = second := by omega
    rw [if_neg hwhole, hsum, Nat.mod_eq_of_lt hleap]
  · have hwhole : second % 60 + nanos / 1000000000 = 60 := by omega
    have hsum : 3600 * (second / 3600) + 60 * (second / 60 % 60) + 59 = second := by omega
    have hmore : nanos % 1000000000 + 1000000000 = nanos := by omega
    rw [if_pos hwhole, hsum, hmore]

theorem write_eq (t : Timestamp) :
    t.write = dateText t.date ++ 'T' :: (timeText t.secondOfDay t.nanos ++ ['Z']) := by
  simp only [write, dateText, timeText, List.append_assoc, List.cons_append]

-- A moment of a year of four digits is read back from its text to the last nanosecond.
theorem read?_write (t : Timestamp) (h : 0 ≤ t.date.year ∧ t.date.year ≤ 9999) :
    read? t.write = some t := by
  obtain ⟨hexists, hnumber⟩ := Date.ofNumber_exists (t.seconds / 86400)
  have hfits : yearFits t.date.year = true := by
    simp only [yearFits, Bool.and_eq_true, decide_eq_true_eq]
    omega
  have hday : ((t.secondOfDay : Nat) : Int) = t.seconds % 86400 := by
    unfold secondOfDay
    omega
  have hnanos := t.nanos_fits
  have htime : time? (timeText t.secondOfDay t.nanos ++ ['Z']) =
      some ((t.secondOfDay, t.nanos), ['Z']) :=
    time?_timeText (by omega) (by omega) []
  have hseconds : 86400 * t.date.number + (t.secondOfDay : Nat) - 0 = t.seconds := by
    change 86400 * (Date.ofNumber (t.seconds / 86400)).number + _ - 0 = _
    omega
  have hmake : make? t.seconds t.nanos = some t := dif_pos hnanos
  have hoffset : offset? ['Z'] = some (0, []) := rfl
  have hdate := date?_dateText h hexists ('T' :: (timeText t.secondOfDay t.nanos ++ ['Z']))
  change date? (dateText t.date ++ _) = some (t.date, _) at hdate
  simp only [read?, write_eq, hdate, Option.bind_eq_bind, Option.bind_some, htime, hoffset,
    hseconds, hmake, hfits]
  rfl

end MetricRelay.Timestamp
