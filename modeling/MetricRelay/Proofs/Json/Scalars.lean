import MetricRelay.Json.Printer
import MetricRelay.Json.Reader
import MetricRelay.Proofs.Text.Numerals
import Mathlib.Tactic.SplitIfs

namespace MetricRelay.Json

open Numeral

theorem skip_cons {c : Char} (h : isSpace c = false) (rest : List Char) :
    skip (c :: rest) = c :: rest := by
  simp [skip, h]

-- Texts

theorem unletter?_of_letter? {c l : Char} (h : letter? c = some l) :
    unletter? l = some c ∧ l ≠ 'u' := by
  unfold letter? at h
  split_ifs at h with hquote hslash hback hfeed hline hreturn htab
  all_goals
    cases h
    subst c
    decide

-- However a character is written between quotes, it is read as itself.
theorem marks_escapeChar (c : Char) (rest : List Char) :
    marks none (escapeChar c ++ rest) = (marks none rest).map fun r => (.char c :: r.1, r.2) := by
  unfold escapeChar
  cases hletter : letter? c with
  | some l =>
      obtain ⟨hread, hu⟩ := unletter?_of_letter? hletter
      simp [marks, hread, hu]
  | none =>
      by_cases hcontrol : c.toNat < 32
      · have hplaces : ∀ n < 32, padded 16 4 n = ['0', '0', symbol (n / 16), symbol (n % 16)] := by
          decide
        have hplain : ∀ n < 32, isHigh n = false ∧ isLow n = false := by decide
        have hread := read?_padded (by decide : 2 ≤ 16) (by decide : 16 ≤ 36) 4 c.toNat
        rw [hplaces _ hcontrol] at hread
        simp [hcontrol, marks, hplaces _ hcontrol, hread, hplain _ hcontrol]
      · have hquote : c ≠ '"' := fun h => by simp [letter?, h] at hletter
        have hslash : c ≠ '\\' := fun h => by simp [letter?, h] at hletter
        simp [hcontrol, marks, hslash]

theorem marks_flatMap_escapeChar (cs rest : List Char) :
    marks none (cs.flatMap escapeChar ++ '"' :: rest) = some (cs.map .char, rest) := by
  induction cs with
  | nil => simp [marks]
  | cons c cs ih =>
      rw [List.flatMap_cons, List.append_assoc, marks_escapeChar, ih]
      rfl

theorem spell_map_char (cs : List Char) : spell (cs.map .char) = some cs := by
  induction cs with
  | nil => rfl
  | cons c cs ih => simp [spell, ih]

theorem text?_escaped (s : String) (rest : List Char) :
    text? (s.toList.flatMap escapeChar ++ '"' :: rest) = some (some s, rest) := by
  simp [text?, marks_flatMap_escapeChar, spell_map_char]

-- Numbers

-- A number ends where the text does or one of these characters stands.
def stops : List Char → Bool
  | [] => true
  | c :: _ => c = ',' || c = ']' || c = '\x7d'

-- The characters that numbers are written with.
def isNumeric (c : Char) : Bool :=
  isDigit c || c = '.' || c = 'e' || c = '+' || c = '-'

theorem isSpace_of_isNumeric {c : Char} (h : isNumeric c = true) : isSpace c = false := by
  have hall : ∀ d, isSpace d = true → isNumeric d = false := by
    intro d hd
    simp only [isSpace, Bool.or_eq_true, decide_eq_true_eq] at hd
    rcases hd with ((rfl | rfl) | rfl) | rfl <;> rfl
  cases hspace : isSpace c with
  | false => rfl
  | true => exact absurd h (by simp [hall c hspace])

-- A reader of a part of a number gives back an end of the text, and what stands behind the number
-- makes no difference to it.
structure ReadsAhead {α : Type} (read : List Char → Option (α × Rest)) : Prop where
  suffix : ∀ {cs r}, read cs = some r → r.2 <:+ cs
  append : ∀ {rest}, stops rest = true → ∀ cs,
    read (cs ++ rest) = (read cs).map fun r => (r.1, r.2 ++ rest)

theorem isDigit_of_stops {rest : List Char} (h : stops rest = true) :
    ∀ c ∈ rest.head?, isDigit c = false := by
  cases rest with
  | nil => simp
  | cons d rest =>
      intro c hc
      cases hc
      simp only [stops, Bool.or_eq_true, decide_eq_true_eq] at h
      rcases h with (rfl | rfl) | rfl <;> rfl

theorem digits_append {rest : List Char} (h : stops rest = true) (cs : List Char) :
    digits (cs ++ rest) = ((digits cs).1, (digits cs).2 ++ rest) := by
  have hdigits : ∀ c ∈ cs.takeWhile isDigit, isDigit c = true := fun c hc =>
    List.all_eq_true.mp List.all_takeWhile c hc
  have hrest : ∀ c ∈ (cs.dropWhile isDigit ++ rest).head?, isDigit c = false := by
    cases hleft : cs.dropWhile isDigit with
    | nil => exact isDigit_of_stops h
    | cons d left =>
        intro c hc
        cases hc
        have := List.head?_dropWhile_not isDigit cs
        simpa [hleft] using this
  obtain ⟨htake, hdrop⟩ := takeWhile_isDigit _ hdigits hrest
  rw [← List.append_assoc, List.takeWhile_append_dropWhile] at htake hdrop
  rw [digits, digits, htake, hdrop]

theorem someDigits?_readsAhead : ReadsAhead someDigits? where
  suffix := by
    intro cs r h
    unfold someDigits? at h
    split at h
    · cases h
    · cases h
      exact List.dropWhile_suffix isDigit
  append := by
    intro rest h cs
    simp only [someDigits?, digits_append h]
    cases hfront : (digits cs).1 with
    | nil =>
        have hcs : digits cs = ([], (digits cs).2) := Prod.ext hfront rfl
        rw [hcs]
        rfl
    | cons c front =>
        have hcs : digits cs = (c :: front, (digits cs).2) := Prod.ext hfront rfl
        rw [hcs]
        rfl

theorem whole?_readsAhead : ReadsAhead whole? where
  suffix := by
    intro cs r h
    unfold whole? at h
    split at h
    · cases h
    · exact someDigits?_readsAhead.suffix h
  append := by
    intro rest h cs
    simp only [whole?, someDigits?_readsAhead.append h]
    cases someDigits? cs with
    | none => rfl
    | some r =>
        obtain ⟨ds, left⟩ := r
        dsimp only [Option.map_some]
        split
        · rename_i heq
          cases heq
          rfl
        · rename_i hzero
          split
          · rename_i heq
            cases heq
            exact absurd rfl (hzero _ _ _)
          · rfl

theorem ReadsAhead.pure {α : Type} (a : α) : ReadsAhead fun cs => some (a, cs) where
  suffix := by
    intro cs r hr
    cases hr
    exact List.suffix_rfl
  append := by
    intro rest _ cs
    rfl

theorem ReadsAhead.map {α β : Type} {read : List Char → Option (α × Rest)}
    (h : ReadsAhead read) (f : α → β) :
    ReadsAhead fun cs => (read cs).map fun r => (f r.1, r.2) where
  suffix := by
    intro cs r hr
    obtain ⟨front, hfront, rfl⟩ := Option.map_eq_some_iff.mp hr
    exact h.suffix hfront
  append := by
    intro rest hrest cs
    simp only [h.append hrest, Option.map_map, Function.comp_def]

theorem ReadsAhead.bind {α β : Type} {read : List Char → Option (α × Rest)}
    {next : α → List Char → Option (β × Rest)} (h : ReadsAhead read)
    (hnext : ∀ a, ReadsAhead (next a)) :
    ReadsAhead fun cs => (read cs).bind fun r => next r.1 r.2 where
  suffix := by
    intro cs r hr
    obtain ⟨front, hfront, hr⟩ := Option.bind_eq_some_iff.mp hr
    exact ((hnext _).suffix hr).trans (h.suffix hfront)
  append := by
    intro rest hrest cs
    simp only [h.append hrest]
    cases read cs with
    | none => rfl
    | some r => exact (hnext r.1).append hrest r.2

-- A reader that goes on behind certain characters, none of which ends a number, and reads as
-- `base` where it meets none of them.
theorem ReadsAhead.of_marks {α : Type} {read base : List Char → Option (α × Rest)}
    (hbase : ReadsAhead base) (hnil : read [] = base [])
    (hcons : ∀ c, (stops [c] = false ∧ ∃ next, ReadsAhead next ∧ ∀ cs, read (c :: cs) = next cs) ∨
      ∀ cs, read (c :: cs) = base (c :: cs)) : ReadsAhead read where
  suffix := by
    intro cs r hr
    cases cs with
    | nil => exact hbase.suffix (hnil ▸ hr)
    | cons c cs =>
        rcases hcons c with ⟨-, next, hnext, hread⟩ | hread
        · exact (hnext.suffix (hread cs ▸ hr)).trans (List.suffix_cons c cs)
        · exact hbase.suffix (hread cs ▸ hr)
  append := by
    intro rest hrest cs
    cases cs with
    | nil =>
        have hread : read rest = base rest := by
          cases rest with
          | nil => exact hnil
          | cons c rest =>
              rcases hcons c with ⟨hmark, -⟩ | hread
              · exact absurd hrest (by simpa [stops] using hmark)
              · exact hread rest
        rw [List.nil_append, hread, hnil]
        exact hbase.append hrest []
    | cons c cs =>
        rcases hcons c with ⟨-, next, hnext, hread⟩ | hread
        · rw [List.cons_append, hread, hread]
          exact hnext.append hrest cs
        · rw [List.cons_append, hread, hread]
          exact hbase.append hrest (c :: cs)

theorem fraction?_readsAhead : ReadsAhead fraction? := by
  refine (ReadsAhead.pure none).of_marks rfl fun c => ?_
  by_cases hpoint : c = '.'
  · subst c
    exact .inl ⟨rfl, _, someDigits?_readsAhead.map some, fun _ => rfl⟩
  · exact .inr fun cs => by simp [fraction?, hpoint]

theorem signedDigits?_readsAhead : ReadsAhead signedDigits? := by
  have hsigned : ∀ negative : Bool, ReadsAhead fun cs =>
      (someDigits? cs).map fun r => (some (negative, r.1), r.2) := fun negative =>
    someDigits?_readsAhead.map fun ds => some (negative, ds)
  refine (hsigned false).of_marks rfl fun c => ?_
  by_cases hplus : c = '+'
  · subst c
    exact .inl ⟨rfl, _, hsigned false, fun _ => rfl⟩
  · by_cases hminus : c = '-'
    · subst c
      exact .inl ⟨rfl, _, hsigned true, fun _ => rfl⟩
    · exact .inr fun cs => by simp [signedDigits?, hplus, hminus]

theorem exponent?_readsAhead : ReadsAhead exponent? := by
  refine (ReadsAhead.pure none).of_marks rfl fun c => ?_
  by_cases hlower : c = 'e'
  · subst c
    exact .inl ⟨rfl, _, signedDigits?_readsAhead, fun _ => rfl⟩
  · by_cases hupper : c = 'E'
    · subst c
      exact .inl ⟨rfl, _, signedDigits?_readsAhead, fun _ => rfl⟩
    · exact .inr fun cs => by simp [exponent?, hlower, hupper]

-- A number without its sign.
def unsigned? (negative : Bool) (cs : List Char) : Option (Decimal.Literal × Rest) :=
  (whole? cs).bind fun w => (fraction? w.2).bind fun f => (exponent? f.2).map fun e =>
    (⟨negative, w.1, f.1, e.1⟩, e.2)

theorem unsigned?_readsAhead (negative : Bool) : ReadsAhead (unsigned? negative) :=
  whole?_readsAhead.bind fun whole => fraction?_readsAhead.bind fun fraction =>
    exponent?_readsAhead.map fun exponent =>
      (⟨negative, whole, fraction, exponent⟩ : Decimal.Literal)

theorem literal?_minus (cs : List Char) : literal? ('-' :: cs) = unsigned? true cs := by
  simp only [literal?, unsigned?, Option.map_eq_bind, Option.bind_eq_bind]
  rfl

theorem literal?_of_ne_minus {c : Char} (h : c ≠ '-') (cs : List Char) :
    literal? (c :: cs) = unsigned? false (c :: cs) := by
  simp only [literal?, unsigned?, Option.map_eq_bind, Option.bind_eq_bind]
  split
  · rename_i heq
    exact absurd (List.cons.inj heq).1 h
  · rfl

theorem literal?_readsAhead : ReadsAhead literal? := by
  refine (unsigned?_readsAhead false).of_marks rfl fun c => ?_
  by_cases hminus : c = '-'
  · subst c
    exact .inl ⟨rfl, _, unsigned?_readsAhead true, literal?_minus⟩
  · exact .inr (literal?_of_ne_minus hminus)

theorem unsigned?_decimal (negative : Bool) (n : Nat) {rest : List Char}
    (h : stops rest = true) :
    unsigned? negative (decimal n ++ rest) = some (⟨negative, decimal n, none, none⟩, rest) := by
  have hdigits : digits (decimal n) = (decimal n, []) := by
    have hall : ∀ c ∈ decimal n, isDigit c = true := fun c hc => isDigit_of_mem_decimal hc
    have htake := takeWhile_isDigit [] hall (by simp)
    rw [List.append_nil] at htake
    rw [digits, htake.1, htake.2]
  have hsome : someDigits? (decimal n) = some (decimal n, []) := by
    rw [someDigits?, hdigits]
    split
    · rename_i hnil
      exact absurd (Prod.ext_iff.mp hnil).1 (write_ne_nil 10 n)
    · rfl
  have hwhole : whole? (decimal n) = some (decimal n, []) := by
    rw [whole?, hsome]
    split
    · rename_i hzero
      exact absurd (decimal_zero_front (Prod.ext_iff.mp (Option.some.inj hzero)).1)
        (List.cons_ne_nil _ _)
    · rfl
  have halone : unsigned? negative (decimal n) = some (⟨negative, decimal n, none, none⟩, []) := by
    simp [unsigned?, hwhole, fraction?, exponent?]
  rw [(unsigned?_readsAhead negative).append h, halone]
  rfl

theorem decimal_front (n : Nat) : ∃ c cs, decimal n = c :: cs ∧ isDigit c = true := by
  cases hdecimal : decimal n with
  | nil => exact absurd hdecimal (write_ne_nil 10 n)
  | cons c cs => exact ⟨c, cs, rfl, isDigit_of_mem_decimal (hdecimal ▸ List.mem_cons_self)⟩

theorem literal?_integer (n : Int) {rest : List Char} (h : stops rest = true) :
    literal? (integer n ++ rest) =
      some (⟨decide (n < 0), decimal n.natAbs, none, none⟩, rest) := by
  unfold integer
  by_cases hneg : n < 0
  · rw [if_pos hneg, List.cons_append, literal?_minus, unsigned?_decimal true _ h,
      decide_eq_true hneg]
  · obtain ⟨c, cs, hfront, hc⟩ := decimal_front n.natAbs
    have hminus : c ≠ '-' := by
      rintro rfl
      cases hc
    have hread := unsigned?_decimal false n.natAbs h
    rw [hfront, List.cons_append] at hread
    rw [if_neg hneg, decide_eq_false hneg, hfront, List.cons_append,
      literal?_of_ne_minus hminus, hread]

-- An integer of 64 bits is read as itself.
theorem number_integer {n : Int} (hlow : -9223372036854775808 ≤ n)
    (hhigh : n < 18446744073709551616) :
    number ⟨decide (n < 0), decimal n.natAbs, none, none⟩ = .integer n := by
  have hleast : Int64.minValue.toInt = -9223372036854775808 := rfl
  have hsize : UInt64.size = 18446744073709551616 := rfl
  have hread : Numeral.read? 10 (decimal n.natAbs) = some n.natAbs :=
    read?_write (by decide) (by decide) n.natAbs
  simp only [number, Decimal.Literal.isInteger, Option.isNone_none, Bool.and_self, if_true, hread,
    hleast, hsize, decide_eq_true_eq]
  by_cases hneg : n < 0
  · have hin : 0 < n.natAbs ∧ -9223372036854775808 ≤ -(n.natAbs : Int) := by omega
    have hvalue : -(n.natAbs : Int) = n := by omega
    rw [if_pos hneg, if_pos hin, hvalue]
  · have hin : n.natAbs < 18446744073709551616 := by omega
    have hvalue : (n.natAbs : Int) = n := by omega
    rw [if_neg hneg, if_pos hin, hvalue]

theorem isNumeric_of_isDigit {c : Char} (h : isDigit c = true) : isNumeric c = true := by
  simp [isNumeric, h]

theorem isNumeric_layout (d : Decimal.Digits) : ∀ c ∈ d.layout, isNumeric c = true := by
  have hdecimal : ∀ n, ∀ c ∈ decimal n, isNumeric c = true := fun n c hc =>
    isNumeric_of_isDigit (isDigit_of_mem_decimal hc)
  have hzeros : ∀ count, ∀ c ∈ List.replicate count '0', isNumeric c = true := by
    intro count c hc
    rw [List.eq_of_mem_replicate hc]
    rfl
  have hpoint : ∀ c ∈ ['.'], isNumeric c = true := List.all_eq_true.mp rfl
  unfold Decimal.Digits.layout
  dsimp only
  split
  · split
    · exact List.forall_mem_append.mpr
        ⟨List.forall_mem_append.mpr ⟨hdecimal _, hzeros _⟩, List.all_eq_true.mp rfl⟩
    · split
      · refine List.forall_mem_append.mpr ⟨List.forall_mem_append.mpr ⟨?_, hpoint⟩, ?_⟩
        · exact fun c hc => hdecimal _ c (List.mem_of_mem_take hc)
        · exact fun c hc => hdecimal _ c (List.mem_of_mem_drop hc)
      · exact List.forall_mem_append.mpr
          ⟨List.forall_mem_append.mpr ⟨List.all_eq_true.mp rfl, hzeros _⟩, hdecimal _⟩
  · refine List.forall_mem_append.mpr ⟨?_, List.forall_mem_cons.mpr ⟨rfl, ?_⟩⟩
    · split
      · rename_i first more hdigits
        have hall := hdecimal d.digits
        rw [hdigits] at hall
        obtain ⟨hfirst, hmore⟩ := List.forall_mem_cons.mp hall
        split
        · exact List.forall_mem_cons.mpr ⟨hfirst, List.forall_mem_nil _⟩
        · exact List.forall_mem_cons.mpr ⟨hfirst, List.forall_mem_cons.mpr ⟨rfl, hmore⟩⟩
      · exact List.forall_mem_nil _
    · refine List.forall_mem_cons.mpr ⟨?_, hdecimal _⟩
      split <;> rfl

theorem isNumeric_write (x : Float) : ∀ c ∈ Decimal.write x, isNumeric c = true := by
  unfold Decimal.write
  dsimp only
  refine List.forall_mem_append.mpr ⟨?_, ?_⟩
  · split
    · exact List.all_eq_true.mp rfl
    · exact List.forall_mem_nil _
  · split
    · exact List.all_eq_true.mp rfl
    · exact isNumeric_layout _

end MetricRelay.Json
