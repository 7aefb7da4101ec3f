import MetricRelay.Proofs.Json.Scalars

namespace MetricRelay.Json

open Numeral

-- A finite double that is found again in its printed text.
def ReadsBack (x : Float) : Prop :=
  x.isFinite = true ∧ read? (String.ofList (Decimal.write x)) = some (.real x)

-- Documents that their text keeps whole: every integer has 64 bits, signed or not, and every
-- double reads back.
inductive Readable : Tree → Prop where
  | null : Readable .null
  | flag (b : Bool) : Readable (.flag b)
  | integer {n : Int} (hlow : -9223372036854775808 ≤ n) (hhigh : n < 18446744073709551616) :
      Readable (.integer n)
  | real {x : Float} (h : ReadsBack x) : Readable (.real x)
  | text (s : String) : Readable (.text s)
  | list {ts : List Tree} (h : ∀ t ∈ ts, Readable t) : Readable (.list ts)
  | table {es : List (String × Tree)} (h : ∀ e ∈ es, Readable e.2) : Readable (.table es)

-- The value at the front of a text, told by a character that is in numbers only.
theorem value_numeric {c : Char} (h : isNumeric c = true) (fuel : Nat) (cs : List Char) :
    value (fuel + 1) (c :: cs) = (literal? (c :: cs)).map fun r => (number r.1, r.2) := by
  rw [value, skip_cons (isSpace_of_isNumeric h)]
  split
  any_goals
    rename_i heq
    cases heq
    exact absurd h (by decide)
  rfl

theorem skip_eq_nil {cs : List Char} (hcs : ∀ c ∈ cs, isNumeric c = true) (h : skip cs = []) :
    cs = [] := by
  cases cs with
  | nil => rfl
  | cons c cs =>
      rw [skip_cons (isSpace_of_isNumeric (hcs c List.mem_cons_self))] at h
      exact h

theorem write_ne_nil_of_readsBack {x : Float} (h : ReadsBack x) : Decimal.write x ≠ [] := by
  intro hnil
  have hread := h.2
  rw [hnil] at hread
  cases hread

-- What reads back on its own reads back in front of whatever ends a number.
theorem literal?_of_readsBack {x : Float} (h : ReadsBack x) {rest : List Char}
    (hstops : stops rest = true) :
    ∃ l, literal? (Decimal.write x ++ rest) = some (l, rest) ∧ number l = .real x := by
  have hnumeric := isNumeric_write x
  have hread := h.2
  cases hcs : Decimal.write x with
  | nil => exact absurd hcs (write_ne_nil_of_readsBack h)
  | cons c cs =>
      rw [hcs] at hread hnumeric
      have hc := hnumeric c List.mem_cons_self
      rw [read?, String.toList_ofList, value_numeric hc] at hread
      cases hliteral : literal? (c :: cs) with
      | none =>
          rw [hliteral] at hread
          cases hread
      | some r =>
          obtain ⟨l, left⟩ := r
          rw [hliteral] at hread
          simp only [Option.map_some, Option.ite_none_right_eq_some, Option.some.injEq] at hread
          obtain ⟨hspace, hnumber⟩ := hread
          have hleft : left = [] := skip_eq_nil
            (fun d hd => hnumeric d ((literal?_readsAhead.suffix hliteral).subset hd)) hspace
          refine ⟨l, ?_, hnumber⟩
          rw [literal?_readsAhead.append hstops, hliteral, hleft]
          rfl

-- A finite double reads back if its text is a number with its value, and not an integer.
theorem ReadsBack.of_literal {x : Float} (hfinite : x.isFinite = true) {l : Decimal.Literal}
    (hliteral : literal? (Decimal.write x) = some (l, [])) (hreal : l.isInteger = false)
    (hvalue : l.real? = some x) : ReadsBack x := by
  have hnumber : number l = .real x := by simp [number, hreal, hvalue]
  refine ⟨hfinite, ?_⟩
  have hnumeric := isNumeric_write x
  rw [read?, String.toList_ofList]
  cases hcs : Decimal.write x with
  | nil =>
      rw [hcs] at hliteral
      cases hliteral
  | cons c cs =>
      rw [hcs] at hliteral hnumeric
      rw [value_numeric (hnumeric c List.mem_cons_self), hliteral]
      simp [hnumber, skip]

-- What is read where the text of a document stands: that document, if enough steps are allowed
-- and a number has an end there.
def Reads (t : Tree) : Prop :=
  ∀ {fuel rest}, (compact t).length < fuel → stops rest = true →
    value fuel (compact t ++ rest) = some (t, rest)

theorem reads_real {x : Float} (h : ReadsBack x) : Reads (.real x) := by
  intro fuel rest hfuel hstops
  obtain ⟨l, hliteral, hnumber⟩ := literal?_of_readsBack h hstops
  have hnumeric := isNumeric_write x
  have hne := write_ne_nil_of_readsBack h
  rw [compact, if_pos h.1] at hfuel ⊢
  cases hcs : Decimal.write x with
  | nil => exact absurd hcs hne
  | cons c cs =>
      rw [hcs] at hliteral hnumeric
      obtain ⟨fuel, rfl⟩ : ∃ more, fuel = more + 1 := ⟨fuel - 1, by omega⟩
      rw [List.cons_append, value_numeric (hnumeric c List.mem_cons_self), ← List.cons_append,
        hliteral, Option.map_some, hnumber]

theorem integer_front (n : Int) : ∃ c cs, integer n = c :: cs ∧ isNumeric c = true := by
  unfold integer
  split
  · exact ⟨_, _, rfl, rfl⟩
  · obtain ⟨c, cs, hfront, hc⟩ := decimal_front n.natAbs
    exact ⟨c, cs, hfront, isNumeric_of_isDigit hc⟩

theorem reads_integer {n : Int} (hlow : -9223372036854775808 ≤ n)
    (hhigh : n < 18446744073709551616) : Reads (.integer n) := by
  intro fuel rest hfuel hstops
  have hliteral := literal?_integer n hstops
  obtain ⟨c, cs, hfront, hc⟩ := integer_front n
  rw [compact] at hfuel ⊢
  rw [hfront, List.cons_append] at hliteral ⊢
  obtain ⟨fuel, rfl⟩ : ∃ more, fuel = more + 1 := ⟨fuel - 1, by omega⟩
  rw [value_numeric hc, hliteral, Option.map_some, number_integer hlow hhigh]

theorem reads_text (s : String) : Reads (.text s) := by
  intro fuel rest hfuel _
  obtain ⟨fuel, rfl⟩ : ∃ more, fuel = more + 1 := ⟨fuel - 1, by omega⟩
  rw [compact, quote, List.cons_append, List.append_assoc, value, skip_cons (by decide)]
  simp [text?_escaped]

theorem compactItems_eq (ts : List Tree) : compactItems ts = ts.map compact := by
  induction ts with
  | nil => rfl
  | cons t ts ih => rw [compactItems, ih, List.map_cons]

def compactEntry (e : String × Tree) : List Char :=
  quote e.1 ++ ':' :: compact e.2

theorem compactEntries_eq (es : List (String × Tree)) : compactEntries es = es.map compactEntry := by
  induction es with
  | nil => rfl
  | cons e es ih =>
      obtain ⟨k, t⟩ := e
      rw [compactEntries, ih]
      rfl

-- The items of a list are read one by one. Each of them but the last ends at a comma.
theorem items_commas {ts : List Tree} (hne : ts ≠ []) (h : ∀ t ∈ ts, Reads t) {fuel : Nat}
    {rest : List Char} (hfuel : (commas (ts.map compact)).length + 1 < fuel) :
    items fuel (commas (ts.map compact) ++ ']' :: rest) = some (ts, rest) := by
  induction ts generalizing fuel with
  | nil => exact absurd rfl hne
  | cons t ts ih =>
      obtain ⟨ht, hts⟩ := List.forall_mem_cons.mp h
      obtain ⟨fuel, rfl⟩ : ∃ more, fuel = more + 1 := ⟨fuel - 1, by omega⟩
      cases ts with
      | nil =>
          simp only [List.map_cons, List.map_nil, commas] at hfuel ⊢
          rw [items, ht (by omega) rfl]
          rfl
      | cons u ts =>
          simp only [List.map_cons, commas, List.length_append, List.length_cons] at hfuel ih ⊢
          rw [items, List.append_assoc, ht (by omega) rfl]
          simp only [List.cons_append, skip_cons (by decide : isSpace ',' = false)]
          rw [ih (List.cons_ne_nil u ts) hts (by omega)]
          rfl

-- The name of an entry and its value are read up to the comma or the brace behind them.
theorem entries_more {e : String × Tree} (he : Reads e.2) {fuel : Nat}
    (hfuel : (compact e.2).length < fuel) (left : List Char) :
    entries (fuel + 1) (compactEntry e ++ ',' :: left) =
      (entries fuel left).map fun r => (r.1.map fun es => e :: es, r.2) := by
  have hname : compactEntry e ++ ',' :: left =
      '"' :: (e.1.toList.flatMap escapeChar ++ '"' :: ':' :: (compact e.2 ++ ',' :: left)) := by
    simp [compactEntry, quote]
  have hvalue : value fuel (compact e.2 ++ ',' :: left) = some (e.2, ',' :: left) :=
    he hfuel rfl
  rw [hname, entries, skip_cons (by decide)]
  simp only [text?_escaped, skip_cons (by decide : isSpace ':' = false), hvalue,
    skip_cons (by decide : isSpace ',' = false), Option.map_some]
  congr 1
  funext r
  cases r.1 <;> rfl

theorem entries_last {e : String × Tree} (he : Reads e.2) {fuel : Nat}
    (hfuel : (compact e.2).length < fuel) (left : List Char) :
    entries (fuel + 1) (compactEntry e ++ '\x7d' :: left) = some (some [e], left) := by
  have hname : compactEntry e ++ '\x7d' :: left =
      '"' :: (e.1.toList.flatMap escapeChar ++ '"' :: ':' :: (compact e.2 ++ '\x7d' :: left)) := by
    simp [compactEntry, quote]
  have hvalue : value fuel (compact e.2 ++ '\x7d' :: left) = some (e.2, '\x7d' :: left) :=
    he hfuel rfl
  rw [hname, entries, skip_cons (by decide)]
  simp only [text?_escaped, skip_cons (by decide : isSpace ':' = false), hvalue,
    skip_cons (by decide : isSpace '\x7d' = false), Option.map_some]

theorem entries_commas {es : List (String × Tree)} (hne : es ≠ []) (h : ∀ e ∈ es, Reads e.2)
    {fuel : Nat} {rest : List Char} (hfuel : (commas (es.map compactEntry)).length + 1 < fuel) :
    entries fuel (commas (es.map compactEntry) ++ '\x7d' :: rest) = some (some es, rest) := by
  induction es generalizing fuel with
  | nil => exact absurd rfl hne
  | cons e es ih =>
      obtain ⟨he, hes⟩ := List.forall_mem_cons.mp h
      obtain ⟨fuel, rfl⟩ : ∃ more, fuel = more + 1 := ⟨fuel - 1, by omega⟩
      have hlength : (compact e.2).length ≤ (compactEntry e).length := by
        simp only [compactEntry, List.length_append, List.length_cons]
        omega
      cases es with
      | nil =>
          simp only [List.map_cons, List.map_nil, commas] at hfuel ⊢
          rw [entries_last he (by omega)]
      | cons f es =>
          simp only [List.map_cons, commas, List.length_append, List.length_cons] at hfuel ih ⊢
          rw [List.append_assoc, List.cons_append, entries_more he (by omega),
            ih (List.cons_ne_nil f es) hes (by omega)]
          rfl

-- No document begins with a blank or with what ends a list.
theorem compact_front {t : Tree} (h : Readable t) :
    ∃ c cs, compact t = c :: cs ∧ isSpace c = false ∧ c ≠ ']' := by
  have hnumeric : ∀ {c}, isNumeric c = true → isSpace c = false ∧ c ≠ ']' := by
    intro c hc
    refine ⟨isSpace_of_isNumeric hc, ?_⟩
    rintro rfl
    cases hc
  cases h with
  | null => exact ⟨_, _, rfl, rfl, by decide⟩
  | flag b => cases b <;> exact ⟨_, _, rfl, rfl, by decide⟩
  | @integer n hlow hhigh =>
      obtain ⟨c, cs, hfront, hc⟩ := integer_front n
      exact ⟨c, cs, hfront, hnumeric hc⟩
  | @real x hx =>
      have hfront : compact (.real x) = Decimal.write x := by rw [compact, if_pos hx.1]
      have hall := isNumeric_write x
      cases hcs : Decimal.write x with
      | nil => exact absurd hcs (write_ne_nil_of_readsBack hx)
      | cons c cs =>
          rw [hcs] at hfront hall
          exact ⟨c, cs, hfront, hnumeric (hall c List.mem_cons_self)⟩
  | text s => exact ⟨_, _, rfl, rfl, by decide⟩
  | list h => exact ⟨_, _, rfl, rfl, by decide⟩
  | table h => exact ⟨_, _, rfl, rfl, by decide⟩

theorem reads_list {ts : List Tree} (hreadable : ∀ t ∈ ts, Readable t) (h : ∀ t ∈ ts, Reads t) :
    Reads (.list ts) := by
  intro fuel rest hfuel _
  obtain ⟨fuel, rfl⟩ : ∃ more, fuel = more + 1 := ⟨fuel - 1, by omega⟩
  rw [compact, compactItems_eq] at hfuel ⊢
  simp only [List.length_append, List.length_cons, List.length_nil] at hfuel
  rw [List.cons_append, List.append_assoc, value, skip_cons (by decide)]
  cases ts with
  | nil => simp [commas, skip, isSpace]
  | cons t ts =>
      have hitems : items fuel (commas ((t :: ts).map compact) ++ ']' :: rest) =
          some (t :: ts, rest) := items_commas (List.cons_ne_nil t ts) h (by omega)
      obtain ⟨c, cs, hfront, hspace, hbracket⟩ := compact_front (hreadable t List.mem_cons_self)
      obtain ⟨cs', hcommas⟩ : ∃ cs', commas ((t :: ts).map compact) ++ ']' :: rest = c :: cs' := by
        cases ts <;> simp [commas, hfront]
      rw [hcommas] at hitems
      simp only [List.cons_append, List.nil_append, hcommas, skip_cons hspace]
      simp [hbracket, hitems]

theorem reads_table {es : List (String × Tree)} (h : ∀ e ∈ es, Reads e.2) :
    Reads (.table es) := by
  intro fuel rest hfuel _
  obtain ⟨fuel, rfl⟩ : ∃ more, fuel = more + 1 := ⟨fuel - 1, by omega⟩
  rw [compact, compactEntries_eq] at hfuel ⊢
  simp only [List.length_append, List.length_cons, List.length_nil] at hfuel
  rw [List.cons_append, List.append_assoc, value, skip_cons (by decide)]
  cases es with
  | nil => simp [commas, skip, isSpace]
  | cons e es =>
      have hentries : entries fuel (commas ((e :: es).map compactEntry) ++ '\x7d' :: rest) =
          some (some (e :: es), rest) := entries_commas (List.cons_ne_nil e es) h (by omega)
      obtain ⟨cs, hcommas⟩ :
          ∃ cs, commas ((e :: es).map compactEntry) ++ '\x7d' :: rest = '"' :: cs := by
        cases es <;> simp [commas, compactEntry, quote]
      rw [hcommas] at hentries
      simp only [List.cons_append, List.nil_append, hcommas,
        skip_cons (by decide : isSpace '"' = false)]
      simp [hentries]

theorem reads_of_readable {t : Tree} (h : Readable t) : Reads t := by
  induction h with
  | null =>
      intro fuel rest hfuel _
      obtain ⟨fuel, rfl⟩ : ∃ more, fuel = more + 1 := ⟨fuel - 1, by omega⟩
      rfl
  | flag b =>
      intro fuel rest hfuel _
      obtain ⟨fuel, rfl⟩ : ∃ more, fuel = more + 1 := ⟨fuel - 1, by omega⟩
      cases b <;> rfl
  | integer hlow hhigh => exact reads_integer hlow hhigh
  | real hx => exact reads_real hx
  | text s => exact reads_text s
  | list hreadable ih => exact reads_list hreadable ih
  | table hreadable ih => exact reads_table ih

-- A document is read back from its text.
theorem read?_render {t : Tree} (h : Readable t) : read? (render t) = some t := by
  have hread : value ((compact t).length + 1) (compact t ++ []) = some (t, []) :=
    reads_of_readable h (Nat.lt_succ_self _) rfl
  rw [List.append_nil] at hread
  rw [read?, render, String.toList_ofList]
  simp [hread, skip]

end MetricRelay.Json
