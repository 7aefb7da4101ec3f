import MetricRelay.Text.Blank

namespace MetricRelay.Text

-- What sets columns apart: blanks that do not end the line.
structure Gap where
  text : List Char
  blank : ∀ c ∈ text, isBlank c = true
  unbroken : '\n' ∉ text

-- What stands in a column.
structure Word where
  text : List Char
  filled : text ≠ []
  solid : ∀ c ∈ text, isBlank c = false

theorem solid_of_all {cs : List Char} (h : cs.all (!isBlank ·) = true) :
    ∀ c ∈ cs, isBlank c = false := by
  simpa using h

theorem Word.unbroken (w : Word) : '\n' ∉ w.text :=
  fun h => absurd (w.solid _ h) (by decide)

structure Line where
  text : List Char
  unbroken : '\n' ∉ text

-- How the columns of a line are spaced: the gap in front of each, counted from zero, and the one
-- behind the last. Only the first column may begin where the line does.
structure Spacing where
  before : Nat → Gap
  behind : Gap
  apart : ∀ column, (before (column + 1)).text ≠ []

namespace Spacing

-- The columns from the one with a given number on.
def layFrom (s : Spacing) : Nat → List Word → List Char
  | _, [] => s.behind.text
  | column, w :: ws => (s.before column).text ++ (w.text ++ s.layFrom (column + 1) ws)

def lay (s : Spacing) (ws : List Word) : List Char :=
  s.layFrom 0 ws

-- One blank between any two columns.
def single : Spacing where
  before column := ⟨List.replicate (min column 1) ' ',
    fun c hc => by rw [List.eq_of_mem_replicate hc]; rfl,
    fun h => absurd (List.eq_of_mem_replicate h) (by decide)⟩
  behind := ⟨[], by simp, by simp⟩
  apart column := by simp

end Spacing

-- Lines one below the other. All but the last are ended, and that one may be.
def stack (ended : Bool) : List Line → List Char
  | [] => []
  | [l] => l.text ++ if ended then ['\n'] else []
  | l :: ls => l.text ++ '\n' :: stack ended ls

theorem cut?_append {mark : Char} {before : List Char} (h : mark ∉ before) (rest : List Char) :
    cut? mark (before ++ mark :: rest) = some (before, rest) := by
  induction before with
  | nil => simp [cut?]
  | cons c before ih =>
      rw [List.mem_cons, not_or] at h
      simp [cut?, Ne.symm h.1, ih h.2]

-- What is cut off goes up to the first mark.
theorem notMem_of_cut? {mark : Char} {cs before rest : List Char}
    (h : cut? mark cs = some (before, rest)) : mark ∉ before := by
  induction cs generalizing before with
  | nil => cases h
  | cons c cs ih =>
      rw [cut?] at h
      split at h
      · cases h
        exact List.not_mem_nil
      · rename_i hne
        obtain ⟨⟨before', rest'⟩, hcut, heq⟩ := Option.map_eq_some_iff.mp h
        cases heq
        rw [List.mem_cons, not_or]
        exact ⟨Ne.symm hne, ih hcut⟩

theorem cut?_eq_none {mark : Char} {cs : List Char} (h : mark ∉ cs) : cut? mark cs = none := by
  induction cs with
  | nil => rfl
  | cons c cs ih =>
      rw [List.mem_cons, not_or] at h
      simp [cut?, Ne.symm h.1, ih h.2]

theorem cut?_concat {mark c : Char} (h : c ≠ mark) (cs : List Char) :
    cut? mark (cs ++ [c]) = (cut? mark cs).map fun p => (p.1, p.2 ++ [c]) := by
  induction cs with
  | nil => simp [cut?, h]
  | cons d cs ih =>
      rw [List.cons_append, cut?, cut?, ih]
      split
      · rfl
      · cases cut? mark cs <;> rfl

theorem cutLast?_append {mark : Char} {rest : List Char} (h : mark ∉ rest) (before : List Char) :
    cutLast? mark (before ++ mark :: rest) = some (before, rest) := by
  have hreverse : (before ++ mark :: rest).reverse = rest.reverse ++ mark :: before.reverse := by
    simp
  rw [cutLast?, hreverse, cut?_append (by simpa using h)]
  simp

private theorem dropWhile_solid {cs : List Char} (hfilled : cs ≠ [])
    (hsolid : ∀ c ∈ cs, isBlank c = false) (rest : List Char) :
    (cs ++ rest).dropWhile isBlank = cs ++ rest := by
  cases cs with
  | nil => exact absurd rfl hfilled
  | cons c cs => simp [hsolid c List.mem_cons_self]

-- Trimming takes the gaps at both sides of a word away.
theorem trim_word (front back : Gap) (w : Word) :
    trim (front.text ++ (w.text ++ back.text)) = w.text := by
  have hback : ∀ c ∈ back.text.reverse, isBlank c = true := fun c hc =>
    back.blank c (List.mem_reverse.mp hc)
  have hfilled : w.text.reverse ≠ [] := fun h => w.filled (List.reverse_eq_nil_iff.mp h)
  have hsolid : ∀ c ∈ w.text.reverse, isBlank c = false := fun c hc =>
    w.solid c (List.mem_reverse.mp hc)
  have hword := dropWhile_solid hfilled hsolid []
  rw [List.append_nil] at hword
  rw [trim, List.dropWhile_append_of_pos front.blank, dropWhile_solid w.filled w.solid,
    List.reverse_append, List.dropWhile_append_of_pos hback, hword, List.reverse_reverse]

theorem atBreak_gap (g : Gap) : atBreak g.text = true := by
  cases htext : g.text with
  | nil => rfl
  | cons c rest => exact g.blank c (htext ▸ List.mem_cons_self)

theorem words_gap (g : Gap) (rest : List Char) : words (g.text ++ rest) = words rest := by
  have hskip : ∀ gap : List Char, (∀ c ∈ gap, isBlank c = true) →
      words (gap ++ rest) = words rest := by
    intro gap hgap
    induction gap with
    | nil => rfl
    | cons c gap ih =>
        obtain ⟨hc, hgap⟩ := List.forall_mem_cons.mp hgap
        rw [List.cons_append, words, if_pos hc, ih hgap]
  exact hskip g.text g.blank

theorem words_word {w rest : List Char} (hfilled : w ≠ []) (hsolid : ∀ c ∈ w, isBlank c = false)
    (hrest : atBreak rest = true) : words (w ++ rest) = w :: words rest := by
  induction w with
  | nil => exact absurd rfl hfilled
  | cons c w ih =>
      obtain ⟨hc, hw⟩ := List.forall_mem_cons.mp hsolid
      rw [List.cons_append, words, if_neg (by simp [hc])]
      cases w with
      | nil => simp [hrest]
      | cons d w =>
          have hgoes : atBreak (d :: w ++ rest) = false := hw d List.mem_cons_self
          rw [hgoes, ih (List.cons_ne_nil d w) hw]
          rfl

theorem words_ne_nil {cs : List Char} (h : atBreak cs = false) : words cs ≠ [] := by
  cases cs with
  | nil => cases h
  | cons c cs =>
      have hsolid : isBlank c = false := h
      rw [words, if_neg (Bool.eq_false_iff.mp hsolid)]
      split
      · exact List.cons_ne_nil _ _
      · split <;> exact List.cons_ne_nil _ _

-- A blank sets the words on both of its sides apart.
theorem words_append_blank_cons {c : Char} (h : isBlank c = true) (cs rest : List Char) :
    words (cs ++ c :: rest) = words cs ++ words rest := by
  induction cs with
  | nil => simp [words, h]
  | cons d cs ih =>
      have hbreak : atBreak (cs ++ c :: rest) = atBreak cs := by
        cases cs with
        | nil => exact h
        | cons => rfl
      rw [List.cons_append, words, words, ih, hbreak]
      split
      · rfl
      split
      · rfl
      · rename_i hgoes
        obtain ⟨w, ws, hw⟩ :=
          List.exists_cons_of_ne_nil (words_ne_nil (Bool.eq_false_iff.mpr hgoes))
        rw [hw]
        rfl

-- Blanks at the end make no word.
theorem words_append_blank {c : Char} (h : isBlank c = true) (cs : List Char) :
    words (cs ++ [c]) = words cs := by
  rw [words_append_blank_cons h, words, List.append_nil]

namespace Spacing

theorem atBreak_layFrom (s : Spacing) (column : Nat) (ws : List Word) :
    atBreak (s.layFrom (column + 1) ws) = true := by
  cases ws with
  | nil => exact atBreak_gap s.behind
  | cons w ws =>
      obtain ⟨c, rest, hgap⟩ := List.exists_cons_of_ne_nil (s.apart column)
      have hbreak := atBreak_gap (s.before (column + 1))
      rw [hgap] at hbreak
      rw [layFrom, hgap]
      exact hbreak

theorem words_layFrom (s : Spacing) (column : Nat) (ws : List Word) :
    words (s.layFrom column ws) = ws.map Word.text := by
  induction ws generalizing column with
  | nil =>
      have hnone := words_gap s.behind []
      rwa [List.append_nil] at hnone
  | cons w ws ih =>
      rw [layFrom, words_gap, words_word w.filled w.solid (s.atBreak_layFrom column ws), ih,
        List.map_cons]

-- The words of a line are its columns, however they are spaced.
theorem words_lay (s : Spacing) (ws : List Word) : words (s.lay ws) = ws.map Word.text :=
  s.words_layFrom 0 ws

theorem unbroken_layFrom (s : Spacing) (column : Nat) (ws : List Word) :
    '\n' ∉ s.layFrom column ws := by
  induction ws generalizing column with
  | nil => exact s.behind.unbroken
  | cons w ws ih =>
      simp [layFrom, (s.before column).unbroken, w.unbroken, ih (column + 1)]

def line (s : Spacing) (ws : List Word) : Line :=
  ⟨s.lay ws, s.unbroken_layFrom 0 ws⟩

end Spacing

-- A character goes to the first line behind it, unless it ends a line itself.
theorem lines_cons {c : Char} {rest : List Char} (hc : c ≠ '\n')
    (hreturn : c = '\r' → ∀ behind, rest ≠ '\n' :: behind) :
    lines (c :: rest) = (c :: (lines rest).head?.getD []) :: (lines rest).tail := by
  rw [lines]
  · cases lines rest <;> rfl
  · exact hc
  · exact fun behind hc => hreturn hc behind

-- An ended line is read without its ending, to which a carriage return may belong.
theorem lines_ended {l : List Char} (h : '\n' ∉ l) (rest : List Char) :
    ∃ l', lines (l ++ '\n' :: rest) = l' :: lines rest ∧ (l = l' ∨ l = l' ++ ['\r']) := by
  induction l with
  | nil => exact ⟨[], rfl, .inl rfl⟩
  | cons c l ih =>
      rw [List.mem_cons, not_or] at h
      by_cases hreturn : c = '\r' ∧ l = []
      · obtain ⟨rfl, rfl⟩ := hreturn
        exact ⟨[], rfl, .inr rfl⟩
      · obtain ⟨l', hl', hends⟩ := ih h.2
        have hgoes : c = '\r' → ∀ behind, l ++ '\n' :: rest ≠ '\n' :: behind := by
          intro hc behind hbehind
          cases l with
          | nil => exact hreturn ⟨hc, rfl⟩
          | cons d l =>
              cases hbehind
              exact h.2 List.mem_cons_self
        refine ⟨c :: l', ?_, ?_⟩
        · rw [List.cons_append, lines_cons (Ne.symm h.1) hgoes, hl']
          rfl
        · rcases hends with rfl | rfl
          · exact .inl rfl
          · exact .inr rfl

theorem lines_unended {l : List Char} (h : '\n' ∉ l) : lines l = if l = [] then [] else [l] := by
  induction l with
  | nil => rfl
  | cons c l ih =>
      rw [List.mem_cons, not_or] at h
      have hgoes : c = '\r' → ∀ behind, l ≠ '\n' :: behind := by
        rintro - behind rfl
        exact h.2 List.mem_cons_self
      rw [lines_cons (Ne.symm h.1) hgoes, ih h.2]
      cases l <;> rfl

theorem stack_unended (l : Line) : stack false [l] = l.text :=
  List.append_nil l.text

theorem stack_cons (ended : Bool) (l : Line) {ls : List Line} (h : ls ≠ []) :
    stack ended (l :: ls) = l.text ++ '\n' :: stack ended ls := by
  cases ls with
  | nil => exact absurd rfl h
  | cons => rfl

private theorem filterMap_cons_toList {α β : Type} (f : α → Option β) (a : α) (as : List α) :
    (a :: as).filterMap f = (f a).toList ++ as.filterMap f := by
  rw [List.filterMap_cons]
  cases f a <;> rfl

-- What is read line by line from a text, if neither a blank line nor a carriage return counts.
theorem filterMap_lines {α : Type} {f : List Char → Option α} (hblank : f [] = none)
    (hreturn : ∀ l, f (l ++ ['\r']) = f l) (ended : Bool) (ls : List Line) :
    (lines (stack ended ls)).filterMap f = ls.filterMap (f ·.text) := by
  -- what is read from an ended line and from what comes behind it
  have hended : ∀ (l : Line) (rest : List Char),
      (lines (l.text ++ '\n' :: rest)).filterMap f =
        (f l.text).toList ++ (lines rest).filterMap f := by
    intro l rest
    obtain ⟨l', hlines, htext⟩ := lines_ended l.unbroken rest
    have hsame : f l' = f l.text := by
      rcases htext with htext | htext
      · rw [htext]
      · rw [htext, hreturn]
    rw [hlines, filterMap_cons_toList, hsame]
  induction ls with
  | nil => rfl
  | cons l ls ih =>
      rw [filterMap_cons_toList]
      cases ls with
      | nil =>
          cases ended with
          | true => exact hended l []
          | false =>
              rw [stack_unended, lines_unended l.unbroken]
              split
              · rename_i hnone
                rw [hnone, hblank]
                rfl
              · exact filterMap_cons_toList f l.text []
      | cons l' ls => rw [stack_cons ended l (List.cons_ne_nil l' ls), hended, ih]

-- What is read from the words of each line.
theorem filterMap_words {α : Type} {f : List (List Char) → Option α} (hblank : f [] = none)
    (ended : Bool) (ls : List Line) :
    ((lines (stack ended ls)).map words).filterMap f = ls.filterMap (f <| words ·.text) := by
  have hreturn : ∀ l, f (words (l ++ ['\r'])) = f (words l) := fun l => by
    rw [words_append_blank rfl]
  rw [List.filterMap_map]
  exact filterMap_lines hblank hreturn ended ls

theorem findSome?_words {α : Type} {f : List (List Char) → Option α} (hblank : f [] = none)
    (ended : Bool) (ls : List Line) :
    ((lines (stack ended ls)).map words).findSome? f = ls.findSome? (f <| words ·.text) := by
  rw [← List.head?_filterMap, filterMap_words hblank, List.head?_filterMap]

theorem countP_words {p : List (List Char) → Bool} (hblank : p [] = false) (ended : Bool)
    (ls : List Line) :
    ((lines (stack ended ls)).map words).countP p = ls.countP (p <| words ·.text) := by
  let f : List (List Char) → Option Unit := fun ws => if p ws then some () else none
  have hf : ∀ ws, (f ws).isSome = p ws := fun ws => by cases hp : p ws <;> simp [f, hp]
  have hnone : f [] = none := by simp [f, hblank]
  have hlength := congrArg List.length (filterMap_words hnone ended ls)
  simpa only [List.length_filterMap_eq_countP, hf] using hlength

-- A heading is one line, whatever it says.
theorem lines_heading (ended : Bool) (heading : Line) (ls : List Line) :
    (lines (stack ended (heading :: ls))).drop 1 = lines (stack ended ls) := by
  have hended : ∀ rest, (lines (heading.text ++ '\n' :: rest)).drop 1 = lines rest := by
    intro rest
    obtain ⟨heading', hlines, -⟩ := lines_ended heading.unbroken rest
    rw [hlines, List.drop_one, List.tail_cons]
  cases ls with
  | nil =>
      cases ended with
      | true => exact hended []
      | false =>
          rw [stack_unended, lines_unended heading.unbroken]
          split <;> rfl
  | cons l ls => rw [stack_cons ended heading (List.cons_ne_nil l ls), hended]

end MetricRelay.Text
