import MetricRelay.Proc.Devices
import MetricRelay.Proofs.Text.Columns

namespace MetricRelay.Proc

open Text

-- What would end a field or look like a number in it.
def special : List Char := [' ', '\t', '\n', '\\']

-- How the table of mounts shows a character: a special one by its number.
def shown (c : Char) : List Char :=
  if c = ' ' then ['\\', '0', '4', '0']
  else if c = '\t' then ['\\', '0', '1', '1']
  else if c = '\n' then ['\\', '0', '1', '2']
  else if c = '\\' then ['\\', '1', '3', '4']
  else [c]

-- The same, but a space as it is.
def spaced (c : Char) : List Char :=
  if c = ' ' then [' '] else shown c

def escape (field : List Char) : List Char :=
  field.flatMap shown

theorem forall_special {p : Char → Prop} :
    (∀ c ∈ special, p c) ↔ p ' ' ∧ p '\t' ∧ p '\n' ∧ p '\\' := by
  simp [special]

theorem shown_of_notMem {c : Char} (h : c ∉ special) : shown c = [c] := by
  simp only [special, List.mem_cons, List.not_mem_nil, or_false, not_or] at h
  simp [shown, h]

theorem shown_eq_self_iff {c : Char} : shown c = [c] ↔ c ∉ special := by
  have hspecial : ∀ c ∈ special, shown c ≠ [c] := forall_special.mpr (by decide)
  exact ⟨fun h hc => hspecial c hc h, shown_of_notMem⟩

theorem spaced_eq_self_iff {c : Char} : spaced c = [c] ↔ c ∉ ['\t', '\n', '\\'] := by
  by_cases hspace : c = ' '
  · subst hspace
    decide
  · rw [spaced, if_neg hspace, shown_eq_self_iff, special, List.mem_cons, not_or]
    exact and_iff_right hspace

theorem shown_ne_nil (c : Char) : shown c ≠ [] := by
  have hspecial : ∀ c ∈ special, shown c ≠ [] := forall_special.mpr (by decide)
  by_cases hc : c ∈ special
  · exact hspecial c hc
  · rw [shown_of_notMem hc]
    exact List.cons_ne_nil c []

theorem spaced_ne_nil (c : Char) : spaced c ≠ [] := by
  unfold spaced
  split
  · exact List.cons_ne_nil _ _
  · exact shown_ne_nil c

theorem solid_shown {c : Char} (h : isBlank c = true → c = ' ' ∨ c = '\t' ∨ c = '\n') :
    ∀ d ∈ shown c, isBlank d = false := by
  have hspecial : ∀ c ∈ special, (shown c).all (!isBlank ·) = true :=
    forall_special.mpr (by decide)
  by_cases hc : c ∈ special
  · exact solid_of_all (hspecial c hc)
  · rw [shown_of_notMem hc, List.forall_mem_singleton, Bool.eq_false_iff]
    intro hblank
    apply hc
    rcases h hblank with rfl | rfl | rfl <;> decide

theorem newline_notMem_escape (field : List Char) : '\n' ∉ escape field := by
  have hspecial : ∀ c ∈ special, '\n' ∉ shown c := forall_special.mpr (by decide)
  rw [escape, List.mem_flatMap]
  rintro ⟨c, -, hc⟩
  by_cases hmem : c ∈ special
  · exact hspecial c hmem hc
  · rw [shown_of_notMem hmem, List.mem_singleton] at hc
    subst hc
    exact hmem (by decide)

-- A field begins with a slash as it is shown if and only if it does as it is.
theorem head?_escape (field : List Char) :
    (escape field).head? = some '/' ↔ field.head? = some '/' := by
  have hspecial : ∀ c ∈ special, (shown c).head? = some '\\' ∧ c ≠ '/' :=
    forall_special.mpr (by decide)
  cases field with
  | nil => rfl
  | cons c field =>
      rw [escape, List.flatMap_cons, List.head?_append, List.head?_cons]
      by_cases hc : c ∈ special
      · obtain ⟨hmark, hslash⟩ := hspecial c hc
        simp [hmark, hslash]
      · rw [shown_of_notMem hc, List.head?_cons, Option.some_or]

-- A text is unchanged only if each of its characters is.
theorem flatMap_eq_self_iff {g : Char → List Char} (hg : ∀ c, g c ≠ []) {cs : List Char} :
    cs.flatMap g = cs ↔ ∀ c ∈ cs, g c = [c] := by
  have hlength : ∀ cs : List Char, cs.length ≤ (cs.flatMap g).length := by
    intro cs
    induction cs with
    | nil => exact Nat.le_refl 0
    | cons c cs ih =>
        have hpos : 0 < (g c).length := List.length_pos_iff.mpr (hg c)
        rw [List.flatMap_cons, List.length_append, List.length_cons]
        omega
  induction cs with
  | nil => simp
  | cons c cs ih =>
      rw [List.flatMap_cons, List.forall_mem_cons]
      constructor
      · intro h
        have hone : (g c).length = [c].length := by
          have htotal := congrArg List.length h
          have hrest := hlength cs
          have hpos : 0 < (g c).length := List.length_pos_iff.mpr (hg c)
          rw [List.length_append, List.length_cons] at htotal
          rw [List.length_singleton]
          omega
        obtain ⟨hc, hcs⟩ := List.append_inj h hone
        exact ⟨hc, ih.mp hcs⟩
      · rintro ⟨hc, hcs⟩
        rw [hc, ih.mpr hcs, List.singleton_append]

-- Reading a field puts its spaces back and nothing else. What looks like the number of a space
-- begins with a mark that is itself shown by number.
theorem unescapeMount_escape (field : List Char) :
    unescapeMount (escape field) = field.flatMap spaced := by
  have hspecial : ∀ c ∈ special, ∀ rest,
      unescapeMount (shown c ++ rest) = spaced c ++ unescapeMount rest := by
    simp [special, shown, spaced, unescapeMount]
  induction field with
  | nil => rfl
  | cons c field ih =>
      rw [escape, List.flatMap_cons, ← escape, List.flatMap_cons, ← ih]
      by_cases hc : c ∈ special
      · exact hspecial c hc _
      · have hmark : c ≠ '\\' := fun h => hc (h ▸ by decide)
        have hspace : c ≠ ' ' := fun h => hc (h ▸ by decide)
        rw [spaced, if_neg hspace, shown_of_notMem hc, List.singleton_append, unescapeMount]
        · rfl
        · exact fun _ h => absurd h hmark

-- A field that stays in one piece as it is shown: it is not empty, and the only blanks in it are
-- those that are shown by number.
structure IsWhole (field : String) : Prop where
  filled : field.toList ≠ []
  solid : ∀ c ∈ field.toList, isBlank c = true → c = ' ' ∨ c = '\t' ∨ c = '\n'

instance (field : String) : Decidable (IsWhole field) :=
  decidable_of_iff
    (field.toList ≠ [] ∧
      field.toList.all (fun c => isBlank c = true → c = ' ' ∨ c = '\t' ∨ c = '\n') = true)
    ⟨fun ⟨hfilled, hsolid⟩ =>
        ⟨hfilled, fun c hc => of_decide_eq_true (List.all_eq_true.mp hsolid c hc)⟩,
      fun h => ⟨h.filled, List.all_eq_true.mpr fun c hc => decide_eq_true (h.solid c hc)⟩⟩

theorem words_escape {field : String} (h : IsWhole field) :
    words (escape field.toList) = [escape field.toList] := by
  have hfilled : escape field.toList ≠ [] := by
    rw [escape, ne_eq, List.flatMap_eq_nil_iff]
    obtain ⟨c, hc⟩ := List.exists_mem_of_ne_nil _ h.filled
    exact fun hnone => shown_ne_nil c (hnone c hc)
  have hsolid : ∀ c ∈ escape field.toList, isBlank c = false := by
    intro d hd
    obtain ⟨c, hc, hd⟩ := List.mem_flatMap.mp hd
    exact solid_shown (h.solid c hc) d hd
  have hword : words (escape field.toList ++ []) = escape field.toList :: words [] :=
    words_word hfilled hsolid rfl
  rwa [List.append_nil] at hword

-- Something mounted on a path.
structure Mount where
  device : String
  path : String
  fsType : String
  options : String

namespace Mount

structure IsWhole (m : Mount) : Prop where
  device : Proc.IsWhole m.device
  path : Proc.IsWhole m.path
  fsType : Proc.IsWhole m.fsType

-- Whether a device is mounted, and not a file system of the kernel's own.
def IsBacked (m : Mount) : Prop :=
  m.device.toList.head? = some '/'

instance (m : Mount) : Decidable m.IsBacked :=
  inferInstanceAs (Decidable (_ = _))

-- A row of the table of mounts, with the two columns that are always zero.
def line (m : Mount) : Line where
  text := escape m.device.toList ++ ' ' :: (escape m.path.toList ++ ' ' ::
    (escape m.fsType.toList ++ ' ' :: (escape m.options.toList ++ [' ', '0', ' ', '0'])))
  unbroken := by simp [newline_notMem_escape]

def table (ended : Bool) (ms : List Mount) : String :=
  .ofList (stack ended (ms.map line))

-- What blanks make of the fields as they are shown.
def pieces (m : Mount) : Row :=
  [m.device, m.path, m.fsType, m.options].flatMap (words <| escape ·.toList) ++ [['0'], ['0']]

theorem words_line (m : Mount) : words m.line.text = m.pieces := by
  have hspace : isBlank ' ' = true := rfl
  simp only [line, words_append_blank_cons hspace, pieces, List.flatMap_cons, List.flatMap_nil,
    List.append_assoc, List.append_nil]
  rfl

theorem fileStores_table (ended : Bool) (ms : List Mount) :
    fileStores (table ended ms) = ms.filterMap (mount? ·.pieces) := by
  rw [fileStores, rows, table, String.toList_ofList, filterMap_words rfl, List.filterMap_map]
  exact congrArg (ms.filterMap ·) (funext fun m => congrArg mount? m.words_line)

-- What is read of a mount: only the spaces of its path are put back.
def store (m : Mount) : FileStore :=
  ⟨.ofList (escape m.device.toList), .ofList (m.path.toList.flatMap spaced),
    .ofList (escape m.fsType.toList)⟩

theorem mount?_pieces {m : Mount} (h : m.IsWhole) :
    mount? m.pieces = if m.IsBacked then some m.store else none := by
  obtain ⟨behind, hpieces⟩ : ∃ behind, m.pieces = escape m.device.toList ::
      escape m.path.toList :: escape m.fsType.toList :: behind := by
    rw [pieces, List.flatMap_cons, List.flatMap_cons, List.flatMap_cons, words_escape h.device,
      words_escape h.path, words_escape h.fsType]
    exact ⟨_, rfl⟩
  rw [hpieces, mount?, unescapeMount_escape]
  simp only [head?_escape]
  rfl

theorem fileStores_whole (ended : Bool) {ms : List Mount} (h : ∀ m ∈ ms, m.IsWhole) :
    fileStores (table ended ms) = (ms.filter (·.IsBacked)).map store := by
  rw [fileStores_table]
  induction ms with
  | nil => rfl
  | cons m ms ih =>
      obtain ⟨hm, hms⟩ := List.forall_mem_cons.mp h
      rw [List.filterMap_cons, List.filter_cons, ih hms, mount?_pieces hm]
      by_cases hbacked : m.IsBacked
      · simp [hbacked]
      · simp [hbacked]

theorem store_path_eq_iff {m : Mount} :
    m.store.mount = m.path ↔ ∀ c ∈ m.path.toList, c ∉ ['\t', '\n', '\\'] := by
  have hself : m.store.mount = m.path ↔ m.path.toList.flatMap spaced = m.path.toList := by
    rw [store, ← String.toList_inj, String.toList_ofList]
  rw [hself, flatMap_eq_self_iff spaced_ne_nil]
  simp only [spaced_eq_self_iff]

theorem store_fsType_eq_iff {m : Mount} :
    m.store.fsType = m.fsType ↔ ∀ c ∈ m.fsType.toList, c ∉ special := by
  have hself : m.store.fsType = m.fsType ↔ m.fsType.toList.flatMap shown = m.fsType.toList := by
    rw [store, ← String.toList_inj, String.toList_ofList, escape]
  rw [hself, flatMap_eq_self_iff shown_ne_nil]
  simp only [shown_eq_self_iff]

-- Each row of the table of mounts is read by itself, from what blanks make of its fields. If its
-- first three fields stay in one piece, it is left out unless it is backed by a device, and
-- otherwise read with the spaces of the path put back. Tabs, line feeds and backslashes are not put
-- back, so the paths and the types of the file systems are read as they are exactly if no path has
-- one of these, and no type one of these or a space.
theorem mounts_read (ended : Bool) (ms : List Mount) :
    fileStores (table ended ms) = ms.filterMap (mount? ·.pieces) ∧
    (∀ m : Mount, m.IsWhole →
      mount? m.pieces = if m.IsBacked then
        some ⟨.ofList (m.device.toList.flatMap shown), .ofList (m.path.toList.flatMap spaced),
          .ofList (m.fsType.toList.flatMap shown)⟩
      else none) ∧
    ((∀ m ∈ ms, m.IsWhole) →
      ((fileStores (table ended ms)).map (fun s => (s.mount, s.fsType)) =
          (ms.filter (·.IsBacked)).map (fun m => (m.path, m.fsType)) ↔
        ∀ m ∈ ms, m.IsBacked →
          (∀ c ∈ m.path.toList, c ∉ ['\t', '\n', '\\']) ∧
          ∀ c ∈ m.fsType.toList, c ∉ [' ', '\t', '\n', '\\'])) := by
  refine ⟨fileStores_table ended ms, fun m hm => mount?_pieces hm, fun hms => ?_⟩
  rw [fileStores_whole ended hms, List.map_map, List.map_inj_left]
  refine forall_congr' fun m => ?_
  rw [List.mem_filter, decide_eq_true_eq, and_imp, Function.comp_apply, Prod.mk.injEq,
    store_path_eq_iff, store_fsType_eq_iff, special]

-- A space in a path is read as it is, and what no device backs is left out.
theorem mounts_read_spaced :
    let stick : Mount := ⟨"/dev/sdb1", "/mnt/my disk", "vfat", "rw"⟩
    let run : Mount := ⟨"tmpfs", "/run", "tmpfs", "rw"⟩
    table true [run, stick] =
        "tmpfs /run tmpfs rw 0 0\n/dev/sdb1 /mnt/my\\040disk vfat rw 0 0\n" ∧
      run.IsWhole ∧ stick.IsWhole ∧
      fileStores (table true [run, stick]) = [⟨"/dev/sdb1", "/mnt/my disk", "vfat"⟩] ∧
      (fileStores (table true [run, stick])).map (fun s => (s.mount, s.fsType)) =
        [(stick.path, stick.fsType)] := by
  intro stick run
  have hstick : stick.IsWhole := ⟨by decide, by decide, by decide⟩
  have hrun : run.IsWhole := ⟨by decide, by decide, by decide⟩
  have hall : ∀ m ∈ [run, stick], m.IsWhole := by simp [hstick, hrun]
  have hbacked : [run, stick].filter (·.IsBacked) = [stick] := by simp [IsBacked, run, stick]
  obtain ⟨hrows, hread, hrecovered⟩ := mounts_read true [run, stick]
  rw [hbacked] at hrecovered
  refine ⟨by decide, hrun, hstick, ?_, (hrecovered hall).mpr ?_⟩
  · rw [hrows, List.filterMap_cons, hread run hrun, List.filterMap_cons, hread stick hstick]
    decide
  · simp [IsBacked, run, stick]

-- A tab in a path, and a backslash with what looks like the number of a space behind it, are read
-- as the table shows them.
theorem paths_kept_by_number :
    let tabbed : Mount := ⟨"/dev/sda1", "/mnt/a\tb", "ext4", "rw"⟩
    let marked : Mount := ⟨"/dev/sdb1", "/mnt/c\\040d", "ext4", "rw"⟩
    table true [tabbed, marked] =
        "/dev/sda1 /mnt/a\\011b ext4 rw 0 0\n/dev/sdb1 /mnt/c\\134040d ext4 rw 0 0\n" ∧
      fileStores (table true [tabbed, marked]) =
        [⟨"/dev/sda1", "/mnt/a\\011b", "ext4"⟩, ⟨"/dev/sdb1", "/mnt/c\\134040d", "ext4"⟩] ∧
      (fileStores (table true [tabbed, marked])).map (fun s => (s.mount, s.fsType)) ≠
        [(tabbed.path, tabbed.fsType), (marked.path, marked.fsType)] := by
  intro tabbed marked
  have hread : fileStores (table true [tabbed, marked]) =
      [⟨"/dev/sda1", "/mnt/a\\011b", "ext4"⟩, ⟨"/dev/sdb1", "/mnt/c\\134040d", "ext4"⟩] := by
    decide
  exact ⟨by decide, hread, by rw [hread]; decide⟩

end Mount

end MetricRelay.Proc
