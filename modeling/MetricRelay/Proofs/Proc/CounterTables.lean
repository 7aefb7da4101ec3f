import MetricRelay.Proc.Counters
import MetricRelay.Proofs.Text.Columns
import MetricRelay.Proofs.Text.Numerals

namespace MetricRelay.Proc

open Text

-- A number in a column.
def numeral (n : Nat) : Word where
  text := Numeral.decimal n
  filled := Numeral.write_ne_nil 10 n
  solid := fun _ hc => Numeral.isBlank_of_isDigit (Numeral.isDigit_of_mem_decimal hc)

theorem number?_numeral {n : Nat} (h : n < UInt64.size) :
    number? (numeral n).text = some (.ofNat n) := by
  have hread : Numeral.count? 10 (UInt64.size - 1) (numeral n).text = some n :=
    Numeral.count?_decimal (Nat.le_pred_of_lt h)
  rw [number?, hread, Option.map_some]

theorem number_numeral (x : UInt64) {r : Row} {column : Nat}
    (h : r[column]? = some (numeral x.toNat).text) : r.number column = x := by
  rw [Row.number, h, Option.bind_some, number?_numeral x.toNat_lt, Option.getD_some,
    UInt64.ofNat_toNat]

-- A name that can stand in a column.
structure IsName (name : String) : Prop where
  filled : name.toList ≠ []
  solid : ∀ c ∈ name.toList, isBlank c = false

def IsName.word {name : String} (h : IsName name) : Word :=
  ⟨name.toList, h.filled, h.solid⟩

-- A device as the table `diskstats` shows it, which counts sectors of 512 bytes.
structure DiskRow where
  device : DiskCounters
  named : IsName device.name
  sectorsRead : Nat
  sectorsWritten : Nat
  readBytes_eq : device.readBytes.toNat = sectorsRead * 512
  writeBytes_eq : device.writeBytes.toNat = sectorsWritten * 512
  major : Word
  minor : Word
  readsMerged : Word
  readTime : Word
  writesMerged : Word
  writeTime : Word
  trailing : List Word

namespace DiskRow

def columns (r : DiskRow) : List Word :=
  [r.major, r.minor, r.named.word, numeral r.device.reads.toNat, r.readsMerged,
    numeral r.sectorsRead, r.readTime, numeral r.device.writes.toNat, r.writesMerged,
    numeral r.sectorsWritten, r.writeTime, numeral r.device.queueLength.toNat] ++ r.trailing

theorem number_sectors {bytes : UInt64} {sectors : Nat} (hbytes : bytes.toNat = sectors * 512)
    {r : Row} {column : Nat} (h : r[column]? = some (numeral sectors).text) :
    r.number column * sectorSize = bytes := by
  have hsize : sectors < UInt64.size := by
    have hlt : bytes.toNat < 2 ^ 64 := bytes.toNat_lt
    change sectors < 2 ^ 64
    omega
  rw [Row.number, h, Option.bind_some, number?_numeral hsize, Option.getD_some, sectorSize,
    ← UInt64.ofNat_toNat (x := bytes), hbytes, UInt64.ofNat_mul]
  rfl

theorem diskRow?_columns (r : DiskRow) : diskRow? (r.columns.map Word.text) = some r.device := by
  have hlong : ¬(r.columns.map Word.text).length < 12 := by simp [columns]
  have hfront : ∃ behind, r.columns.map Word.text =
      r.major.text :: r.minor.text :: r.named.word.text :: behind := ⟨_, rfl⟩
  have hname : String.ofList r.named.word.text = r.device.name := String.ofList_toList
  have hreads : Row.number (r.columns.map Word.text) 3 = r.device.reads := number_numeral _ rfl
  have hread : Row.number (r.columns.map Word.text) 5 * sectorSize = r.device.readBytes :=
    number_sectors r.readBytes_eq rfl
  have hwrites : Row.number (r.columns.map Word.text) 7 = r.device.writes := number_numeral _ rfl
  have hwritten : Row.number (r.columns.map Word.text) 9 * sectorSize = r.device.writeBytes :=
    number_sectors r.writeBytes_eq rfl
  have hqueue : Row.number (r.columns.map Word.text) 11 = r.device.queueLength :=
    number_numeral _ rfl
  generalize r.columns.map Word.text = row at *
  obtain ⟨behind, rfl⟩ := hfront
  simp only [diskRow?, if_neg hlong, hname, hreads, hread, hwrites, hwritten, hqueue]

end DiskRow

-- A line of the table: a device, or fewer columns than a device has.
inductive DiskLine where
  | device (s : Spacing) (r : DiskRow)
  | short (s : Spacing) (columns : List Word) (few : columns.length < 12)

namespace DiskLine

def line : DiskLine → Line
  | device s r => s.line r.columns
  | short s columns _ => s.line columns

def device? : DiskLine → Option DiskCounters
  | device _ r => some r.device
  | short .. => none

theorem diskRow?_words (l : DiskLine) : diskRow? (words l.line.text) = l.device? := by
  cases l with
  | device s r => rw [line, Spacing.line, Spacing.words_lay, r.diskRow?_columns, device?]
  | short s columns few =>
      rw [line, Spacing.line, Spacing.words_lay, device?]
      unfold diskRow?
      split
      · exact if_pos (by simpa using few)
      · rfl

end DiskLine

-- An interface as the table `net/dev` shows it.
structure NetRow where
  interface : NetCounters
  named : IsName interface.name
  colonless : ':' ∉ interface.name.toList
  errors : Word
  dropped : Word
  fifo : Word
  frame : Word
  compressed : Word
  multicast : Word
  further : List Word

namespace NetRow

-- What stands behind the colon.
def columns (r : NetRow) : List Word :=
  [numeral r.interface.recvBytes.toNat, numeral r.interface.recvPackets.toNat, r.errors, r.dropped,
    r.fifo, r.frame, r.compressed, r.multicast, numeral r.interface.sentBytes.toNat,
    numeral r.interface.sentPackets.toNat] ++ r.further

end NetRow

-- A line of the table: an interface, too few counters behind a colon, or no colon.
inductive NetLine where
  | interface (front back : Gap) (s : Spacing) (r : NetRow)
  | short (before : Line) (colonless : ':' ∉ before.text) (s : Spacing) (columns : List Word)
      (few : columns.length < 10)
  | colonless (l : Line) (h : ':' ∉ l.text)

namespace NetLine

theorem colonless_gap (g : Gap) : ':' ∉ g.text :=
  fun h => absurd (g.blank ':' h) (by decide)

-- What stands before a colon, and the columns behind it.
def joined (before : Line) (s : Spacing) (columns : List Word) : Line :=
  ⟨before.text ++ ':' :: (s.line columns).text, by
    simp [before.unbroken, (s.line columns).unbroken]⟩

def front (front back : Gap) (r : NetRow) : Line :=
  ⟨front.text ++ (r.named.word.text ++ back.text), by
    simp [front.unbroken, back.unbroken, r.named.word.unbroken]⟩

def line : NetLine → Line
  | interface front back s r => joined (NetLine.front front back r) s r.columns
  | short before _ s columns _ => joined before s columns
  | colonless l _ => l

def interface? : NetLine → Option NetCounters
  | interface _ _ _ r => some r.interface
  | short .. | colonless .. => none

theorem netLine?_concat (l : List Char) : netLine? (l ++ ['\r']) = netLine? l := by
  rw [netLine?, netLine?, cut?_concat (by decide)]
  cases cut? ':' l with
  | none => rfl
  | some p => simp only [Option.map_some, Option.bind_eq_bind, Option.bind_some,
      words_append_blank (show isBlank '\r' = true from rfl)]

theorem netLine?_joined {before : Line} (h : ':' ∉ before.text) (s : Spacing)
    (columns : List Word) :
    netLine? (joined before s columns).text =
      if columns.length < 10 then none
      else some {
        name := String.ofList (trim before.text)
        recvBytes := Row.number (columns.map Word.text) 0
        recvPackets := Row.number (columns.map Word.text) 1
        sentBytes := Row.number (columns.map Word.text) 8
        sentPackets := Row.number (columns.map Word.text) 9 } := by
  rw [netLine?, joined, cut?_append h]
  simp only [Option.bind_eq_bind, Option.bind_some, Spacing.line, Spacing.words_lay,
    List.length_map]

theorem netLine?_text (l : NetLine) : netLine? l.line.text = l.interface? := by
  cases l with
  | interface front back s r =>
      have hcolonless : ':' ∉ (NetLine.front front back r).text := by
        simp [NetLine.front, colonless_gap, IsName.word, r.colonless]
      have hlong : ¬r.columns.length < 10 := by simp [NetRow.columns]
      have hname : String.ofList (trim (NetLine.front front back r).text) = r.interface.name := by
        rw [NetLine.front, trim_word]
        exact String.ofList_toList
      rw [line, netLine?_joined hcolonless, if_neg hlong, hname,
        number_numeral r.interface.recvBytes rfl, number_numeral r.interface.recvPackets rfl,
        number_numeral r.interface.sentBytes rfl, number_numeral r.interface.sentPackets rfl]
      rfl
  | short before colonless s columns few => rw [line, netLine?_joined colonless, if_pos few]; rfl
  | colonless l h => rw [line, netLine?, cut?_eq_none h]; rfl

end NetLine

-- A line of the table `stat` about one processor, or about anything but processors.
inductive StatLine where
  | processor (s : Spacing) (number : List Char) (filled : number ≠ [])
      (digits : ∀ c ∈ number, Numeral.isDigit c = true) (further : List Word)
  | other (s : Spacing) (columns : List Word)
      (foreign : ∀ w ∈ columns.head?, ∀ number, w.text = 'c' :: 'p' :: 'u' :: number →
        ∃ c ∈ number, Numeral.isDigit c = false)

namespace StatLine

-- The name of a processor.
def name (number : List Char) (digits : ∀ c ∈ number, Numeral.isDigit c = true) : Word where
  text := 'c' :: 'p' :: 'u' :: number
  filled := List.cons_ne_nil _ _
  solid := by
    have hnumber : ∀ c ∈ number, isBlank c = false := fun c hc =>
      Numeral.isBlank_of_isDigit (digits c hc)
    simpa using ⟨rfl, rfl, rfl, hnumber⟩

def line : StatLine → Line
  | processor s number _ digits further => s.line (name number digits :: further)
  | other s columns _ => s.line columns

def isProcessor : StatLine → Bool
  | processor .. => true
  | other .. => false

theorem isCpuRow_words (l : StatLine) : isCpuRow (words l.line.text) = l.isProcessor := by
  cases l with
  | processor s number filled digits further =>
      have hall : number.all Numeral.isDigit = true := List.all_eq_true.mpr digits
      rw [line, Spacing.line, Spacing.words_lay, List.map_cons, name, isCpuRow, hall]
      simpa [isProcessor] using filled
  | other s columns foreign =>
      rw [line, Spacing.line, Spacing.words_lay, isProcessor]
      cases columns with
      | nil => rfl
      | cons w ws =>
          rw [List.map_cons]
          unfold isCpuRow
          split
          · rename_i number _ hrow
            obtain ⟨c, hc, hdigit⟩ := foreign w rfl number (List.cons.inj hrow).1
            have hall : number.all Numeral.isDigit = false :=
              List.all_eq_false.mpr ⟨c, hc, by simp [hdigit]⟩
            rw [hall, Bool.and_false]
          · rfl

theorem cpuTicksRow?_words (l : StatLine) : cpuTicksRow? (words l.line.text) = none := by
  cases l with
  | processor s number filled digits further =>
      rw [line, Spacing.line, Spacing.words_lay, List.map_cons]
      exact if_neg (by simpa [name] using filled)
  | other s columns foreign =>
      rw [line, Spacing.line, Spacing.words_lay]
      cases columns with
      | nil => rfl
      | cons w ws =>
          rw [List.map_cons]
          refine if_neg fun hw => ?_
          obtain ⟨c, hc, -⟩ := foreign w rfl [] hw
          exact absurd hc List.not_mem_nil

end StatLine

-- The table `stat`: one line sums up all processors, and the others stand above and below it.
structure StatTable where
  above : List StatLine
  below : List StatLine
  spacing : Spacing
  ticks : CpuTicks
  further : List Word
  ended : Bool

namespace StatTable

def total (t : StatTable) : Line :=
  t.spacing.line (StatLine.name [] (by simp) :: numeral t.ticks.user.toNat ::
    numeral t.ticks.nice.toNat :: numeral t.ticks.system.toNat :: numeral t.ticks.idle.toNat ::
    numeral t.ticks.iowait.toNat :: numeral t.ticks.irq.toNat :: numeral t.ticks.softirq.toNat ::
    numeral t.ticks.steal.toNat :: t.further)

def text (t : StatTable) : String :=
  .ofList (stack t.ended (t.above.map StatLine.line ++ t.total :: t.below.map StatLine.line))

-- How many processors have a line of their own.
def processors (t : StatTable) : Nat :=
  (t.above ++ t.below).countP StatLine.isProcessor

theorem cpuTicksRow?_total (t : StatTable) : cpuTicksRow? (words t.total.text) = some t.ticks := by
  rw [total, Spacing.line, Spacing.words_lay, List.map_cons, cpuTicksRow?]
  refine (if_pos rfl).trans ?_
  rw [number_numeral t.ticks.user rfl, number_numeral t.ticks.nice rfl,
    number_numeral t.ticks.system rfl, number_numeral t.ticks.idle rfl,
    number_numeral t.ticks.iowait rfl, number_numeral t.ticks.irq rfl,
    number_numeral t.ticks.softirq rfl, number_numeral t.ticks.steal rfl]

theorem cpuTicks_text (t : StatTable) : cpuTicks t.text = .ok t.ticks := by
  have habove : (t.above.map StatLine.line).findSome? (cpuTicksRow? <| words ·.text) = none := by
    rw [List.findSome?_map, List.findSome?_eq_none_iff]
    exact fun l _ => l.cpuTicksRow?_words
  have hrow : (rows t.text).findSome? cpuTicksRow? = some t.ticks := by
    rw [rows, text, String.toList_ofList, findSome?_words rfl, List.findSome?_append, habove,
      Option.none_or, List.findSome?_cons, t.cpuTicksRow?_total]
  rw [cpuTicks, hrow]

theorem cpuCount_text (t : StatTable) :
    cpuCount t.text =
      if t.processors = 0 then .error (.provider "stat lists no cpus")
      else .ok (.ofNat t.processors) := by
  have hlines : ∀ ls : List StatLine,
      (ls.map StatLine.line).countP (isCpuRow <| words ·.text) =
        ls.countP StatLine.isProcessor := by
    intro ls
    rw [List.countP_map]
    exact congrArg (ls.countP ·) (funext StatLine.isCpuRow_words)
  have htotal : isCpuRow (words t.total.text) = false := by
    rw [total, Spacing.line, Spacing.words_lay]
    rfl
  have hcount : (rows t.text).countP isCpuRow = t.processors := by
    rw [rows, text, String.toList_ofList, countP_words rfl, List.countP_append,
      List.countP_cons_of_neg (by simp [htotal]), hlines, hlines, processors, List.countP_append]
  rw [cpuCount, hcount]

end StatTable

-- The tables of counters are read back as they were written: the devices, the interfaces, the ticks
-- of all processors and their number, whatever the spacing and whatever other lines and columns
-- there are.
theorem counters_read_back (disks : List DiskLine) (nets : List NetLine) (stat : StatTable)
    (ended : Bool) :
    diskCounters (.ofList (stack ended (disks.map DiskLine.line))) =
      disks.filterMap DiskLine.device? ∧
    netCounters (.ofList (stack ended (nets.map NetLine.line))) =
      nets.filterMap NetLine.interface? ∧
    cpuTicks stat.text = .ok stat.ticks ∧
    cpuCount stat.text =
      if stat.processors = 0 then .error (.provider "stat lists no cpus")
      else .ok (.ofNat stat.processors) := by
  refine ⟨?_, ?_, stat.cpuTicks_text, stat.cpuCount_text⟩
  · rw [diskCounters, rows, String.toList_ofList, filterMap_words rfl, List.filterMap_map]
    exact congrArg (disks.filterMap ·) (funext DiskLine.diskRow?_words)
  · rw [netCounters, String.toList_ofList, filterMap_lines rfl NetLine.netLine?_concat,
      List.filterMap_map]
    exact congrArg (nets.filterMap ·) (funext NetLine.netLine?_text)

-- A disk below a row of two columns, an interface below a heading, and a single processor below the
-- line for all.
theorem counters_read_back_small :
    let any : Word := ⟨['7'], by decide, solid_of_all rfl⟩
    let gap : Gap := ⟨[' '], List.forall_mem_singleton.mpr rfl, by decide⟩
    let sda : DiskRow := {
      device := ⟨"sda", 3, 1024, 5, 512, 1⟩
      named := ⟨by decide, solid_of_all rfl⟩
      sectorsRead := 2
      sectorsWritten := 1
      readBytes_eq := rfl
      writeBytes_eq := rfl
      major := any
      minor := any
      readsMerged := any
      readTime := any
      writesMerged := any
      writeTime := any
      trailing := [any] }
    let lo : NetRow := {
      interface := ⟨"lo", 90, 9, 80, 8⟩
      named := ⟨by decide, solid_of_all rfl⟩
      colonless := by decide
      errors := any
      dropped := any
      fifo := any
      frame := any
      compressed := any
      multicast := any
      further := [] }
    let disks : List DiskLine := [.short .single [any, any] (by decide), .device .single sda]
    let nets : List NetLine := [.colonless ⟨['f', 'a', 'c', 'e'], by decide⟩ (by decide),
      .interface gap gap .single lo]
    let stat : StatTable := {
      above := []
      below := [.processor .single ['0'] (by decide) (List.forall_mem_singleton.mpr rfl) [any],
        .other .single [any] fun _ hw _ hname =>
          absurd (List.cons.inj (Option.some.inj hw ▸ hname)).1 (by decide)]
      spacing := .single
      ticks := ⟨1, 2, 3, 4, 5, 6, 7, 8⟩
      further := [any]
      ended := false }
    let diskstats := "7 7\n7 7 sda 3 7 2 7 5 7 1 7 1 7\n"
    let netDev := "face\n lo :90 9 7 7 7 7 7 7 80 8\n"
    let cpus := "cpu 1 2 3 4 5 6 7 8 7\ncpu0 7\n7"
    String.ofList (stack true (disks.map DiskLine.line)) = diskstats ∧
      String.ofList (stack true (nets.map NetLine.line)) = netDev ∧ stat.text = cpus ∧
      diskCounters diskstats = [⟨"sda", 3, 1024, 5, 512, 1⟩] ∧
      netCounters netDev = [⟨"lo", 90, 9, 80, 8⟩] ∧
      cpuTicks cpus = .ok ⟨1, 2, 3, 4, 5, 6, 7, 8⟩ ∧ cpuCount cpus = .ok 1 := by
  intro any gap sda lo disks nets stat diskstats netDev cpus
  have hdisks : String.ofList (stack true (disks.map DiskLine.line)) = diskstats := by decide
  have hnets : String.ofList (stack true (nets.map NetLine.line)) = netDev := by decide
  have hstat : stat.text = cpus := by decide
  obtain ⟨hreadDisks, hreadNets, hticks, hcount⟩ := counters_read_back disks nets stat true
  rw [hdisks] at hreadDisks
  rw [hnets] at hreadNets
  rw [hstat] at hticks hcount
  exact ⟨hdisks, hnets, hstat, hreadDisks, hreadNets, hticks, hcount⟩

end MetricRelay.Proc
