import MetricRelay.Proofs.Calendar.Moments
import MetricRelay.Proofs.Snapshot.Sections
import MetricRelay.Snapshot.Json

namespace MetricRelay

open MetricRelay.Tree Json

-- A moment of a year of four digits travels to the last nanosecond.
theorem Timestamp.holds {t : Timestamp} (h : 0 ≤ t.date.year ∧ t.date.year ≤ 9999) :
    Holds ofTree? t.toTree t := by
  refine ⟨.text _, Tree.noConfusion, ?_⟩
  simp [ofTree?, toTree, Tree.text?, read?_write t h]

namespace Snapshot

-- What a snapshot has to say in each of its fields, with nothing for a section that was not
-- collected.
def contents (s : Snapshot) : List Field :=
  [some (.text s.node), some s.timestamp.toTree, s.process.map ProcessInfo.toTree,
    s.disk.map (listTree DiskInfo.toTree), s.sys.map SystemSummary.toTree,
    s.sysFile.map (listTree FileStore.toTree), s.memory.map RuntimeMemory.toTree,
    s.thread.map ThreadInfo.toTree, s.gc.map (listTree GcInfo.toTree),
    s.port.map (listTree PortState.toTree), s.cpu.map CpuUsage.toTree,
    s.diskIo.map (listTree DiskRate.toTree), s.network.map (listTree NetRate.toTree)]

theorem collected_eq {α : Type} (name : String) (write : α → Tree) (content : Option α) :
    collected name write content = ((content.map write).map fun t => (name, t)).toList := by
  cases content <;> rfl

theorem toTree_eq (s : Snapshot) : s.toTree = .table (filed (fieldNames.zip s.contents)) := by
  simp only [toTree, collected_eq, fieldNames, contents, List.zip_cons_cons, List.zip_nil_right,
    filed_cons, Option.map_some, Option.toList_some, List.append_assoc, List.cons_append,
    List.nil_append]
  rw [filed, List.filterMap_nil, List.append_nil]

theorem fields?_toTree (d : Dialect) (s : Snapshot) :
    fields? d fieldNames s.toTree = some s.contents := by
  have hnodup : fieldNames.Nodup := by decide
  rw [toTree_eq]
  exact fields?_filed d (fieldNames.zip s.contents) hnodup

-- The doubles of a snapshot.
def reals (s : Snapshot) : List Float :=
  s.sys.toList.map SystemSummary.loadAverage ++ s.cpu.toList.flatMap CpuUsage.reals ++
    (s.diskIo.getD []).flatMap DiskRate.reals ++ (s.network.getD []).flatMap NetRate.reals

theorem holds (d : Dialect) {s : Snapshot}
    (hyear : 0 ≤ s.timestamp.date.year ∧ s.timestamp.date.year ≤ 9999)
    (hreals : ∀ x ∈ s.reals, ReadsBack x) : Holds (ofTree? d) s.toTree s := by
  simp only [reals, List.forall_mem_append] at hreals
  obtain ⟨⟨⟨hload, hbusy⟩, htransfers⟩, htraffic⟩ := hreals
  have hnode := holds_text s.node
  have htime := Timestamp.holds hyear
  have hprocess : ∀ p ∈ s.process, Holds (ProcessInfo.ofTree? d) p.toTree p := fun p _ => p.holds d
  have hdisk : ∀ is ∈ s.disk, Holds (listOf? (DiskInfo.ofTree? d)) (listTree DiskInfo.toTree is)
      is := fun _ _ => .list fun i _ => i.holds d
  have hsys : ∀ y ∈ s.sys, Holds (SystemSummary.ofTree? d) y.toTree y := by
    intro y hy
    exact y.holds d (hload _ (List.mem_map_of_mem (Option.mem_toList.mpr hy)))
  have hfiles : ∀ fs ∈ s.sysFile, Holds (listOf? (FileStore.ofTree? d))
      (listTree FileStore.toTree fs) fs := fun _ _ => .list fun f _ => f.holds d
  have hmemory : ∀ m ∈ s.memory, Holds (RuntimeMemory.ofTree? d) m.toTree m := fun m _ => m.holds d
  have hthread : ∀ t ∈ s.thread, Holds (ThreadInfo.ofTree? d) t.toTree t := fun t _ => t.holds d
  have hgc : ∀ gs ∈ s.gc, Holds (listOf? (GcInfo.ofTree? d)) (listTree GcInfo.toTree gs) gs :=
    fun _ _ => .list fun g _ => g.holds d
  have hport : ∀ ps ∈ s.port, Holds (listOf? (PortState.ofTree? d)) (listTree PortState.toTree ps)
      ps := fun _ _ => .list fun p _ => p.holds d
  have hcpu : ∀ u ∈ s.cpu, Holds (CpuUsage.ofTree? d) u.toTree u := by
    intro u hu
    exact u.holds d fun x hx => hbusy x (List.mem_flatMap.mpr ⟨u, Option.mem_toList.mpr hu, hx⟩)
  have hdiskIo : ∀ rs ∈ s.diskIo, Holds (listOf? (DiskRate.ofTree? d))
      (listTree DiskRate.toTree rs) rs := by
    intro rs hrs
    rw [hrs, Option.getD_some] at htransfers
    exact .list fun r hr => r.holds d fun x hx => htransfers x (List.mem_flatMap.mpr ⟨r, hr, hx⟩)
  have hnetwork : ∀ rs ∈ s.network, Holds (listOf? (NetRate.ofTree? d))
      (listTree NetRate.toTree rs) rs := by
    intro rs hrs
    rw [hrs, Option.getD_some] at htraffic
    exact .list fun r hr => r.holds d fun x hx => htraffic x (List.mem_flatMap.mpr ⟨r, hr, hx⟩)
  have hcontents : ∀ field ∈ s.contents, ∀ t ∈ field, Readable t := by
    simp only [contents, List.forall_mem_cons]
    exact ⟨by simp [hnode.readable], by simp [htime.readable], Holds.readable_map hprocess,
      Holds.readable_map hdisk, Holds.readable_map hsys, Holds.readable_map hfiles,
      Holds.readable_map hmemory, Holds.readable_map hthread, Holds.readable_map hgc,
      Holds.readable_map hport, Holds.readable_map hcpu, Holds.readable_map hdiskIo,
      Holds.readable_map hnetwork, by simp⟩
  refine ⟨?_, Tree.noConfusion, ?_⟩
  · rw [toTree_eq]
    exact .table fun e he => hcontents _ (List.of_mem_zip (mem_filed.mp he)).2 _ rfl
  · rw [ofTree?, fields?_toTree, Option.bind_eq_bind, Option.bind_some]
    dsimp only [contents]
    rw [hnode.required, htime.required, Holds.optional hprocess, Holds.optional hdisk,
      Holds.optional hsys, Holds.optional hfiles, Holds.optional hmemory, Holds.optional hthread,
      Holds.optional hgc, Holds.optional hport, Holds.optional hcpu, Holds.optional hdiskIo,
      Holds.optional hnetwork]
    rfl

-- A snapshot whose doubles are finite and found again in their texts is read back from the text in
-- which it travels: every number and name, the moment to the nanosecond, and of every section
-- whether it is there and what it lists.
theorem ofJson?_toJson (s : Snapshot)
    (hyear : 0 ≤ s.timestamp.date.year ∧ s.timestamp.date.year ≤ 9999)
    (hreals : ∀ x ∈ s.reals, ReadsBack x) : ofJson? s.toJson = some s := by
  have hs := holds Json.dialect hyear hreals
  rw [ofJson?, toJson, read?_render hs.readable]
  exact hs.reads

-- The last second of a leap year went on through a leap second, on a node with an odd name.
def lastOfLeapYear : Snapshot :=
  { empty (String.ofList ['a', '"', '\\', '\n', Char.ofNat 1, Char.ofNat 0x1F600])
      ⟨1483228799, 1500000007, .inr (by decide)⟩ with
    disk := some []
    sys := some ⟨4, 0.5, .zero⟩
    port := some [⟨65535, true⟩]
    network := some [⟨"lo", 18446744073709551615, 0, 0, 0, 97.25, 1e-7⟩] }

theorem ofJson?_toJson_lastOfLeapYear :
    (0 ≤ lastOfLeapYear.timestamp.date.year ∧ lastOfLeapYear.timestamp.date.year ≤ 9999) ∧
      (∀ x ∈ lastOfLeapYear.reals, ReadsBack x) ∧
      ofJson? lastOfLeapYear.toJson = some lastOfLeapYear := by
  have hyear : 0 ≤ lastOfLeapYear.timestamp.date.year ∧
      lastOfLeapYear.timestamp.date.year ≤ 9999 := by decide +kernel
  have hload : ReadsBack 0.5 := by
    have hwrite : Decimal.write 0.5 = ['0', '.', '5'] := by decide +kernel
    have hscaled : Decimal.scaled 5 (-1) = some 0.5 := by
      rw [Decimal.scaled]
      rfl
    exact .of_literal (by decide +kernel) (l := ⟨false, ['0'], some ['5'], none⟩)
      (by rw [hwrite]; rfl) rfl (congrArg (Option.map id) hscaled)
  have hrecv : ReadsBack 97.25 := by
    have hwrite : Decimal.write 97.25 = ['9', '7', '.', '2', '5'] := by decide +kernel
    have hscaled : Decimal.scaled 9725 (-2) = some 97.25 := by
      rw [Decimal.scaled]
      rfl
    exact .of_literal (by decide +kernel) (l := ⟨false, ['9', '7'], some ['2', '5'], none⟩)
      (by rw [hwrite]; rfl) rfl (congrArg (Option.map id) hscaled)
  have hsent : ReadsBack 1e-7 := by
    have hwrite : Decimal.write 1e-7 = ['1', 'e', '-', '7'] := by decide +kernel
    have hscaled : Decimal.scaled 1 (-7) = some 1e-7 := by
      rw [Decimal.scaled]
      rfl
    exact .of_literal (by decide +kernel) (l := ⟨false, ['1'], none, some (true, ['7'])⟩)
      (by rw [hwrite]; rfl) rfl (congrArg (Option.map id) hscaled)
  have hreals : ∀ x ∈ lastOfLeapYear.reals, ReadsBack x := by
    have hlist : lastOfLeapYear.reals = [0.5, 97.25, 1e-7] := rfl
    rw [hlist]
    exact List.forall_mem_cons.mpr ⟨hload, List.forall_mem_cons.mpr ⟨hrecv,
      List.forall_mem_cons.mpr ⟨hsent, List.forall_mem_nil _⟩⟩⟩
  exact ⟨hyear, hreals, ofJson?_toJson lastOfLeapYear hyear hreals⟩

end Snapshot

end MetricRelay
