import MetricRelay.Proofs.Tree.Records
import MetricRelay.Snapshot.Document

namespace MetricRelay

open MetricRelay.Tree Json

theorem ProcessInfo.holds (d : Dialect) (p : ProcessInfo) : Holds (ofTree? d) p.toTree p := by
  refine holds_record (fun _ => rfl) (by simp) ?_ ?_
  · simp [(holds_uint32 _).readable, (holds_text _).readable]
  · simp [(holds_uint32 _).required, (holds_text _).required]

theorem DiskInfo.holds (d : Dialect) (i : DiskInfo) : Holds (ofTree? d) i.toTree i := by
  refine holds_record (fun _ => rfl) (by simp) ?_ ?_
  · simp [(holds_text _).readable, (holds_uint64 _).readable]
  · simp [(holds_text _).required, (holds_uint64 _).required]

theorem SystemMemory.holds (d : Dialect) (m : SystemMemory) : Holds (ofTree? d) m.toTree m := by
  refine holds_record (fun _ => rfl) (by simp) ?_ ?_
  · simp [(holds_uint64 _).readable]
  · simp [(holds_uint64 _).required]

theorem SystemSummary.holds (d : Dialect) (s : SystemSummary) (hload : ReadsBack s.loadAverage) :
    Holds (ofTree? d) s.toTree s := by
  have hmemory := SystemMemory.holds d s.memory
  refine holds_record (fun _ => rfl) (by simp) ?_ ?_
  · simp [(holds_uint64 _).readable, (holds_real hload).readable, hmemory.readable]
  · simp [(holds_uint64 _).required, (holds_real hload).required, hmemory.required]

theorem FileStore.holds (d : Dialect) (f : FileStore) : Holds (ofTree? d) f.toTree f := by
  refine holds_record (fun _ => rfl) (by simp) ?_ ?_
  · simp [(holds_text _).readable]
  · simp [(holds_text _).required]

theorem RuntimeMemory.holds (d : Dialect) (m : RuntimeMemory) : Holds (ofTree? d) m.toTree m := by
  refine holds_record (fun _ => rfl) (by simp) ?_ ?_
  · simp [(holds_uint64 _).readable]
  · simp [(holds_uint64 _).required]

theorem ThreadInfo.holds (d : Dialect) (t : ThreadInfo) : Holds (ofTree? d) t.toTree t := by
  refine holds_record (fun _ => rfl) (by simp) ?_ ?_
  · simp [(holds_uint64 _).readable]
  · simp [(holds_uint64 _).required]

theorem GcInfo.holds (d : Dialect) (g : GcInfo) : Holds (ofTree? d) g.toTree g := by
  refine holds_record (fun _ => rfl) (by simp) ?_ ?_
  · simp [(holds_text _).readable, (holds_uint64 _).readable]
  · simp [(holds_text _).required, (holds_uint64 _).required]

theorem PortState.holds (d : Dialect) (p : PortState) : Holds (ofTree? d) p.toTree p := by
  refine holds_record (fun _ => rfl) (by simp) ?_ ?_
  · simp [(holds_uint16 _).readable, (holds_flag _).readable]
  · simp [(holds_uint16 _).required, (holds_flag _).required]

-- The doubles of a section.
def CpuUsage.reals (u : CpuUsage) : List Float :=
  [u.sys, u.user, u.ioWait, u.idle]

def DiskRate.reals (r : DiskRate) : List Float :=
  [r.readPerSecond, r.readBytesPerSecond, r.writePerSecond, r.writeBytesPerSecond]

def NetRate.reals (r : NetRate) : List Float :=
  [r.recvBytesPerSecond, r.sentBytesPerSecond]

theorem CpuUsage.holds (d : Dialect) (u : CpuUsage) (h : ∀ x ∈ u.reals, ReadsBack x) :
    Holds (ofTree? d) u.toTree u := by
  simp only [reals, List.forall_mem_cons, List.not_mem_nil] at h
  obtain ⟨hsys, huser, hwait, hidle, -⟩ := h
  refine holds_record (fun _ => rfl) (by simp) ?_ ?_
  · simp [(holds_uint64 _).readable, (holds_real hsys).readable, (holds_real huser).readable,
      (holds_real hwait).readable, (holds_real hidle).readable]
  · simp [(holds_uint64 _).required, (holds_real hsys).required, (holds_real huser).required,
      (holds_real hwait).required, (holds_real hidle).required]

theorem DiskRate.holds (d : Dialect) (r : DiskRate) (h : ∀ x ∈ r.reals, ReadsBack x) :
    Holds (ofTree? d) r.toTree r := by
  simp only [reals, List.forall_mem_cons, List.not_mem_nil] at h
  obtain ⟨hread, hreadBytes, hwrite, hwriteBytes, -⟩ := h
  refine holds_record (fun _ => rfl) (by simp) ?_ ?_
  · simp [(holds_text _).readable, (holds_uint64 _).readable, (holds_real hread).readable,
      (holds_real hreadBytes).readable, (holds_real hwrite).readable,
      (holds_real hwriteBytes).readable]
  · simp [(holds_text _).required, (holds_uint64 _).required, (holds_real hread).required,
      (holds_real hreadBytes).required, (holds_real hwrite).required,
      (holds_real hwriteBytes).required]

theorem NetRate.holds (d : Dialect) (r : NetRate) (h : ∀ x ∈ r.reals, ReadsBack x) :
    Holds (ofTree? d) r.toTree r := by
  simp only [reals, List.forall_mem_cons, List.not_mem_nil] at h
  obtain ⟨hrecv, hsent, -⟩ := h
  refine holds_record (fun _ => rfl) (by simp) ?_ ?_
  · simp [(holds_text _).readable, (holds_uint64 _).readable, (holds_real hrecv).readable,
      (holds_real hsent).readable]
  · simp [(holds_text _).required, (holds_uint64 _).required, (holds_real hrecv).required,
      (holds_real hsent).required]

end MetricRelay
