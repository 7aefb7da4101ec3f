import MetricRelay.Proofs.Tree.Restated
import MetricRelay.Settings.Document

namespace MetricRelay

open MetricRelay.Tree Json

theorem Kind.holds (d : Dialect) (k : Kind) : Holds (ofTree? d) k.toTree k :=
  ⟨.text _, Tree.noConfusion, by cases k <;> rfl⟩

theorem SubscriberKind.holds (d : Dialect) (k : SubscriberKind) : Holds (ofTree? d) k.toTree k :=
  ⟨.text _, Tree.noConfusion, by cases k <;> rfl⟩

theorem Credentials.holds (d : Dialect) (c : Credentials) : Holds (ofTree? d) c.toTree c := by
  refine holds_record (fun _ => rfl) (by simp) ?_ ?_
  · simp [(holds_flag _).readable, (holds_text _).readable]
  · simp [(holds_flag _).withDefault, (holds_text _).withDefault]

theorem Subscriber.toTree_eq (s : Subscriber) :
    s.toTree = .table (filed [("url", some (.text s.url)), ("type", some s.kind.toTree),
      ("auth", s.auth.map Credentials.toTree)]) := by
  cases hauth : s.auth <;> simp [toTree, filed, hauth]

theorem Subscriber.holds (d : Dialect) (s : Subscriber) : Holds (ofTree? d) s.toTree s := by
  have hkind := s.kind.holds d
  have hauth : ∀ c ∈ s.auth, Holds (Credentials.ofTree? d) c.toTree c := fun c _ => c.holds d
  rw [Subscriber.toTree_eq]
  refine holds_filed (fun _ => rfl) (by simp) ?_ ?_
  · simp only [List.forall_mem_cons]
    exact ⟨by simp [(holds_text _).readable], by simp [hkind.readable], Holds.readable_map hauth,
      by simp⟩
  · simp [(holds_text _).required, hkind.withDefault, Holds.optional hauth]

namespace Sentinel

-- The ports of an entry as a field, which is left out where there are none.
def portsField (s : Sentinel) : Field :=
  if s.listenedPorts.isEmpty then none else some (.list (s.listenedPorts.map Tree.ofUInt16))

theorem toTree_eq (s : Sentinel) :
    s.toTree = .table (filed [("tasks", some (.list (s.tasks.map Kind.toTree))),
      ("subscribers", some (.list (s.subscribers.map Subscriber.toTree))),
      ("count", some (.ofInt64 s.count)), ("interval", some (.ofUInt64 s.interval)),
      ("listened_ports", s.portsField)]) := by
  unfold toTree portsField
  split <;> rfl

theorem holds (d : Dialect) (s : Sentinel) : Holds (ofTree? d) s.toTree s := by
  have htasks : Holds (listOf? (Kind.ofTree? d)) (.list (s.tasks.map Kind.toTree)) s.tasks :=
    .list fun k _ => k.holds d
  have hsubscribers : Holds (listOf? (Subscriber.ofTree? d))
      (.list (s.subscribers.map Subscriber.toTree)) s.subscribers := .list fun s _ => s.holds d
  have hports : Holds (listOf? uint16?) (.list (s.listenedPorts.map Tree.ofUInt16))
      s.listenedPorts := .list fun n _ => holds_uint16 n
  have hfield : withDefault (listOf? uint16?) [] s.portsField = some s.listenedPorts := by
    unfold portsField
    split
    · rename_i hempty
      rw [List.isEmpty_iff.mp hempty]
      rfl
    · exact hports.reads
  rw [toTree_eq]
  refine holds_filed (fun _ => rfl) (by simp) ?_ ?_
  · simp only [List.forall_mem_cons]
    refine ⟨by simp [htasks.readable], by simp [hsubscribers.readable],
      by simp [(holds_int64 _).readable], by simp [(holds_uint64 _).readable], ?_, by simp⟩
    intro t ht
    unfold portsField at ht
    split at ht <;> cases ht
    exact hports.readable
  · simp [htasks.withDefault, hsubscribers.withDefault, (holds_int64 _).withDefault,
      (holds_uint64 _).withDefault, hfield]

end Sentinel

theorem LogSettings.holds (d : Dialect) (s : LogSettings) : Holds (ofTree? d) s.toTree s := by
  refine holds_record (fun _ => rfl) (by simp) ?_ ?_
  · simp [(holds_text _).readable]
  · simp [(holds_text _).withDefault]

theorem BreakerSettings.holds (d : Dialect) (s : BreakerSettings) :
    Holds (ofTree? d) s.toTree s := by
  refine holds_record (fun _ => rfl) (by simp) ?_ ?_
  · simp [(holds_uint32 _).readable, (holds_uint64 _).readable]
  · simp [(holds_uint32 _).withDefault, (holds_uint64 _).withDefault]

theorem SamplingSettings.holds (d : Dialect) (s : SamplingSettings) :
    Holds (ofTree? d) s.toTree s := by
  refine holds_record (fun _ => rfl) (by simp) ?_ ?_
  · simp [(holds_uint64 _).readable]
  · simp [(holds_uint64 _).withDefault]

theorem HttpSettings.holds (d : Dialect) (s : HttpSettings) : Holds (ofTree? d) s.toTree s := by
  refine holds_record (fun _ => rfl) (by simp) ?_ ?_
  · simp [(holds_uint64 _).readable]
  · simp [(holds_uint64 _).withDefault]

theorem SchedulerSettings.holds (d : Dialect) (s : SchedulerSettings) :
    Holds (ofTree? d) s.toTree s := by
  refine holds_record (fun _ => rfl) (by simp) ?_ ?_
  · simp [(holds_flag _).readable]
  · simp [(holds_flag _).withDefault]

theorem Settings.holds (d : Dialect) (s : Settings) : Holds (ofTree? d) s.toTree s := by
  have hlog := s.log.holds d
  have hbreaker := s.breaker.holds d
  have hsampling := s.sampling.holds d
  have hhttp := s.http.holds d
  have hscheduler := s.scheduler.holds d
  have hsentinel : Holds (listOf? (Sentinel.ofTree? d)) (.list (s.sentinel.map Sentinel.toTree))
      s.sentinel := .list fun e _ => e.holds d
  refine holds_record (fun _ => rfl) (by simp) ?_ ?_
  · simp [(holds_text _).readable, (holds_uint64 _).readable, hlog.readable, hbreaker.readable,
      hsampling.readable, hhttp.readable, hscheduler.readable, hsentinel.readable]
  · simp [(holds_text _).withDefault, (holds_uint64 _).withDefault, hlog.withDefault,
      hbreaker.withDefault, hsampling.withDefault, hhttp.withDefault, hscheduler.withDefault,
      hsentinel.withDefault]

def Credentials.parts : List Part :=
  [.plain "enable" (some (.flag false)), .plain "username" (some (.text "")),
    .plain "password" (some (.text ""))]

theorem Credentials.ofTree?_restated (d : Dialect) (t t' : Tree) (h : RestatesRecord parts t t') :
    ofTree? d t' = ofTree? d t := by
  refine read_restated (fun _ => rfl) (fun before after hparts => ?_) h
  simp only [parts, List.forall_mem_cons, Part.plain_name] at hparts
  obtain ⟨henable, husername, hpassword, -⟩ := hparts
  have henable := unmoved_plain (holds_flag false).reads henable
  have husername := unmoved_plain (holds_text "").reads husername
  have hpassword := unmoved_plain (holds_text "").reads hpassword
  simp [parts, henable, husername, hpassword]

-- The URL never goes without saying, nor do credentials that are there.
def Subscriber.parts : List Part :=
  [.plain "url" none, .plain "type" (some SubscriberKind.http.toTree),
    .record "auth" none Credentials.parts]

theorem Subscriber.ofTree?_restated (d : Dialect) (t t' : Tree) (h : RestatesRecord parts t t') :
    ofTree? d t' = ofTree? d t := by
  refine read_restated (fun _ => rfl) (fun before after hparts => ?_) h
  simp only [parts, List.forall_mem_cons, Part.plain_name, Part.record_name] at hparts
  obtain ⟨hurl, hkind, hauth, -⟩ := hparts
  have hurl : required Tree.text? _ = _ := unmoved_required hurl
  have hkind := unmoved_plain (SubscriberKind.http.holds d).reads hkind
  have hauth := unmoved_optional (Credentials.ofTree?_restated d) hauth
  simp [parts, hurl, hkind, hauth]

def Sentinel.parts : List Part :=
  [.plain "tasks" (some (.list [])), .records "subscribers" Subscriber.parts,
    .plain "count" (some (.ofInt64 Sentinel.default.count)),
    .plain "interval" (some (.ofUInt64 Sentinel.default.interval)),
    .plain "listened_ports" (some (.list []))]

theorem Sentinel.ofTree?_restated (d : Dialect) (t t' : Tree) (h : RestatesRecord parts t t') :
    ofTree? d t' = ofTree? d t := by
  refine read_restated (fun _ => rfl) (fun before after hparts => ?_) h
  simp only [parts, List.forall_mem_cons, Part.plain_name, Part.records_name] at hparts
  obtain ⟨htasks, hsubscribers, hcount, hinterval, hports, -⟩ := hparts
  have htasks := unmoved_plain (listOf?_nil (Kind.ofTree? d)) htasks
  have hsubscribers := unmoved_records (Subscriber.ofTree?_restated d) hsubscribers
  have hcount := unmoved_plain (holds_int64 _).reads hcount
  have hinterval := unmoved_plain (holds_uint64 _).reads hinterval
  have hports := unmoved_plain (listOf?_nil uint16?) hports
  simp [parts, htasks, hsubscribers, hcount, hinterval, hports]

def LogSettings.parts : List Part :=
  [.plain "level" (some (.text LogSettings.default.level))]

theorem LogSettings.ofTree?_restated (d : Dialect) (t t' : Tree) (h : RestatesRecord parts t t') :
    ofTree? d t' = ofTree? d t :=
  read_restated_one (fun _ => rfl) (holds_text _).reads (fun _ _ hsame => by simp [hsame]) h

def BreakerSettings.parts : List Part :=
  [.plain "failure_threshold" (some (.ofUInt32 BreakerSettings.default.failureThreshold)),
    .plain "cooldown_secs" (some (.ofUInt64 BreakerSettings.default.cooldownSecs))]

theorem BreakerSettings.ofTree?_restated (d : Dialect) (t t' : Tree)
    (h : RestatesRecord parts t t') : ofTree? d t' = ofTree? d t := by
  refine read_restated (fun _ => rfl) (fun before after hparts => ?_) h
  simp only [parts, List.forall_mem_cons, Part.plain_name] at hparts
  obtain ⟨hthreshold, hcooldown, -⟩ := hparts
  have hthreshold := unmoved_plain (holds_uint32 _).reads hthreshold
  have hcooldown := unmoved_plain (holds_uint64 _).reads hcooldown
  simp [parts, hthreshold, hcooldown]

def SamplingSettings.parts : List Part :=
  [.plain "delay_ms" (some (.ofUInt64 SamplingSettings.default.delayMs))]

theorem SamplingSettings.ofTree?_restated (d : Dialect) (t t' : Tree)
    (h : RestatesRecord parts t t') : ofTree? d t' = ofTree? d t :=
  read_restated_one (fun _ => rfl) (holds_uint64 _).reads (fun _ _ hsame => by simp [hsame]) h

def HttpSettings.parts : List Part :=
  [.plain "timeout_secs" (some (.ofUInt64 HttpSettings.default.timeoutSecs))]

theorem HttpSettings.ofTree?_restated (d : Dialect) (t t' : Tree)
    (h : RestatesRecord parts t t') : ofTree? d t' = ofTree? d t :=
  read_restated_one (fun _ => rfl) (holds_uint64 _).reads (fun _ _ hsame => by simp [hsame]) h

def SchedulerSettings.parts : List Part :=
  [.plain "advance_on_failure" (some (.flag SchedulerSettings.default.advanceOnFailure))]

theorem SchedulerSettings.ofTree?_restated (d : Dialect) (t t' : Tree)
    (h : RestatesRecord parts t t') : ofTree? d t' = ofTree? d t :=
  read_restated_one (fun _ => rfl) (holds_flag _).reads (fun _ _ hsame => by simp [hsame]) h

namespace Settings

-- A table that is the default may be left out as a whole, or any of its own parts that are.
def parts : List Part :=
  [.plain "name" (some (.text Settings.default.name)),
    .plain "work_threads" (some (.ofUInt64 Settings.default.workThreads)),
    .record "log" (some LogSettings.default.toTree) LogSettings.parts,
    .record "breaker" (some BreakerSettings.default.toTree) BreakerSettings.parts,
    .record "sampling" (some SamplingSettings.default.toTree) SamplingSettings.parts,
    .record "http" (some HttpSettings.default.toTree) HttpSettings.parts,
    .record "scheduler" (some SchedulerSettings.default.toTree) SchedulerSettings.parts,
    .records "sentinel" Sentinel.parts]

theorem ofTree?_restated (d : Dialect) (t t' : Tree) (h : RestatesRecord parts t t') :
    ofTree? d t' = ofTree? d t := by
  refine read_restated (fun _ => rfl) (fun before after hparts => ?_) h
  simp only [parts, List.forall_mem_cons, Part.plain_name, Part.record_name,
    Part.records_name] at hparts
  obtain ⟨hname, hthreads, hlog, hbreaker, hsampling, hhttp, hscheduler, hsentinel, -⟩ := hparts
  have hname := unmoved_plain (holds_text _).reads hname
  have hthreads := unmoved_plain (holds_uint64 _).reads hthreads
  have hlog := unmoved_record (LogSettings.default.holds d).reads
    (LogSettings.ofTree?_restated d) hlog
  have hbreaker := unmoved_record (BreakerSettings.default.holds d).reads
    (BreakerSettings.ofTree?_restated d) hbreaker
  have hsampling := unmoved_record (SamplingSettings.default.holds d).reads
    (SamplingSettings.ofTree?_restated d) hsampling
  have hhttp := unmoved_record (HttpSettings.default.holds d).reads
    (HttpSettings.ofTree?_restated d) hhttp
  have hscheduler := unmoved_record (SchedulerSettings.default.holds d).reads
    (SchedulerSettings.ofTree?_restated d) hscheduler
  have hsentinel := unmoved_records (Sentinel.ofTree?_restated d) hsentinel
  simp [parts, hname, hthreads, hlog, hbreaker, hsampling, hhttp, hscheduler, hsentinel]

-- Settings are read back from every document that restates the one they were written as, and no
-- restatement of any document whatsoever changes what is read from it.
theorem restated_reads_back (d : Dialect) :
    (∀ (s : Settings) (t : Tree), RestatesRecord parts s.toTree t → ofTree? d t = some s) ∧
      ∀ t t' : Tree, RestatesRecord parts t t' → ofTree? d t' = ofTree? d t :=
  ⟨fun s t h => (ofTree?_restated d s.toTree t h).trans (s.holds d).reads, ofTree?_restated d⟩

-- One job for one subscriber, with a breaker that opens early.
def impatient : Settings where
  name := "node"
  workThreads := 2
  log := .default
  breaker := ⟨3, 60⟩
  sampling := .default
  http := .default
  scheduler := .default
  sentinel := [⟨[.cpu], [⟨"http://a", .http, some ⟨true, "user", ""⟩⟩], -1, 30, []⟩]

-- What a person would write for it, with a remark here and there.
def impatientBrief : Tree :=
  .table [("name", .text "node"), ("remark", .text "test"),
    ("breaker", .table [("remark", .null), ("failure_threshold", .integer 3)]),
    ("sentinel", .list [.table [("interval", .integer 30), ("tasks", .list [.text "cpu"]),
      ("subscribers", .list [.table [("url", .text "http://a"), ("retries", .integer 4),
        ("auth", .table [("enable", .flag true), ("username", .text "user")])]])]])]

theorem restates_impatientBrief : RestatesRecord parts impatient.toTree impatientBrief := by
  refine .table ?_
  simp only [parts, List.forall_mem_cons]
  refine ⟨.kept rfl, .leftOut rfl, .leftOut rfl, .kept (.table ?breaker), .leftOut rfl,
    .leftOut rfl, .leftOut rfl, .kept (.items (.cons (.table ?entry) .nil)), by simp⟩
  case breaker =>
    simp only [BreakerSettings.parts, List.forall_mem_cons]
    exact ⟨.kept rfl, .leftOut rfl, by simp⟩
  case entry =>
    simp only [Sentinel.parts, List.forall_mem_cons]
    refine ⟨.kept rfl, .kept (.items (.cons (.table ?subscriber) .nil)), .leftOut rfl, .kept rfl,
      .missing, by simp⟩
    simp only [Subscriber.parts, List.forall_mem_cons]
    refine ⟨.kept rfl, .leftOut rfl, .kept (.table ?auth), by simp⟩
    simp only [Credentials.parts, List.forall_mem_cons]
    exact ⟨.kept rfl, .kept rfl, .leftOut rfl, by simp⟩

theorem impatientBrief_reads : ofTree? Json.dialect impatientBrief = some impatient :=
  (restated_reads_back Json.dialect).1 impatient impatientBrief restates_impatientBrief

end Settings

end MetricRelay
