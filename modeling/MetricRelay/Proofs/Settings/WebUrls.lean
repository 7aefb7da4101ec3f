import Mathlib.Data.List.DropRight
import MetricRelay.Proofs.Delivery.Traffic
import MetricRelay.Proofs.Settings.Validated

namespace MetricRelay

open Text

-- Blanks before a text are taken from it first, and then those behind it.
theorem Text.trim_isPrefix (cs : List Char) : trim cs <+: cs.dropWhile isBlank :=
  List.rdropWhile_prefix isBlank _

namespace Settings

theorem isWebUrl_iff {url : List Char} :
    isWebUrl url = true ↔ "http://".toList <+: url ∨ "https://".toList <+: url := by
  simp [isWebUrl]

theorem isWebUrl_of_isPrefix {url url' : List Char} (h : url <+: url')
    (hurl : isWebUrl url = true) : isWebUrl url' = true := by
  rw [isWebUrl_iff] at hurl ⊢
  exact hurl.imp (·.trans h) (·.trans h)

-- What begins as a URL of the web does has no blank before it.
theorem takeWhile_of_isWebUrl {url : List Char} (h : isWebUrl url = true) :
    url.takeWhile isBlank = [] := by
  have hblank : isBlank 'h' = false := by decide
  obtain ⟨rest, rfl⟩ | ⟨rest, rfl⟩ := isWebUrl_iff.mp h
  · exact List.takeWhile_cons_of_neg (Bool.eq_false_iff.mp hblank)
  · exact List.takeWhile_cons_of_neg (Bool.eq_false_iff.mp hblank)

theorem subscriberProblem?_eq_none {entry : Nat} {sub : Subscriber}
    (h : subscriberProblem? entry sub = none) :
    isWebUrl (sub.url.toList.dropWhile isBlank) = true := by
  unfold subscriberProblem? at h
  split at h
  · cases h
  · rename_i hurl
    exact isWebUrl_of_isPrefix (trim_isPrefix _) (by simpa using hurl)

theorem subscribers_of_entryProblem? {entry : Nat} {e : Sentinel}
    (h : entryProblem? entry e = none) :
    ∀ sub ∈ e.subscribers, subscriberProblem? entry sub = none := by
  unfold entryProblem? at h
  split at h
  · cases h
  · split at h
    · cases h
    · split at h
      · cases h
      · exact List.findSome?_eq_none_iff.mp h

-- Validation looks at a URL without the blanks before it, a request and the breaker take it as it
-- stands. So a request of a validated node goes to a URL of the web once the blanks before it are
-- taken away, and it goes to one as it stands exactly if there are none.
theorem requests_of_validated {s : Settings} (hvalid : s.validate = .ok ()) {e : Sentinel}
    (he : e ∈ s.active) {sub : Subscriber} (hsub : sub ∈ e.subscribers) (now : Timestamp)
    (x : Snapshot) {r : Request} (hr : Exporters.standard sub.kind now sub x = .value r) :
    r.url = sub.key ∧ ∃ blanks url, r.url.toList = blanks ++ url ∧
      (∀ c ∈ blanks, isBlank c = true) ∧ isWebUrl url = true ∧
      (isWebUrl r.url.toList = true ↔ blanks = []) := by
  have haddressed : r.url = sub.url := Exporters.standard_addressed now sub x r hr
  obtain ⟨entry, hentry⟩ := (problem?_eq_none hvalid).2 e (List.mem_filter.mp he).1
  have hweb := subscriberProblem?_eq_none (subscribers_of_entryProblem? hentry sub hsub)
  have hsplit := List.takeWhile_append_dropWhile (p := isBlank) (l := sub.url.toList)
  refine ⟨haddressed, sub.url.toList.takeWhile isBlank, sub.url.toList.dropWhile isBlank, ?_, ?_,
    hweb, ?_⟩
  · rw [haddressed, hsplit]
  · exact fun c hc => List.mem_takeWhile_imp hc
  · rw [haddressed]
    refine ⟨takeWhile_of_isWebUrl, fun hnone => ?_⟩
    rwa [← hsplit, hnone]

-- One of two URLs has a tab and a space before it. Both are validated, and the request that goes to
-- that one goes to no URL of the web.
theorem requests_of_validated_indented :
    let plain : Subscriber := ⟨"https://south", .http, none⟩
    let indented : Subscriber := ⟨"\t http://north", .http, none⟩
    let e : Sentinel := ⟨[.cpu], [plain, indented], -1, 10, []⟩
    let s : Settings := { Settings.default with sentinel := [e] }
    s.validate = .ok () ∧ s.active = [e] ∧
      ∀ x, isWebUrl (Exporter.jsonRequest plain x).url.toList = true ∧
        (Exporter.jsonRequest indented x).url = indented.key ∧
        isWebUrl (Exporter.jsonRequest indented x).url.toList = false := by
  intro plain indented e s
  have hvalid : s.validate = .ok () := by decide +kernel +zetaReduce
  have hactive : s.active = [e] := by decide +kernel +zetaReduce
  have he : e ∈ s.active := by simp [hactive]
  have hplain : plain ∈ e.subscribers := by simp [e]
  have hindented : indented ∈ e.subscribers := by simp [e]
  refine ⟨hvalid, hactive, fun x => ⟨?_, ?_⟩⟩
  · obtain ⟨hurl, blanks, url, hsplit, hblanks, -, hiff⟩ :=
      requests_of_validated hvalid he hplain (.ofMillis 0) x rfl
    refine hiff.mpr ?_
    have hfirst : (blanks ++ url).head? = some 'h' := by
      rw [← hsplit, hurl]
      decide
    cases blanks with
    | nil => rfl
    | cons c rest =>
        obtain rfl : c = 'h' := Option.some.inj hfirst
        exact absurd (hblanks 'h' List.mem_cons_self) (by decide)
  · obtain ⟨hurl, -⟩ := requests_of_validated hvalid he hindented (.ofMillis 0) x rfl
    refine ⟨hurl, ?_⟩
    rw [hurl]
    decide

-- To begin with a no-break space is enough: the settings are validated, and every request to the
-- subscriber, and what its failures are counted under, begin with that space.
theorem validated_beside_web :
    let sub : Subscriber := ⟨"\u00A0http://north", .http, none⟩
    let e : Sentinel := ⟨[.cpu], [sub], -1, 10, []⟩
    let s : Settings := { Settings.default with sentinel := [e] }
    s.validate = .ok () ∧ e ∈ s.active ∧ sub ∈ e.subscribers ∧
      ∀ now x, ∃ r, Exporters.standard sub.kind now sub x = .value r ∧ r.url = sub.key ∧
        isWebUrl r.url.toList = false := by
  intro sub e s
  have hforeign : isWebUrl sub.url.toList = false := by decide +kernel +zetaReduce
  exact ⟨by decide +kernel +zetaReduce, by decide +kernel +zetaReduce, by simp [e],
    fun now x => ⟨Exporter.jsonRequest sub x, rfl, rfl, hforeign⟩⟩

end Settings

end MetricRelay
