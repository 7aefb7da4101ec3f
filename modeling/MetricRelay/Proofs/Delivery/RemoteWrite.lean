import MetricRelay.Delivery.Exporter
import MetricRelay.Proofs.Snappy.RoundTrip

namespace MetricRelay

namespace WriteRequest

-- The request that a body carries, if somebody can read it.
def carried? (body : Wire.Bytes) : Option WriteRequest :=
  (Snappy.decompress? body).bind decode?

theorem carried?_compress (r : WriteRequest) :
    carried? (Snappy.compress r.encode) = some r.unsigned := by
  rw [carried?, Snappy.decompress?_compress]
  exact decode?_encode r

end WriteRequest

namespace Exporter

theorem packed_eq_ok {r : WriteRequest} {body : List UInt8} (h : packed r = .ok body) :
    body = Snappy.compress r.encode := by
  unfold packed at h
  dsimp only at h
  split at h
  · exact (Except.ok.inj h).symm
  · cases h

-- Every request of less than 2^31 bytes can be packed.
theorem packed_of_lt {r : WriteRequest} (h : r.encode.length < 2 ^ 31) :
    packed r = .ok (Snappy.compress r.encode) := by
  have hfits : Snappy.fits r.encode.length = true := by
    have hmost : Snappy.mostBytes = 2 ^ 32 - 1 := rfl
    simp only [Snappy.fits, hmost, decide_eq_true_eq]
    omega
  simp only [packed, hfits, if_true]

theorem unsigned_headlineRequest (x : Snapshot) (timestamp : Int64) :
    (headlineRequest x timestamp).unsigned =
      ⟨[⟨[⟨"__name__", x.node⟩], [(⟨x.headline.toBits, timestamp⟩ : Sample).unsigned]⟩],
        [⟨0, x.node, "helper", ""⟩]⟩ :=
  rfl

theorem body_remoteWrite {now : Timestamp} {s : Subscriber} {x : Snapshot} {request : Request}
    (h : remoteWrite now s x = .value request) :
    packed (headlineRequest x (Int64.ofInt now.millis)) = .ok request.body := by
  unfold remoteWrite remoteRequest at h
  cases hpacked : packed (headlineRequest x (Int64.ofInt now.millis)) with
  | error f =>
      rw [hpacked] at h
      cases h
  | ok body =>
      rw [hpacked] at h
      cases h
      unfold withAuth
      split <;> rfl

-- Whatever is packed can be read again. Only the sign of a zero sample is lost. What is sent of a
-- snapshot is one family, named for the node, and one series of that name with a single sample, the
-- headline at the time of sending.
theorem packed_read_back (r : WriteRequest) :
    (r.encode.length < 2 ^ 31 → ∃ body, packed r = .ok body) ∧
    (∀ body, packed r = .ok body → WriteRequest.carried? body = some r.unsigned) ∧
    (∀ x timestamp body, packed (headlineRequest x timestamp) = .ok body →
      WriteRequest.carried? body = some
        ⟨[⟨[⟨"__name__", x.node⟩], [(⟨x.headline.toBits, timestamp⟩ : Sample).unsigned]⟩],
          [⟨0, x.node, "helper", ""⟩]⟩) ∧
    ∀ now s x request, remoteWrite now s x = .value request →
      packed (headlineRequest x (Int64.ofInt now.millis)) = .ok request.body := by
  have hread : ∀ (r : WriteRequest) (body : List UInt8), packed r = .ok body →
      WriteRequest.carried? body = some r.unsigned := by
    intro r body hpacked
    rw [packed_eq_ok hpacked]
    exact r.carried?_compress
  refine ⟨fun hlength => ⟨_, packed_of_lt hlength⟩, hread r, fun x timestamp body hpacked => ?_,
    fun now s x request hrequest => body_remoteWrite hrequest⟩
  rw [hread _ body hpacked, unsigned_headlineRequest]

-- A sample with a negative zero and a negative time, and a kind that is not among those named.
theorem packed_read_back_negative :
    let r : WriteRequest := ⟨[⟨[⟨"job", "é"⟩], [⟨0x8000000000000000, -1⟩]⟩], [⟨-3, "m", "", ""⟩]⟩
    r.encode.length < 2 ^ 31 ∧ ∃ body, packed r = .ok body ∧ WriteRequest.carried? body =
      some ⟨[⟨[⟨"job", "é"⟩], [⟨0, -1⟩]⟩], [⟨-3, "m", "", ""⟩]⟩ := by
  intro r
  have hlength : r.encode.length < 2 ^ 31 := by decide +kernel
  obtain ⟨hpacks, hread, -⟩ := packed_read_back r
  obtain ⟨body, hbody⟩ := hpacks hlength
  exact ⟨hlength, body, hbody, hread body hbody⟩

end Exporter

end MetricRelay
