import MetricRelay.Proofs.Delivery.RemoteWrite
import MetricRelay.Proofs.Text.Base64
import MetricRelay.Proofs.Text.Columns

namespace MetricRelay

open Text

-- The headers of a request that name its sender, however they are spelled.
def Request.authorizations (r : Request) : List (String × String) :=
  r.headers.filter fun h => Request.sameName h.1 "Authorization"

namespace Credentials

-- The text that credentials are sent as.
def joined (c : Credentials) : String :=
  c.username ++ ":" ++ c.password

-- The user name and the password that a server reads off a token. It takes the text that the token
-- stands for apart at the first colon.
def read? (token : List Char) : Option (List Char × List Char) :=
  ((Base64.decode? token).bind ofBytes?).bind fun text => cut? ':' text.toList

theorem read?_encode (c : Credentials) :
    read? (Base64.encode (bytes c.joined)) =
      cut? ':' (c.username.toList ++ ':' :: c.password.toList) := by
  have htext : c.joined.toList = c.username.toList ++ ':' :: c.password.toList := by
    simp [joined, String.toList_append]
  rw [read?, Base64.decode?_encode, Option.bind_some, ofBytes?_bytes, Option.bind_some, htext]

end Credentials

namespace Exporter

theorem basicAuth_eq (c : Credentials) :
    basicAuth c = "Basic " ++ String.ofList (Base64.encode (bytes c.joined)) :=
  rfl

theorem basicAuth_inj {c c' : Credentials} : basicAuth c = basicAuth c' ↔ c.joined = c'.joined := by
  refine ⟨fun h => ?_, fun h => by rw [basicAuth_eq, basicAuth_eq, h]⟩
  rw [basicAuth_eq, basicAuth_eq, String.append_right_inj, String.ofList_inj] at h
  have hread := Base64.decode?_encode (bytes c.joined)
  rw [h, Base64.decode?_encode, Option.some.injEq, bytes_inj] at hread
  exact hread.symm

-- To a request that does not name its sender yet, the credentials are added once if they are used.
theorem authorizations_withAuth {s : Subscriber} {r : Request} (h : r.authorizations = []) :
    (withAuth s r).authorizations =
      (s.enabledAuth.map fun c => ("Authorization", basicAuth c)).toList := by
  have hsame : Request.sameName "Authorization" "Authorization" = true := by decide
  unfold withAuth
  split
  · rename_i c hauth
    rw [Request.authorizations] at h ⊢
    rw [Request.addHeader, List.filter_append, h, hauth]
    simp [hsame]
  · rename_i hauth
    rw [h, hauth]
    rfl

theorem remoteWrite_eq_value {now : Timestamp} {s : Subscriber} {x : Snapshot} {r : Request} :
    remoteWrite now s x = .value r ↔ ∃ body,
      packed (headlineRequest x (Int64.ofInt now.millis)) = .ok body ∧
        withAuth s ⟨s.url, remoteHeaders, body⟩ = r := by
  unfold remoteWrite remoteRequest
  cases packed (headlineRequest x (Int64.ofInt now.millis)) with
  | error f => simp [bind, Except.bind, Ending.ofExcept]
  | ok body => simp [bind, Except.bind, pure, Except.pure, Ending.ofExcept]

-- Every exporter leaves the sender to `withAuth`, which its own headers do not name.
theorem authorizations_standard {kind : SubscriberKind} {now : Timestamp} {s : Subscriber}
    {x : Snapshot} {r : Request} (h : Exporters.standard kind now s x = .value r) :
    r.authorizations = (s.enabledAuth.map fun c => ("Authorization", basicAuth c)).toList := by
  cases kind with
  | http =>
      cases h
      exact authorizations_withAuth rfl
  | prometheus =>
      obtain ⟨body, -, rfl⟩ := remoteWrite_eq_value.mp h
      exact authorizations_withAuth rfl

-- Both exporters name the sender in a request once if the subscriber has credentials that are
-- switched on, and never otherwise. What the header carries is the text of the user name, a colon
-- and the password: it can be read from the token, no other token stands for it, and it is taken
-- apart rightly exactly if the user name has no colon.
theorem authorization_carried (now : Timestamp) (s : Subscriber) (x : Snapshot) :
    (∃ r, Exporters.standard .http now s x = .value r) ∧
    ((∃ r, Exporters.standard .prometheus now s x = .value r) ↔
      ∃ body, packed (headlineRequest x (Int64.ofInt now.millis)) = .ok body) ∧
    (∀ kind r, Exporters.standard kind now s x = .value r →
      (∀ c, s.auth = some c → c.enable = true →
        r.authorizations = [("Authorization", basicAuth c)]) ∧
      ((∀ c, s.auth = some c → c.enable = false) → r.authorizations = [])) ∧
    ∀ c : Credentials, ∃ token,
      basicAuth c = "Basic " ++ String.ofList token ∧
      token.length = 4 * (((bytes (c.username ++ ":" ++ c.password)).length + 2) / 3) ∧
      (∀ t, Base64.decode? t = some (bytes (c.username ++ ":" ++ c.password)) ↔ t = token) ∧
      (∀ c' : Credentials, basicAuth c = basicAuth c' ↔
        c.username ++ ":" ++ c.password = c'.username ++ ":" ++ c'.password) ∧
      (Credentials.read? token = some (c.username.toList, c.password.toList) ↔
        ':' ∉ c.username.toList) := by
  refine ⟨⟨_, rfl⟩, ?_, fun kind r hr => ⟨fun c hauth hon => ?_, fun hoff => ?_⟩, fun c => ?_⟩
  · constructor
    · rintro ⟨r, hr⟩
      obtain ⟨body, hbody, -⟩ := remoteWrite_eq_value.mp hr
      exact ⟨body, hbody⟩
    · rintro ⟨body, hbody⟩
      exact ⟨_, remoteWrite_eq_value.mpr ⟨body, hbody, rfl⟩⟩
  · have henabled : s.enabledAuth = some c := by simp [Subscriber.enabledAuth, hauth, hon]
    rw [authorizations_standard hr, henabled]
    rfl
  · have henabled : s.enabledAuth = none := by
      rw [Subscriber.enabledAuth, Option.filter_eq_none_iff]
      exact fun c hauth => by simp [hoff c hauth]
    rw [authorizations_standard hr, henabled]
    rfl
  · refine ⟨Base64.encode (bytes c.joined), basicAuth_eq c, Base64.length_encode _,
      fun t => Base64.decode?_eq_some_iff, fun c' => basicAuth_inj, ?_⟩
    rw [c.read?_encode]
    exact ⟨notMem_of_cut?, fun hcolon => cut?_append hcolon _⟩

-- A user name beyond ASCII and a password with a colon, sent by both exporters.
theorem authorization_carried_umlaut :
    let c : Credentials := ⟨true, "Jürgen", "a:b"⟩
    let s : Subscriber := ⟨"http://north", .http, some c⟩
    let x : Snapshot := .empty "n" (.ofMillis 0)
    basicAuth c = "Basic SsO8cmdlbjphOmI=" ∧ ':' ∉ c.username.toList ∧
      Credentials.read? "SsO8cmdlbjphOmI=".toList = some (c.username.toList, c.password.toList) ∧
      ∀ kind, ∃ r, Exporters.standard kind (.ofMillis 0) s x = .value r ∧
        r.authorizations = [("Authorization", "Basic SsO8cmdlbjphOmI=")] := by
  intro c s x
  have hheader : basicAuth c = "Basic SsO8cmdlbjphOmI=" := by decide +kernel
  have hcolon : ':' ∉ c.username.toList := by decide +kernel
  have hlength : (headlineRequest x (Int64.ofInt (Timestamp.ofMillis 0).millis)).encode.length <
      2 ^ 31 := by decide +kernel
  obtain ⟨hjson, hremote, hrequests, hcredentials⟩ := authorization_carried (.ofMillis 0) s x
  obtain ⟨token, htoken, -, -, -, hread⟩ := hcredentials c
  obtain rfl : token = "SsO8cmdlbjphOmI=".toList := by
    have hsplit : "Basic SsO8cmdlbjphOmI=" = "Basic " ++ "SsO8cmdlbjphOmI=" := rfl
    rw [hheader, hsplit, String.append_right_inj] at htoken
    rw [htoken, String.toList_ofList]
  refine ⟨hheader, hcolon, hread.mpr hcolon, fun kind => ?_⟩
  obtain ⟨r, hr⟩ : ∃ r, Exporters.standard kind (.ofMillis 0) s x = .value r := by
    cases kind with
    | http => exact hjson
    | prometheus => exact hremote.mpr ⟨_, packed_of_lt hlength⟩
  exact ⟨r, hr, hheader ▸ (hrequests kind r hr).1 c rfl rfl⟩

end Exporter

end MetricRelay
