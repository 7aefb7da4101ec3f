import MetricRelay.Proc.Host
import MetricRelay.Proofs.Delivery.WireRoundTrip
import MetricRelay.Proofs.Text.Columns
import MetricRelay.Proofs.Text.Numerals

namespace MetricRelay

open Text

namespace Proc

-- A socket as a row of the tables `net/tcp` and `net/tcp6` shows it. Behind the address stands the
-- local port, as four digits to the base of sixteen, of which any may be capitals.
structure Socket where
  slot : Word
  address : List Char
  solid : ∀ c ∈ address, isBlank c = false
  port : UInt16
  capital : Nat → Bool
  remote : Word
  state : Word
  further : List Word

namespace Socket

def portText (s : Socket) : List Char :=
  Numeral.withCapitals s.capital (Numeral.padded 16 4 s.port.toNat)

theorem mem_portText {s : Socket} {c : Char} (h : c ∈ s.portText) :
    isBlank c = false ∧ c ≠ ':' ∧ c ≠ '+' := by
  have hsmall : ∀ d < 16, isBlank (Numeral.symbol d) = false ∧ Numeral.symbol d ≠ ':' ∧
      Numeral.symbol d ≠ '+' := by
    decide
  have hcapital : ∀ d < 16, isBlank (Numeral.symbol d).toUpper = false ∧
      (Numeral.symbol d).toUpper ≠ ':' ∧ (Numeral.symbol d).toUpper ≠ '+' := by
    decide
  obtain ⟨c', hc', hcase⟩ := Numeral.exists_of_mem_withCapitals h
  obtain ⟨d, hd, rfl⟩ := Numeral.exists_of_mem_padded (by decide) hc'
  obtain rfl | rfl := hcase
  · exact hsmall d hd
  · exact hcapital d hd

-- The local end of the socket.
def localEnd (s : Socket) : Word where
  text := s.address ++ ':' :: s.portText
  filled := by simp
  solid := by
    intro c hc
    rcases List.mem_append.mp hc with hc | hc
    · exact s.solid c hc
    · rcases List.mem_cons.mp hc with rfl | hc
      · rfl
      · exact (mem_portText hc).1

def columns (s : Socket) : List Word :=
  s.slot :: s.localEnd :: s.remote :: s.state :: s.further

theorem read_portText (s : Socket) :
    (Numeral.count? 16 65535 s.portText).map UInt16.ofNat = some s.port := by
  have hread : Numeral.read? 16 s.portText = some s.port.toNat :=
    Numeral.read?_withCapitals (by decide) (by decide) s.capital 4 s.port.toNat
  have hsign : s.portText.head? ≠ some '+' := fun h =>
    (mem_portText (List.mem_of_head? h)).2.2 rfl
  have hmost : s.port.toNat ≤ 65535 := Nat.le_of_lt_succ s.port.toNat_lt
  rw [Numeral.count?_of_read? hsign hread hmost, Option.map_some, UInt16.ofNat_toNat]

theorem listeningPort?_columns (s : Socket) :
    listeningPort? (s.columns.map Word.text) =
      if s.state.text = ['0', 'A'] then some s.port else none := by
  have hcut : cutLast? ':' s.localEnd.text = some (s.address, s.portText) :=
    cutLast?_append (fun h => (mem_portText h).2.1 rfl) s.address
  simp only [columns, List.map_cons, listeningPort?, listeningState, hcut]
  split
  · exact s.read_portText
  · rfl

end Socket

-- A table of sockets, one to a line, below a heading.
structure SocketTable where
  heading : Line
  rows : List (Spacing × Socket)
  ended : Bool

namespace SocketTable

def text (t : SocketTable) : String :=
  .ofList (stack t.ended (t.heading :: t.rows.map fun r => r.1.line r.2.columns))

-- Whether some socket of the table waits for connections to the port.
def Listens (t : SocketTable) (port : UInt16) : Prop :=
  ∃ r ∈ t.rows, r.2.state.text = ['0', 'A'] ∧ r.2.port = port

instance (t : SocketTable) (port : UInt16) : Decidable (t.Listens port) :=
  inferInstanceAs (Decidable (∃ r ∈ t.rows, r.2.state.text = ['0', 'A'] ∧ r.2.port = port))

theorem listeningPorts_text (t : SocketTable) :
    listeningPorts t.text = t.rows.filterMap fun r =>
      if r.2.state.text = ['0', 'A'] then some r.2.port else none := by
  have hrows : ∀ r : Spacing × Socket, listeningPort? (words (r.1.line r.2.columns).text) =
      if r.2.state.text = ['0', 'A'] then some r.2.port else none := fun r => by
    rw [Spacing.line, Spacing.words_lay, Socket.listeningPort?_columns]
  rw [listeningPorts, Proc.rows, text, String.toList_ofList, ← List.map_drop, lines_heading,
    filterMap_words rfl, List.filterMap_map]
  exact congrArg (t.rows.filterMap ·) (funext hrows)

theorem mem_listeningPorts (t : SocketTable) (port : UInt16) :
    port ∈ listeningPorts t.text ↔ t.Listens port := by
  rw [listeningPorts_text, List.mem_filterMap]
  refine exists_congr fun r => and_congr_right fun _ => ?_
  split <;> simp [*]

end SocketTable

end Proc

namespace Host

-- How a reading of the state of some ports ends.
def portStates (h : Host) (asked : List UInt16) : Ending (List PortState) :=
  (Probe.portStates asked (Host.source fun _ => h)).1

theorem portStates_eq (h : Host) (asked : List UInt16) :
    h.portStates asked = (Ending.ofExcept h.listening).map (PortState.among · asked) := by
  have hreading : ∀ e : Ending (List UInt16),
      e.andThen (fun listening => .value (PortState.among listening asked)) =
        e.map (PortState.among · asked) := by
    intro e
    cases e <;> rfl
  exact hreading (.ofExcept h.listening)

-- Without the first table there is no reading, and without the second one the first alone counts.
theorem listening_eq (h : Host) :
    h.listening = match h.read "net/tcp", h.read "net/tcp6" with
      | .error f, _ => .error f
      | .ok tcp, .error _ => .ok (Proc.listeningPorts tcp)
      | .ok tcp, .ok tcp6 => .ok (Proc.listeningPorts tcp ++ Proc.listeningPorts tcp6) := by
  simp only [listening]
  cases h.read "net/tcp" with
  | error f => rfl
  | ok tcp =>
      cases h.read "net/tcp6" with
      | error f => simp [bind, Except.bind, pure, Except.pure]
      | ok tcp6 => rfl

-- From tables of sockets exactly the local ports of the sockets in state `0A` are read, whatever
-- stands in the other columns. A reading of ports tells the state of each port asked for, in the
-- order asked, by both tables; a second table that cannot be read counts as one without rows, and
-- without the first the reading fails and names it by its path, which has a separator after the root
-- unless the root is empty or ends in one.
theorem ports_read_exactly (h : Host) (tcp tcp6 : Proc.SocketTable) (asked : List UInt16) :
    (∀ port, port ∈ Proc.listeningPorts tcp.text ↔
      ∃ r ∈ tcp.rows, r.2.state.text = ['0', 'A'] ∧ r.2.port = port) ∧
    (h.files.readText "net/tcp" = .ok tcp.text →
      (h.files.readText "net/tcp6" = .ok tcp6.text ∨
        (∃ f, h.files.readText "net/tcp6" = .error f) ∧ tcp6.rows = []) →
      h.portStates asked = .value
        (asked.map fun port => ⟨port, decide (tcp.Listens port ∨ tcp6.Listens port)⟩)) ∧
    ∀ f, h.files.readText "net/tcp" = .error f →
      h.portStates asked = .fault (.provider ("reading " ++ h.root ++
        (if h.root.toList.getLast? ∈ [none, some '/'] then "" else "/") ++ "net/tcp: " ++
        f.message)) := by
  refine ⟨tcp.mem_listeningPorts, fun htcp htcp6 => ?_, fun f hf => ?_⟩
  · have hread : h.read "net/tcp" = .ok tcp.text := by simp only [read, htcp]
    obtain ⟨ports, hlistening, hports⟩ : ∃ ports, h.listening = .ok ports ∧
        ∀ port, port ∈ ports ↔ tcp.Listens port ∨ tcp6.Listens port := by
      rw [listening_eq, hread]
      rcases htcp6 with htcp6 | ⟨⟨f, hf⟩, hrows⟩
      · have hread6 : h.read "net/tcp6" = .ok tcp6.text := by simp only [read, htcp6]
        rw [hread6]
        exact ⟨_, rfl, fun port => by
          rw [List.mem_append, tcp.mem_listeningPorts, tcp6.mem_listeningPorts]⟩
      · have hnone : ∀ port, ¬tcp6.Listens port := by simp [Proc.SocketTable.Listens, hrows]
        have hread6 : ∃ e, h.read "net/tcp6" = .error e := by simp [read, hf]
        obtain ⟨e, he⟩ := hread6
        rw [he]
        exact ⟨_, rfl, fun port => by simp [tcp.mem_listeningPorts, hnone]⟩
    rw [portStates_eq, hlistening]
    simp [Ending.ofExcept, Ending.map, PortState.among, hports]
  · have hpath : "net/tcp: " = "net/tcp" ++ ": " := rfl
    have hread : h.read "net/tcp" = .error (.provider ("reading " ++ h.root ++ h.separator ++
        "net/tcp: " ++ f.message)) := by
      simp only [read, hf, hpath, String.append_assoc]
    rw [portStates_eq, listening_eq, hread]
    rfl

-- Files of a host without a second table.
def filesOfTcp (text : String) : Files :=
  ⟨[], [(["net"], .directory), (["net", "tcp"], .file (Text.bytes text))]⟩

private theorem readText_filesOfTcp (text : String) :
    (filesOfTcp text).readText "net/tcp" = .ok text ∧
      (filesOfTcp text).readText "net/tcp6" = .error .missing := by
  have hfirst : Files.steps "net/tcp" = ["net", "tcp"] := by
    rw [Files.steps, String.splitOn, if_neg (by decide)]
    iterate 3 rw [String.splitOnAux, if_neg (by decide), if_neg (by decide)]
    rw [String.splitOnAux, if_neg (by decide), if_pos (by decide), if_pos (by decide)]
    iterate 3 rw [String.splitOnAux, if_neg (by decide), if_neg (by decide)]
    rw [String.splitOnAux, if_pos (by decide)]
    decide
  have hsecond : Files.steps "net/tcp6" = ["net", "tcp6"] := by
    rw [Files.steps, String.splitOn, if_neg (by decide)]
    iterate 3 rw [String.splitOnAux, if_neg (by decide), if_neg (by decide)]
    rw [String.splitOnAux, if_neg (by decide), if_pos (by decide), if_pos (by decide)]
    iterate 4 rw [String.splitOnAux, if_neg (by decide), if_neg (by decide)]
    rw [String.splitOnAux, if_pos (by decide)]
    decide
  have hread : (filesOfTcp text).read "net/tcp" = .ok (Text.bytes text) := by
    simp only [Files.read, Files.locate, hfirst]
    rfl
  have hread6 : (filesOfTcp text).read "net/tcp6" = .error .missing := by
    simp only [Files.read, Files.locate, hsecond]
    rfl
  simp [Files.readText, hread, hread6, bind, Except.bind, ofBytes?_bytes]

-- Port 8080 is listened on. Port 5555 is not, although the socket shows it as its remote end, and
-- there is no second table.
theorem ports_read_exactly_remote :
    let server : Proc.Socket := {
      slot := ⟨['0', ':'], by decide, solid_of_all rfl⟩
      address := ['7', 'F']
      solid := solid_of_all rfl
      port := 8080
      capital := fun place => place == 1
      remote := ⟨['7', 'F', ':', '1', '5', 'B', '3'], by decide, solid_of_all rfl⟩
      state := ⟨['0', 'A'], by decide, solid_of_all rfl⟩
      further := [] }
    let tcp : Proc.SocketTable := ⟨⟨['s', 'l'], by decide⟩, [(.single, server)], true⟩
    let h : Host := ⟨"/proc", filesOfTcp tcp.text, 1⟩
    tcp.text = "sl\n0: 7F:1F90 7F:15B3 0A\n" ∧ h.files.readText "net/tcp" = .ok tcp.text ∧
      h.files.readText "net/tcp6" = .error .missing ∧
      h.portStates [5555, 8080, 5555] = .value [⟨5555, false⟩, ⟨8080, true⟩, ⟨5555, false⟩] := by
  intro server tcp h
  obtain ⟨htcp, htcp6⟩ := readText_filesOfTcp tcp.text
  let none6 : Proc.SocketTable := ⟨⟨[], by decide⟩, [], false⟩
  have hstates := (ports_read_exactly h tcp none6 [5555, 8080, 5555]).2.1 htcp
    (.inr ⟨⟨_, htcp6⟩, rfl⟩)
  exact ⟨by decide, htcp, htcp6, hstates.trans (congrArg Ending.value (by decide))⟩

end Host

end MetricRelay
