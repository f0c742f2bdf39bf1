import Strkd.Lib.Text

/-!
# The transport guard

Which HTTP requests reach the service: native ones, that say who they are and name the loopback
interface as their host.  `isLoopbackHost` takes a host apart by hand; it accepts every loopback
host, and with them a few texts that are none (`BentHost`).
-/

namespace Strkd.Rpc

/-- Header names, in lower case, and their values. -/
abbrev HeaderMap := List (String × List UInt8)

/-- `HeaderValue::to_str`: visible ASCII, blanks and tabs. -/
def headerText (value : List UInt8) : Option String :=
  if ∀ b ∈ value, (32 ≤ b.toNat ∧ b.toNat < 127) ∨ b.toNat = 9 then
    some (String.ofList (value.map fun b => Char.ofNat b.toNat))
  else none

/-! ## The code -/

/-- Whether a host, possibly with a port, names the loopback interface. -/
def isLoopbackHost (host : String) : Bool :=
  let h := match stripPrefix "[" host with
    | some rest => firstPart ']' rest
    | none => if host.toList.count ':' = 1 then firstPart ':' host else host
  h = "127.0.0.1" ∨ h = "localhost" ∨ h = "::1"

/-- Reject requests a web page could make. -/
def transportGuard (headers : HeaderMap) : Except String Unit :=
  if (headers.lookup "origin").isSome ∨ (headers.lookup "referer").isSome then
    .error "Origin/Referer header not allowed"
  else if ((headers.lookup "host").bind headerText).any isLoopbackHost = false then
    .error "Host must be loopback"
  else if ((headers.lookup "x-companion-client").bind headerText).any (· ≠ "") = false then
    .error "missing X-Companion-Client header"
  else .ok ()

/-! ## Hosts -/

/-- Nothing, or a colon and a possibly empty string of digits. -/
def PortTail (tail : String) : Prop :=
  tail = "" ∨ ∃ port, tail = ":" ++ port ∧ ∀ c ∈ port.toList, c.isDigit = true

/-- The texts that name the loopback interface, with or without a port. -/
def LoopbackHost (host : String) : Prop :=
  host = "::1" ∨ ∃ addr ∈ ["127.0.0.1", "localhost", "[::1]"], ∃ tail, PortTail tail ∧
    host = addr ++ tail

/-- A loopback name with an unclosed bracket, in the wrong bracket, with more than a port after its
bracket, or with a port that is no number. -/
inductive BentHost : String → Prop
  | unclosed (name : String) : name ∈ ["127.0.0.1", "localhost", "::1"] → BentHost ("[" ++ name)
  | wrapped (name tail : String) : name ∈ ["127.0.0.1", "localhost"] →
      BentHost ("[" ++ name ++ "]" ++ tail)
  | trailed (tail : String) : ¬ PortTail tail → BentHost ("[::1]" ++ tail)
  | port (name port : String) : name ∈ ["127.0.0.1", "localhost"] → ':' ∉ port.toList →
      (∃ c ∈ port.toList, c.isDigit = false) → BentHost (name ++ ":" ++ port)

theorem portTail_colon {port : String} :
    PortTail (":" ++ port) ↔ ∀ c ∈ port.toList, c.isDigit = true := by
  constructor
  · rintro (h | ⟨p, h, hp⟩)
    · simp at h
    · rwa [(String.append_right_inj ":").1 h]
  · exact fun h => Or.inr ⟨port, rfl, h⟩

/-- A bent host is no loopback host. -/
theorem BentHost.not_loopback {host : String} (h : BentHost host) : ¬ LoopbackHost host := by
  rintro (rfl | ⟨addr, haddr, tail', htail, rfl⟩)
  · generalize hs : "::1" = s at h
    cases h with
    | unclosed name _ => simp [← String.toList_inj] at hs
    | wrapped name tail _ => simp [← String.toList_inj] at hs
    | trailed tail _ => simp [← String.toList_inj] at hs
    | port name port hname _ _ =>
        simp only [List.mem_cons, List.not_mem_nil, or_false] at hname
        rcases hname with rfl | rfl <;> simp [← String.toList_inj] at hs
  · generalize hs : addr ++ tail' = s at h
    simp only [List.mem_cons, List.not_mem_nil, or_false] at haddr
    cases h with
    | unclosed name hname =>
        simp only [List.mem_cons, List.not_mem_nil, or_false] at hname
        rcases haddr with rfl | rfl | rfl <;> rcases hname with rfl | rfl | rfl <;>
          simp [← String.toList_inj] at hs
    | wrapped name tail hname =>
        simp only [List.mem_cons, List.not_mem_nil, or_false] at hname
        rcases haddr with rfl | rfl | rfl <;> rcases hname with rfl | rfl <;>
          simp [← String.toList_inj] at hs
    | trailed tail hnot =>
        rcases haddr with rfl | rfl | rfl
        · simp [← String.toList_inj] at hs
        · simp [← String.toList_inj] at hs
        · rw [(String.append_right_inj "[::1]").1 hs] at htail
          exact hnot htail
    | port name port hname hcolon hdigit =>
        simp only [List.mem_cons, List.not_mem_nil, or_false] at hname
        have hsame : addr = name ∧ tail' = ":" ++ port := by
          rw [String.append_assoc] at hs
          rcases haddr with rfl | rfl | rfl <;> rcases hname with rfl | rfl
          · exact ⟨rfl, (String.append_right_inj _).1 hs⟩
          · simp [← String.toList_inj] at hs
          · simp [← String.toList_inj] at hs
          · exact ⟨rfl, (String.append_right_inj _).1 hs⟩
          · simp [← String.toList_inj] at hs
          · simp [← String.toList_inj] at hs
        obtain ⟨c, hc, hno⟩ := hdigit
        rw [hsame.2, portTail_colon] at htail
        rw [htail c hc] at hno
        cases hno

theorem isLoopbackHost_bracket (rest : String) : isLoopbackHost ("[" ++ rest) = true ↔
    ∃ name ∈ ["127.0.0.1", "localhost", "::1"], rest = name ∨ ∃ t, rest = name ++ ("]" ++ t) := by
  have hname : ∀ name ∈ ["127.0.0.1", "localhost", "::1"], firstPart ']' rest = name ↔
      (rest = name ∨ ∃ t, rest = name ++ ("]" ++ t)) := by
    intro name hname
    have hnot : ']' ∉ name.toList := by
      revert name
      decide
    rw [firstPart_eq_iff]
    exact ⟨fun h => h.2, fun h => ⟨hnot, h⟩⟩
  unfold isLoopbackHost
  rw [stripPrefix_append]
  constructor
  · intro h
    refine ⟨firstPart ']' rest, by simpa using h, ?_⟩
    exact (hname _ (by simpa using h)).1 rfl
  · rintro ⟨name, hmem, h⟩
    have heq := (hname name hmem).2 h
    simpa [heq] using hmem

theorem isLoopbackHost_port {name port : String} (hname : name ∈ ["127.0.0.1", "localhost"])
    (hport : ':' ∉ port.toList) : isLoopbackHost (name ++ ":" ++ port) = true := by
  have hcolon : ':' ∉ name.toList := by
    clear hport
    revert name
    decide
  have hfirst : firstPart ':' (name ++ ":" ++ port) = name := by
    rw [firstPart_eq_iff, String.append_assoc]
    exact ⟨hcolon, Or.inr ⟨port, rfl⟩⟩
  have hcount : (name ++ ":" ++ port).toList.count ':' = 1 := by
    rw [String.toList_append, String.toList_append, List.count_append, List.count_append,
      List.count_eq_zero.2 hcolon, List.count_eq_zero.2 hport]
    rfl
  simp only [List.mem_cons, List.not_mem_nil, or_false] at hname
  have hstrip : stripPrefix "[" (name ++ ":" ++ port) = none := by
    rcases hname with rfl | rfl <;> simp [stripPrefix]
  unfold isLoopbackHost
  rw [hstrip]
  simp only [hcount, if_true, hfirst]
  rcases hname with rfl | rfl <;> decide

theorem notMem_digits {port : String} (h : ∀ c ∈ port.toList, c.isDigit = true) :
    ':' ∉ port.toList := by
  intro hm
  have := h ':' hm
  revert this
  decide

/-- A host without a bracket. -/
theorem loopback_or_bent_of_plain {host : String} (hstrip : stripPrefix "[" host = none)
    (h : isLoopbackHost host = true) : LoopbackHost host ∨ BentHost host := by
  unfold isLoopbackHost at h
  rw [hstrip] at h
  by_cases hcount : host.toList.count ':' = 1
  · simp only [hcount, if_true] at h
    obtain ⟨name, hfirst⟩ : ∃ name, firstPart ':' host = name := ⟨_, rfl⟩
    rw [hfirst] at h
    have hname : name = "127.0.0.1" ∨ name = "localhost" ∨ name = "::1" := by simpa using h
    obtain ⟨hcolon, hhost⟩ := firstPart_eq_iff.1 hfirst
    have htwo : name ∈ ["127.0.0.1", "localhost"] := by
      rcases hname with rfl | rfl | rfl
      · decide
      · decide
      · exact absurd hcolon (by decide)
    rcases hhost with rfl | ⟨port, rfl⟩
    · rw [List.count_eq_zero.2 hcolon] at hcount
      omega
    · have hport : ':' ∉ port.toList := by
        rw [String.toList_append, String.toList_append, List.count_append, List.count_append,
          List.count_eq_zero.2 hcolon, String.toList_singleton, List.count_singleton_self] at hcount
        exact List.count_eq_zero.1 (by omega)
      by_cases hdigits : ∀ c ∈ port.toList, c.isDigit = true
      · refine Or.inl (Or.inr ⟨name, ?_, ":" ++ port, portTail_colon.2 hdigits, rfl⟩)
        revert htwo
        simp only [List.mem_cons]
        tauto
      · push Not at hdigits
        obtain ⟨c, hc, hno⟩ := hdigits
        have hbent := BentHost.port name port htwo hport ⟨c, hc, by simpa using hno⟩
        rw [String.append_assoc] at hbent
        exact Or.inr hbent
  · simp only [if_neg hcount] at h
    have hname : host = "127.0.0.1" ∨ host = "localhost" ∨ host = "::1" := by simpa using h
    rcases hname with rfl | rfl | rfl
    · exact Or.inl (Or.inr ⟨_, List.mem_cons_self, "", Or.inl rfl, rfl⟩)
    · exact Or.inl (Or.inr ⟨_, List.mem_cons_of_mem _ List.mem_cons_self, "", Or.inl rfl, rfl⟩)
    · exact Or.inl (Or.inl rfl)

/-- What is accepted: the loopback hosts and the bent ones. -/
theorem isLoopbackHost_iff {host : String} :
    isLoopbackHost host = true ↔ LoopbackHost host ∨ BentHost host := by
  constructor
  · intro h
    cases hstrip : stripPrefix "[" host with
    | none => exact loopback_or_bent_of_plain hstrip h
    | some rest =>
        obtain rfl := eq_of_stripPrefix hstrip
        obtain ⟨name, hname, rfl | ⟨tail, rfl⟩⟩ := (isLoopbackHost_bracket rest).1 h
        · exact Or.inr (.unclosed _ hname)
        · simp only [List.mem_cons, List.not_mem_nil, or_false] at hname
          have hwrapped {name : String} (h : name ∈ ["127.0.0.1", "localhost"]) :
              BentHost ("[" ++ (name ++ ("]" ++ tail))) := by
            have := BentHost.wrapped name tail h
            rwa [String.append_assoc, String.append_assoc] at this
          rcases hname with rfl | rfl | rfl
          · exact Or.inr (hwrapped List.mem_cons_self)
          · exact Or.inr (hwrapped (List.mem_cons_of_mem _ List.mem_cons_self))
          · by_cases htail : PortTail tail
            · exact Or.inl (Or.inr ⟨"[::1]", by decide, tail, htail, rfl⟩)
            · exact Or.inr (.trailed tail htail)
  · rintro ((rfl | ⟨addr, haddr, tail, htail, rfl⟩) | hbent)
    · decide
    · simp only [List.mem_cons, List.not_mem_nil, or_false] at haddr
      rcases htail with rfl | ⟨port, rfl, hport⟩
      · rcases haddr with rfl | rfl | rfl <;> decide
      · rw [← String.append_assoc]
        rcases haddr with rfl | rfl | rfl
        · exact isLoopbackHost_port List.mem_cons_self (notMem_digits hport)
        · exact isLoopbackHost_port (List.mem_cons_of_mem _ List.mem_cons_self)
            (notMem_digits hport)
        · exact (isLoopbackHost_bracket ("::1]" ++ ":" ++ port)).2
            ⟨"::1", by decide, Or.inr ⟨":" ++ port, rfl⟩⟩
    · cases hbent with
      | unclosed name hname => exact (isLoopbackHost_bracket name).2 ⟨name, hname, Or.inl rfl⟩
      | wrapped name tail hname =>
          rw [String.append_assoc, String.append_assoc]
          refine (isLoopbackHost_bracket _).2 ⟨name, ?_, Or.inr ⟨tail, rfl⟩⟩
          revert hname
          simp only [List.mem_cons]
          tauto
      | trailed tail _ =>
          exact (isLoopbackHost_bracket ("::1]" ++ tail)).2 ⟨"::1", by decide, Or.inr ⟨tail, rfl⟩⟩
      | port name port hname hport _ => exact isLoopbackHost_port hname hport

/-! ## Requests -/

/-- The text of a header, if it has one. -/
def headerStr (headers : HeaderMap) (name : String) : Option String :=
  (headers.lookup name).bind headerText

/-- No `Origin` and no `Referer`. -/
def Unbrowsed (headers : HeaderMap) : Prop :=
  headers.lookup "origin" = none ∧ headers.lookup "referer" = none

/-- A native request to a loopback host, from a client that says who it is. -/
structure Admissible (headers : HeaderMap) : Prop where
  unbrowsed : Unbrowsed headers
  client : ∃ label, headers.lookup "x-companion-client" = some label ∧ label ≠ []
  host : ∃ host, headerStr headers "host" = some host ∧ LoopbackHost host

/-- A request that is judged wrongly: it names a bent host, or a loopback host with a client label
that is no visible ASCII. -/
def Misjudged (headers : HeaderMap) : Prop :=
  Unbrowsed headers ∧ ∃ host label, headerStr headers "host" = some host ∧
    headers.lookup "x-companion-client" = some label ∧ label ≠ [] ∧
      (BentHost host ∧ (headerText label).isSome ∨ LoopbackHost host ∧ headerText label = none)

theorem headerText_ne_empty {label : List UInt8} {s : String} (h : headerText label = some s) :
    s ≠ "" ↔ label ≠ [] := by
  unfold headerText at h
  split_ifs at h
  rw [← Option.some.inj h, ne_eq, ne_eq, not_iff_not, ← String.toList_inj, String.toList_ofList]
  exact List.map_eq_nil_iff

theorem transportGuard_eq_ok {headers : HeaderMap} : transportGuard headers = .ok () ↔
    Unbrowsed headers ∧ ∃ host label, headerStr headers "host" = some host ∧
      headers.lookup "x-companion-client" = some label ∧ label ≠ [] ∧
        isLoopbackHost host = true ∧ (headerText label).isSome := by
  unfold transportGuard
  split_ifs with hbrowsed hhost hclient
  · refine ⟨fun h => (nomatch h), fun ⟨⟨horigin, hreferer⟩, _⟩ => ?_⟩
    rw [horigin, hreferer] at hbrowsed
    simp at hbrowsed
  · refine ⟨fun h => (nomatch h), fun ⟨_, host, _, hsome, _, _, hok, _⟩ => ?_⟩
    rw [show (headers.lookup "host").bind headerText = some host from hsome] at hhost
    simp [hok] at hhost
  · refine ⟨fun h => (nomatch h), fun ⟨_, _, label, _, hlabel, hne, _, htext⟩ => ?_⟩
    obtain ⟨s, hs⟩ := Option.isSome_iff_exists.1 htext
    rw [hlabel, Option.bind_some, hs] at hclient
    simp [(headerText_ne_empty hs).2 hne] at hclient
  · rw [not_or, Option.not_isSome_iff_eq_none, Option.not_isSome_iff_eq_none] at hbrowsed
    refine ⟨fun _ => ⟨hbrowsed, ?_⟩, fun _ => rfl⟩
    obtain ⟨host, hsome, hok⟩ : ∃ host, headerStr headers "host" = some host ∧
        isLoopbackHost host = true := by
      simpa [headerStr, Option.any_eq_true] using hhost
    obtain ⟨label, hlabel, s, hs, hne⟩ : ∃ label, headers.lookup "x-companion-client" = some label ∧
        ∃ s, headerText label = some s ∧ s ≠ "" := by
      cases hl : headers.lookup "x-companion-client" with
      | none => simp [hl] at hclient
      | some label =>
          refine ⟨label, rfl, ?_⟩
          simpa [hl, Option.any_eq_true] using hclient
    exact ⟨host, label, hsome, hlabel, (headerText_ne_empty hs).1 hne, hok, by simp [hs]⟩

/-- The guard accepts exactly the admissible requests, but for those it misjudges. -/
theorem transportGuard_exact (headers : HeaderMap) :
    (transportGuard headers = .ok () ↔ Admissible headers) ↔ ¬ Misjudged headers := by
  rw [transportGuard_eq_ok]
  constructor
  · rintro h ⟨hu, host, label, hhost, hlabel, hne, ⟨hbent, htext⟩ | ⟨hloop, htext⟩⟩
    · obtain ⟨-, -, host', hhost', hloop⟩ :=
        h.1 ⟨hu, host, label, hhost, hlabel, hne, isLoopbackHost_iff.2 (Or.inr hbent), htext⟩
      rw [Option.some.inj (hhost'.symm.trans hhost)] at hloop
      exact hbent.not_loopback hloop
    · obtain ⟨-, _, label', -, hlabel', -, -, htext'⟩ :=
        h.2 ⟨hu, ⟨label, hlabel, hne⟩, host, hhost, hloop⟩
      rw [Option.some.inj (hlabel'.symm.trans hlabel), htext] at htext'
      cases htext'
  · intro h
    constructor
    · rintro ⟨hu, host, label, hhost, hlabel, hne, hok, htext⟩
      refine ⟨hu, ⟨label, hlabel, hne⟩, host, hhost, ?_⟩
      rcases isLoopbackHost_iff.1 hok with hloop | hbent
      · exact hloop
      · exact absurd ⟨hu, host, label, hhost, hlabel, hne, Or.inl ⟨hbent, htext⟩⟩ h
    · rintro ⟨hu, ⟨label, hlabel, hne⟩, host, hhost, hloop⟩
      refine ⟨hu, host, label, hhost, hlabel, hne, isLoopbackHost_iff.2 (Or.inl hloop), ?_⟩
      cases htext : headerText label with
      | some s => rfl
      | none => exact absurd ⟨hu, host, label, hhost, hlabel, hne, Or.inr ⟨hloop, htext⟩⟩ h

/-- A host that only starts with a loopback address is let through. -/
theorem transportGuard_bent : ¬ ∀ headers : HeaderMap,
    transportGuard headers = .ok () ↔ Admissible headers := by
  intro h
  have hbent : BentHost "[::1].evil.com" := .trailed ".evil.com" (by
    rintro (h | ⟨port, h, -⟩) <;> simp [← String.toList_inj] at h)
  have hok : transportGuard [("host", "[::1].evil.com".toUTF8.toList),
      ("x-companion-client", "agent-1".toUTF8.toList)] = .ok () := by decide +kernel
  obtain ⟨-, -, host, hhost, hloop⟩ := (h _).1 hok
  have hsame : headerStr [("host", "[::1].evil.com".toUTF8.toList),
      ("x-companion-client", "agent-1".toUTF8.toList)] "host" = some "[::1].evil.com" := by
    decide +kernel
  rw [Option.some.inj (hhost.symm.trans hsame)] at hloop
  exact hbent.not_loopback hloop

end Strkd.Rpc
