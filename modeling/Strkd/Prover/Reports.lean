import Strkd.Lib.Numeral
import Strkd.Lib.Replace

/-!
# Reports of the prover CLI

The CLI writes its progress and then its error report to stderr.  The report is everything from its
last `Error:` on, with the colour escapes stripped, and what it says decides the message a caller
gets.  The progress ahead of it has no say in that (`classify_append`).
-/

namespace Strkd.Prover

/-! ## Colour escapes -/

mutual

/-- Strip the colour escapes of a text. -/
def stripAnsi : List Char → List Char
  | [] => []
  | '\x1b' :: '[' :: cs => skipEscape cs
  | c :: cs => c :: stripAnsi cs

/-- An escape goes on to its first letter. -/
def skipEscape : List Char → List Char
  | [] => []
  | c :: cs => if c.isAlpha then stripAnsi cs else skipEscape cs

end

/-- Every escape begun in a text ends in it, and the text does not stop at a bare ESC. -/
inductive EscapesEnd : List Char → Prop
  | nil : EscapesEnd []
  | plain {c : Char} {cs : List Char} : c ≠ '\x1b' → EscapesEnd cs → EscapesEnd (c :: cs)
  | bare {c : Char} {cs : List Char} : c ≠ '[' → EscapesEnd (c :: cs) →
      EscapesEnd ('\x1b' :: c :: cs)
  | escape {body : List Char} {last : Char} {cs : List Char} :
      (∀ c ∈ body, c.isAlpha = false) → last.isAlpha = true → EscapesEnd cs →
        EscapesEnd ('\x1b' :: '[' :: (body ++ last :: cs))

/-- A text without ESC has no escapes. -/
theorem EscapesEnd.text {cs e : List Char} (hcs : '\x1b' ∉ cs) (he : EscapesEnd e) :
    EscapesEnd (cs ++ e) := by
  induction cs with
  | nil => exact he
  | cons c cs ih =>
      rw [List.mem_cons, not_or] at hcs
      exact .plain (Ne.symm hcs.1) (ih hcs.2)

theorem stripAnsi_plain {c : Char} (hc : c ≠ '\x1b') (cs : List Char) :
    stripAnsi (c :: cs) = c :: stripAnsi cs := by
  rw [stripAnsi]
  intro rest h _
  exact hc h

theorem stripAnsi_bare {c : Char} (hc : c ≠ '[') (cs : List Char) :
    stripAnsi ('\x1b' :: c :: cs) = '\x1b' :: stripAnsi (c :: cs) := by
  rw [stripAnsi]
  intro rest _ h
  exact hc (List.cons.inj h).1

theorem skipEscape_append {body : List Char} (hbody : ∀ c ∈ body, c.isAlpha = false) {last : Char}
    (hlast : last.isAlpha = true) (cs : List Char) :
    skipEscape (body ++ last :: cs) = stripAnsi cs := by
  induction body with
  | nil =>
      show skipEscape (last :: cs) = stripAnsi cs
      rw [skipEscape, if_pos hlast]
  | cons c body ih =>
      have hc : ¬ c.isAlpha = true := by
        rw [hbody c List.mem_cons_self]
        decide
      rw [List.cons_append, skipEscape, if_neg hc]
      exact ih fun d hd => hbody d (List.mem_cons_of_mem _ hd)

/-- What follows a text whose escapes end is stripped on its own. -/
theorem stripAnsi_append {p : List Char} (hp : EscapesEnd p) (e : List Char) :
    stripAnsi (p ++ e) = stripAnsi p ++ stripAnsi e := by
  induction hp with
  | nil => rfl
  | plain hc _ ih =>
      rw [List.cons_append, stripAnsi_plain hc, stripAnsi_plain hc, ih]
      rfl
  | bare hc _ ih =>
      rw [List.cons_append, List.cons_append, stripAnsi_bare hc, stripAnsi_bare hc,
        ← List.cons_append, ih]
      rfl
  | @escape body last cs hbody hlast _ ih =>
      have hleft : stripAnsi ('\x1b' :: '[' :: (body ++ last :: cs)) = stripAnsi cs := by
        rw [stripAnsi]
        exact skipEscape_append hbody hlast cs
      have hwhole : stripAnsi ('\x1b' :: '[' :: (body ++ last :: cs) ++ e) =
          stripAnsi (cs ++ e) := by
        have hassoc : '\x1b' :: '[' :: (body ++ last :: cs) ++ e =
            '\x1b' :: '[' :: (body ++ last :: (cs ++ e)) := by simp
        rw [hassoc, stripAnsi]
        exact skipEscape_append hbody hlast (cs ++ e)
      rw [hwhole, hleft, ih]

/-! ## The report -/

/-- The final error report of the CLI. -/
def errorPart (stderr : String) : String :=
  let clean := stripAnsi stderr.toList
  match fromLast "Error:".toList clean with
  | some report => String.ofList report
  | none => String.ofList clean

/-- The first 300 characters of a text, trimmed. -/
def snippet (s : String) : String := String.ofList ((trim s).toList.take 300)

def maxComponentLogRows : ℕ := 20

def approxMaxSteps : ℕ := 1000000

/-- The message for an error report; `toLowercase` is `str::to_lowercase`. -/
def classifyProverError (toLowercase : String → String) (stderr : String) : String :=
  let stderr := errorPart stderr
  let low := toLowercase stderr
  if contains low "not enough twiddles" then
    "transaction too large to prove: its execution trace exceeds the SNIP-36 prover's fixed " ++
      "size — at most 2^" ++ toString maxComponentLogRows ++ " rows in any one AIR component (≈" ++
      toString approxMaxSteps ++ " Cairo steps as a rule of thumb). This is a protocol constant " ++
      "of the verifier the network accepts (PROOF1), not a machine limit: more RAM or a retry " ++
      "won't help. Split the work across separate transactions, each proved on its own (several " ++
      "calls inside one tx share one trace). ec_op and keccak are emulated in Cairo by the " ++
      "prover's bootloader, so ECDSA/keccak-heavy code hits the cap well before 1M steps — find " ++
      "the largest batch that proves and chunk below it. raw: " ++ snippet stderr
  else if contains low "429" ∨ contains low "too many requests" ∨
      contains low "rpc provider error" then
    "upstream RPC throttled (HTTP 429 / provider error) — proving fetches lots of state; use a " ++
      "higher-quota RPC in Settings. raw: " ++ snippet stderr
  else if contains low "state_diff_commitment" then
    "RPC too old (missing `state_diff_commitment`) — needs a spec ≥0.10 endpoint. raw: " ++
      snippet stderr
  else if contains low "port" ∧ contains low "already in use" then
    "prover port in use (stale runner) — retry; strkd picks a fresh port per prove. raw: " ++
      snippet stderr
  else if contains low "invalid starknet version" ∨ contains low "convert block header" then
    "the bundled prover does not support this network's Starknet protocol version — it rejected " ++
      "the reference block header, so the pinned prover stack predates the network's current " ++
      "protocol. Fix: update the prover pin (desktop/scripts/prover-pin.env) to a release that " ++
      "supports it and re-stage, or set the prover backend to `remote` (Settings) and point at a " ++
      "compatible prover. raw: " ++ snippet stderr
  else "prover failed: " ++ snippet stderr

/-- The report is the same with other output ahead of it. -/
theorem errorPart_append {p e : String} (hp : EscapesEnd p.toList)
    (he : "Error:".toList <+: stripAnsi e.toList) : errorPart (p ++ e) = errorPart e := by
  obtain ⟨report, hreport⟩ := exists_fromLast he
  have hwhole : fromLast "Error:".toList (stripAnsi (p ++ e).toList) = some report := by
    rw [String.toList_append, stripAnsi_append hp]
    exact fromLast_append _ hreport
  unfold errorPart
  simp only [hwhole, hreport]

/-- Progress output never changes the diagnosis of the report that follows it. -/
theorem classify_append (toLowercase : String → String) {p e : String}
    (hp : EscapesEnd p.toList) (he : "Error:".toList <+: stripAnsi e.toList) :
    classifyProverError toLowercase (p ++ e) = classifyProverError toLowercase e := by
  unfold classifyProverError
  rw [errorPart_append hp he]

/-- Progress with colour escapes inside words, ahead of a report that starts with one. -/
theorem classify_append_coloured :
    classifyProverError (fun s => s.map Char.toLower)
        ("4\x1b[31m29 Error: not enough \x1b[0mtwiddles" ++
          "\x1b[31mError: port 9 already in use") =
      classifyProverError (fun s => s.map Char.toLower)
        "\x1b[31mError: port 9 already in use" := by
  refine classify_append _ ?_ (by decide)
  have hlist : "4\x1b[31m29 Error: not enough \x1b[0mtwiddles".toList =
      ['4'] ++ '\x1b' :: '[' :: (['3', '1'] ++ 'm' :: ("29 Error: not enough ".toList ++
        '\x1b' :: '[' :: (['0'] ++ 'm' :: ("twiddles".toList ++ [])))) := by decide
  rw [hlist]
  have htail : EscapesEnd ("twiddles".toList ++ []) := EscapesEnd.text (by decide) .nil
  have hlast := EscapesEnd.escape (show ∀ c ∈ ['0'], c.isAlpha = false by simp)
    (show 'm'.isAlpha = true by decide) htail
  have hmiddle := EscapesEnd.text
    (show '\x1b' ∉ "29 Error: not enough ".toList by decide +kernel) hlast
  have hfirst := EscapesEnd.escape (show ∀ c ∈ ['3', '1'], c.isAlpha = false by simp)
    (show 'm'.isAlpha = true by decide) hmiddle
  exact EscapesEnd.text (by decide) hfirst

end Strkd.Prover
