import Strfry.Json
import Strfry.Lib.LineReader

/-!
# The write policy plugin

`PluginEventSifter::acceptEvent` (`PluginEventSifter.h`): the event goes to the plugin as
one line of JSON, and the plugin's verdict is the first line that parses as JSON.  Lines
that do not are skipped.

Before each line `waitUntilReadable` polls the descriptor, while `fgets` reads through
stdio's buffer.  Once everything has been fetched the poll times out, although lines may
be waiting in the buffer: then the event is rejected with an internal error.  The verdict
comes through exactly when the last fetch brings no end of a skipped line
(`readResponse_eq`, `acceptEvent_verdict`).

The operating system is a parameter; a plugin's output is what the reads of its pipe will
get, as far as it arrives before the timeout.
-/

namespace Strfry

inductive PluginEventSifterResult where
  | accept
  | reject
  | shadowReject
deriving DecidableEq, Repr

inductive EventSourceType where
  | none
  | ip4
  | ip6
  | import_
  | stream
  | sync
  | stored
deriving DecidableEq

def eventSourceTypeToStr : EventSourceType → String
  | .ip4 => "IP4"
  | .ip6 => "IP6"
  | .import_ => "Import"
  | .stream => "Stream"
  | .sync => "Sync"
  | _ => "?"

namespace PluginEventSifter

structure RunningPlugin where
  currPluginCmd : Bytes
  lastModTime : Nat × Nat
  /-- the `FILE` on the plugin's output -/
  r : Reader Byte

structure Os where
  /-- the modification time of a file -/
  stat : Bytes → Option (Nat × Nat)
  setupPlugin : Bytes → Except Err RunningPlugin
  time : Int
  inetNtop : Bytes → Bytes
  /-- the request is written; `none` when it was not written whole -/
  fwrite : RunningPlugin → Bytes → Option RunningPlugin

/-- The text of bytes in a message. -/
def textOf (b : Bytes) : String := String.ofList (b.map fun c => Char.ofNat c.val)

/-- A `char` array as the C string it holds. -/
def cString (buf : Bytes) : Bytes := buf.takeWhile fun c => c ≠ 0

section
variable (os : Os)

def renderIP (ipBytes : Bytes) : Except Err Bytes :=
  if ipBytes.length = 4 ∨ ipBytes.length = 16 then .ok (os.inetNtop ipBytes)
  else .error (.herr "invalid size of ipBytes, unable to render IP")

/-- The plugin to ask: the running one, unless it is another or its file has changed. -/
def currentPlugin (running : Option RunningPlugin) (pluginCmd : Bytes) : Except Err RunningPlugin := do
  let kept ← match running with
    | none => .ok none
    | some p =>
      if pluginCmd ≠ p.currPluginCmd then .ok none
      else if 32 ∉ pluginCmd then
        match os.stat pluginCmd with
        | none => .error (.herr ("couldn't stat plugin: " ++ textOf pluginCmd))
        | some t => .ok (if t ≠ p.lastModTime then none else some p)
      else .ok (some p)
  match kept with
  | some p => return p
  | none => os.setupPlugin pluginCmd

def renderSource (sourceType : EventSourceType) (sourceInfo : Bytes) : Except Err Bytes :=
  if sourceType = .ip4 ∨ sourceType = .ip6 then renderIP os sourceInfo else .ok sourceInfo

def request (evJson : Json) (sourceType : EventSourceType) (sourceInfo : Bytes) : Except Err Json := do
  let info ← renderSource os sourceType sourceInfo
  return .object [(ascii "event", evJson), (ascii "receivedAt", .signed os.time),
    (ascii "sourceInfo", .string info), (ascii "sourceType", .string (ascii (eventSourceTypeToStr sourceType))),
    (ascii "type", .string (ascii "new"))]

variable [TaoJson]

/-- Everything up to the wait for an answer: the request, its line, the plugin that has it. -/
def send (running : Option RunningPlugin) (pluginCmd : Bytes) (evJson : Json) (sourceType : EventSourceType)
    (sourceInfo : Bytes) : Except Err (Json × Bytes × RunningPlugin) := do
  let p ← currentPlugin os running pluginCmd
  let req ← request os evJson sourceType sourceInfo
  let output := TaoJson.toString req ++ [10]
  match os.fwrite p output with
  | none => .error (.herr "error writing to plugin")
  | some p => return (req, output, p)

end

section
variable [TaoJson]

/-- A line that parses is the response, if it is for the event. -/
def checkId (req response : Json) : Except Err Unit := do
  let id ← (← response.atKey (ascii "id")).getString
  let evId ← (← (← req.atKey (ascii "event")).atKey (ascii "id")).getString
  throwIf (id ≠ evId) (.herr "id mismatch")

/-- The loop that waits for the response; `none` is a wait for ever.  Each turn takes a byte at least. -/
def readResponse (req : Json) (output : Bytes) : Nat → Reader Byte → Option (Except Err (Json × Reader Byte))
  | 0, _ => none
  | fuel + 1, r =>
    if r.ready then
      match r.getLine 10 8191 with
      | (.line buf, r) =>
        match TaoJson.fromString (cString buf) with
        | none => readResponse req output fuel r
        | some response => some ((checkId req response).map fun _ => (response, r))
      | (.eof, _) => some (.error (.herr "pipe to plugin was closed (plugin crashed?)"))
      | (.blocked, _) => none
    else some (.error (.herr ("Timed out reading response from plugin. Request: " ++ textOf output)))

end

/-- `response.optional<std::string>(key)`, empty when missing. -/
def optionalString (response : Json) (key : Bytes) : Except Err Bytes :=
  match response.atKey key with
  | .error _ => .ok []
  | .ok v => v.getString

def actionResult (action : Bytes) : Option PluginEventSifterResult :=
  if action = ascii "accept" then some .accept
  else if action = ascii "reject" then some .reject
  else if action = ascii "shadowReject" then some .shadowReject
  else none

/-- What the response says. -/
def verdict (response : Json) : Except Err (PluginEventSifterResult × Bytes) := do
  let okMsg ← optionalString response (ascii "msg")
  let action ← (← response.atKey (ascii "action")).getString
  match actionResult action with
  | some res => return (res, okMsg)
  | none => .error (.herr ("unknown action: " ++ textOf action))

section
variable [TaoJson] (os : Os)

/-- After the loop: the verdict, and the plugin as the loop left it. -/
def finish (p : RunningPlugin) (x : Json × Reader Byte) :
    Except Err (PluginEventSifterResult × Bytes × RunningPlugin) := do
  let v ← verdict x.1
  return (v.1, v.2, { p with r := x.2 })

/-- The `try` block. -/
def askPlugin (running : Option RunningPlugin) (pluginCmd : Bytes) (evJson : Json) (sourceType : EventSourceType)
    (sourceInfo : Bytes) : Option (Except Err (PluginEventSifterResult × Bytes × RunningPlugin)) :=
  match send os running pluginCmd evJson sourceType sourceInfo with
  | .error e => some (.error e)
  | .ok (req, output, p) =>
    (readResponse req output (p.r.content.length + 1) p.r).map fun x => x >>= finish p

/-- `acceptEvent`: the result, `okMsg` and the plugin kept running; `none` when it does not return. -/
def acceptEvent (running : Option RunningPlugin) (pluginCmd : Bytes) (evJson : Json) (sourceType : EventSourceType)
    (sourceInfo okMsg : Bytes) : Option (PluginEventSifterResult × Bytes × Option RunningPlugin) :=
  if pluginCmd = [] then some (.accept, okMsg, none)
  else
    (askPlugin os running pluginCmd evJson sourceType sourceInfo).map fun
      | .ok (res, okMsg, p) => (res, okMsg, some p)
      | .error _ => (.reject, ascii "error: internal error", none)

end

/-! ## Where the output is cut -/

/-- The lines a plugin writes. -/
def linesOf (lines : List Bytes) : Bytes := lines.flatMap fun line => line ++ [10]

theorem length_le_linesOf (lines : List Bytes) : lines.length ≤ (linesOf lines).length := by
  induction lines with
  | nil => exact Nat.zero_le _
  | cons line lines ih =>
    simp only [linesOf, List.flatMap_cons, List.length_append, List.length_cons] at ih ⊢
    omega

/-- A line that fits `fgets`. -/
def Fits (line : Bytes) : Prop := 10 ∉ line ∧ line.length < 8191

section
variable [TaoJson]

/-- What `fgets` makes of a line does not parse. -/
def Skipped (line : Bytes) : Prop := TaoJson.fromString (cString (line ++ [10])) = none

/-- The last fetch brings no end of these lines, or the pipe is closed after it. -/
def Timely (r : Reader Byte) (lines : List Bytes) : Prop :=
  r.closed = true ∨ r.fetches ≠ [] ∧ (linesOf lines).length ≤ (r.buf ++ r.fetches.dropLast.flatten).length

omit [TaoJson] in
/-- Reading one of the lines does not change whether the rest is timely. -/
theorem timely_cons {r r' : Reader Byte} {line : Bytes} {lines : List Bytes} {used : List Bytes}
    (hready : r.ready = true) (hclosed : r'.closed = r.closed) (hfetches : r.fetches = used ++ r'.fetches)
    (hused : r.buf ++ used.flatten = line ++ 10 :: r'.buf)
    (hlast : used ≠ [] → (r.buf ++ used.dropLast.flatten).length ≤ line.length) :
    Timely r (line :: lines) ↔ Timely r' lines := by
  have hlen : r.buf.length + used.flatten.length = line.length + 1 + r'.buf.length := by
    have := congrArg List.length hused
    simp only [List.length_append, List.length_cons] at this
    omega
  have hlines : (linesOf (line :: lines)).length = line.length + 1 + (linesOf lines).length := by
    simp only [linesOf, List.flatMap_cons, List.length_append, List.length_singleton]
  unfold Timely
  rw [hclosed]
  by_cases hc : r.closed = true
  · exact ⟨fun _ => Or.inl hc, fun _ => Or.inl hc⟩
  · have hne : r.fetches ≠ [] := by
      intro h
      simp [Reader.ready, h, hc] at hready
    rw [or_iff_right hc, or_iff_right hc, hlines, List.length_append, List.length_append]
    by_cases hleft : r'.fetches = []
    · -- the line needed the last fetch
      have hall : used = r.fetches := by rw [hfetches, hleft, List.append_nil]
      have hend := hlast (by rwa [hall])
      rw [hall, List.length_append] at hend
      constructor
      · rintro ⟨-, h⟩
        omega
      · rintro ⟨h, -⟩
        exact absurd hleft h
    · have hdrop : r.fetches.dropLast.flatten.length = used.flatten.length + r'.fetches.dropLast.flatten.length := by
        rw [hfetches, List.dropLast_append_of_ne_nil hleft, List.flatten_append, List.length_append]
      constructor
      · rintro ⟨-, h⟩
        exact ⟨hleft, by omega⟩
      · rintro ⟨-, h⟩
        exact ⟨hne, by omega⟩

/-- **The loop.**  The response is read when the lines before it are timely, else the wait times out. -/
theorem readResponse_eq (req : Json) (output : Bytes) {lines : List Bytes} {json : Bytes} {response : Json}
    (hlines : ∀ line ∈ lines, Fits line ∧ Skipped line) (hjson : Fits json)
    (hparse : TaoJson.fromString (cString (json ++ [10])) = some response) {fuel : Nat} {r : Reader Byte}
    (hfuel : lines.length < fuel) (hcontent : r.content = linesOf lines ++ (json ++ [10])) :
    (Timely r lines → ∃ r', readResponse req output fuel r = some ((checkId req response).map fun _ => (response, r'))) ∧
      (¬ Timely r lines → ∃ e, readResponse req output fuel r = some (.error e)) := by
  induction lines generalizing fuel r with
  | nil =>
    obtain ⟨fuel, rfl⟩ : ∃ k, fuel = k + 1 := ⟨fuel - 1, by omega⟩
    constructor
    · intro ht
      have hready : r.ready = true := by
        rcases ht with hc | ⟨hne, -⟩
        · simp [Reader.ready, hc]
        · simp [Reader.ready, hne]
      have hlast : r.content = json ++ 10 :: [] := by
        rw [hcontent]
        simp [linesOf]
      obtain ⟨used, r', hget, -⟩ := Reader.getLine_spec hjson.1 hjson.2 hlast
      refine ⟨r', ?_⟩
      unfold readResponse
      rw [if_pos hready, hget]
      simp only
      rw [hparse]
    · intro ht
      have hready : ¬ r.ready = true := by
        intro hready
        refine ht ?_
        by_cases hc : r.closed = true
        · exact Or.inl hc
        · refine Or.inr ⟨fun h => ?_, by simp [linesOf]⟩
          simp [Reader.ready, h, hc] at hready
      exact ⟨_, by rw [readResponse, if_neg hready]⟩
  | cons line lines ih =>
    obtain ⟨fuel, rfl⟩ : ∃ k, fuel = k + 1 := ⟨fuel - 1, by omega⟩
    obtain ⟨hfits, hskip⟩ := hlines line List.mem_cons_self
    by_cases hready : r.ready = true
    · have hnext : r.content = line ++ 10 :: (linesOf lines ++ (json ++ [10])) := by
        rw [hcontent]
        simp [linesOf]
      obtain ⟨used, r', hget, hclosed, hfetches, hused, hrest, hlast⟩ :=
        Reader.getLine_spec hfits.1 hfits.2 hnext
      have hstep : readResponse req output (fuel + 1) r = readResponse req output fuel r' := by
        rw [readResponse, if_pos hready, hget]
        simp only
        rw [hskip]
      rw [timely_cons hready hclosed hfetches hused hlast, hstep]
      exact ih (fun l hl => hlines l (List.mem_cons_of_mem _ hl)) (by simpa using hfuel) hrest
    · have hstep : readResponse req output (fuel + 1) r =
          some (.error (.herr ("Timed out reading response from plugin. Request: " ++ textOf output))) := by
        rw [readResponse, if_neg hready]
      constructor
      · intro ht
        refine absurd ?_ hready
        rcases ht with hc | ⟨hne, -⟩
        · simp [Reader.ready, hc]
        · simp [Reader.ready, hne]
      · exact fun _ => ⟨_, hstep⟩

end

/-! ## The verdict -/

/-- `msg` is missing or a string. -/
def MsgText (response : Json) : Prop := ∀ m, response.atKey (ascii "msg") = .ok m → ∃ t, m = .string t

theorem verdict_eq {response : Json} {action : Bytes} {res : PluginEventSifterResult}
    (haction : response.atKey (ascii "action") = .ok (.string action)) (hknown : actionResult action = some res) :
    (MsgText response → ∃ okMsg, verdict response = .ok (res, okMsg)) ∧
      (¬ MsgText response → ∃ e, verdict response = .error e) := by
  unfold verdict optionalString
  cases hmsg : response.atKey (ascii "msg") with
  | error e =>
    refine ⟨fun _ => ⟨[], ?_⟩, fun h => absurd (fun m hm => ?_) h⟩
    · rw [haction]
      show (match actionResult action with | some res => _ | none => _) = _
      rw [hknown]
      rfl
    · rw [hmsg] at hm
      cases hm
  | ok m =>
    constructor
    · intro ht
      obtain ⟨t, rfl⟩ := ht m hmsg
      refine ⟨t, ?_⟩
      rw [haction]
      show (match actionResult action with | some res => _ | none => _) = _
      rw [hknown]
      rfl
    · intro ht
      cases m with
      | string t =>
        refine absurd (fun m hm => ?_) ht
        rw [hmsg] at hm
        cases hm
        exact ⟨t, rfl⟩
      | _ => exact ⟨_, rfl⟩

section
variable [TaoJson] (os : Os) {running : Option RunningPlugin} {pluginCmd : Bytes} {evJson : Json}
  {sourceType : EventSourceType} {sourceInfo : Bytes} {req : Json} {output : Bytes} {p : RunningPlugin}

/-- The request carries the event. -/
theorem send_event (h : send os running pluginCmd evJson sourceType sourceInfo = .ok (req, output, p)) :
    req.atKey (ascii "event") = .ok evJson := by
  unfold send at h
  obtain ⟨q, -, h⟩ := bind_eq_ok.mp h
  obtain ⟨req', hreq, h⟩ := bind_eq_ok.mp h
  unfold request at hreq
  obtain ⟨info, -, hreq⟩ := bind_eq_ok.mp hreq
  cases hreq
  dsimp only at h
  split at h
  · cases h
  · cases h
    rfl

/-- **The verdict and the fetches.**  A plugin that has the request answers with lines that do not
parse and then one that does, for the event and with an action; however the output is cut into
fetches, `acceptEvent` returns, and it returns that action exactly when the action is to reject, or
the last fetch brings no end of a skipped line (or finds the pipe closed) and `msg` is a text. -/
theorem acceptEvent_verdict (hcmd : pluginCmd ≠ [])
    (hsend : send os running pluginCmd evJson sourceType sourceInfo = .ok (req, output, p)) (hbuf : p.r.buf = [])
    {lines : List Bytes} {json : Bytes} {response : Json} (hlines : ∀ line ∈ lines, Fits line ∧ Skipped line)
    (hjson : Fits json) (hparse : TaoJson.fromString (cString (json ++ [10])) = some response)
    (hcontent : p.r.fetches.flatten = linesOf lines ++ (json ++ [10])) {id action : Bytes}
    (hid : response.atKey (ascii "id") = .ok (.string id)) (hevent : evJson.atKey (ascii "id") = .ok (.string id))
    (haction : response.atKey (ascii "action") = .ok (.string action)) {res : PluginEventSifterResult}
    (hknown : actionResult action = some res) (okMsg : Bytes) :
    ∃ ret, acceptEvent os running pluginCmd evJson sourceType sourceInfo okMsg = some ret ∧
      (ret.1 = res ↔ res = .reject ∨
        (p.r.closed = true ∨ (linesOf lines).length ≤ p.r.fetches.dropLast.flatten.length) ∧ MsgText response) := by
  have hcheck : checkId req response = .ok () := by
    unfold checkId
    rw [hid, send_event os hsend]
    refine bind_eq_ok.mpr ⟨_, rfl, bind_eq_ok.mpr ⟨id, rfl, bind_eq_ok.mpr ⟨_, rfl, ?_⟩⟩⟩
    refine bind_eq_ok.mpr ⟨_, hevent, bind_eq_ok.mpr ⟨id, rfl, throwIf_eq_ok.mpr (by simp)⟩⟩
  have hwhole : p.r.content = linesOf lines ++ (json ++ [10]) := by
    unfold Reader.content
    rw [hbuf, hcontent]
    rfl
  have hfuel : lines.length < p.r.content.length + 1 := by
    have hle := length_le_linesOf lines
    rw [hwhole, List.length_append]
    omega
  have htimely : Timely p.r lines ↔
      p.r.closed = true ∨ (linesOf lines).length ≤ p.r.fetches.dropLast.flatten.length := by
    unfold Timely
    rw [hbuf, List.nil_append]
    have hne : p.r.fetches ≠ [] := by
      intro h
      rw [h] at hcontent
      have := congrArg List.length hcontent
      simp at this
    simp only [hne, ne_eq, not_false_iff, true_and]
  rw [← htimely]
  obtain ⟨hread, htimeout⟩ := readResponse_eq req output hlines hjson hparse hfuel hwhole
  obtain ⟨hgood, hbad⟩ := verdict_eq haction hknown
  unfold acceptEvent
  rw [if_neg hcmd]
  unfold askPlugin
  rw [hsend]
  simp only
  by_cases ht : Timely p.r lines
  · obtain ⟨r', hr⟩ := hread ht
    rw [hr, hcheck]
    by_cases hm : MsgText response
    · obtain ⟨text, hv⟩ := hgood hm
      have hfinish : finish p (response, r') = .ok (res, text, { p with r := r' }) :=
        bind_eq_ok.mpr ⟨_, hv, rfl⟩
      refine ⟨(res, text, some { p with r := r' }), ?_, by simp [ht, hm]⟩
      show some (match finish p (response, r') with | .ok (res, okMsg, p) => _ | .error _ => _) = _
      rw [hfinish]
    · obtain ⟨e, hv⟩ := hbad hm
      have hfinish : finish p (response, r') = .error e := bind_eq_error.mpr (Or.inl hv)
      refine ⟨(.reject, ascii "error: internal error", none), ?_, by simp [hm, eq_comm]⟩
      show some (match finish p (response, r') with | .ok (res, okMsg, p) => _ | .error _ => _) = _
      rw [hfinish]
  · obtain ⟨e, he⟩ := htimeout ht
    rw [he]
    exact ⟨(.reject, ascii "error: internal error", none), rfl, by simp [ht, eq_comm]⟩

end

/-! ## Two ways to cut one output -/

/-- An accepting line, as JSON and as text, for the event with this id. -/
def acceptLine : Bytes := ascii "\x7b\"id\":\"a\",\"action\":\"accept\"\x7d"

def acceptJson : Json :=
  .object [(ascii "action", .string (ascii "accept")), (ascii "id", .string (ascii "a"))]

def sampleEventJson : Json := .object [(ascii "id", .string (ascii "a"))]

@[reducible] def acceptTexts : TaoJson := TaoJson.ofTexts
  [("\x7b\"id\":\"a\",\"action\":\"accept\"\x7d\n", acceptJson)]

/-- A plugin whose output arrives in these pieces. -/
def sampleOs (fetches : List Bytes) : Os where
  stat _ := some (0, 0)
  setupPlugin cmd := .ok ⟨cmd, (0, 0), ⟨[], [], false⟩⟩
  time := 0
  inetNtop b := b
  fwrite p _ := some { p with r := ⟨[], fetches, false⟩ }

theorem send_sampleOs [TaoJson] (fetches : List Bytes) :
    send (sampleOs fetches) none (ascii "plugin") sampleEventJson .stream [] = .ok
      (.object [(ascii "event", sampleEventJson), (ascii "receivedAt", .signed 0), (ascii "sourceInfo", .string []),
        (ascii "sourceType", .string (ascii "Stream")), (ascii "type", .string (ascii "new"))],
        TaoJson.toString (.object [(ascii "event", sampleEventJson), (ascii "receivedAt", .signed 0),
          (ascii "sourceInfo", .string []), (ascii "sourceType", .string (ascii "Stream")),
          (ascii "type", .string (ascii "new"))]) ++ [10],
        ⟨ascii "plugin", (0, 0), ⟨[], fetches, false⟩⟩) := rfl

/-- A line of other text first, fetched on its own: the event is accepted. -/
theorem acceptEvent_verdict_apart : let _ : TaoJson := acceptTexts
    ∃ ret, acceptEvent (sampleOs [ascii "hello\n", acceptLine ++ [10]]) none (ascii "plugin") sampleEventJson
      .stream [] [] = some ret ∧ ret.1 = .accept := by
  intro _
  have hlines : ∀ line ∈ [ascii "hello"], Fits line ∧ Skipped line := by
    intro line hl
    rw [List.mem_singleton] at hl
    subst hl
    exact ⟨by unfold Fits; decide, by unfold Skipped; rfl⟩
  obtain ⟨ret, hret, hiff⟩ := acceptEvent_verdict (sampleOs [ascii "hello\n", acceptLine ++ [10]])
    (show ascii "plugin" ≠ [] by decide) (send_sampleOs _) rfl hlines
    (show Fits acceptLine by unfold Fits; decide)
    (show TaoJson.fromString (cString (acceptLine ++ [10])) = some acceptJson by rfl) (by decide)
    (show acceptJson.atKey (ascii "id") = .ok (.string (ascii "a")) by rfl) rfl
    (show acceptJson.atKey (ascii "action") = .ok (.string (ascii "accept")) by rfl)
    (show actionResult (ascii "accept") = some .accept by rfl) []
  refine ⟨ret, hret, hiff.mpr (Or.inr ⟨Or.inr (by decide), fun m hm => ?_⟩)⟩
  cases hm

/-- Both lines in one fetch: rejected, though the only line that parses accepts. -/
theorem acceptEvent_verdict_together : let _ : TaoJson := acceptTexts
    (Fits (ascii "hello") ∧ Skipped (ascii "hello") ∧ Fits acceptLine ∧
      TaoJson.fromString (cString (acceptLine ++ [10])) = some acceptJson ∧
      acceptJson.atKey (ascii "action") = .ok (.string (ascii "accept"))) ∧
    ∃ ret, acceptEvent (sampleOs [ascii "hello\n" ++ acceptLine ++ [10]]) none (ascii "plugin") sampleEventJson
      .stream [] [] = some ret ∧ ret.1 = .reject := by
  intro _
  refine ⟨⟨by unfold Fits; decide, by unfold Skipped; rfl, by unfold Fits; decide, rfl, rfl⟩, ?_⟩
  exact ⟨(.reject, ascii "error: internal error", none), rfl, rfl⟩

end PluginEventSifter

end Strfry
