import Strfry.Ingester
import Strfry.PrometheusMetrics
import Strfry.RelayNegentropy
import Strfry.RelayReq
import Strfry.RelayWriter

/-!
# The ingester

`runIngester` (`RelayIngester.cpp`) takes the messages of the clients apart and passes them on to
the other threads; events are collected for the writer and go out at the end of a turn.  What
fails is answered with an OK, a CLOSED or a NOTICE.

Every message with a command the relay knows is counted under that command.  The commands are
compared as a whole, but for the negentropy ones: there the first four characters decide, and the
message is counted before the rest of the command is looked at.  So a client chooses a label with
`["NEG-...",...]`, and the metrics can be read back exactly when none of these has a quote or an
end of line in it (`metrics_faithful`).

Counters are shared with the other threads; the messages these send are steps of their own.
-/

namespace Strfry

structure IngesterCfg extends Cfg where
  relayNegentropyEnabled : Bool := true

inductive MsgIngester where
  | clientMessage (connId : Nat) (payload : Bytes)
  | closeConn (connId : Nat)

/-- The labels of the messages to clients. -/
inductive RelayVerb where
  | event
  | eose
  | ok
  | notice
  | closed
  | negErr
  | negMsg

def RelayVerb.label : RelayVerb → Bytes
  | .event => ascii "EVENT"
  | .eose => ascii "EOSE"
  | .ok => ascii "OK"
  | .notice => ascii "NOTICE"
  | .closed => ascii "CLOSED"
  | .negErr => ascii "NEG-ERR"
  | .negMsg => ascii "NEG-MSG"

/-- What the ingester sends; `what` is the exception whose text goes behind `text`. -/
inductive IngesterSend where
  | okResponse (connId : Nat) (eventIdHex : Bytes) (written : Bool) (text : String) (what : Option Err)
  | closed (connId : Nat) (subId : Bytes) (text : String) (what : Err)
  | notice (connId : Nat) (text : String) (what : Err)
  | writer (msgs : List MsgWriter)
  | reqWorker (msg : MsgReqWorker)
  | negentropy (msg : MsgNegentropy)

structure IngesterState where
  metrics : Metrics := {}
  writerMsgs : List MsgWriter := []
  sent : List IngesterSend := []

namespace IngesterState

/-- `PROM_INC_CLIENT_MSG`. -/
def incClientMsg (s : IngesterState) (verb : Bytes) : IngesterState :=
  { s with metrics.nostrClientMessages := s.metrics.nostrClientMessages.inc verb }

/-- `PROM_INC_RELAY_MSG`. -/
def incRelayMsg (s : IngesterState) (verb : RelayVerb) : IngesterState :=
  { s with metrics.nostrRelayMessages := s.metrics.nostrRelayMessages.inc verb.label }

/-- `PROM_INC_EVENT_KIND`. -/
def incEventKind (s : IngesterState) (kind : Nat) : IngesterState :=
  { s with metrics.nostrEventsByKind := s.metrics.nostrEventsByKind.inc (ascii (toString kind)) }

def dispatch (s : IngesterState) (msg : IngesterSend) : IngesterState := { s with sent := s.sent ++ [msg] }

def sendOKResponse (s : IngesterState) (connId : Nat) (eventIdHex : Bytes) (written : Bool) (text : String)
    (what : Option Err) : IngesterState :=
  (s.incRelayMsg .ok).dispatch (.okResponse connId eventIdHex written text what)

def sendClosedError (s : IngesterState) (connId : Nat) (subId : Bytes) (text : String) (what : Err) :
    IngesterState :=
  (s.incRelayMsg .closed).dispatch (.closed connId subId text what)

def sendNoticeError (s : IngesterState) (connId : Nat) (text : String) (what : Err) : IngesterState :=
  (s.incRelayMsg .notice).dispatch (.notice connId text what)

end IngesterState

/-- The array of a message, its command and its second element. -/
def parseCommand [TaoJson] (payload : Bytes) : Except Err (Bytes × Json × List Json) := do
  let payload ← (TaoJson.fromString payload).elim (.error .badJson) .ok
  let arr ← jsonGetArray payload "message is not an array"
  match arr with
  | first :: second :: _ => do
    let cmd ← jsonGetString first "first element not a command like REQ"
    return (cmd, second, arr)
  | _ => .error (.herr "too few array elements")

/-- The id in the OK response to an invalid event; `at("id")` throws when there is none. -/
def invalidId (origJson : Json) : Except Err Bytes :=
  match origJson with
  | .object _ => do
    match ← origJson.atKey (ascii "id") with
    | .string s => return s
    | _ => return ascii "?"
  | _ => .ok (ascii "?")

/-- The subscription id of a REQ, as far as it was read when something else failed. -/
def outSubIdStr (arr : List Json) : Bytes :=
  match arr with
  | _ :: .string s :: _ :: _ => s
  | _ => []

/-- `ingesterProcessClose`: the message to the query thread. -/
def ingesterProcessClose (connId : Nat) (arr : List Json) : Except Err MsgReqWorker :=
  match arr with
  | [_, second] => do
    let subIdStr ← jsonGetString second "CLOSE subscription id was not a string"
    return .removeSub connId (← SubId.ofBytes subIdStr)
  | _ => .error (.herr "arr too small/big")

section
variable [Golpe] [TaoJson] [Crypto] (cfg : IngesterCfg) (txn : Db) (tracker : EphemeralSubTracker) (now : Nat)

/-- The kind `ingesterProcessEvent` counts: that of an event which was verified. -/
def countedKind (origJson : Json) : Option Nat :=
  match noSubscribers tracker origJson, parseAndVerifyEvent cfg.toCfg now true true origJson with
  | .ok false, .ok p =>
    match PackedEventView.ofBytes p.1 with
    | .ok packed => some packed.kind
    | .error _ => none
  | _, _ => none

def countKind (origJson : Json) (s : IngesterState) : IngesterState :=
  match countedKind cfg tracker now origJson with
  | some kind => s.incEventKind kind
  | none => s

/-- An EVENT: the state and what is thrown. -/
def runEvent (connId : Nat) (origJson : Json) (s : IngesterState) : IngesterState × Option Err :=
  let s := countKind cfg tracker now origJson s
  match ingesterProcessEvent cfg.toCfg txn tracker now origJson with
  | .ok (.okResponse eventId written message) => (s.sendOKResponse connId eventId written message none, none)
  | .ok (.addEvent packedStr jsonStr) =>
    ({ s with writerMsgs := s.writerMsgs ++ [.addEvent connId packedStr jsonStr] }, none)
  | .error e =>
    match invalidId origJson with
    | .ok eventId => (s.sendOKResponse connId eventId false "invalid: " (some e), none)
    | .error e' => (s, some e')

/-- A message that was taken apart. -/
def runCommand (connId : Nat) (cmd : Bytes) (second : Json) (arr : List Json) (s : IngesterState) :
    IngesterState × Option Err :=
  if cmd = ascii "EVENT" then runEvent cfg txn tracker now connId second (s.incClientMsg cmd)
  else if cmd = ascii "REQ" ∨ cmd = ascii "COUNT" then
    let s := s.incClientMsg cmd
    match ingesterProcessReq cfg.toCfg connId arr (cmd == ascii "COUNT") with
    | .ok msg => (s.dispatch (.reqWorker msg), none)
    | .error e =>
      if outSubIdStr arr ≠ [] then (s.sendClosedError connId (outSubIdStr arr) "bad req: " e, none)
      else (s.sendNoticeError connId "bad req: " e, none)
  else if cmd = ascii "CLOSE" then
    let s := s.incClientMsg cmd
    match ingesterProcessClose connId arr with
    | .ok msg => (s.dispatch (.reqWorker msg), none)
    | .error e => (s.sendNoticeError connId "bad close: " e, none)
  else if startsWith cmd (ascii "NEG-") then
    let s := s.incClientMsg cmd
    if cfg.relayNegentropyEnabled = false then (s, some (.herr "negentropy disabled"))
    else match ingesterProcessNegentropy cfg.toCfg connId arr with
      | .ok msg => (s.dispatch (.negentropy msg), none)
      | .error e => (s.sendNoticeError connId "negentropy error: " e, none)
  else (s, some (.herr "unknown cmd"))

/-- The message of a client; what is thrown is answered with a NOTICE. -/
def runPayload (connId : Nat) (payload : Bytes) (s : IngesterState) : IngesterState :=
  if startsWith payload (ascii "[") then
    match parseCommand payload with
    | .error e => s.sendNoticeError connId "bad msg: " e
    | .ok (cmd, second, arr) =>
      match runCommand cfg txn tracker now connId cmd second arr s with
      | (s, none) => s
      | (s, some e) => s.sendNoticeError connId "bad msg: " e
  else if payload = ascii "\n" then s
  else s.sendNoticeError connId "bad msg: " (.herr "unparseable message")

/-- One message of `runIngester`. -/
def ingest (s : IngesterState) : MsgIngester → IngesterState
  | .clientMessage connId payload => runPayload cfg txn tracker now connId payload s
  | .closeConn connId =>
    ((s.dispatch (.writer [.closeConn connId])).dispatch (.reqWorker (.closeConn connId))).dispatch
      (.negentropy (.closeConn connId))

end

/-- A step of the ingester, or a message another thread sends to a client. -/
inductive IngesterStep where
  | handle (txn : Db) (tracker : EphemeralSubTracker) (now : Nat) (msg : MsgIngester)
  | endOfTurn
  | otherThread (verb : RelayVerb)

/-- `dispatchMulti` of what was collected for the writer. -/
def IngesterState.flush (s : IngesterState) : IngesterState :=
  if s.writerMsgs = [] then s else { s.dispatch (.writer s.writerMsgs) with writerMsgs := [] }

def IngesterStep.run [Golpe] [TaoJson] [Crypto] (cfg : IngesterCfg) (s : IngesterState) :
    IngesterStep → IngesterState
  | .handle txn tracker now msg => ingest cfg txn tracker now s msg
  | .endOfTurn => s.flush
  | .otherThread verb => s.incRelayMsg verb

/-! ## The labels -/

/-- The labels of the relay are texts of its own. -/
theorem RelayVerb.clean (verb : RelayVerb) : Exposition.CleanLabel verb.label := by
  cases verb
  all_goals decide

/-- So are the kinds. -/
theorem clean_toString (n : Nat) : Exposition.CleanLabel (ascii (toString n)) := by
  rw [ascii_toString]
  constructor
  · intro h
    exact absurd (Exposition.digit_of_mem_number h).1 (by decide)
  · intro h
    exact absurd (Exposition.digit_of_mem_number h).1 (by decide)

/-- Nothing was counted but relay messages and kinds. -/
structure IngesterState.Quiet (s s' : IngesterState) : Prop where
  client : s'.metrics.nostrClientMessages = s.metrics.nostrClientMessages
  relay : s.metrics.nostrRelayMessages.Clean → s'.metrics.nostrRelayMessages.Clean
  events : s.metrics.nostrEventsByKind.Clean → s'.metrics.nostrEventsByKind.Clean

namespace IngesterState.Quiet

variable {s s' s'' : IngesterState}

theorem refl (s : IngesterState) : Quiet s s := ⟨rfl, id, id⟩

theorem trans (h : Quiet s s') (h' : Quiet s' s'') : Quiet s s'' :=
  ⟨h'.client.trans h.client, h'.relay ∘ h.relay, h'.events ∘ h.events⟩

/-- A step that leaves the metrics. -/
theorem of_metrics (h : s'.metrics = s.metrics) : Quiet s s' := by
  constructor
  · rw [h]
  · rw [h]
    exact id
  · rw [h]
    exact id

theorem incRelayMsg (s : IngesterState) (verb : RelayVerb) : Quiet s (s.incRelayMsg verb) :=
  ⟨rfl, fun h => LabeledCounter.clean_inc.mpr ⟨verb.clean, h⟩, id⟩

theorem incEventKind (s : IngesterState) (kind : Nat) : Quiet s (s.incEventKind kind) :=
  ⟨rfl, id, fun h => LabeledCounter.clean_inc.mpr ⟨clean_toString kind, h⟩⟩

theorem dispatch (s : IngesterState) (msg : IngesterSend) : Quiet s (s.dispatch msg) := of_metrics rfl

theorem flush (s : IngesterState) : Quiet s s.flush := by
  unfold IngesterState.flush
  split
  · exact .refl s
  · exact .of_metrics rfl

theorem sendOKResponse (s : IngesterState) (connId : Nat) (eventIdHex : Bytes) (written : Bool) (text : String)
    (what : Option Err) : Quiet s (s.sendOKResponse connId eventIdHex written text what) :=
  (incRelayMsg s .ok).trans (dispatch _ _)

theorem sendClosedError (s : IngesterState) (connId : Nat) (subId : Bytes) (text : String) (what : Err) :
    Quiet s (s.sendClosedError connId subId text what) :=
  (incRelayMsg s .closed).trans (dispatch _ _)

theorem sendNoticeError (s : IngesterState) (connId : Nat) (text : String) (what : Err) :
    Quiet s (s.sendNoticeError connId text what) :=
  (incRelayMsg s .notice).trans (dispatch _ _)

end IngesterState.Quiet

/-- The commands that are counted. -/
def Counted (cmd : Bytes) : Prop :=
  cmd = ascii "EVENT" ∨ (cmd = ascii "REQ" ∨ cmd = ascii "COUNT") ∨ cmd = ascii "CLOSE" ∨
    startsWith cmd (ascii "NEG-") = true

/-- All of these but the negentropy ones are texts of the relay. -/
theorem clean_of_counted {cmd : Bytes} (h : Counted cmd) :
    Exposition.CleanLabel cmd ↔ (startsWith cmd (ascii "NEG-") = true → Exposition.CleanLabel cmd) := by
  constructor
  · exact fun hclean _ => hclean
  · intro hneg
    rcases h with rfl | (rfl | rfl) | rfl | h
    · decide
    · decide
    · decide
    · decide
    · exact hneg h

section
variable [Golpe] [TaoJson] [Crypto] (cfg : IngesterCfg) (txn : Db) (tracker : EphemeralSubTracker) (now : Nat)

theorem countKind_quiet (origJson : Json) (s : IngesterState) : s.Quiet (countKind cfg tracker now origJson s) := by
  unfold countKind
  split
  · exact .incEventKind s _
  · exact .refl s

theorem runEvent_quiet (connId : Nat) (origJson : Json) (s : IngesterState) :
    s.Quiet (runEvent cfg txn tracker now connId origJson s).1 := by
  refine (countKind_quiet cfg tracker now origJson s).trans ?_
  unfold runEvent
  dsimp only
  split
  · exact .sendOKResponse _ _ _ _ _ _
  · exact .of_metrics rfl
  · split
    · exact .sendOKResponse _ _ _ _ _ _
    · exact .refl _

/-- A command is counted once, under its own name, or not at all. -/
theorem runCommand_quiet (connId : Nat) (cmd : Bytes) (second : Json) (arr : List Json) (s : IngesterState) :
    (Counted cmd → (s.incClientMsg cmd).Quiet (runCommand cfg txn tracker now connId cmd second arr s).1) ∧
    (¬ Counted cmd → (runCommand cfg txn tracker now connId cmd second arr s).1 = s) := by
  unfold runCommand Counted
  by_cases hevent : cmd = ascii "EVENT"
  · rw [if_pos hevent]
    exact ⟨fun _ => runEvent_quiet cfg txn tracker now connId second _, fun h => absurd (Or.inl hevent) h⟩
  rw [if_neg hevent]
  by_cases hreq : cmd = ascii "REQ" ∨ cmd = ascii "COUNT"
  · rw [if_pos hreq]
    refine ⟨fun _ => ?_, fun h => absurd (Or.inr (Or.inl hreq)) h⟩
    dsimp only
    split
    · exact .dispatch _ _
    · split
      · exact .sendClosedError _ _ _ _ _
      · exact .sendNoticeError _ _ _ _
  rw [if_neg hreq]
  by_cases hclose : cmd = ascii "CLOSE"
  · rw [if_pos hclose]
    refine ⟨fun _ => ?_, fun h => absurd (Or.inr (Or.inr (Or.inl hclose))) h⟩
    dsimp only
    split
    · exact .dispatch _ _
    · exact .sendNoticeError _ _ _ _
  rw [if_neg hclose]
  by_cases hneg : startsWith cmd (ascii "NEG-") = true
  · rw [if_pos hneg]
    refine ⟨fun _ => ?_, fun h => absurd (Or.inr (Or.inr (Or.inr hneg))) h⟩
    dsimp only
    split
    · exact .refl _
    · split
      · exact .dispatch _ _
      · exact .sendNoticeError _ _ _ _
  · rw [if_neg hneg]
    refine ⟨fun h => ?_, fun _ => rfl⟩
    rcases h with h | h | h | h
    · exact absurd h hevent
    · exact absurd h hreq
    · exact absurd h hclose
    · exact absurd h hneg

end

/-- The negentropy command of a message, when it is one, can be read back as a label. -/
def CleanNegCommand [TaoJson] (payload : Bytes) : Prop :=
  ∀ cmd second arr, startsWith payload (ascii "[") = true → parseCommand payload = .ok (cmd, second, arr) →
    startsWith cmd (ascii "NEG-") = true → Exposition.CleanLabel cmd

def MsgIngester.CleanNeg [TaoJson] : MsgIngester → Prop
  | .clientMessage _ payload => CleanNegCommand payload
  | .closeConn _ => True

def IngesterStep.CleanNeg [TaoJson] : IngesterStep → Prop
  | .handle _ _ _ msg => msg.CleanNeg
  | .endOfTurn => True
  | .otherThread _ => True

/-- What a step does to the labels: one of the clients is new at most, and that is clean when the
step is. -/
structure IngesterState.Labels (s s' : IngesterState) (clean : Prop) : Prop where
  client : s'.metrics.nostrClientMessages.Clean ↔ clean ∧ s.metrics.nostrClientMessages.Clean
  relay : s.metrics.nostrRelayMessages.Clean → s'.metrics.nostrRelayMessages.Clean
  events : s.metrics.nostrEventsByKind.Clean → s'.metrics.nostrEventsByKind.Clean

theorem IngesterState.Quiet.labels {s s' : IngesterState} {clean : Prop} (h : s.Quiet s') (hclean : clean) :
    s.Labels s' clean := by
  refine ⟨?_, h.relay, h.events⟩
  rw [h.client]
  exact (and_iff_right hclean).symm

/-- An event that goes to the writer was counted, under its kind. -/
theorem countedKind_addEvent [Golpe] [TaoJson] [Crypto] {cfg : IngesterCfg} {txn : Db} {tracker : EphemeralSubTracker}
    {now : Nat} {origJson : Json} {packedStr jsonStr : Bytes}
    (h : ingesterProcessEvent cfg.toCfg txn tracker now origJson = .ok (.addEvent packedStr jsonStr)) :
    ∃ packed, PackedEventView.ofBytes packedStr = .ok packed ∧
      countedKind cfg tracker now origJson = some packed.kind := by
  unfold ingesterProcessEvent at h
  obtain ⟨dropped, hdropped, h⟩ := bind_eq_ok.mp h
  split at h
  · cases h
  · rename_i hkept
    obtain rfl : dropped = false := Bool.not_eq_true dropped ▸ hkept
    unfold ingesterVerifyEvent at h
    obtain ⟨p, hp, h⟩ := bind_eq_ok.mp h
    obtain ⟨packed, hpacked, h⟩ := bind_eq_ok.mp h
    split at h
    · cases h
    · split at h
      · cases h
      · cases h
        refine ⟨packed, hpacked, ?_⟩
        unfold countedKind
        rw [hdropped, hp]
        simp only [hpacked]

/-- What is thrown by a command is answered with a NOTICE. -/
theorem notice_quiet (connId : Nat) (r : IngesterState × Option Err) : r.1.Quiet (match r with
    | (s, none) => s
    | (s, some e) => s.sendNoticeError connId "bad msg: " e) := by
  obtain ⟨s, thrown⟩ := r
  cases thrown with
  | none => exact .refl s
  | some e => exact .sendNoticeError s connId "bad msg: " e

section
variable [Golpe] [TaoJson] [Crypto] (cfg : IngesterCfg)

theorem runPayload_labels (txn : Db) (tracker : EphemeralSubTracker) (now connId : Nat) (payload : Bytes)
    (s : IngesterState) : s.Labels (runPayload cfg txn tracker now connId payload s) (CleanNegCommand payload) := by
  unfold runPayload CleanNegCommand
  by_cases harr : startsWith payload (ascii "[") = true
  · rw [if_pos harr]
    cases hparse : parseCommand payload with
    | error e =>
      refine (IngesterState.Quiet.sendNoticeError s connId "bad msg: " e).labels ?_
      rintro _ _ _ - ⟨⟩
    | ok p =>
      obtain ⟨cmd, second, arr⟩ := p
      obtain ⟨hcounted, hunknown⟩ := runCommand_quiet cfg txn tracker now connId cmd second arr s
      have hnotice := notice_quiet connId (runCommand cfg txn tracker now connId cmd second arr s)
      by_cases hcmd : Counted cmd
      · have hquiet := (hcounted hcmd).trans hnotice
        refine ⟨?_, hquiet.relay, hquiet.events⟩
        rw [hquiet.client]
        show (s.metrics.nostrClientMessages.inc cmd).Clean ↔ _
        rw [LabeledCounter.clean_inc, clean_of_counted hcmd]
        apply and_congr_left
        intro _
        constructor
        · rintro h _ _ _ - ⟨⟩
          exact h
        · exact fun h => h cmd second arr harr rfl
      · rw [hunknown hcmd] at hnotice
        refine hnotice.labels ?_
        rintro _ _ _ - ⟨⟩ hneg
        exact absurd (Or.inr (Or.inr (Or.inr hneg))) hcmd
  · rw [if_neg harr]
    have hclean : ∀ (cmd : Bytes) (second : Json) (arr : List Json), startsWith payload (ascii "[") = true →
        parseCommand payload = .ok (cmd, second, arr) → startsWith cmd (ascii "NEG-") = true →
        Exposition.CleanLabel cmd := fun _ _ _ h => absurd h harr
    split
    · exact (IngesterState.Quiet.refl s).labels hclean
    · exact (IngesterState.Quiet.sendNoticeError s connId "bad msg: " _).labels hclean

theorem step_labels (s : IngesterState) (step : IngesterStep) : s.Labels (step.run cfg s) step.CleanNeg := by
  cases step with
  | handle txn tracker now msg =>
    cases msg with
    | clientMessage connId payload => exact runPayload_labels cfg txn tracker now connId payload s
    | closeConn connId =>
      have hquiet : s.Quiet (ingest cfg txn tracker now s (.closeConn connId)) := .of_metrics rfl
      exact hquiet.labels trivial
  | endOfTurn => exact (IngesterState.Quiet.flush s).labels trivial
  | otherThread verb => exact (IngesterState.Quiet.incRelayMsg s verb).labels trivial

/-- A run of steps. -/
theorem run_labels (run : List IngesterStep) (s : IngesterState) :
    s.Labels (run.foldl (IngesterStep.run cfg) s) (∀ step ∈ run, step.CleanNeg) := by
  induction run generalizing s with
  | nil => exact (IngesterState.Quiet.refl s).labels (List.forall_mem_nil _)
  | cons step run ih =>
    have hstep := step_labels cfg s step
    have hrun := ih (step.run cfg s)
    rw [List.foldl_cons]
    refine ⟨?_, hrun.relay ∘ hstep.relay, hrun.events ∘ hstep.events⟩
    rw [hrun.client, hstep.client, List.forall_mem_cons]
    tauto

/-- **What a client can write into the metrics.**  After any messages, the text is read back as the
counters exactly when no negentropy command among the messages has a quote or an end of line. -/
theorem metrics_faithful (run : List IngesterStep) :
    (run.foldl (IngesterStep.run cfg) {}).metrics.Faithful ↔ ∀ step ∈ run, step.CleanNeg := by
  have hlabels := run_labels cfg run {}
  have hempty : ({} : LabeledCounter).Clean := List.forall_mem_nil _
  rw [Metrics.faithful_iff, hlabels.client]
  constructor
  · rintro ⟨⟨h, -⟩, -⟩
    exact h
  · intro h
    exact ⟨⟨h, hempty⟩, hlabels.relay hempty, hlabels.events hempty⟩

end

/-- The label in this message ends its own line and starts another one, for EVENT. -/
theorem metrics_forged :
    let cmd := ascii "NEG-\"\x7d 1\nnostr_client_messages_total\x7bverb=\"EVENT"
    let text := "[\"NEG-\\\"\x7d 1\\nnostr_client_messages_total\x7bverb=\\\"EVENT\",\"x\"]"
    let _ : Golpe := Golpe.plain
    let _ : TaoJson := TaoJson.ofTexts [(text, .array [.string cmd, .string (ascii "x")])]
    let _ : Crypto := ⟨fun _ => [], fun _ => false, fun _ _ _ => false⟩
    let run : List IngesterStep := [.handle {} {} 0 (.clientMessage 1 (ascii text))]
    let metrics := (run.foldl (IngesterStep.run {}) {}).metrics
    ¬ metrics.Faithful ∧ metrics.nostrClientMessages.getAll = [(cmd, 1)] ∧
      (Exposition.read metrics.render).map (samplesOf "nostr_client_messages_total") =
        some [(ascii "NEG-", 1), (ascii "EVENT", 1)] := by
  intro cmd text _ _ _ run metrics
  have hread : (Exposition.read metrics.render).map (samplesOf "nostr_client_messages_total") =
      some [(ascii "NEG-", 1), (ascii "EVENT", 1)] := by decide +kernel
  have hcounters : metrics.nostrClientMessages.getAll = [(cmd, 1)] := by decide +kernel
  refine ⟨fun h => ?_, hcounters, hread⟩
  rw [h.read, Option.map_some, h.client, hcounters] at hread
  exact absurd hread (by decide)

end Strfry
