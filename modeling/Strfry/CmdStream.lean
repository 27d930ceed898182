import Strfry.CmdSync
import Strfry.Compression
import Strfry.LevIds
import Strfry.Lib.Cursor
import Strfry.PluginEventSifter
import Strfry.WSConnection

/-!
# Streaming from and to another relay

`cmd_stream` (`cmd_stream.cpp`) over its `WSConnection`: events that the peer sends go to the write
policy plugin and the writer, and whenever the database has changed the events stored since the last
look go to the peer, except those that came from it.

A run interleaves what the connection does with the transactions of every process that writes to the
database.  The log has what was sent, what was written and which events were visited.  Two theorems:
`visited_once`, every new event is visited once, in the order of the levIds, and none is left out;
and `echo_iff`, which events are taken for an echo.
-/

namespace Strfry

namespace CmdStream

structure Params where
  url : Bytes
  dir : Bytes

def Params.up (p : Params) : Bool := p.dir = ascii "up" ∨ p.dir = ascii "both"

def Params.down (p : Params) : Bool := p.dir = ascii "down" ∨ p.dir = ascii "both"

/-- The test of `--dir`. -/
def Params.check (p : Params) : Except Err Unit :=
  throwIf (p.dir ≠ ascii "up" ∧ p.dir ≠ ascii "down" ∧ p.dir ≠ ascii "both")
    (.herr ("invalid direction: " ++ PluginEventSifter.textOf p.dir ++ ". Should be one of up/down/both"))

/-- What becomes of an event of the database. -/
inductive Outcome where
  /-- it was in `downloadedIds` -/
  | echo
  | sent (msg : Bytes)
  /-- the websocket is disconnected -/
  | unsent (msg : Bytes)
  /-- its JSON cannot be read -/
  | failed
deriving DecidableEq

inductive Entry where
  | subscribed (msg : Bytes)
  /-- to the writer -/
  | write (id : Bytes) (evJson : Json)
  | visited (levId : Nat) (id : Bytes) (outcome : Outcome)

structure State where
  hub : WSHub := .start true
  writePolicyPlugin : Option PluginEventSifter.RunningPlugin := none
  downloadedIds : List Bytes := []
  currEventId : Nat
  log : List Entry := []

namespace State

def note (s : State) (e : Entry) : State := { s with log := s.log ++ [e] }

def connected (s : State) : Bool := s.hub.conn.currWs.isSome

end State

/-- The request for what comes in from now on. -/
def reqJson : Json :=
  .array [.string (ascii "REQ"), .string (ascii "sub"), .object [(ascii "limit", .signed 0)]]

def onConnect [TaoJson] (p : Params) (s : State) : State :=
  if p.down ∧ s.connected then s.note (.subscribed (TaoJson.toString reqJson)) else s

/-- The id an accepted event is remembered by. -/
def downloadedId [Golpe] (evJson : Json) : Except Err Bytes := do
  let id ← fromHex (← (← evJson.atKey (ascii "id")).getString)
  let _ ← throwIf (id.length ≠ 32) (.herr "invalid length for Bytes32")
  return id

section
variable [Golpe] [TaoJson] (p : Params) (os : PluginEventSifter.Os) (pluginCmd : Bytes)

/-- `EVENT`; `none` when the plugin does not answer. -/
def onEvent (s : State) (evJson : Json) : Option State :=
  (PluginEventSifter.acceptEvent os s.writePolicyPlugin pluginCmd evJson .stream p.url []).map
    fun (res, _, plugin) =>
      let s := { s with writePolicyPlugin := plugin }
      if res = .accept then
        match downloadedId evJson with
        | .error _ => s
        | .ok id => { s with downloadedIds := s.downloadedIds.insert id }.note (.write id evJson)
      else s

/-- `ws.onMessage`.  What it throws is logged by the connection. -/
def onMessage (s : State) (msg : Bytes) : Option State :=
  match TaoJson.fromString msg with
  | some (.array (msgType :: _ :: rest)) =>
    if msgType.isString "EVENT" then
      if p.down then rest.head?.elim (some s) (onEvent p os pluginCmd s) else some s
    -- EOSE, NOTICE and OK, and what is not a message, change nothing
    else some s
  | _ => some s

end

section
variable [Zstd] (cfg : Cfg)

/-- The frame for an event's JSON. -/
def eventMsg (json : Bytes) : Bytes := ascii "[\"EVENT\"," ++ json ++ ascii "]"

/-- What `ws.send` does with a message. -/
def sending (s : State) (msg : Bytes) : Outcome := if s.connected then .sent msg else .unsent msg

/-- One event of the database. -/
def onVisit (txn : Db) (s : State) (ev : Nat × PackedEventView) : State × Except Err Unit :=
  let s := { s with currEventId := ev.1 }
  let id := ev.2.id
  if s.downloadedIds.contains id then
    ({ s with downloadedIds := s.downloadedIds.filter (· ≠ id) }.note (.visited ev.1 id .echo), .ok ())
  else
    match getEventJson cfg txn ev.1 with
    | .error e => (s.note (.visited ev.1 id .failed), .error e)
    | .ok json => (s.note (.visited ev.1 id (sending s (eventMsg json))), .ok ())

/-- `foreach_Event`, which an exception ends. -/
def visitAll (txn : Db) : List (Nat × PackedEventView) → State → State × Except Err Unit
  | [], s => (s, .ok ())
  | ev :: evs, s =>
    match onVisit cfg txn s ev with
    | (s, .ok ()) => visitAll txn evs s
    | (s, .error e) => (s, .error e)

/-- `ws.onTrigger`. -/
def onTrigger (p : Params) (txn : Db) (s : State) : State × Except Err Unit :=
  if p.dir = ascii "down" then (s, .ok ())
  else visitAll cfg txn (txn.event.foreachFrom (s.currEventId + 1)) s

variable [Golpe] [TaoJson]

/-- The callbacks; the others are not set. -/
def callback (p : Params) (os : PluginEventSifter.Os) (pluginCmd : Bytes) (txn : Db) (s : State) :
    WSAction → Option State
  | .onConnect => some (onConnect p s)
  | .onMessage msg => onMessage p os pluginCmd s msg
  | .onTrigger => some (onTrigger cfg p txn s).1
  | _ => some s

/-- The stream beside the database. -/
structure System where
  lev : LevState
  st : State

variable [StdSort] (p : Params)

/-- A transaction, whose deletes spare the most recent event, or an event at the connection, which is
never closed. -/
inductive Step (s : System) : System → Prop where
  | transact (lev : LevState) (h : LevStep cfg SparesMostRecent s.lev lev) : Step s { s with lev := lev }
  | event (os : PluginEventSifter.Os) (pluginCmd : Bytes) (e : WSEvent) (hub : WSHub) (actions : List WSAction)
      (st : State) (hne : e ≠ .close) (ha : s.st.hub.Allowed e) (h : s.st.hub.step e = .ok (hub, actions))
      (hr : actions.foldlM (callback cfg p os pluginCmd s.lev.db) { s.st with hub := hub } = some st) :
      Step s { s with st := st }

/-- The states a stream reaches that began when `start` was the most recent levId. -/
inductive Reached (start : Nat) : System → Prop where
  | init (lev : LevState) (h : LevReached cfg SparesMostRecent lev) (hs : lev.db.getMostRecentLevId = start) :
      Reached start { lev := lev, st := { currEventId := start } }
  | step {s s' : System} (h : Reached start s) (hs : Step cfg p s s') : Reached start s'

end

/-! ## The log -/

def Entry.levId? : Entry → Option Nat
  | .visited levId _ _ => some levId
  | _ => none

/-- The levIds visited. -/
def visits (log : List Entry) : List Nat := log.filterMap Entry.levId?

/-- The id an entry is about. -/
def Entry.id? : Entry → Option Bytes
  | .write id _ => some id
  | .visited _ id _ => some id
  | .subscribed _ => none

def Entry.isWrite : Entry → Bool
  | .write _ _ => true
  | _ => false

/-- The last that was heard of an id is that the peer sent an event with it. -/
def owed (log : List Entry) (id : Bytes) : Bool :=
  ((log.filter fun e => e.id? = some id).getLast?.map Entry.isWrite).getD false

/-- An entry that ends a log agrees with what comes before it. -/
def Entry.Fits (p : Params) (before : List Entry) : Entry → Prop
  | .visited _ id outcome => p.dir ≠ ascii "down" ∧ (outcome = .echo ↔ owed before id = true)
  | .write _ _ => p.down = true
  | .subscribed _ => p.down = true

/-- Every entry does. -/
def Told (p : Params) (log : List Entry) : Prop :=
  ∀ before e after, log = before ++ e :: after → e.Fits p before

section
variable {p : Params} {log : List Entry} {e : Entry} {id : Bytes}

@[simp] theorem visits_append (log log' : List Entry) : visits (log ++ log') = visits log ++ visits log' :=
  List.filterMap_append

theorem owed_append (log : List Entry) (e : Entry) (id : Bytes) :
    owed (log ++ [e]) id = if e.id? = some id then e.isWrite else owed log id := by
  unfold owed
  rw [List.filter_append]
  split
  · rename_i h
    simp [h]
  · rename_i h
    simp [h]

/-- Where the last that was heard of an id stands. -/
theorem owed_iff (log : List Entry) (id : Bytes) : owed log id = true ↔
    ∃ older evJson newer, log = older ++ .write id evJson :: newer ∧ ∀ e ∈ newer, e.id? ≠ some id := by
  induction log using List.reverseRecOn with
  | nil => simp [owed]
  | append_singleton log e ih =>
    rw [owed_append]
    split
    · rename_i hid
      constructor
      · intro hw
        cases e with
        | write id' evJson =>
          cases hid
          exact ⟨log, evJson, [], rfl, by simp⟩
        | visited _ _ _ => cases hw
        | subscribed _ => cases hid
      · rintro ⟨older, evJson, newer, hlog, hnew⟩
        rcases List.eq_nil_or_concat newer with rfl | ⟨newer', y, rfl⟩
        · obtain ⟨-, he⟩ := List.append_inj' hlog rfl
          cases he
          rfl
        · rw [List.concat_eq_append, ← List.cons_append, ← List.append_assoc] at hlog
          obtain ⟨-, he⟩ := List.append_inj' hlog rfl
          cases he
          exact absurd hid (hnew e (by simp))
    · rename_i hid
      rw [ih]
      constructor
      · rintro ⟨older, evJson, newer, rfl, hnew⟩
        refine ⟨older, evJson, newer ++ [e], by simp, fun x hx => ?_⟩
        obtain hx | hx := List.mem_append.mp hx
        · exact hnew x hx
        · rwa [List.mem_singleton.mp hx]
      · rintro ⟨older, evJson, newer, hlog, hnew⟩
        rcases List.eq_nil_or_concat newer with rfl | ⟨newer', y, rfl⟩
        · obtain ⟨-, he⟩ := List.append_inj' hlog rfl
          cases he
          exact absurd rfl hid
        · rw [List.concat_eq_append, ← List.cons_append, ← List.append_assoc] at hlog
          obtain ⟨hlog, -⟩ := List.append_inj' hlog rfl
          exact ⟨older, evJson, newer', hlog, fun x hx => hnew x (by simp [hx])⟩

theorem Told.append (h : Told p log) (he : e.Fits p log) : Told p (log ++ [e]) := by
  intro before x after hsplit
  rcases List.eq_nil_or_concat after with rfl | ⟨after', y, rfl⟩
  · obtain ⟨rfl, hx⟩ := List.append_inj' hsplit rfl
    cases hx
    exact he
  · rw [List.concat_eq_append, ← List.cons_append, ← List.append_assoc] at hsplit
    obtain ⟨hlog, -⟩ := List.append_inj' hsplit rfl
    exact h before x after' hlog

end

/-! ## Runs -/

/-- What holds in every state. -/
structure Inv (p : Params) (start : Nat) (txn : Db) (s : State) : Prop where
  follows : txn.event.Follows start s.currEventId (visits s.log)
  told : Told p s.log
  downloaded : ∀ id, id ∈ s.downloadedIds ↔ owed s.log id = true

section
variable {p : Params} {start : Nat} {txn : Db} {s s' : State}

theorem Inv.init (p : Params) (txn : Db) : Inv p txn.getMostRecentLevId txn
    { currEventId := txn.getMostRecentLevId } where
  follows := .init txn.event
  told before e after h := by simp at h
  downloaded id := by simp [owed]

/-- What the hub and the plugin keep is not looked at. -/
theorem Inv.of_same (h : Inv p start txn s) (hc : s'.currEventId = s.currEventId) (hl : s'.log = s.log)
    (hd : s'.downloadedIds = s.downloadedIds) : Inv p start txn s' where
  follows := by rw [hc, hl]; exact h.follows
  told := by rw [hl]; exact h.told
  downloaded := by rw [hl, hd]; exact h.downloaded

/-- Another entry that is no visit. -/
theorem Inv.note (h : Inv p start txn s) (e : Entry) (he : e.Fits p s.log) (hn : e.levId? = none)
    (hc : s'.currEventId = s.currEventId) (hl : s'.log = s.log ++ [e])
    (hd : ∀ id, id ∈ s'.downloadedIds ↔ if e.id? = some id then e.isWrite = true else id ∈ s.downloadedIds) :
    Inv p start txn s' where
  follows := by
    have hnone : visits [e] = [] := by simp [visits, hn]
    rw [hc, hl, visits_append, hnone, List.append_nil]
    exact h.follows
  told := by
    rw [hl]
    exact h.told.append he
  downloaded id := by
    rw [hl, owed_append, hd id]
    split
    · exact Iff.rfl
    · exact h.downloaded id

theorem Inv.onConnect [TaoJson] (h : Inv p start txn s) : Inv p start txn (onConnect p s) := by
  unfold CmdStream.onConnect
  split
  · rename_i hd
    exact h.note (.subscribed _) hd.1 rfl rfl rfl fun id => by simp [Entry.id?, State.note]
  · exact h

theorem Inv.onEvent [Golpe] [TaoJson] {os : PluginEventSifter.Os} {pluginCmd : Bytes} {evJson : Json}
    (h : Inv p start txn s) (hd : p.down = true) (he : onEvent p os pluginCmd s evJson = some s') :
    Inv p start txn s' := by
  obtain ⟨⟨res, okMsg, plugin⟩, -, he⟩ := Option.map_eq_some_iff.mp he
  have hp : Inv p start txn { s with writePolicyPlugin := plugin } := h.of_same rfl rfl rfl
  dsimp only at he
  split at he
  · split at he
    · exact he ▸ hp
    · rename_i id _
      subst he
      refine hp.note (.write id evJson) hd rfl rfl rfl fun x => ?_
      show x ∈ s.downloadedIds.insert id ↔ if some id = some x then true = true else x ∈ s.downloadedIds
      rw [List.mem_insert_iff]
      by_cases hx : id = x
      · simp [hx]
      · simp [hx, Ne.symm hx]
  · exact he ▸ hp

theorem Inv.onMessage [Golpe] [TaoJson] {os : PluginEventSifter.Os} {pluginCmd msg : Bytes}
    (h : Inv p start txn s) (he : onMessage p os pluginCmd s msg = some s') : Inv p start txn s' := by
  unfold CmdStream.onMessage at he
  split at he
  · rename_i msgType _ rest _
    split at he
    · split at he
      · rename_i hd
        cases rest with
        | nil => cases he; exact h
        | cons evJson rest => exact h.onEvent hd he
      · cases he; exact h
    · cases he; exact h
  · cases he; exact h

variable [Zstd] {cfg : Cfg}

/-- The next event is visited. -/
theorem Inv.onVisit {ev : Nat × PackedEventView} {evs : List (Nat × PackedEventView)} {r : Except Err Unit}
    (h : Inv p start txn s) (hd : p.dir ≠ ascii "down") (hn : txn.event.foreachFrom (s.currEventId + 1) = ev :: evs)
    (he : onVisit cfg txn s ev = (s', r)) :
    Inv p start txn s' ∧ txn.event.foreachFrom (s'.currEventId + 1) = evs := by
  obtain ⟨hf, hrest⟩ := h.follows.visit hn
  have hadd : ∀ {outcome ids}, (outcome = .echo ↔ ev.2.id ∈ s.downloadedIds) →
      (∀ id, id ∈ ids ↔ id ∈ s.downloadedIds ∧ id ≠ ev.2.id) →
      Inv p start txn (State.note { s with currEventId := ev.1, downloadedIds := ids }
        (.visited ev.1 ev.2.id outcome)) := by
    intro outcome ids ho hids
    refine ⟨?_, h.told.append ⟨hd, ho.trans (h.downloaded _)⟩, fun id => ?_⟩
    · show txn.event.Follows start ev.1 (visits (s.log ++ [_]))
      rw [visits_append]
      exact hf
    · show id ∈ ids ↔ owed (s.log ++ [_]) id = true
      rw [owed_append, hids]
      by_cases hid : ev.2.id = id
      · simp [Entry.id?, Entry.isWrite, hid]
      · simp [Entry.id?, hid, Ne.symm hid, h.downloaded id]
  unfold CmdStream.onVisit at he
  dsimp only at he
  split at he
  · rename_i hin
    cases he
    exact ⟨hadd (by simpa using hin) fun id => by simp, hrest⟩
  · rename_i hin
    rw [List.contains_iff_mem] at hin
    have hids : ∀ id, id ∈ s.downloadedIds ↔ id ∈ s.downloadedIds ∧ id ≠ ev.2.id := fun id =>
      ⟨fun h => ⟨h, fun he => hin (he ▸ h)⟩, And.left⟩
    split at he
    · cases he
      exact ⟨hadd (by simpa using hin) hids, hrest⟩
    · cases he
      refine ⟨hadd ?_ hids, hrest⟩
      unfold sending
      split <;> simpa using hin

theorem Inv.visitAll {evs : List (Nat × PackedEventView)} {r : Except Err Unit}
    (h : Inv p start txn s) (hd : p.dir ≠ ascii "down") (hn : txn.event.foreachFrom (s.currEventId + 1) = evs)
    (he : visitAll cfg txn evs s = (s', r)) :
    Inv p start txn s' ∧ (r = .ok () → txn.event.foreachFrom (s'.currEventId + 1) = []) := by
  induction evs generalizing s with
  | nil =>
    cases he
    exact ⟨h, fun _ => hn⟩
  | cons ev evs ih =>
    unfold CmdStream.visitAll at he
    split at he
    · rename_i s1 hv
      obtain ⟨h1, hn1⟩ := h.onVisit hd hn hv
      exact ih h1 hn1 he
    · rename_i s1 e hv
      cases he
      exact ⟨(h.onVisit hd hn hv).1, fun h => by cases h⟩

theorem Inv.onTrigger {r : Except Err Unit} (h : Inv p start txn s) (he : onTrigger cfg p txn s = (s', r)) :
    Inv p start txn s' ∧ (p.dir ≠ ascii "down" → r = .ok () → txn.event.foreachFrom (s'.currEventId + 1) = []) := by
  unfold CmdStream.onTrigger at he
  split at he
  · rename_i hd
    cases he
    exact ⟨h, fun hne => absurd hd hne⟩
  · rename_i hd
    obtain ⟨h', hn⟩ := h.visitAll hd rfl he
    exact ⟨h', fun _ => hn⟩

variable [Golpe] [TaoJson]

theorem Inv.callback {os : PluginEventSifter.Os} {pluginCmd : Bytes} {a : WSAction} (h : Inv p start txn s)
    (he : callback cfg p os pluginCmd txn s a = some s') : Inv p start txn s' := by
  cases a with
  | onConnect => cases he; exact h.onConnect
  | onMessage msg => exact h.onMessage he
  | onTrigger => cases he; exact (h.onTrigger rfl).1
  | connect | terminate _ | onDisconnect | onError => cases he; exact h

theorem Inv.callbacks {os : PluginEventSifter.Os} {pluginCmd : Bytes} {actions : List WSAction}
    (h : Inv p start txn s) (he : actions.foldlM (CmdStream.callback cfg p os pluginCmd txn) s = some s') :
    Inv p start txn s' := by
  induction actions generalizing s with
  | nil => cases he; exact h
  | cons a actions ih =>
    rw [List.foldlM_cons] at he
    obtain ⟨s1, h1, he⟩ := Option.bind_eq_some_iff.mp he
    exact ih (h.callback h1) he

variable [StdSort]

theorem Reached.inv {s : System} (h : Reached cfg p start s) : LevInv s.lev ∧ Inv p start s.lev.db s.st := by
  induction h with
  | init lev h hs =>
    subst hs
    exact ⟨.reached h, .init p lev.db⟩
  | @step s s' _ hs ih =>
    obtain ⟨hl, hi⟩ := ih
    cases hs with
    | transact lev h =>
      obtain ⟨hl', hev⟩ := hl.step h
      exact ⟨hl', hi.follows.advance ⟨hev.lastId, hev.rows⟩, hi.told, hi.downloaded⟩
    | event os pluginCmd e hub actions st hne ha h hr =>
      have hhub : Inv p start s.lev.db { s.st with hub := hub } := hi.of_same rfl rfl rfl
      exact ⟨hl, hhub.callbacks hr⟩

/-- **Every new event is visited once.**  In every state a stream reaches, whatever transactions and
events at the connection are interleaved, the levIds visited are in increasing order, beyond the most
recent one of its start and not beyond `currEventId`, and no event between the two that is still there
has been left out; after a trigger that ends, no event beyond the start has. -/
theorem visited_once (hdir : p.dir ≠ ascii "down") {s : System} (h : Reached cfg p start s) :
    (visits s.st.log).Pairwise (· < ·) ∧ (∀ levId ∈ visits s.st.log, start < levId ∧ levId ≤ s.st.currEventId) ∧
    (∀ ev ∈ s.lev.db.event.rows, start < ev.1 → ev.1 ≤ s.st.currEventId → ev.1 ∈ visits s.st.log) ∧
    ∀ s', CmdStream.onTrigger cfg p s.lev.db s.st = (s', .ok ()) →
      ∀ ev ∈ s.lev.db.event.rows, start < ev.1 → ev.1 ∈ visits s'.log := by
  obtain ⟨-, hi⟩ := h.inv
  refine ⟨hi.follows.sorted, hi.follows.range, hi.follows.all, fun s' he ev hev hs => ?_⟩
  obtain ⟨hi', hn⟩ := hi.onTrigger he
  exact hi'.follows.caught_up (hn hdir rfl) hev hs

/-- **An event is taken for an echo if and only if the peer sent one with its id since the last visit to
one**, if any: in the log of every state a stream reaches, what is said of a visit agrees with what
comes before it. -/
theorem echo_iff {s : System} (h : Reached cfg p start s) {before after : List Entry} {levId : Nat}
    {id : Bytes} {outcome : Outcome} (hlog : s.st.log = before ++ .visited levId id outcome :: after) :
    outcome = .echo ↔ ∃ older evJson newer, before = older ++ .write id evJson :: newer ∧
      ∀ e ∈ newer, e.id? ≠ some id := by
  obtain ⟨-, hi⟩ := h.inv
  exact (hi.told before _ after hlog).2.trans (owed_iff before id)

end

/-! ## A run -/

def bothWays : Params := { url := [], dir := ascii "both" }

/-- The event of the batch `oneEvent 1 1`, as the peer has it. -/
def peerEvent : Json := .object [(ascii "id", .string (toHex (List.replicate 32 1)))]

/-- A JSON library that knows the message with it. -/
@[reducible] def peerTexts : TaoJson := TaoJson.ofTexts
  [("E", .array [.string (ascii "EVENT"), .string (ascii "sub"), peerEvent])]

theorem oneEvent_visited : okAnd (fun r => decide (r.1.event.foreachFrom 1 = [(1, sampleEvent 1 9 100 1 [])]))
    (@writeEvents Golpe.plain peerTexts StdSort.insertion {} {} (oneEvent 1 1)) = true := by
  decide +kernel

/-- Connected to the socket 7. -/
def onSeven : WSHub := { conn := { currWs := some 7 }, sockets := [7], connecting := 0 }

/-- The peer has sent the event. -/
def received : State where
  hub := onSeven
  downloadedIds := [List.replicate 32 1]
  currEventId := 0
  log := [.subscribed [], .write (List.replicate 32 1) peerEvent]

/-- And the trigger has come. -/
def echoed : State where
  hub := onSeven
  currEventId := 1
  log := received.log ++ [.visited 1 (List.replicate 32 1) .echo]

/-- The peer sends an event, the writer stores it, and the trigger comes. -/
theorem echoed_reached : ∃ s : System,
    @Reached Zstd.spaces {} Golpe.plain peerTexts StdSort.insertion bothWays 0 s ∧ s.st.currEventId = 1 ∧
    s.lev.db.event.foreachFrom 1 = [(1, sampleEvent 1 9 100 1 [])] ∧
    s.st.log = received.log ++ [.visited 1 (List.replicate 32 1) .echo] := by
  let _ : Zstd := Zstd.spaces
  let _ : Golpe := Golpe.plain
  let _ : TaoJson := peerTexts
  let _ : StdSort := StdSort.insertion
  obtain ⟨⟨db, cache, evs⟩, hw, hr⟩ := exists_of_okAnd oneEvent_visited
  have hrows : db.event.foreachFrom 1 = [(1, sampleEvent 1 9 100 1 [])] := of_decide_eq_true hr
  have hstart : Reached {} bothWays 0 { lev := { db := {}, assigned := [] }, st := { currEventId := 0 } } :=
    .init _ (.init {}) rfl
  have hconnected := hstart.step (.event (PluginEventSifter.sampleOs []) [] (.onConnection 7) onSeven [.onConnect]
    { hub := onSeven, currEventId := 0, log := [.subscribed []] } (by simp) (by decide) rfl rfl)
  have hreceived := hconnected.step (.event (PluginEventSifter.sampleOs []) [] (.onMessage2 7 (ascii "E")) onSeven
    [.onMessage (ascii "E")] received (by simp) (by decide) rfl rfl)
  have hstored := hreceived.step (.transact _ (.write {} cache (oneEvent 1 1) evs db (by simp [oneEvent]) hw))
  have htrigger : CmdStream.onTrigger {} bothWays db received = (echoed, .ok ()) := by
    rw [CmdStream.onTrigger, if_neg (by decide), received, hrows]
    rfl
  have hr : some (CmdStream.onTrigger {} bothWays db received).1 = some echoed := by rw [htrigger]
  have hechoed := hstored.step (.event (PluginEventSifter.sampleOs []) [] .asyncCb onSeven [.onTrigger] echoed (by simp)
    (show received.hub.Allowed .asyncCb by decide) rfl hr)
  exact ⟨_, hechoed, rfl, hrows, rfl⟩

theorem visited_once_one : ∃ s : System, s.lev.db.event.foreachFrom 1 ≠ [] ∧
    ∀ ev ∈ s.lev.db.event.foreachFrom 1, ev.1 ∈ visits s.st.log := by
  obtain ⟨s, hs, hcurr, hrows, -⟩ := echoed_reached
  refine ⟨s, by rw [hrows]; simp, fun ev hev => ?_⟩
  obtain ⟨hrow, hfrom⟩ := (Table.mem_foreachFrom _ _ _).mp hev
  rw [hrows, List.mem_singleton] at hev
  refine (@visited_once bothWays 0 Zstd.spaces {} Golpe.plain peerTexts StdSort.insertion (by decide) s hs).2.2.1
    ev hrow hfrom ?_
  rw [hcurr, hev]

theorem echo_iff_one : ∃ older evJson newer,
    received.log = older ++ .write (List.replicate 32 1) evJson :: newer := by
  obtain ⟨s, hs, -, -, hlog⟩ := echoed_reached
  obtain ⟨older, evJson, newer, h, -⟩ :=
    (@echo_iff bothWays 0 Zstd.spaces {} Golpe.plain peerTexts StdSort.insertion s hs _ _ _ _ _ hlog).mp rfl
  exact ⟨older, evJson, newer, h⟩

end CmdStream

end Strfry
