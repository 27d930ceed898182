import Strfry.ActiveMonitorsRun
import Strfry.LevIds
import Strfry.QuerySchedulerInv

/-!
# REQ from the query thread to the monitor thread

A REQ goes to the inbox of `runReqWorker` (`RelayReqWorker.cpp`), which runs its query in
slices, sends EOSE when the query is complete and passes the subscription on to the inbox of
`runReqMonitor` (`RelayReqMonitor.cpp`).  CLOSE and disconnects take the same way, so that they
stay behind the REQs they are about.

Each thread works in turns: it takes messages off its inbox, opens a read transaction and
handles the messages one by one; commits, arrivals and the turns of the other thread may come
between any two of these (`ReqStep`).  Every REQ is known by its number among the messages that
arrived.  `ReqLog` is not part of the program: it records which REQ a query or a monitor belongs
to, and what became of it.
-/

namespace Strfry

inductive MsgReqWorker where
  | newSub (sub : Subscription)
  | removeSub (connId : Nat) (subId : SubId)
  | closeConn (connId : Nat)

/-- `ingesterProcessReq`: the message to the query thread. -/
def ingesterProcessReq [Golpe] (cfg : Cfg) (connId : Nat) (arr : List Json) (countOnly : Bool) :
    Except Err MsgReqWorker := do
  let elem := fun (i : Nat) => (arr[i]?).elim (Except.error Err.outOfRange) Except.ok
  let _ ← throwIf (arr.length < 2 + 1) (.herr "arr too small")
  let outSubIdStr ← jsonGetString (← elem 1) "subscription id was not a string"
  let _ ← throwIf (arr.length > addU64 2 cfg.relayMaxReqFilterSize) (.herr "arr too big")
  let maxFilterLimit :=
    if countOnly then addU64 cfg.relayMaxFilterLimitCount 1  -- one more than is counted
    else cfg.relayMaxFilterLimit
  let _ ← throwIf (countOnly ∧ maxFilterLimit = 1) (.herr "COUNT disabled")
  let filterGroup ← NostrFilterGroup.ofReq (.array arr) maxFilterLimit
  let subId ← SubId.ofBytes outSubIdStr
  return .newSub { connId := connId, subId := subId, filterGroup := filterGroup, countOnly := countOnly }

/-- A subscription is passed on with the number of its REQ. -/
inductive MsgReqMonitor where
  | newSub (reqNo : Nat) (sub : Subscription)
  | removeSub (connId : Nat) (subId : SubId)
  | closeConn (connId : Nat)
  | dbChange

/-- Which thread sends an event. -/
inductive Stage where
  | query
  | monitor
deriving DecidableEq, Repr

/-- What is sent to a connection on behalf of a REQ. -/
inductive ReqOut where
  | event (reqNo : Nat) (stage : Stage) (connId : Nat) (subId : SubId) (levId : Nat)
  | eose (reqNo connId : Nat) (subId : SubId)
  | count (reqNo connId : Nat) (subId : SubId) (total : Nat) (limited : Bool)
  | notice (connId : Nat) (payload : String)
deriving DecidableEq

structure ReqWorker where
  inbox : List MsgReqWorker := []
  batch : List MsgReqWorker := []
  txn : Option Db := none
  queries : QueryScheduler := {}

structure ReqMonitor where
  inbox : List MsgReqMonitor := []
  batch : List MsgReqMonitor := []
  txn : Option Db := none
  monitors : ActiveMonitors.State := ({}, {})
  currEventId : Nat := maxU64

structure ReqLog where
  /-- every message for the worker -/
  arrived : List MsgReqWorker := []
  /-- how many of them the worker has handled -/
  handled : Nat := 0
  /-- the REQ the worker last added for an id -/
  serving : Nat × SubId → Nat := fun _ => 0
  /-- the REQ the monitor last added for an id -/
  watching : Nat × SubId → Nat := fun _ => 0
  /-- the largest levId of the snapshot in which the query of a REQ began -/
  began : Nat → Nat := fun _ => 0
  /-- the REQs superseded, closed or disconnected while their query was running -/
  cancelled : Set Nat := ∅
  /-- the last snapshot of the monitor -/
  seen : Db
  /-- what the monitor has handled in its turn -/
  turn : List MsgReqMonitor := []

structure ReqSystem where
  store : LevState
  worker : ReqWorker := {}
  monitor : ReqMonitor := {}
  out : List ReqOut := []
  log : ReqLog

/-- The log once the next message is handled, when it ends the queries of the ids `D`. -/
def ReqLog.handle (log : ReqLog) (live : Nat × SubId → Option DBQuery) (D : Nat × SubId → Prop) : ReqLog :=
  { log with
    handled := log.handled + 1
    cancelled := log.cancelled ∪ { n | ∃ k, D k ∧ (live k).isSome ∧ log.serving k = n } }

/-- `foreach_Event` from a levId on. -/
def Db.foreachEvent (txn : Db) (startId : Nat) : List (Nat × PackedEventView) :=
  txn.event.rows.filter fun r => startId ≤ r.1

namespace ReqSystem

section
variable (cfg : Cfg)

def send (s : ReqSystem) (msgs : List ReqOut) : ReqSystem := { s with out := s.out ++ msgs }

/-- `sendNoticeError` when a subscription was not added. -/
def refusal (connId : Nat) (added : Bool) : List ReqOut :=
  if added then [] else [.notice connId "too many concurrent REQs"]

/-- The live query of an id. -/
def live (s : ReqSystem) (k : Nat × SubId) : Option DBQuery := s.worker.queries.live k.1 k.2

/-! ## The worker -/

/-- `onEvent` and `onComplete` for what a slice called back: what is sent, and what is passed on to
the monitor. -/
def callbacks (reqNo : Nat) (ran : QueryScheduler.Ran) : List ReqOut × List MsgReqMonitor :=
  let sub := ran.sub
  let events := if sub.countOnly then []
    else ran.levIds.map fun levId => ReqOut.event reqNo .query sub.connId sub.subId levId
  match ran.total with
  | none => (events, [])
  | some total =>
    if sub.countOnly then
      (events ++ [.count reqNo sub.connId sub.subId (min total cfg.relayMaxFilterLimitCount)
        (total > cfg.relayMaxFilterLimitCount)], [])
    else (events ++ [.eose reqNo sub.connId sub.subId], [.newSub reqNo sub])

/-- `queries.process(txn)`. -/
def slice [StdSort] (txn : Db) (pauses : List DBQuery.Pause) (s : ReqSystem) : Except Err ReqSystem := do
  let (queries, ran) ← s.worker.queries.process true txn pauses
  let s := { s with worker.queries := queries }
  return match ran with
    | none => s
    | some ran =>
      let called := callbacks cfg (s.log.serving ran.sub.key) ran
      { s.send called.1 with monitor.inbox := s.monitor.inbox ++ called.2 }

/-- The worker handles a message; a new query is put at address `p`. -/
def handleReq [StdSort] (txn : Db) (p : Nat) (pauses : List DBQuery.Pause) (s : ReqSystem) :
    MsgReqWorker → Except Err ReqSystem
  | .newSub sub =>
    let r := s.worker.queries.addSub cfg txn sub p
    let log := { s.log.handle s.live (fun k => k = sub.key) with
      serving := Function.update s.log.serving sub.key s.log.handled
      began := Function.update s.log.began s.log.handled txn.getMostRecentLevId }
    let s := { s with worker.queries := r.2, log := log }
    slice cfg txn pauses (s.send (refusal sub.connId r.1))
  | .removeSub connId subId =>
    .ok { s with
      worker.queries := s.worker.queries.removeSub connId subId
      monitor.inbox := s.monitor.inbox ++ [.removeSub connId subId]
      log := s.log.handle s.live fun k => k = (connId, subId) }
  | .closeConn connId =>
    .ok { s with
      worker.queries := s.worker.queries.closeConn connId
      monitor.inbox := s.monitor.inbox ++ [.closeConn connId]
      log := s.log.handle s.live fun k => k.1 = connId }

/-! ## The monitor -/

/-- The loop of a DBChange over the events from `currEventId + 1` on. -/
def processEvents : List (Nat × PackedEventView) → ReqSystem → Except Err ReqSystem
  | [], s => .ok s
  | r :: rows, s => do
    let (am, recipients) ← s.monitor.monitors.1.process r.1 r.2
    let s := { s with monitor.monitors := (am, s.monitor.monitors.2) }
    processEvents rows (s.send (recipients.map fun k => .event (s.log.watching k) .monitor k.1 k.2 r.1))

/-- The events that came in since the query of a subscription began. -/
def catchUp (txn : Db) (reqNo : Nat) (sub : Subscription) : List ReqOut :=
  ((txn.foreachEvent (sub.latestEventId + 1)).filter fun r => sub.filterGroup.doesMatch r.2).map fun r =>
    .event reqNo .monitor sub.connId sub.subId r.1

/-- The monitor handles a message; a new monitor is put at address `m`. -/
def handleMonitor (txn : Db) (m : Nat) (s : ReqSystem) : MsgReqMonitor → Except Err ReqSystem
  | .newSub reqNo sub => do
    let s := s.send (catchUp txn reqNo sub)
    let sub := { sub with latestEventId := txn.getMostRecentLevId }
    let (added, monitors) ← ActiveMonitors.addSub cfg s.monitor.monitors sub txn.getMostRecentLevId m
    let s := { s with
      monitor.monitors := monitors
      log.watching := Function.update s.log.watching sub.key reqNo }
    return s.send (refusal sub.connId added)
  | .removeSub connId subId => do
    let monitors ← ActiveMonitors.removeSub s.monitor.monitors connId subId
    return { s with monitor.monitors := monitors }
  | .closeConn connId => do
    let monitors ← ActiveMonitors.closeConn s.monitor.monitors connId
    return { s with monitor.monitors := monitors }
  | .dbChange => do
    let s ← processEvents (txn.foreachEvent (s.monitor.currEventId + 1)) s
    return { s with monitor.currEventId := txn.getMostRecentLevId }

end

/-! ## Runs -/

section
variable [Golpe] [TaoJson] [StdSort] (cfg : Cfg)

/-- One step.  `P` is what is known of the messages for the worker. -/
inductive ReqStep (P : MsgReqWorker → Prop) (s : ReqSystem) : ReqSystem → Prop where
  /-- a batch of the writer, a pass of the cron thread, or a delete of older events -/
  | commit (store : LevState) (h : LevStep cfg SparesMostRecent s.store store) :
      ReqStep P s { s with store := store }
  | arrive (msg : MsgReqWorker) (hP : P msg) : ReqStep P s { s with
      worker.inbox := s.worker.inbox ++ [msg]
      log.arrived := s.log.arrived ++ [msg] }
  | dbChange : ReqStep P s { s with monitor.inbox := s.monitor.inbox ++ [.dbChange] }
  | workerWake (batch rest : List MsgReqWorker) (hidle : s.worker.txn = none)
      (hin : s.worker.inbox = batch ++ rest) (hwake : batch ≠ [] ∨ s.worker.queries.running ≠ []) :
      ReqStep P s { s with
        worker.inbox := rest
        worker.batch := batch
        worker.txn := some s.store.db }
  | workerHandle (txn : Db) (msg : MsgReqWorker) (rest : List MsgReqWorker) (p : Nat)
      (pauses : List DBQuery.Pause) (s' : ReqSystem) (htxn : s.worker.txn = some txn)
      (hbatch : s.worker.batch = msg :: rest) (hp : s.worker.queries.heap.find? p = none)
      (h : handleReq cfg txn p pauses { s with worker.batch := rest } msg = .ok s') : ReqStep P s s'
  | workerEnd (txn : Db) (pauses : List DBQuery.Pause) (s' : ReqSystem) (htxn : s.worker.txn = some txn)
      (hbatch : s.worker.batch = []) (h : slice cfg txn pauses s = .ok s') :
      ReqStep P s { s' with worker.txn := none }
  | monitorWake (batch rest : List MsgReqMonitor) (hidle : s.monitor.txn = none)
      (hin : s.monitor.inbox = batch ++ rest) (hwake : batch ≠ []) : ReqStep P s { s with
        monitor.inbox := rest
        monitor.batch := batch
        monitor.txn := some s.store.db
        monitor.currEventId := if s.monitor.currEventId > s.store.db.getMostRecentLevId then
          s.store.db.getMostRecentLevId else s.monitor.currEventId
        log.seen := s.store.db
        log.turn := [] }
  | monitorHandle (txn : Db) (msg : MsgReqMonitor) (rest : List MsgReqMonitor) (m : Nat) (s' : ReqSystem)
      (htxn : s.monitor.txn = some txn) (hbatch : s.monitor.batch = msg :: rest)
      (hm : ∀ n sub, msg = .newSub n sub → ActiveMonitors.Fresh s.monitor.monitors sub m)
      (h : handleMonitor cfg txn m { s with
        monitor.batch := rest
        log.turn := s.log.turn ++ [msg] } msg = .ok s') : ReqStep P s s'
  | monitorEnd (txn : Db) (htxn : s.monitor.txn = some txn) (hbatch : s.monitor.batch = []) :
      ReqStep P s { s with monitor.txn := none }
  /-- a hash map of the monitor is iterated in another order -/
  | rehash (am : ActiveMonitors) (h : ActiveMonitors.Rehashed s.monitor.monitors.1 am) :
      ReqStep P s { s with monitor.monitors := (am, s.monitor.monitors.2) }

/-- The states reached from an idle system over any database. -/
inductive ReqReached (P : MsgReqWorker → Prop) : ReqSystem → Prop where
  | init (db : Db) (tracker : EphemeralSubTracker) : ReqReached P {
      store := { db := db, assigned := db.event.rows.map fun r => (r.1, r.2.buf) }
      monitor := { monitors := ({}, tracker) }
      log := { seen := db } }
  | step {s s' : ReqSystem} (h : ReqReached P s) (hs : ReqStep cfg P s s') : ReqReached P s'

end

/-! ## What the log tells -/

/-- What a message does to the open REQ of an id, when it is the message of this number. -/
def reopen (k : Nat × SubId) (opened : Option Nat) (e : MsgReqWorker × Nat) : Option Nat :=
  match e.1 with
  | .newSub sub => if sub.key = k then some e.2 else opened
  | .removeSub connId subId => if (connId, subId) = k then none else opened
  | .closeConn connId => if connId = k.1 then none else opened

/-- The number of the last message about an id, when that is a REQ. -/
def openReq (msgs : List MsgReqWorker) (k : Nat × SubId) : Option Nat :=
  msgs.zipIdx.foldl (reopen k) none

/-- The filters of a REQ. -/
def reqSub (log : ReqLog) (n : Nat) : Option Subscription :=
  match log.arrived[n]? with
  | some (.newSub sub) => some sub
  | _ => none

/-- What was sent on behalf of a REQ, with the thread that sent it. -/
def sentFor (n : Nat) (out : List ReqOut) : List (Stage × Nat) :=
  out.filterMap fun
    | .event reqNo stage _ _ levId => if reqNo = n then some (stage, levId) else none
    | _ => none

/-- The EOSEs of a REQ. -/
def eoses (n : Nat) (out : List ReqOut) : List Nat :=
  out.filterMap fun
    | .eose reqNo _ _ => if reqNo = n then some reqNo else none
    | _ => none

end ReqSystem

end Strfry
