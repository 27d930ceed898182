import Strfry.EventsWrite
import Strfry.QuerySchedulerInv

/-!
# Negentropy thread

`runNegentropy` (`RelayNegentropy.cpp`) answers the NEG messages of the clients.  A
NEG-OPEN whose filter has a tree is answered from the tree at once (a `StatelessView`);
any other starts a query, collects the results in a `MemoryView` and answers when the
query is complete.

The library is a parameter: `Negentropy.reconcile` answers a message from a set of items,
or throws.  A handler's `Effect`s are the messages it sends, and a write through a pointer
to a view that is gone.
-/

namespace Strfry

/-- The negentropy library: `none` when `reconcile` throws. -/
class Negentropy where
  reconcile : Finset (Nat × Bytes) → Bytes → Option Bytes

structure MemoryView where
  initialMsg : Bytes
  storageVector : List (Nat × Bytes) := []
  isSealed : Bool := false
  levIds : List Nat := []

inductive UserView where
  | memory (view : MemoryView)
  | stateless (sub : Subscription) (treeId : Nat)

structure NegentropyViews where
  /-- connId -> subId -> UserView -/
  conns : Nested Nat SubId UserView := .empty

namespace NegentropyViews

def findView (views : NegentropyViews) (connId : Nat) (subId : SubId) : Option UserView :=
  views.conns.find connId subId

def removeView (views : NegentropyViews) (connId : Nat) (subId : SubId) : NegentropyViews :=
  match views.findView connId subId with
  | none => views
  | some _ => ⟨views.conns.eraseAt connId subId⟩

/-- What `addMemoryView` and `addStatelessView` do with the view they make. -/
def addView (cfg : Cfg) (views : NegentropyViews) (connId : Nat) (subId : SubId) (view : UserView) :
    Bool × NegentropyViews :=
  let views := views.removeView connId subId
  let conns := views.conns.tryEmplace connId .empty
  if (Nested.row conns connId).size ≥ cfg.relayMaxSubsPerConnection then (false, ⟨conns⟩)
  else (true, ⟨views.conns.emplaceAt connId subId view⟩)

def addMemoryView (cfg : Cfg) (views : NegentropyViews) (connId : Nat) (subId : SubId)
    (initialMsg : Bytes) : Bool × NegentropyViews :=
  views.addView cfg connId subId (.memory { initialMsg := initialMsg })

def addStatelessView (cfg : Cfg) (views : NegentropyViews) (connId : Nat) (subId : SubId)
    (sub : Subscription) (treeId : Nat) : Bool × NegentropyViews :=
  views.addView cfg connId subId (.stateless sub treeId)

/-- Assign to the view a pointer was found for. -/
def setView (views : NegentropyViews) (connId : Nat) (subId : SubId) (view : UserView) : NegentropyViews :=
  ⟨views.conns.setAt connId subId view⟩

def closeConn (views : NegentropyViews) (connId : Nat) : NegentropyViews :=
  match views.conns.find? connId with
  | none => views
  | some _ => ⟨views.conns.erase connId⟩

end NegentropyViews

inductive Effect where
  | negErr (connId : Nat) (subId : SubId) (reason : String) (maxSyncEvents : Option Nat)
  | negMsg (connId : Nat) (subId : SubId) (resp : Bytes)
  | notice (connId : Nat) (msg : String)
  /-- not a message: a view is written to after it was removed -/
  | touchRemoved (connId : Nat) (subId : SubId)
deriving DecidableEq

inductive MsgNegentropy where
  | negOpen (sub : Subscription) (filterStr negPayload : Bytes)
  | negMsg (connId : Nat) (subId : SubId) (negPayload : Bytes)
  | negClose (connId : Nat) (subId : SubId)
  | closeConn (connId : Nat)

structure NegentropyThread where
  queries : QueryScheduler := {}
  views : NegentropyViews := {}

/-- `ingesterProcessNegentropy`: the message to the negentropy thread. -/
def ingesterProcessNegentropy [Golpe] [TaoJson] (cfg : Cfg) (connId : Nat) (arr : List Json) :
    Except Err MsgNegentropy := do
  let elem := fun (i : Nat) => (arr[i]?).elim (Except.error Err.outOfRange) Except.ok
  let subscriptionStr ← jsonGetString (← elem 1) "NEG-OPEN subscription id was not a string"
  let cmd ← (← elem 0).getString
  if cmd = ascii "NEG-OPEN" then
    let _ ← throwIf (arr.length < 4) (.herr "negentropy query missing elements")
    let maxFilterLimit := addU64 cfg.relayNegentropyMaxSyncEvents 1
    let filterJson ← elem 2
    let filter ← NostrFilterGroup.unwrapped filterJson maxFilterLimit
    let subId ← SubId.ofBytes subscriptionStr
    let filterStr := TaoJson.toString ((filterJson.erase (ascii "since")).erase (ascii "until"))
    let negPayload ← fromHex (← jsonGetString (← elem 3) "negentropy payload not a string")
    return .negOpen { connId := connId, subId := subId, filterGroup := filter } filterStr negPayload
  else if cmd = ascii "NEG-MSG" then
    let negPayload ← fromHex (← jsonGetString (← elem 2) "negentropy payload not a string")
    return .negMsg connId (← SubId.ofBytes subscriptionStr) negPayload
  else if cmd = ascii "NEG-CLOSE" then
    return .negClose connId (← SubId.ofBytes subscriptionStr)
  else .error (.herr "unknown command")

/-- The items of a tree between two bounds of created_at. -/
def subRange (storage : Finset (Nat × Bytes)) (lower upper : Nat) : Finset (Nat × Bytes) :=
  storage.filter fun item => lower ≤ item.1 ∧ item.1 < upper

/-- The storage a tree-backed request is answered from; `filters.at(0)` can throw. -/
def treeStorage (txn : Db) (treeId : Nat) (sub : Subscription) : Except Err (Finset (Nat × Bytes)) :=
  match sub.filterGroup.filters with
  | [] => .error .outOfRange
  | f :: _ => .ok (subRange (txn.negentropy treeId) f.since
      (if f.until_ = maxU64 then maxU64 else f.until_ + 1))

/-- The tree whose filter is the one asked for. -/
def treeFor (txn : Db) (filterStr : Bytes) : Option Nat :=
  (txn.negentropyFilter.rows.find? fun r => r.2 == filterStr).map Prod.fst

section
variable [Negentropy] [StdSort] (cfg : Cfg)

def handleReconcile (views : NegentropyViews) (connId : Nat) (subId : SubId)
    (storage : Finset (Nat × Bytes)) (msg : Bytes) : NegentropyViews × List Effect :=
  match Negentropy.reconcile storage msg with
  | none => (views.removeView connId subId, [.negErr connId subId "PROTOCOL-ERROR" none])
  | some resp => (views, [.negMsg connId subId resp])

/-- The `onEventBatch` of the queries. -/
def onEventBatch (views : NegentropyViews) (sub : Subscription) (levIds : List Nat) :
    Except Err NegentropyViews :=
  match views.findView sub.connId sub.subId with
  | none => .ok views
  | some (.stateless _ _) => .error (.herr "bad variant, expected memory view")
  | some (.memory view) =>
    .ok (views.setView sub.connId sub.subId (.memory { view with levIds := view.levIds ++ levIds }))

/-- A view once its events are looked up and the vector is sealed; events that are gone are
left out. -/
def sealView (txn : Db) (view : MemoryView) : MemoryView :=
  let items := (StdSort.sort (fun a b => decide (a < b)) view.levIds).filterMap fun levId =>
    (txn.event.lookup levId).map fun packed => (packed.createdAt, packed.id)
  { view with levIds := [], storageVector := view.storageVector ++ items, isSealed := true }

/-- The `onComplete` of the queries. -/
def onComplete (txn : Db) (views : NegentropyViews) (sub : Subscription) :
    Except Err (NegentropyViews × List Effect) :=
  match views.findView sub.connId sub.subId with
  | none => .ok (views, [])
  | some (.stateless _ _) => .error (.herr "bad variant, expected memory view")
  | some (.memory view) =>
    if view.levIds.length > cfg.relayNegentropyMaxSyncEvents then
      .ok (views.removeView sub.connId sub.subId, [.negErr sub.connId sub.subId
        "blocked: too many query results" (some cfg.relayNegentropyMaxSyncEvents)])
    else
      let view := sealView txn view
      let views := views.setView sub.connId sub.subId (.memory view)
      let (views, effects) := handleReconcile views sub.connId sub.subId view.storageVector.toFinset
        view.initialMsg
      -- `view->initialMsg = ""`, through the pointer found at the start
      match views.findView sub.connId sub.subId with
      | some (.memory view) =>
        .ok (views.setView sub.connId sub.subId (.memory { view with initialMsg := [] }), effects)
      | _ => .ok (views, effects ++ [.touchRemoved sub.connId sub.subId])

/-- `queries.process(txn)` with its callbacks. -/
def processQueries (txn : Db) (pauses : List DBQuery.Pause) (st : NegentropyThread) :
    Except Err (NegentropyThread × List Effect) := do
  let (queries, ran) ← st.queries.process false txn pauses
  match ran with
  | none => return (⟨queries, st.views⟩, [])
  | some ran =>
    let views ← onEventBatch st.views ran.sub ran.levIds
    if ran.total.isSome then
      let (views, effects) ← onComplete cfg txn views ran.sub
      return (⟨queries, views⟩, effects)
    else return (⟨queries, views⟩, [])

/-- A NEG-OPEN that is served by a tree. -/
def openTree (txn : Db) (treeId : Nat) (st : NegentropyThread) (sub : Subscription) (negPayload : Bytes) :
    Except Err (NegentropyThread × List Effect) := do
  let storage ← treeStorage txn treeId sub
  let (views, effects) := handleReconcile st.views sub.connId sub.subId storage negPayload
  let (added, views) := views.addStatelessView cfg sub.connId sub.subId sub treeId
  if added then return (⟨st.queries, views⟩, effects)
  else return (⟨st.queries.removeSub sub.connId sub.subId, views⟩,
    effects ++ [.notice sub.connId "too many concurrent NEG requests"])

/-- A NEG-OPEN that is served by a query, before its first slice; the query is put at address `p`. -/
def openMemory (txn : Db) (p : Nat) (st : NegentropyThread) (sub : Subscription) (negPayload : Bytes) :
    NegentropyThread × List Effect :=
  let (added, queries) := st.queries.addSub cfg txn sub p
  let effects := if added then [] else [Effect.notice sub.connId "too many concurrent REQs"]
  let (viewAdded, views) := st.views.addMemoryView cfg sub.connId sub.subId negPayload
  if viewAdded then (⟨queries, views⟩, effects)
  else (⟨queries.removeSub sub.connId sub.subId, views⟩,
    effects ++ [.notice sub.connId "too many concurrent NEG requests"])

/-- A NEG-MSG. -/
def handleNegMsg (txn : Db) (st : NegentropyThread) (connId : Nat) (subId : SubId) (negPayload : Bytes) :
    Except Err (NegentropyThread × List Effect) :=
  match st.views.findView connId subId with
  | none => .ok (st, [.negErr connId subId "closed: unknown subscription handle" none])
  | some (.memory view) =>
    if view.isSealed then
      let (views, effects) := handleReconcile st.views connId subId view.storageVector.toFinset negPayload
      .ok (⟨st.queries, views⟩, effects)
    else .ok (st, [.notice connId "negentropy error: got NEG-MSG before NEG-OPEN complete"])
  | some (.stateless sub treeId) => do
    let storage ← treeStorage txn treeId sub
    let (views, effects) := handleReconcile st.views connId subId storage negPayload
    return (⟨st.queries, views⟩, effects)

/-- One message of `runNegentropy`. -/
def handleNegentropy (txn : Db) (pauses : List DBQuery.Pause) (p : Nat) (st : NegentropyThread) :
    MsgNegentropy → Except Err (NegentropyThread × List Effect)
  | .negOpen sub filterStr negPayload =>
    match treeFor txn filterStr with
    | some treeId => openTree cfg txn treeId st sub negPayload
    | none => do
      let (st, effects) := openMemory cfg txn p st sub negPayload
      let (st, more) ← processQueries cfg txn pauses st
      return (st, effects ++ more)
  | .negMsg connId subId negPayload => handleNegMsg txn st connId subId negPayload
  | .negClose connId subId =>
    .ok (⟨st.queries.removeSub connId subId, st.views.removeView connId subId⟩, [])
  | .closeConn connId => .ok (⟨st.queries.closeConn connId, st.views.closeConn connId⟩, [])

end

end Strfry
