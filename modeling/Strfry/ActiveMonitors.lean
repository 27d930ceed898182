import Strfry.Subscription
import Strfry.Lib.Assoc

/-!
# Live subscriptions

`ActiveMonitors` (`ActiveMonitors.h`) finds the subscriptions an incoming event is for.
A `Monitor` lives at an address; its filters are registered in five lookup structures,
each filter under the values of one of its fields only (`lookupKeys`).  A registered
filter is named by a pointer, that is the address of its monitor and its index there.

`LookupKey` names a place of the five structures, so that installing, uninstalling and
probing are written once.  The address of a new monitor is chosen by the allocator: it is
an argument of `addSub`, different from the addresses in use.

Following a pointer to a monitor that is gone is `Err.undefined`.
-/

namespace Strfry

/-! ## `EphemeralSubTracker` -/

structure EphemeralSubTracker where
  kindRefcounts : Assoc Nat Nat := .empty
  catchAllCount : Nat := 0

namespace EphemeralSubTracker

def hasSubscribersForKind (t : EphemeralSubTracker) (kind : Nat) : Bool :=
  t.catchAllCount > 0 || (t.kindRefcounts.find? kind).isSome

def addKind (t : EphemeralSubTracker) (kind : Nat) : EphemeralSubTracker :=
  let counts := t.kindRefcounts.tryEmplace kind 0
  { t with kindRefcounts := counts.set kind ((counts.find? kind).getD 0 + 1) }

def removeKind (t : EphemeralSubTracker) (kind : Nat) : EphemeralSubTracker :=
  match t.kindRefcounts.find? kind with
  | none => t
  | some n =>
    if n - 1 = 0 then { t with kindRefcounts := t.kindRefcounts.erase kind }
    else { t with kindRefcounts := t.kindRefcounts.set kind (n - 1) }

def addCatchAll (t : EphemeralSubTracker) : EphemeralSubTracker :=
  { t with catchAllCount := t.catchAllCount + 1 }

def removeCatchAll (t : EphemeralSubTracker) : EphemeralSubTracker :=
  if t.catchAllCount > 0 then { t with catchAllCount := t.catchAllCount - 1 } else t

end EphemeralSubTracker

/-! ## The lookup structures -/

/-- A place of the lookup structures: a key of one of the four maps, or `allOthers`. -/
inductive LookupKey where
  | id (b : Bytes)
  | author (b : Bytes)
  | tag (tagSpec : Bytes)
  | kind (kind : Nat)
  | other
deriving DecidableEq, Repr

/-- `NostrFilter *`: the monitor's address and the index of the filter. -/
abbrev FilterPtr := Nat × Nat

structure MonitorItem where
  mon : Nat
  latestEventId : Nat
deriving DecidableEq

abbrev MonitorSet := Assoc FilterPtr MonitorItem

/-- `getTagSpec`. -/
def getTagSpec (k : Byte) (val : Bytes) : Bytes := k :: val

/-- The places a filter is registered at: ids before authors before tags before kinds. -/
def NostrFilter.lookupKeys (f : NostrFilter) : List LookupKey :=
  match f.ids, f.authors, f.tags, f.kinds with
  | some ids, _, _, _ => ids.elems.map .id
  | none, some authors, _, _ => authors.elems.map .author
  | none, none, t :: ts, _ => (t :: ts).flatMap fun t => t.2.elems.map fun val => .tag (getTagSpec t.1 val)
  | none, none, [], some kinds => kinds.items.map .kind
  | none, none, [], none => [.other]

/-- The turns of the loops of `installLookups` and `uninstallLookups` for the monitor at `m`. -/
def registrations (m : Nat) (filters : List NostrFilter) : List (LookupKey × FilterPtr) :=
  filters.zipIdx.flatMap fun fi => fi.1.lookupKeys.map fun k => (k, (m, fi.2))

/-- The `Bytes32` constructor, for the keys that are one. -/
def LookupKey.check : LookupKey → Except Err Unit
  | .id b => throwIf (b.length ≠ 32) (.herr "invalid length for Bytes32")
  | .author b => throwIf (b.length ≠ 32) (.herr "invalid length for Bytes32")
  | _ => .ok ()

structure ActiveMonitors where
  /-- connId -> subId -> address of the Monitor -/
  conns : Assoc Nat (Assoc SubId Nat) := .empty
  monitors : Assoc Nat Subscription := .empty
  allIds : Assoc Bytes MonitorSet := .empty
  allAuthors : Assoc Bytes MonitorSet := .empty
  allTags : Assoc Bytes MonitorSet := .empty
  allKinds : Assoc Nat MonitorSet := .empty
  allOthers : MonitorSet := .empty

namespace ActiveMonitors

/-- Register in a map: `try_emplace` the set, then `try_emplace` the filter in it. -/
def emplaceIn {κ : Type} [DecidableEq κ] (m : Assoc κ MonitorSet) (key : κ) (f : FilterPtr)
    (item : MonitorItem) : Assoc κ MonitorSet :=
  let m := m.tryEmplace key .empty
  m.set key (((m.find? key).getD .empty).tryEmplace f item)

/-- Take a filter out of the set `at(key)`, and the set out of the map when it is empty. -/
def eraseIn {κ : Type} [DecidableEq κ] (m : Assoc κ MonitorSet) (key : κ) (f : FilterPtr) :
    Except Err (Assoc κ MonitorSet) :=
  match m.find? key with
  | none => .error .outOfRange
  | some monSet =>
    let monSet := monSet.erase f
    .ok (if monSet.isEmpty then m.erase key else m.set key monSet)

/-- One turn of `installLookups`. -/
def emplace (am : ActiveMonitors) (k : LookupKey) (f : FilterPtr) (item : MonitorItem) :
    ActiveMonitors :=
  match k with
  | .id b => { am with allIds := emplaceIn am.allIds b f item }
  | .author b => { am with allAuthors := emplaceIn am.allAuthors b f item }
  | .tag b => { am with allTags := emplaceIn am.allTags b f item }
  | .kind n => { am with allKinds := emplaceIn am.allKinds n f item }
  | .other => { am with allOthers := am.allOthers.tryEmplace f item }

/-- One turn of `uninstallLookups`. -/
def remove (am : ActiveMonitors) (k : LookupKey) (f : FilterPtr) : Except Err ActiveMonitors :=
  match k with
  | .id b => (eraseIn am.allIds b f).map fun m => { am with allIds := m }
  | .author b => (eraseIn am.allAuthors b f).map fun m => { am with allAuthors := m }
  | .tag b => (eraseIn am.allTags b f).map fun m => { am with allTags := m }
  | .kind n => (eraseIn am.allKinds n f).map fun m => { am with allKinds := m }
  | .other => .ok { am with allOthers := am.allOthers.erase f }

/-- The set at a place. -/
def setAt (am : ActiveMonitors) : LookupKey → Option MonitorSet
  | .id b => am.allIds.find? b
  | .author b => am.allAuthors.find? b
  | .tag b => am.allTags.find? b
  | .kind n => am.allKinds.find? n
  | .other => some am.allOthers

/-- Assign the item of a filter in the set at a place. -/
def setItem (am : ActiveMonitors) (k : LookupKey) (f : FilterPtr) (item : MonitorItem) :
    ActiveMonitors :=
  match am.setAt k with
  | none => am
  | some monSet =>
    let monSet := monSet.set f item
    match k with
    | .id b => { am with allIds := am.allIds.set b monSet }
    | .author b => { am with allAuthors := am.allAuthors.set b monSet }
    | .tag b => { am with allTags := am.allTags.set b monSet }
    | .kind n => { am with allKinds := am.allKinds.set n monSet }
    | .other => { am with allOthers := monSet }

/-- What installing does to the tracker. -/
def track (tracker : EphemeralSubTracker) : LookupKey → EphemeralSubTracker
  | .kind n => if isEphemeralKind n then tracker.addKind n else tracker
  | .other => tracker.addCatchAll
  | _ => tracker

/-- What uninstalling does to the tracker. -/
def untrack (tracker : EphemeralSubTracker) : LookupKey → EphemeralSubTracker
  | .kind n => if isEphemeralKind n then tracker.removeKind n else tracker
  | .other => tracker.removeCatchAll
  | _ => tracker

/-- The structures, and the tracker they report to. -/
abbrev State := ActiveMonitors × EphemeralSubTracker

def installTurn (m currEventId : Nat) (st : State) (r : LookupKey × FilterPtr) : Except Err State := do
  let _ ← r.1.check
  return (st.1.emplace r.1 r.2 ⟨m, currEventId⟩, track st.2 r.1)

def installLookups (st : State) (m : Nat) (sub : Subscription) (currEventId : Nat) : Except Err State :=
  (registrations m sub.filterGroup.filters).foldlM (installTurn m currEventId) st

def uninstallTurn (st : State) (r : LookupKey × FilterPtr) : Except Err State := do
  let _ ← r.1.check
  let am ← st.1.remove r.1 r.2
  return (am, untrack st.2 r.1)

def uninstallLookups (st : State) (m : Nat) (sub : Subscription) : Except Err State :=
  (registrations m sub.filterGroup.filters).foldlM uninstallTurn st

def findMonitor (am : ActiveMonitors) (connId : Nat) (subId : SubId) : Option Nat := do
  let f1 ← am.conns.find? connId
  f1.find? subId

/-- `*m`. -/
def deref (am : ActiveMonitors) (m : Nat) : Except Err Subscription :=
  match am.monitors.find? m with
  | none => .error .undefined
  | some sub => .ok sub

/-- `conns[connId].erase(subId)`, and the connection with it when it has no monitor left. -/
def eraseMonitor (am : ActiveMonitors) (connId : Nat) (subId : SubId) (m : Nat) : ActiveMonitors :=
  let connMonitors := ((am.conns.find? connId).getD .empty).erase subId
  { am with
    conns := if connMonitors.isEmpty then am.conns.erase connId else am.conns.set connId connMonitors
    monitors := am.monitors.erase m }

def removeSub (st : State) (connId : Nat) (subId : SubId) : Except Err State :=
  match st.1.findMonitor connId subId with
  | none => .ok st
  | some m => do
    let sub ← st.1.deref m
    let st ← uninstallLookups st m sub
    return (st.1.eraseMonitor connId subId m, st.2)

/-- Put a new monitor at address `m`. -/
def insertMonitor (am : ActiveMonitors) (sub : Subscription) (m : Nat) : ActiveMonitors :=
  let conns := am.conns.tryEmplace sub.connId .empty
  { am with
    conns := conns.set sub.connId (((conns.find? sub.connId).getD .empty).tryEmplace sub.subId m)
    monitors := am.monitors.tryEmplace m sub }

/-- The rest of `addSub` once an existing monitor is removed. -/
def addNew (cfg : Cfg) (st : State) (sub : Subscription) (currEventId m : Nat) :
    Except Err (Bool × State) :=
  let conns := st.1.conns.tryEmplace sub.connId .empty
  let am := { st.1 with conns := conns }
  if ((conns.find? sub.connId).getD .empty).size ≥ cfg.relayMaxSubsPerConnection then
    .ok (false, am, st.2)
  else do
    let st ← installLookups (am.insertMonitor sub m, st.2) m sub currEventId
    return (true, st)

/-- `addSub`; the new monitor is put at address `m`. -/
def addSub (cfg : Cfg) (st : State) (sub : Subscription) (currEventId m : Nat) :
    Except Err (Bool × State) := do
  let _ ← throwIf (sub.latestEventId ≠ currEventId) (.herr "sub not up to date")
  let st ← removeSub st sub.connId sub.subId
  addNew cfg st sub currEventId m

/-- The loop of `closeConn` over the monitors of a connection. -/
def closeMonitors : List (SubId × Nat) → State → Except Err State
  | [], st => .ok st
  | (_, m) :: rest, st => do
    let sub ← st.1.deref m
    let st ← uninstallLookups st m sub
    closeMonitors rest st

def closeConn (st : State) (connId : Nat) : Except Err State :=
  match st.1.conns.find? connId with
  | none => .ok st
  | some connMonitors => do
    let st ← closeMonitors connMonitors.entries st
    return ({ st.1 with
      conns := st.1.conns.erase connId
      monitors := connMonitors.entries.foldl (fun ms e => ms.erase e.2) st.1.monitors }, st.2)

/-! ## `process` -/

abbrev RecipientList := List (Nat × SubId)

/-- One turn of `processMonitorSet`. -/
def visit (levId : Nat) (ev : PackedEventView) (k : LookupKey) (st : ActiveMonitors × RecipientList)
    (e : FilterPtr × MonitorItem) : Except Err (ActiveMonitors × RecipientList) :=
  if e.2.latestEventId ≥ levId then .ok st
  else do
    let sub ← st.1.deref e.2.mon
    if sub.latestEventId ≥ levId then return st
    else
      let am := st.1.setItem k e.1 { e.2 with latestEventId := levId }
      let fsub ← st.1.deref e.1.1
      match fsub.filterGroup.filters[e.1.2]? with
      | none => .error .undefined
      | some f =>
        if f.doesMatch ev then
          return ({ am with monitors := am.monitors.set e.2.mon { sub with latestEventId := levId } },
            st.2 ++ [(sub.connId, sub.subId)])
        else return (am, st.2)

def processMonitorSet (levId : Nat) (ev : PackedEventView) (k : LookupKey)
    (st : ActiveMonitors × RecipientList) (ms : MonitorSet) :
    Except Err (ActiveMonitors × RecipientList) :=
  ms.entries.foldlM (visit levId ev k) st

/-- The sets `processMonitorsExact` goes through for a key, or `allOthers`. -/
def exact (am : ActiveMonitors) : LookupKey → List LookupKey
  | .id b => (am.allIds.exact b).map .id
  | .author b => (am.allAuthors.exact b).map .author
  | .tag b => (am.allTags.exact b).map .tag
  | .kind n => (am.allKinds.exact n).map .kind
  | .other => [.other]

def processKey (levId : Nat) (ev : PackedEventView) (st : ActiveMonitors × RecipientList)
    (k : LookupKey) : Except Err (ActiveMonitors × RecipientList) :=
  (st.1.exact k).foldlM (fun st k => processMonitorSet levId ev k st ((st.1.setAt k).getD .empty)) st

/-- What an event is looked up under, in order. -/
def probes (ev : PackedEventView) : List LookupKey :=
  [.id ev.id, .author ev.pubkey] ++ (ev.tags.map fun t => .tag (getTagSpec t.1 t.2)) ++
    [.kind ev.kind, .other]

/-- `process`: the recipients of an event. -/
def process (am : ActiveMonitors) (levId : Nat) (ev : PackedEventView) :
    Except Err (ActiveMonitors × RecipientList) :=
  (probes ev).foldlM (processKey levId ev) (am, [])

end ActiveMonitors

end Strfry
