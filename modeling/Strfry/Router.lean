import Strfry.Ingester
import Strfry.Lib.Assoc

/-!
# The router's configuration

`strfry router` keeps a set of stream groups, each with its direction, filter, plugin commands,
urls and connections.  When the config file changes, `reconcileConfig` goes through the groups of
the new file in key order and calls `StreamGroup::configure` on each, which reads a field of the
spec, assigns it and goes on to the next.  An exception leaves what was assigned before it: the
functions here run in `EStateM`, where the state survives a throw.

Outside the repository and so parameters: `loadRawTaoConfig`, whose result a reload takes as its
argument, the clock `curr_time_us`, a function from the number of the reading, and the sockets of
uWebSockets, which open and close at any time.  A socket carries what it was opened with.
-/

namespace Strfry

/-- Run a fallible step that touches no state. -/
def throws {σ α : Type} (x : Except Err α) : EStateM Err σ α := fun s =>
  match x with
  | .ok a => .ok a s
  | .error e => .error e s

/-- `find(key)` of a value that need not be an object. -/
def Json.findKey (v : Json) (key : Bytes) : Except Err (Option Json) :=
  match v with
  | .object kvs => .ok ((kvs.find? fun kv => kv.1 == key).map Prod.snd)
  | _ => .error .badVariant

/-- `get_object`. -/
def Json.getObject : Json → Except Err (List (Bytes × Json))
  | .object kvs => .ok kvs
  | _ => .error .badVariant

/-- A socket: its address, and the direction and filter `connOpen` used. -/
structure WebSocket where
  id : Nat
  dir : Bytes
  filter : Json

structure Connection where
  ws : Option WebSocket := none
  started : Nat := 0

structure StreamGroup where
  dir : Bytes := []
  filterStr : Bytes := []
  pluginDownCmd : Bytes := []
  pluginUpCmd : Bytes := []
  urls : List Bytes := []
  /-- url -> Connection -/
  conns : Assoc Bytes Connection := .empty
  filter : Json := .null
  filterCompiled : NostrFilterGroup := {}

/-- Arithmetic of `uint64_t`. -/
def wrap64 (n : Nat) : Nat := n % 2 ^ 64

namespace StreamGroup

/-- One turn of `tryConnects`; `now` and `later` are the two readings of the clock. -/
def tryConnect (connectionTimeoutUs now later : Nat) (conns : Assoc Bytes Connection) (url : Bytes) :
    Assoc Bytes Connection :=
  let conns := conns.tryEmplace url {}
  match conns.find? url with
  | none => conns
  | some c =>
    if c.ws.isNone ∧ wrap64 (c.started + wrap64 (connectionTimeoutUs * 2)) < now then
      -- the hub is told to connect, and calls `connOpen` or nothing later
      conns.set url { c with started := later }
    else conns

/-- `tryConnects` on the urls from number `i` on. -/
def tryConnectsFrom (connectionTimeoutUs : Nat) (clock : Nat → Nat) :
    Nat → List Bytes → Assoc Bytes Connection → Assoc Bytes Connection
  | _, [], conns => conns
  | i, url :: urls, conns => tryConnectsFrom connectionTimeoutUs clock (i + 1) urls
      (tryConnect connectionTimeoutUs (clock (2 * i)) (clock (2 * i + 1)) conns url)

def tryConnects (connectionTimeoutUs : Nat) (clock : Nat → Nat) (g : StreamGroup) : StreamGroup :=
  { g with conns := tryConnectsFrom connectionTimeoutUs clock 0 g.urls g.conns }

/-- Disconnect any urls that were deleted. -/
def dropDeleted (g : StreamGroup) : StreamGroup :=
  { g with conns := g.conns.retain g.urls }

/-- The direction of a spec. -/
def newDir (spec : Json) : Except Err Bytes := do
  let found ← spec.findKey (ascii "dir")
  let dirJson ← found.elim (.error (.herr "no dir field")) .ok
  dirJson.getString

/-- The filter of a spec, through its text. -/
def newFilter [TaoJson] (spec : Json) : Except Err Json := do
  match ← spec.findKey (ascii "filter") with
  | none => return .object []
  | some v =>
    match TaoJson.fromString (TaoJson.toString v) with
    | some json => return json
    | none => .error .badJson

/-- A plugin's command: the empty string if the spec has none. -/
def pluginCmd (spec : Json) (key : Bytes) : Except Err Bytes := do
  match ← spec.findKey key with
  | none => return []
  | some v => v.getString

def findUrls (spec : Json) : Except Err Json := do
  let found ← spec.findKey (ascii "urls")
  found.elim (.error (.herr "no urls field")) .ok

/-- The loop over the urls of the spec. -/
def pushUrls : List Json → EStateM Err StreamGroup Unit
  | [] => pure ()
  | v :: vs => do
    let url ← throws v.getString
    modify fun g => { g with urls := g.urls ++ [url] }
    pushUrls vs

/-- The connections, once every field is assigned. -/
def reconnect (connectionTimeoutUs : Nat) (clock : Nat → Nat) (needsReconnect : Bool)
    (g : StreamGroup) : StreamGroup :=
  let g := dropDeleted g
  let g := if needsReconnect then { g with conns := .empty } else g
  tryConnects connectionTimeoutUs clock g

/-- The last part of `configure`: the urls and the connections. -/
def configureUrls (connectionTimeoutUs : Nat) (clock : Nat → Nat) (needsReconnect : Bool)
    (spec : Json) : EStateM Err StreamGroup Unit := do
  let urlsJson ← throws (findUrls spec)
  modify fun g => { g with urls := [] }
  let arr ← throws urlsJson.getArray
  pushUrls arr
  modify (reconnect connectionTimeoutUs clock needsReconnect)

/-- The part of `configure` from the plugins on. -/
def configurePlugins (connectionTimeoutUs : Nat) (clock : Nat → Nat) (needsReconnect : Bool)
    (spec : Json) : EStateM Err StreamGroup Unit := do
  modify fun g => { g with pluginDownCmd := [], pluginUpCmd := [] }
  let pluginDown ← throws (pluginCmd spec (ascii "pluginDown"))
  modify fun g => { g with pluginDownCmd := pluginDown }
  let pluginUp ← throws (pluginCmd spec (ascii "pluginUp"))
  modify fun g => { g with pluginUpCmd := pluginUp }
  configureUrls connectionTimeoutUs clock needsReconnect spec

def configure [Golpe] [TaoJson] (cfg : Cfg) (connectionTimeoutUs : Nat) (clock : Nat → Nat)
    (spec : Json) : EStateM Err StreamGroup Unit := do
  let newDir ← throws (newDir spec)
  let needsReconnect := decide (newDir ≠ (← get).dir)
  modify fun g => { g with dir := newDir }
  let newFilter ← throws (newFilter spec)
  let newFilterStr := TaoJson.toString newFilter
  let needsReconnect := needsReconnect || decide (newFilterStr ≠ (← get).filterStr)
  modify fun g => { g with filterStr := newFilterStr }
  let filterCompiled ← throws (NostrFilterGroup.unwrapped newFilter cfg.relayMaxFilterLimit)
  modify fun g => { g with filterCompiled := filterCompiled, filter := newFilter }
  configurePlugins connectionTimeoutUs clock needsReconnect spec

/-- A socket for `url` is open. -/
def connOpen (g : StreamGroup) (url : Bytes) (id : Nat) : StreamGroup :=
  match g.conns.find? url with
  | none => g
  | some c =>
    -- a second socket is closed
    if c.ws.isSome then g
    else { g with conns := g.conns.set url { c with ws := some ⟨id, g.dir, g.filter⟩ } }

def connClose (g : StreamGroup) (url : Bytes) (id : Nat) : StreamGroup :=
  match g.conns.find? url with
  | none => g
  | some c =>
    if c.ws.map WebSocket.id = some id then { g with conns := g.conns.set url {} } else g

end StreamGroup

structure Router where
  connectionTimeoutUs : Nat := 0
  /-- group name -> StreamGroup -/
  streamGroups : Assoc Bytes StreamGroup := .empty
  firstConfigLoadSuccess : Bool := false

namespace Router

/-- The timeout a config asks for. -/
def configTimeout (routerConfig : Json) : Except Err Nat := do
  match ← routerConfig.findKey (ascii "connectionTimeout") with
  | none => return 20000000
  | some v => return wrap64 ((← v.getUnsigned) * 1000000)

def streams (routerConfig : Json) : Except Err (List (Bytes × Json)) := do
  (← routerConfig.atKey (ascii "streams")).getObject

/-- A config file as `loadRawTaoConfig` returns it: an object's keys are those of a `std::map`. -/
structure Config where
  json : Json
  keys : ∀ kvs, streams json = .ok kvs → (kvs.map Prod.fst).Nodup

variable [Golpe] [TaoJson]

/-- One turn of the loop over the groups of the config. -/
def configureGroup (cfg : Cfg) (clock : Bytes → Nat → Nat) (groupName : Bytes) (spec : Json) :
    EStateM Err Router Unit := fun s =>
  let streamGroups := s.streamGroups.tryEmplace groupName {}
  match streamGroups.find? groupName with
  | none => .error .outOfRange s
  | some g =>
    match StreamGroup.configure cfg s.connectionTimeoutUs (clock groupName) spec g with
    | .ok _ g => .ok () { s with streamGroups := streamGroups.set groupName g }
    | .error e g => .error e { s with streamGroups := streamGroups.set groupName g }

def configureGroups (cfg : Cfg) (clock : Bytes → Nat → Nat) :
    List (Bytes × Json) → EStateM Err Router Unit
  | [] => pure ()
  | kv :: kvs => do
    configureGroup cfg clock kv.1 kv.2
    configureGroups cfg clock kvs

/-- Remove streamGroups if they were deleted from config. -/
def removeDeleted (kvs : List (Bytes × Json)) (s : Router) : Router :=
  { s with streamGroups := s.streamGroups.retain (kvs.map Prod.fst) }

/-- The body of the `try`. -/
def applyConfig (cfg : Cfg) (clock : Bytes → Nat → Nat) (loaded : Except Err Config) :
    EStateM Err Router Unit := do
  let routerConfig ← throws loaded
  let newTimeoutUs ← throws (configTimeout routerConfig.json)
  modify fun s => { s with connectionTimeoutUs := newTimeoutUs }
  let kvs ← throws (streams routerConfig.json)
  configureGroups cfg clock kvs
  modify (removeDeleted kvs)

/-- How a reload ends. -/
inductive Outcome where
  | loaded (s : Router)
  /-- the failure is logged -/
  | failed (s : Router)
  /-- `exit(1)` -/
  | exited

def reconcileConfig (cfg : Cfg) (clock : Bytes → Nat → Nat) (loaded : Except Err Config)
    (s : Router) : Outcome :=
  match applyConfig cfg clock loaded s with
  | .ok _ s => .loaded { s with firstConfigLoadSuccess := true }
  | .error _ s => if s.firstConfigLoadSuccess then .failed s else .exited

/-- What the router does: reloads, the sockets, and one group's turn of the reconnection timer. -/
inductive Action where
  | reload (clock : Bytes → Nat → Nat) (loaded : Except Err Config)
  | connOpen (groupName url : Bytes) (id : Nat)
  | connClose (groupName url : Bytes) (id : Nat)
  | tryConnects (groupName : Bytes) (clock : Nat → Nat)

/-- Change a group that is there. -/
def withGroup (s : Router) (groupName : Bytes) (f : StreamGroup → StreamGroup) : Router :=
  match s.streamGroups.find? groupName with
  | none => s
  | some g => { s with streamGroups := s.streamGroups.set groupName (f g) }

/-- The router after an action; nothing comes after `exit`. -/
def act (cfg : Cfg) (s : Router) : Action → Option Router
  | .reload clock loaded =>
    match reconcileConfig cfg clock loaded s with
    | .loaded s' => some s'
    | .failed s' => some s'
    | .exited => none
  | .connOpen groupName url id => some (s.withGroup groupName fun g => g.connOpen url id)
  | .connClose groupName url id => some (s.withGroup groupName fun g => g.connClose url id)
  | .tryConnects groupName clock =>
    some (s.withGroup groupName fun g => g.tryConnects s.connectionTimeoutUs clock)

end Router

end Strfry
