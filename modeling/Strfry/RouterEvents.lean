import Strfry.CmdStream
import Strfry.NegentropyFilterCache
import Strfry.RouterSpec

/-!
# What the router sends and takes

The other half of `strfry router` (`cmd_router.cpp`): `handleDBChange` visits the events stored since
the last look and offers each to every group, whose open connections get it when the group sends, its
filter matches and its plugin accepts; `incomingEvent` takes what a connection brings.  Between the
visits the groups change as `Router.act` has it.

An event's JSON is read when the first group wants it, outside any `try`: an exception there ends the
process.  Two theorems: `sent_once`, what is sent over a run, and `handleDBChange_fails_iff`, when the
process ends.
-/

namespace Strfry

namespace RouterEvents

/-- The plugins of a group. -/
structure Plugins where
  pluginDown : Option PluginEventSifter.RunningPlugin := none
  pluginUp : Option PluginEventSifter.RunningPlugin := none

/-- A message that is sent for an event. -/
structure Sent where
  groupName : Bytes
  url : Bytes
  ws : Nat
  levId : Nat
  msg : Bytes

/-- The JSON of the event, and the frame, once a group wanted it. -/
structure Response where
  responseStr : Bytes
  evJson : Json

/-- What the groups share during the visit to an event. -/
structure Turn where
  response : Option Response := none
  plugins : Assoc Bytes Plugins
  sent : List Sent := []

/-- A visit, with the groups as they were and the event's JSON. -/
structure Visit where
  ev : Nat × PackedEventView
  groups : Assoc Bytes StreamGroup
  json : Except Err Bytes
  sent : List Sent

structure State where
  router : Router := {}
  plugins : Assoc Bytes Plugins := .empty
  currEventId : Nat
  /-- the visits made -/
  log : List Visit := []
  /-- given to the writer -/
  written : List Json := []

def getPlugins (plugins : Assoc Bytes Plugins) (groupName : Bytes) : Plugins := (plugins.find? groupName).getD {}

def setPlugins (plugins : Assoc Bytes Plugins) (groupName : Bytes) (p : Plugins) : Assoc Bytes Plugins :=
  (plugins.tryEmplace groupName {}).set groupName p

/-- Every open connection of a group is sent the frame. -/
def sendAll (groupName : Bytes) (g : StreamGroup) (levId : Nat) (msg : Bytes) : List Sent :=
  g.conns.entries.filterMap fun e => e.2.ws.map fun ws => ⟨groupName, e.1, ws.id, levId, msg⟩

/-- The text of a refusal names the event. -/
def logBlocked (okMsg : Bytes) (evJson : Json) : Except Err Unit :=
  if okMsg = [] then .ok ()
  else do
    let _ ← (← evJson.atKey (ascii "id")).getString
    return ()

section
variable [Zstd] [TaoJson] (cfg : Cfg) (os : PluginEventSifter.Os)

/-- The event is read for the first group that wants it. -/
def readResponse (txn : Db) (levId : Nat) (response : Option Response) : Except Err Response :=
  match response with
  | some r => .ok r
  | none => do
    let evStr ← getEventJson cfg txn levId
    let evJson ← parseJson evStr
    return ⟨CmdStream.eventMsg evStr, evJson⟩

/-- `outgoingEvent`; `none` when the plugin does not answer. -/
def outgoingEvent (txn : Db) (ev : Nat × PackedEventView) (groupName : Bytes) (g : StreamGroup) (t : Turn) :
    Option (Except Err Turn) :=
  if g.dir = ascii "down" then some (.ok t)
  else if !g.filterCompiled.doesMatch ev.2 then some (.ok t)
  else
    match readResponse cfg txn ev.1 t.response with
    | .error e => some (.error e)
    | .ok r =>
      let p := getPlugins t.plugins groupName
      (PluginEventSifter.acceptEvent os p.pluginUp g.pluginUpCmd r.evJson .stored [] []).map
        fun (res, okMsg, pluginUp) =>
          let t := { t with
            response := some r
            plugins := setPlugins t.plugins groupName { p with pluginUp := pluginUp } }
          if res = .accept then .ok { t with sent := t.sent ++ sendAll groupName g ev.1 r.responseStr }
          else (logBlocked okMsg r.evJson).map fun _ => t

/-- The loop over the groups. -/
def offerAll (txn : Db) (ev : Nat × PackedEventView) :
    List (Bytes × StreamGroup) → Turn → Option (Except Err Turn)
  | [], t => some (.ok t)
  | (groupName, g) :: groups, t =>
    match outgoingEvent cfg os txn ev groupName g t with
    | none => none
    | some (.error e) => some (.error e)
    | some (.ok t) => offerAll txn ev groups t

/-- One event of the database. -/
def onVisit (txn : Db) (s : State) (ev : Nat × PackedEventView) : Option (Except Err State) :=
  (offerAll cfg os txn ev s.router.streamGroups.entries { plugins := s.plugins }).map fun r =>
    r.map fun t => { s with
      currEventId := ev.1
      plugins := t.plugins
      log := s.log ++ [⟨ev, s.router.streamGroups, getEventJson cfg txn ev.1, t.sent⟩] }

def visitAll (txn : Db) : List (Nat × PackedEventView) → State → Option (Except Err State)
  | [], s => some (.ok s)
  | ev :: evs, s =>
    match onVisit cfg os txn s ev with
    | none => none
    | some (.error e) => some (.error e)
    | some (.ok s) => visitAll txn evs s

def handleDBChange (txn : Db) (s : State) : Option (Except Err State) :=
  visitAll cfg os txn (txn.event.foreachFrom (s.currEventId + 1)) s

/-- `incomingEvent`. -/
def incomingEvent (groupName url : Bytes) (g : StreamGroup) (evJson : Json) (s : State) : Option State :=
  if g.dir = ascii "up" then some s
  else
    let p := getPlugins s.plugins groupName
    (PluginEventSifter.acceptEvent os p.pluginDown g.pluginDownCmd evJson .stream url []).map
      fun (res, _, pluginDown) =>
        let s := { s with plugins := setPlugins s.plugins groupName { p with pluginDown := pluginDown } }
        if res = .accept then { s with written := s.written ++ [evJson] } else s

/-- `onMessage2`, where the group is still there.  What `handleIncomingMessage` throws is logged. -/
def onMessage (groupName url msg : Bytes) (s : State) : Option State :=
  match s.router.streamGroups.find? groupName with
  | none => some s
  | some g =>
    match TaoJson.fromString msg with
    | some (.array (msgType :: _ :: rest)) =>
      if msgType.isString "EVENT" then
        rest.head?.elim (some s) fun evJson => incomingEvent os groupName url g evJson s
      else some s
    | _ => some s

variable [Golpe] [StdSort]

/-- The router beside the database. -/
structure System where
  lev : LevState
  st : State

/-- One event of the process, or a transaction of any. -/
inductive Step (s : System) : System → Prop where
  | transact (lev : LevState) (h : LevStep cfg SparesMostRecent s.lev lev) : Step s { s with lev := lev }
  /-- a reload, a socket or the timer; a group that goes takes its plugins with it -/
  | act (a : Router.Action) (router : Router) (h : s.st.router.act cfg a = some router) :
      Step s { s with st := { s.st with router := router, plugins := s.st.plugins.retain router.streamGroups.keys } }
  | message (os : PluginEventSifter.Os) (groupName url msg : Bytes) (st : State)
      (h : onMessage os groupName url msg s.st = some st) : Step s { s with st := st }
  | dbChange (os : PluginEventSifter.Os) (st : State) (h : handleDBChange cfg os s.lev.db s.st = some (.ok st)) :
      Step s { s with st := st }

/-- The states a router reaches that began when `start` was the most recent levId. -/
inductive Reached (start : Nat) : System → Prop where
  | init (lev : LevState) (h : LevReached cfg SparesMostRecent lev) (hs : lev.db.getMostRecentLevId = start) :
      Reached start { lev := lev, st := { currEventId := start } }
  | step {s s' : System} (h : Reached start s) (hs : Step cfg s s') : Reached start s'

end

/-! ## One event -/

/-- The group sends, and its filter matches. -/
def Wants (g : StreamGroup) (ev : PackedEventView) : Prop :=
  g.dir ≠ ascii "down" ∧ g.filterCompiled.doesMatch ev = true

/-- What is sent at a visit is for open connections of groups that want the event, once for each, and
carries its JSON; a group that wants it and has no plugin sends it to all of them. -/
structure Visit.Fair (v : Visit) : Prop where
  sound : ∀ x ∈ v.sent, x.levId = v.ev.1 ∧ (∃ json, v.json = .ok json ∧ x.msg = CmdStream.eventMsg json) ∧
    ∃ g c ws, v.groups.find? x.groupName = some g ∧ Wants g v.ev.2 ∧ g.conns.find? x.url = some c ∧
      c.ws = some ws ∧ ws.id = x.ws
  once : (v.sent.map fun x => (x.groupName, x.url)).Nodup
  complete : ∀ groupName g url c ws, v.groups.find? groupName = some g → Wants g v.ev.2 → g.pluginUpCmd = [] →
    g.conns.find? url = some c → c.ws = some ws →
    ∃ x ∈ v.sent, x.groupName = groupName ∧ x.url = url ∧ x.ws = ws.id

theorem mem_sendAll {groupName : Bytes} {g : StreamGroup} {levId : Nat} {msg : Bytes} {x : Sent} :
    x ∈ sendAll groupName g levId msg ↔
      ∃ c ws, g.conns.find? x.url = some c ∧ c.ws = some ws ∧ x = ⟨groupName, x.url, ws.id, levId, msg⟩ := by
  unfold sendAll
  rw [List.mem_filterMap]
  constructor
  · rintro ⟨e, he, hx⟩
    obtain ⟨ws, hws, rfl⟩ := Option.map_eq_some_iff.mp hx
    exact ⟨e.2, ws, (g.conns.find?_eq_some_iff _ _).mpr he, hws, rfl⟩
  · rintro ⟨c, ws, hc, hws, hx⟩
    exact ⟨(x.url, c), (g.conns.find?_eq_some_iff _ _).mp hc, by rw [hws, hx]; rfl⟩

theorem sendAll_urls (groupName : Bytes) (g : StreamGroup) (levId : Nat) (msg : Bytes) :
    ((sendAll groupName g levId msg).map Sent.url).Nodup := by
  refine g.conns.nodup.sublist ?_
  unfold sendAll
  induction g.conns.entries with
  | nil => exact .refl _
  | cons e l ih =>
    rw [List.filterMap_cons, List.map_cons]
    cases e.2.ws with
    | none => exact ih.cons _
    | some ws => exact ih.cons_cons _

/-- Where the loop over the groups stands, after the groups `done`. -/
structure Offered [Zstd] [TaoJson] (cfg : Cfg) (txn : Db) (ev : Nat × PackedEventView)
    (done : List (Bytes × StreamGroup)) (t : Turn) : Prop where
  response : ∀ r, t.response = some r → ∃ json, getEventJson cfg txn ev.1 = .ok json ∧
    r.responseStr = CmdStream.eventMsg json ∧ TaoJson.fromString json = some r.evJson
  sound : ∀ x ∈ t.sent, x.levId = ev.1 ∧
    (∃ json, getEventJson cfg txn ev.1 = .ok json ∧ x.msg = CmdStream.eventMsg json) ∧
    ∃ g c ws, (x.groupName, g) ∈ done ∧ Wants g ev.2 ∧ g.conns.find? x.url = some c ∧ c.ws = some ws ∧ ws.id = x.ws
  once : (t.sent.map fun x => (x.groupName, x.url)).Nodup
  complete : ∀ groupName g url c ws, (groupName, g) ∈ done → Wants g ev.2 → g.pluginUpCmd = [] →
    g.conns.find? url = some c → c.ws = some ws →
    ∃ x ∈ t.sent, x.groupName = groupName ∧ x.url = url ∧ x.ws = ws.id

section
variable [Zstd] [TaoJson] {cfg : Cfg} {os : PluginEventSifter.Os} {txn : Db} {ev : Nat × PackedEventView}
  {done : List (Bytes × StreamGroup)} {t t' : Turn} {groupName : Bytes} {g : StreamGroup}

theorem Offered.start (plugins : Assoc Bytes Plugins) : Offered cfg txn ev [] { plugins := plugins } where
  response r h := by cases h
  sound x h := by cases h
  once := .nil
  complete _ _ _ _ _ h := by cases h

/-- The event's JSON, once it is read. -/
theorem readResponse_ok {r : Response} (h : Offered cfg txn ev done t)
    (hr : readResponse cfg txn ev.1 t.response = .ok r) : ∃ json, getEventJson cfg txn ev.1 = .ok json ∧
      r.responseStr = CmdStream.eventMsg json ∧ TaoJson.fromString json = some r.evJson := by
  unfold readResponse at hr
  cases hresp : t.response with
  | some r' =>
    rw [hresp] at hr
    cases hr
    exact h.response r hresp
  | none =>
    rw [hresp] at hr
    obtain ⟨json, hj, hr⟩ := bind_eq_ok.mp hr
    obtain ⟨v, hv, hr⟩ := bind_eq_ok.mp hr
    cases hr
    unfold parseJson at hv
    cases hf : TaoJson.fromString json with
    | none => rw [hf] at hv; cases hv
    | some v' =>
      rw [hf] at hv
      cases hv
      exact ⟨json, hj, rfl, hf⟩

/-- A group that is sent nothing. -/
theorem Offered.skip (h : Offered cfg txn ev done t) (hs : t'.sent = t.sent)
    (hresp : ∀ r, t'.response = some r → ∃ json, getEventJson cfg txn ev.1 = .ok json ∧
      r.responseStr = CmdStream.eventMsg json ∧ TaoJson.fromString json = some r.evJson)
    (hw : Wants g ev.2 → g.pluginUpCmd ≠ []) : Offered cfg txn ev (done ++ [(groupName, g)]) t' where
  response := hresp
  sound x hx := by
    rw [hs] at hx
    obtain ⟨hl, hj, g', c, ws, hd, hrest⟩ := h.sound x hx
    exact ⟨hl, hj, g', c, ws, List.mem_append_left _ hd, hrest⟩
  once := by rw [hs]; exact h.once
  complete name g' url c ws hd hwants hplugin hc hws := by
    rw [hs]
    obtain hd | hd := List.mem_append.mp hd
    · exact h.complete name g' url c ws hd hwants hplugin hc hws
    · cases List.mem_singleton.mp hd
      exact absurd hplugin (hw hwants)

/-- A group all of whose open connections are sent the frame. -/
theorem Offered.send (h : Offered cfg txn ev done t) (hname : groupName ∉ done.map Prod.fst) {r : Response}
    {json : Bytes} (hj : getEventJson cfg txn ev.1 = .ok json) (hr : r.responseStr = CmdStream.eventMsg json)
    (hs : t'.sent = t.sent ++ sendAll groupName g ev.1 r.responseStr) (hw : Wants g ev.2)
    (hresp : ∀ r, t'.response = some r → ∃ json, getEventJson cfg txn ev.1 = .ok json ∧
      r.responseStr = CmdStream.eventMsg json ∧ TaoJson.fromString json = some r.evJson) :
    Offered cfg txn ev (done ++ [(groupName, g)]) t' where
  response := hresp
  sound x hx := by
    rw [hs] at hx
    obtain hx | hx := List.mem_append.mp hx
    · obtain ⟨hl, hj, g', c, ws, hd, hrest⟩ := h.sound x hx
      exact ⟨hl, hj, g', c, ws, List.mem_append_left _ hd, hrest⟩
    · obtain ⟨c, ws, hc, hws, hx⟩ := mem_sendAll.mp hx
      rw [hx]
      exact ⟨rfl, ⟨json, hj, hr⟩, g, c, ws, by simp, hw, hc, hws, rfl⟩
  once := by
    rw [hs, List.map_append]
    refine List.nodup_append.mpr ⟨h.once, ?_, fun a ha b hb => ?_⟩
    · have hurls := sendAll_urls groupName g ev.1 r.responseStr
      exact List.Nodup.of_map Prod.snd (by rwa [List.map_map])
    · rintro rfl
      obtain ⟨x, hx, rfl⟩ := List.mem_map.mp ha
      obtain ⟨y, hy, he⟩ := List.mem_map.mp hb
      obtain ⟨-, -, g', c, ws, hd, -⟩ := h.sound x hx
      obtain ⟨c', ws', -, -, hy'⟩ := mem_sendAll.mp hy
      have hn : groupName = x.groupName := by
        rw [hy'] at he
        exact congrArg Prod.fst he
      exact hname (List.mem_map.mpr ⟨_, hd, hn.symm⟩)
  complete name g' url c ws hd hwants hplugin hc hws := by
    rw [hs]
    obtain hd | hd := List.mem_append.mp hd
    · obtain ⟨x, hx, hrest⟩ := h.complete name g' url c ws hd hwants hplugin hc hws
      exact ⟨x, List.mem_append_left _ hx, hrest⟩
    · cases List.mem_singleton.mp hd
      exact ⟨_, List.mem_append_right _ (mem_sendAll (x := ⟨groupName, url, ws.id, ev.1, r.responseStr⟩).mpr
        ⟨c, ws, hc, hws, rfl⟩), rfl, rfl, rfl⟩

/-- One group. -/
theorem Offered.outgoingEvent (h : Offered cfg txn ev done t) (hname : groupName ∉ done.map Prod.fst)
    (he : outgoingEvent cfg os txn ev groupName g t = some (.ok t')) :
    Offered cfg txn ev (done ++ [(groupName, g)]) t' := by
  unfold RouterEvents.outgoingEvent at he
  split at he
  · rename_i hd
    cases he
    exact h.skip rfl h.response fun hw => absurd hd hw.1
  · rename_i hd
    split at he
    · rename_i hm
      cases he
      refine h.skip rfl h.response fun hw => ?_
      rw [hw.2] at hm
      cases hm
    · rename_i hm
      have hw : Wants g ev.2 := ⟨hd, by simpa using hm⟩
      split at he
      · cases he
      · rename_i r hr
        obtain ⟨json, hj, hmsg, hparse⟩ := readResponse_ok h hr
        have hresp : ∀ r', some r = some r' → ∃ json, getEventJson cfg txn ev.1 = .ok json ∧
            r'.responseStr = CmdStream.eventMsg json ∧ TaoJson.fromString json = some r'.evJson := by
          intro r' hr'
          cases hr'
          exact ⟨json, hj, hmsg, hparse⟩
        obtain ⟨⟨res, okMsg, pluginUp⟩, hacc, he⟩ := Option.map_eq_some_iff.mp he
        dsimp only at he
        split at he
        · cases he
          exact h.send hname hj hmsg rfl hw hresp
        · rename_i hres
          have hplugin : g.pluginUpCmd ≠ [] := by
            intro hcmd
            rw [hcmd, PluginEventSifter.acceptEvent, if_pos rfl] at hacc
            cases hacc
            exact hres rfl
          cases hlog : logBlocked okMsg r.evJson with
          | error e => rw [hlog] at he; cases he
          | ok u =>
            rw [hlog] at he
            cases he
            exact h.skip rfl hresp fun _ => hplugin

omit [Zstd] [TaoJson] in
theorem notMem_of_nodup {groups : List (Bytes × StreamGroup)}
    (h : ((done ++ [(groupName, g)] ++ groups).map Prod.fst).Nodup) : groupName ∉ done.map Prod.fst := by
  rw [List.map_append, List.map_append] at h
  exact fun hin => (List.nodup_append.mp (List.nodup_append.mp h).1).2.2 groupName hin groupName (by simp) rfl

/-- The groups that are left. -/
theorem Offered.offerAll (groups : List (Bytes × StreamGroup)) (h : Offered cfg txn ev done t)
    (hnodup : ((done ++ groups).map Prod.fst).Nodup) (he : offerAll cfg os txn ev groups t = some (.ok t')) :
    Offered cfg txn ev (done ++ groups) t' := by
  induction groups generalizing done t with
  | nil =>
    cases he
    rwa [List.append_nil]
  | cons e groups ih =>
    obtain ⟨groupName, g⟩ := e
    rw [List.append_cons] at hnodup ⊢
    have hname := notMem_of_nodup hnodup
    unfold RouterEvents.offerAll at he
    split at he
    · cases he
    · cases he
    · rename_i t1 h1
      exact ih (h.outgoingEvent hname h1) hnodup he

/-- A visit is fair, and changes no group. -/
theorem onVisit_ok {s s' : State} (he : onVisit cfg os txn s ev = some (.ok s')) : ∃ v : Visit,
    v.Fair ∧ v.ev = ev ∧ s'.log = s.log ++ [v] ∧ s'.currEventId = ev.1 ∧ s'.router = s.router := by
  unfold onVisit at he
  obtain ⟨r, hr, he⟩ := Option.map_eq_some_iff.mp he
  cases r with
  | error e => cases he
  | ok t =>
    cases he
    have ho := (Offered.start s.plugins).offerAll s.router.streamGroups.entries s.router.streamGroups.nodup hr
    refine ⟨_, ⟨fun x hx => ?_, ho.once, fun groupName g url c ws hg => ?_⟩, rfl, rfl, rfl, rfl⟩
    · obtain ⟨hl, hj, g, c, ws, hd, hrest⟩ := ho.sound x hx
      exact ⟨hl, hj, g, c, ws, (Assoc.find?_eq_some_iff _ _ _).mpr hd, hrest⟩
    · exact ho.complete groupName g url c ws ((Assoc.find?_eq_some_iff _ _ _).mp hg)

end

/-! ## Runs -/

/-- The levIds visited. -/
def visits (log : List Visit) : List Nat := log.map fun v => v.ev.1

/-- What was sent for a url of a group. -/
def sentTo (log : List Visit) (groupName url : Bytes) : List Sent :=
  (log.flatMap Visit.sent).filter fun x => x.groupName = groupName ∧ x.url = url

structure Inv (start : Nat) (txn : Db) (s : State) : Prop where
  follows : txn.event.Follows start s.currEventId (visits s.log)
  fair : ∀ v ∈ s.log, v.Fair

/-- What is sent for a url was sent at a visit. -/
theorem mem_sentTo {log : List Visit} {groupName url : Bytes} {x : Sent} (h : x ∈ sentTo log groupName url) :
    (∃ v ∈ log, x ∈ v.sent) ∧ x.groupName = groupName ∧ x.url = url := by
  obtain ⟨hx, hp⟩ := List.mem_filter.mp h
  exact ⟨List.mem_flatMap.mp hx, of_decide_eq_true hp⟩

/-- One visit sends no more than one message to a url of a group. -/
theorem Visit.Fair.sentTo {v : Visit} (h : v.Fair) (groupName url : Bytes) :
    ((RouterEvents.sentTo [v] groupName url).map Sent.levId).Pairwise (· < ·) := by
  have honce : (RouterEvents.sentTo [v] groupName url).Pairwise
      fun a b => (a.groupName, a.url) ≠ (b.groupName, b.url) := by
    have hv : v.sent.Pairwise fun a b => (a.groupName, a.url) ≠ (b.groupName, b.url) := List.pairwise_map.mp h.once
    unfold RouterEvents.sentTo
    rw [List.flatMap_cons, List.flatMap_nil, List.append_nil]
    exact hv.filter _
  refine List.pairwise_map.mpr (honce.imp_of_mem fun {a b} ha hb hne => ?_)
  obtain ⟨-, ha, ha'⟩ := mem_sentTo ha
  obtain ⟨-, hb, hb'⟩ := mem_sentTo hb
  exact absurd (by rw [ha, ha', hb, hb']) hne

section
variable [Zstd] [TaoJson] {cfg : Cfg} {os : PluginEventSifter.Os} {txn : Db} {start : Nat} {s s' : State}

theorem Inv.visitAll {evs : List (Nat × PackedEventView)} (h : Inv start txn s)
    (hn : txn.event.foreachFrom (s.currEventId + 1) = evs) (he : visitAll cfg os txn evs s = some (.ok s')) :
    Inv start txn s' ∧ txn.event.foreachFrom (s'.currEventId + 1) = [] ∧ s'.router = s.router := by
  induction evs generalizing s with
  | nil =>
    cases he
    exact ⟨h, hn, rfl⟩
  | cons ev evs ih =>
    unfold RouterEvents.visitAll at he
    split at he
    · cases he
    · cases he
    · rename_i s1 h1
      obtain ⟨v, hfair, hev, hlog, hcurr, hrouter⟩ := onVisit_ok h1
      obtain ⟨hf, hrest⟩ := h.follows.visit hn
      have hi : Inv start txn s1 := by
        refine ⟨?_, fun w hw => ?_⟩
        · rw [hlog, hcurr, visits, List.map_append, List.map_singleton, hev]
          exact hf
        · rw [hlog] at hw
          obtain hw | hw := List.mem_append.mp hw
          · exact h.fair w hw
          · rwa [List.mem_singleton.mp hw]
      obtain ⟨hi', hend, hr⟩ := ih hi (by rw [hcurr]; exact hrest) he
      exact ⟨hi', hend, hr.trans hrouter⟩

omit [Zstd] [TaoJson] in
theorem Inv.of_same (h : Inv start txn s) (hc : s'.currEventId = s.currEventId) (hl : s'.log = s.log) :
    Inv start txn s' where
  follows := by rw [hc, hl]; exact h.follows
  fair := by rw [hl]; exact h.fair

omit [Zstd] in
/-- A message changes the plugin and the writer's events only. -/
theorem onMessage_same {groupName url msg : Bytes} (he : onMessage os groupName url msg s = some s') :
    s'.currEventId = s.currEventId ∧ s'.log = s.log := by
  unfold onMessage at he
  split at he
  · cases he
    exact ⟨rfl, rfl⟩
  · rename_i g hg
    split at he
    · rename_i msgType _ rest _
      split at he
      · cases rest with
        | nil =>
          cases he
          exact ⟨rfl, rfl⟩
        | cons evJson rest =>
          change incomingEvent os groupName url g evJson s = some s' at he
          unfold incomingEvent at he
          split at he
          · cases he
            exact ⟨rfl, rfl⟩
          · obtain ⟨⟨res, okMsg, pluginDown⟩, -, he⟩ := Option.map_eq_some_iff.mp he
            dsimp only at he
            split at he
            · cases he
              exact ⟨rfl, rfl⟩
            · cases he
              exact ⟨rfl, rfl⟩
      · cases he
        exact ⟨rfl, rfl⟩
    · cases he
      exact ⟨rfl, rfl⟩

variable [Golpe] [StdSort]

theorem Reached.inv {s : System} (h : Reached cfg start s) : LevInv s.lev ∧ Inv start s.lev.db s.st := by
  induction h with
  | init lev h hs =>
    subst hs
    exact ⟨.reached h, .init lev.db.event, fun v hv => by cases hv⟩
  | @step s s' _ hs ih =>
    obtain ⟨hl, hi⟩ := ih
    cases hs with
    | transact lev h =>
      obtain ⟨hl', hev⟩ := hl.step h
      exact ⟨hl', hi.follows.advance ⟨hev.lastId, hev.rows⟩, hi.fair⟩
    | act a router h => exact ⟨hl, hi.of_same rfl rfl⟩
    | message os groupName url msg st h =>
      obtain ⟨hc, hlog⟩ := onMessage_same h
      exact ⟨hl, hi.of_same hc hlog⟩
    | dbChange os st h => exact ⟨hl, (hi.visitAll rfl h).1⟩

end

/-! ## When the process ends -/

section
variable [Zstd] [TaoJson] {cfg : Cfg} {os : PluginEventSifter.Os} {txn : Db} {ev : Nat × PackedEventView}
  {done : List (Bytes × StreamGroup)} {t t' : Turn} {groupName : Bytes} {g : StreamGroup}

/-- The event's JSON cannot be read, or does not parse. -/
def Unreadable (cfg : Cfg) (txn : Db) (levId : Nat) : Prop :=
  ∀ json, getEventJson cfg txn levId = .ok json → TaoJson.fromString json = none

/-- What parses has an id. -/
def Named (cfg : Cfg) (txn : Db) (levId : Nat) : Prop :=
  ∀ json v, getEventJson cfg txn levId = .ok json → TaoJson.fromString json = some v →
    ∃ id, v.atKey (ascii "id") = .ok (.string id)

theorem readResponse_fails (h : Offered cfg txn ev done t) :
    (∃ e, readResponse cfg txn ev.1 t.response = .error e) ↔ Unreadable cfg txn ev.1 := by
  unfold readResponse
  cases hresp : t.response with
  | some r =>
    obtain ⟨json, hj, -, hparse⟩ := h.response r hresp
    refine iff_of_false (fun ⟨e, he⟩ => by cases he) fun hu => ?_
    cases (hu json hj).symm.trans hparse
  | none =>
    cases hj : getEventJson cfg txn ev.1 with
    | error e => exact iff_of_true ⟨e, rfl⟩ fun json hj' => by rw [hj] at hj'; cases hj'
    | ok json =>
      cases hf : TaoJson.fromString json with
      | none =>
        refine iff_of_true ⟨.badJson, ?_⟩ fun json' hj' => ?_
        · show (do let evJson ← parseJson json; _) = Except.error Err.badJson
          rw [parseJson, hf]
          rfl
        · rw [hj] at hj'
          cases hj'
          exact hf
      | some v =>
        refine iff_of_false (fun ⟨e, he⟩ => ?_) fun hu => ?_
        · change (do let evJson ← parseJson json; _) = Except.error e at he
          rw [parseJson, hf] at he
          cases he
        · cases (hu json hj).symm.trans hf

omit [Zstd] [TaoJson] in
theorem logBlocked_ok {okMsg id : Bytes} {v : Json} (h : v.atKey (ascii "id") = .ok (.string id)) :
    logBlocked okMsg v = .ok () := by
  unfold logBlocked
  split
  · rfl
  · rw [h]
    rfl

theorem outgoingEvent_fails (h : Offered cfg txn ev done t) (hid : Named cfg txn ev.1) {r : Except Err Turn}
    (he : outgoingEvent cfg os txn ev groupName g t = some r) :
    (∃ e, r = .error e) ↔ Wants g ev.2 ∧ Unreadable cfg txn ev.1 := by
  unfold outgoingEvent at he
  split at he
  · rename_i hd
    cases he
    exact iff_of_false (fun ⟨e, he⟩ => by cases he) fun hw => hw.1.1 hd
  · rename_i hd
    split at he
    · rename_i hm
      cases he
      refine iff_of_false (fun ⟨e, he⟩ => by cases he) fun hw => ?_
      rw [hw.1.2] at hm
      cases hm
    · rename_i hm
      have hw : Wants g ev.2 := ⟨hd, by simpa using hm⟩
      rw [and_iff_right hw, ← readResponse_fails h]
      split at he
      · rename_i e hr
        cases he
        exact iff_of_true ⟨e, rfl⟩ ⟨e, hr⟩
      · rename_i resp hr
        obtain ⟨json, hj, -, hparse⟩ := readResponse_ok h hr
        obtain ⟨id, hatid⟩ := hid json _ hj hparse
        refine iff_of_false (fun ⟨e, hre⟩ => ?_) fun ⟨e, hre⟩ => by rw [hr] at hre; cases hre
        obtain ⟨⟨res, okMsg, pluginUp⟩, -, he⟩ := Option.map_eq_some_iff.mp he
        subst hre
        dsimp only at he
        rw [logBlocked_ok hatid] at he
        split at he
        · cases he
        · cases he

theorem offerAll_fails (groups : List (Bytes × StreamGroup)) (h : Offered cfg txn ev done t)
    (hnodup : ((done ++ groups).map Prod.fst).Nodup) (hid : Named cfg txn ev.1) {r : Except Err Turn}
    (he : offerAll cfg os txn ev groups t = some r) :
    (∃ e, r = .error e) ↔ ∃ e ∈ groups, Wants e.2 ev.2 ∧ Unreadable cfg txn ev.1 := by
  induction groups generalizing done t with
  | nil =>
    cases he
    exact iff_of_false (fun ⟨e, he⟩ => by cases he) (by simp)
  | cons e groups ih =>
    obtain ⟨groupName, g⟩ := e
    rw [List.exists_mem_cons_iff]
    unfold offerAll at he
    split at he
    · cases he
    · rename_i err h1
      cases he
      exact iff_of_true ⟨err, rfl⟩ (.inl ((outgoingEvent_fails h hid h1).mp ⟨err, rfl⟩))
    · rename_i t1 h1
      have hno : ¬(Wants g ev.2 ∧ Unreadable cfg txn ev.1) := fun hw => by
        obtain ⟨e, he⟩ := (outgoingEvent_fails h hid h1).mpr hw
        cases he
      rw [List.append_cons] at hnodup
      have hname := notMem_of_nodup hnodup
      rw [ih (h.outgoingEvent hname h1) hnodup he, or_iff_right hno]

theorem visitAll_fails (evs : List (Nat × PackedEventView)) {s : State} (hid : ∀ ev ∈ evs, Named cfg txn ev.1)
    {r : Except Err State} (he : visitAll cfg os txn evs s = some r) :
    (∃ e, r = .error e) ↔ ∃ ev ∈ evs, ∃ e ∈ s.router.streamGroups.entries, Wants e.2 ev.2 ∧
      Unreadable cfg txn ev.1 := by
  induction evs generalizing s with
  | nil =>
    cases he
    exact iff_of_false (fun ⟨e, he⟩ => by cases he) (by simp)
  | cons ev evs ih =>
    rw [List.exists_mem_cons_iff]
    have hone : ∀ r', onVisit cfg os txn s ev = some r' → ((∃ e, r' = .error e) ↔
        ∃ e ∈ s.router.streamGroups.entries, Wants e.2 ev.2 ∧ Unreadable cfg txn ev.1) := by
      intro r' hr'
      obtain ⟨rt, hrt, rfl⟩ := Option.map_eq_some_iff.mp hr'
      rw [← offerAll_fails _ (.start s.plugins) s.router.streamGroups.nodup (hid ev List.mem_cons_self) hrt]
      cases rt with
      | error e => exact iff_of_true ⟨e, rfl⟩ ⟨e, rfl⟩
      | ok t => exact iff_of_false (fun ⟨e, he⟩ => by cases he) fun ⟨e, he⟩ => by cases he
    unfold visitAll at he
    split at he
    · cases he
    · rename_i err h1
      cases he
      exact iff_of_true ⟨err, rfl⟩ (.inl ((hone _ h1).mp ⟨err, rfl⟩))
    · rename_i s1 h1
      have hno : ¬∃ e ∈ s.router.streamGroups.entries, Wants e.2 ev.2 ∧ Unreadable cfg txn ev.1 := fun hw => by
        obtain ⟨e, he⟩ := (hone _ h1).mpr hw
        cases he
      obtain ⟨-, -, -, -, -, hrouter⟩ := onVisit_ok h1
      rw [ih (fun ev hev => hid ev (List.mem_cons_of_mem _ hev)) he, hrouter, or_iff_right hno]

/-- **`handleDBChange` ends the process if and only if a group that sends wants a new event whose stored
JSON cannot be read**, whatever is wrong with it and whatever the plugins say. -/
theorem handleDBChange_fails_iff {s : State} (hid : ∀ ev ∈ txn.event.rows, Named cfg txn ev.1)
    {r : Except Err State} (he : handleDBChange cfg os txn s = some r) :
    (∃ e, r = .error e) ↔ ∃ ev ∈ txn.event.rows, s.currEventId < ev.1 ∧ Unreadable cfg txn ev.1 ∧
      ∃ groupName g, s.router.streamGroups.find? groupName = some g ∧ Wants g ev.2 := by
  rw [visitAll_fails _ (fun ev hev => hid ev ((Table.mem_foreachFrom _ _ _).mp hev).1) he]
  constructor
  · rintro ⟨ev, hev, e, hg, hw, hu⟩
    obtain ⟨hrow, hlt⟩ := (Table.mem_foreachFrom _ _ _).mp hev
    exact ⟨ev, hrow, hlt, hu, e.1, e.2, (Assoc.find?_eq_some_iff _ _ _).mpr hg, hw⟩
  · rintro ⟨ev, hrow, hlt, hu, groupName, g, hg, hw⟩
    exact ⟨ev, (Table.mem_foreachFrom _ _ _).mpr ⟨hrow, hlt⟩, (groupName, g),
      (Assoc.find?_eq_some_iff _ _ _).mp hg, hw, hu⟩

end

/-! ## A run -/

/-- A group that sends every event to one open connection. -/
def sendingGroup : StreamGroup where
  dir := ascii "up"
  urls := [ascii "ws://a"]
  conns := Assoc.empty.tryEmplace (ascii "ws://a") { ws := some ⟨1, ascii "up", .object []⟩ }
  filter := .object []
  filterCompiled := { filters := [{}] }

/-- An event whose payload is missing. -/
def payloadless : Db := { event := Table.empty.insertNext (sampleEvent 1 9 100 1 []) }

theorem handleDBChange_fails_one : ∃ ev ∈ payloadless.event.rows, 0 < ev.1 := by
  let _ : Zstd := Zstd.spaces
  let _ : TaoJson := TaoJson.braces
  have hid : ∀ ev ∈ payloadless.event.rows, Named {} payloadless ev.1 := fun ev _ json v hj => by cases hj
  have hr : handleDBChange {} (PluginEventSifter.sampleOs []) payloadless
      { router := { streamGroups := Assoc.empty.tryEmplace (ascii "g") sendingGroup }, currEventId := 0 } =
      some (.error (.herr "couldn't find event in EventPayload")) := rfl
  obtain ⟨ev, hev, hlt, -⟩ := (handleDBChange_fails_iff hid hr).mp ⟨_, rfl⟩
  exact ⟨ev, hev, hlt⟩

end RouterEvents

end Strfry
