import Strfry.Router

/-!
# What a failed reload leaves

`assigned` reads off a spec what `configure` assigns before the check that fails, and whether it
gets to the end; `configure_eq` says that this is all it does.  So a failed reload changes nothing
exactly when each group it reached was there and already had every value that was assigned to it.
In a run whose failed reloads are such, a live socket was opened with the direction and filter its
group has, and a reload that succeeds closes it exactly when the new ones differ.
-/

namespace Strfry

namespace StreamGroup

/-- The assignments of a spec, up to the check that fails. -/
structure Assigned where
  dir : Option Bytes := none
  filterStr : Option Bytes := none
  filter : Option (Json × NostrFilterGroup) := none
  plugins : Option (Bytes × Bytes) := none
  urls : Option (List Bytes) := none
  complete : Bool := false

/-- The strings before the first value that is not one, and whether there is none. -/
def leadingStrings : List Json → List Bytes × Bool
  | [] => ([], true)
  | .string s :: vs => (s :: (leadingStrings vs).1, (leadingStrings vs).2)
  | _ :: _ => ([], false)

/-- The assignments to `urls`. -/
def assignUrls (a : Assigned) (spec : Json) : Assigned :=
  match findUrls spec with
  | .error _ => a
  | .ok v =>
    match v.getArray with
    | .error _ => { a with urls := some [] }
    | .ok arr => { a with urls := some (leadingStrings arr).1, complete := (leadingStrings arr).2 }

/-- The assignments to the plugin commands, and on. -/
def assignPlugins (a : Assigned) (spec : Json) : Assigned :=
  match pluginCmd spec (ascii "pluginDown") with
  | .error _ => { a with plugins := some ([], []) }
  | .ok down =>
    match pluginCmd spec (ascii "pluginUp") with
    | .error _ => { a with plugins := some (down, []) }
    | .ok up => assignUrls { a with plugins := some (down, up) } spec

variable [Golpe] [TaoJson]

def assigned (cfg : Cfg) (spec : Json) : Assigned :=
  match newDir spec with
  | .error _ => {}
  | .ok dir =>
    match newFilter spec with
    | .error _ => { dir := some dir }
    | .ok filter =>
      match NostrFilterGroup.unwrapped filter cfg.relayMaxFilterLimit with
      | .error _ => { dir := some dir, filterStr := some (TaoJson.toString filter) }
      | .ok fg => assignPlugins
          { dir := some dir, filterStr := some (TaoJson.toString filter), filter := some (filter, fg) }
          spec

/-- A group after the assignments. -/
def Assigned.apply (a : Assigned) (g : StreamGroup) : StreamGroup :=
  { g with
    dir := a.dir.getD g.dir
    filterStr := a.filterStr.getD g.filterStr
    filter := (a.filter.map Prod.fst).getD g.filter
    filterCompiled := (a.filter.map Prod.snd).getD g.filterCompiled
    pluginDownCmd := (a.plugins.map Prod.fst).getD g.pluginDownCmd
    pluginUpCmd := (a.plugins.map Prod.snd).getD g.pluginUpCmd
    urls := a.urls.getD g.urls }

/-- Whether the connections are closed: the direction or the filter is another. -/
def needsReconnect (g : StreamGroup) (a : Assigned) : Bool :=
  decide (a.dir.getD g.dir ≠ g.dir) || decide (a.filterStr.getD g.filterStr ≠ g.filterStr)

/-- A group after the assignments `a` and, if they are all, what is done to the connections. -/
def finished (connectionTimeoutUs : Nat) (clock : Nat → Nat) (needs : Bool) (a : Assigned)
    (g : StreamGroup) : StreamGroup :=
  if a.complete then reconnect connectionTimeoutUs clock needs (a.apply g) else a.apply g

/-- What `configure` does to a group. -/
def configured (cfg : Cfg) (connectionTimeoutUs : Nat) (clock : Nat → Nat) (spec : Json)
    (g : StreamGroup) : StreamGroup :=
  finished connectionTimeoutUs clock (needsReconnect g (assigned cfg spec)) (assigned cfg spec) g

end StreamGroup

/-! ## Running a computation that may throw -/

section Runs

variable {σ α β : Type}

theorem throws_bind_ok {x : Except Err α} {a : α} (h : x = .ok a) (f : α → EStateM Err σ β) (s : σ) :
    (throws x >>= f) s = f a s := by
  subst h
  rfl

theorem throws_bind_error {x : Except Err α} {e : Err} (h : x = .error e) (f : α → EStateM Err σ β)
    (s : σ) : (throws x >>= f) s = .error e s := by
  subst h
  rfl

theorem modify_bind (h : σ → σ) (f : Unit → EStateM Err σ β) (s : σ) :
    (modify h >>= f) s = f () (h s) := rfl

theorem get_bind (f : σ → EStateM Err σ β) (s : σ) : (get >>= f) s = f s s := rfl

/-- A computation ends in the state `t`, thrown or not. -/
def EndsIn (r : EStateM.Result Err σ Unit) (t : σ) (complete : Bool) : Prop :=
  if complete then r = .ok () t else ∃ e, r = .error e t

theorem EndsIn.error (e : Err) (t : σ) : EndsIn (.error e t) t false := ⟨e, rfl⟩

theorem EndsIn.ok (t : σ) : EndsIn (.ok () t) t true := rfl

/-- What comes after a computation does not run if it throws. -/
theorem EndsIn.bind {x : EStateM Err σ Unit} {s t u : σ} {c c' : Bool} {f : Unit → EStateM Err σ Unit}
    (hx : EndsIn (x s) t c) (hf : c = true → EndsIn (f () t) u c') (hu : c = false → t = u ∧ c' = false) :
    EndsIn ((x >>= f) s) u c' := by
  show EndsIn (EStateM.bind x f s) u c'
  unfold EStateM.bind
  cases c with
  | false =>
    obtain ⟨e, he⟩ := hx
    obtain ⟨rfl, rfl⟩ := hu rfl
    rw [he]
    exact .error e t
  | true =>
    have hx : x s = .ok () t := hx
    rw [hx]
    exact hf rfl

end Runs

namespace StreamGroup

theorem pushUrls_ends (vs : List Json) (g : StreamGroup) :
    EndsIn (pushUrls vs g) { g with urls := g.urls ++ (leadingStrings vs).1 } (leadingStrings vs).2 := by
  induction vs generalizing g with
  | nil =>
    simp only [leadingStrings, List.append_nil]
    exact rfl
  | cons v vs ih =>
    cases v with
    | string s =>
      have h := ih { g with urls := g.urls ++ [s] }
      simp only [List.append_assoc, List.singleton_append] at h
      exact h
    | _ =>
      simp only [leadingStrings, List.append_nil]
      exact ⟨.badVariant, rfl⟩

section Configure

variable {connectionTimeoutUs : Nat} {clock : Nat → Nat}

theorem configureUrls_ends (spec : Json) (needs : Bool) {a : Assigned} (g : StreamGroup)
    (hc : a.complete = false) :
    EndsIn (configureUrls connectionTimeoutUs clock needs spec (a.apply g))
      (finished connectionTimeoutUs clock needs (assignUrls a spec) g) (assignUrls a spec).complete := by
  unfold configureUrls
  cases hurls : findUrls spec with
  | error e =>
    have ha : assignUrls a spec = a := by simp only [assignUrls, hurls]
    rw [throws_bind_error rfl, ha, finished, hc]
    exact .error e _
  | ok v =>
    rw [throws_bind_ok rfl, modify_bind]
    cases harr : v.getArray with
    | error e =>
      have ha : assignUrls a spec = { a with urls := some [] } := by simp only [assignUrls, hurls, harr]
      rw [throws_bind_error rfl, ha, finished, hc]
      exact .error e _
    | ok arr =>
      have ha : assignUrls a spec =
          { a with urls := some (leadingStrings arr).1, complete := (leadingStrings arr).2 } := by
        simp only [assignUrls, hurls, harr]
      rw [throws_bind_ok rfl, ha, finished]
      refine (pushUrls_ends arr { a.apply g with urls := [] }).bind ?_ ?_
      · intro hok
        rw [hok]
        exact .ok _
      · intro hok
        rw [hok]
        exact ⟨rfl, rfl⟩

theorem configurePlugins_ends (spec : Json) (needs : Bool) {a : Assigned} (g : StreamGroup)
    (hc : a.complete = false) :
    EndsIn (configurePlugins connectionTimeoutUs clock needs spec (a.apply g))
      (finished connectionTimeoutUs clock needs (assignPlugins a spec) g)
      (assignPlugins a spec).complete := by
  unfold configurePlugins
  rw [modify_bind]
  cases hdown : pluginCmd spec (ascii "pluginDown") with
  | error e =>
    have ha : assignPlugins a spec = { a with plugins := some ([], []) } := by
      simp only [assignPlugins, hdown]
    rw [throws_bind_error rfl, ha, finished, hc]
    exact .error e _
  | ok down =>
    rw [throws_bind_ok rfl, modify_bind]
    cases hup : pluginCmd spec (ascii "pluginUp") with
    | error e =>
      have ha : assignPlugins a spec = { a with plugins := some (down, []) } := by
        simp only [assignPlugins, hdown, hup]
      rw [throws_bind_error rfl, ha, finished, hc]
      exact .error e _
    | ok up =>
      have ha : assignPlugins a spec = assignUrls { a with plugins := some (down, up) } spec := by
        simp only [assignPlugins, hdown, hup]
      rw [throws_bind_ok rfl, modify_bind, ha]
      exact configureUrls_ends spec needs (a := { a with plugins := some (down, up) }) g hc

theorem assignPlugins_fields (a : Assigned) (spec : Json) :
    (assignPlugins a spec).dir = a.dir ∧ (assignPlugins a spec).filterStr = a.filterStr ∧
    (assignPlugins a spec).filter = a.filter := by
  unfold assignPlugins assignUrls
  repeat' split
  all_goals exact ⟨rfl, rfl, rfl⟩

variable [Golpe] [TaoJson] {cfg : Cfg}

variable (connectionTimeoutUs clock cfg) in
/-- **`configure` makes the assignments of the spec, and if none of its checks fails it goes on to
the connections.** -/
theorem configure_eq (spec : Json) (g : StreamGroup) :
    EndsIn (configure cfg connectionTimeoutUs clock spec g)
      (configured cfg connectionTimeoutUs clock spec g) (assigned cfg spec).complete := by
  unfold configure configured
  cases hdir : newDir spec with
  | error e =>
    have ha : assigned cfg spec = {} := by simp only [assigned, hdir]
    rw [throws_bind_error rfl, ha]
    exact .error e _
  | ok dir =>
    rw [throws_bind_ok rfl, get_bind, modify_bind]
    cases hf : newFilter spec with
    | error e =>
      have ha : assigned cfg spec = { dir := some dir } := by simp only [assigned, hdir, hf]
      rw [throws_bind_error rfl, ha]
      exact .error e _
    | ok filter =>
      rw [throws_bind_ok rfl, get_bind, modify_bind]
      cases hfg : NostrFilterGroup.unwrapped filter cfg.relayMaxFilterLimit with
      | error e =>
        have ha : assigned cfg spec = { dir := some dir, filterStr := some (TaoJson.toString filter) } := by
          simp only [assigned, hdir, hf, hfg]
        rw [throws_bind_error rfl, ha]
        exact .error e _
      | ok fg =>
        rw [throws_bind_ok rfl, modify_bind]
        let a : Assigned :=
          { dir := some dir, filterStr := some (TaoJson.toString filter), filter := some (filter, fg) }
        have ha : assigned cfg spec = assignPlugins a spec := by simp only [assigned, hdir, hf, hfg, a]
        have hneeds : needsReconnect g (assignPlugins a spec) =
            (decide (dir ≠ g.dir) || decide (TaoJson.toString filter ≠ g.filterStr)) := by
          rw [needsReconnect, (assignPlugins_fields a spec).1, (assignPlugins_fields a spec).2.1]
          rfl
        rw [ha, hneeds]
        exact configurePlugins_ends spec _ (a := a) g rfl

end Configure

/-! ## The connections -/

/-- The socket of a url, if it has a connection. -/
def socketAt (conns : Assoc Bytes Connection) (url : Bytes) : Option (Option WebSocket) :=
  (conns.find? url).map Connection.ws

section Connections

variable {connectionTimeoutUs : Nat} {clock : Nat → Nat}

theorem socketAt_tryConnect (now later : Nat) (conns : Assoc Bytes Connection) (url u : Bytes) :
    socketAt (tryConnect connectionTimeoutUs now later conns url) u =
      if u = url then some ((socketAt conns u).getD none) else socketAt conns u := by
  have hfind : (conns.tryEmplace url {}).find? url = some ((conns.find? url).getD {}) := by
    rw [Assoc.find?_tryEmplace, if_pos rfl]
  have hws : socketAt (conns.tryEmplace url {}) u =
      if u = url then some ((socketAt conns u).getD none) else socketAt conns u := by
    unfold socketAt
    rw [Assoc.find?_tryEmplace]
    by_cases hu : u = url
    · subst hu
      cases conns.find? u <;> simp
    · simp [hu]
  unfold tryConnect
  simp only [hfind]
  split
  · rw [← hws]
    unfold socketAt
    rw [Assoc.find?_set]
    by_cases hu : u = url
    · subst hu
      rw [if_pos rfl, hfind]
      rfl
    · rw [if_neg hu]
  · exact hws

theorem socketAt_tryConnectsFrom (urls : List Bytes) (i : Nat) (conns : Assoc Bytes Connection)
    (u : Bytes) : socketAt (tryConnectsFrom connectionTimeoutUs clock i urls conns) u =
      if u ∈ urls then some ((socketAt conns u).getD none) else socketAt conns u := by
  induction urls generalizing i conns with
  | nil => simp [tryConnectsFrom]
  | cons url urls ih =>
    rw [tryConnectsFrom, ih, socketAt_tryConnect]
    by_cases hu : u = url
    · simp [hu]
    · simp [hu]

/-- After `configure` every url has a connection, the one it had unless all were closed. -/
theorem socketAt_reconnect (needs : Bool) (g : StreamGroup) (u : Bytes) :
    socketAt (reconnect connectionTimeoutUs clock needs g).conns u =
      if u ∈ g.urls then some (if needs then none else (socketAt g.conns u).getD none) else none := by
  have hdrop : socketAt (g.conns.retain g.urls) u = if u ∈ g.urls then socketAt g.conns u else none := by
    unfold socketAt
    rw [Assoc.find?_retain]
    split <;> rfl
  unfold reconnect tryConnects dropDeleted
  cases needs with
  | true =>
    simp only [if_true, socketAt_tryConnectsFrom]
    split
    · rfl
    · rfl
  | false =>
    simp only [Bool.false_eq_true, if_false, socketAt_tryConnectsFrom, hdrop]
    split
    · rfl
    · rfl

end Connections

/-- The same configuration and the same sockets. -/
structure SameAs (g g' : StreamGroup) : Prop where
  dir : g'.dir = g.dir
  filterStr : g'.filterStr = g.filterStr
  filter : g'.filter = g.filter
  filterCompiled : g'.filterCompiled = g.filterCompiled
  pluginDownCmd : g'.pluginDownCmd = g.pluginDownCmd
  pluginUpCmd : g'.pluginUpCmd = g.pluginUpCmd
  urls : g'.urls = g.urls
  conns : ∀ url, socketAt g'.conns url = socketAt g.conns url

theorem SameAs.refl (g : StreamGroup) : SameAs g g := ⟨rfl, rfl, rfl, rfl, rfl, rfl, rfl, fun _ => rfl⟩

/-- Every value that is assigned is the one the group has; and if nothing fails, its connections are
those of its urls. -/
structure Assigned.Keeps (a : Assigned) (g : StreamGroup) : Prop where
  dir : ∀ dir ∈ a.dir, g.dir = dir
  filterStr : ∀ str ∈ a.filterStr, g.filterStr = str
  filter : ∀ f ∈ a.filter, g.filter = f.1 ∧ g.filterCompiled = f.2
  plugins : ∀ p ∈ a.plugins, g.pluginDownCmd = p.1 ∧ g.pluginUpCmd = p.2
  urls : ∀ urls ∈ a.urls, g.urls = urls
  conns : a.complete = true → ∀ url, (g.conns.find? url).isSome ↔ url ∈ g.urls

theorem getD_eq_self {α : Type} {o : Option α} {x : α} (h : ∀ y ∈ o, x = y) : o.getD x = x := by
  cases o with
  | none => rfl
  | some y => exact (h y rfl).symm

theorem Assigned.Keeps.apply {a : Assigned} {g : StreamGroup} (h : a.Keeps g) : a.apply g = g := by
  have hf : (a.filter.map Prod.fst).getD g.filter = g.filter :=
    getD_eq_self fun y hy => by
      obtain ⟨f, hf, rfl⟩ := Option.map_eq_some_iff.mp hy
      exact (h.filter f hf).1
  have hfc : (a.filter.map Prod.snd).getD g.filterCompiled = g.filterCompiled :=
    getD_eq_self fun y hy => by
      obtain ⟨f, hf, rfl⟩ := Option.map_eq_some_iff.mp hy
      exact (h.filter f hf).2
  have hpd : (a.plugins.map Prod.fst).getD g.pluginDownCmd = g.pluginDownCmd :=
    getD_eq_self fun y hy => by
      obtain ⟨p, hp, rfl⟩ := Option.map_eq_some_iff.mp hy
      exact (h.plugins p hp).1
  have hpu : (a.plugins.map Prod.snd).getD g.pluginUpCmd = g.pluginUpCmd :=
    getD_eq_self fun y hy => by
      obtain ⟨p, hp, rfl⟩ := Option.map_eq_some_iff.mp hy
      exact (h.plugins p hp).2
  unfold Assigned.apply
  rw [getD_eq_self h.dir, getD_eq_self h.filterStr, hf, hfc, hpd, hpu, getD_eq_self h.urls]

theorem needsReconnect_of_keeps {a : Assigned} {g : StreamGroup} (h : a.Keeps g) :
    needsReconnect g a = false := by
  unfold needsReconnect
  rw [getD_eq_self h.dir, getD_eq_self h.filterStr]
  simp

section Keeps

variable {connectionTimeoutUs : Nat} {clock : Nat → Nat}

theorem finished_of_keeps {a : Assigned} {g : StreamGroup} (h : a.Keeps g) :
    SameAs g (finished connectionTimeoutUs clock (needsReconnect g a) a g) := by
  unfold finished
  rw [h.apply, needsReconnect_of_keeps h]
  split
  · rename_i hc
    refine ⟨rfl, rfl, rfl, rfl, rfl, rfl, rfl, fun url => ?_⟩
    rw [socketAt_reconnect]
    have hconn := h.conns hc url
    unfold socketAt
    cases hfind : g.conns.find? url with
    | none =>
      rw [hfind] at hconn
      rw [if_neg fun hu => by simpa using hconn.mpr hu]
      rfl
    | some c =>
      rw [hfind] at hconn
      rw [if_pos (hconn.mp rfl)]
      rfl
  · exact .refl g

variable (connectionTimeoutUs clock) in
/-- The fields of the group are those of the assignments, whatever becomes of the connections. -/
theorem finished_fields (needs : Bool) (a : Assigned) (g : StreamGroup) :
    ∃ conns, finished connectionTimeoutUs clock needs a g = { a.apply g with conns := conns } := by
  unfold finished
  split
  · unfold reconnect
    cases needs <;> exact ⟨_, rfl⟩
  · exact ⟨(a.apply g).conns, rfl⟩

theorem keeps_of_finished {a : Assigned} {g : StreamGroup} {needs : Bool}
    (h : SameAs g (finished connectionTimeoutUs clock needs a g)) : a.Keeps g := by
  obtain ⟨conns, hfields⟩ := finished_fields connectionTimeoutUs
    clock needs a g
  have hurls : (a.apply g).urls = g.urls := by
    have := h.urls
    rw [hfields] at this
    exact this
  constructor
  · intro dir hdir
    have := h.dir
    rw [hfields] at this
    simpa [Assigned.apply, Option.mem_def.mp hdir] using this.symm
  · intro str hstr
    have := h.filterStr
    rw [hfields] at this
    simpa [Assigned.apply, Option.mem_def.mp hstr] using this.symm
  · intro f hf
    have h1 := h.filter
    have h2 := h.filterCompiled
    rw [hfields] at h1 h2
    exact ⟨by simpa [Assigned.apply, Option.mem_def.mp hf] using h1.symm,
      by simpa [Assigned.apply, Option.mem_def.mp hf] using h2.symm⟩
  · intro p hp
    have h1 := h.pluginDownCmd
    have h2 := h.pluginUpCmd
    rw [hfields] at h1 h2
    exact ⟨by simpa [Assigned.apply, Option.mem_def.mp hp] using h1.symm,
      by simpa [Assigned.apply, Option.mem_def.mp hp] using h2.symm⟩
  · intro urls hu
    simpa [Assigned.apply, Option.mem_def.mp hu] using hurls.symm
  · intro hc url
    have hconn := h.conns url
    rw [finished, if_pos hc, socketAt_reconnect, hurls] at hconn
    have hsome : (g.conns.find? url).isSome = (socketAt g.conns url).isSome := by
      unfold socketAt
      rw [Option.isSome_map]
    rw [hsome, ← hconn]
    split
    · rename_i hu
      simp [hu]
    · rename_i hu
      simp [hu]

/-- **A `configure` leaves a group as it was exactly when it assigns what was there.** -/
theorem sameAs_configured_iff [Golpe] [TaoJson] (cfg : Cfg) (spec : Json) (g : StreamGroup) :
    SameAs g (configured cfg connectionTimeoutUs clock spec g) ↔ (assigned cfg spec).Keeps g :=
  ⟨keeps_of_finished, finished_of_keeps⟩

end Keeps

/-! ## Live sockets -/

section Live

variable [TaoJson]

/-- Every live socket was opened with the direction and the filter the group has. -/
def SocketsOk (g : StreamGroup) : Prop :=
  ∀ url ws, socketAt g.conns url = some (some ws) →
    ws.dir = g.dir ∧ TaoJson.toString ws.filter = g.filterStr

structure GroupOk (g : StreamGroup) : Prop where
  filter : TaoJson.toString g.filter = g.filterStr
  sockets : SocketsOk g

theorem SameAs.groupOk {g g' : StreamGroup} (h : SameAs g g') (hg : GroupOk g) : GroupOk g' := by
  refine ⟨by rw [h.filter, h.filterStr, hg.filter], fun url ws hws => ?_⟩
  rw [h.conns] at hws
  rw [h.dir, h.filterStr]
  exact hg.sockets url ws hws

theorem GroupOk.connOpen {g : StreamGroup} (hg : GroupOk g) (url : Bytes) (id : Nat) :
    GroupOk (g.connOpen url id) := by
  unfold StreamGroup.connOpen
  split
  · exact hg
  · rename_i c hc
    split
    · exact hg
    · refine ⟨hg.filter, fun u ws hws => ?_⟩
      unfold socketAt at hws
      rw [Assoc.find?_set] at hws
      split at hws
      · rw [hc] at hws
        cases hws
        exact ⟨rfl, hg.filter⟩
      · exact hg.sockets u ws hws

theorem GroupOk.connClose {g : StreamGroup} (hg : GroupOk g) (url : Bytes) (id : Nat) :
    GroupOk (g.connClose url id) := by
  unfold StreamGroup.connClose
  split
  · exact hg
  · rename_i c hc
    split
    · refine ⟨hg.filter, fun u ws hws => ?_⟩
      unfold socketAt at hws
      rw [Assoc.find?_set] at hws
      split at hws
      · rw [hc] at hws
        cases hws
      · exact hg.sockets u ws hws
    · exact hg

theorem GroupOk.tryConnects {g : StreamGroup} (hg : GroupOk g) (connectionTimeoutUs : Nat)
    (clock : Nat → Nat) : GroupOk (g.tryConnects connectionTimeoutUs clock) := by
  refine ⟨hg.filter, fun u ws hws => hg.sockets u ws ?_⟩
  have hws : socketAt (tryConnectsFrom connectionTimeoutUs clock 0 g.urls g.conns) u = some (some ws) :=
    hws
  rw [socketAt_tryConnectsFrom] at hws
  split at hws
  · cases hs : socketAt g.conns u with
    | none =>
      rw [hs] at hws
      cases hws
    | some o =>
      rw [hs] at hws
      exact hws
  · exact hws

variable [Golpe] {cfg : Cfg}

/-- The assignments of a spec that fails no check. -/
theorem assigned_complete {spec : Json} (h : (assigned cfg spec).complete = true) : ∃ dir filter fg,
    newDir spec = .ok dir ∧ newFilter spec = .ok filter ∧
    (assigned cfg spec).dir = some dir ∧ (assigned cfg spec).filterStr = some (TaoJson.toString filter) ∧
    (assigned cfg spec).filter = some (filter, fg) := by
  cases hdir : newDir spec with
  | error e => simp [assigned, hdir] at h
  | ok dir =>
    cases hf : newFilter spec with
    | error e => simp [assigned, hdir, hf] at h
    | ok filter =>
      cases hfg : NostrFilterGroup.unwrapped filter cfg.relayMaxFilterLimit with
      | error e => simp [assigned, hdir, hf, hfg] at h
      | ok fg =>
        let a : Assigned :=
          { dir := some dir, filterStr := some (TaoJson.toString filter), filter := some (filter, fg) }
        have ha : assigned cfg spec = assignPlugins a spec := by simp only [assigned, hdir, hf, hfg, a]
        obtain ⟨h1, h2, h3⟩ := assignPlugins_fields a spec
        rw [ha]
        exact ⟨dir, filter, fg, rfl, rfl, h1, h2, h3⟩

variable {connectionTimeoutUs : Nat} {clock : Nat → Nat}

/-- **After a `configure` that fails no check, a socket is still there exactly when it was opened with
the direction and the filter of the spec.** -/
theorem socketAt_configured {spec : Json} {g : StreamGroup} (hg : SocketsOk g)
    (hc : (assigned cfg spec).complete = true) {dir : Bytes} {filter : Json} (hdir : newDir spec = .ok dir)
    (hf : newFilter spec = .ok filter) {url : Bytes} {ws : WebSocket}
    (hws : socketAt g.conns url = some (some ws))
    (hurl : url ∈ (configured cfg connectionTimeoutUs clock spec g).urls) :
    socketAt (configured cfg connectionTimeoutUs clock spec g).conns url =
      some (if ws.dir = dir ∧ TaoJson.toString ws.filter = TaoJson.toString filter then some ws else none)
    := by
  obtain ⟨dir', filter', fg, hdir', hf', h1, h2, h3⟩ := assigned_complete hc
  cases hdir.symm.trans hdir'
  cases hf.symm.trans hf'
  have hurls : (configured cfg connectionTimeoutUs clock spec g).urls = ((assigned cfg spec).apply g).urls := by
    obtain ⟨conns, hfields⟩ := finished_fields connectionTimeoutUs
      clock (needsReconnect g (assigned cfg spec)) (assigned cfg spec) g
    unfold configured
    rw [hfields]
  rw [hurls] at hurl
  obtain ⟨hd, hs⟩ := hg url ws hws
  rw [configured, finished, if_pos hc, socketAt_reconnect, if_pos hurl]
  have hconns : ((assigned cfg spec).apply g).conns = g.conns := rfl
  rw [hconns, hws, needsReconnect, h1, h2, hd, hs]
  by_cases hd' : dir = g.dir
  · by_cases hs' : TaoJson.toString filter = g.filterStr
    · simp [hd', hs']
    · have : ¬ g.filterStr = TaoJson.toString filter := fun h => hs' h.symm
      simp [hs', this]
  · have : ¬ g.dir = dir := fun h => hd' h.symm
    simp [hd', this]

theorem GroupOk.configured {spec : Json} {g : StreamGroup} (hg : SocketsOk g)
    (hc : (assigned cfg spec).complete = true) :
    GroupOk (configured cfg connectionTimeoutUs clock spec g) := by
  obtain ⟨dir, filter, fg, -, -, h1, h2, h3⟩ := assigned_complete hc
  obtain ⟨conns, hfields⟩ := finished_fields connectionTimeoutUs
    clock (needsReconnect g (assigned cfg spec)) (assigned cfg spec) g
  have heq : StreamGroup.configured cfg connectionTimeoutUs clock spec g =
      { (assigned cfg spec).apply g with conns := conns } := hfields
  have hdir : (StreamGroup.configured cfg connectionTimeoutUs clock spec g).dir = dir := by
    rw [heq]
    simp [Assigned.apply, h1]
  have hstr : (StreamGroup.configured cfg connectionTimeoutUs clock spec g).filterStr =
      TaoJson.toString filter := by
    rw [heq]
    simp [Assigned.apply, h2]
  refine ⟨?_, fun url ws hws => ?_⟩
  · rw [hstr, heq]
    simp [Assigned.apply, h3]
  · rw [hdir, hstr]
    rw [StreamGroup.configured, finished, if_pos hc, socketAt_reconnect] at hws
    split at hws
    · have hws := Option.some.inj hws
      cases hneeds : needsReconnect g (assigned cfg spec) with
      | true => simp [hneeds] at hws
      | false =>
        -- nothing was closed, so the direction and the filter are the old ones
        rw [hneeds] at hws
        have hold : socketAt g.conns url = some (some ws) := by
          cases hs : socketAt ((assigned cfg spec).apply g).conns url with
          | none => simp [hs] at hws
          | some o =>
            rw [hs] at hws
            exact hs.trans (congrArg some hws)
        obtain ⟨hd, hs⟩ := hg url ws hold
        simp only [needsReconnect, h1, h2, Option.getD_some, Bool.or_eq_false_iff, decide_eq_false_iff_not,
          not_not] at hneeds
        exact ⟨hd.trans hneeds.1.symm, hs.trans hneeds.2.symm⟩
    · cases hws

end Live

end StreamGroup

/-! ## Reloads -/

namespace Router

open StreamGroup

/-- The same timeout, the same groups. -/
structure SameAs (s s' : Router) : Prop where
  connectionTimeoutUs : s'.connectionTimeoutUs = s.connectionTimeoutUs
  streamGroups : ∀ name,
    Option.Rel StreamGroup.SameAs (s.streamGroups.find? name) (s'.streamGroups.find? name)

theorem SameAs.refl (s : Router) : SameAs s s := by
  refine ⟨rfl, fun name => ?_⟩
  cases s.streamGroups.find? name with
  | none => exact .none
  | some g => exact .some (.refl g)

section Reload

variable [Golpe] [TaoJson]

/-- The groups a reload reaches: up to the first whose spec fails a check. -/
def touched (cfg : Cfg) : List (Bytes × Json) → List (Bytes × Json)
  | [] => []
  | kv :: kvs => if (assigned cfg kv.2).complete then kv :: touched cfg kvs else [kv]

theorem touched_sublist (cfg : Cfg) (kvs : List (Bytes × Json)) : (touched cfg kvs).Sublist kvs := by
  induction kvs with
  | nil => exact .slnil
  | cons kv kvs ih =>
    rw [touched]
    split
    · exact ih.cons_cons kv
    · exact (List.nil_sublist kvs).cons_cons kv

/-- When no spec fails, all groups are reached. -/
theorem touched_of_all {cfg : Cfg} {kvs : List (Bytes × Json)}
    (h : (kvs.all fun kv => (assigned cfg kv.2).complete) = true) : touched cfg kvs = kvs := by
  induction kvs with
  | nil => rfl
  | cons kv kvs ih =>
    simp only [List.all_cons, Bool.and_eq_true] at h
    rw [touched, if_pos h.1, ih h.2]

/-- The router after one group's `configure`. -/
def configuredGroup (cfg : Cfg) (clock : Bytes → Nat → Nat) (s : Router) (kv : Bytes × Json) : Router :=
  let g := configured cfg s.connectionTimeoutUs (clock kv.1) kv.2 ((s.streamGroups.find? kv.1).getD {})
  { s with streamGroups := (s.streamGroups.tryEmplace kv.1 {}).set kv.1 g }

variable {cfg : Cfg} {clock : Bytes → Nat → Nat}

theorem configureGroup_ends (s : Router) (kv : Bytes × Json) :
    EndsIn (configureGroup cfg clock kv.1 kv.2 s) (configuredGroup cfg clock s kv)
      (assigned cfg kv.2).complete := by
  have hfind : (s.streamGroups.tryEmplace kv.1 {}).find? kv.1 =
      some ((s.streamGroups.find? kv.1).getD {}) := by
    rw [Assoc.find?_tryEmplace, if_pos rfl]
  have hends := configure_eq s.connectionTimeoutUs (clock kv.1)
    cfg kv.2 ((s.streamGroups.find? kv.1).getD {})
  unfold configureGroup configuredGroup
  simp only [hfind]
  cases hc : (assigned cfg kv.2).complete with
  | false =>
    rw [hc] at hends
    obtain ⟨e, he⟩ := hends
    rw [he]
    exact .error e _
  | true =>
    rw [hc] at hends
    have hends : configure cfg s.connectionTimeoutUs (clock kv.1) kv.2
      ((s.streamGroups.find? kv.1).getD {}) = .ok () _ := hends
    rw [hends]
    exact .ok _

theorem configureGroups_ends (kvs : List (Bytes × Json)) (s : Router) :
    EndsIn (configureGroups cfg clock kvs s) ((touched cfg kvs).foldl (configuredGroup cfg clock) s)
      (kvs.all fun kv => (assigned cfg kv.2).complete) := by
  induction kvs generalizing s with
  | nil => exact .ok s
  | cons kv kvs ih =>
    refine (configureGroup_ends s kv).bind ?_ ?_
    · intro hc
      have := ih (configuredGroup cfg clock s kv)
      rw [touched, if_pos hc, List.foldl_cons, List.all_cons, hc, Bool.true_and]
      exact this
    · intro hc
      rw [touched, hc]
      exact ⟨rfl, by rw [List.all_cons, hc, Bool.false_and]⟩

theorem find?_configuredGroup (s : Router) (kv : Bytes × Json) (name : Bytes) :
    (configuredGroup cfg clock s kv).streamGroups.find? name =
      if name = kv.1 then some (configured cfg s.connectionTimeoutUs (clock kv.1) kv.2
        ((s.streamGroups.find? kv.1).getD {})) else s.streamGroups.find? name := by
  show ((s.streamGroups.tryEmplace kv.1 {}).set kv.1 _).find? name = _
  rw [Assoc.find?_set, Assoc.find?_tryEmplace, if_pos rfl]
  by_cases hname : name = kv.1
  · rw [if_pos hname, if_pos hname]
    rfl
  · rw [if_neg hname, if_neg hname, Assoc.find?_tryEmplace, if_neg hname]

variable (cfg clock) in
/-- Groups of distinct names are configured independently of each other. -/
theorem find?_foldl_configuredGroup (kvs : List (Bytes × Json)) (hnodup : (kvs.map Prod.fst).Nodup)
    (s : Router) :
    (kvs.foldl (configuredGroup cfg clock) s).connectionTimeoutUs = s.connectionTimeoutUs ∧
    (kvs.foldl (configuredGroup cfg clock) s).firstConfigLoadSuccess = s.firstConfigLoadSuccess ∧
    (∀ kv ∈ kvs, (kvs.foldl (configuredGroup cfg clock) s).streamGroups.find? kv.1 =
      some (configured cfg s.connectionTimeoutUs (clock kv.1) kv.2
        ((s.streamGroups.find? kv.1).getD {}))) ∧
    (∀ name, name ∉ kvs.map Prod.fst →
      (kvs.foldl (configuredGroup cfg clock) s).streamGroups.find? name = s.streamGroups.find? name) := by
  induction kvs generalizing s with
  | nil => exact ⟨rfl, rfl, by simp, fun _ _ => rfl⟩
  | cons kv kvs ih =>
    rw [List.map_cons, List.nodup_cons] at hnodup
    obtain ⟨htimeout, hfirst, hin, hout⟩ := ih hnodup.2 (configuredGroup cfg clock s kv)
    refine ⟨htimeout, hfirst, fun kv' hkv' => ?_, fun name hname => ?_⟩
    · rw [List.foldl_cons]
      rcases List.mem_cons.mp hkv' with rfl | hkv'
      · rw [hout kv'.1 hnodup.1, find?_configuredGroup, if_pos rfl]
      · have hne : kv'.1 ≠ kv.1 := by
          intro heq
          exact hnodup.1 (heq ▸ List.mem_map_of_mem hkv')
        rw [hin kv' hkv', find?_configuredGroup, if_neg hne]
        rfl
    · rw [List.map_cons, List.mem_cons, not_or] at hname
      rw [List.foldl_cons, hout name hname.2, find?_configuredGroup, if_neg hname.1]

/-- A reload assigns nothing new before it fails: if the file is read and has a timeout, that is the
router's; and if it has groups, each of them up to the first whose spec fails a check is there and has
the values assigned to it. -/
def ReloadKeeps (cfg : Cfg) (s : Router) (loaded : Except Err Config) : Prop :=
  ∀ routerConfig, loaded = .ok routerConfig → ∀ timeoutUs, configTimeout routerConfig.json = .ok timeoutUs →
    s.connectionTimeoutUs = timeoutUs ∧
    ∀ kvs, streams routerConfig.json = .ok kvs → ∀ kv ∈ touched cfg kvs,
      ∃ g, s.streamGroups.find? kv.1 = some g ∧ (assigned cfg kv.2).Keeps g

variable (cfg clock) in
/-- A reload that configures groups changes nothing if each is there and keeps what it has. -/
theorem sameAs_foldl_iff {kvs : List (Bytes × Json)} (hnodup : (kvs.map Prod.fst).Nodup) {s s₀ : Router}
    (hgroups : s₀.streamGroups = s.streamGroups) :
    (∀ name, Option.Rel StreamGroup.SameAs (s.streamGroups.find? name)
      ((kvs.foldl (configuredGroup cfg clock) s₀).streamGroups.find? name)) ↔
    ∀ kv ∈ kvs, ∃ g, s.streamGroups.find? kv.1 = some g ∧ (assigned cfg kv.2).Keeps g := by
  obtain ⟨-, -, hin, hout⟩ := find?_foldl_configuredGroup cfg clock kvs hnodup s₀
  rw [hgroups] at hin hout
  constructor
  · intro h kv hkv
    have hrel := h kv.1
    rw [hin kv hkv] at hrel
    cases hfind : s.streamGroups.find? kv.1 with
    | none =>
      rw [hfind] at hrel
      cases hrel
    | some g =>
      rw [hfind] at hrel
      cases hrel with
      | some hsame => exact ⟨g, rfl, (sameAs_configured_iff cfg kv.2 g).mp hsame⟩
  · intro h name
    by_cases hname : name ∈ kvs.map Prod.fst
    · obtain ⟨kv, hkv, rfl⟩ := List.mem_map.mp hname
      obtain ⟨g, hg, hkeeps⟩ := h kv hkv
      rw [hin kv hkv, hg]
      exact .some ((sameAs_configured_iff cfg kv.2 g).mpr hkeeps)
    · rw [hout name hname]
      exact (SameAs.refl s).streamGroups name

variable (cfg clock) in
/-- What a reload does before it succeeds or fails. -/
theorem applyConfig_cases (loaded : Except Err Config) (s : Router) :
    (∃ e, applyConfig cfg clock loaded s = .error e s ∧
      ∀ routerConfig, loaded = .ok routerConfig → ∀ t, configTimeout routerConfig.json ≠ .ok t) ∨
    ∃ routerConfig timeoutUs, loaded = .ok routerConfig ∧ configTimeout routerConfig.json = .ok timeoutUs ∧
      ((∃ e e', streams routerConfig.json = .error e' ∧
          applyConfig cfg clock loaded s = .error e { s with connectionTimeoutUs := timeoutUs }) ∨
        ∃ kvs, streams routerConfig.json = .ok kvs ∧
          EndsIn (applyConfig cfg clock loaded s)
            (if kvs.all fun kv => (assigned cfg kv.2).complete then removeDeleted kvs
                (kvs.foldl (configuredGroup cfg clock) { s with connectionTimeoutUs := timeoutUs })
              else (touched cfg kvs).foldl (configuredGroup cfg clock)
                { s with connectionTimeoutUs := timeoutUs })
            (kvs.all fun kv => (assigned cfg kv.2).complete)) := by
  unfold applyConfig
  cases hloaded : loaded with
  | error e =>
    refine .inl ⟨e, throws_bind_error rfl _ _, fun _ h => by cases h⟩
  | ok routerConfig =>
    rw [throws_bind_ok rfl]
    cases ht : configTimeout routerConfig.json with
    | error e =>
      refine .inl ⟨e, throws_bind_error rfl _ _, fun rc hrc t => ?_⟩
      cases hrc
      rw [ht]
      exact fun h => by cases h
    | ok timeoutUs =>
      refine .inr ⟨routerConfig, timeoutUs, rfl, ht, ?_⟩
      rw [throws_bind_ok rfl, modify_bind]
      cases hkvs : streams routerConfig.json with
      | error e => exact .inl ⟨e, e, rfl, throws_bind_error rfl _ _⟩
      | ok kvs =>
        refine .inr ⟨kvs, rfl, ?_⟩
        rw [throws_bind_ok rfl]
        refine (configureGroups_ends kvs _).bind ?_ ?_
        · intro hall
          rw [touched_of_all hall, hall]
          exact .ok _
        · intro hall
          rw [hall]
          exact ⟨rfl, rfl⟩

theorem reconcileConfig_of_error {loaded : Except Err Config} {s t : Router} {e : Err}
    (h : applyConfig cfg clock loaded s = .error e t) :
    reconcileConfig cfg clock loaded s = if t.firstConfigLoadSuccess then .failed t else .exited := by
  rw [reconcileConfig, h]

/-- A failed reload leaves the router as it was exactly when it assigned nothing new. -/
theorem sameAs_failed_iff {loaded : Except Err Config} {s s' : Router}
    (h : reconcileConfig cfg clock loaded s = .failed s') :
    SameAs s s' ↔ ReloadKeeps cfg s loaded := by
  rcases applyConfig_cases cfg clock loaded s with
    ⟨e, happly, hnone⟩ | ⟨routerConfig, timeoutUs, rfl, ht, ⟨e, e', hstreams, happly⟩ | ⟨kvs, hkvs, hends⟩⟩
  · rw [reconcileConfig_of_error happly] at h
    split at h
    · cases h
      refine ⟨fun _ rc hrc t ht => absurd ht (hnone rc hrc t), fun _ => .refl s⟩
    · cases h
  · rw [reconcileConfig_of_error happly] at h
    split at h
    · cases h
      constructor
      · intro hsame rc hrc t ht'
        cases hrc
        cases ht.symm.trans ht'
        refine ⟨hsame.connectionTimeoutUs.symm, fun kvs hkvs => ?_⟩
        rw [hstreams] at hkvs
        cases hkvs
      · intro hkeeps
        exact ⟨(hkeeps routerConfig rfl timeoutUs ht).1.symm, (SameAs.refl s).streamGroups⟩
    · cases h
  · cases hall : kvs.all fun kv => (assigned cfg kv.2).complete with
    | true =>
      rw [hall] at hends
      have hends : applyConfig cfg clock (.ok routerConfig) s = .ok () _ := hends
      rw [reconcileConfig, hends] at h
      cases h
    | false =>
      rw [hall] at hends
      obtain ⟨e, he⟩ := hends
      rw [reconcileConfig_of_error he] at h
      simp only [Bool.false_eq_true, if_false] at h
      split at h
      · cases h
        have hnodup := (routerConfig.keys kvs hkvs).sublist ((touched_sublist cfg kvs).map Prod.fst)
        have hiff := sameAs_foldl_iff cfg clock hnodup
          (show ({ s with connectionTimeoutUs := timeoutUs } : Router).streamGroups = s.streamGroups from rfl)
        have htimeout := (find?_foldl_configuredGroup cfg clock _ hnodup
          { s with connectionTimeoutUs := timeoutUs }).1
        constructor
        · intro hsame rc hrc t ht'
          cases hrc
          cases ht.symm.trans ht'
          refine ⟨hsame.connectionTimeoutUs.symm.trans htimeout, fun kvs' hkvs' => ?_⟩
          cases hkvs.symm.trans hkvs'
          exact hiff.mp hsame.streamGroups
        · intro hkeeps
          obtain ⟨htime, hgroups⟩ := hkeeps routerConfig rfl timeoutUs ht
          exact ⟨htimeout.trans htime.symm, hiff.mpr (hgroups kvs hkvs)⟩
      · cases h

theorem not_loaded_of_error {loaded : Except Err Config} {s t s' : Router} {e : Err}
    (h : applyConfig cfg clock loaded s = .error e t) :
    reconcileConfig cfg clock loaded s ≠ .loaded s' := by
  rw [reconcileConfig_of_error h]
  split
  · exact fun h => by cases h
  · exact fun h => by cases h

/-- The groups after a reload that succeeds: those of the file, configured. -/
theorem loaded_groups {loaded : Except Err Config} {s s' : Router}
    (h : reconcileConfig cfg clock loaded s = .loaded s') :
    ∃ routerConfig kvs, loaded = .ok routerConfig ∧ streams routerConfig.json = .ok kvs ∧
      (∀ kv ∈ kvs, (assigned cfg kv.2).complete = true) ∧
      (∀ kv ∈ kvs, s'.streamGroups.find? kv.1 = some (configured cfg s'.connectionTimeoutUs (clock kv.1)
        kv.2 ((s.streamGroups.find? kv.1).getD {}))) ∧
      ∀ name, name ∉ kvs.map Prod.fst → s'.streamGroups.find? name = none := by
  rcases applyConfig_cases cfg clock loaded s with
    ⟨e, happly, -⟩ | ⟨routerConfig, timeoutUs, rfl, ht, ⟨e, e', -, happly⟩ | ⟨kvs, hkvs, hends⟩⟩
  · exact absurd h (not_loaded_of_error happly)
  · exact absurd h (not_loaded_of_error happly)
  · cases hall : kvs.all fun kv => (assigned cfg kv.2).complete with
    | false =>
      rw [hall] at hends
      obtain ⟨e, he⟩ := hends
      exact absurd h (not_loaded_of_error he)
    | true =>
      rw [hall] at hends
      have hends : applyConfig cfg clock (.ok routerConfig) s = .ok () _ := hends
      rw [reconcileConfig, hends] at h
      cases h
      obtain ⟨htimeout, -, hin, hout⟩ := find?_foldl_configuredGroup cfg clock kvs
        (routerConfig.keys kvs hkvs) { s with connectionTimeoutUs := timeoutUs }
      refine ⟨routerConfig, kvs, rfl, hkvs, List.all_eq_true.mp hall, fun kv hkv => ?_, fun name hname => ?_⟩
      · show (Assoc.retain _ _).find? _ = some (configured cfg _ _ _ _)
        rw [Assoc.find?_retain, if_pos (List.mem_map_of_mem hkv), hin kv hkv]
        show some (configured cfg timeoutUs _ _ _) = some (configured cfg
          (kvs.foldl (configuredGroup cfg clock) _).connectionTimeoutUs _ _ _)
        rw [htimeout]
      · show (Assoc.retain _ _).find? _ = none
        rw [Assoc.find?_retain, if_neg hname]

/-- Every live socket was opened with what its group has. -/
def RouterOk (s : Router) : Prop := ∀ name g, s.streamGroups.find? name = some g → GroupOk g

omit [Golpe] in
theorem RouterOk.sockets {s : Router} (h : RouterOk s) (name : Bytes) :
    SocketsOk ((s.streamGroups.find? name).getD {}) := by
  cases hfind : s.streamGroups.find? name with
  | none => exact fun _ _ h => by cases h
  | some g => exact (h name g hfind).sockets

theorem RouterOk.loaded {loaded : Except Err Config} {s s' : Router} (hs : RouterOk s)
    (h : reconcileConfig cfg clock loaded s = .loaded s') : RouterOk s' := by
  obtain ⟨routerConfig, kvs, -, -, hall, hin, hout⟩ := loaded_groups h
  intro name g hg
  by_cases hname : name ∈ kvs.map Prod.fst
  · obtain ⟨kv, hkv, rfl⟩ := List.mem_map.mp hname
    rw [hin kv hkv] at hg
    cases hg
    exact .configured (hs.sockets kv.1) (hall kv hkv)
  · rw [hout name hname] at hg
    cases hg

omit [Golpe] in
theorem RouterOk.sameAs {s s' : Router} (hs : RouterOk s) (h : SameAs s s') : RouterOk s' := by
  intro name g' hg'
  have hrel := h.streamGroups name
  rw [hg'] at hrel
  cases hfind : s.streamGroups.find? name with
  | none =>
    rw [hfind] at hrel
    cases hrel
  | some g =>
    rw [hfind] at hrel
    cases hrel with
    | some hsame => exact hsame.groupOk (hs name g hfind)

omit [Golpe] in
theorem RouterOk.withGroup {s : Router} (hs : RouterOk s) (groupName : Bytes)
    {f : StreamGroup → StreamGroup} (hf : ∀ g, GroupOk g → GroupOk (f g)) :
    RouterOk (s.withGroup groupName f) := by
  unfold Router.withGroup
  split
  · exact hs
  · rename_i g hg
    intro name g' hg'
    have hg' : (s.streamGroups.set groupName (f g)).find? name = some g' := hg'
    rw [Assoc.find?_set] at hg'
    split at hg'
    · rw [hg] at hg'
      cases hg'
      exact hf g (hs groupName g hg)
    · exact hs name g' hg'

/-- A reload that fails assigns nothing new. -/
def Careful (cfg : Cfg) (s : Router) : Action → Prop
  | .reload clock loaded => ∀ s', reconcileConfig cfg clock loaded s = .failed s' → ReloadKeeps cfg s loaded
  | _ => True

/-- The states of the runs, from an empty router on, whose failed reloads assign nothing new. -/
inductive Reached (cfg : Cfg) : Router → Prop where
  | start : Reached cfg {}
  | step {s s' : Router} (a : Action) : Reached cfg s → Careful cfg s a → act cfg s a = some s' → Reached cfg s'

theorem RouterOk.act {s s' : Router} {a : Action} (hs : RouterOk s) (hcareful : Careful cfg s a)
    (h : act cfg s a = some s') : RouterOk s' := by
  cases a with
  | reload clock loaded =>
    simp only [Router.act] at h
    cases hrec : reconcileConfig cfg clock loaded s with
    | loaded t =>
      rw [hrec] at h
      cases h
      exact hs.loaded hrec
    | failed t =>
      rw [hrec] at h
      cases h
      exact hs.sameAs ((sameAs_failed_iff hrec).mpr (hcareful _ hrec))
    | exited =>
      rw [hrec] at h
      cases h
  | connOpen groupName url id =>
    cases h
    exact hs.withGroup groupName fun g hg => hg.connOpen url id
  | connClose groupName url id =>
    cases h
    exact hs.withGroup groupName fun g hg => hg.connClose url id
  | tryConnects groupName clock =>
    cases h
    exact hs.withGroup groupName fun g hg => hg.tryConnects _ clock

theorem Reached.routerOk {s : Router} (h : Reached cfg s) : RouterOk s := by
  induction h with
  | start => exact fun _ _ h => by cases h
  | step a _ hcareful hact ih => exact ih.act hcareful hact

/-- **A failed reload leaves every group, its connections and the timeout as they were exactly when it
assigned nothing new before it failed.  In a run whose failed reloads are such, a reload that succeeds
keeps a live socket of a url that stays exactly when the socket was opened with the direction and the
filter of the new file.** -/
theorem failedReload_keeps_iff (cfg : Cfg) :
    (∀ (clock : Bytes → Nat → Nat) (loaded : Except Err Config) (s s' : Router),
      reconcileConfig cfg clock loaded s = .failed s' → (SameAs s s' ↔ ReloadKeeps cfg s loaded)) ∧
    ∀ s, Reached cfg s → ∀ (clock : Bytes → Nat → Nat) (routerConfig : Config) (s' : Router)
      (kvs : List (Bytes × Json)), reconcileConfig cfg clock (.ok routerConfig) s = .loaded s' →
      streams routerConfig.json = .ok kvs → ∀ kv ∈ kvs, ∃ dir filter g',
        newDir kv.2 = .ok dir ∧ newFilter kv.2 = .ok filter ∧
        s'.streamGroups.find? kv.1 = some g' ∧
        ∀ g, s.streamGroups.find? kv.1 = some g → ∀ url ws, url ∈ g'.urls →
          socketAt g.conns url = some (some ws) →
          socketAt g'.conns url = some (if ws.dir = dir ∧
            TaoJson.toString ws.filter = TaoJson.toString filter then some ws else none) := by
  refine ⟨fun clock loaded s s' h => sameAs_failed_iff h, ?_⟩
  intro s hs clock routerConfig s' kvs hrec hkvs kv hkv
  obtain ⟨rc, kvs', hrc, hkvs', hall, hin, -⟩ := loaded_groups hrec
  cases hrc
  cases hkvs.symm.trans hkvs'
  obtain ⟨dir, filter, fg, hdir, hfilter, -⟩ := assigned_complete (hall kv hkv)
  refine ⟨dir, filter, _, hdir, hfilter, hin kv hkv, fun g hg url ws hurl hws => ?_⟩
  rw [hg] at hurl ⊢
  exact socketAt_configured (hs.routerOk kv.1 g hg).sockets (hall kv hkv) hdir hfilter hws hurl

end Reload

/-! ## A file without urls -/

/-- A file with one group. -/
def Config.single (spec : Json) : Config where
  json := .object [(ascii "streams", .object [(ascii "g", spec)])]
  keys := by
    intro kvs h
    cases h
    simp

def specWith (fields : List (Bytes × Json)) (dir : String) : Json :=
  .object ((ascii "dir", .string (ascii dir)) :: fields)

def oneUrl : List (Bytes × Json) := [(ascii "urls", .array [.string (ascii "ws://a")])]

/-- The router after a first load and a socket. -/
def startedRouter : Router :=
  match @reconcileConfig Golpe.plain TaoJson.braces {} (fun _ _ => 10 ^ 15)
      (.ok (.single (specWith oneUrl "down"))) {} with
  | .loaded s => s.withGroup (ascii "g") fun g => g.connOpen (ascii "ws://a") 1
  | _ => {}

theorem startedRouter_reached : @Reached Golpe.plain TaoJson.braces {} startedRouter := by
  let _ : Golpe := Golpe.plain
  let _ : TaoJson := TaoJson.braces
  refine .step (.connOpen (ascii "g") (ascii "ws://a") 1) (.step (.reload (fun _ _ => 10 ^ 15)
    (.ok (.single (specWith oneUrl "down")))) .start ?_ rfl) trivial rfl
  intro s' h
  cases h

/-- A file without urls fails, and with the old direction it changes nothing; a file with another
direction closes the socket. -/
theorem failedReload_keeps_sameDir : ∃ s', @reconcileConfig Golpe.plain TaoJson.braces {} (fun _ _ => 0)
      (.ok (.single (specWith [] "down"))) startedRouter = .failed s' ∧ SameAs startedRouter s' ∧
    ∃ s'' g', @reconcileConfig Golpe.plain TaoJson.braces {} (fun _ _ => 0)
      (.ok (.single (specWith oneUrl "both"))) startedRouter = .loaded s'' ∧
      s''.streamGroups.find? (ascii "g") = some g' ∧ socketAt g'.conns (ascii "ws://a") = some none := by
  let _ : Golpe := Golpe.plain
  let _ : TaoJson := TaoJson.braces
  obtain ⟨hfailed, hloaded⟩ := failedReload_keeps_iff {}
  refine ⟨_, rfl, (hfailed (fun _ _ => 0) (.ok (.single (specWith [] "down"))) startedRouter _ rfl).mpr ?_,
    ?_⟩
  · intro routerConfig hloaded timeoutUs htimeout
    cases hloaded
    cases htimeout
    refine ⟨rfl, fun kvs hkvs kv hkv => ?_⟩
    cases hkvs
    cases List.mem_singleton.mp hkv
    refine ⟨_, rfl, ?_, ?_, ?_, ?_, ?_, ?_⟩
    · intro dir hdir
      cases hdir
      rfl
    · intro str hstr
      cases hstr
      rfl
    · intro f hf
      cases hf
      exact ⟨rfl, rfl⟩
    · intro p hp
      cases hp
      exact ⟨rfl, rfl⟩
    · intro urls hurls
      cases hurls
    · intro hcomplete
      cases hcomplete
  · obtain ⟨dir, filter, g', hdir, hfilter, hg', hkept⟩ := hloaded startedRouter startedRouter_reached
      (fun _ _ => 0) (.single (specWith oneUrl "both")) _ _ rfl rfl _ List.mem_cons_self
    refine ⟨_, g', rfl, hg', ?_⟩
    have h := hkept _ rfl (ascii "ws://a") ⟨1, ascii "down", .object []⟩ ?_ rfl
    · rw [h, if_neg]
      rintro ⟨hd, -⟩
      cases hdir
      exact absurd hd (by decide)
    · cases hg'
      decide

/-- The file without urls and with another direction: the reload fails, and the group has the new
direction while its socket was opened with the old one. -/
theorem failedReload_changes_dir : ¬ ∀ (clock : Bytes → Nat → Nat) (loaded : Except Err Config)
    (s s' : Router), @Reached Golpe.plain TaoJson.braces {} s →
    @reconcileConfig Golpe.plain TaoJson.braces {} clock loaded s = .failed s' → SameAs s s' := by
  let _ : Golpe := Golpe.plain
  let _ : TaoJson := TaoJson.braces
  intro h
  have hsame := h (fun _ _ => 0) (.ok (.single (specWith [] "both"))) startedRouter _
    startedRouter_reached rfl
  have hrel := hsame.streamGroups (ascii "g")
  cases hrel with
  | some hg => exact absurd hg.dir (by decide)

end Router

end Strfry
