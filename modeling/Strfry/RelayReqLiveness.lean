import Strfry.Lib.Inevitable
import Strfry.QuerySchedulerProgress
import Strfry.RelayReqSpec

/-!
# Every REQ is answered

Let nothing more arrive and nothing be committed: the query thread and the monitor thread take their
turns, in any order and by any clock (`ThreadStep`).  Then no turn throws or waits for ever, and both
threads come to rest (`every_req_answered`): the REQs that were not superseded, closed or disconnected
meanwhile have had one EOSE each.

A turn of the query thread that was begun in an older snapshot is finished first.  From then on what is
to do is a number that every step lowers: the messages on their way, what each new query will take, and
the workload of the queue (`Rank`).
-/

namespace Strfry

namespace ReqSystem

open DBQuery (Timed Due Scannable)

/-! ## Steps of the threads -/

section
variable [StdSort] (cfg : Cfg)

/-- A step of one of the threads. -/
inductive ThreadStep (s : ReqSystem) : ReqSystem → Prop where
  | workerWake (batch rest : List MsgReqWorker) (hidle : s.worker.txn = none)
      (hin : s.worker.inbox = batch ++ rest) (hwake : batch ≠ [] ∨ s.worker.queries.running ≠ []) :
      ThreadStep s { s with
        worker.inbox := rest
        worker.batch := batch
        worker.txn := some s.store.db }
  | workerHandle (txn : Db) (msg : MsgReqWorker) (rest : List MsgReqWorker) (p : Nat)
      (pauses : List DBQuery.Pause) (s' : ReqSystem) (htxn : s.worker.txn = some txn)
      (hbatch : s.worker.batch = msg :: rest) (hp : s.worker.queries.heap.find? p = none) (ht : Timed pauses)
      (h : handleReq cfg txn p pauses { s with worker.batch := rest } msg = .ok s') : ThreadStep s s'
  | workerEnd (txn : Db) (pauses : List DBQuery.Pause) (s' : ReqSystem) (htxn : s.worker.txn = some txn)
      (hbatch : s.worker.batch = []) (ht : Timed pauses) (h : slice cfg txn pauses s = .ok s') :
      ThreadStep s { s' with worker.txn := none }
  | monitorWake (batch rest : List MsgReqMonitor) (hidle : s.monitor.txn = none)
      (hin : s.monitor.inbox = batch ++ rest) (hwake : batch ≠ []) : ThreadStep s { s with
        monitor.inbox := rest
        monitor.batch := batch
        monitor.txn := some s.store.db
        monitor.currEventId := if s.monitor.currEventId > s.store.db.getMostRecentLevId then
          s.store.db.getMostRecentLevId else s.monitor.currEventId
        log.seen := s.store.db
        log.turn := [] }
  | monitorHandle (txn : Db) (msg : MsgReqMonitor) (rest : List MsgReqMonitor) (m : Nat) (s' : ReqSystem)
      (htxn : s.monitor.txn = some txn) (hbatch : s.monitor.batch = msg :: rest)
      (hm : ∀ n sub, msg = .newSub n sub → ActiveMonitors.Fresh s.monitor.monitors sub m)
      (h : handleMonitor cfg txn m { s with
        monitor.batch := rest
        log.turn := s.log.turn ++ [msg] } msg = .ok s') : ThreadStep s s'
  | monitorEnd (txn : Db) (htxn : s.monitor.txn = some txn) (hbatch : s.monitor.batch = []) :
      ThreadStep s { s with monitor.txn := none }

theorem ThreadStep.toStep [Golpe] [TaoJson] {cfg : Cfg} {P : MsgReqWorker → Prop} {s s' : ReqSystem}
    (h : ThreadStep cfg s s') : ReqStep cfg P s s' := by
  cases h with
  | workerWake batch rest hidle hin hwake => exact .workerWake batch rest hidle hin hwake
  | workerHandle txn msg rest p pauses s' htxn hbatch hp _ h =>
    exact .workerHandle txn msg rest p pauses s' htxn hbatch hp h
  | workerEnd txn pauses s' htxn hbatch _ h => exact .workerEnd txn pauses s' htxn hbatch h
  | monitorWake batch rest hidle hin hwake => exact .monitorWake batch rest hidle hin hwake
  | monitorHandle txn msg rest m s' htxn hbatch hm h => exact .monitorHandle txn msg rest m s' htxn hbatch hm h
  | monitorEnd txn htxn hbatch => exact .monitorEnd txn htxn hbatch

end

/-! ## What holds in every state -/

/-- REQs of clients, whose filters can be scanned for. -/
def Answerable [Golpe] (msg : MsgReqWorker) : Prop := ∀ sub, msg = .newSub sub →
  sub.filterGroup.Built ∧ sub.countOnly = false ∧ ∀ f ∈ sub.filterGroup.filters, DBScan.SmallFields f

section
variable [Golpe] [StdSort] (cfg : Cfg)

/-- The states reached over databases that can be scanned. -/
inductive Served [TaoJson] : ReqSystem → Prop where
  | init (db : Db) (tracker : EphemeralSubTracker) (hdb : Scannable db) : Served {
      store := { db := db, assigned := db.event.rows.map fun r => (r.1, r.2.buf) }
      monitor := { monitors := ({}, tracker) }
      log := { seen := db } }
  | step {s s' : ReqSystem} (h : Served s) (hs : ReqStep cfg Answerable s s') (hdb : Scannable s'.store.db) :
      Served s'

structure Sound (s : ReqSystem) : Prop where
  inv : ReqInv cfg Answerable s
  view : HandOff.Reached cfg s.view
  runs : ∀ k, s.worker.queries.RunsOver Scannable k
  snapshot : ∀ txn, s.worker.txn = some txn → Scannable txn
  store : Scannable s.store.db

end

section
variable [StdSort] {cfg : Cfg} {s s' : ReqSystem} {txn : Db} {pauses : List DBQuery.Pause}

/-- A slice runs the queue, and passes on one message at most. -/
theorem slice_process (h : slice cfg txn pauses s = .ok s') :
    (∃ ran, s.worker.queries.process true txn pauses = .ok (s'.worker.queries, ran)) ∧
      ∃ l, s'.monitor.inbox = s.monitor.inbox ++ l ∧ l.length ≤ 1 := by
  unfold slice at h
  obtain ⟨⟨queries, ran⟩, hp, h⟩ := bind_eq_ok.mp h
  cases ran with
  | none =>
    cases h
    exact ⟨⟨_, hp⟩, [], (List.append_nil _).symm, Nat.zero_le _⟩
  | some ran =>
    cases h
    refine ⟨⟨_, hp⟩, _, rfl, ?_⟩
    unfold callbacks
    cases ran.total with
    | none => exact Nat.zero_le _
    | some total =>
      dsimp only
      split
      · exact Nat.zero_le _
      · exact le_rfl

/-- What the queue and the monitor's inbox are once a message is handled. -/
inductive HandledReq (cfg : Cfg) (txn : Db) (p : Nat) (pauses : List DBQuery.Pause) (s s' : ReqSystem) :
    MsgReqWorker → Prop
  | newSub (sub : Subscription) (added : Bool) (queries : QueryScheduler) (ran : Option QueryScheduler.Ran)
      (hadd : s.worker.queries.addSub cfg txn sub p = (added, queries))
      (hrun : queries.process true txn pauses = .ok (s'.worker.queries, ran)) :
      HandledReq cfg txn p pauses s s' (.newSub sub)
  | removeSub (connId : Nat) (subId : SubId)
      (hq : s'.worker.queries = s.worker.queries.removeSub connId subId) :
      HandledReq cfg txn p pauses s s' (.removeSub connId subId)
  | closeConn (connId : Nat) (hq : s'.worker.queries = s.worker.queries.closeConn connId) :
      HandledReq cfg txn p pauses s s' (.closeConn connId)

theorem handleReq_handled {p : Nat} {msg : MsgReqWorker} (h : handleReq cfg txn p pauses s msg = .ok s') :
    HandledReq cfg txn p pauses s s' msg ∧ ∃ l, s'.monitor.inbox = s.monitor.inbox ++ l ∧ l.length ≤ 1 := by
  cases msg with
  | newSub sub =>
    unfold handleReq at h
    simp only [] at h
    obtain ⟨⟨ran, hrun⟩, hinbox⟩ := slice_process h
    exact ⟨.newSub sub _ _ ran rfl hrun, hinbox⟩
  | removeSub connId subId =>
    cases h
    exact ⟨.removeSub connId subId rfl, _, rfl, le_rfl⟩
  | closeConn connId =>
    cases h
    exact ⟨.closeConn connId rfl, _, rfl, le_rfl⟩

end

section
variable [Golpe] [StdSort] {cfg : Cfg} {s s' : ReqSystem}

omit [StdSort] in
theorem Answerable.valid {sub : Subscription} (h : Answerable (.newSub sub)) :
    ∀ f ∈ sub.filterGroup.filters, f.Valid := fun f hf => ((h sub rfl).1.valid f hf).1

/-- The frames of the two threads. -/
theorem Sound.workerFrame (h : Sound cfg s) {txn : Db} {msg : MsgReqWorker} {rest : List MsgReqWorker} {p : Nat}
    {pauses : List DBQuery.Pause} (htxn : s.worker.txn = some txn) (hbatch : s.worker.batch = msg :: rest)
    (hp : s.worker.queries.heap.find? p = none)
    (hhandle : handleReq cfg txn p pauses { s with worker.batch := rest } msg = .ok s') :
    WorkerFrame { s with worker.batch := rest } s' := by
  obtain ⟨done, harr, hlen⟩ := h.inv.pending
  rw [hbatch] at harr
  have hmsg : s.log.arrived[s.log.handled]? = some msg := by
    rw [harr, ← hlen, List.cons_append, List.getElem?_append_right le_rfl, Nat.sub_self]
    rfl
  exact (handleReq_acts (s := { s with worker.batch := rest }) h.inv.queries hp hmsg
    (h.inv.workerTxn txn htxn) hhandle).2.1

/-- A subscription for the monitor has the filters of a REQ. -/
theorem Sound.mailed (h : Sound cfg s) {n : Nat} {sub : Subscription}
    (hmsg : .newSub n sub ∈ s.monitor.batch ++ s.monitor.inbox) : ∀ f ∈ sub.filterGroup.filters, f.Valid := by
  obtain ⟨-, sub0, h0, hsub⟩ := h.view.held.mailed n sub hmsg
  rw [hsub]
  exact (h.inv.messages _ (List.mem_of_getElem? h0)).valid

theorem Sound.cursor (h : Sound cfg s) {txn : Db} (htxn : s.monitor.txn = some txn) : txn = s.log.seen ∧
    ActiveMonitors.Inv s.monitor.monitors.1 s.monitor.currEventId ∧
    s.monitor.currEventId ≤ s.log.seen.event.lastId := by
  obtain ⟨hseen, hcur⟩ := h.inv.monitorTxn txn htxn
  have hmonitors := h.inv.monitors
  rw [Nat.min_eq_left hcur] at hmonitors
  exact ⟨hseen, hmonitors, hcur⟩

theorem Sound.monitorFrame (h : Sound cfg s) {txn : Db} {msg : MsgReqMonitor} {rest : List MsgReqMonitor}
    {m : Nat} (htxn : s.monitor.txn = some txn) (hbatch : s.monitor.batch = msg :: rest)
    (hm : ∀ n sub, msg = .newSub n sub → ActiveMonitors.Fresh s.monitor.monitors sub m)
    (hhandle : handleMonitor cfg txn m { s with
      monitor.batch := rest
      log.turn := s.log.turn ++ [msg] } msg = .ok s') : MonitorFrame { s with monitor.batch := rest } s' := by
  obtain ⟨rfl, hmonitors, hcur⟩ := h.cursor htxn
  refine (handleMonitor_acts hmonitors hcur hbatch ?_ hm hhandle).2.2.1
  rintro n sub rfl
  exact h.mailed (by rw [hbatch]; exact List.mem_cons_self)

/-- Every step keeps what is known. -/
theorem Sound.step [TaoJson] (h : Sound cfg s) (hs : ReqStep cfg Answerable s s') (hdb : Scannable s'.store.db) :
    Sound cfg s' := by
  obtain ⟨hinv, hacts⟩ := h.inv.step h.view.held (fun sub hsub => hsub.valid) hs
  have hrest : (∀ k, s'.worker.queries.RunsOver Scannable k) ∧
      ∀ txn, s'.worker.txn = some txn → Scannable txn := by
    cases hs with
    | workerWake =>
      refine ⟨h.runs, fun txn htxn => ?_⟩
      cases htxn
      exact h.store
    | workerHandle txn msg rest p pauses s' htxn hbatch hp hhandle =>
      have hsc := h.snapshot txn htxn
      refine ⟨fun k => ?_, fun txn' htxn' => ?_⟩
      · cases (handleReq_handled hhandle).1 with
        | newSub sub added queries ran hadd hrun =>
          exact ((h.runs k).addSub h.inv.queries hp hadd).process (h.inv.queries.addSub _ _ _ hp hadd).1 hsc hrun
        | removeSub connId subId hq =>
          rw [hq]
          exact (h.runs k).removeSub h.inv.queries connId subId
        | closeConn connId hq =>
          rw [hq]
          exact (h.runs k).closeConn h.inv.queries connId
      · rw [(h.workerFrame htxn hbatch hp hhandle).txn] at htxn'
        exact h.snapshot txn' htxn'
    | workerEnd txn pauses s1 htxn hbatch hslice =>
      obtain ⟨⟨ran, hrun⟩, -⟩ := slice_process hslice
      exact ⟨fun k => (h.runs k).process h.inv.queries (h.snapshot txn htxn) hrun, fun txn htxn => by cases htxn⟩
    | monitorHandle txn msg rest m s' htxn hbatch hm hhandle =>
      rw [(h.monitorFrame htxn hbatch hm hhandle).worker]
      exact ⟨h.runs, h.snapshot⟩
    | _ => exact ⟨h.runs, h.snapshot⟩
  exact ⟨hinv, h.view.acts hacts, hrest.1, hrest.2, hdb⟩

theorem Served.sound [TaoJson] (h : Served cfg s) : Sound cfg s := by
  induction h with
  | init db tracker hdb =>
    refine ⟨.init db tracker, .init db maxU64, fun k q hq => ?_, fun txn htxn => ?_, hdb⟩
    · cases hq
    · cases htxn
  | step _ hs hdb ih => exact ih.step hs hdb

/-! ## A step is possible -/

/-- The queue has a workload on any database that can be scanned. -/
theorem Sound.exists_workload (h : Sound cfg s) {txn : Db} (htxn : Scannable txn) :
    ∃ K, s.worker.queries.Workload txn K := by
  refine QueryScheduler.exists_workload _ fun p q hq hdead => ?_
  have hlive : s.worker.queries.live q.sub.connId q.sub.subId = some q :=
    h.inv.queries.live_eq.mpr ⟨p, hq, hdead, rfl⟩
  obtain ⟨snaps, out, hsnaps, hrun⟩ := h.runs q.sub.key q hlive
  have hquerying : s.view.querying q.sub.key = some ⟨s.log.serving q.sub.key, q.sub, q.sentEventsFull⟩ := by
    show (s.worker.queries.live q.sub.connId q.sub.subId).map _ = _
    rw [hlive]
    rfl
  obtain ⟨sub0, h0, -, hfg⟩ := (h.view.held.querying _ _ hquerying).request
  obtain ⟨hbuilt, -, hsmall⟩ := h.inv.messages _ (List.mem_of_getElem? h0) sub0 rfl
  replace hfg : sub0.filterGroup = q.sub.filterGroup := hfg
  rw [hfg] at hbuilt hsmall
  exact DBQuery.exists_due (DBQuery.planned_of_built hbuilt hsmall) hsnaps htxn hrun

omit [Golpe] in
/-- A slice comes back, when it is given time. -/
theorem exists_slice {txn : Db} {K : Nat} (hinv : s.worker.queries.Inv cfg)
    (h : s.worker.queries.Workload txn K) : ∃ pauses, Timed pauses ∧ ∃ s', slice cfg txn pauses s = .ok s' := by
  obtain ⟨pauses, ht, r, hr⟩ := h.exists_process hinv true
  exact ⟨pauses, ht, _, bind_eq_ok.mpr ⟨r, hr, rfl⟩⟩

/-- A REQ on its way to the worker takes so many turns, once its query is begun. -/
theorem Sound.exists_due (h : Sound cfg s) {sub : Subscription}
    (hmsg : .newSub sub ∈ s.worker.batch ++ s.worker.inbox) {txn : Db} (htxn : Scannable txn) (txn' : Db) :
    ∃ k, Due txn { sub := QueryScheduler.begun txn' sub } k := by
  obtain ⟨done, harr, -⟩ := h.inv.pending
  obtain ⟨hbuilt, -, hsmall⟩ := h.inv.messages _ (harr ▸ List.mem_append_right done hmsg) sub rfl
  have hstart : DBQuery.Slices _ [] false ({ sub := QueryScheduler.begun txn' sub }, []) := .start
  exact DBQuery.exists_due (DBQuery.planned_of_built hbuilt hsmall) (by simp) htxn hstart

omit [Golpe] [StdSort] in
/-- An address that is not in use. -/
theorem exists_free {β : Type} (m : Assoc Nat β) : ∃ p, m.find? p = none := by
  obtain ⟨p, hp⟩ := Infinite.exists_notMem_finset m.keys.toFinset
  exact ⟨p, (m.find?_eq_none_iff p).mpr fun hin => hp (List.mem_toFinset.mpr hin)⟩

omit [Golpe] [StdSort] in
theorem exists_processEvents (rows : List (Nat × PackedEventView)) {s : ReqSystem} {last : Nat}
    (hinv : ActiveMonitors.Inv s.monitor.monitors.1 last) (hsort : rows.Pairwise fun a b => a.1 < b.1)
    (hlast : ∀ r ∈ rows, last < r.1) : ∃ s', processEvents rows s = .ok s' := by
  induction rows generalizing s last with
  | nil => exact ⟨s, rfl⟩
  | cons r rows ih =>
    obtain ⟨hr, hsort⟩ := List.pairwise_cons.mp hsort
    obtain ⟨am, rs, hp, -, hinv', -⟩ := hinv.process (hlast r List.mem_cons_self) r.2
    unfold processEvents
    rw [hp]
    exact ih hinv' hsort hr

/-- The monitor handles any message. -/
theorem Sound.exists_handled (h : Sound cfg s) {txn : Db} {msg : MsgReqMonitor} {rest : List MsgReqMonitor}
    (htxn : s.monitor.txn = some txn) (hbatch : s.monitor.batch = msg :: rest) : ∃ m s',
      (∀ n sub, msg = .newSub n sub → ActiveMonitors.Fresh s.monitor.monitors sub m) ∧
      handleMonitor cfg txn m { s with
        monitor.batch := rest
        log.turn := s.log.turn ++ [msg] } msg = .ok s' := by
  obtain ⟨rfl, hinv, -⟩ := h.cursor htxn
  cases msg with
  | newSub n sub =>
    obtain ⟨m, hm⟩ := exists_free s.monitor.monitors.1.monitors
    have hfresh : ActiveMonitors.Fresh s.monitor.monitors sub m := by
      intro st' hst'
      obtain ⟨st, hst, -, hrem⟩ := hinv.removeSub sub.connId sub.subId
      rw [hst] at hst'
      cases hst'
      rw [hrem.monitors]
      split
      · rfl
      · exact hm
    have hmsg : .newSub n sub ∈ s.monitor.batch ++ s.monitor.inbox := by
      rw [hbatch]
      exact List.mem_cons_self
    have hv := h.mailed hmsg
    obtain ⟨-, added, monitors, hadd, -⟩ := hinv.addSub cfg
      { sub with latestEventId := s.log.seen.getMostRecentLevId } m hv hfresh
    refine ⟨m, _, fun n' sub' he => ?_, bind_eq_ok.mpr ⟨(added, monitors), hadd, rfl⟩⟩
    cases he
    exact hfresh
  | removeSub connId subId =>
    obtain ⟨st, hst, -⟩ := hinv.removeSub connId subId
    exact ⟨0, _, fun n' sub' he => (by cases he), bind_eq_ok.mpr ⟨st, hst, rfl⟩⟩
  | closeConn connId =>
    obtain ⟨st, hst, -⟩ := hinv.closeConn connId
    exact ⟨0, _, fun n' sub' he => (by cases he), bind_eq_ok.mpr ⟨st, hst, rfl⟩⟩
  | dbChange =>
    let start : ReqSystem := { s with
      monitor.batch := rest
      log.turn := s.log.turn ++ [.dbChange] }
    obtain ⟨s', hs'⟩ := exists_processEvents (s := start)
      (s.log.seen.foreachEvent (s.monitor.currEventId + 1)) hinv (s.log.seen.event.sorted.filter _) fun r hr => by
        have := of_decide_eq_true (List.mem_filter.mp hr).2
        omega
    exact ⟨0, _, fun n' sub' he => (by cases he), bind_eq_ok.mpr ⟨s', hs', rfl⟩⟩

/-- **No thread is stuck**: while there is something to do, one of them makes a step. -/
theorem Sound.enabled (h : Sound cfg s) (hbusy : s.worker.txn ≠ none ∨ ¬ Quiet s) : ∃ s', ThreadStep cfg s s' := by
  cases htxn : s.worker.txn with
  | some txn =>
    obtain ⟨K, hK⟩ := h.exists_workload (h.snapshot txn htxn)
    cases hbatch : s.worker.batch with
    | nil =>
      obtain ⟨pauses, ht, s', hs'⟩ := exists_slice h.inv.queries hK
      exact ⟨_, .workerEnd txn pauses s' htxn hbatch ht hs'⟩
    | cons msg rest =>
      obtain ⟨p, hp⟩ := exists_free s.worker.queries.heap
      cases msg with
      | newSub sub =>
        have hmsg := List.mem_append_left s.worker.inbox (hbatch ▸ List.mem_cons_self)
        obtain ⟨k, hk⟩ := h.exists_due hmsg (h.snapshot txn htxn) txn
        obtain ⟨K', -, hK'⟩ := hK.addSub h.inv.queries hk hp rfl
        have hinv' := (h.inv.queries.addSub txn sub p hp rfl).1
        obtain ⟨pauses, ht, s', hs'⟩ : ∃ pauses, Timed pauses ∧ ∃ s',
            handleReq cfg txn p pauses { s with worker.batch := rest } (.newSub sub) = .ok s' := by
          unfold handleReq
          exact exists_slice hinv' hK'
        exact ⟨s', .workerHandle txn _ rest p pauses s' htxn hbatch hp ht hs'⟩
      | removeSub connId subId =>
        exact ⟨_, .workerHandle txn _ rest p [] _ htxn hbatch hp (fun pause hp => by cases hp) rfl⟩
      | closeConn connId =>
        exact ⟨_, .workerHandle txn _ rest p [] _ htxn hbatch hp (fun pause hp => by cases hp) rfl⟩
  | none =>
    have hbatch := h.inv.workerIdle htxn
    by_cases hwork : s.worker.inbox ≠ [] ∨ s.worker.queries.running ≠ []
    · exact ⟨_, .workerWake s.worker.inbox [] htxn (List.append_nil _).symm hwork⟩
    · obtain ⟨hin, hrun⟩ := not_or.mp hwork
      rw [not_not] at hin hrun
      cases hmtxn : s.monitor.txn with
      | none =>
        refine ⟨_, .monitorWake s.monitor.inbox [] hmtxn (List.append_nil _).symm fun hmin => ?_⟩
        rcases hbusy with hbusy | hbusy
        · exact hbusy htxn
        · exact hbusy ⟨hrun, hin, hbatch, hmin, h.inv.monitorIdle hmtxn⟩
      | some txn =>
        cases hmbatch : s.monitor.batch with
        | nil => exact ⟨_, .monitorEnd txn hmtxn hmbatch⟩
        | cons msg rest =>
          obtain ⟨m, s', hm, hs'⟩ := h.exists_handled hmtxn hmbatch
          exact ⟨s', .monitorHandle txn msg rest m s' hmtxn hmbatch hm hs'⟩

/-! ## What is to do -/

/-- What the monitor has to do. -/
def monitorTodo (m : ReqMonitor) : Nat :=
  3 * m.inbox.length + m.batch.length + if m.txn.isSome then 1 else 0

/-- What the worker has to do, when its queue takes `K` turns and a message adds `c`.  A worker that is
asleep over queries in its queue has still to wake up. -/
def workerTodo (c : MsgReqWorker → Nat) (K : Nat) (w : ReqWorker) : Nat :=
  4 * K + (w.inbox.map fun msg => 4 * c msg + 3).sum + (w.batch.map fun msg => 4 * c msg + 1).sum +
    if w.txn.isSome then 1 else if w.queries.running.isEmpty then 0 else 2

/-- There are at most `n` steps to go, the worker being in the snapshot of the database or idle. -/
def Rank (cfg : Cfg) (arrived : List MsgReqWorker) (s : ReqSystem) (n : Nat) : Prop :=
  Sound cfg s ∧ s.log.arrived = arrived ∧ (∀ txn, s.worker.txn = some txn → txn = s.store.db) ∧
    ∃ (K : Nat) (c : MsgReqWorker → Nat), s.worker.queries.Workload s.store.db K ∧
      (∀ sub, .newSub sub ∈ s.worker.batch ++ s.worker.inbox →
        Due s.store.db { sub := QueryScheduler.begun s.store.db sub } (c (.newSub sub))) ∧
      n = 4 * workerTodo c K s.worker + monitorTodo s.monitor

omit [Golpe] [StdSort] in
/-- A message more for the monitor weighs less than a step of the worker. -/
theorem monitorTodo_le {m m' : ReqMonitor} {l : List MsgReqMonitor} (hin : m'.inbox = m.inbox ++ l)
    (hl : l.length ≤ 1) (hbatch : m'.batch = m.batch) (htxn : m'.txn = m.txn) :
    monitorTodo m' ≤ monitorTodo m + 3 := by
  unfold monitorTodo
  rw [hin, hbatch, htxn, List.length_append]
  omega

omit [Golpe] [StdSort] in
theorem monitorTodo_wake {m m' : ReqMonitor} {batch rest : List MsgReqMonitor} (hidle : m.txn = none)
    (hbatch : m.batch = []) (hin : m.inbox = batch ++ rest) (hwake : batch ≠ []) (hin' : m'.inbox = rest)
    (hbatch' : m'.batch = batch) : monitorTodo m' < monitorTodo m := by
  have := List.length_pos_iff.mpr hwake
  unfold monitorTodo
  rw [hidle, hin, hbatch, hin', hbatch', List.length_append]
  simp only [Option.isSome_none, Bool.false_eq_true, if_false, List.length_nil]
  split <;> omega

omit [Golpe] [StdSort] in
theorem monitorTodo_handle {m m' : ReqMonitor} {msg : MsgReqMonitor} (hbatch : m.batch = msg :: m'.batch)
    (hin : m'.inbox = m.inbox) (htxn : m'.txn = m.txn) : monitorTodo m' < monitorTodo m := by
  unfold monitorTodo
  rw [hin, htxn, hbatch, List.length_cons]
  omega

omit [Golpe] [StdSort] in
theorem monitorTodo_end {m : ReqMonitor} {txn : Db} (htxn : m.txn = some txn) :
    monitorTodo { m with txn := none } < monitorTodo m := by
  unfold monitorTodo
  rw [htxn]
  simp only [Option.isSome_none, Bool.false_eq_true, if_false, Option.isSome_some, if_true]
  omega

omit [Golpe] [StdSort] in
theorem sum_wake (c : MsgReqWorker → Nat) (batch : List MsgReqWorker) :
    (batch.map fun msg => 4 * c msg + 3).sum = (batch.map fun msg => 4 * c msg + 1).sum + 2 * batch.length := by
  induction batch with
  | nil => rfl
  | cons msg batch ih =>
    simp only [List.map_cons, List.sum_cons, List.length_cons, ih]
    omega

omit [Golpe] [StdSort] in
theorem workerTodo_wake {w : ReqWorker} {batch rest : List MsgReqWorker} (hidle : w.txn = none)
    (hbatch : w.batch = []) (hin : w.inbox = batch ++ rest) (hwake : batch ≠ [] ∨ w.queries.running ≠ [])
    (c : MsgReqWorker → Nat) (K : Nat) (db : Db) :
    workerTodo c K { w with inbox := rest, batch := batch, txn := some db } < workerTodo c K w := by
  have hsum := sum_wake c batch
  unfold workerTodo
  rw [hidle, hbatch, hin, List.map_append, List.sum_append, hsum]
  simp only [Option.isSome_some, if_true, Option.isSome_none, Bool.false_eq_true, if_false, List.map_nil, List.sum_nil]
  rcases hwake with hne | hne
  · have := List.length_pos_iff.mpr hne
    omega
  · rw [if_neg (by simpa using hne)]
    omega

omit [Golpe] [StdSort] in
theorem workerTodo_handle {w w' : ReqWorker} {msg : MsgReqWorker} {rest : List MsgReqWorker} {txn : Db}
    (htxn : w.txn = some txn) (hbatch : w.batch = msg :: rest) (hin : w'.inbox = w.inbox) (hbatch' : w'.batch = rest)
    (htxn' : w'.txn = w.txn) {c : MsgReqWorker → Nat} {K K' : Nat} (hK : K' ≤ K + c msg) :
    workerTodo c K' w' < workerTodo c K w := by
  unfold workerTodo
  rw [htxn', hin, hbatch', htxn, hbatch, List.map_cons, List.sum_cons]
  simp only [Option.isSome_some, if_true]
  omega

omit [Golpe] [StdSort] in
theorem workerTodo_end {w w' : ReqWorker} {txn : Db} (htxn : w.txn = some txn) (hin : w'.inbox = w.inbox)
    (hbatch : w.batch = []) (hbatch' : w'.batch = []) (c : MsgReqWorker → Nat) {K K' : Nat} (hK : K' ≤ K)
    (hrun : w.queries.running = [] → w'.queries.running = []) (hlt : w.queries.running ≠ [] → K' < K) :
    workerTodo c K' { w' with txn := none } < workerTodo c K w := by
  unfold workerTodo
  rw [htxn, hbatch, hbatch', hin]
  simp only [Option.isSome_none, Bool.false_eq_true, if_false, Option.isSome_some, if_true]
  by_cases hempty : w.queries.running = []
  · rw [hrun hempty]
    simp only [List.isEmpty_nil, if_true]
    omega
  · have := hlt hempty
    split <;> omega

omit [Golpe] in
/-- A message that is handled leaves what it adds to the workload. -/
theorem HandledReq.workload {p K : Nat} {pauses : List DBQuery.Pause} {msg : MsgReqWorker} {txn : Db}
    {c : MsgReqWorker → Nat} (h : HandledReq cfg txn p pauses s s' msg) (hinv : s.worker.queries.Inv cfg)
    (hp : s.worker.queries.heap.find? p = none) (ht : Timed pauses) (hK : s.worker.queries.Workload txn K)
    (hc : ∀ sub, msg = .newSub sub → Due txn { sub := QueryScheduler.begun txn sub } (c msg)) :
    ∃ K' ≤ K + c msg, s'.worker.queries.Workload txn K' := by
  cases h with
  | newSub sub added queries ran hadd hrun =>
    obtain ⟨K1, hle, hK1⟩ := hK.addSub hinv (hc sub rfl) hp hadd
    obtain ⟨K2, hle', hK2, -⟩ := hK1.process (hinv.addSub txn sub p hp hadd).1 ht hrun
    exact ⟨K2, hle'.trans hle, hK2⟩
  | removeSub connId subId hq => exact ⟨K, Nat.le_add_right _ _, by rw [hq]; exact hK.removeSub connId subId⟩
  | closeConn connId hq => exact ⟨K, Nat.le_add_right _ _, by rw [hq]; exact hK.closeConn connId⟩

/-- What the threads leave alone. -/
theorem Sound.frame (h : Sound cfg s) (hs : ThreadStep cfg s s') :
    s'.store = s.store ∧ s'.log.arrived = s.log.arrived := by
  cases hs with
  | workerHandle txn msg rest p pauses s' htxn hbatch hp _ hhandle =>
    have hframe := h.workerFrame htxn hbatch hp hhandle
    exact ⟨hframe.store, hframe.arrived⟩
  | workerEnd txn pauses s1 htxn hbatch _ hslice =>
    obtain ⟨-, hframe, -⟩ := slice_acts h.inv.queries hslice
    exact ⟨hframe.store, hframe.arrived⟩
  | monitorHandle txn msg rest m s' htxn hbatch hm hhandle =>
    have hframe := h.monitorFrame htxn hbatch hm hhandle
    exact ⟨hframe.store, hframe.arrived⟩
  | _ => exact ⟨rfl, rfl⟩

/-- **Every step lowers what is to do.** -/
theorem Rank.step [TaoJson] {arrived : List MsgReqWorker} {n : Nat} (h : Rank cfg arrived s n)
    (hs : ThreadStep cfg s s') : ∃ n' < n, Rank cfg arrived s' n' := by
  obtain ⟨hsound, harr, hnow, K, c, hK, hc, rfl⟩ := h
  obtain ⟨hstore, harrived⟩ := hsound.frame hs
  have hsound' : Sound cfg s' := hsound.step hs.toStep (by rw [hstore]; exact hsound.store)
  have hrank : ∀ K', s'.worker.queries.Workload s.store.db K' →
      (∀ msg ∈ s'.worker.batch ++ s'.worker.inbox, msg ∈ s.worker.batch ++ s.worker.inbox) →
      (∀ txn, s'.worker.txn = some txn → txn = s.store.db) →
      (workerTodo c K' s'.worker < workerTodo c K s.worker ∧ monitorTodo s'.monitor ≤ monitorTodo s.monitor + 3 ∨
        workerTodo c K' s'.worker = workerTodo c K s.worker ∧ monitorTodo s'.monitor < monitorTodo s.monitor) →
      ∃ n' < 4 * workerTodo c K s.worker + monitorTodo s.monitor, Rank cfg arrived s' n' := by
    intro K' hK' hin hnow' hlt
    refine ⟨_, by omega, hsound', harrived.trans harr, ?_, K', c, ?_, ?_, rfl⟩
    · rw [hstore]
      exact hnow'
    · rw [hstore]
      exact hK'
    · rw [hstore]
      exact fun sub hsub => hc sub (hin _ hsub)
  cases hs with
  | workerWake batch rest hidle hin hwake =>
    have hbatch := hsound.inv.workerIdle hidle
    refine hrank K hK (fun msg hmsg => ?_) (fun txn htxn => (Option.some.inj htxn).symm) (Or.inl ⟨?_, ?_⟩)
    · rw [hbatch, hin]
      exact hmsg
    · exact workerTodo_wake hidle hbatch hin hwake c K s.store.db
    · exact Nat.le_add_right _ _
  | workerHandle txn msg rest p pauses s' htxn hbatch hp ht hhandle =>
    obtain rfl := hnow txn htxn
    obtain ⟨hhandled, l, hl, hlen⟩ := handleReq_handled hhandle
    have hframe := hsound.workerFrame htxn hbatch hp hhandle
    obtain ⟨K', hle, hK'⟩ := hhandled.workload hsound.inv.queries hp ht hK fun sub he => by
      subst he
      exact hc sub (List.mem_append_left _ (hbatch ▸ List.mem_cons_self))
    refine hrank K' hK' (fun m hm => ?_) ?_ (Or.inl ⟨?_, ?_⟩)
    · rw [hframe.batch, hframe.inbox] at hm
      rw [hbatch]
      exact List.mem_cons_of_mem _ hm
    · rw [hframe.txn]
      exact hnow
    · exact workerTodo_handle htxn hbatch hframe.inbox hframe.batch hframe.txn hle
    · exact monitorTodo_le hl hlen hframe.mail hframe.snapshot
  | workerEnd txn pauses s1 htxn hbatch ht hslice =>
    obtain rfl := hnow txn htxn
    obtain ⟨⟨ran, hrun⟩, l, hl, hlen⟩ := slice_process hslice
    obtain ⟨-, hframe, -⟩ := slice_acts hsound.inv.queries hslice
    obtain ⟨K', hle, hK', hlt⟩ := hK.process hsound.inv.queries ht hrun
    have hempty : s.worker.queries.running = [] → s1.worker.queries.running = [] := by
      intro hnil
      unfold QueryScheduler.process at hrun
      rw [hnil] at hrun
      rw [← (Prod.mk.inj (Except.ok.inj hrun)).1]
      exact hnil
    refine hrank K' hK' (fun m hm => ?_) (fun txn' htxn' => by cases htxn') (Or.inl ⟨?_, ?_⟩)
    · rw [← hframe.batch, ← hframe.inbox]
      exact hm
    · exact workerTodo_end htxn hframe.inbox hbatch (hframe.batch.trans hbatch) c hle hempty hlt
    · exact monitorTodo_le hl hlen hframe.mail hframe.snapshot
  | monitorWake batch rest hidle hin hwake =>
    exact hrank K hK (fun m hm => hm) hnow
      (Or.inr ⟨rfl, monitorTodo_wake hidle (hsound.inv.monitorIdle hidle) hin hwake rfl rfl⟩)
  | monitorHandle txn msg rest m s' htxn hbatch hm hhandle =>
    have hframe := hsound.monitorFrame htxn hbatch hm hhandle
    rw [hframe.worker] at hrank
    refine hrank K hK (fun m hm => hm) hnow (Or.inr ⟨rfl, ?_⟩)
    exact monitorTodo_handle (hbatch.trans (by rw [hframe.batch])) hframe.inbox hframe.txn
  | monitorEnd txn htxn hbatch =>
    exact hrank K hK (fun m hm => hm) hnow (Or.inr ⟨rfl, monitorTodo_end htxn⟩)

/-- The turn begun in an older snapshot is finished: there is a rank then. -/
theorem Sound.exists_rank (h : Sound cfg s) (hnow : ∀ txn, s.worker.txn = some txn → txn = s.store.db) :
    ∃ n, Rank cfg s.log.arrived s n := by
  obtain ⟨K, hK⟩ := h.exists_workload h.store
  have hone : ∀ msg : MsgReqWorker, ∃ k, msg ∈ s.worker.batch ++ s.worker.inbox → ∀ sub, msg = .newSub sub →
      Due s.store.db { sub := QueryScheduler.begun s.store.db sub } k := by
    intro msg
    by_cases hreq : msg ∈ s.worker.batch ++ s.worker.inbox ∧ ∃ sub, msg = .newSub sub
    · obtain ⟨hmsg, sub, rfl⟩ := hreq
      obtain ⟨k, hk⟩ := h.exists_due hmsg h.store s.store.db
      refine ⟨k, fun _ sub' he => ?_⟩
      cases he
      exact hk
    · exact ⟨0, fun hmsg sub he => absurd ⟨hmsg, sub, he⟩ hreq⟩
  choose c hc using hone
  exact ⟨_, h, rfl, hnow, K, c, hK, fun sub hsub => hc _ hsub sub rfl, rfl⟩

/-- What is to do before the turn begun in an older snapshot is finished. -/
def oldTodo (s : ReqSystem) : Nat :=
  (if s.worker.txn.isSome then 4 * (s.worker.batch.length + 1) else 0) + monitorTodo s.monitor

theorem Sound.oldTodo_lt (h : Sound cfg s) (hold : s.worker.txn ≠ none) (hs : ThreadStep cfg s s') :
    oldTodo s' < oldTodo s := by
  unfold oldTodo
  cases hs with
  | workerWake batch rest hidle => exact absurd hidle hold
  | workerHandle txn msg rest p pauses s' htxn hbatch hp _ hhandle =>
    obtain ⟨-, l, hl, hlen⟩ := handleReq_handled hhandle
    have hframe := h.workerFrame htxn hbatch hp hhandle
    have hmonitor : monitorTodo s'.monitor ≤ monitorTodo s.monitor + 3 :=
      monitorTodo_le hl hlen hframe.mail hframe.snapshot
    have hrest : s'.worker.batch = rest := hframe.batch
    have hsnap : s'.worker.txn = s.worker.txn := hframe.txn
    rw [hrest, hsnap, htxn, hbatch, List.length_cons]
    simp only [Option.isSome_some, if_true]
    omega
  | workerEnd txn pauses s1 htxn hbatch _ hslice =>
    obtain ⟨-, l, hl, hlen⟩ := slice_process hslice
    obtain ⟨-, hframe, -⟩ := slice_acts h.inv.queries hslice
    have hmonitor : monitorTodo s1.monitor ≤ monitorTodo s.monitor + 3 :=
      monitorTodo_le hl hlen hframe.mail hframe.snapshot
    rw [htxn, hbatch]
    simp only [Option.isSome_none, Bool.false_eq_true, if_false, Option.isSome_some, if_true, List.length_nil]
    omega
  | monitorWake batch rest hidle hin hwake =>
    exact Nat.add_lt_add_left (monitorTodo_wake hidle (h.inv.monitorIdle hidle) hin hwake rfl rfl) _
  | monitorHandle txn msg rest m s' htxn hbatch hm hhandle =>
    have hframe := h.monitorFrame htxn hbatch hm hhandle
    have hless : monitorTodo s'.monitor < monitorTodo s.monitor :=
      monitorTodo_handle (hbatch.trans (by rw [hframe.batch])) hframe.inbox hframe.txn
    rw [hframe.worker]
    exact Nat.add_lt_add_left hless _
  | monitorEnd txn htxn hbatch => exact Nat.add_lt_add_left (monitorTodo_end htxn) _

/-- The threads come to rest. -/
theorem Sound.quiet [TaoJson] (h : Sound cfg s) : Inevitable (ThreadStep cfg)
    (fun s' => Quiet s' ∧ Sound cfg s' ∧ s'.log.arrived = s.log.arrived) s := by
  have hold : Inevitable (ThreadStep cfg)
      (fun s' => s'.worker.txn = none ∧ Sound cfg s' ∧ s'.log.arrived = s.log.arrived) s := by
    refine .of_measure (fun s' => Sound cfg s' ∧ s'.log.arrived = s.log.arrived) oldTodo
      (fun s' hI hP => hI.1.enabled (Or.inl fun hnone => hP ⟨hnone, hI⟩)) (fun s1 s2 hI hP hs => ?_) ⟨h, rfl⟩
    obtain ⟨hstore, harr⟩ := hI.1.frame hs
    exact ⟨⟨hI.1.step hs.toStep (by rw [hstore]; exact hI.1.store), harr.trans hI.2⟩,
      hI.1.oldTodo_lt (fun hnone => hP ⟨hnone, hI⟩) hs⟩
  refine hold.trans fun s1 ⟨hnone, hsound, harr⟩ => ?_
  obtain ⟨n, hn⟩ := hsound.exists_rank fun txn htxn => by
    rw [hnone] at htxn
    cases htxn
  have hbusy : ∀ s2 m, Rank cfg s1.log.arrived s2 m →
      ¬ (Quiet s2 ∧ Sound cfg s2 ∧ s2.log.arrived = s.log.arrived) → ¬ Quiet s2 := fun s2 m hm hP hquiet =>
    hP ⟨hquiet, hm.1, hm.2.1.trans harr⟩
  exact .of_rank (Rank cfg s1.log.arrived) (fun s2 m hm hP => hm.1.enabled (Or.inr (hbusy s2 m hm hP)))
    (fun s2 s3 m hm _ hs => hm.step hs) hn

end

end ReqSystem

end Strfry
