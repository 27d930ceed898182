import Strfry.HandOffDelivery

/-!
# The two threads as a hand-off

Each step of the two threads is a sequence of acts of the hand-off: a message with the slice that
follows it begins the query, sends what the slice found and, when that completes it, hands the
subscription over; a DBChange is one act for each event it comes to.
-/

namespace Strfry

namespace ReqSystem

open HandOff (Act Acts)

def view (s : ReqSystem) : HandOff where
  arrived := s.log.arrived
  handled := s.log.handled
  querying k := (s.live k).map fun q => ⟨s.log.serving k, q.sub, q.sentEventsFull⟩
  batch := s.monitor.batch
  inbox := s.monitor.inbox
  watching k := (s.monitor.monitors.1.installed k.1 k.2).map fun sub => ⟨s.log.watching k, sub⟩
  out := s.out
  began := s.log.began
  cancelled := s.log.cancelled
  now := s.store.db
  seen := s.log.seen
  cursor := s.monitor.currEventId
  turn := s.log.turn

theorem eq_key {k : Nat × SubId} {sub : Subscription} : k = sub.key ↔ k.1 = sub.connId ∧ k.2 = sub.subId :=
  Prod.ext_iff

/-! ## The worker -/

section
variable [StdSort] {cfg : Cfg} {s s' : ReqSystem} {txn : Db} {pauses : List DBQuery.Pause}

/-- What the worker leaves alone when it handles a message. -/
structure WorkerFrame (s s' : ReqSystem) : Prop where
  store : s'.store = s.store
  inbox : s'.worker.inbox = s.worker.inbox
  batch : s'.worker.batch = s.worker.batch
  txn : s'.worker.txn = s.worker.txn
  monitors : s'.monitor.monitors = s.monitor.monitors
  mail : s'.monitor.batch = s.monitor.batch
  snapshot : s'.monitor.txn = s.monitor.txn
  cursor : s'.monitor.currEventId = s.monitor.currEventId
  arrived : s'.log.arrived = s.log.arrived
  seen : s'.log.seen = s.log.seen

omit [StdSort] in
theorem WorkerFrame.trans {a b c : ReqSystem} (h : WorkerFrame a b) (h' : WorkerFrame b c) : WorkerFrame a c where
  store := h'.store.trans h.store
  inbox := h'.inbox.trans h.inbox
  batch := h'.batch.trans h.batch
  txn := h'.txn.trans h.txn
  monitors := h'.monitors.trans h.monitors
  mail := h'.mail.trans h.mail
  snapshot := h'.snapshot.trans h.snapshot
  cursor := h'.cursor.trans h.cursor
  arrived := h'.arrived.trans h.arrived
  seen := h'.seen.trans h.seen

omit [StdSort] in
theorem view_slice (s : ReqSystem) (queries : QueryScheduler) (inbox : List MsgReqMonitor) (out : List ReqOut)
    (querying : Nat × SubId → Option Querying) (hq : ∀ k : Nat × SubId, ((queries.live k.1 k.2).map fun q =>
      (⟨s.log.serving k, q.sub, q.sentEventsFull⟩ : Querying)) = querying k) :
    view { s with worker.queries := queries, monitor.inbox := inbox, out := out } =
      { s.view with querying := querying, inbox := inbox, out := out } := by
  obtain rfl := funext hq
  rfl

/-- **A slice** sends what its query found, and hands the subscription over when it is complete. -/
theorem slice_acts (hinv : s.worker.queries.Inv cfg) (h : slice cfg txn pauses s = .ok s') :
    s'.worker.queries.Inv cfg ∧ WorkerFrame s s' ∧ s'.log.handled = s.log.handled ∧ Acts cfg s.view s'.view := by
  unfold slice at h
  obtain ⟨⟨queries, ran⟩, hp, h⟩ := bind_eq_ok.mp h
  obtain ⟨hinv', hnone, hsome⟩ := hinv.process hp
  cases ran with
  | none =>
    cases h
    refine ⟨hinv', ⟨rfl, rfl, rfl, rfl, rfl, rfl, rfl, rfl, rfl, rfl⟩, rfl, ?_⟩
    have hview : view { s with worker.queries := queries } = s.view := by
      unfold view live
      simp only [hnone rfl]
    rw [hview]
  | some ran =>
    cases h
    refine ⟨hinv', ⟨rfl, rfl, rfl, rfl, rfl, rfl, rfl, rfl, rfl, rfl⟩, rfl, ?_⟩
    obtain ⟨q, q', calls, hs⟩ := hsome ran rfl
    obtain ⟨l, hl⟩ := DBQuery.sends_process pauses hs.call
    have hsent : DBQuery.sent calls = l := hl.sent
    have hsub : q'.sub = ran.sub := hl.sub.trans hs.sub
    let cur : Querying := ⟨s.log.serving ran.sub.key, ran.sub, q.sentEventsFull⟩
    let sent : List Nat := if ran.sub.countOnly then [] else ran.levIds
    let querying : Nat × SubId → Option Querying := fun k =>
      if k = ran.sub.key then some { cur with full := q'.sentEventsFull } else s.view.querying k
    have hcur : s.view.querying ran.sub.key = some cur := by
      show (s.worker.queries.live ran.sub.connId ran.sub.subId).map _ = _
      rw [hs.before]
      show some (Querying.mk _ q.sub _) = some cur
      rw [hs.sub]
    have hsublist : sent.Sublist l := by
      unfold sent
      split
      · exact List.nil_sublist _
      · rw [hs.levIds, hsent]
        exact List.filter_sublist
    have hfound : Act cfg s.view { s.view with
        querying := querying
        out := s.out ++ sent.map fun x => .event cur.reqNo .query ran.sub.connId ran.sub.subId x } :=
      .found ran.sub.key cur l sent q'.sentEventsFull querying hcur hl.nodup hl.fresh
        (fun x hx => (hl.began x hx).trans_eq (congrArg Subscription.latestEventId hs.sub)) hl.full hsublist
        fun k => rfl
    have hafter : ∀ k : Nat × SubId, ((queries.live k.1 k.2).map fun q =>
        (⟨s.log.serving k, q.sub, q.sentEventsFull⟩ : Querying)) =
        if k = ran.sub.key then (if ran.total.isSome then none else some { cur with full := q'.sentEventsFull })
        else s.view.querying k := by
      intro k
      rw [hs.after]
      by_cases hk : k = ran.sub.key
      · subst hk
        rw [if_pos ⟨rfl, rfl⟩, if_pos rfl]
        split
        · rfl
        · show some (Querying.mk _ q'.sub _) = _
          rw [hsub]
      · rw [if_neg hk, if_neg fun ⟨hc, hi⟩ => hk (Prod.ext hc hi)]
        rfl
    have hout : ∀ {events : List ReqOut}, events = (if ran.sub.countOnly then [] else
        ran.levIds.map fun x => .event cur.reqNo .query ran.sub.connId ran.sub.subId x) →
        events = sent.map fun x => .event cur.reqNo .query ran.sub.connId ran.sub.subId x := by
      intro events he
      rw [he]
      unfold sent
      split <;> rfl
    show Acts cfg s.view (view { s with
      worker.queries := queries
      monitor.inbox := s.monitor.inbox ++ (callbacks cfg cur.reqNo ran).2
      out := s.out ++ (callbacks cfg cur.reqNo ran).1 })
    rw [view_slice s queries _ _ _ hafter]
    unfold callbacks
    simp only [hout rfl]
    cases htotal : ran.total with
    | none =>
      simp only [Option.isSome_none, Bool.false_eq_true, if_false, List.append_nil]
      exact .single hfound
    | some total =>
      simp only [Option.isSome_some, if_true]
      have hcur' : querying ran.sub.key = some { cur with full := q'.sentEventsFull } := if_pos rfl
      have hgone : ∀ k, (if k = ran.sub.key then none else s.view.querying k) =
          if k = ran.sub.key then none else querying k := by
        intro k
        by_cases hk : k = ran.sub.key
        · rw [if_pos hk, if_pos hk]
        · rw [if_neg hk, if_neg hk]
          exact (if_neg hk).symm
      cases hcount : ran.sub.countOnly with
      | true =>
        simp only [if_true, List.append_nil, ← List.append_assoc]
        exact (Relation.ReflTransGen.single hfound).tail
          (.counted ran.sub.key { cur with full := q'.sentEventsFull } _ _ _ hcur' hcount hgone)
      | false =>
        simp only [Bool.false_eq_true, if_false, ← List.append_assoc]
        exact (Relation.ReflTransGen.single hfound).tail
          (.complete ran.sub.key { cur with full := q'.sentEventsFull } _ hcur' hcount hgone)

omit [StdSort] in
theorem cancels_handle (s : ReqSystem) (D : Nat × SubId → Prop) :
    s.view.Cancels D (s.log.handle s.live D).cancelled := by
  intro n
  refine or_congr Iff.rfl ⟨?_, ?_⟩
  · rintro ⟨k, hD, hlive, rfl⟩
    obtain ⟨q, hq⟩ := Option.isSome_iff_exists.mp hlive
    refine ⟨k, ⟨s.log.serving k, q.sub, q.sentEventsFull⟩, hD, ?_, rfl⟩
    show (s.live k).map _ = _
    rw [hq]
    rfl
  · rintro ⟨k, q, hD, hq, rfl⟩
    obtain ⟨q0, hq0, rfl⟩ := Option.map_eq_some_iff.mp hq
    exact ⟨k, hD, by rw [hq0]; rfl, rfl⟩

/-- **A message for the worker** begins a query, or ends queries and is passed on. -/
theorem handleReq_acts {p : Nat} {msg : MsgReqWorker} (hinv : s.worker.queries.Inv cfg)
    (hp : s.worker.queries.heap.find? p = none) (hmsg : s.log.arrived[s.log.handled]? = some msg)
    (htxn : Evolves txn s.store.db) (h : handleReq cfg txn p pauses s msg = .ok s') :
    s'.worker.queries.Inv cfg ∧ WorkerFrame s s' ∧ s'.log.handled = s.log.handled + 1 ∧
      Acts cfg s.view s'.view := by
  cases msg with
  | newSub sub =>
    unfold handleReq at h
    simp only [] at h
    generalize ha : s.worker.queries.addSub cfg txn sub p = r at h
    obtain ⟨added, queries⟩ := r
    obtain ⟨hinv1, hlive⟩ := hinv.addSub txn sub p hp ha
    obtain ⟨hinv', hframe, hhandled, hacts⟩ := slice_acts hinv1 h
    refine ⟨hinv', .trans ?_ hframe, hhandled, .head ?_ hacts⟩
    · exact ⟨rfl, rfl, rfl, rfl, rfl, rfl, rfl, rfl, rfl, rfl⟩
    refine .begin sub added txn.event.lastId _ _ hmsg htxn.lastId ?_ (fun k => ?_) (cancels_handle s _)
    · rintro rfl
      obtain ⟨ids, hcard, hids⟩ := hinv.addSub_full ha
      refine ⟨ids, hcard, fun i hi => ⟨(hids i hi).1, ?_⟩⟩
      show ((s.live _).map _).isSome = true
      rw [Option.isSome_map]
      exact (hids i hi).2
    · show (queries.live k.1 k.2).map (fun q => (⟨Function.update s.log.serving sub.key s.log.handled k, q.sub,
        q.sentEventsFull⟩ : Querying)) = _
      rw [hlive, Function.update_apply]
      by_cases hk : k = sub.key
      · rw [if_pos (eq_key.mp hk), if_pos hk, if_pos hk]
        cases added <;> rfl
      · rw [if_neg fun h => hk (eq_key.mpr h), if_neg hk, if_neg hk]
        rfl
  | removeSub connId subId =>
    cases h
    obtain ⟨hinv', hlive, -⟩ := hinv.removeSub connId subId
    refine ⟨hinv', ⟨rfl, rfl, rfl, rfl, rfl, rfl, rfl, rfl, rfl, rfl⟩, rfl, .single ?_⟩
    refine .close _ (.removeSub connId subId) _ _ hmsg rfl (fun k => ?_) (cancels_handle s _)
    show ((s.worker.queries.removeSub connId subId).live k.1 k.2).map _ = _
    rw [hlive]
    by_cases hk : (MsgReqMonitor.removeSub connId subId).Ends k
    · rw [if_pos hk, if_pos (Prod.ext_iff.mp hk)]
      rfl
    · rw [if_neg hk, if_neg fun ⟨hc, hi⟩ => hk (Prod.ext hc hi)]
      rfl
  | closeConn connId =>
    cases h
    obtain ⟨hinv', hlive⟩ := hinv.closeConn connId
    refine ⟨hinv', ⟨rfl, rfl, rfl, rfl, rfl, rfl, rfl, rfl, rfl, rfl⟩, rfl, .single ?_⟩
    refine .close _ (.closeConn connId) _ _ hmsg rfl (fun k => ?_) (cancels_handle s _)
    show ((s.worker.queries.closeConn connId).live k.1 k.2).map _ = _
    rw [hlive]
    by_cases hk : (MsgReqMonitor.closeConn connId).Ends k
    · rw [if_pos (show k.1 = connId from hk), if_pos hk]
      rfl
    · rw [if_neg (show ¬ k.1 = connId from hk), if_neg hk]
      rfl

end

/-! ## The monitor -/

section
variable {cfg : Cfg} {s s' : ReqSystem}

/-- What the monitor changes when it handles a message. -/
structure MonitorFrame (s s' : ReqSystem) : Prop where
  store : s'.store = s.store
  worker : s'.worker = s.worker
  inbox : s'.monitor.inbox = s.monitor.inbox
  batch : s'.monitor.batch = s.monitor.batch
  txn : s'.monitor.txn = s.monitor.txn
  arrived : s'.log.arrived = s.log.arrived
  handled : s'.log.handled = s.log.handled
  seen : s'.log.seen = s.log.seen

/-- **The walk of a DBChange** is one act for each event it comes to. -/
theorem processEvents_acts (rest turn : List MsgReqMonitor) (rows : List (Nat × PackedEventView)) (c : Nat)
    (hinv : ActiveMonitors.Inv s.monitor.monitors.1 c) (hle : c ≤ s.log.seen.event.lastId)
    (hsort : rows.Pairwise fun a b => a.1 < b.1)
    (hrows : ∀ r, r ∈ rows ↔ r ∈ s.log.seen.event.rows ∧ c < r.1) (h : processEvents rows s = .ok s') :
    ∃ c', ActiveMonitors.Inv s'.monitor.monitors.1 c' ∧ c' ≤ s.log.seen.event.lastId ∧
      (∀ r ∈ s.log.seen.event.rows, r.1 ≤ c') ∧
      (∃ am out, s' = { s with monitor.monitors := (am, s.monitor.monitors.2), out := out }) ∧
      Acts cfg { s.view with batch := .dbChange :: rest, turn := turn, cursor := c }
        { s'.view with batch := .dbChange :: rest, turn := turn, cursor := c' } := by
  induction rows generalizing s c with
  | nil =>
    cases h
    refine ⟨c, hinv, hle, fun r hr => ?_, ⟨_, _, rfl⟩, .refl⟩
    by_contra hlt
    have := (hrows r).mpr ⟨hr, Nat.lt_of_not_le hlt⟩
    cases this
  | cons r rows ih =>
    unfold processEvents at h
    obtain ⟨⟨am, rs⟩, hp, h⟩ := bind_eq_ok.mp h
    obtain ⟨hr, hlt⟩ := (hrows r).mp List.mem_cons_self
    obtain ⟨hfirst, hsort⟩ := List.pairwise_cons.mp hsort
    obtain ⟨am', rs', hp', hpass, hinv', hmem⟩ := hinv.process hlt r.2
    rw [hp] at hp'
    cases hp'
    have hnext : ∀ r' ∈ s.log.seen.event.rows, c < r'.1 → r.1 ≤ r'.1 := by
      intro r' hr' hlt'
      rcases List.mem_cons.mp ((hrows r').mpr ⟨hr', hlt'⟩) with rfl | hin
      · exact le_rfl
      · exact (hfirst r' hin).le
    have hrest : ∀ r', r' ∈ rows ↔ r' ∈ s.log.seen.event.rows ∧ r.1 < r'.1 := by
      intro r'
      constructor
      · intro hin
        exact ⟨((hrows r').mp (List.mem_cons_of_mem _ hin)).1, hfirst r' hin⟩
      · rintro ⟨hr', hlt'⟩
        rcases List.mem_cons.mp ((hrows r').mpr ⟨hr', hlt.trans hlt'⟩) with rfl | hin
        · exact absurd hlt' (Nat.lt_irrefl _)
        · exact hin
    let next : ReqSystem := { s with
      monitor.monitors := (am, s.monitor.monitors.2)
      out := s.out ++ rs.map fun k => .event (s.log.watching k) .monitor k.1 k.2 r.1 }
    replace h : processEvents rows next = .ok s' := h
    obtain ⟨c', hinv'', hle', hend, ⟨am'', out, hs'⟩, hacts⟩ :=
      ih (s := next) r.1 hinv' (s.log.seen.event.le_lastId r hr) hsort hrest h
    refine ⟨c', hinv'', hle', hend, ⟨am'', out, hs'⟩, .head ?_ hacts⟩
    refine .row r rest rs s.log.watching _ rfl hr hlt hnext hpass.nodup (fun k => ?_) (fun k w hw => ?_) fun k => ?_
    · rw [hmem]
      constructor
      · rintro ⟨sub, hsub, hmark, hm⟩
        exact ⟨⟨s.log.watching k, sub⟩, by show Option.map _ _ = _; rw [hsub]; rfl, hmark, hm⟩
      · rintro ⟨w, hw, hmark, hm⟩
        obtain ⟨sub, hsub, rfl⟩ := Option.map_eq_some_iff.mp hw
        exact ⟨sub, hsub, hmark, hm⟩
    · obtain ⟨sub, -, rfl⟩ := Option.map_eq_some_iff.mp hw
      rfl
    · show (am.installed k.1 k.2).map _ = ((s.monitor.monitors.1.installed k.1 k.2).map _).map _
      rw [hpass.installed hinv, Option.map_map, Option.map_map]
      congr 1
      funext sub
      show Watching.mk _ (if k ∈ rs then _ else _) = if k ∈ rs then _ else _
      split <;> rfl

/-- **A message for the monitor** installs a REQ, removes some, or is the walk of a DBChange. -/
theorem handleMonitor_acts {msg : MsgReqMonitor} {rest : List MsgReqMonitor} {m : Nat}
    (hinv : ActiveMonitors.Inv s.monitor.monitors.1 s.monitor.currEventId)
    (hcur : s.monitor.currEventId ≤ s.log.seen.event.lastId) (hbatch : s.monitor.batch = msg :: rest)
    (hv : ∀ n sub, msg = .newSub n sub → ∀ f ∈ sub.filterGroup.filters, f.Valid)
    (hm : ∀ n sub, msg = .newSub n sub → ActiveMonitors.Fresh s.monitor.monitors sub m)
    (h : handleMonitor cfg s.log.seen m { s with
      monitor.batch := rest
      log.turn := s.log.turn ++ [msg] } msg = .ok s') :
    ActiveMonitors.Inv s'.monitor.monitors.1 s'.monitor.currEventId ∧
      s'.monitor.currEventId ≤ s.log.seen.event.lastId ∧ MonitorFrame { s with monitor.batch := rest } s' ∧
      Acts cfg s.view s'.view := by
  cases msg with
  | newSub n sub =>
    unfold handleMonitor at h
    obtain ⟨⟨added, monitors⟩, ha, h⟩ := bind_eq_ok.mp h
    cases h
    obtain ⟨hinv', hinst, hfull⟩ := @ActiveMonitors.Inv.addSub_installed _ _ _ cfg hinv
      { sub with latestEventId := s.log.seen.event.lastId } _ m (hv n sub rfl) (hm n sub rfl) added ha
    refine ⟨hinv', hcur, ⟨rfl, rfl, rfl, rfl, rfl, rfl, rfl, rfl⟩, .single ?_⟩
    refine .install n sub rest added _ hbatch (fun hf => ?_) fun k => ?_
    · obtain ⟨ids, hcard, hids⟩ := hfull hf
      refine ⟨ids, hcard, fun i hi => ⟨(hids i hi).1, ?_⟩⟩
      show (Option.map _ _).isSome = true
      rw [Option.isSome_map]
      exact (hids i hi).2
    · show (monitors.1.installed k.1 k.2).map
        (fun sub' => (⟨Function.update s.log.watching sub.key n k, sub'⟩ : Watching)) = _
      rw [hinst, Function.update_apply]
      by_cases hk : k = sub.key
      · rw [if_pos (eq_key.mp hk), if_pos hk, if_pos hk]
        cases added <;> rfl
      · rw [if_neg fun h => hk (eq_key.mpr h), if_neg hk, if_neg hk]
        rfl
  | removeSub connId subId =>
    unfold handleMonitor at h
    obtain ⟨monitors, hr, h⟩ := bind_eq_ok.mp h
    cases h
    obtain ⟨st', hst', hinv', hrem⟩ := hinv.removeSub connId subId
    rw [hst'] at hr
    cases hr
    refine ⟨hinv', hcur, ⟨rfl, rfl, rfl, rfl, rfl, rfl, rfl, rfl⟩, .single ?_⟩
    refine .uninstall _ rest _ hbatch (fun _ => rfl) (by simp) fun k => ?_
    show (monitors.1.installed k.1 k.2).map _ = _
    rw [hrem.installed hinv]
    by_cases hk : (MsgReqMonitor.removeSub connId subId).Ends k
    · rw [if_pos hk, if_pos (Prod.ext_iff.mp hk)]
      rfl
    · rw [if_neg hk, if_neg fun ⟨hc, hi⟩ => hk (Prod.ext hc hi)]
      rfl
  | closeConn connId =>
    unfold handleMonitor at h
    obtain ⟨monitors, hr, h⟩ := bind_eq_ok.mp h
    cases h
    obtain ⟨st', hst', hinv', hclosed⟩ := hinv.closeConn connId
    rw [hst'] at hr
    cases hr
    refine ⟨hinv', hcur, ⟨rfl, rfl, rfl, rfl, rfl, rfl, rfl, rfl⟩, .single ?_⟩
    refine .uninstall _ rest _ hbatch (fun _ => rfl) (by simp) fun k => ?_
    show (monitors.1.installed k.1 k.2).map _ = _
    rw [hclosed.installed hinv]
    by_cases hk : (MsgReqMonitor.closeConn connId).Ends k
    · rw [if_pos (show k.1 = connId from hk), if_pos hk]
      rfl
    · rw [if_neg (show ¬ k.1 = connId from hk), if_neg hk]
      rfl
  | dbChange =>
    unfold handleMonitor at h
    obtain ⟨s1, hp, h⟩ := bind_eq_ok.mp h
    cases h
    let start : ReqSystem := { s with
      monitor.batch := rest
      log.turn := s.log.turn ++ [.dbChange] }
    have hrows : ∀ r, r ∈ s.log.seen.foreachEvent (s.monitor.currEventId + 1) ↔
        r ∈ s.log.seen.event.rows ∧ s.monitor.currEventId < r.1 := by
      intro r
      unfold Db.foreachEvent
      rw [List.mem_filter, decide_eq_true_eq, Nat.succ_le_iff]
    obtain ⟨c, hinv', hle, hend, ⟨am, out, rfl⟩, hacts⟩ := @processEvents_acts cfg start s1 rest s.log.turn _
      s.monitor.currEventId hinv hcur (s.log.seen.event.sorted.filter _) hrows hp
    refine ⟨hinv'.mono hle, le_rfl, ⟨rfl, rfl, rfl, rfl, rfl, rfl, rfl, rfl⟩, ?_⟩
    have hview : s.view = { start.view with
        batch := .dbChange :: rest
        turn := s.log.turn
        cursor := s.monitor.currEventId } := by
      rw [← hbatch]
      rfl
    rw [hview]
    exact hacts.tail (.caughtUp rest rfl hend)

end

/-! ## Steps -/

section
variable [Golpe] [TaoJson] [StdSort] {cfg : Cfg} {P : MsgReqWorker → Prop} {s s' : ReqSystem}

structure ReqInv (cfg : Cfg) (P : MsgReqWorker → Prop) (s : ReqSystem) : Prop where
  store : LevInv s.store
  queries : s.worker.queries.Inv cfg
  /-- the cursor counts from the first snapshot on -/
  monitors : ActiveMonitors.Inv s.monitor.monitors.1 (min s.monitor.currEventId s.log.seen.event.lastId)
  seen : Evolves s.log.seen s.store.db
  workerTxn : ∀ txn, s.worker.txn = some txn → Evolves txn s.store.db
  workerIdle : s.worker.txn = none → s.worker.batch = []
  monitorTxn : ∀ txn, s.monitor.txn = some txn → txn = s.log.seen ∧
    s.monitor.currEventId ≤ s.log.seen.event.lastId
  monitorIdle : s.monitor.txn = none → s.monitor.batch = []
  pending : ∃ done, s.log.arrived = done ++ (s.worker.batch ++ s.worker.inbox) ∧ done.length = s.log.handled
  messages : ∀ msg ∈ s.log.arrived, P msg

omit [Golpe] [TaoJson] [StdSort] in
theorem ReqInv.init (db : Db) (tracker : EphemeralSubTracker) : ReqInv cfg P {
    store := { db := db, assigned := db.event.rows.map fun r => (r.1, r.2.buf) }
    monitor := { monitors := ({}, tracker) }
    log := { seen := db } } where
  store := .init db
  queries := .empty cfg
  monitors := .empty _
  seen := .refl db
  workerTxn txn h := by cases h
  workerIdle _ := rfl
  monitorTxn txn h := by cases h
  monitorIdle _ := rfl
  pending := ⟨[], rfl, rfl⟩
  messages msg h := by cases h

omit [Golpe] [TaoJson] [StdSort] in
/-- The worker has handled messages down to those of `batch`. -/
theorem ReqInv.worker (h : ReqInv cfg P s) (batch : List MsgReqWorker)
    (hframe : WorkerFrame { s with worker.batch := batch } s') (hqueries : s'.worker.queries.Inv cfg)
    (hidle : s.worker.txn = none → batch = [])
    (hpending : ∃ done, s.log.arrived = done ++ (batch ++ s.worker.inbox) ∧ done.length = s'.log.handled) :
    ReqInv cfg P s' where
  store := by rw [hframe.store]; exact h.store
  queries := hqueries
  monitors := by rw [hframe.monitors, hframe.cursor, hframe.seen]; exact h.monitors
  seen := by rw [hframe.store, hframe.seen]; exact h.seen
  workerTxn := by rw [hframe.store, hframe.txn]; exact h.workerTxn
  workerIdle := by rw [hframe.txn, hframe.batch]; exact hidle
  monitorTxn := by rw [hframe.cursor, hframe.seen, hframe.snapshot]; exact h.monitorTxn
  monitorIdle := by rw [hframe.snapshot, hframe.mail]; exact h.monitorIdle
  pending := by rw [hframe.arrived, hframe.inbox, hframe.batch]; exact hpending
  messages := by rw [hframe.arrived]; exact h.messages

omit [Golpe] [TaoJson] [StdSort] in
/-- The monitor has handled messages down to those of `batch`. -/
theorem ReqInv.monitor (h : ReqInv cfg P s) (batch : List MsgReqMonitor)
    (hframe : MonitorFrame { s with monitor.batch := batch } s')
    (hmonitors : ActiveMonitors.Inv s'.monitor.monitors.1 s'.monitor.currEventId)
    (hcur : s'.monitor.currEventId ≤ s.log.seen.event.lastId) (hidle : s.monitor.txn = none → batch = []) :
    ReqInv cfg P s' where
  store := by rw [hframe.store]; exact h.store
  queries := by rw [hframe.worker]; exact h.queries
  monitors := by rw [hframe.seen, Nat.min_eq_left hcur]; exact hmonitors
  seen := by rw [hframe.store, hframe.seen]; exact h.seen
  workerTxn := by rw [hframe.store, hframe.worker]; exact h.workerTxn
  workerIdle := by rw [hframe.worker]; exact h.workerIdle
  monitorTxn txn htxn := by
    rw [hframe.txn] at htxn
    rw [hframe.seen]
    exact ⟨(h.monitorTxn txn htxn).1, hcur⟩
  monitorIdle := by rw [hframe.txn, hframe.batch]; exact hidle
  pending := by rw [hframe.arrived, hframe.worker, hframe.handled]; exact h.pending
  messages := by rw [hframe.arrived]; exact h.messages

/-- **One step** is a sequence of acts. -/
theorem ReqInv.step (h : ReqInv cfg P s) (hheld : s.view.Held)
    (hP : ∀ sub, P (.newSub sub) → ∀ f ∈ sub.filterGroup.filters, f.Valid) (hs : ReqStep cfg P s s') :
    ReqInv cfg P s' ∧ Acts cfg s.view s'.view := by
  cases hs with
  | commit store hstep =>
    obtain ⟨hstore, hev⟩ := h.store.step hstep
    exact ⟨{ h with
      store := hstore
      seen := h.seen.trans hev
      workerTxn := fun txn htxn => (h.workerTxn txn htxn).trans hev }, .single (.commit store.db hev)⟩
  | arrive msg hmsg =>
    obtain ⟨done, harr, hlen⟩ := h.pending
    refine ⟨{ h with
      pending := ⟨done, ?_, hlen⟩
      messages := fun m hm => ?_ }, .single (.arrive msg)⟩
    · simp only [harr, List.append_assoc]
    · rcases List.mem_append.mp hm with hm | hm
      · exact h.messages m hm
      · rw [List.mem_singleton.mp hm]
        exact hmsg
  | dbChange => exact ⟨{ h with }, .single .post⟩
  | workerWake batch rest hidle hin hwake =>
    obtain ⟨done, harr, hlen⟩ := h.pending
    rw [h.workerIdle hidle, hin, List.nil_append] at harr
    exact ⟨{ h with
      workerTxn := fun txn htxn => by
        cases htxn
        exact .refl _
      workerIdle := fun hnone => by cases hnone
      pending := ⟨done, harr, hlen⟩ }, .refl⟩
  | workerHandle txn msg rest p pauses s' htxn hbatch hp hhandle =>
    obtain ⟨done, harr, hlen⟩ := h.pending
    rw [hbatch] at harr
    have hmsg : s.log.arrived[s.log.handled]? = some msg := by
      rw [harr, ← hlen, List.cons_append, List.getElem?_append_right le_rfl, Nat.sub_self]
      rfl
    obtain ⟨hqueries, hframe, hhandled, hacts⟩ :=
      handleReq_acts (s := { s with worker.batch := rest }) h.queries hp hmsg (h.workerTxn txn htxn) hhandle
    refine ⟨h.worker rest hframe hqueries (fun hnone => ?_) ⟨done ++ [msg], ?_, ?_⟩, hacts⟩
    · rw [htxn] at hnone
      cases hnone
    · rw [harr, List.append_assoc]
      rfl
    · rw [hhandled, List.length_append, hlen]
      rfl
  | workerEnd txn pauses s1 htxn hbatch hslice =>
    obtain ⟨hqueries, hframe, hhandled, hacts⟩ := slice_acts h.queries hslice
    have hinv := h.worker s.worker.batch hframe hqueries h.workerIdle (hhandled ▸ h.pending)
    refine ⟨{ hinv with
      workerTxn := fun txn htxn => by cases htxn
      workerIdle := fun _ => hframe.batch.trans hbatch }, hacts⟩
  | monitorWake batch rest hidle hin hwake =>
    have hcur : (if s.monitor.currEventId > s.store.db.getMostRecentLevId then s.store.db.getMostRecentLevId
        else s.monitor.currEventId) = min s.monitor.currEventId s.store.db.event.lastId := by
      unfold Db.getMostRecentLevId
      split <;> omega
    refine ⟨{ h with
      monitors := ?_
      seen := .refl _
      monitorTxn := fun txn htxn => ⟨(Option.some.inj htxn).symm, ?_⟩
      monitorIdle := fun hnone => by cases hnone }, ?_⟩
    · simp only [hcur]
      refine h.monitors.mono ?_
      have := h.seen.lastId
      omega
    · simp only [hcur]
      exact min_le_right _ _
    · refine .single ?_
      unfold view
      simp only [hcur]
      exact .wake batch rest (h.monitorIdle hidle) hin
  | monitorHandle txn msg rest m s' htxn hbatch hm hhandle =>
    obtain ⟨rfl, hcur⟩ := h.monitorTxn txn htxn
    have hmonitors := h.monitors
    rw [Nat.min_eq_left hcur] at hmonitors
    have hv : ∀ n sub, msg = .newSub n sub → ∀ f ∈ sub.filterGroup.filters, f.Valid := by
      rintro n sub rfl
      obtain ⟨-, sub0, h0, hsub⟩ := hheld.mailed n sub (by
        show _ ∈ s.monitor.batch ++ s.monitor.inbox
        rw [hbatch]
        exact List.mem_cons_self)
      rw [hsub]
      exact hP sub0 (h.messages _ (List.mem_of_getElem? h0))
    obtain ⟨hinv', hcur', hframe, hacts⟩ := handleMonitor_acts hmonitors hcur hbatch hv hm hhandle
    refine ⟨h.monitor rest hframe hinv' hcur' fun hnone => ?_, hacts⟩
    rw [htxn] at hnone
    cases hnone
  | monitorEnd txn htxn hbatch =>
    exact ⟨{ h with
      monitorTxn := fun txn htxn => by cases htxn
      monitorIdle := fun _ => hbatch }, .refl⟩
  | rehash am hr =>
    refine ⟨{ h with monitors := h.monitors.rehash hr }, ?_⟩
    have hview : view { s with monitor.monitors := (am, s.monitor.monitors.2) } = s.view := by
      unfold view
      simp only [hr.installed]
      rfl
    rw [hview]

/-- **A run** is one of the hand-off. -/
theorem ReqReached.view (hP : ∀ sub, P (.newSub sub) → ∀ f ∈ sub.filterGroup.filters, f.Valid)
    (h : ReqReached cfg P s) : ReqInv cfg P s ∧ HandOff.Reached cfg s.view := by
  induction h with
  | init db tracker => exact ⟨.init db tracker, .init db maxU64⟩
  | step _ hs ih =>
    obtain ⟨hinv, hacts⟩ := ih.1.step ih.2.held hP hs
    exact ⟨hinv, ih.2.acts hacts⟩

end

end ReqSystem

end Strfry
