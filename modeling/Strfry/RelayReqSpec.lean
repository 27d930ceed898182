import Strfry.HandOffLifecycle
import Strfry.RelayReqView

/-!
# What the clients of a REQ get

A REQ gets each event once.  Its query sends events up to the last levId of the snapshot it began
in, the monitor those after it, and once the monitor has caught up with a snapshot nothing of it
is missing (`delivered_once`).

Once nothing is left to do, the monitors are those of the open REQs, and each REQ whose query ran
to its end has got its EOSE, ahead of what the monitor sent (`subscriptions_settle`).
-/

namespace Strfry

namespace ReqSystem

/-- The filters of a REQ come from the ingester. -/
def FromReq [Golpe] (msg : MsgReqWorker) : Prop := ∀ sub, msg = .newSub sub → sub.filterGroup.Built

theorem FromReq.valid [Golpe] {sub : Subscription} (h : FromReq (.newSub sub)) :
    ∀ f ∈ sub.filterGroup.filters, f.Valid := fun f hf => ((h sub rfl).valid f hf).1

theorem reqSub_eq {log : ReqLog} {n : Nat} {sub : Subscription} (h : log.arrived[n]? = some (.newSub sub)) :
    reqSub log n = some sub := by
  unfold reqSub
  rw [h]

/-- What came in with a number. -/
theorem reqSub_of_came {s : ReqSystem} {k : Nat × SubId} {n : Nat} {sub : Subscription}
    (h : s.view.Came k n sub) : ∃ sub0, reqSub s.log n = some sub0 ∧ sub0.key = k ∧
      sub0.filterGroup = sub.filterGroup := by
  obtain ⟨sub0, h0, hk, hfg⟩ := h.request
  exact ⟨sub0, reqSub_eq h0, hk, hfg⟩

theorem reqSub_of_addressed {s : ReqSystem} (h : s.view.Addressed) {x : ReqOut} (hx : x ∈ s.out) {n : Nat}
    {k : Nat × SubId} (hreq : x.reqOf = some (n, k)) : ∃ req, reqSub s.log n = some req ∧ req.key = k := by
  obtain ⟨sub, hsub, hk⟩ := h x hx n k hreq
  exact ⟨sub, reqSub_eq hsub, hk⟩

/-- **Exactly-once delivery.**  No levId is sent twice for a REQ; its query sends none above the last
levId of the snapshot it began in and the monitor none up to it; and when the REQ is installed,
and it or a DBChange was handled in this turn of the monitor, every matching event of the
monitor's snapshot above that levId has been sent, once. -/
theorem delivered_once [Golpe] [TaoJson] [StdSort] (cfg : Cfg) (s : ReqSystem)
    (h : ReqReached cfg FromReq s) (n : Nat) :
    ((sentFor n s.out).map Prod.snd).Nodup ∧
    (∀ lev, (.query, lev) ∈ sentFor n s.out → lev ≤ s.log.began n) ∧
    (∀ lev, (.monitor, lev) ∈ sentFor n s.out → s.log.began n < lev) ∧
    (∀ x ∈ s.out, ∀ k, x.reqOf = some (n, k) → ∃ req, reqSub s.log n = some req ∧ req.key = k) ∧
    ∀ k sub, s.monitor.monitors.1.installed k.1 k.2 = some sub → s.log.watching k = n →
      ∃ req, reqSub s.log n = some req ∧ req.key = k ∧
        ((.dbChange ∈ s.log.turn ∨ ∃ sub', .newSub n sub' ∈ s.log.turn) →
          ∀ r ∈ s.log.seen.event.rows, s.log.began n < r.1 → req.filterGroup.doesMatch r.2 = true →
            ((sentFor n s.out).map Prod.snd).count r.1 = 1) := by
  obtain ⟨-, hview⟩ := h.view fun sub hsub => hsub.valid
  have hdelivery := hview.delivery
  refine ⟨hdelivery.nodup n, hdelivery.query n, hdelivery.monitor n,
    fun x hin k hx => reqSub_of_addressed hview.addressed hin hx, fun k sub hk hn => ?_⟩
  · subst hn
    have hw : s.view.watching k = some ⟨s.log.watching k, sub⟩ := by
      show Option.map _ _ = _
      rw [hk]
      rfl
    obtain ⟨req, hreq, hkey, hfg⟩ := reqSub_of_came (hview.held.watching k _ hw)
    refine ⟨req, hreq, hkey, fun hturn r hr hgt hm => ?_⟩
    rw [hfg] at hm
    have hin := hview.complete hw hturn r hr hgt hm
    exact List.count_eq_one_of_mem (hdelivery.nodup _) (List.mem_map.mpr ⟨_, hin, rfl⟩)

/-- The query of a REQ runs on the events of one batch, another batch is written, and the monitor
installs the REQ. -/
def handedOver [Golpe] [TaoJson] [StdSort] (sub : Subscription) (evs evs' : List EventToWrite) :
    Except Err ReqSystem := do
  let (db, _, evs) ← writeEvents {} {} evs
  let s ← handleReq {} db 7 (List.replicate 5 (DBQuery.timePause false)) {
    store := { db := db, assigned := assignedBy evs }
    worker := { txn := some db }
    monitor := { monitors := ({}, {}) }
    log := { arrived := [.newSub sub], seen := {} } } (.newSub sub)
  let (db', _, evs') ← writeEvents s.store.db {} evs'
  match s.monitor.inbox with
  | [.newSub n sub'] => handleMonitor {} db' 9 { s with
      store := { s.store with db := db', assigned := s.store.assigned ++ assignedBy evs' }
      monitor := { s.monitor with
        inbox := []
        batch := []
        txn := some db'
        currEventId := if s.monitor.currEventId > db'.getMostRecentLevId then db'.getMostRecentLevId
          else s.monitor.currEventId }
      log := { s.log with
        seen := db'
        turn := [.newSub n sub'] } } (.newSub n sub')
  | _ => .error (.herr "the query does not end")

/-- It is a run. -/
theorem ReqReached.handedOver [Golpe] [TaoJson] [StdSort] {P : MsgReqWorker → Prop} {sub : Subscription}
    {evs evs' : List EventToWrite} (hP : P (.newSub sub)) (hevs : ∀ ev ∈ evs ++ evs', ev.status = .pending) {s : ReqSystem}
    (h : ReqSystem.handedOver sub evs evs' = .ok s) : ReqReached {} P s := by
  unfold ReqSystem.handedOver at h
  obtain ⟨⟨db, c, evs1⟩, hw, h⟩ := bind_eq_ok.mp h
  obtain ⟨s1, hq, h⟩ := bind_eq_ok.mp h
  obtain ⟨⟨db', c', evs1'⟩, hw', h⟩ := bind_eq_ok.mp h
  simp only [] at h
  split at h
  case h_2 => cases h
  rename_i n sub' hinbox
  obtain ⟨-, hframe, -⟩ := handleReq_acts (.empty {}) rfl rfl (.refl db) hq
  have hwrite : ReqReached {} P _ := (ReqReached.init {} {}).step
    (.commit _ (.write {} c evs evs1 db (fun ev hev => hevs ev (List.mem_append_left _ hev)) hw))
  have hquery : ReqReached {} P s1 := ((hwrite.step (.arrive (.newSub sub) hP)).step
    (.workerWake [.newSub sub] [] rfl rfl (Or.inl (by simp)))).step
    (.workerHandle db (.newSub sub) [] 7 _ s1 rfl rfl rfl hq)
  have hwrite' : ReqReached {} P _ := hquery.step
    (.commit _ (.write {} c' evs' evs1' db' (fun ev hev => hevs ev (List.mem_append_right _ hev)) hw'))
  refine (hwrite'.step (.monitorWake [.newSub n sub'] [] hframe.snapshot hinbox (by simp))).step
    (.monitorHandle db' (.newSub n sub') [] 9 s rfl rfl (fun n0 sub0 _ st hst => ?_) h)
  have hst : ActiveMonitors.removeSub s1.monitor.monitors sub0.connId sub0.subId = .ok st := hst
  rw [hframe.monitors] at hst
  cases hst
  rfl

/-- What the REQ of kind 1 got in that run, and that it is installed in this turn. -/
theorem handedOver_sends : okAnd (fun s => decide (sentFor 0 s.out = [(.query, 1), (.monitor, 2)] ∧
      s.log.began 0 = 1 ∧ s.log.watching (DBQuery.subOf []).key = 0) &&
      (s.monitor.monitors.1.installed 1 (DBQuery.subOf []).subId).isSome &&
      (s.log.turn.any fun msg => msg.reqNoOf (DBQuery.subOf []).key = some 0) &&
      (reqSub s.log 0).any fun req => s.log.seen.event.rows.any fun r => r.1 = 2 && req.filterGroup.doesMatch r.2)
    (@handedOver Golpe.plain TaoJson.none StdSort.insertion (DBQuery.subOf [DBQuery.kind1Filter])
      (oneEvent 1 1) (oneEvent 2 1)) = true := by
  decide +kernel

/-- The first event is sent by the query, the second by the monitor. -/
theorem delivered_once_two : ∃ s : ReqSystem, sentFor 0 s.out = [(.query, 1), (.monitor, 2)] ∧
    s.log.began 0 = 1 ∧ ((sentFor 0 s.out).map Prod.snd).count 2 = 1 := by
  let _ : Golpe := Golpe.plain
  let _ : TaoJson := TaoJson.none
  let _ : StdSort := StdSort.insertion
  have hreq : NostrFilterGroup.ofReq DBQuery.newestOfKind1 500 = .ok ⟨[DBQuery.kind1Filter]⟩ := rfl
  obtain ⟨s, hrun, hs⟩ := exists_of_okAnd handedOver_sends
  rw [Bool.and_eq_true, Bool.and_eq_true, Bool.and_eq_true] at hs
  obtain ⟨⟨⟨hsent, hinst⟩, hturn⟩, hrow⟩ := hs
  obtain ⟨hsent, hbegan, hwatch⟩ := of_decide_eq_true hsent
  have hreached : ReqReached {} FromReq s :=
    .handedOver (fun sub he => by cases he; exact .of_ofReq hreq) (by simp [oneEvent]) hrun
  obtain ⟨sub, hsub⟩ := Option.isSome_iff_exists.mp hinst
  obtain ⟨-, -, -, -, hall⟩ := delivered_once {} s hreached 0
  obtain ⟨req, hreq, -, hone⟩ := hall (DBQuery.subOf []).key sub hsub hwatch
  obtain ⟨msg, hmsg, hno⟩ := List.any_eq_true.mp hturn
  obtain ⟨sub', rfl, -⟩ := HandOff.mem_reqNoOf.mp (of_decide_eq_true hno)
  rw [hreq, Option.any_some] at hrow
  obtain ⟨r, hr, hmatch⟩ := List.any_eq_true.mp hrow
  rw [Bool.and_eq_true, decide_eq_true_eq] at hmatch
  have hcount := hone (Or.inr ⟨sub', hmsg⟩) r hr (by rw [hbegan, hmatch.1]; decide) hmatch.2
  rw [hmatch.1] at hcount
  exact ⟨s, hsent, hbegan, hcount⟩

/-! ## When nothing is left to do -/

/-- REQs, CLOSEs and disconnects; no COUNTs. -/
def FromClient [Golpe] (msg : MsgReqWorker) : Prop :=
  ∀ sub, msg = .newSub sub → sub.filterGroup.Built ∧ sub.countOnly = false

/-- No query is running and both inboxes are empty. -/
structure Quiet (s : ReqSystem) : Prop where
  running : s.worker.queries.running = []
  workerInbox : s.worker.inbox = []
  workerBatch : s.worker.batch = []
  monitorInbox : s.monitor.inbox = []
  monitorBatch : s.monitor.batch = []

theorem Quiet.settled {cfg : Cfg} {P : MsgReqWorker → Prop} {s : ReqSystem} (h : Quiet s) (hinv : ReqInv cfg P s)
    (hlife : s.view.Lifecycle) (k : Nat × SubId) :
    (∀ q, s.view.querying k ≠ some q) ∧ (s.view.watching k).map Watching.reqNo = openReq s.log.arrived k := by
  have hnone : s.view.querying k = none := by
    show (s.worker.queries.live k.1 k.2).map _ = none
    rw [Option.map_eq_none_iff, Option.eq_none_iff_forall_not_mem]
    intro q hq
    obtain ⟨p, hp, -⟩ := hinv.queries.live_eq.mp hq
    have hin := (hinv.queries.queued p).mpr (by rw [hp]; rfl)
    rw [h.running] at hin
    cases hin
  have hall : s.log.arrived.take s.log.handled = s.log.arrived := by
    obtain ⟨done, harr, hlen⟩ := hinv.pending
    rw [h.workerBatch, h.workerInbox, List.append_nil, List.append_nil] at harr
    rw [← hlen, harr, List.take_length]
  have hsettled := hlife.settled k hnone
  have hmail : s.view.mail = [] := by
    show s.monitor.batch ++ s.monitor.inbox = []
    rw [h.monitorBatch, h.monitorInbox]
    rfl
  rw [hmail] at hsettled
  refine ⟨fun q hq => ?_, hsettled.trans (congrArg (fun l => openReq l k) hall)⟩
  rw [hnone] at hq
  cases hq

/-- The EOSEs of a REQ, as they were sent. -/
theorem mem_eoses {n m : Nat} {out : List ReqOut} (h : m ∈ eoses n out) : ∃ c i, .eose n c i ∈ out := by
  unfold eoses at h
  obtain ⟨x, hx, hm⟩ := List.mem_filterMap.mp h
  cases x with
  | eose reqNo c i =>
    simp only [] at hm
    split at hm
    · rename_i he
      subst he
      exact ⟨c, i, hx⟩
    · cases hm
  | event => cases hm
  | count => cases hm
  | notice => cases hm

/-- **No zombies and no losses.**  Once no query is running and both inboxes are empty, an id with an
open REQ has one monitor, with the filters of that REQ, and any other id has none; and each REQ
that was not superseded, closed or disconnected while it was queried for got one EOSE, under its
id and ahead of every event that the monitor sent for it. -/
theorem subscriptions_settle [Golpe] [TaoJson] [StdSort] (cfg : Cfg) (s : ReqSystem)
    (h : ReqReached cfg FromClient s) (hfits : Fits cfg.relayMaxSubsPerConnection s.log.arrived) (hquiet : Quiet s) :
    (∀ k n, openReq s.log.arrived k = some n → ∃ m sub req,
      s.monitor.monitors.1.monitors.find? m = some sub ∧ sub.key = k ∧ s.log.watching k = n ∧
      reqSub s.log n = some req ∧ req.key = k ∧ sub.filterGroup = req.filterGroup ∧
      ∀ m' sub', s.monitor.monitors.1.monitors.find? m' = some sub' → sub'.key = k → m' = m) ∧
    (∀ k, openReq s.log.arrived k = none → ∀ m sub,
      s.monitor.monitors.1.monitors.find? m = some sub → sub.key ≠ k) ∧
    ∀ n req, reqSub s.log n = some req → n ∉ s.log.cancelled →
      eoses n s.out = [n] ∧ (∀ c i, .eose n c i ∈ s.out → req.key = (c, i)) ∧
      ∀ before c i lev after, s.out = before ++ .event n .monitor c i lev :: after →
        ∃ c i, .eose n c i ∈ before := by
  obtain ⟨hinv, hview⟩ := h.view fun sub hsub f hf => ((hsub sub rfl).1.valid f hf).1
  have hcounts : ∀ sub, .newSub sub ∈ s.view.arrived → sub.countOnly = false := fun sub hin =>
    (hinv.messages _ hin sub rfl).2
  obtain ⟨hlife, heose⟩ := hview.lifecycle hfits hcounts
  have hsettled := hquiet.settled hinv hlife
  refine ⟨fun k n hk => ?_, fun k hk m sub hm he => ?_, fun n req hreq hnot => ?_⟩
  · obtain ⟨w, hw, hn⟩ := Option.map_eq_some_iff.mp ((hsettled k).2.trans hk)
    obtain ⟨req, hreq, hkey, hfg⟩ := reqSub_of_came (hview.held.watching k w hw)
    obtain ⟨sub, hsub, rfl⟩ := Option.map_eq_some_iff.mp hw
    obtain ⟨m, hfind, hmon⟩ := Option.bind_eq_some_iff.mp hsub
    obtain ⟨sub', hmon', hc, hi⟩ := hinv.monitors.found k.1 k.2 m hfind
    rw [hmon] at hmon'
    cases hmon'
    refine ⟨m, sub, req, hmon, Prod.ext hc hi, hn, hn ▸ hreq, hkey, hfg.symm, fun m' sub' hm' hk' => ?_⟩
    have hlisted := hinv.monitors.listed m' sub' hm'
    rw [show sub'.connId = k.1 from congrArg Prod.fst hk', show sub'.subId = k.2 from congrArg Prod.snd hk',
      hfind] at hlisted
    exact (Option.some.inj hlisted).symm
  · have hinst := hinv.monitors.installed_of_live hm
    have hw : s.view.watching k = some ⟨s.log.watching k, sub⟩ := by
      rw [← he]
      show (s.monitor.monitors.1.installed sub.connId sub.subId).map _ = _
      rw [hinst]
      rfl
    have hnone := (hsettled k).2.trans hk
    rw [hw] at hnone
    cases hnone
  · obtain ⟨sub0, hsub0, hkey0⟩ : ∃ sub0, s.view.arrived[n]? = some (.newSub sub0) ∧ sub0 = req := by
      unfold reqSub at hreq
      split at hreq
      · rename_i sub0 h0
        exact ⟨sub0, h0, Option.some.inj hreq⟩
      · cases hreq
    have hlt : n < s.view.handled := by
      obtain ⟨done, harr, hlen⟩ := hinv.pending
      rw [hquiet.workerBatch, hquiet.workerInbox, List.append_nil, List.append_nil] at harr
      show n < s.log.handled
      rw [← hlen, ← harr]
      exact (List.getElem?_eq_some_iff.mp hsub0).1
    refine ⟨heose.once n sub0 hlt hsub0 hnot fun k q hq => absurd hq ((hsettled k).1 q), fun c i hin => ?_,
      fun before c i lev after he => ?_⟩
    · obtain ⟨req', hreq', hkey⟩ := reqSub_of_addressed hview.addressed hin (n := n) (k := (c, i)) rfl
      rw [hreq] at hreq'
      cases hreq'
      exact hkey
    · obtain ⟨m, hm⟩ := List.exists_mem_of_ne_nil _ (heose.order n before _ after he rfl)
      exact mem_eoses hm

/-- A single REQ fits. -/
theorem fits_one (sub : Subscription) {max : Nat} (hmax : 1 ≤ max) : Fits max [.newSub sub] := by
  intro n c ids hids
  have hall : ids ⊆ {sub.subId} := by
    intro i hi
    have hopen := hids i hi
    cases n with
    | zero => cases hopen
    | succ n =>
      rw [List.take_of_length_le (by simp)] at hopen
      replace hopen : (if sub.key = (c, i) then some 0 else none : Option Nat).isSome := hopen
      split at hopen
      · rename_i hk
        exact Finset.mem_singleton.mpr (congrArg Prod.snd hk).symm
      · cases hopen
  exact (Finset.card_le_card hall).trans ((Finset.card_singleton _).trans_le hmax)

/-- That run has come to rest. -/
theorem handedOver_quiet : okAnd (fun s => s.worker.queries.running.isEmpty && s.worker.inbox.isEmpty &&
      s.worker.batch.isEmpty && s.monitor.inbox.isEmpty && s.monitor.batch.isEmpty &&
      match s.log.arrived with
      | [.newSub sub] => decide (sub.key = (DBQuery.subOf []).key)
      | _ => false)
    (@handedOver Golpe.plain TaoJson.none StdSort.insertion (DBQuery.subOf [DBQuery.kind1Filter])
      (oneEvent 1 1) (oneEvent 2 1)) = true := by
  decide +kernel

/-- The REQ of that run has its monitor. -/
theorem subscriptions_settle_one : ∃ (s : ReqSystem) (m : Nat) (sub req : Subscription), Quiet s ∧
    s.monitor.monitors.1.monitors.find? m = some sub ∧ sub.key = (DBQuery.subOf []).key ∧
    reqSub s.log 0 = some req ∧ sub.filterGroup = req.filterGroup := by
  let _ : Golpe := Golpe.plain
  let _ : TaoJson := TaoJson.none
  let _ : StdSort := StdSort.insertion
  have hreq : NostrFilterGroup.ofReq DBQuery.newestOfKind1 500 = .ok ⟨[DBQuery.kind1Filter]⟩ := rfl
  obtain ⟨s, hrun, hs⟩ := exists_of_okAnd handedOver_quiet
  simp only [Bool.and_eq_true, List.isEmpty_iff] at hs
  obtain ⟨⟨⟨⟨⟨hrunning, hin⟩, hbatch⟩, hmin⟩, hmbatch⟩, harr⟩ := hs
  split at harr
  case h_2 => cases harr
  rename_i sub0 harr0
  have hkey := of_decide_eq_true harr
  have hquiet : Quiet s := ⟨hrunning, hin, hbatch, hmin, hmbatch⟩
  have hreached : ReqReached {} FromClient s :=
    .handedOver (fun sub he => by cases he; exact ⟨.of_ofReq hreq, rfl⟩) (by simp [oneEvent]) hrun
  have hopen : openReq s.log.arrived (DBQuery.subOf []).key = some 0 := by
    rw [harr0]
    exact if_pos hkey
  obtain ⟨hmonitors, -⟩ := subscriptions_settle {} s hreached (by rw [harr0]; exact fits_one sub0 (by decide)) hquiet
  obtain ⟨m, sub, req, hm, hk, -, hreq, -, hfg, -⟩ := hmonitors _ 0 hopen
  exact ⟨s, m, sub, req, hquiet, hm, hk, hreq, hfg⟩

end ReqSystem

end Strfry
