import Strfry.HandOff

/-!
# What is sent for a REQ

The query of a REQ sends events up to the last levId of the snapshot it began in
(`HandOff.began`), each once; the monitor sends those after it.  `Delivery` says so of every REQ,
and of a REQ that is watched for also that nothing is missing: every matching event of the
monitor's snapshot up to the subscription's own mark, or up to the cursor of the DBChange walk if
that is further, has been sent (`Watched.covered`).
-/

namespace Strfry

namespace ReqSystem

theorem sentFor_append (n : Nat) (out out' : List ReqOut) :
    sentFor n (out ++ out') = sentFor n out ++ sentFor n out' := List.filterMap_append

/-- Events of one REQ. -/
theorem sentFor_events {α : Type} (n m : Nat) (stage : Stage) (c : Nat) (i : SubId) (lev : α → Nat) (l : List α) :
    sentFor n (l.map fun a => .event m stage c i (lev a)) =
      if m = n then l.map fun a => (stage, lev a) else [] := by
  induction l with
  | nil => simp [sentFor]
  | cons a l ih =>
    unfold sentFor at ih ⊢
    rw [List.map_cons, List.filterMap_cons, ih]
    by_cases hm : m = n
    · simp [hm]
    · simp [hm]

/-- An event sent to several REQs is sent to each once. -/
theorem sentFor_recipients (n lev : Nat) {rs : List (Nat × SubId)} (reqNoOf : Nat × SubId → Nat)
    (hnd : rs.Nodup) (hinj : ∀ k ∈ rs, ∀ k' ∈ rs, reqNoOf k = reqNoOf k' → k = k') :
    sentFor n (rs.map fun k => .event (reqNoOf k) .monitor k.1 k.2 lev) =
      if n ∈ rs.map reqNoOf then [(.monitor, lev)] else [] := by
  induction rs with
  | nil => simp [sentFor]
  | cons k rs ih =>
    have hrest := ih (List.nodup_cons.mp hnd).2
      fun k hk k' hk' => hinj k (List.mem_cons_of_mem _ hk) k' (List.mem_cons_of_mem _ hk')
    unfold sentFor at hrest ⊢
    rw [List.map_cons, List.filterMap_cons, hrest]
    by_cases hk : reqNoOf k = n
    · have hnot : n ∉ rs.map reqNoOf := by
        intro hin
        obtain ⟨k', hk', he⟩ := List.mem_map.mp hin
        have := hinj k List.mem_cons_self k' (List.mem_cons_of_mem _ hk') (hk.trans he.symm)
        exact (List.nodup_cons.mp hnd).1 (this ▸ hk')
      simp [hk, hnot]
    · have hmem : n ∈ (k :: rs).map reqNoOf ↔ n ∈ rs.map reqNoOf := by
        rw [List.map_cons, List.mem_cons]
        exact or_iff_right (Ne.symm hk)
      simp only [if_neg hk, hmem]

theorem sentFor_refusal (n c : Nat) (added : Bool) : sentFor n (refusal c added) = [] := by
  cases added <;> rfl

/-- What the catch-up sends. -/
theorem sentFor_catchUp (n reqNo : Nat) (txn : Db) (sub : Subscription) : sentFor n (catchUp txn reqNo sub) =
    if reqNo = n then ((txn.foreachEvent (sub.latestEventId + 1)).filter fun r =>
      sub.filterGroup.doesMatch r.2).map fun r => (.monitor, r.1) else [] := by
  unfold catchUp
  exact sentFor_events n reqNo .monitor sub.connId sub.subId Prod.fst _

theorem mem_catchUp {txn : Db} {sub : Subscription} {r : Nat × PackedEventView} :
    r ∈ ((txn.foreachEvent (sub.latestEventId + 1)).filter fun r => sub.filterGroup.doesMatch r.2) ↔
      r ∈ txn.event.rows ∧ sub.latestEventId < r.1 ∧ sub.filterGroup.doesMatch r.2 = true := by
  unfold Db.foreachEvent
  rw [List.mem_filter, List.mem_filter, decide_eq_true_eq, Nat.succ_le_iff, and_assoc]

end ReqSystem

namespace HandOff

open ReqSystem

/-- What is known of a REQ that is watched for. -/
structure Watched (v : HandOff) (w : Watching) : Prop where
  began : v.began w.reqNo ≤ w.sub.latestEventId
  marker : w.sub.latestEventId ≤ v.seen.event.lastId
  sent : ∀ lev, (.monitor, lev) ∈ sentFor w.reqNo v.out → lev ≤ w.sub.latestEventId
  covered : ∀ r ∈ v.seen.event.rows, v.began w.reqNo < r.1 → r.1 ≤ max w.sub.latestEventId v.cursor →
    w.sub.filterGroup.doesMatch r.2 = true → (.monitor, r.1) ∈ sentFor w.reqNo v.out

/-- What was sent for a REQ, wherever it is held. -/
structure SentOnce (v : HandOff) : Prop where
  nodup : ∀ n, ((sentFor n v.out).map Prod.snd).Nodup
  query : ∀ n lev, (.query, lev) ∈ sentFor n v.out → lev ≤ v.began n
  monitor : ∀ n lev, (.monitor, lev) ∈ sentFor n v.out → v.began n < lev
  fresh : ∀ n, v.handled ≤ n → sentFor n v.out = []

structure Delivery (v : HandOff) : Prop extends SentOnce v where
  evolves : Evolves v.seen v.now
  /-- from the first snapshot on -/
  cursor : v.cursor ≤ v.seen.event.lastId ∨ v.batch = [] ∧ ∀ k, v.watching k = none
  querying : ∀ k q, v.querying k = some q → q.sub.latestEventId = v.began q.reqNo ∧
    v.began q.reqNo ≤ v.now.event.lastId ∧ ∀ x ∈ sentFor q.reqNo v.out, x.1 = .query ∧ x.2 ∈ q.full
  mailed : ∀ n sub, .newSub n sub ∈ v.mail → sub.latestEventId = v.began n ∧
    v.began n ≤ v.now.event.lastId ∧ ∀ x ∈ sentFor n v.out, x.1 = .query
  batch : ∀ n sub, .newSub n sub ∈ v.batch → v.began n ≤ v.seen.event.lastId
  watching : ∀ k w, v.watching k = some w → v.Watched w

section
variable {v v' : HandOff}

/-- The same events sent in the same snapshot. -/
theorem Watched.congr {w : Watching} (h : v.Watched w) (hcursor : v'.cursor = v.cursor) (hseen : v'.seen = v.seen)
    (hbegan : v'.began w.reqNo = v.began w.reqNo) (hsent : sentFor w.reqNo v'.out = sentFor w.reqNo v.out) :
    v'.Watched w where
  began := by rw [hbegan]; exact h.began
  marker := by rw [hseen]; exact h.marker
  sent := by rw [hsent]; exact h.sent
  covered := by rw [hseen, hbegan, hcursor, hsent]; exact h.covered

/-- No event is sent, and the monitor keeps its snapshot. -/
theorem Delivery.keep (h : Delivery v) (hheld : Held v) (hnow : Evolves v.now v'.now) (hseen : v'.seen = v.seen)
    (hcursor : v'.cursor = v.cursor) (hsent : ∀ n, sentFor n v'.out = sentFor n v.out)
    (hbegan : ∀ n < v.handled, v'.began n = v.began n) (hhandled : v.handled ≤ v'.handled)
    (hq : ∀ k q, v'.querying k = some q → v.querying k = some q ∨
      (v.handled ≤ q.reqNo ∧ q.sub.latestEventId = v'.began q.reqNo ∧ v'.began q.reqNo ≤ v'.now.event.lastId))
    (hm : ∀ n sub, .newSub n sub ∈ v'.mail → .newSub n sub ∈ v.mail ∨
      ∃ k q, v.querying k = some q ∧ q.reqNo = n ∧ q.sub = sub)
    (hb : ∀ n sub, .newSub n sub ∈ v'.batch → .newSub n sub ∈ v.batch) (hidle : v.batch = [] → v'.batch = [])
    (hw : ∀ k w, v'.watching k = some w → v.watching k = some w) : Delivery v' := by
  have hold : ∀ k, ∀ n ∈ v.line k, v'.began n = v.began n := fun k n hn => hbegan n (hheld.handled k n hn)
  have hnone : ∀ n x, x ∈ sentFor n v.out → n < v.handled := by
    intro n x hx
    by_contra hn
    rw [h.fresh n (Nat.not_lt.mp hn)] at hx
    cases hx
  have hof : ∀ k q, v.querying k = some q → q.sub.latestEventId = v'.began q.reqNo ∧
      v'.began q.reqNo ≤ v'.now.event.lastId ∧ ∀ x ∈ sentFor q.reqNo v.out, x.1 = .query ∧ x.2 ∈ q.full := by
    intro k q hk
    obtain ⟨hlatest, hle, hx⟩ := h.querying k q hk
    rw [hold k _ (mem_line_querying hk)]
    exact ⟨hlatest, hle.trans hnow.lastId, hx⟩
  refine ⟨⟨fun n => ?_, fun n lev hx => ?_, fun n lev hx => ?_, fun n hn => ?_⟩, hseen ▸ h.evolves.trans hnow, ?_,
    fun k q hk => ?_, fun n sub hmail => ?_, fun n sub hbatch => ?_, fun k w hk => ?_⟩
  · rw [hsent]
    exact h.nodup n
  · rw [hsent] at hx
    rw [hbegan n (hnone n _ hx)]
    exact h.query n lev hx
  · rw [hsent] at hx
    rw [hbegan n (hnone n _ hx)]
    exact h.monitor n lev hx
  · rw [hsent]
    exact h.fresh n (hhandled.trans hn)
  · rw [hcursor, hseen]
    refine h.cursor.imp_right fun ⟨hbatch, hnone⟩ => ⟨hidle hbatch, fun k => ?_⟩
    rw [Option.eq_none_iff_forall_not_mem]
    intro w hk
    have := hw k w hk
    rw [hnone k] at this
    cases this
  · rw [hsent]
    rcases hq k q hk with hk | ⟨hnew, hlatest, hle⟩
    · exact hof k q hk
    · refine ⟨hlatest, hle, fun x hx => ?_⟩
      rw [h.fresh _ hnew] at hx
      cases hx
  · rw [hsent]
    rcases hm n sub hmail with hmail | ⟨k, q, hk, rfl, rfl⟩
    · obtain ⟨hlatest, hle, hx⟩ := h.mailed n sub hmail
      rw [hold _ n (mem_line_mailed hmail)]
      exact ⟨hlatest, hle.trans hnow.lastId, hx⟩
    · obtain ⟨hlatest, hle, hx⟩ := hof k q hk
      exact ⟨hlatest, hle, fun x hin => (hx x hin).1⟩
  · have hmail := List.mem_append_left v.inbox (hb n sub hbatch)
    rw [hold _ n (mem_line_mailed hmail), hseen]
    exact h.batch n sub (hb n sub hbatch)
  · have hk := hw k w hk
    exact (h.watching k w hk).congr hcursor hseen (hold k _ (mem_line_watching hk)) (hsent _)

/-- Events that were not sent before are sent, on their side of the boundary. -/
theorem SentOnce.send (h : SentOnce v) (new : Nat → List (Stage × Nat))
    (hout : ∀ n, sentFor n v'.out = sentFor n v.out ++ new n) (hbegan : v'.began = v.began)
    (hhandled : v'.handled = v.handled) (hheld : ∀ n, v.handled ≤ n → new n = [])
    (hnd : ∀ n, ((new n).map Prod.snd).Nodup)
    (hfresh : ∀ n, ∀ x ∈ new n, ∀ y ∈ sentFor n v.out, y.2 ≠ x.2)
    (hquery : ∀ n lev, (.query, lev) ∈ new n → lev ≤ v.began n)
    (hmonitor : ∀ n lev, (.monitor, lev) ∈ new n → v.began n < lev) : SentOnce v' where
  nodup n := by
    rw [hout, List.map_append]
    refine List.nodup_append.mpr ⟨h.nodup n, hnd n, fun a ha b hb => ?_⟩
    obtain ⟨y, hy, rfl⟩ := List.mem_map.mp ha
    obtain ⟨x, hx, rfl⟩ := List.mem_map.mp hb
    exact hfresh n x hx y hy
  query n lev hx := by
    rw [hout] at hx
    rw [hbegan]
    exact (List.mem_append.mp hx).elim (h.query n lev) (hquery n lev)
  monitor n lev hx := by
    rw [hout] at hx
    rw [hbegan]
    exact (List.mem_append.mp hx).elim (h.monitor n lev) (hmonitor n lev)
  fresh n hn := by
    rw [hhandled] at hn
    rw [hout, h.fresh n hn, hheld n hn]
    rfl

/-- The query of a REQ sends events. -/
theorem Delivery.found (h : Delivery v) (hheld : Held v) {k : Nat × SubId} {q : Querying} {l sent : List Nat}
    {full : Finset Nat} (hk : v.querying k = some q) (hnd : l.Nodup) (hfresh : ∀ x ∈ l, x ∉ q.full)
    (hle : ∀ x ∈ l, x ≤ q.sub.latestEventId) (hfull : ∀ x, x ∈ full ↔ x ∈ q.full ∨ x ∈ l)
    (hsent : sent.Sublist l) (querying : Nat × SubId → Option Querying)
    (hq : ∀ k', querying k' = if k' = k then some { q with full := full } else v.querying k') :
    Delivery { v with
      querying := querying
      out := v.out ++ sent.map fun x => .event q.reqNo .query k.1 k.2 x } := by
  have hnew : ∀ n, sentFor n (v.out ++ sent.map fun x => .event q.reqNo .query k.1 k.2 x) =
      sentFor n v.out ++ if q.reqNo = n then sent.map fun x => (.query, x) else [] := by
    intro n
    rw [sentFor_append, sentFor_events n q.reqNo .query k.1 k.2 (fun x => x)]
  have hother : ∀ n, n ≠ q.reqNo →
      sentFor n (v.out ++ sent.map fun x => .event q.reqNo .query k.1 k.2 x) = sentFor n v.out := by
    intro n hn
    rw [hnew, if_neg (Ne.symm hn), List.append_nil]
  have hlt := hheld.handled k _ (mem_line_querying hk)
  obtain ⟨hlatest, hbegan, hall⟩ := h.querying k q hk
  refine ⟨h.toSentOnce.send (fun n => if q.reqNo = n then sent.map fun x => (.query, x) else []) hnew rfl rfl
    (fun n hn => if_neg (by omega)) (fun n => ?_) (fun n x hx y hy => ?_) (fun n lev hx => ?_) (fun n lev hx => ?_),
    h.evolves, h.cursor, fun k' q' hk' => ?_, fun n sub hm => ?_, h.batch, fun k' w hk' => ?_⟩
  · split
    · rw [List.map_map]
      show (sent.map fun x => x).Nodup
      rw [List.map_id']
      exact hnd.sublist hsent
    · exact .nil
  · split at hx
    · rename_i he
      subst he
      obtain ⟨lev, hlev, rfl⟩ := List.mem_map.mp hx
      intro he
      have hin := (hall y hy).2
      rw [he] at hin
      exact hfresh lev (hsent.subset hlev) hin
    · cases hx
  · split at hx
    · rename_i he
      subst he
      obtain ⟨lev', hlev, he⟩ := List.mem_map.mp hx
      cases he
      rw [← hlatest]
      exact hle lev (hsent.subset hlev)
    · cases hx
  · split at hx
    · obtain ⟨lev', -, he⟩ := List.mem_map.mp hx
      cases he
    · cases hx
  · replace hk' : querying k' = some q' := hk'
    rw [hq] at hk'
    split at hk'
    · cases hk'
      refine ⟨hlatest, hbegan, fun x hx => ?_⟩
      replace hx : x ∈ sentFor q.reqNo _ := hx
      rw [hnew, if_pos rfl] at hx
      rcases List.mem_append.mp hx with hx | hx
      · exact ⟨(hall x hx).1, (hfull _).mpr (Or.inl (hall x hx).2)⟩
      · obtain ⟨lev, hlev, rfl⟩ := List.mem_map.mp hx
        exact ⟨rfl, (hfull _).mpr (Or.inr (hsent.subset hlev))⟩
    · rename_i hne
      obtain ⟨hlatest', hbegan', hall'⟩ := h.querying k' q' hk'
      refine ⟨hlatest', hbegan', fun x hx => hall' x ?_⟩
      replace hx : x ∈ sentFor q'.reqNo _ := hx
      rw [hother] at hx
      · exact hx
      · intro he
        exact hne (hheld.querying_inj hk hk' he)
  · obtain ⟨hlatest', hbegan', hall'⟩ := h.mailed n sub hm
    refine ⟨hlatest', hbegan', fun x hx => hall' x ?_⟩
    replace hx : x ∈ sentFor n _ := hx
    rw [hother n (hheld.querying_ne_mailed hk hm)] at hx
    exact hx
  · exact (h.watching k' w hk').congr rfl rfl rfl (hother _ (hheld.querying_ne_watching hk hk'))

/-- The monitor takes a snapshot. -/
theorem Watched.wake {w : Watching} (h : v.Watched w) (hev : Evolves v.seen v.now)
    (hle : v.cursor ≤ v.seen.event.lastId) (hseen : v'.seen = v.now)
    (hcursor : v'.cursor = min v.cursor v.now.event.lastId) (hbegan : v'.began = v.began) (hout : v'.out = v.out) :
    v'.Watched w := by
  have hcur : v'.cursor = v.cursor := by
    rw [hcursor]
    exact Nat.min_eq_left (hle.trans hev.lastId)
  refine ⟨by rw [hbegan]; exact h.began, by rw [hseen]; exact h.marker.trans hev.lastId,
    by rw [hout]; exact h.sent, fun r hr hlt hrle hmatch => ?_⟩
  rw [hseen] at hr
  rw [hbegan] at hlt
  rw [hcur] at hrle
  rw [hout]
  -- what is as old as the mark or the cursor was in the snapshot before
  have hold : r.1 ≤ v.seen.event.lastId := by
    have := h.marker
    omega
  exact h.covered r (hev.rows r hr hold) hlt hrle hmatch

/-- A REQ is installed: the monitor sends what came in since its query began. -/
theorem Delivery.install (h : Delivery v) (hheld : Held v) {n : Nat} {sub : Subscription}
    {rest : List MsgReqMonitor} {added : Bool} (hbatch : v.batch = .newSub n sub :: rest)
    (watching : Nat × SubId → Option Watching)
    (hw : ∀ k, watching k = if k = sub.key then
      (if added then some ⟨n, { sub with latestEventId := v.seen.event.lastId }⟩ else none) else v.watching k) :
    Delivery { v with
      batch := rest
      turn := v.turn ++ [.newSub n sub]
      watching := watching
      out := v.out ++ catchUp v.seen n sub ++ refusal sub.connId added } := by
  have hin : MsgReqMonitor.newSub n sub ∈ v.mail := mem_mail_front hbatch
  have hrest : ∀ {msg}, msg ∈ rest ++ v.inbox → msg ∈ v.mail := mem_mail_rest hbatch
  have hcur : v.cursor ≤ v.seen.event.lastId := by
    rcases h.cursor with hle | ⟨hnil, -⟩
    · exact hle
    · rw [hbatch] at hnil
      cases hnil
  have hbegan : v.began n ≤ v.seen.event.lastId := h.batch n sub (by rw [hbatch]; exact List.mem_cons_self)
  have hlt := hheld.handled _ _ (mem_line_mailed hin)
  obtain ⟨hlatest, -, hquery⟩ := h.mailed n sub hin
  let caught : List (Stage × Nat) := ((v.seen.foreachEvent (sub.latestEventId + 1)).filter fun r =>
    sub.filterGroup.doesMatch r.2).map fun r => (.monitor, r.1)
  have hmem : ∀ x ∈ caught, ∃ r ∈ v.seen.event.rows, x = (.monitor, r.1) ∧ v.began n < r.1 := by
    intro x hx
    obtain ⟨r, hr, rfl⟩ := List.mem_map.mp hx
    obtain ⟨hr, hlt, -⟩ := mem_catchUp.mp hr
    exact ⟨r, hr, rfl, by rw [← hlatest]; exact hlt⟩
  have hnew : ∀ m, sentFor m (v.out ++ catchUp v.seen n sub ++ refusal sub.connId added) =
      sentFor m v.out ++ if n = m then caught else [] := by
    intro m
    rw [sentFor_append, sentFor_append, sentFor_refusal, List.append_nil, sentFor_catchUp]
  have hother : ∀ m, m ≠ n →
      sentFor m (v.out ++ catchUp v.seen n sub ++ refusal sub.connId added) = sentFor m v.out := by
    intro m hm
    rw [hnew, if_neg (Ne.symm hm), List.append_nil]
  refine ⟨h.toSentOnce.send (fun m => if n = m then caught else []) hnew rfl rfl
    (fun m hm => if_neg (by omega)) (fun m => ?_) (fun m x hx y hy => ?_) (fun m lev hx => ?_) (fun m lev hx => ?_),
    h.evolves, Or.inl hcur, fun k q hk => ?_, fun m sub' hm => ?_, fun m sub' hm => ?_, fun k w hk => ?_⟩
  · split
    · unfold caught Db.foreachEvent
      rw [List.map_map]
      exact v.seen.event.keys_nodup.sublist ((List.filter_sublist.trans List.filter_sublist).map Prod.fst)
    · exact .nil
  · split at hx
    · rename_i he
      subst he
      obtain ⟨r, -, rfl, hr⟩ := hmem x hx
      have hle := h.query n y.2 (by rw [← hquery y hy]; exact hy)
      intro he
      rw [he] at hle
      exact absurd hr (Nat.not_lt.mpr hle)
    · cases hx
  · split at hx
    · obtain ⟨r, -, he, -⟩ := hmem _ hx
      cases he
    · cases hx
  · split at hx
    · rename_i he
      subst he
      obtain ⟨r, -, he, hr⟩ := hmem _ hx
      cases he
      exact hr
    · cases hx
  · obtain ⟨hlatest', hbegan', hall'⟩ := h.querying k q hk
    refine ⟨hlatest', hbegan', fun x hx => hall' x ?_⟩
    replace hx : x ∈ sentFor q.reqNo _ := hx
    rw [hother _ (Ne.symm (hheld.querying_ne_mailed hk hin))] at hx
    exact hx
  · obtain ⟨hlatest', hbegan', hall'⟩ := h.mailed m sub' (hrest hm)
    refine ⟨hlatest', hbegan', fun x hx => hall' x ?_⟩
    replace hx : x ∈ sentFor m _ := hx
    rw [hother m (hheld.front_ne_mailed hbatch hm)] at hx
    exact hx
  · exact h.batch m sub' (by rw [hbatch]; exact List.mem_cons_of_mem _ hm)
  · replace hk : watching k = some w := hk
    rw [hw] at hk
    split at hk
    · split at hk
      · cases hk
        refine ⟨hbegan, le_rfl, fun lev hx => ?_, fun r hr hgt _ hmatch => ?_⟩
        · replace hx : (Stage.monitor, lev) ∈ sentFor n _ := hx
          rw [hnew, if_pos rfl] at hx
          rcases List.mem_append.mp hx with hx | hx
          · cases hquery _ hx
          · obtain ⟨r, hr, he, -⟩ := hmem _ hx
            cases he
            exact v.seen.event.le_lastId r hr
        · show (Stage.monitor, r.1) ∈ sentFor n _
          rw [hnew, if_pos rfl]
          refine List.mem_append_right _ (List.mem_map.mpr ⟨r, mem_catchUp.mpr ⟨hr, ?_, hmatch⟩, rfl⟩)
          rw [hlatest]
          exact hgt
      · cases hk
    · exact (h.watching k w hk).congr rfl rfl rfl (hother _ (hheld.mailed_ne_watching hin hk))

/-- The next event of a DBChange is sent for a REQ that has not got it and matches. -/
theorem Watched.recipient {w : Watching} (h : v.Watched w) {r : Nat × PackedEventView}
    (hr : r ∈ v.seen.event.rows) (hnext : ∀ r' ∈ v.seen.event.rows, v.cursor < r'.1 → r.1 ≤ r'.1)
    (hmark : w.sub.latestEventId < r.1) (hseen : v'.seen = v.seen) (hbegan : v'.began = v.began)
    (hcursor : v'.cursor = r.1) (hout : sentFor w.reqNo v'.out = sentFor w.reqNo v.out ++ [(.monitor, r.1)]) :
    v'.Watched { w with sub.latestEventId := r.1 } := by
  refine ⟨?_, ?_, fun lev hx => ?_, fun r' hr' hgt hle hm => ?_⟩
  · rw [hbegan]
    exact h.began.trans hmark.le
  · rw [hseen]
    exact v.seen.event.le_lastId r hr
  · rw [hout] at hx
    rcases List.mem_append.mp hx with hx | hx
    · exact (h.sent lev hx).trans hmark.le
    · cases List.mem_singleton.mp hx
      exact le_rfl
  · rw [hseen] at hr'
    rw [hbegan] at hgt
    replace hle : r'.1 ≤ max r.1 v'.cursor := hle
    rw [hcursor, max_self] at hle
    rw [hout]
    by_cases he : r'.1 = r.1
    · exact List.mem_append_right _ (List.mem_singleton.mpr (by rw [he]))
    · refine List.mem_append_left _ (h.covered r' hr' hgt ?_ hm)
      by_contra hnot
      have := hnext r' hr' (by omega)
      omega

/-- For the others nothing is sent, and nothing is missing. -/
theorem Watched.bystander {w : Watching} (h : v.Watched w) {r : Nat × PackedEventView}
    (hr : r ∈ v.seen.event.rows) (hnext : ∀ r' ∈ v.seen.event.rows, v.cursor < r'.1 → r.1 ≤ r'.1)
    (hnot : ¬ (w.sub.latestEventId < r.1 ∧ w.sub.filterGroup.doesMatch r.2 = true)) (hseen : v'.seen = v.seen)
    (hbegan : v'.began = v.began) (hcursor : v'.cursor = r.1)
    (hout : sentFor w.reqNo v'.out = sentFor w.reqNo v.out) : v'.Watched w := by
  refine ⟨by rw [hbegan]; exact h.began, by rw [hseen]; exact h.marker, by rw [hout]; exact h.sent,
    fun r' hr' hgt hle hm => ?_⟩
  rw [hseen] at hr'
  rw [hbegan] at hgt
  rw [hcursor] at hle
  rw [hout]
  refine h.covered r' hr' hgt ?_ hm
  by_contra hgap
  -- then it is the event itself, which does not match or is not new
  have hge := hnext r' hr' (by omega)
  have hkey : r'.1 = r.1 := by omega
  have hval : r'.2 = r.2 := v.seen.event.row_unique (by rw [← hkey]; exact hr') hr
  exact hnot ⟨by omega, by rw [← hval]; exact hm⟩

/-- A DBChange comes to the next event, and sends it to those that have not got it and match. -/
theorem Delivery.row (h : Delivery v) (hheld : Held v) {r : Nat × PackedEventView}
    {rs : List (Nat × SubId)} {reqNoOf : Nat × SubId → Nat}
    (hr : r ∈ v.seen.event.rows) (hnext : ∀ r' ∈ v.seen.event.rows, v.cursor < r'.1 → r.1 ≤ r'.1)
    (hnd : rs.Nodup) (hmem : ∀ k, k ∈ rs ↔ ∃ w, v.watching k = some w ∧ w.sub.latestEventId < r.1 ∧
      w.sub.filterGroup.doesMatch r.2 = true)
    (hno : ∀ k w, v.watching k = some w → reqNoOf k = w.reqNo) (watching : Nat × SubId → Option Watching)
    (hw : ∀ k, watching k = (v.watching k).map fun w =>
      if k ∈ rs then { w with sub.latestEventId := r.1 } else w) :
    Delivery { v with
      cursor := r.1
      watching := watching
      out := v.out ++ rs.map fun k => .event (reqNoOf k) .monitor k.1 k.2 r.1 } := by
  have hgot : ∀ n ∈ rs.map reqNoOf, ∃ k w, k ∈ rs ∧ v.watching k = some w ∧ w.reqNo = n ∧
      w.sub.latestEventId < r.1 := by
    intro n hn
    obtain ⟨k, hk, rfl⟩ := List.mem_map.mp hn
    obtain ⟨w, hw, hlt, -⟩ := (hmem k).mp hk
    exact ⟨k, w, hk, hw, (hno k w hw).symm, hlt⟩
  have hinj : ∀ k ∈ rs, ∀ k' ∈ rs, reqNoOf k = reqNoOf k' → k = k' := by
    intro k hk k' hk' he
    obtain ⟨w, hw, -⟩ := (hmem k).mp hk
    obtain ⟨w', hw', -⟩ := (hmem k').mp hk'
    rw [hno k w hw, hno k' w' hw'] at he
    exact hheld.watching_inj hw' hw he
  have hnew : ∀ n, sentFor n (v.out ++ rs.map fun k => .event (reqNoOf k) .monitor k.1 k.2 r.1) =
      sentFor n v.out ++ if n ∈ rs.map reqNoOf then [(.monitor, r.1)] else [] := by
    intro n
    rw [sentFor_append, sentFor_recipients n r.1 reqNoOf hnd hinj]
  have hother : ∀ n, n ∉ rs.map reqNoOf →
      sentFor n (v.out ++ rs.map fun k => .event (reqNoOf k) .monitor k.1 k.2 r.1) = sentFor n v.out := by
    intro n hn
    rw [hnew, if_neg hn, List.append_nil]
  refine ⟨h.toSentOnce.send (fun n => if n ∈ rs.map reqNoOf then [(.monitor, r.1)] else []) hnew rfl rfl
    (fun n hn => if_neg ?_) (fun n => ?_) (fun n x hx y hy => ?_) (fun n lev hx => ?_) (fun n lev hx => ?_),
    h.evolves, Or.inl (v.seen.event.le_lastId r hr), fun k q hk => ?_, fun n sub hm => ?_, h.batch, fun k w hk => ?_⟩
  · intro hin
    obtain ⟨k, w, -, hw, rfl, -⟩ := hgot n hin
    exact absurd (hheld.handled k _ (mem_line_watching hw)) (Nat.not_lt.mpr hn)
  · split <;> simp
  · split at hx
    · rename_i hin
      rw [List.mem_singleton.mp hx]
      obtain ⟨k, w, -, hw, rfl, hmark⟩ := hgot n hin
      -- what was sent before is at most the mark
      have hwatched := h.watching k w hw
      have hle : y.2 ≤ w.sub.latestEventId := by
        obtain ⟨stage, lev⟩ := y
        cases stage with
        | query => exact (h.query _ lev hy).trans hwatched.began
        | monitor => exact hwatched.sent lev hy
      intro he
      simp only at he
      omega
    · cases hx
  · split at hx
    · cases List.mem_singleton.mp hx
    · cases hx
  · split at hx
    · rename_i hin
      cases List.mem_singleton.mp hx
      obtain ⟨k, w, -, hw, rfl, hmark⟩ := hgot n hin
      exact (h.watching k w hw).began.trans_lt hmark
    · cases hx
  · obtain ⟨hlatest', hbegan', hall'⟩ := h.querying k q hk
    refine ⟨hlatest', hbegan', fun x hx => hall' x ?_⟩
    replace hx : x ∈ sentFor q.reqNo _ := hx
    rw [hother] at hx
    · exact hx
    · intro hin
      obtain ⟨k', w, -, hw, he, -⟩ := hgot _ hin
      exact hheld.querying_ne_watching hk hw he
  · obtain ⟨hlatest', hbegan', hall'⟩ := h.mailed n sub hm
    refine ⟨hlatest', hbegan', fun x hx => hall' x ?_⟩
    replace hx : x ∈ sentFor n _ := hx
    rw [hother] at hx
    · exact hx
    · intro hin
      obtain ⟨k', w, -, hw, he, -⟩ := hgot _ hin
      exact hheld.mailed_ne_watching hm hw he
  · replace hk : watching k = some w := hk
    rw [hw] at hk
    obtain ⟨w0, h0, rfl⟩ := Option.map_eq_some_iff.mp hk
    by_cases hin : k ∈ rs
    · rw [if_pos hin]
      obtain ⟨w1, h1, hmark, -⟩ := (hmem k).mp hin
      rw [h0] at h1
      cases h1
      have hnum : w0.reqNo ∈ rs.map reqNoOf := List.mem_map.mpr ⟨k, hin, hno k w0 h0⟩
      refine (h.watching k w0 h0).recipient hr hnext hmark rfl rfl rfl ?_
      rw [hnew, if_pos hnum]
    · rw [if_neg hin]
      have hnum : w0.reqNo ∉ rs.map reqNoOf := by
        intro hnum
        obtain ⟨k', w', hk', hw', he, -⟩ := hgot _ hnum
        have := hheld.watching_inj h0 hw' he
        exact hin (this ▸ hk')
      exact (h.watching k w0 h0).bystander hr hnext (fun hboth => hin ((hmem k).mpr ⟨w0, h0, hboth⟩)) rfl rfl rfl
        (hother _ hnum)

/-- A DBChange has come to the end. -/
theorem Watched.caughtUp {w : Watching} (h : v.Watched w) (hend : ∀ r ∈ v.seen.event.rows, r.1 ≤ v.cursor)
    (hseen : v'.seen = v.seen) (hbegan : v'.began = v.began) (hout : v'.out = v.out) : v'.Watched w := by
  refine ⟨by rw [hbegan]; exact h.began, by rw [hseen]; exact h.marker, by rw [hout]; exact h.sent,
    fun r hr hgt _ hm => ?_⟩
  rw [hseen] at hr
  rw [hbegan] at hgt
  rw [hout]
  exact h.covered r hr hgt ((hend r hr).trans (le_max_right _ _)) hm

/-- **One step** keeps what is known of every REQ. -/
theorem Delivery.act {cfg : Cfg} (h : Delivery v) (hheld : Held v) (ha : Act cfg v v') : Delivery v' := by
  cases ha with
  | commit db hev =>
    exact h.keep hheld hev rfl rfl (fun _ => rfl) (fun _ _ => rfl) le_rfl (fun k q hk => Or.inl hk)
      (fun n sub hm => Or.inl hm) (fun n sub hm => hm) id fun k w hk => hk
  | arrive msg =>
    exact h.keep hheld (.refl _) rfl rfl (fun _ => rfl) (fun _ _ => rfl) le_rfl (fun k q hk => Or.inl hk)
      (fun n sub hm => Or.inl hm) (fun n sub hm => hm) id fun k w hk => hk
  | post =>
    exact h.keep hheld (.refl _) rfl rfl (fun _ => rfl) (fun _ _ => rfl) le_rfl (fun k q hk => Or.inl hk)
      (fun n sub hm => Or.inl (mem_mail_post hm (fun _ => rfl) rfl rfl)) (fun n sub hm => hm) id fun k w hk => hk
  | begin sub added b querying cancelled hmsg hb hfull hq hc =>
    refine h.keep hheld (.refl _) rfl rfl (fun n => ?_) (fun n hn => Function.update_of_ne hn.ne b v.began)
      (Nat.le_succ _) (fun k q hk => ?_) (fun n sub hm => Or.inl hm) (fun n sub hm => hm) id fun k w hk => hk
    · rw [sentFor_append, sentFor_refusal, List.append_nil]
    · replace hk : querying k = some q := hk
      rw [hq] at hk
      split at hk
      · split at hk
        · cases hk
          have hbegan := Function.update_self v.handled b v.began
          exact Or.inr ⟨le_rfl, hbegan.symm, hbegan.trans_le hb⟩
        · cases hk
      · exact Or.inl hk
  | close msg fwd querying cancelled hmsg hfwd hq hc =>
    exact h.keep hheld (.refl _) rfl rfl (fun n => rfl) (fun _ _ => rfl) (Nat.le_succ _)
      (fun k q hk => Or.inl (some_of_ends (hq k) hk))
      (fun n sub hm => Or.inl (mem_mail_post hm (MsgReqWorker.reqNoOf_forward hfwd) rfl rfl)) (fun n sub hm => hm)
      id fun k w hk => hk
  | found k q l sent full querying hk hnd hfresh hle hfull hsent hq =>
    exact h.found hheld hk hnd hfresh hle hfull hsent querying hq
  | complete k0 q querying hk0 hcount hq =>
    refine h.keep hheld (.refl _) rfl rfl (fun n => ?_) (fun _ _ => rfl) le_rfl
      (fun k q' hk => Or.inl (some_of_ends (hq k) hk)) (fun n sub hm => ?_) (fun n sub hm => hm) id
      fun k w hk => hk
    · rw [sentFor_append]
      exact List.append_nil _
    · unfold mail at hm
      rw [← List.append_assoc] at hm
      rcases List.mem_append.mp hm with hm | hm
      · exact Or.inl hm
      · cases List.mem_singleton.mp hm
        exact Or.inr ⟨k0, q, hk0, rfl, rfl⟩
  | counted k0 q total limited querying hk0 hcount hq =>
    refine h.keep hheld (.refl _) rfl rfl (fun n => ?_) (fun _ _ => rfl) le_rfl
      (fun k q' hk => Or.inl (some_of_ends (hq k) hk)) (fun n sub hm => Or.inl hm) (fun n sub hm => hm) id
      fun k w hk => hk
    rw [sentFor_append]
    exact List.append_nil _
  | wake batch rest hidle hin =>
    have hmail := mail_wake hidle hin
    refine ⟨⟨h.nodup, h.query, h.monitor, h.fresh⟩, .refl _, Or.inl (min_le_right _ _), h.querying,
      fun n sub hm => h.mailed n sub (hmail ▸ hm), fun n sub hm => ?_, fun k w hk => ?_⟩
    · exact (h.mailed n sub (hmail ▸ List.mem_append_left _ hm)).2.1
    · refine (h.watching k w hk).wake h.evolves ?_ rfl rfl rfl rfl
      rcases h.cursor with hle | ⟨-, hnone⟩
      · exact hle
      · rw [hnone k] at hk
        cases hk
  | install n sub rest added watching hbatch hfull hw => exact h.install hheld hbatch watching hw
  | uninstall msg rest watching hbatch hmsg hne hw =>
    refine h.keep hheld (.refl _) rfl rfl (fun n => rfl) (fun _ _ => rfl) le_rfl (fun k q hk => Or.inl hk)
      (fun n sub hm => Or.inl (mem_mail_rest hbatch hm)) (fun n sub hm => ?_) (fun hnil => ?_)
      fun k w hk => some_of_ends (hw k) hk
    · rw [hbatch]
      exact List.mem_cons_of_mem _ hm
    · rw [hbatch] at hnil
      cases hnil
  | row r rest rs reqNoOf watching hbatch hr hlt hnext hnd hmem hno hw =>
    exact h.row hheld hr hnext hnd hmem hno watching hw
  | caughtUp rest hbatch hend =>
    refine ⟨⟨h.nodup, h.query, h.monitor, h.fresh⟩, h.evolves, Or.inl le_rfl, h.querying, fun n sub hm => ?_,
      fun n sub hm => ?_, fun k w hk => (h.watching k w hk).caughtUp hend rfl rfl rfl⟩
    · exact h.mailed n sub (mem_mail_rest hbatch hm)
    · refine h.batch n sub ?_
      rw [hbatch]
      exact List.mem_cons_of_mem _ hm

theorem Reached.delivery {cfg : Cfg} (h : Reached cfg v) : Delivery v := by
  induction h with
  | init db cursor =>
    exact ⟨⟨by simp [sentFor, HandOff.init], by simp [sentFor, HandOff.init], by simp [sentFor, HandOff.init],
      by simp [sentFor, HandOff.init]⟩, .refl _, Or.inr ⟨rfl, fun _ => rfl⟩, by simp [HandOff.init],
      by simp [mail, HandOff.init], by simp [HandOff.init], by simp [HandOff.init]⟩
  | act h ha ih => exact ih.act h.held ha

/-! ## What the monitor has handled in its turn -/

structure TurnDone (v : HandOff) : Prop where
  dbChange : .dbChange ∈ v.turn → v.seen.event.lastId ≤ v.cursor
  installed : ∀ n sub, .newSub n sub ∈ v.turn → ∀ k w, v.watching k = some w → w.reqNo = n →
    v.seen.event.lastId ≤ w.sub.latestEventId

theorem TurnDone.act {cfg : Cfg} (h : TurnDone v) (hheld : Held v) (ha : Act cfg v v') : TurnDone v' := by
  have hold : ∀ {msg m : MsgReqMonitor}, m ≠ msg → m ∈ v.turn ++ [msg] → m ∈ v.turn := by
    intro msg m hne hm
    rcases List.mem_append.mp hm with hm | hm
    · exact hm
    · exact absurd (List.mem_singleton.mp hm) hne
  cases ha with
  | commit | arrive | post | begin | close | found | complete | counted => exact ⟨h.dbChange, h.installed⟩
  | wake batch rest hidle hin => exact ⟨by simp, by simp⟩
  | install n sub rest added watching hbatch hfull hw =>
    refine ⟨fun hm => h.dbChange (hold (by simp) hm), fun m sub' hm k w hk he => ?_⟩
    replace hk : watching k = some w := hk
    rw [hw] at hk
    split at hk
    · split at hk
      · cases hk
        exact le_rfl
      · cases hk
    · by_cases hsame : m = n
      · exact absurd (he.trans hsame) (hheld.mailed_ne_watching (mem_mail_front hbatch) hk)
      · exact h.installed m sub' (hold (by simp [hsame]) hm) k w hk he
  | uninstall msg rest watching hbatch hmsg hne hw =>
    refine ⟨fun hm => h.dbChange (hold (Ne.symm hne) hm), fun n sub hm k w hk he => ?_⟩
    replace hk : watching k = some w := hk
    have hnot : MsgReqMonitor.newSub n sub ≠ msg := by
      rintro rfl
      have := hmsg sub.key
      simp [MsgReqMonitor.reqNoOf] at this
    exact h.installed n sub (hold hnot hm) k w (some_of_ends (hw k) hk) he
  | row r rest rs reqNoOf watching hbatch hr hlt hnext hnd hmem hno hw =>
    refine ⟨fun hm => (h.dbChange hm).trans hlt.le, fun n sub hm k w hk he => ?_⟩
    replace hk : watching k = some w := hk
    rw [hw] at hk
    obtain ⟨w0, h0, rfl⟩ := Option.map_eq_some_iff.mp hk
    by_cases hin : k ∈ rs
    · obtain ⟨w1, h1, hmark, -⟩ := (hmem k).mp hin
      rw [h0] at h1
      cases h1
      rw [if_pos hin] at he ⊢
      exact (h.installed n sub hm k w0 h0 he).trans hmark.le
    · rw [if_neg hin] at he ⊢
      exact h.installed n sub hm k w0 h0 he
  | caughtUp rest hbatch hend =>
    exact ⟨fun _ => le_rfl, fun n sub hm => h.installed n sub (hold (by simp) hm)⟩

theorem Reached.turnDone {cfg : Cfg} (h : Reached cfg v) : TurnDone v := by
  induction h with
  | init db cursor => exact ⟨by simp [HandOff.init], by simp [HandOff.init]⟩
  | act h ha ih => exact ih.act h.held ha

/-- **Nothing is missing.**  A REQ that was installed in this turn, or that a DBChange of this turn
found, has got every matching event of the snapshot that came in since its query began. -/
theorem Reached.complete {cfg : Cfg} (h : Reached cfg v) {k : Nat × SubId} {w : Watching}
    (hk : v.watching k = some w) (hturn : .dbChange ∈ v.turn ∨ ∃ sub, .newSub w.reqNo sub ∈ v.turn) :
    ∀ r ∈ v.seen.event.rows, v.began w.reqNo < r.1 → w.sub.filterGroup.doesMatch r.2 = true →
      (.monitor, r.1) ∈ sentFor w.reqNo v.out := by
  intro r hr hgt hm
  refine (h.delivery.watching k w hk).covered r hr hgt ?_ hm
  have hle := v.seen.event.le_lastId r hr
  rcases hturn with hturn | ⟨sub, hturn⟩
  · exact (hle.trans (h.turnDone.dbChange hturn)).trans (le_max_right _ _)
  · exact (hle.trans (h.turnDone.installed _ sub hturn k w hk rfl)).trans (le_max_left _ _)

/-! ## What is sent has the id of its REQ -/

def Addressed (v : HandOff) : Prop :=
  ∀ x ∈ v.out, ∀ n k, x.reqOf = some (n, k) → ∃ sub, v.arrived[n]? = some (.newSub sub) ∧ sub.key = k

theorem Addressed.append (h : Addressed v) (harr : v.arrived <+: v'.arrived) (new : List ReqOut)
    (hout : v'.out = v.out ++ new) (hnew : ∀ x ∈ new, ∀ n k, x.reqOf = some (n, k) → ∃ sub, v.Came k n sub) :
    Addressed v' := by
  intro x hin n k hx
  have hsent : ∃ sub, v.arrived[n]? = some (.newSub sub) ∧ sub.key = k := by
    rw [hout] at hin
    rcases List.mem_append.mp hin with hin | hin
    · exact h x hin n k hx
    · obtain ⟨sub, hcame⟩ := hnew x hin n k hx
      obtain ⟨sub0, h0, hk, -⟩ := hcame.request
      exact ⟨sub0, h0, hk⟩
  obtain ⟨sub, hsub, hk⟩ := hsent
  obtain ⟨l, hl⟩ := harr
  refine ⟨sub, ?_, hk⟩
  rw [← hl, List.getElem?_append_left (List.getElem?_eq_some_iff.mp hsub).1]
  exact hsub

theorem Addressed.act {cfg : Cfg} (h : Addressed v) (hheld : Held v) (ha : Act cfg v v') : Addressed v' := by
  have hrefl : v.arrived <+: v.arrived := List.prefix_refl _
  have hrefused : ∀ (c : Nat) (added : Bool), ∀ x ∈ refusal c added, ∀ n k, x.reqOf = some (n, k) →
      ∃ sub, v.Came k n sub := by
    intro c added x hin n k hx
    cases added with
    | true => cases hin
    | false =>
      rw [List.mem_singleton.mp hin] at hx
      cases hx
  cases ha with
  | commit | post | close | wake | uninstall | caughtUp => exact h
  | arrive msg => exact h.append (List.prefix_append _ _) [] (List.append_nil _).symm (by simp)
  | begin sub added _ _ _ _ _ _ _ _ => exact h.append hrefl _ rfl (hrefused sub.connId added)
  | found k q l sent full querying hk _ _ _ _ _ _ =>
    refine h.append hrefl _ rfl fun x hin n k' hx => ?_
    obtain ⟨lev, -, rfl⟩ := List.mem_map.mp hin
    cases hx
    exact ⟨_, hheld.querying k q hk⟩
  | complete k q querying hk _ _ =>
    refine h.append hrefl _ rfl fun x hin n k' hx => ?_
    rw [List.mem_singleton.mp hin] at hx
    cases hx
    exact ⟨_, hheld.querying k q hk⟩
  | counted k q total limited querying hk _ _ =>
    refine h.append hrefl _ rfl fun x hin n k' hx => ?_
    rw [List.mem_singleton.mp hin] at hx
    cases hx
    exact ⟨_, hheld.querying k q hk⟩
  | install reqNo sub rest added watching hbatch _ _ =>
    refine h.append hrefl _ (List.append_assoc _ _ _) fun x hin n k hx => ?_
    rcases List.mem_append.mp hin with hin | hin
    · obtain ⟨r, -, rfl⟩ := List.mem_map.mp hin
      cases hx
      exact ⟨sub, hheld.mailed reqNo sub (mem_mail_front hbatch)⟩
    · exact hrefused sub.connId added x hin n k hx
  | row r rest rs reqNoOf watching _ _ _ _ _ hmem hno _ =>
    refine h.append hrefl _ rfl fun x hin n k hx => ?_
    obtain ⟨k', hk, rfl⟩ := List.mem_map.mp hin
    cases hx
    obtain ⟨w, hw, -⟩ := (hmem k').mp hk
    rw [hno k' w hw]
    exact ⟨_, hheld.watching k' w hw⟩

theorem Reached.addressed {cfg : Cfg} (h : Reached cfg v) : Addressed v := by
  induction h with
  | init db cursor => simp [Addressed, HandOff.init]
  | act h ha ih => exact ih.act h.held ha

end

end HandOff

end Strfry
