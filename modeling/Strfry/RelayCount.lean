import Strfry.RelayReq
import Strfry.QuerySchedulerSlices

/-!
# COUNT

A COUNT is a query of its own (`ingesterProcessReq`): every filter may match one event more than
`maxFilterLimitCount`, and `onComplete` replies with the number of events the query saw, cut off at
that.  A filter that was truncated alone brings the number above it, since what it saw is part of
what the query saw; so the reply has the flag exactly when there are more events than it may count
(`count_exact`).
-/

namespace Strfry

namespace ReqSystem

/-- The COUNT gave this subscription, whatever the iteration order of the hash maps. -/
def CountRequest [Golpe] (cfg : Cfg) (connId : Nat) (arr : List Json) (sub : Subscription) : Prop :=
  ∃ fg, ingesterProcessReq cfg connId arr true = .ok (.newSub { sub with filterGroup := fg }) ∧
    List.Forall₂ NostrFilter.SameUpToTagOrder sub.filterGroup.filters fg.filters

/-- What a COUNT without limits asks for: one event more than may be counted. -/
theorem CountRequest.filters [Golpe] {cfg : Cfg} {connId : Nat} {arr : List Json} {sub : Subscription}
    (h : CountRequest cfg connId arr sub) (hmax : cfg.relayMaxFilterLimitCount < maxU64)
    (hno : ∀ v ∈ arr.drop 2, v.NoLimit) : sub.countOnly = true ∧ sub.filterGroup.Built ∧
      ∀ f ∈ sub.filterGroup.filters, f.limit = cfg.relayMaxFilterLimitCount + 1 := by
  obtain ⟨fg, hreq, hsame⟩ := h
  unfold ingesterProcessReq at hreq
  obtain ⟨_, -, hreq⟩ := bind_eq_ok.mp hreq
  obtain ⟨_, -, hreq⟩ := bind_eq_ok.mp hreq
  obtain ⟨_, -, hreq⟩ := bind_eq_ok.mp hreq
  obtain ⟨_, -, hreq⟩ := bind_eq_ok.mp hreq
  obtain ⟨_, -, hreq⟩ := bind_eq_ok.mp hreq
  obtain ⟨fg', hfg, hreq⟩ := bind_eq_ok.mp hreq
  obtain ⟨subId, -, hreq⟩ := bind_eq_ok.mp hreq
  injection hreq with hreq
  injection hreq with hreq
  have hcount : sub.countOnly = true := (congrArg Subscription.countOnly hreq).symm
  have hgroup : fg' = fg := congrArg Subscription.filterGroup hreq
  subst hgroup
  refine ⟨hcount, ⟨_, _, fg', hfg, hsame⟩, fun f hf => ?_⟩
  rw [NostrFilterGroup.limit_of_ofReq hfg hsame hno f hf, if_pos rfl]
  unfold addU64
  unfold maxU64 at hmax ⊢
  omega

/-! ## The query of a COUNT -/

/-- The scheduler since a COUNT with the id `k` was added, on the snapshot `txn`. -/
inductive CountRun [StdSort] (cfg : Cfg) (txn : Db) (k : Nat × SubId) : QueryScheduler → Prop where
  | added {r : QueryScheduler.Run} (h : QueryScheduler.Reached cfg r) (sub : Subscription) (p : Nat)
      (added : Bool) (s : QueryScheduler) (hk : sub.key = k) (hp : r.scheduler.heap.find? p = none)
      (ha : r.scheduler.addSub cfg txn sub p = (added, s)) : CountRun cfg txn k s
  | addSub {s : QueryScheduler} (h : CountRun cfg txn k s) (sub : Subscription) (p : Nat) (added : Bool)
      (s' : QueryScheduler) (hp : s.heap.find? p = none) (ha : s.addSub cfg txn sub p = (added, s')) :
      CountRun cfg txn k s'
  | removeSub {s : QueryScheduler} (h : CountRun cfg txn k s) (connId : Nat) (subId : SubId) :
      CountRun cfg txn k (s.removeSub connId subId)
  | closeConn {s : QueryScheduler} (h : CountRun cfg txn k s) (connId : Nat) :
      CountRun cfg txn k (s.closeConn connId)
  | process {s : QueryScheduler} (h : CountRun cfg txn k s) (pauses : List DBQuery.Pause)
      (s' : QueryScheduler) (ran : Option QueryScheduler.Ran)
      (hp : s.process true txn pauses = .ok (s', ran)) : CountRun cfg txn k s'

section
variable [StdSort] {cfg : Cfg} {txn : Db} {k : Nat × SubId} {s : QueryScheduler}

theorem CountRun.inv (h : CountRun cfg txn k s) : s.Inv cfg := by
  induction h with
  | added h sub p added s _ hp ha => exact (h.inv.inv.addSub txn sub p hp ha).1
  | addSub _ sub p added s' hp ha ih => exact (ih.addSub txn sub p hp ha).1
  | removeSub _ connId subId ih => exact (ih.removeSub connId subId).1
  | closeConn _ connId ih => exact (ih.closeConn connId).1
  | process _ pauses s' ran hp ih => exact (ih.process hp).1

/-- The query of the id has run on the snapshot only. -/
theorem CountRun.runsOver (h : CountRun cfg txn k s) : s.RunsOver (· = txn) k := by
  induction h with
  | added h sub p added s hk hp ha =>
    rw [← hk]
    exact .added h.inv.inv hp ha _
  | addSub h sub p added s' hp ha ih => exact ih.addSub h.inv hp ha
  | removeSub h connId subId ih => exact ih.removeSub h.inv connId subId
  | closeConn h connId ih => exact ih.closeConn h.inv connId
  | process h pauses s' ran hp ih => exact ih.process h.inv rfl hp

end

/-- The stored events that match the group. -/
def matching (txn : Db) (fg : NostrFilterGroup) : List Nat :=
  (txn.event.rows.filter fun r => fg.doesMatch r.2).map Prod.fst

theorem mem_matching {txn : Db} {fg : NostrFilterGroup} {levId : Nat} :
    levId ∈ matching txn fg ↔ ∃ v, (levId, v) ∈ txn.event.rows ∧ fg.doesMatch v = true := by
  simp [matching]

theorem matching_nodup (txn : Db) (fg : NostrFilterGroup) : (matching txn fg).Nodup :=
  txn.event.keys_nodup.sublist (List.filter_sublist.map Prod.fst)

section
variable [StdSort] {txn : Db} {sub : Subscription} {snaps : List Db} {complete : Bool} {st : DBQuery.State}

/-- What a query on one snapshot knows. -/
theorem cover_constant (hplan : ∀ f ∈ sub.filterGroup.filters, ∃ ps km, DBScan.Planned f ps km)
    (htxn : DBQuery.Scannable txn) (hsnaps : ∀ t ∈ snaps, t = txn)
    (h : DBQuery.Slices sub snaps complete st) : DBQuery.QueryCover (· = txn) sub st ∧
      (complete = true → sub.filterGroup.filters[st.1.filterGroupIndex]? = none) := by
  obtain ⟨hcov, hend⟩ := DBQuery.QueryCover.slices hplan (fun t ht => by rw [hsnaps t ht]; exact htxn) h
  exact ⟨hcov.mono hsnaps, hend⟩

omit [StdSort] in
/-- The query of a COUNT saw all matching events, or more than it may count. -/
theorem total_cases (h : DBQuery.QueryCover (· = txn) sub st) (hlatest : sub.latestEventId = txn.getMostRecentLevId)
    (hend : sub.filterGroup.filters[st.1.filterGroupIndex]? = none) {n : Nat}
    (hlimit : ∀ f ∈ sub.filterGroup.filters, f.limit = n + 1) :
    st.1.sentEventsFull.card ≤ (matching txn sub.filterGroup).length ∧
    (n < st.1.sentEventsFull.card ∨ st.1.sentEventsFull.card = (matching txn sub.filterGroup).length) := by
  have hcard : st.1.sentEventsFull.card = (DBQuery.sent st.2).length := by
    rw [h.full, List.toFinset_card_of_nodup h.nodup]
  have hsub : ∀ levId ∈ DBQuery.sent st.2, levId ∈ matching txn sub.filterGroup := by
    intro levId hl
    obtain ⟨-, t, v, rfl, hv, hm⟩ := h.toCovered.sent_matches hl
    exact mem_matching.mpr ⟨v, hv, hm⟩
  have hle := (List.subperm_of_subset h.nodup hsub).length_le
  rw [hcard]
  refine ⟨hle, (h.full_or_all hend hlimit).imp_right fun hall => le_antisymm hle ?_⟩
  refine (List.subperm_of_subset (matching_nodup _ _) fun levId hl => ?_).length_le
  obtain ⟨v, hv, hm⟩ := mem_matching.mp hl
  refine hall levId v (fun t ht => by rw [ht]; exact hv) ?_ hm
  rw [hlatest]
  exact txn.event.le_lastId _ hv

end

/-- **COUNT is exact or says so.**  The slices of the query of a COUNT without limits reply only when
it is complete, with the number of matching events and no flag when that is at most
`maxFilterLimitCount`, and with `maxFilterLimitCount` and the flag otherwise; each slice comes
back. -/
theorem count_exact [Golpe] [StdSort] (cfg : Cfg) (hmax : cfg.relayMaxFilterLimitCount < maxU64) (txn : Db)
    (htxn : DBQuery.Scannable txn) (connId : Nat) (arr : List Json) (sub : Subscription)
    (hreq : CountRequest cfg connId arr sub) (hno : ∀ v ∈ arr.drop 2, v.NoLimit)
    (hsmall : ∀ f ∈ sub.filterGroup.filters, DBScan.SmallFields f) (s : QueryScheduler)
    (h : CountRun cfg txn sub.key s) :
    (∀ pauses s' ran reqNo, s.process true txn pauses = .ok (s', some ran) →
      ran.sub = QueryScheduler.begun txn sub →
      (ran.total = none → callbacks cfg reqNo ran = ([], [])) ∧
      (ran.total.isSome = true → ∃ count limited,
        callbacks cfg reqNo ran = ([.count reqNo sub.connId sub.subId count limited], []) ∧
        (limited = false ↔ (matching txn sub.filterGroup).length ≤ cfg.relayMaxFilterLimitCount) ∧
        (limited = false → count = (matching txn sub.filterGroup).length) ∧
        (limited = true → count = cfg.relayMaxFilterLimitCount))) ∧
    ∀ q, s.live sub.connId sub.subId = some q → q.sub = QueryScheduler.begun txn sub →
      (∀ pauses, DBQuery.process txn pauses (q, []) ≠ .undefined) ∧ ∃ N, DBQuery.Returns txn (q, []) N := by
  obtain ⟨hcount, hbuilt, hlimit⟩ := hreq.filters hmax hno
  have hplan : ∀ f ∈ (QueryScheduler.begun txn sub).filterGroup.filters, ∃ ps km, DBScan.Planned f ps km :=
    DBQuery.planned_of_built hbuilt hsmall
  refine ⟨fun pauses s' ran reqNo hp hran => ?_, fun q hq hsub => ?_⟩
  · have hcalled : ran.sub.countOnly = true := by
      rw [hran]
      exact hcount
    obtain ⟨q, q', out, hs⟩ := (h.inv.process hp).2.2 ran rfl
    obtain ⟨snaps, out', hsnaps, hrun⟩ := h.runsOver.slice rfl hs (by rw [hran]; rfl)
    rw [hran] at hrun
    obtain ⟨hcov, hend⟩ := cover_constant hplan htxn hsnaps hrun
    unfold callbacks
    simp only [hcalled, if_true, List.nil_append]
    refine ⟨fun hnone => by rw [hnone], fun htotal => ?_⟩
    obtain ⟨total, htot⟩ := Option.isSome_iff_exists.mp htotal
    obtain ⟨hle, hcases⟩ := total_cases hcov rfl (hend htotal) (n := cfg.relayMaxFilterLimitCount) hlimit
    have heq : total = q'.sentEventsFull.card := hs.total total htot
    rw [htot, hran]
    simp only [← heq] at hle hcases
    refine ⟨_, _, rfl, ?_, ?_, ?_⟩
    · rw [decide_eq_false_iff_not, Nat.not_lt]
      change _ ≤ (matching txn sub.filterGroup).length at hle
      change _ ∨ _ = (matching txn sub.filterGroup).length at hcases
      omega
    · intro hlimited
      rw [decide_eq_false_iff_not, Nat.not_lt] at hlimited
      rw [Nat.min_eq_left hlimited]
      exact hcases.resolve_left (by omega)
    · intro hlimited
      rw [decide_eq_true_eq] at hlimited
      exact Nat.min_eq_right (by omega)
  · obtain ⟨snaps, out, hsnaps, hrun⟩ := h.runsOver q hq
    rw [hsub] at hrun
    obtain ⟨hcov, -⟩ := cover_constant hplan htxn hsnaps hrun
    have hok : ∀ f ∈ (QueryScheduler.begun txn sub).filterGroup.filters, ∀ t, t = txn → DBScan.SnapOk f t := by
      rintro f - t rfl
      exact htxn.snapOk f
    refine ⟨fun pauses hundef => ?_, ?_⟩
    · refine (hcov.call hplan hok rfl pauses).1 ?_
      have hafter := DBQuery.process_after txn out pauses (q, [])
      rw [hundef, List.append_nil] at hafter
      exact hafter
    · obtain ⟨N, hN⟩ := hcov.returns hplan hok rfl
      rw [← List.append_nil out] at hN
      exact ⟨N, DBQuery.returns_after hN⟩

/-- `["COUNT", "x", {"kinds": [1]}]`. -/
def countKind1 : List Json :=
  [.string (ascii "COUNT"), .string (ascii "x"), .object [(ascii "kinds", .array [.unsigned 1])]]

/-- Of two events one may be counted. -/
theorem count_exact_two : ∃ s pauses s' ran,
    @CountRun .insertion { relayMaxFilterLimitCount := 1 } DBQuery.threeEvents (DBQuery.subOf []).key s ∧
    @QueryScheduler.process .insertion true DBQuery.threeEvents pauses s = .ok (s', some ran) ∧
    callbacks { relayMaxFilterLimitCount := 1 } 0 ran =
      ([.count 0 1 (DBQuery.subOf []).subId 1 true], []) := by
  let _ : StdSort := .insertion
  let _ : Golpe := .plain
  let cfg : Cfg := { relayMaxFilterLimitCount := 1 }
  let f : NostrFilter := { DBQuery.kind1Filter with limit := 2 }
  let sub : Subscription := { DBQuery.subOf [f] with countOnly := true }
  have hreq : CountRequest cfg 1 countKind1 sub :=
    ⟨⟨[f]⟩, rfl, List.forall₂_same.mpr fun f _ => .refl f⟩
  have hno : ∀ v ∈ countKind1.drop 2, v.NoLimit := by
    intro v hv kvs he kv hkv
    rw [List.mem_singleton.mp hv] at he
    cases he
    rw [List.mem_singleton.mp hkv]
    decide
  have hsmall : ∀ g ∈ sub.filterGroup.filters, DBScan.SmallFields g := by
    intro g hg
    rw [List.mem_singleton.mp hg]
    exact ⟨by simp [f, DBQuery.kind1Filter], by simp [f, DBQuery.kind1Filter],
      fun s hs => by rw [← Option.some.inj hs]; decide, by simp [f, DBQuery.kind1Filter]⟩
  have htxn : DBQuery.Scannable DBQuery.threeEvents := by
    unfold DBQuery.Scannable DBScan.LevIdsFit
    decide
  let q : DBQuery := { sub := QueryScheduler.begun DBQuery.threeEvents sub }
  let s := (({} : QueryScheduler).addSub cfg DBQuery.threeEvents sub 7).2
  have hrun : CountRun cfg DBQuery.threeEvents sub.key s :=
    .added (r := {}) .init sub 7 true s rfl rfl rfl
  obtain ⟨hreply, hback⟩ := count_exact cfg (by decide) DBQuery.threeEvents htxn 1 countKind1 sub hreq hno
    hsmall s hrun
  -- a slice without pauses is complete
  obtain ⟨N, hN⟩ := (hback q rfl rfl).2
  obtain ⟨complete, ⟨q', out⟩, hp, hc⟩ := hN (List.replicate N fun _ l => (false, l)) (by simp)
  have hc := hc fun p hp => by rw [List.eq_of_mem_replicate hp]; simp
  subst hc
  obtain ⟨l, hl⟩ := DBQuery.sends_process _ hp
  have hslice : ∃ s' ran, s.process true DBQuery.threeEvents (List.replicate N fun _ l => (false, l)) =
      .ok (s', some ran) ∧ ran.sub = q'.sub ∧ ran.total.isSome = true := by
    have hs : s.running = [7] ∧ s.heap.find? 7 = some q := ⟨rfl, rfl⟩
    unfold QueryScheduler.process
    simp only [hs.1, hs.2, hp]
    exact ⟨_, _, rfl, rfl, rfl⟩
  obtain ⟨s', ran, hslice, hsub, htotal⟩ := hslice
  obtain ⟨count, limited, hcall, hiff, -, hlimited⟩ := (hreply _ s' ran 0 hslice (hsub.trans hl.sub)).2 htotal
  have htwo : (matching DBQuery.threeEvents sub.filterGroup).length = 2 := by decide
  rw [htwo] at hiff
  have hflag : limited = true := by
    rw [← Bool.not_eq_false, hiff]
    decide
  refine ⟨s, _, s', ran, hrun, hslice, ?_⟩
  rw [hcall, hlimited hflag, hflag]
  rfl

end ReqSystem

end Strfry
