import Strfry.LevIds

/-!
# The expiry pass of `runCron`

The pass chooses the events to delete in one transaction and deletes them in a later one, with
batches of `writeEvents` in between.  The expiration index has the timestamps of events that
expire and, under 1, the ephemeral events, which live as long as the configuration says.

The pass deletes what has expired (`Expired`) and only that, as long as the clock is past the
lifetime (`cron_deletes_expired_iff`).  With a longer lifetime `now - lifetime` wraps around and
every ephemeral event is older than it (`cron_wraps`); `strfry delete` makes the age no larger
than the clock first.
-/

namespace Strfry

/-- The write phase: no transaction when there is nothing to delete. -/
def cronDelete [Golpe] [TaoJson] (db : Db) (levIds : List Nat) : Except Err Db :=
  if levIds = [] then .ok db
  else do
    let (db, _, _) ← deleteEvents db {} levIds
    return db

/-- Batches of `writeEvents` are committed. -/
inductive Batches [Golpe] [TaoJson] [StdSort] (db : Db) : Db → Prop where
  | none : Batches db db
  | write {db' db'' : Db} (h : Batches db db') (cache cache' : NegentropyFilterCache)
      (evs evs' : List EventToWrite) (hevs : ∀ ev ∈ evs, ev.status = .pending)
      (hw : writeEvents db' cache evs = .ok (db'', cache', evs')) : Batches db db''

/-- An event is to go: its time has passed, or it is ephemeral and its lifetime is over. -/
def Expired (lifetime now : Nat) (ev : PackedEventView) : Prop :=
  (1 < ev.expiration ∧ ev.expiration ≤ now) ∨ (ev.expiration = 1 ∧ ev.createdAt + lifetime ≤ now)

/-- The events of the read snapshot that are to go. -/
def ToExpire (lifetime now : Nat) (txn : Db) (r : Nat × PackedEventView) : Prop :=
  r ∈ txn.event.rows ∧ r.1 ≠ txn.getMostRecentLevId ∧ Expired lifetime now r.2

/-- The pass over `txn` took `db` to `db'`: it deleted events that were to go, and none is left. -/
structure Expires (lifetime now : Nat) (txn db db' : Db) : Prop where
  only : ∀ r ∈ db.event.rows, r ∉ db'.event.rows → ToExpire lifetime now txn r
  all : ∀ r, ToExpire lifetime now txn r → r ∉ db'.event.rows

/-- The test on an ephemeral event goes wrong: the cutoff wraps around below its `created_at`, or
at time 0 the walk ends before the ephemeral events. -/
def Wraps (lifetime now : Nat) (ev : PackedEventView) : Prop :=
  (0 < now ∧ now < lifetime ∧ ev.createdAt + lifetime ≤ now + 2 ^ 64) ∨
  (now = 0 ∧ lifetime = 0 ∧ ev.createdAt = 0)

/-! ## The read phase -/

/-- What the walk picks. -/
def Picked (mostRecent now ephemeralCutoff levId : Nat) (ev : PackedEventView) : Prop :=
  levId ≠ mostRecent ∧ ev.expiration ≠ 0 ∧ ev.expiration ≤ now ∧
    (ev.expiration = 1 → ev.createdAt ≤ ephemeralCutoff)

/-- A walk over entries in the order of expiration. -/
theorem expiredLevIds_ok {txn : Db} {mostRecent now ephemeralCutoff : Nat} (l : List (Bytes × Nat))
    (hl : ∀ e ∈ l, ∃ v, (e.2, v) ∈ txn.event.rows ∧ v.expiration ≠ 0 ∧ fromSv e.1 = v.expiration)
    (hsort : l.Pairwise fun e e' => fromSv e.1 ≤ fromSv e'.1) :
    ∃ levIds, expiredLevIds txn mostRecent now ephemeralCutoff l = .ok levIds ∧ ∀ levId, levId ∈ levIds ↔
      ∃ e ∈ l, e.2 = levId ∧ ∃ v, (levId, v) ∈ txn.event.rows ∧ Picked mostRecent now ephemeralCutoff levId v := by
  induction l with
  | nil => exact ⟨[], rfl, by simp⟩
  | cons e l ih =>
    obtain ⟨k, lev⟩ := e
    obtain ⟨hle, hsort⟩ := List.pairwise_cons.mp hsort
    obtain ⟨rest, hrest, hmem⟩ := ih (fun e' he' => hl e' (List.mem_cons_of_mem _ he')) hsort
    obtain ⟨v, hv, hne, hk⟩ := hl (k, lev) List.mem_cons_self
    simp only at hk hv
    have huniq : ∀ v', (lev, v') ∈ txn.event.rows → v' = v := fun v' hv' => txn.event.row_unique hv' hv
    -- the entry itself, and those after it
    have hcons : ∀ levId, (∃ e ∈ (k, lev) :: l, e.2 = levId ∧ ∃ v, (levId, v) ∈ txn.event.rows ∧
        Picked mostRecent now ephemeralCutoff levId v) ↔
        (levId = lev ∧ Picked mostRecent now ephemeralCutoff lev v) ∨ levId ∈ rest := by
      intro levId
      rw [List.exists_mem_cons_iff, ← hmem]
      refine or_congr_left ⟨?_, ?_⟩
      · rintro ⟨rfl, v', hv', hp⟩
        rw [huniq v' hv'] at hp
        exact ⟨rfl, hp⟩
      · rintro ⟨rfl, hp⟩
        exact ⟨rfl, v, hv, hp⟩
    simp only [hcons]
    unfold expiredLevIds
    simp only [hk, hrest]
    by_cases hnow : v.expiration > now
    · rw [if_pos hnow]
      refine ⟨[], rfl, fun levId => ⟨fun h => (by cases h), ?_⟩⟩
      rintro (⟨-, -, -, hp, -⟩ | hin)
      · omega
      · -- the entries after it expire later still
        obtain ⟨e', he', rfl, v', hv', -, -, hp, -⟩ := (hmem levId).mp hin
        obtain ⟨v'', hv'', -, hk'⟩ := hl e' (List.mem_cons_of_mem _ he')
        have hle' := hle e' he'
        simp only [hk] at hle'
        rw [txn.event.row_unique hv'' hv'] at hk'
        omega
    rw [if_neg hnow]
    by_cases hrecent : lev = mostRecent
    · rw [if_pos hrecent]
      refine ⟨rest, rfl, fun levId => ⟨Or.inr, ?_⟩⟩
      rintro (⟨-, hp, -⟩ | hin)
      · exact absurd hrecent hp
      · exact hin
    rw [if_neg hrecent]
    by_cases hone : v.expiration = 1
    · rw [if_pos hone, (txn.event.lookup_eq_some_iff lev v).mpr hv]
      refine ⟨_, rfl, fun levId => ?_⟩
      by_cases hcut : v.createdAt ≤ ephemeralCutoff
      · rw [if_pos hcut, List.mem_cons]
        refine or_congr_left ⟨fun h => ⟨h, hrecent, hne, Nat.le_of_not_lt hnow, fun _ => hcut⟩, And.left⟩
      · rw [if_neg hcut]
        refine ⟨Or.inr, ?_⟩
        rintro (⟨-, -, -, -, hp⟩ | hin)
        · exact absurd (hp hone) hcut
        · exact hin
    · rw [if_neg hone]
      refine ⟨lev :: rest, rfl, fun levId => ?_⟩
      rw [List.mem_cons]
      exact or_congr_left ⟨fun h => ⟨h, hrecent, hne, Nat.le_of_not_lt hnow, fun h1 => absurd h1 hone⟩, And.left⟩

/-- The read phase picks events of the snapshot. -/
theorem cronExpired_ok (cfg : Cfg) (txn : Db) (now : Nat) : ∃ levIds, cronExpired cfg txn now = .ok levIds ∧
    ∀ levId, levId ∈ levIds ↔ ∃ v, (levId, v) ∈ txn.event.rows ∧
      Picked txn.getMostRecentLevId now (subU64 now cfg.eventsEphemeralEventsLifetimeSeconds) levId v := by
  have hentry : ∀ e ∈ txn.foreachUp .expiration (toSv 0) 0, ∃ v, (e.2, v) ∈ txn.event.rows ∧
      v.expiration ≠ 0 ∧ fromSv e.1 = v.expiration := by
    intro e he
    obtain ⟨v, hv, hk⟩ := (txn.mem_entries _ _).mp ((mem_walkUp _ _ _ _).mp he).1
    replace hk : e.1 ∈ if v.expiration ≠ 0 then [toSv v.expiration] else [] := hk
    split at hk
    · rename_i hne
      refine ⟨v, hv, hne, ?_⟩
      rw [List.mem_singleton.mp hk]
      exact fromSv_toSv _ v.expiration_lt
    · cases hk
  have hsort : (txn.foreachUp .expiration (toSv 0) 0).Pairwise fun e e' => fromSv e.1 ≤ fromSv e'.1 := by
    refine (walkUp_pairwise_le _ _ _).imp fun {e e'} hle => ?_
    simp only [entryOrd, Prod.Lex.toLex_le_toLex, lt_self_iff_false, true_and, false_or] at hle
    omega
  obtain ⟨levIds, hok, hmem⟩ := @expiredLevIds_ok txn txn.getMostRecentLevId now
    (subU64 now cfg.eventsEphemeralEventsLifetimeSeconds) _ hentry hsort
  refine ⟨levIds, hok, fun levId => (hmem levId).trans ⟨?_, ?_⟩⟩
  · rintro ⟨e, -, -, v, hv, hp⟩
    exact ⟨v, hv, hp⟩
  · rintro ⟨v, hv, hp⟩
    refine ⟨(toSv v.expiration, levId), (mem_walkUp _ _ _ _).mpr ⟨(txn.mem_entries _ _).mpr ⟨v, hv, ?_⟩, ?_⟩,
      rfl, v, hv, hp⟩
    · simp [indexKeys, hp.2.1]
    · have h0 : fromSv (toSv 0) = 0 := fromSv_toSv 0 (by norm_num)
      simp only [entryOrd, h0, fromSv_toSv _ v.expiration_lt, Prod.Lex.toLex_le_toLex, lt_self_iff_false,
        true_and, false_or]
      have := hp.2.1
      omega

/-- Picking is right except where the test goes wrong. -/
theorem picked_iff_expired {mostRecent now lifetime levId : Nat} {ev : PackedEventView}
    (hlife : lifetime < 2 ^ 64) (hnow : now < 2 ^ 64) (hne : levId ≠ mostRecent) :
    (Picked mostRecent now (subU64 now lifetime) levId ev ↔ Expired lifetime now ev) ↔
      ¬ (ev.expiration = 1 ∧ Wraps lifetime now ev) := by
  have hc := ev.createdAt_lt
  have hcutoff : subU64 now lifetime = if lifetime ≤ now then now - lifetime else now + 2 ^ 64 - lifetime := by
    unfold subU64
    split
    · omega
    · omega
  unfold Picked Expired Wraps
  rw [hcutoff]
  by_cases h1 : ev.expiration = 1
  · rw [h1]
    split
    · omega
    · omega
  · omega

/-! ## The pass -/

section
variable [Golpe] [TaoJson]

theorem cronDelete_rows {db db' : Db} {levIds : List Nat} (h : cronDelete db levIds = .ok db')
    (r : Nat × PackedEventView) : r ∈ db'.event.rows ↔ r ∈ db.event.rows ∧ r.1 ∉ levIds := by
  unfold cronDelete at h
  split at h
  · rename_i hnil
    cases h
    simp [hnil]
  · obtain ⟨⟨db1, cache', n⟩, hd, h⟩ := bind_eq_ok.mp h
    cases h
    obtain ⟨-, rfl⟩ := deleteEvents_eq hd
    exact mem_foldl_deleteEvent cache' levIds db r

theorem Compiles.cronDelete {db : Db} (h : Compiles db) (levIds : List Nat) :
    ∃ db', cronDelete db levIds = .ok db' := by
  unfold Strfry.cronDelete
  split
  · exact ⟨db, rfl⟩
  · obtain ⟨cache, hcache⟩ := h.freshenCache {}
    unfold deleteEvents
    rw [hcache]
    exact ⟨_, rfl⟩

theorem Batches.evolves [StdSort] {db db' : Db} (h : Batches db db') : Evolves db db' := by
  induction h with
  | none => exact .refl db
  | write _ cache cache' evs evs' hevs hw ih => exact ih.trans (writeEvents_assigns hevs hw).toEvolves

/-- **The expiry pass**, whatever is written between its two transactions: it can read, it can
delete if the filters of the trees can be compiled, and then it is right unless the test on an
ephemeral event that is still there goes wrong. -/
theorem cron_deletes_expired_iff [StdSort] (cfg : Cfg) (now : Nat) (txn db : Db)
    (hlife : cfg.eventsEphemeralEventsLifetimeSeconds < 2 ^ 64) (hnow : now < 2 ^ 64) (hb : Batches txn db) :
    ∃ levIds, cronExpired cfg txn now = .ok levIds ∧ (Compiles db → ∃ db', cronDelete db levIds = .ok db') ∧
      ∀ db', cronDelete db levIds = .ok db' →
        (Expires cfg.eventsEphemeralEventsLifetimeSeconds now txn db db' ↔
          ∀ r ∈ txn.event.rows, r ∈ db.event.rows → r.1 ≠ txn.getMostRecentLevId → r.2.expiration = 1 →
            ¬ Wraps cfg.eventsEphemeralEventsLifetimeSeconds now r.2) := by
  obtain ⟨levIds, hread, hmem⟩ := cronExpired_ok cfg txn now
  refine ⟨levIds, hread, fun hcomp => hcomp.cronDelete levIds, fun db' hdel => ?_⟩
  have hrows := cronDelete_rows hdel
  -- the levIds that are read are still those of the same events
  have hpicked : ∀ r ∈ db.event.rows, r.1 ∈ levIds ↔ r ∈ txn.event.rows ∧ Picked txn.getMostRecentLevId now
      (subU64 now cfg.eventsEphemeralEventsLifetimeSeconds) r.1 r.2 := by
    intro r hr
    rw [hmem]
    constructor
    · rintro ⟨v, hv, hp⟩
      have hold := hb.evolves.rows r hr (txn.event.le_lastId (r.1, v) hv)
      rw [txn.event.row_unique hv hold] at hp
      exact ⟨hold, hp⟩
    · rintro ⟨hold, hp⟩
      exact ⟨r.2, hold, hp⟩
  have hjudge := fun (r : Nat × PackedEventView) (hne : r.1 ≠ txn.getMostRecentLevId) =>
    @picked_iff_expired _ _ _ _ r.2 hlife hnow hne
  constructor
  · intro hexp r hold hr hne hone hwraps
    refine (not_iff_not.mpr (hjudge r hne)).mpr (not_not.mpr ⟨hone, hwraps⟩) ⟨fun hp => ?_, fun hp => ?_⟩
    · exact (hexp.only r hr fun hr' => ((hrows r).mp hr').2 ((hpicked r hr).mpr ⟨hold, hp⟩)).2.2
    · by_contra hnot
      refine hexp.all r ⟨hold, hne, hp⟩ ((hrows r).mpr ⟨hr, fun hin => ?_⟩)
      exact hnot ((hpicked r hr).mp hin).2
  · intro hcond
    have hiff : ∀ r ∈ txn.event.rows, r ∈ db.event.rows → r.1 ≠ txn.getMostRecentLevId →
        (Picked _ now _ r.1 r.2 ↔ Expired _ now r.2) := fun r hold hr hne =>
      (hjudge r hne).mpr fun ⟨hone, hwraps⟩ => hcond r hold hr hne hone hwraps
    refine ⟨fun r hr hgone => ?_, fun r ⟨hold, hne, hp⟩ hr' => ?_⟩
    · have hin : r.1 ∈ levIds := by
        by_contra hnot
        exact hgone ((hrows r).mpr ⟨hr, hnot⟩)
      obtain ⟨hold, hp⟩ := (hpicked r hr).mp hin
      exact ⟨hold, hp.1, (hiff r hold hr hp.1).mp hp⟩
    · obtain ⟨hr, hnot⟩ := (hrows r).mp hr'
      exact hnot ((hpicked r hr).mpr ⟨hold, (hiff r hold hr hne).mpr hp⟩)

end

/-- An ephemeral event, as `nostrJsonToPackedEvent` packs it. -/
def ephemeralEvent (createdAt : U64) : PackedEventView :=
  PackedFields.view {
    id := List.replicate 32 1
    pubkey := List.replicate 32 9
    createdAt := createdAt.val
    kind := 20000
    expiration := 1
    tags := []
    id_len := List.length_replicate
    pubkey_len := List.length_replicate
    createdAt_lt := U64.lt createdAt
    kind_lt := by norm_num
    expiration_lt := by norm_num
    tags_len := by simp }

/-- It was posted a minute ago, and a note after it. -/
def minuteOld : Db :=
  { event := (Table.empty.insertNext (ephemeralEvent 1700000000)).insertNext (sampleEvent 2 9 1700000050 1 []) }

/-- With the default lifetime the event stays. -/
theorem cron_deletes_expired_iff_default : ∃ levIds, cronExpired {} minuteOld 1700000060 = .ok levIds ∧
    ∀ db', @cronDelete Golpe.plain TaoJson.none minuteOld levIds = .ok db' →
      Expires 300 1700000060 minuteOld minuteOld db' := by
  let _ : Golpe := Golpe.plain
  let _ : TaoJson := TaoJson.none
  let _ : StdSort := StdSort.insertion
  obtain ⟨levIds, hread, -, hpass⟩ :=
    cron_deletes_expired_iff {} 1700000060 minuteOld minuteOld (by decide) (by norm_num) .none
  refine ⟨levIds, hread, fun db' hdel => (hpass db' hdel).mpr fun r _ _ _ _ hwraps => ?_⟩
  have hlife : ({} : Cfg).eventsEphemeralEventsLifetimeSeconds = 300 := rfl
  unfold Wraps at hwraps
  rw [hlife] at hwraps
  omega

/-- With a lifetime of three hundred years it is deleted at once. -/
theorem cron_wraps : ¬ ∀ (cfg : Cfg) (now : Nat) (txn db : Db),
    (∀ r ∈ txn.event.rows, ∃ json, @nostrJsonToPackedEvent Golpe.plain cfg json = .ok r.2.buf) →
    cfg.eventsEphemeralEventsLifetimeSeconds < 2 ^ 64 → now < 2 ^ 64 →
    @Batches Golpe.plain TaoJson.none StdSort.insertion txn db →
    ∃ levIds, cronExpired cfg txn now = .ok levIds ∧
      ∀ db', @cronDelete Golpe.plain TaoJson.none db levIds = .ok db' →
        Expires cfg.eventsEphemeralEventsLifetimeSeconds now txn db db' := by
  intro hall
  let _ : Golpe := Golpe.plain
  let _ : TaoJson := TaoJson.none
  let _ : StdSort := StdSort.insertion
  let cfg : Cfg := { eventsEphemeralEventsLifetimeSeconds := 10000000000 }
  have hpacked : ∀ r ∈ minuteOld.event.rows, ∃ json, nostrJsonToPackedEvent cfg json = .ok r.2.buf := by
    intro r hr
    simp only [minuteOld, Table.insertNext, Table.empty, List.nil_append, List.cons_append, List.mem_cons,
      List.not_mem_nil, or_false] at hr
    rcases hr with rfl | rfl
    · exact ⟨sampleJson 1 9 1700000000 20000 [], rfl⟩
    · exact ⟨sampleJson 2 9 1700000050 1 [], rfl⟩
  obtain ⟨levIds, hread, hpass⟩ := hall cfg 1700000060 minuteOld minuteOld hpacked (by decide) (by norm_num) .none
  have hone : (1, ephemeralEvent 1700000000) ∈ minuteOld.event.rows := List.mem_cons_self
  have hread' : cronExpired cfg minuteOld 1700000060 = .ok [1] := by decide +kernel
  rw [hread] at hread'
  cases hread'
  have hcompiles : Compiles minuteOld := ⟨[], rfl⟩
  obtain ⟨db', hdel⟩ := hcompiles.cronDelete [1]
  have hgone : (1, ephemeralEvent 1700000000) ∉ db'.event.rows := fun hin =>
    ((cronDelete_rows hdel _).mp hin).2 (by simp)
  obtain ⟨-, -, hexpired⟩ := (hpass db' hdel).only _ hone hgone
  have hcreated : (ephemeralEvent 1700000000).createdAt = 1700000000 := by decide
  have hexpiration : (ephemeralEvent 1700000000).expiration = 1 := by decide
  have hlife : cfg.eventsEphemeralEventsLifetimeSeconds = 10000000000 := rfl
  unfold Expired at hexpired
  simp only [hcreated, hexpiration, hlife] at hexpired
  omega

end Strfry
