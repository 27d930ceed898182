import Strfry.NegentropyTrees

/-!
# Local event ids

Events are added by `writeEvents` batches.  They are removed by those, by the expiry pass of
`runCron` and by `strfry delete`.  The last two read which events to delete in one transaction
and delete them in a later one, and other transactions may commit in between.

`assigned` records every levId handed out, with the event it went to.  A new levId is one more
than the largest one present, so what matters is that the largest one is never taken out: a
batch inserts before it deletes, and cron skips the most recent event.  `strfry delete` does not
skip it:

* `levIds_not_reused`: no levId is handed out twice in a run whose `delete` commits spare the
  most recent event;
* `delete_reuses`: a run in which it is.
-/

namespace Strfry

/-! ## The expiry pass of `runCron` -/

/-- The callback of the walk over the expiration index. -/
def expiredLevIds (txn : Db) (mostRecent now ephemeralCutoff : Nat) :
    List (Bytes × Nat) → Except Err (List Nat)
  | [] => .ok []
  | (k, levId) :: rest =>
    let expiration := fromSv k
    if expiration > now then .ok []
    -- don't delete because it could cause levId re-use
    else if levId = mostRecent then expiredLevIds txn mostRecent now ephemeralCutoff rest
    else if expiration = 1 then
      match txn.event.lookup levId with
      | none => .error (.herr "missing event from index, corrupt DB?")
      | some view => do
        let levIds ← expiredLevIds txn mostRecent now ephemeralCutoff rest
        return if view.createdAt ≤ ephemeralCutoff then levId :: levIds else levIds
    else do
      let levIds ← expiredLevIds txn mostRecent now ephemeralCutoff rest
      return levId :: levIds

/-- The read phase. -/
def cronExpired (cfg : Cfg) (txn : Db) (now : Nat) : Except Err (List Nat) :=
  expiredLevIds txn txn.getMostRecentLevId now (subU64 now cfg.eventsEphemeralEventsLifetimeSeconds)
    (txn.foreachUp .expiration (toSv 0) 0)

/-! ## `strfry delete` -/

/-- `filter[key] = value`, in key order. -/
def setMember (key : Bytes) (value : Json) : List (Bytes × Json) → List (Bytes × Json)
  | [] => [(key, value)]
  | kv :: kvs => if key < kv.1 then (key, value) :: kv :: kvs
      else if key = kv.1 then (key, value) :: kvs
      else kv :: setMember key value kvs

/-- Whether `optional<uint64_t>(key)` has a value. -/
def hasUnsigned (v : Json) (key : Bytes) : Except Err Bool :=
  match v with
  | .object kvs => match (kvs.find? fun kv => kv.1 == key).map Prod.snd with
    | none => .ok false
    | some (.unsigned _) | some (.signed _) | some (.double _) => .ok true
    | some _ => .error .badVariant
  | _ => .error .badVariant

/-- The filter of the command line: `--age` becomes an `until`. -/
def deleteFilter [TaoJson] (filterStr : Bytes) (age : Option Nat) (now : Nat) : Except Err Json := do
  let _ ← throwIf (filterStr = [] ∧ age = none) (.herr "must specify --age and/or --filter")
  let filter ← parseJson (if filterStr = [] then ascii "\x7b\x7d" else filterStr)
  match age with
  | none => return filter
  | some age =>
    let hasUntil ← hasUnsigned filter (ascii "until")
    let _ ← throwIf (hasUntil = true) (.herr "--age is not compatible with filter containing 'until'")
    match filter with
    | .object kvs =>
      return .object (setMember (ascii "until") (.unsigned (Fin.ofNat _ (now - min age now))) kvs)
    | _ => .error .badVariant

/-- The set the callback of the query fills. -/
def levIdSet (l : List Nat) : List Nat := l.dedup.insertionSort (· ≤ ·)

/-- The read phase: the events the query sends. -/
inductive DeleteRead [Golpe] [TaoJson] [StdSort] (txn : Db) : List Nat → Prop where
  | intro (filterStr : Bytes) (age : Option Nat) (now : Nat) (json : Json) (fg : NostrFilterGroup)
      (st : DBQuery.State) (hjson : deleteFilter filterStr age now = .ok json)
      (hfg : Unwraps json maxU64 fg) (hquery : DBQuery.Calls txn (buildQuery fg) true st) :
      DeleteRead txn (levIdSet (DBQuery.sent st.2))

/-! ## Runs -/

/-- What a deleter has read and not yet deleted. -/
inductive PendingDelete where
  | cron (levIds : List Nat)
  | delete (levIds : List Nat)

structure LevState where
  db : Db
  pending : List PendingDelete := []
  assigned : List (Nat × Bytes)

/-- The levIds a batch handed out. -/
def assignedBy (evs : List EventToWrite) : List (Nat × Bytes) :=
  evs.filterMap fun ev => if ev.status = .written then some (ev.levId, ev.packedStr) else none

section
variable [Golpe] [TaoJson] [StdSort] (cfg : Cfg)

/-- One transaction.  `C` is what is known of a commit of `strfry delete`: the database before it
and the levIds it deletes. -/
inductive LevStep (C : Db → List Nat → Prop) (s : LevState) : LevState → Prop where
  | write (cache cache' : NegentropyFilterCache) (evs evs' : List EventToWrite) (db' : Db)
      (hevs : ∀ ev ∈ evs, ev.status = .pending)
      (h : writeEvents s.db cache evs = .ok (db', cache', evs')) :
      LevStep C s { s with db := db', assigned := s.assigned ++ assignedBy evs' }
  | cronRead (now : Nat) (levIds : List Nat) (h : cronExpired cfg s.db now = .ok levIds)
      (hne : levIds ≠ []) : LevStep C s { s with pending := s.pending ++ [.cron levIds] }
  | cronWrite (before after : List PendingDelete) (levIds : List Nat) (cache' : NegentropyFilterCache)
      (n : Nat) (db' : Db) (hp : s.pending = before ++ .cron levIds :: after)
      (h : deleteEvents s.db {} levIds = .ok (db', cache', n)) :
      LevStep C s { s with db := db', pending := before ++ after }
  | deleteRead (levIds : List Nat) (h : DeleteRead s.db levIds) :
      LevStep C s { s with pending := s.pending ++ [.delete levIds] }
  | deleteWrite (before after : List PendingDelete) (levIds : List Nat) (cache' : NegentropyFilterCache)
      (n : Nat) (db' : Db) (hp : s.pending = before ++ .delete levIds :: after) (hC : C s.db levIds)
      (h : deleteEvents s.db {} levIds = .ok (db', cache', n)) :
      LevStep C s { s with db := db', pending := before ++ after }

/-- The states reached from a database, whose events have their levIds. -/
inductive LevReached (C : Db → List Nat → Prop) : LevState → Prop where
  | init (db : Db) : LevReached C { db := db, assigned := db.event.rows.map fun r => (r.1, r.2.buf) }
  | step {s s' : LevState} (h : LevReached C s) (hs : LevStep cfg C s s') : LevReached C s'

end

/-! ## One transaction -/

/-- The clock does not run back, and what is as old as it was is what was there. -/
structure Evolves (db db' : Db) : Prop where
  lastId : db.event.lastId ≤ db'.event.lastId
  rows : ∀ r ∈ db'.event.rows, r.1 ≤ db.event.lastId → r ∈ db.event.rows

theorem Evolves.refl (db : Db) : Evolves db db := ⟨Nat.le_refl _, fun _ hr _ => hr⟩

theorem Evolves.trans {a b c : Db} (h : Evolves a b) (h' : Evolves b c) : Evolves a c where
  lastId := Nat.le_trans h.lastId h'.lastId
  rows r hr hle := h.rows r (h'.rows r hr (Nat.le_trans hle h.lastId)) hle

/-- Deleting events other than the most recent one. -/
theorem Evolves.foldl_deleteEvent (cache : NegentropyFilterCache) (l : List Nat) (db : Db)
    (hl : db.event.lastId ∉ l) : Evolves db (l.foldl (deleteEvent cache) db) ∧
      (l.foldl (deleteEvent cache) db).event.lastId = db.event.lastId := by
  have hlast : (l.foldl (deleteEvent cache) db).event.lastId = db.event.lastId := by
    induction l generalizing db with
    | nil => rfl
    | cons lev l ih =>
      rw [List.mem_cons, not_or] at hl
      have hlast := lastId_deleteEvent cache db lev (Ne.symm hl.1)
      rw [List.foldl_cons, ih (deleteEvent cache db lev) (by rw [hlast]; exact hl.2), hlast]
  exact ⟨⟨le_of_eq hlast.symm, fun r hr _ => mem_of_mem_foldl_deleteEvent cache l db hr⟩, hlast⟩

/-- A turn of `writeEvents` hands out the next levId, or none. -/
theorem writeEvent_assigns {cache : NegentropyFilterCache} {db db' : Db} {prevId : Option Bytes}
    {ev ev' : EventToWrite} {packed : PackedEventView} (hpend : ev.status = .pending)
    (h : writeEvent cache db prevId ev packed = .ok (db', ev')) :
    Evolves db db' ∧ (ev'.status = .written → ev'.levId = db.event.lastId + 1 ∧
      db'.event.lastId = db.event.lastId + 1) := by
  rcases writeEvent_ops cache h with ⟨rfl, hnot⟩ | ⟨-, rfl, l, hl, rfl⟩
  · exact ⟨.refl _, fun hw => absurd hw (hnot hpend)⟩
  · have hev := (cache.update_sameTables (insertEvent db packed ev.jsonStr) packed true).event
    have hlast : (cache.update (insertEvent db packed ev.jsonStr) packed true).event.lastId =
        db.event.lastId + 1 := by
      rw [hev]
      exact Table.lastId_insertNext _ _
    have hnew : db.event.lastId + 1 ∉ l := by
      intro hin
      obtain ⟨v, hv⟩ := (db.event.mem_keys _).mp (hl _ hin)
      have := db.event.le_lastId _ hv
      simp only at this
      omega
    obtain ⟨hevolves, heq⟩ := Evolves.foldl_deleteEvent cache l _ (by rw [hlast]; exact hnew)
    refine ⟨Evolves.trans ⟨by omega, fun r hr hle => ?_⟩ hevolves, fun _ => ⟨rfl, heq.trans hlast⟩⟩
    rw [hev] at hr
    rcases (Table.mem_insertNext _ _ _).mp hr with hr | rfl
    · exact hr
    · simp only at hle
      omega

/-- The levIds handed out are new ones, each once. -/
structure Assigns (db db' : Db) (evs : List EventToWrite) : Prop extends Evolves db db' where
  nodup : ((assignedBy evs).map Prod.fst).Nodup
  range : ∀ a ∈ assignedBy evs, db.event.lastId < a.1 ∧ a.1 ≤ db'.event.lastId

/-- **The loop** hands out increasing levIds. -/
theorem writeLoop_assigns {cache : NegentropyFilterCache} (l : List (EventToWrite × PackedEventView))
    (hl : ∀ e ∈ l, e.1.status = .pending) {db db' : Db} {prevId : Option Bytes}
    {evs' : List EventToWrite} (h : writeLoop cache db prevId l = .ok (db', evs')) :
    Assigns db db' evs' := by
  induction l generalizing db prevId evs' with
  | nil =>
    cases h
    exact ⟨.refl _, by simp [assignedBy], by simp [assignedBy]⟩
  | cons e l ih =>
    unfold writeLoop at h
    obtain ⟨⟨db1, ev1⟩, h1, h⟩ := bind_eq_ok.mp h
    obtain ⟨⟨db2, evs2⟩, h2, h⟩ := bind_eq_ok.mp h
    cases h
    obtain ⟨hev, hw⟩ := writeEvent_assigns (hl e List.mem_cons_self) h1
    have hrest := ih (fun e' he' => hl e' (List.mem_cons_of_mem _ he')) h2
    have hlt : ∀ a ∈ assignedBy evs2, db.event.lastId < a.1 ∧ a.1 ≤ db'.event.lastId := fun a ha =>
      ⟨Nat.lt_of_le_of_lt hev.lastId (hrest.range a ha).1, (hrest.range a ha).2⟩
    refine ⟨hev.trans hrest.toEvolves, ?_, ?_⟩
    · by_cases hs : ev1.status = .written
      · obtain ⟨hid, hlast⟩ := hw hs
        simp only [assignedBy, List.filterMap_cons, if_pos hs, List.map_cons]
        refine List.nodup_cons.mpr ⟨fun hin => ?_, hrest.nodup⟩
        obtain ⟨a, ha, he⟩ := List.mem_map.mp hin
        have := (hrest.range a ha).1
        omega
      · simpa only [assignedBy, List.filterMap_cons, if_neg hs] using hrest.nodup
    · intro a ha
      by_cases hs : ev1.status = .written
      · simp only [assignedBy, List.filterMap_cons, if_pos hs] at ha
        rcases List.mem_cons.mp ha with rfl | ha
        · obtain ⟨hid, hlast⟩ := hw hs
          have := hrest.lastId
          simp only
          omega
        · exact hlt a ha
      · simp only [assignedBy, List.filterMap_cons, if_neg hs] at ha
        exact hlt a ha

/-- What the expiry pass finds is older than the most recent event. -/
theorem expiredLevIds_lt {txn : Db} {now ephemeralCutoff : Nat} (l : List (Bytes × Nat))
    (hl : ∀ e ∈ l, e ∈ txn.entries .expiration) {levIds : List Nat}
    (h : expiredLevIds txn txn.event.lastId now ephemeralCutoff l = .ok levIds) :
    ∀ lev ∈ levIds, lev < txn.event.lastId := by
  induction l generalizing levIds with
  | nil =>
    cases h
    simp
  | cons e l ih =>
    obtain ⟨k, levId⟩ := e
    have hrest : ∀ rest, expiredLevIds txn txn.event.lastId now ephemeralCutoff l = .ok rest →
        ∀ lev ∈ rest, lev < txn.event.lastId :=
      fun _ hr => ih (fun e' he' => hl e' (List.mem_cons_of_mem _ he')) hr
    have hhead : levId ≤ txn.event.lastId := by
      obtain ⟨v, hv, -⟩ := (txn.mem_entries _ _).mp (hl _ List.mem_cons_self)
      exact txn.event.le_lastId _ hv
    simp only [expiredLevIds] at h
    split at h
    · cases h
      simp
    split at h
    · exact hrest _ h
    rename_i hne
    have hcons : ∀ rest : List Nat, (∀ lev ∈ rest, lev < txn.event.lastId) →
        ∀ lev ∈ levId :: rest, lev < txn.event.lastId := by
      intro rest hall lev hlev
      rcases List.mem_cons.mp hlev with rfl | hlev
      · omega
      · exact hall lev hlev
    split at h
    · split at h
      · cases h
      · obtain ⟨rest, hr, h⟩ := bind_eq_ok.mp h
        cases h
        split
        · exact hcons rest (hrest _ hr)
        · exact hrest _ hr
    · obtain ⟨rest, hr, h⟩ := bind_eq_ok.mp h
      cases h
      exact hcons rest (hrest _ hr)

theorem cronExpired_lt {cfg : Cfg} {txn : Db} {now : Nat} {levIds : List Nat}
    (h : cronExpired cfg txn now = .ok levIds) : ∀ lev ∈ levIds, lev < txn.event.lastId :=
  expiredLevIds_lt _ (fun _ he => ((mem_walkUp _ _ _ _).mp he).1) h

section
variable [Golpe] [TaoJson] [StdSort]

theorem writeEvents_assigns {db db' : Db} {cache cache' : NegentropyFilterCache}
    {evs evs' : List EventToWrite} (hevs : ∀ ev ∈ evs, ev.status = .pending)
    (h : writeEvents db cache evs = .ok (db', cache', evs')) : Assigns db db' evs' := by
  unfold writeEvents at h
  obtain ⟨l, hl, h⟩ := bind_eq_ok.mp h
  obtain ⟨c, -, h⟩ := bind_eq_ok.mp h
  obtain ⟨r, hr, h⟩ := bind_eq_ok.mp h
  cases h
  exact writeLoop_assigns _ (fun e he => viewBatch_pending hevs hl e ((StdSort.mem_sort _ _ _).mp he)) hr

omit [StdSort] in
theorem deleteEvents_evolves {db db' : Db} {cache cache' : NegentropyFilterCache} {levIds : List Nat}
    {n : Nat} (hl : db.event.lastId ∉ levIds) (h : deleteEvents db cache levIds = .ok (db', cache', n)) :
    Evolves db db' := by
  obtain ⟨-, rfl⟩ := deleteEvents_eq h
  exact (Evolves.foldl_deleteEvent _ levIds db hl).1

/-! ## Runs -/

structure LevInv (s : LevState) : Prop where
  nodup : (s.assigned.map Prod.fst).Nodup
  bound : ∀ a ∈ s.assigned, a.1 ≤ s.db.event.lastId
  cron : ∀ levIds, .cron levIds ∈ s.pending → ∀ lev ∈ levIds, lev < s.db.event.lastId

omit [Golpe] [TaoJson] [StdSort] in
theorem LevInv.init (db : Db) :
    LevInv { db := db, assigned := db.event.rows.map fun r => (r.1, r.2.buf) } where
  nodup := by
    simp only [List.map_map]
    exact db.event.keys_nodup
  bound a ha := by
    obtain ⟨r, hr, rfl⟩ := List.mem_map.mp ha
    exact db.event.le_lastId r hr
  cron levIds h := by simp at h

omit [Golpe] [TaoJson] [StdSort] in
/-- A commit that hands out no levId. -/
theorem LevInv.evolve {s : LevState} (h : LevInv s) {db' : Db} (hev : Evolves s.db db')
    {pending : List PendingDelete} (hp : ∀ p ∈ pending, p ∈ s.pending) :
    LevInv { s with db := db', pending := pending } where
  nodup := h.nodup
  bound a ha := Nat.le_trans (h.bound a ha) hev.lastId
  cron levIds hin lev hlev := Nat.lt_of_lt_of_le (h.cron levIds (hp _ hin) lev hlev) hev.lastId

/-- A commit of `strfry delete` spares the most recent event. -/
def SparesMostRecent (db : Db) (levIds : List Nat) : Prop := db.getMostRecentLevId ∉ levIds

/-- **One transaction** keeps the invariant, and the clock. -/
theorem LevInv.step {cfg : Cfg} {s s' : LevState} (h : LevInv s) (hs : LevStep cfg SparesMostRecent s s') :
    LevInv s' ∧ Evolves s.db s'.db := by
  have hmem : ∀ (before after : List PendingDelete) (x : PendingDelete), s.pending = before ++ x :: after →
      ∀ p ∈ before ++ after, p ∈ s.pending := by
    intro before after x hp p hin
    rw [hp]
    rcases List.mem_append.mp hin with hin | hin
    · exact List.mem_append_left _ hin
    · exact List.mem_append_right _ (List.mem_cons_of_mem _ hin)
  cases hs with
  | write cache cache' evs evs' db' hevs hw =>
    have ha := writeEvents_assigns hevs hw
    refine ⟨⟨?_, fun a hin => ?_, fun levIds hin lev hlev => ?_⟩, ha.toEvolves⟩
    · rw [List.map_append]
      refine List.nodup_append.mpr ⟨h.nodup, ha.nodup, fun x hx y hy => ?_⟩
      obtain ⟨a, hin, rfl⟩ := List.mem_map.mp hx
      obtain ⟨b, hin', rfl⟩ := List.mem_map.mp hy
      have h1 := h.bound a hin
      have h2 := (ha.range b hin').1
      omega
    · rcases List.mem_append.mp hin with hin | hin
      · exact Nat.le_trans (h.bound a hin) ha.lastId
      · exact (ha.range a hin).2
    · exact Nat.lt_of_lt_of_le (h.cron levIds hin lev hlev) ha.lastId
  | cronRead now levIds hc _ =>
    refine ⟨⟨h.nodup, h.bound, fun levIds' hin => ?_⟩, .refl _⟩
    rcases List.mem_append.mp hin with hin | hin
    · exact h.cron levIds' hin
    · cases List.mem_singleton.mp hin
      exact cronExpired_lt hc
  | cronWrite before after levIds cache' n db' hp hd =>
    have hnot : s.db.event.lastId ∉ levIds := fun hin =>
      Nat.lt_irrefl _ (h.cron levIds (by rw [hp]; simp) _ hin)
    have hev := deleteEvents_evolves hnot hd
    exact ⟨h.evolve hev (hmem _ _ _ hp), hev⟩
  | deleteRead levIds _ =>
    refine ⟨⟨h.nodup, h.bound, fun levIds' hin => ?_⟩, .refl _⟩
    rcases List.mem_append.mp hin with hin | hin
    · exact h.cron levIds' hin
    · cases List.mem_singleton.mp hin
  | deleteWrite before after levIds cache' n db' hp hC hd =>
    have hev := deleteEvents_evolves hC hd
    exact ⟨h.evolve hev (hmem _ _ _ hp), hev⟩

theorem LevInv.reached {cfg : Cfg} {s : LevState} (h : LevReached cfg SparesMostRecent s) : LevInv s := by
  induction h with
  | init db => exact .init db
  | step _ hs ih => exact (ih.step hs).1

/-- **LevIds are not reused** in a run whose `strfry delete` commits spare the most recent event,
whatever batches, expiry passes and deletes are interleaved. -/
theorem levIds_not_reused (cfg : Cfg) (s : LevState) (h : LevReached cfg SparesMostRecent s) :
    (s.assigned.map Prod.fst).Nodup ∧ ∀ a ∈ s.assigned, ∀ b ∈ s.assigned, a.1 = b.1 → a.2 = b.2 := by
  have hinv := LevInv.reached h
  refine ⟨hinv.nodup, fun a ha b hb he => ?_⟩
  rw [List.inj_on_of_nodup_map hinv.nodup ha hb he]

end

/-- A filter for the newest event of kind 1. -/
def newestText : Bytes := ascii "\x7b\"kinds\":[1],\"limit\":1\x7d"

@[reducible] def TaoJson.newest : TaoJson where
  fromString b := if b = newestText then
    some (.object [(ascii "kinds", .array [.unsigned 1]), (ascii "limit", .unsigned 1)]) else .none
  toString _ := newestText

/-- A batch is written, `strfry delete` deletes the newest event of kind 1, and another batch is
written.  The result is the database before the delete, what is deleted, and the levIds handed out. -/
def deleteBetween [Golpe] [TaoJson] [StdSort] (evs evs' : List EventToWrite) :
    Except Err (Db × List Nat × List (Nat × Bytes)) := do
  let (db, _, evs) ← writeEvents {} {} evs
  let json ← deleteFilter newestText none 0
  let fg ← NostrFilterGroup.unwrapped json maxU64
  match DBQuery.process db (List.replicate 5 (DBQuery.timePause false)) ({ sub := buildQuery fg }, []) with
  | .returned true st =>
    let (db', _, _) ← deleteEvents db {} (levIdSet (DBQuery.sent st.2))
    let (_, _, evs') ← writeEvents db' {} evs'
    return (db, levIdSet (DBQuery.sent st.2), assignedBy evs ++ assignedBy evs')
  | _ => .error (.herr "the query does not end")

/-- It is a run. -/
theorem LevReached.deleteBetween [Golpe] [TaoJson] [StdSort] {C : Db → List Nat → Prop}
    {evs evs' : List EventToWrite} (hevs : ∀ ev ∈ evs ++ evs', ev.status = .pending)
    {r : Db × List Nat × List (Nat × Bytes)} (hC : C r.1 r.2.1) (h : deleteBetween evs evs' = .ok r) :
    ∃ s, LevReached {} C s ∧ s.assigned = r.2.2 := by
  unfold Strfry.deleteBetween at h
  obtain ⟨⟨db1, c1, evs1⟩, hw1, h⟩ := bind_eq_ok.mp h
  obtain ⟨json, hjson, h⟩ := bind_eq_ok.mp h
  obtain ⟨fg, hfg, h⟩ := bind_eq_ok.mp h
  split at h
  · rename_i st hq
    obtain ⟨⟨db2, c2, n⟩, hd, h⟩ := bind_eq_ok.mp h
    obtain ⟨⟨db3, c3, evs3⟩, hw3, h⟩ := bind_eq_ok.mp h
    cases h
    have hread : DeleteRead db1 (levIdSet (DBQuery.sent st.2)) :=
      .intro newestText none 0 json fg st hjson ⟨fg, hfg, List.forall₂_same.mpr fun f _ => .refl f⟩
        (.call _ _ st true .start hq)
    have hwrite1 : LevStep {} C { db := {}, assigned := [] } _ :=
      .write {} c1 evs evs1 db1 (fun ev hev => hevs ev (List.mem_append_left _ hev)) hw1
    have hdeleted := (((LevReached.init {}).step hwrite1).step (.deleteRead _ hread)).step
      (.deleteWrite [] [] _ c2 n db2 rfl hC hd)
    exact ⟨_, hdeleted.step (.write {} c3 evs' evs3 db3
      (fun ev hev => hevs ev (List.mem_append_right _ hev)) hw3), rfl⟩
  · cases h

/-- A batch of one event. -/
def oneEvent (id : Byte) (kind : U64) : List EventToWrite :=
  [{ packedStr := (sampleEvent id 9 100 kind []).buf, jsonStr := [] }]

theorem deleteBetween_spares : okAnd (fun r => decide (r.1.getMostRecentLevId ∉ r.2.1 ∧ r.2.1 = [1] ∧
    r.2.2.map Prod.fst = [1, 2, 3])) (@deleteBetween Golpe.plain TaoJson.newest StdSort.insertion
      (oneEvent 1 1 ++ oneEvent 2 7) (oneEvent 3 1)) = true := by
  decide +kernel

/-- The older of two events is deleted: the next one gets a new levId. -/
theorem levIds_not_reused_three : ∃ s : LevState, s.assigned.map Prod.fst = [1, 2, 3] ∧
    (s.assigned.map Prod.fst).Nodup := by
  let _ : Golpe := Golpe.plain
  let _ : TaoJson := TaoJson.newest
  let _ : StdSort := StdSort.insertion
  obtain ⟨r, hrun, hr⟩ := exists_of_okAnd deleteBetween_spares
  obtain ⟨hspares, -, hids⟩ := of_decide_eq_true hr
  obtain ⟨s, hs, he⟩ := LevReached.deleteBetween (C := SparesMostRecent) (by simp [oneEvent]) hspares hrun
  exact ⟨s, by rw [he, hids], (levIds_not_reused {} s hs).1⟩

theorem deleteBetween_reuses : okAnd (fun r => decide (r.2.2 = [(1, (sampleEvent 1 9 100 1 []).buf),
    (1, (sampleEvent 2 9 100 1 []).buf)])) (@deleteBetween Golpe.plain TaoJson.newest StdSort.insertion
      (oneEvent 1 1) (oneEvent 2 1)) = true := by
  decide +kernel

/-- The only event is deleted: the next one gets its levId. -/
theorem delete_reuses : ¬ ∀ s : LevState, @LevReached Golpe.plain TaoJson.newest StdSort.insertion {}
    (fun _ _ => True) s → ∀ a ∈ s.assigned, ∀ b ∈ s.assigned, a.1 = b.1 → a.2 = b.2 := by
  let _ : Golpe := Golpe.plain
  let _ : TaoJson := TaoJson.newest
  let _ : StdSort := StdSort.insertion
  intro hall
  obtain ⟨r, hrun, hr⟩ := exists_of_okAnd deleteBetween_reuses
  obtain ⟨s, hs, he⟩ := LevReached.deleteBetween (C := fun _ _ => True) (by simp [oneEvent]) trivial hrun
  rw [of_decide_eq_true hr] at he
  have hsame := hall s hs (1, (sampleEvent 1 9 100 1 []).buf) (by rw [he]; simp)
    (1, (sampleEvent 2 9 100 1 []).buf) (by rw [he]; simp) rfl
  exact absurd hsame (by decide)

end Strfry
