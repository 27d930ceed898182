import Strfry.DBQuerySpec
import Strfry.Store

/-!
# Negentropy trees mirror the database

The transactions that touch the trees: `writeEvents` and `deleteEvents` of any number of
writers, each with a cache of its own, and the commands `negentropy add` and `negentropy
build` (`cmd_negentropy.cpp`).  `add` makes a record with an empty tree, `build` queries the
database and inserts what it is sent; both change the modification counter, so that every
writer compiles the filters again before its next transaction.

A tree never holds more than the matching stored events, and once it is built it holds them
all (`NegInv`), provided that the query of `build` was not led astray: a candidate of a scan
keeps 40 bits of created_at only, and an event with a greater one makes the scan leave out
others (`build_misses`).
-/

namespace Strfry

open NegentropyFilterCache

section
variable [Golpe] [TaoJson] [StdSort] (cfg : Cfg)

def increaseModCounter (db : Db) : Db :=
  { db with negentropyModificationCounter := db.negentropyModificationCounter + 1 }

/-- `negentropy add`. -/
def negentropyAdd (db : Db) (filterStr : Bytes) : Except Err Db := do
  let filterJson ← parseJson filterStr
  let compiledFilter ← NostrFilterGroup.unwrapped filterJson cfg.relayMaxFilterLimit
  let _ ← throwIf (compiledFilter.filters.length = 1 ∧
      ∃ f ∈ compiledFilter.filters, f.since ≠ 0 ∨ f.until_ ≠ maxU64)
    (.herr "single filters should not have since/until")
  let _ ← throwIf (compiledFilter.filters.length = 0) (.herr "filter will never match")
  -- make canonical
  let filterStr := TaoJson.toString filterJson
  let db := increaseModCounter db
  match db.negentropyFilter.rows.find? fun r => r.2 == filterStr with
  | some r => .error (.herr ("filter already exists as tree: " ++ toString r.1))
  | none => .ok { db with negentropyFilter := db.negentropyFilter.insertNext filterStr }

/-- The loop of `negentropy build` over the records of the query, which `cb` looked up. -/
def storeRecs (treeId : Nat) (levIds : List Nat) (txn db : Db) : Except Err Db := do
  let recs ← levIds.mapM txn.lookupEventByLevId
  return recs.foldl (fun db ev => db.insertItem treeId ev.item) db

/-- The query of `negentropy build`. -/
def buildQuery (fg : NostrFilterGroup) : Subscription where
  connId := 1
  subId := ⟨ascii ".", by decide, by decide⟩
  filterGroup := fg

/-- A group as `unwrapped` makes it, whatever the iteration order of the hash maps. -/
def Unwraps (json : Json) (maxFilterLimit : Nat) (fg : NostrFilterGroup) : Prop :=
  ∃ fg', NostrFilterGroup.unwrapped json maxFilterLimit = .ok fg' ∧
    List.Forall₂ NostrFilter.SameUpToTagOrder fg.filters fg'.filters

/-- `negentropy build`, committed. -/
inductive NegentropyBuild (db : Db) (treeId : Nat) : NostrFilterGroup → Db → Prop where
  | intro (filterStr : Bytes) (json : Json) (fg : NostrFilterGroup) (st : DBQuery.State) (db' : Db)
      (hrec : db.negentropyFilter.lookup treeId = some filterStr) (hjson : parseJson filterStr = .ok json)
      (hfg : Unwraps json maxU64 fg)
      (hquery : DBQuery.Calls (increaseModCounter db) (buildQuery fg) true st)
      (h : storeRecs treeId (DBQuery.sent st.2) (increaseModCounter db) (increaseModCounter db) = .ok db') :
      NegentropyBuild db treeId fg db'

end

/-- The database, the writers' caches, and the trees that are built. -/
structure NegState where
  db : Db
  caches : Nat → NegentropyFilterCache := fun _ => {}
  built : Set Nat

/-- A new database: the record of all events, its tree being built. -/
def NegState.init : NegState where
  db := { negentropyFilter := Table.empty.insertNext (ascii "\x7b\x7d") }
  built := {1}

section
variable [Golpe] [TaoJson] [StdSort] (cfg : Cfg)

/-- One transaction.  `Q` is what is known of the queries that `build` makes. -/
inductive NegStep (Q : Db → NostrFilterGroup → Prop) (s : NegState) : NegState → Prop where
  | write (i : Nat) (evs evs' : List EventToWrite) (db' : Db) (cache' : NegentropyFilterCache)
      (hfit : s.db.event.lastId + evs.length < 2 ^ 64)
      (h : writeEvents s.db (s.caches i) evs = .ok (db', cache', evs')) :
      NegStep Q s { s with db := db', caches := Function.update s.caches i cache' }
  | delete (i : Nat) (levIds : List Nat) (db' : Db) (cache' : NegentropyFilterCache) (n : Nat)
      (h : deleteEvents s.db (s.caches i) levIds = .ok (db', cache', n)) :
      NegStep Q s { s with db := db', caches := Function.update s.caches i cache' }
  -- a writer's transaction that is not committed, with the cache it leaves
  | abort (i : Nat) (cache' : NegentropyFilterCache)
      (h : (s.caches i).freshenCache s.db = .ok cache' ∨
        (cache'.modificationCounter = (s.caches i).modificationCounter ∧
          cache'.modificationCounter ≠ s.db.negentropyModificationCounter)) :
      NegStep Q s { s with caches := Function.update s.caches i cache' }
  | add (filterStr : Bytes) (db' : Db) (h : negentropyAdd cfg s.db filterStr = .ok db') :
      NegStep Q s { s with db := db' }
  | build (treeId : Nat) (fg : NostrFilterGroup) (db' : Db) (hQ : Q s.db fg)
      (h : NegentropyBuild s.db treeId fg db') :
      NegStep Q s { s with db := db', built := insert treeId s.built }

inductive NegReachable (Q : Db → NostrFilterGroup → Prop) : NegState → Prop where
  | init : NegReachable Q .init
  | step {s s' : NegState} (h : NegReachable Q s) (hs : NegStep cfg Q s s') : NegReachable Q s'

end

/-! ## Trees under inserts and deletes -/

section
variable [Golpe] [TaoJson]

/-- The filter a writer compiles for a record. -/
def recordFilter (filterStr : Bytes) : Except Err NostrFilter := do
  let json ← parseJson filterStr
  NostrFilter.ofJson json maxU64

theorem loadFilters_spec {db : Db} {filters : List FilterInfo} (h : loadFilters db = .ok filters) {t : Nat}
    {filterStr : Bytes} (hrec : (t, filterStr) ∈ db.negentropyFilter.rows) : ∃ f,
      recordFilter filterStr = .ok f ∧ ⟨f, t⟩ ∈ filters ∧ ∀ fi ∈ filters, fi.treeId = t → fi.f = f := by
  have hrow : ∀ (r : Nat × Bytes) (fi : FilterInfo), (do
      let f ← NostrFilter.ofJson (← parseJson r.2) maxU64
      return (⟨f, r.1⟩ : FilterInfo)) = .ok fi → recordFilter r.2 = .ok fi.f ∧ fi.treeId = r.1 := by
    intro r fi hfi
    obtain ⟨json, hj, hfi⟩ := bind_eq_ok.mp hfi
    obtain ⟨f, hf, hfi⟩ := bind_eq_ok.mp hfi
    cases hfi
    unfold recordFilter
    rw [hj]
    exact ⟨hf, rfl⟩
  unfold loadFilters at h
  obtain ⟨fi, hfi, he⟩ := mapM_eq_ok_of_mem h _ hrec
  obtain ⟨hf, ht⟩ := hrow _ _ he
  have ht : fi.treeId = t := ht
  refine ⟨fi.f, hf, by rw [← ht]; exact hfi, fun fi' hfi' ht' => ?_⟩
  obtain ⟨r, hr, he'⟩ := (mapM_eq_ok h).2 fi' hfi'
  obtain ⟨hf', htr⟩ := hrow _ _ he'
  have hr' : (t, r.2) ∈ db.negentropyFilter.rows := by
    rw [← ht', htr]
    exact hr
  rw [db.negentropyFilter.row_unique hr' hrec] at hf'
  rw [hf] at hf'
  exact (Except.ok.inj hf').symm

theorem loadFilters_treeId {db : Db} {filters : List FilterInfo} (h : loadFilters db = .ok filters) :
    ∀ fi ∈ filters, fi.treeId ∈ db.negentropyFilter.keys := by
  intro fi hfi
  obtain ⟨r, hr, he⟩ := (mapM_eq_ok h).2 fi hfi
  obtain ⟨json, hj, he⟩ := bind_eq_ok.mp he
  obtain ⟨f, hf, he⟩ := bind_eq_ok.mp he
  cases he
  exact (db.negentropyFilter.mem_keys _).mpr ⟨r.2, hr⟩

/-- A record that is one JSON object without a limit, and its filter. -/
def Plain (filterStr : Bytes) (f : NostrFilter) : Prop :=
  ∃ kvs, parseJson filterStr = .ok (.object kvs) ∧ (∀ kv ∈ kvs, kv.1 ≠ ascii "limit") ∧
    NostrFilter.ofJson (.object kvs) maxU64 = .ok f

theorem Plain.recordFilter {filterStr : Bytes} {f : NostrFilter} (h : Plain filterStr f) :
    recordFilter filterStr = .ok f := by
  obtain ⟨kvs, hj, -, hf⟩ := h
  unfold Strfry.recordFilter
  rw [hj]
  exact hf

/-- What the trees hold. -/
structure Trees (db : Db) (built : Set Nat) : Prop where
  ids : ∀ r ∈ db.event.rows, ∀ r' ∈ db.event.rows, r.2.id = r'.2.id → r = r'
  absent : ∀ t, t ∉ db.negentropyFilter.keys → db.negentropy t = ∅
  sound : ∀ t filterStr f, (t, filterStr) ∈ db.negentropyFilter.rows → recordFilter filterStr = .ok f →
    ∀ item ∈ db.negentropy t, ∃ r ∈ db.event.rows, f.doesMatch r.2 = true ∧ r.2.item = item
  complete : ∀ t ∈ built, ∀ filterStr f, (t, filterStr) ∈ db.negentropyFilter.rows → Plain filterStr f →
    ∀ r ∈ db.event.rows, f.doesMatch r.2 = true → r.2.item ∈ db.negentropy t

section
variable {db : Db} {built : Set Nat} {filters : List FilterInfo} {n : Nat}

/-- Inserting an event keeps the trees. -/
theorem Trees.insert (h : Trees db built) (hload : loadFilters db = .ok filters)
    {packed : PackedEventView} (hfresh : ∀ r ∈ db.event.rows, r.2.id ≠ packed.id) (jsonStr : Bytes) :
    Trees ((compiled filters n).update (insertEvent db packed jsonStr) packed true) built := by
  have hsame := (compiled filters n).update_sameTables (insertEvent db packed jsonStr) packed true
  have hrows : ∀ x, x ∈ ((compiled filters n).update (insertEvent db packed jsonStr) packed true).event.rows ↔
      x ∈ db.event.rows ∨ x = (db.event.lastId + 1, packed) := by
    intro x
    rw [hsame.event]
    exact Table.mem_insertNext _ _ x
  have hfilter : ((compiled filters n).update (insertEvent db packed jsonStr) packed true).negentropyFilter =
      db.negentropyFilter := hsame.negentropyFilter
  have htree : ∀ t filterStr f, (t, filterStr) ∈ db.negentropyFilter.rows → recordFilter filterStr = .ok f →
      ((compiled filters n).update (insertEvent db packed jsonStr) packed true).negentropy t =
        if f.doesMatch packed then Insert.insert packed.item (db.negentropy t) else db.negentropy t := by
    intro t filterStr f hrec hf
    obtain ⟨f', hf', hmem, hone⟩ := loadFilters_spec hload hrec
    rw [hf] at hf'
    cases hf'
    exact negentropy_update filters n (insertEvent db packed jsonStr) packed true t hmem hone
  refine ⟨fun r hr r' hr' hid => ?_, fun t ht => ?_, fun t filterStr f hrec hf item hit => ?_,
    fun t ht filterStr f hrec hf r hr hm => ?_⟩
  · rcases (hrows r).mp hr with hr | rfl
    · rcases (hrows r').mp hr' with hr' | rfl
      · exact h.ids r hr r' hr' hid
      · exact absurd hid (hfresh r hr)
    · rcases (hrows r').mp hr' with hr' | rfl
      · exact absurd hid.symm (hfresh r' hr')
      · rfl
  · rw [hfilter] at ht
    rw [negentropy_update_of_ne filters n _ packed true t fun fi hfi he =>
      ht (he ▸ loadFilters_treeId hload fi hfi)]
    exact h.absent t ht
  · rw [hfilter] at hrec
    rw [htree t filterStr f hrec hf] at hit
    have hold : item ∈ db.negentropy t → ∃ r ∈ ((compiled filters n).update
        (insertEvent db packed jsonStr) packed true).event.rows, f.doesMatch r.2 = true ∧ r.2.item = item := by
      intro hin
      obtain ⟨r, hr, hm⟩ := h.sound t filterStr f hrec hf item hin
      exact ⟨r, (hrows r).mpr (Or.inl hr), hm⟩
    split at hit
    · rename_i hm
      rcases Finset.mem_insert.mp hit with rfl | hin
      · exact ⟨_, (hrows _).mpr (Or.inr rfl), hm, rfl⟩
      · exact hold hin
    · exact hold hit
  · rw [hfilter] at hrec
    rw [htree t filterStr f hrec hf.recordFilter]
    rcases (hrows r).mp hr with hr | rfl
    · have hin := h.complete t ht filterStr f hrec hf r hr hm
      split
      · exact Finset.mem_insert_of_mem hin
      · exact hin
    · rw [if_pos hm]
      exact Finset.mem_insert_self _ _

/-- Deleting an event keeps the trees. -/
theorem Trees.delete (h : Trees db built) (hload : loadFilters db = .ok filters) (lev : Nat) :
    Trees (deleteEvent (compiled filters n) db lev) built := by
  unfold deleteEvent
  split
  · exact h
  rename_i v hl
  have hv := (db.event.lookup_eq_some_iff lev v).mp hl
  have hsame := (compiled filters n).update_sameTables db v false
  have hrows : ∀ x, x ∈ (deleteEventBasic ((compiled filters n).update db v false) lev).1.event.rows ↔
      x ∈ db.event.rows ∧ x.1 ≠ lev := by
    intro x
    show x ∈ (((compiled filters n).update db v false).event.delete lev).rows ↔ _
    rw [hsame.event, Table.mem_delete]
  have hfilter : (deleteEventBasic ((compiled filters n).update db v false) lev).1.negentropyFilter =
      db.negentropyFilter := hsame.negentropyFilter
  have htree : ∀ t filterStr f, (t, filterStr) ∈ db.negentropyFilter.rows → recordFilter filterStr = .ok f →
      (deleteEventBasic ((compiled filters n).update db v false) lev).1.negentropy t =
        if f.doesMatch v then (db.negentropy t).erase v.item else db.negentropy t := by
    intro t filterStr f hrec hf
    obtain ⟨f', hf', hmem, hone⟩ := loadFilters_spec hload hrec
    rw [hf] at hf'
    cases hf'
    exact negentropy_update filters n db v false t hmem hone
  -- an item that stays in a tree is not the item of the deleted event
  have hother : ∀ r ∈ db.event.rows, r.2.item ≠ v.item → r.1 ≠ lev := by
    rintro r hr hne rfl
    exact hne (by rw [db.event.row_unique hr hv])
  have hsplit : ∀ r ∈ db.event.rows, r.1 ≠ lev → r.2.item ≠ v.item := by
    intro r hr hne he
    have := h.ids r hr _ hv (congrArg Prod.snd he)
    rw [this] at hne
    exact hne rfl
  refine ⟨fun r hr r' hr' => h.ids r ((hrows r).mp hr).1 r' ((hrows r').mp hr').1, fun t ht => ?_,
    fun t filterStr f hrec hf item hit => ?_, fun t ht filterStr f hrec hf r hr hm => ?_⟩
  · rw [hfilter] at ht
    show ((compiled filters n).update db v false).negentropy t = ∅
    rw [negentropy_update_of_ne filters n _ v false t fun fi hfi he =>
      ht (he ▸ loadFilters_treeId hload fi hfi)]
    exact h.absent t ht
  · rw [hfilter] at hrec
    rw [htree t filterStr f hrec hf] at hit
    split at hit
    · obtain ⟨hne, hin⟩ := Finset.mem_erase.mp hit
      obtain ⟨r, hr, hm, rfl⟩ := h.sound t filterStr f hrec hf item hin
      exact ⟨r, (hrows r).mpr ⟨hr, hother r hr hne⟩, hm, rfl⟩
    · rename_i hnm
      obtain ⟨r, hr, hm, rfl⟩ := h.sound t filterStr f hrec hf item hit
      refine ⟨r, (hrows r).mpr ⟨hr, ?_⟩, hm, rfl⟩
      rintro rfl
      rw [db.event.row_unique hr hv] at hm
      exact hnm hm
  · rw [hfilter] at hrec
    rw [htree t filterStr f hrec hf.recordFilter]
    obtain ⟨hr, hne⟩ := (hrows r).mp hr
    have hin := h.complete t ht filterStr f hrec hf r hr hm
    split
    · exact Finset.mem_erase.mpr ⟨hsplit r hr hne, hin⟩
    · exact hin

end

end

/-! ## Transactions -/

section
variable [Golpe] [TaoJson] [StdSort] (cfg : Cfg)

/-- A cache that claims to be up to date holds the compiled filters. -/
structure CacheOk (db : Db) (c : NegentropyFilterCache) : Prop where
  le : c.modificationCounter ≤ db.negentropyModificationCounter
  fresh : c.modificationCounter = db.negentropyModificationCounter → ∃ filters,
    loadFilters db = .ok filters ∧ c = compiled filters db.negentropyModificationCounter

omit [StdSort] in
theorem CacheOk.freshenCache {db : Db} {c c' : NegentropyFilterCache} (h : CacheOk db c)
    (hc : c.freshenCache db = .ok c') : ∃ filters, loadFilters db = .ok filters ∧
      c' = compiled filters db.negentropyModificationCounter := by
  unfold NegentropyFilterCache.freshenCache at hc
  simp only [] at hc
  split at hc
  · rename_i heq
    cases hc
    exact h.fresh heq.symm
  · obtain ⟨filters, hl, hc⟩ := bind_eq_ok.mp hc
    cases hc
    exact ⟨filters, hl, rfl⟩

structure NegInv (s : NegState) : Prop where
  trees : Trees s.db s.built
  fits : s.db.event.lastId < 2 ^ 64
  pos : 0 < s.db.negentropyModificationCounter
  caches : ∀ i, CacheOk s.db (s.caches i)
  built : ∀ t ∈ s.built, t ∈ s.db.negentropyFilter.keys

/-- The tables a writer reads the filters from are as they were. -/
structure SameFilters (db db' : Db) : Prop where
  filter : db'.negentropyFilter = db.negentropyFilter
  counter : db'.negentropyModificationCounter = db.negentropyModificationCounter

omit [StdSort] in
theorem SameFilters.loadFilters {db db' : Db} (h : SameFilters db db') : loadFilters db' = loadFilters db := by
  unfold NegentropyFilterCache.loadFilters
  rw [h.filter]

omit [StdSort] in
theorem SameFilters.cacheOk {db db' : Db} (h : SameFilters db db') {c : NegentropyFilterCache}
    (hc : CacheOk db c) : CacheOk db' c where
  le := h.counter ▸ hc.le
  fresh he := by
    rw [h.counter, h.loadFilters]
    exact hc.fresh (he.trans h.counter)

/-- What holds inside a writer's transaction that may insert `k` more events. -/
structure InTxn (db0 : Db) (built : Set Nat) (k : Nat) (db : Db) : Prop where
  trees : Trees db built
  same : SameFilters db0 db
  room : db.event.lastId + k < 2 ^ 64

omit [StdSort] in
theorem InTxn.insert {db0 db : Db} {built : Set Nat} {k : Nat} {filters : List FilterInfo} {n : Nat}
    (hload : loadFilters db0 = .ok filters) (h : InTxn db0 built (k + 1) db) {packed : PackedEventView}
    (hfresh : ∀ r ∈ db.event.rows, r.2.id ≠ packed.id) (jsonStr : Bytes) :
    InTxn db0 built k ((compiled filters n).update (insertEvent db packed jsonStr) packed true) := by
  have hsame := (compiled filters n).update_sameTables (insertEvent db packed jsonStr) packed true
  refine ⟨h.trees.insert (h.same.loadFilters.trans hload) hfresh jsonStr,
    ⟨hsame.negentropyFilter.trans h.same.filter, hsame.counter.trans h.same.counter⟩, ?_⟩
  have hlast : ((compiled filters n).update (insertEvent db packed jsonStr) packed true).event.lastId =
      db.event.lastId + 1 := by
    rw [hsame.event]
    exact Table.lastId_insertNext _ _
  have := h.room
  omega

omit [StdSort] in
theorem InTxn.delete {db0 db : Db} {built : Set Nat} {k : Nat} {filters : List FilterInfo} {n : Nat}
    (hload : loadFilters db0 = .ok filters) (h : InTxn db0 built k db) (lev : Nat) :
    InTxn db0 built k (deleteEvent (compiled filters n) db lev) := by
  refine ⟨h.trees.delete (h.same.loadFilters.trans hload) lev, ?_, ?_⟩
  · unfold deleteEvent
    split
    · exact h.same
    · rename_i v _
      have hsame := (compiled filters n).update_sameTables db v false
      exact ⟨hsame.negentropyFilter.trans h.same.filter, hsame.counter.trans h.same.counter⟩
  · have hle : (deleteEvent (compiled filters n) db lev).event.lastId ≤ db.event.lastId := by
      unfold deleteEvent
      split
      · exact Nat.le_refl _
      · rename_i v _
        show (((compiled filters n).update db v false).event.delete lev).lastId ≤ _
        rw [((compiled filters n).update_sameTables db v false).event]
        exact Table.lastId_delete_le _ _
    have := h.room
    omega

omit [StdSort] in
/-- A writer's transaction is over. -/
theorem NegInv.commit {s : NegState} (h : NegInv s) {db' : Db} (ht : InTxn s.db s.built 0 db') {i : Nat}
    {filters : List FilterInfo} (hload : loadFilters s.db = .ok filters) {cache' : NegentropyFilterCache}
    (hcache : cache' = compiled filters s.db.negentropyModificationCounter) :
    NegInv { s with db := db', caches := Function.update s.caches i cache' } := by
  refine ⟨ht.trees, ht.room, ?_, fun j => ?_, fun t hb => ?_⟩
  · show 0 < db'.negentropyModificationCounter
    rw [ht.same.counter]
    exact h.pos
  · refine ht.same.cacheOk ?_
    by_cases hj : j = i
    · subst hj
      show CacheOk s.db (Function.update s.caches j _ j)
      rw [Function.update_self]
      rw [hcache]
      exact ⟨Nat.le_refl _, fun _ => ⟨filters, hload, rfl⟩⟩
    · show CacheOk s.db (Function.update s.caches i _ j)
      rw [Function.update_of_ne hj]
      exact h.caches j
  · show t ∈ db'.negentropyFilter.keys
    rw [ht.same.filter]
    exact h.built t hb

theorem NegInv.write {s : NegState} (h : NegInv s) {i : Nat} {evs evs' : List EventToWrite} {db' : Db}
    {cache' : NegentropyFilterCache} (hfit : s.db.event.lastId + evs.length < 2 ^ 64)
    (hw : writeEvents s.db (s.caches i) evs = .ok (db', cache', evs')) :
    NegInv { s with db := db', caches := Function.update s.caches i cache' } := by
  unfold writeEvents at hw
  obtain ⟨l, hl, hw⟩ := bind_eq_ok.mp hw
  obtain ⟨c, hc, hw⟩ := bind_eq_ok.mp hw
  obtain ⟨⟨db1, evs1⟩, hloop, hw⟩ := bind_eq_ok.mp hw
  cases hw
  obtain ⟨filters, hload, rfl⟩ := (h.caches i).freshenCache hc
  have hlen : (StdSort.sort batchLt l).length = evs.length := by
    rw [(StdSort.perm batchLt l).length_eq]
    exact (mapM_eq_ok hl).1
  refine h.commit ?_ hload rfl
  refine writeLoop_keeps _ (InTxn s.db s.built) (fun k db hk => ⟨hk.trees, hk.same, ?_⟩)
    (fun k db packed jsonStr hk hfresh => hk.insert hload hfresh jsonStr)
    (fun k db lev hk => hk.delete hload lev) _ ?_ hloop
  · have := hk.room
    omega
  · exact ⟨h.trees, ⟨rfl, rfl⟩, by omega⟩

omit [StdSort] in
theorem NegInv.delete {s : NegState} (h : NegInv s) {i : Nat} {levIds : List Nat} {n : Nat} {db' : Db}
    {cache' : NegentropyFilterCache} (hd : deleteEvents s.db (s.caches i) levIds = .ok (db', cache', n)) :
    NegInv { s with db := db', caches := Function.update s.caches i cache' } := by
  obtain ⟨hc, rfl⟩ := deleteEvents_eq hd
  obtain ⟨filters, hload, rfl⟩ := (h.caches i).freshenCache hc
  refine h.commit ?_ hload rfl
  have hstart : InTxn s.db s.built 0 s.db := ⟨h.trees, ⟨rfl, rfl⟩, h.fits⟩
  have hdels : ∀ (levs : List Nat) (db : Db), InTxn s.db s.built 0 db → InTxn s.db s.built 0
      (levs.foldl (deleteEvent (compiled filters s.db.negentropyModificationCounter)) db) := by
    intro levs
    induction levs with
    | nil => exact fun db hdb => hdb
    | cons lev levs ih => exact fun db hdb => ih _ (hdb.delete hload lev)
  exact hdels levIds s.db hstart

omit [StdSort] in
theorem NegInv.abort {s : NegState} (h : NegInv s) {i : Nat} {cache' : NegentropyFilterCache}
    (ha : (s.caches i).freshenCache s.db = .ok cache' ∨
      (cache'.modificationCounter = (s.caches i).modificationCounter ∧
        cache'.modificationCounter ≠ s.db.negentropyModificationCounter)) :
    NegInv { s with caches := Function.update s.caches i cache' } := by
  have hok : CacheOk s.db cache' := by
    rcases ha with hc | ⟨hsame, hne⟩
    · obtain ⟨filters, hload, rfl⟩ := (h.caches i).freshenCache hc
      exact ⟨Nat.le_refl _, fun _ => ⟨filters, hload, rfl⟩⟩
    · exact ⟨hsame ▸ (h.caches i).le, fun he => absurd he hne⟩
  refine { h with caches := fun j => ?_ }
  show CacheOk s.db (Function.update s.caches i cache' j)
  by_cases hj : j = i
  · subst hj
    rw [Function.update_self]
    exact hok
  · rw [Function.update_of_ne hj]
    exact h.caches j

omit [StdSort] in
/-- Once the counter is increased no cache claims to be up to date. -/
theorem NegInv.stale {s : NegState} (h : NegInv s) {db' : Db}
    (hcount : db'.negentropyModificationCounter = s.db.negentropyModificationCounter + 1) (i : Nat) :
    CacheOk db' (s.caches i) := by
  have := (h.caches i).le
  exact ⟨by omega, fun he => by omega⟩

omit [StdSort] in
theorem NegInv.add {s : NegState} (h : NegInv s) {filterStr : Bytes} {db' : Db}
    (ha : negentropyAdd cfg s.db filterStr = .ok db') : NegInv { s with db := db' } := by
  unfold negentropyAdd at ha
  obtain ⟨json, -, ha⟩ := bind_eq_ok.mp ha
  obtain ⟨fg, -, ha⟩ := bind_eq_ok.mp ha
  obtain ⟨_, -, ha⟩ := bind_eq_ok.mp ha
  obtain ⟨_, -, ha⟩ := bind_eq_ok.mp ha
  simp only [] at ha
  split at ha
  · cases ha
  cases ha
  have hrows : ∀ x, x ∈ (s.db.negentropyFilter.insertNext (TaoJson.toString json)).rows ↔
      x ∈ s.db.negentropyFilter.rows ∨ x = (s.db.negentropyFilter.lastId + 1, TaoJson.toString json) :=
    Table.mem_insertNext _ _
  have hnew : s.db.negentropyFilter.lastId + 1 ∉ s.db.negentropyFilter.keys := by
    intro hin
    obtain ⟨v, hv⟩ := (Table.mem_keys _ _).mp hin
    have := s.db.negentropyFilter.le_lastId _ hv
    simp only at this
    omega
  refine ⟨⟨h.trees.ids, fun t ht => ?_, fun t str f hrec hf item hit => ?_,
    fun t ht str f hrec hf r hr hm => ?_⟩, h.fits, Nat.succ_pos _, h.stale rfl, fun t ht => ?_⟩
  · refine h.trees.absent t fun hin => ht ?_
    obtain ⟨v, hv⟩ := (Table.mem_keys _ _).mp hin
    exact (Table.mem_keys _ _).mpr ⟨v, (hrows _).mpr (Or.inl hv)⟩
  · rcases (hrows _).mp hrec with hrec | hrec
    · exact h.trees.sound t str f hrec hf item hit
    · cases hrec
      have hempty : s.db.negentropy (s.db.negentropyFilter.lastId + 1) = ∅ := h.trees.absent _ hnew
      have hit : item ∈ s.db.negentropy (s.db.negentropyFilter.lastId + 1) := hit
      rw [hempty] at hit
      simp at hit
  · rcases (hrows _).mp hrec with hrec | hrec
    · exact h.trees.complete t ht str f hrec hf r hr hm
    · cases hrec
      exact absurd (h.built _ ht) hnew
  · obtain ⟨v, hv⟩ := (Table.mem_keys _ _).mp (h.built t ht)
    exact (Table.mem_keys _ _).mpr ⟨v, (hrows _).mpr (Or.inl hv)⟩

omit [Golpe] [TaoJson] [StdSort] in
theorem foldl_insertItem (treeId : Nat) (recs : List PackedEventView) (db : Db) :
    SameTables db (recs.foldl (fun db ev => db.insertItem treeId ev.item) db) ∧
      (∀ t, t ≠ treeId → (recs.foldl (fun db ev => db.insertItem treeId ev.item) db).negentropy t =
        db.negentropy t) ∧
      ∀ item, item ∈ (recs.foldl (fun db ev => db.insertItem treeId ev.item) db).negentropy treeId ↔
        item ∈ db.negentropy treeId ∨ ∃ v ∈ recs, v.item = item := by
  induction recs generalizing db with
  | nil => exact ⟨⟨rfl, rfl, rfl, rfl, rfl⟩, fun _ _ => rfl, by simp⟩
  | cons v recs ih =>
    obtain ⟨h1, h2, h3⟩ := ih (db.insertItem treeId v.item)
    have hfirst : SameTables db (db.insertItem treeId v.item) := ⟨rfl, rfl, rfl, rfl, rfl⟩
    refine ⟨hfirst.trans h1, fun t ht => ?_, fun item => ?_⟩
    · rw [List.foldl_cons, h2 t ht]
      exact Function.update_of_ne ht _ _
    · rw [List.foldl_cons, h3]
      have hitem : (db.insertItem treeId v.item).negentropy treeId =
          Insert.insert v.item (db.negentropy treeId) := Function.update_self ..
      rw [hitem, Finset.mem_insert]
      simp only [List.mem_cons, exists_eq_or_imp]
      constructor
      · rintro ((h | h) | h)
        · exact Or.inr (Or.inl h.symm)
        · exact Or.inl h
        · exact Or.inr (Or.inr h)
      · rintro (h | h | h)
        · exact Or.inl (Or.inr h)
        · exact Or.inl (Or.inl h.symm)
        · exact Or.inr h

omit [Golpe] [TaoJson] [StdSort] in
theorem storeRecs_spec {treeId : Nat} {levIds : List Nat} {txn db db' : Db}
    (h : storeRecs treeId levIds txn db = .ok db') : SameTables db db' ∧
      (∀ t, t ≠ treeId → db'.negentropy t = db.negentropy t) ∧
      ∀ item, item ∈ db'.negentropy treeId ↔ item ∈ db.negentropy treeId ∨
        ∃ lev ∈ levIds, ∃ v, (lev, v) ∈ txn.event.rows ∧ v.item = item := by
  unfold storeRecs at h
  obtain ⟨recs, hrecs, h⟩ := bind_eq_ok.mp h
  cases h
  have hlook : ∀ lev v, txn.lookupEventByLevId lev = .ok v ↔ (lev, v) ∈ txn.event.rows := by
    intro lev v
    unfold Db.lookupEventByLevId
    rw [← txn.event.lookup_eq_some_iff]
    cases txn.event.lookup lev with
    | none => simp
    | some w => simp
  obtain ⟨hsame, hothers, htree⟩ := foldl_insertItem treeId recs db
  refine ⟨hsame, hothers, fun item => (htree item).trans (or_congr Iff.rfl ?_)⟩
  constructor
  · rintro ⟨v, hv, hi⟩
    obtain ⟨lev, hlev, hl⟩ := (mapM_eq_ok hrecs).2 v hv
    exact ⟨lev, hlev, v, (hlook lev v).mp hl, hi⟩
  · rintro ⟨lev, hlev, v, hv, hi⟩
    obtain ⟨w, hw, hl⟩ := mapM_eq_ok_of_mem hrecs lev hlev
    rw [txn.event.row_unique hv ((hlook lev w).mp hl)] at hi
    exact ⟨w, hw, hi⟩

/-- What makes the query of `build` answer right: fewer than 2^24 values in each field, and no event
with a created_at of 2^40 or more among those its scans come across. -/
def ScansOk (db : Db) (fg : NostrFilterGroup) : Prop :=
  ∀ f ∈ fg.filters, DBScan.SmallFields f ∧ DBScan.Packable db f

omit [StdSort] [Golpe] [TaoJson] in
/-- Without a limit all matches are sent. -/
theorem mem_bruteForce_unlimited {db : Db} (hfit : db.event.lastId < 2 ^ 64) {f : NostrFilter}
    (hlimit : f.limit = maxU64) (lev : Nat) : lev ∈ DBQuery.bruteForce db maxU64 f ↔
      ∃ v, (lev, v) ∈ db.event.rows ∧ f.doesMatch v = true := by
  have hall : DBQuery.bruteForce db maxU64 f = DBQuery.matchesUpTo db maxU64 f := by
    unfold DBQuery.bruteForce
    apply List.take_of_length_le
    rw [hlimit]
    have hlen : (DBQuery.matchesUpTo db maxU64 f).length ≤ db.event.rows.length := by
      unfold DBQuery.matchesUpTo
      rw [List.length_insertionSort, List.length_map]
      exact List.length_filter_le _ _
    have := db.event.length_rows_le
    have : maxU64 = 2 ^ 64 - 1 := rfl
    omega
  rw [hall, DBQuery.mem_matchesUpTo]
  constructor
  · rintro ⟨-, v, hv, hm⟩
    exact ⟨v, hv, hm⟩
  · rintro ⟨v, hv, hm⟩
    have hle : lev ≤ db.event.lastId := db.event.le_lastId _ hv
    have : maxU64 = 2 ^ 64 - 1 := rfl
    exact ⟨by omega, v, hv, hm⟩

omit [TaoJson] in
/-- What the query of `build` sends. -/
theorem build_sent {db : Db} (hfit : db.event.lastId < 2 ^ 64) {json : Json} {fg : NostrFilterGroup}
    (hfg : Unwraps json maxU64 fg) (hok : ScansOk db fg) {st : DBQuery.State}
    (hquery : DBQuery.Calls db (buildQuery fg) true st) (lev : Nat) :
    lev ∈ DBQuery.sent st.2 ↔ ∃ f ∈ fg.filters, lev ∈ DBQuery.bruteForce db maxU64 f := by
  obtain ⟨fg', hreq, hall⟩ := hfg
  have hbuilt : fg.Built := ⟨_, maxU64, fg', hreq, hall⟩
  have hlevs : DBScan.LevIdsFit db := by
    intro r hr
    have := db.event.le_lastId r hr
    omega
  have hserv : ∀ f ∈ (buildQuery fg).filterGroup.filters, DBQuery.Servable db f := fun f hf =>
    ⟨(hbuilt.valid f hf).1, (hbuilt.valid f hf).2, (hok f hf).1, (hok f hf).2⟩
  obtain ⟨hinv, hend⟩ := DBQuery.QueryInv.calls hlevs hserv hquery
  exact hinv.sent_complete (hend rfl) lev

omit [TaoJson] [StdSort] in
/-- The group of one filter. -/
theorem Unwraps.object {kvs : List (Bytes × Json)} {fg : NostrFilterGroup}
    (h : Unwraps (.object kvs) maxU64 fg) {f : NostrFilter}
    (hf : NostrFilter.ofJson (.object kvs) maxU64 = .ok f) :
    (∀ g ∈ fg.filters, g.SameUpToTagOrder f) ∧ (f.neverMatch = false → ∃ g, g ∈ fg.filters) := by
  obtain ⟨fg', hreq, hall⟩ := h
  obtain ⟨f', hf', hfs⟩ := NostrFilterGroup.unwrapped_object hreq
  rw [hf] at hf'
  cases hf'
  rw [hfs] at hall
  by_cases hn : f.neverMatch = true
  · rw [if_pos hn] at hall
    rw [List.forall₂_nil_right_iff.mp hall]
    exact ⟨by simp, by simp [hn]⟩
  · rw [if_neg hn] at hall
    obtain ⟨g, rest, hg, hnil, hgs⟩ := List.forall₂_cons_right_iff.mp hall
    rw [hgs, List.forall₂_nil_right_iff.mp hnil]
    exact ⟨by simpa using hg, fun _ => ⟨g, List.mem_cons_self⟩⟩

theorem NegInv.build {s : NegState} (h : NegInv s) {treeId : Nat} {fg : NostrFilterGroup} {db' : Db}
    (hok : ScansOk s.db fg) (hb : NegentropyBuild s.db treeId fg db') :
    NegInv { s with db := db', built := insert treeId s.built } := by
  cases hb with
  | intro filterStr json fg st db' hrec hjson hfg hquery hstore =>
    obtain ⟨hsame, hothers, htree⟩ := storeRecs_spec hstore
    have hrow := (s.db.negentropyFilter.lookup_eq_some_iff treeId filterStr).mp hrec
    have hfits : (increaseModCounter s.db).event.lastId < 2 ^ 64 := h.fits
    have hsent := build_sent hfits hfg hok hquery
    have hevent : db'.event = s.db.event := hsame.event
    have hfilter : db'.negentropyFilter = s.db.negentropyFilter := hsame.negentropyFilter
    have hcount : db'.negentropyModificationCounter = s.db.negentropyModificationCounter + 1 := hsame.counter
    -- the record that is built, when a writer can compile it
    have hobject : ∀ f, recordFilter filterStr = .ok f → ∃ kvs, json = .object kvs ∧
        NostrFilter.ofJson (.object kvs) maxU64 = .ok f := by
      intro f hf
      unfold recordFilter at hf
      rw [hjson] at hf
      cases json with
      | object kvs => exact ⟨kvs, rfl, hf⟩
      | _ => cases hf
    refine ⟨⟨?_, fun t ht => ?_, fun t str f hr hf item hit => ?_, fun t ht str f hr hf r hrr hm => ?_⟩,
      ?_, ?_, h.stale hcount, fun t ht => ?_⟩
    · show ∀ r ∈ db'.event.rows, _
      rw [hevent]
      exact h.trees.ids
    · replace ht : t ∉ db'.negentropyFilter.keys := ht
      rw [hfilter] at ht
      have hne : t ≠ treeId := by
        rintro rfl
        exact ht ((Table.mem_keys _ _).mpr ⟨filterStr, hrow⟩)
      show db'.negentropy t = ∅
      rw [hothers t hne]
      exact h.trees.absent t ht
    · replace hr : (t, str) ∈ db'.negentropyFilter.rows := hr
      rw [hfilter] at hr
      replace hit : item ∈ db'.negentropy t := hit
      show ∃ r ∈ db'.event.rows, _
      rw [hevent]
      by_cases hne : t = treeId
      · subst hne
        rw [s.db.negentropyFilter.row_unique hr hrow] at hf
        rcases (htree item).mp hit with hold | ⟨lev, hlev, v, hv, hi⟩
        · exact h.trees.sound t filterStr f hrow hf item hold
        · obtain ⟨kvs, rfl, hof⟩ := hobject f hf
          obtain ⟨g, hg, hbf⟩ := (hsent lev).mp hlev
          obtain ⟨-, w, hw, hm⟩ := (DBQuery.mem_matchesUpTo _ _ _ _).mp (List.mem_of_mem_take hbf)
          have hvw : v = w := s.db.event.row_unique hv hw
          refine ⟨(lev, v), hv, ?_, hi⟩
          rw [← ((hfg.object hof).1 g hg).doesMatch, hvw]
          exact hm
      · rw [hothers t hne] at hit
        exact h.trees.sound t str f hr hf item hit
    · replace hr : (t, str) ∈ db'.negentropyFilter.rows := hr
      rw [hfilter] at hr
      replace hrr : r ∈ db'.event.rows := hrr
      rw [hevent] at hrr
      show r.2.item ∈ db'.negentropy t
      by_cases hne : t = treeId
      · subst hne
        rw [s.db.negentropyFilter.row_unique hr hrow] at hf
        obtain ⟨kvs, hj, hlim, hof⟩ := hf
        rw [hjson] at hj
        cases hj
        have hnever : f.neverMatch = false := ((f.doesMatch_iff r.2).mp hm).possible
        obtain ⟨g, hg⟩ := (hfg.object hof).2 hnever
        have hgf := (hfg.object hof).1 g hg
        have hlimit : g.limit = maxU64 := by
          rw [hgf.2]
          show f.limit = maxU64
          rw [NostrFilter.ofJson_limit hof hlim, min_self]
        refine (htree _).mpr (Or.inr ⟨r.1, (hsent r.1).mpr ⟨g, hg, ?_⟩, r.2, hrr, rfl⟩)
        exact (mem_bruteForce_unlimited hfits hlimit r.1).mpr
          ⟨r.2, hrr, by rw [hgf.doesMatch]; exact hm⟩
      · rw [hothers t hne]
        exact h.trees.complete t (ht.resolve_left hne) str f hr hf r hrr hm
    · show db'.event.lastId < 2 ^ 64
      rw [hevent]
      exact h.fits
    · show 0 < db'.negentropyModificationCounter
      omega
    · show t ∈ db'.negentropyFilter.keys
      rw [hfilter]
      rcases ht with rfl | ht
      · exact (Table.mem_keys _ _).mpr ⟨filterStr, hrow⟩
      · exact h.built t ht

omit [StdSort] in
theorem NegInv.init : NegInv .init where
  trees := ⟨by simp [NegState.init], fun _ _ => rfl, by simp [NegState.init], by simp [NegState.init]⟩
  fits := by decide
  pos := by decide
  caches i := ⟨Nat.zero_le _, fun h => by cases h⟩
  built t ht := by
    rw [Set.mem_singleton_iff.mp ht]
    decide

theorem NegReachable.inv {s : NegState} (h : NegReachable cfg ScansOk s) : NegInv s := by
  induction h with
  | init => exact .init
  | step _ hs ih =>
    cases hs with
    | write i evs evs' db' cache' hfit hw => exact ih.write hfit hw
    | delete i levIds db' cache' n hd => exact ih.delete hd
    | abort i cache' ha => exact ih.abort ha
    | add filterStr db' ha => exact ih.add cfg ha
    | build treeId fg db' hok hb => exact ih.build hok hb

/-- **The trees mirror the database** in every run whose builds query right: the tree of a built
record, one JSON object without a limit, holds exactly the items of the stored events that match. -/
theorem trees_mirror (s : NegState) (h : NegReachable cfg ScansOk s) (t : Nat) (ht : t ∈ s.built)
    (filterStr : Bytes) (hrec : (t, filterStr) ∈ s.db.negentropyFilter.rows) (f : NostrFilter)
    (hf : Plain filterStr f) (item : Nat × Bytes) : item ∈ s.db.negentropy t ↔
      ∃ r ∈ s.db.event.rows, f.doesMatch r.2 = true ∧ (r.2.createdAt, r.2.id) = item := by
  have hinv := h.inv
  constructor
  · exact hinv.trees.sound t filterStr f hrec hf.recordFilter item
  · rintro ⟨r, hr, hm, rfl⟩
    exact hinv.trees.complete t ht filterStr f hrec hf r hr hm

end

/-- The texts of two records, and their JSON. -/
def allText : Bytes := ascii "\x7b\x7d"

def kindsText : Bytes := ascii "\x7b\"kinds\":[1,2]\x7d"

def kindsJson : Json := .object [(ascii "kinds", .array [.unsigned 1, .unsigned 2])]

@[reducible] def TaoJson.two : TaoJson where
  fromString b := if b = allText then some (.object []) else if b = kindsText then some kindsJson else .none
  toString json := match json with
    | .object [] => allText
    | _ => kindsText

/-- The initial record after a batch of two events. -/
theorem trees_mirror_two : ∃ s : NegState, s.db.event.rows = [(1, textEvent), (2, deletionEvent)] ∧
    (100, textEvent.id) ∈ s.db.negentropy 1 := by
  let _ : Golpe := Golpe.plain
  let _ : TaoJson := TaoJson.two
  let _ : StdSort := StdSort.insertion
  have hw : ∃ db cache evs, writeEvents NegState.init.db {} twoEvents = .ok (db, cache, evs) ∧
      db.event.rows = [(1, textEvent), (2, deletionEvent)] ∧
      db.negentropyFilter.rows = [(1, allText)] := by
    set_option maxRecDepth 8000 in
    exact ⟨_, _, _, rfl, rfl, rfl⟩
  obtain ⟨db, cache, evs, hw, hrows, hfilters⟩ := hw
  have hreach : NegReachable {} ScansOk { NegState.init with db := db, caches := Function.update _ 0 cache } :=
    .step .init (.write 0 twoEvents evs db cache (by decide) hw)
  obtain ⟨f, hf, hm⟩ : ∃ f, NostrFilter.ofJson (.object []) maxU64 = .ok f ∧ f.doesMatch textEvent = true :=
    ⟨_, rfl, rfl⟩
  refine ⟨_, hrows, (trees_mirror {} _ hreach 1 rfl allText ?_ f ⟨[], rfl, by simp, hf⟩ _).mpr ?_⟩
  · rw [hfilters]
    exact List.mem_cons_self
  · rw [hrows]
    exact ⟨(1, textEvent), List.mem_cons_self, hm, by decide⟩

/-- Fifty events of kind 1 at the times 1 to 50, and one at 2^40. -/
def manyEvents : List EventToWrite :=
  (List.range 51).map fun n =>
    let createdAt := if n = 50 then 2 ^ 40 else n + 1
    { packedStr := (sampleEvent (Fin.ofNat 256 (n + 1)) 9 (Fin.ofNat (2 ^ 64) createdAt) 1 []).buf
      jsonStr := [] }

/-- They are written, the record is added, and its tree built by one call of `process`. -/
def buildMany [Golpe] [TaoJson] [StdSort] : Except Err Db := do
  let (db, _, _) ← writeEvents NegState.init.db {} manyEvents
  let db ← negentropyAdd {} db kindsText
  let fg ← NostrFilterGroup.unwrapped kindsJson maxU64
  match DBQuery.process (increaseModCounter db) (List.replicate 60 (DBQuery.timePause false))
      ({ sub := buildQuery fg }, []) with
  | .returned true st => storeRecs 2 (DBQuery.sent st.2) (increaseModCounter db) (increaseModCounter db)
  | _ => .error (.herr "the query does not end")

/-- The build goes through and leaves out the oldest event, which is stored. -/
theorem buildMany_leavesOut : okAnd (fun db => decide ((2, kindsText) ∈ db.negentropyFilter.rows ∧
    (1, List.replicate 32 1) ∉ db.negentropy 2 ∧ (1, sampleEvent 1 9 1 1 []) ∈ db.event.rows))
    (@buildMany Golpe.plain TaoJson.two StdSort.insertion) = true := by
  decide +kernel

theorem kindsJson_matches : okAnd (fun f => f.doesMatch (sampleEvent 1 9 1 1 []))
    (@NostrFilter.ofJson Golpe.plain kindsJson maxU64) = true := by
  decide +kernel

/-- The event at 2^40 is packed as a record of the other cursor: once its fifty candidates are
handed out the cursor of kind 1 is not refilled, and the oldest event does not get into the tree. -/
theorem build_misses : ¬ ∀ (s : NegState), @NegReachable Golpe.plain TaoJson.two StdSort.insertion {}
    (fun _ _ => True) s → ∀ t ∈ s.built, ∀ filterStr, (t, filterStr) ∈ s.db.negentropyFilter.rows →
      ∀ f, @Plain Golpe.plain TaoJson.two filterStr f → ∀ item, item ∈ s.db.negentropy t ↔
        ∃ r ∈ s.db.event.rows, f.doesMatch r.2 = true ∧ (r.2.createdAt, r.2.id) = item := by
  let _ : Golpe := Golpe.plain
  let _ : TaoJson := TaoJson.two
  let _ : StdSort := StdSort.insertion
  intro hall
  obtain ⟨db', hrun, hout⟩ := exists_of_okAnd buildMany_leavesOut
  obtain ⟨hrec, hmiss, hev⟩ := of_decide_eq_true hout
  obtain ⟨f, hf, hm⟩ := exists_of_okAnd kindsJson_matches
  unfold buildMany at hrun
  obtain ⟨⟨db1, cache, evs⟩, hw, hrun⟩ := bind_eq_ok.mp hrun
  obtain ⟨db2, ha, hrun⟩ := bind_eq_ok.mp hrun
  obtain ⟨fg, hfg, hrun⟩ := bind_eq_ok.mp hrun
  split at hrun
  · rename_i st hq
    have hsame : db'.negentropyFilter = db2.negentropyFilter := (storeRecs_spec hrun).1.negentropyFilter
    have hrec2 : (2, kindsText) ∈ db2.negentropyFilter.rows := by
      rw [← hsame]
      exact hrec
    have hbuild : NegentropyBuild db2 2 fg db' :=
      .intro kindsText kindsJson fg st db' ((Table.lookup_eq_some_iff _ _ _).mpr hrec2) rfl
        ⟨fg, hfg, List.forall₂_same.mpr fun f _ => .refl f⟩ (.call _ _ st true .start hq) hrun
    have hwrite : NegStep {} (fun _ _ => True) .init _ := .write 0 manyEvents evs db1 cache (by decide) hw
    have hreach := ((NegReachable.init.step hwrite).step (.add kindsText db2 ha)).step
      (.build 2 fg db' trivial hbuild)
    refine hmiss ((hall _ hreach 2 (Set.mem_insert _ _) kindsText hrec f ⟨_, rfl, by decide, hf⟩ _).mpr ?_)
    exact ⟨_, hev, hm, by decide⟩
  · cases hrun

end Strfry
