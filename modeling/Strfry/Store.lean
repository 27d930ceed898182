import Strfry.Dict
import Strfry.EventsWriteSpec

/-!
# The store over whole runs

A database is reached from the empty one by committed transactions: `writeEvents` batches,
`deleteEvents` calls and passes of `dict compress` and `dict decompress`, in any order
(`Reachable`).  The invariant of the store holds in every one of them, so

* `store_invariant`: ids are unique, addresses have one event, payloads and events go
  together, and `writeEvents` never throws "unprocessed deletion";
* `deletion_sticks`: no stored event is named by a stored deletion request of its author.

What a batch keeps is proved with `writeLoop_rule`: what one turn keeps, the loop keeps.
-/

namespace Strfry

/-! ## One turn -/

/-- A turn keeps the invariant. -/
theorem StoreInv.outcome {db db' : Db} (h : StoreInv db) {prevId : Option Bytes} {ev ev' : EventToWrite}
    {packed : PackedEventView} (hp : Packed packed) (ho : WriteOutcome db prevId ev packed db' ev') :
    StoreInv db' := by
  cases ho with
  | duplicate _ => exact h
  | deleted _ _ => exact h
  | replaced _ _ _ => exact h
  | written _ hdup _ _ hw =>
    have hfresh : ∀ r ∈ db.event.rows, r.2.id ≠ packed.id := fun r hr he => hdup (Or.inl ⟨r, hr, he⟩)
    refine ⟨fun r hr => ?_, fun r hr r' hr' hid => ?_, fun r hr r' hr' hs => ?_, fun lev => ?_⟩
    · rcases (hw.event r).mp hr with ⟨hr, -⟩ | rfl
      · exact h.packed r hr
      · exact hp
    · rcases (hw.event r).mp hr with ⟨hr, -⟩ | rfl
      · rcases (hw.event r').mp hr' with ⟨hr', -⟩ | rfl
        · exact h.ids r hr r' hr' hid
        · exact absurd hid (hfresh r hr)
      · rcases (hw.event r').mp hr' with ⟨hr', -⟩ | rfl
        · exact absurd hid.symm (hfresh r' hr')
        · rfl
    · rcases (hw.event r).mp hr with ⟨hr, hrm⟩ | rfl
      · rcases (hw.event r').mp hr' with ⟨hr', -⟩ | rfl
        · exact h.addresses r hr r' hr' hs
        · obtain ⟨a, ha, ha'⟩ := hs
          exact absurd (Or.inl ⟨a, ha', ha⟩) hrm
      · rcases (hw.event r').mp hr' with ⟨hr', hrm⟩ | rfl
        · exact absurd (Or.inl hs) hrm
        · rfl
    · rw [Table.mem_keys, Table.mem_keys]
      simp only [hw.event, hw.payload, Prod.mk.injEq]
      constructor
      · rintro ⟨p, ⟨-, v, hv, hrm⟩ | ⟨rfl, -⟩⟩
        · exact ⟨v, Or.inl ⟨hv, hrm⟩⟩
        · exact ⟨packed, Or.inr ⟨rfl, rfl⟩⟩
      · rintro ⟨v, ⟨hv, hrm⟩ | ⟨rfl, -⟩⟩
        · obtain ⟨p, hp⟩ := (db.eventPayload.mem_keys lev).mp
            ((h.payloads lev).mpr ((db.event.mem_keys lev).mpr ⟨v, hv⟩))
          exact ⟨p, Or.inl ⟨hp, v, hv, hrm⟩⟩
        · exact ⟨_, Or.inr ⟨rfl, rfl⟩⟩

theorem WriteOutcome.lastId_le {db db' : Db} {prevId : Option Bytes} {ev ev' : EventToWrite}
    {packed : PackedEventView} (ho : WriteOutcome db prevId ev packed db' ev') :
    db'.event.lastId ≤ db.event.lastId + 1 := by
  cases ho with
  | duplicate _ => exact Nat.le_succ _
  | deleted _ _ => exact Nat.le_succ _
  | replaced _ _ _ => exact Nat.le_succ _
  | written _ _ _ _ hw => exact le_of_eq hw.lastId

/-! ## Batches -/

/-- An event of a batch, with its view. -/
abbrev BatchEvent := EventToWrite × PackedEventView

/-- **The loop keeps what a turn keeps.**  `I done db` may speak of the events done so far. -/
theorem writeLoop_rule (cache : NegentropyFilterCache) (I : List BatchEvent → Db → Prop)
    (l : List BatchEvent) (hl : ∀ e ∈ l, e.1.status = .pending ∧ Packed e.2)
    (hstep : ∀ done db prevId e db' ev', e ∈ l → I done db → StoreInv db →
      (∀ i, prevId = some i → ∃ e' ∈ done, e'.2.id = i) →
      WriteOutcome db prevId e.1 e.2 db' ev' → I (done ++ [e]) db')
    {done : List BatchEvent} {db : Db} (hI : I done db) (hinv : StoreInv db)
    (hfit : db.event.lastId + l.length < 2 ^ 64) (prevId : Option Bytes)
    (hprev : ∀ i, prevId = some i → ∃ e' ∈ done, e'.2.id = i) :
    ∃ db' evs', writeLoop cache db prevId l = .ok (db', evs') ∧ StoreInv db' ∧ I (done ++ l) db' ∧
      db'.event.lastId ≤ db.event.lastId + l.length := by
  induction l generalizing done db prevId with
  | nil => exact ⟨db, [], rfl, hinv, by simpa using hI, Nat.le_refl _⟩
  | cons e l ih =>
    obtain ⟨hpend, hpk⟩ := hl e List.mem_cons_self
    rw [List.length_cons] at hfit
    obtain ⟨db1, ev1, hw, ho⟩ := writeEvent_spec cache hinv (by omega) prevId hpend hpk
    have hI1 := hstep done db prevId e db1 ev1 List.mem_cons_self hI hinv hprev ho
    have hlast := ho.lastId_le
    obtain ⟨db', evs', hloop, hinv', hI', hlast'⟩ := ih (fun e' he' => hl e' (List.mem_cons_of_mem _ he'))
      (fun done db prevId e' db' ev' he' => hstep done db prevId e' db' ev' (List.mem_cons_of_mem _ he'))
      hI1 (hinv.outcome hpk ho) (by omega) (some e.2.id) (by
        intro i hi
        cases hi
        exact ⟨e, by simp, rfl⟩)
    refine ⟨db', ev1 :: evs', ?_, hinv', by simpa using hI', ?_⟩
    · unfold writeLoop
      rw [hw]
      show (writeLoop cache db1 (some e.2.id) l >>= _) = _
      rw [hloop]
      rfl
    · rw [List.length_cons]
      omega

section
variable [Golpe] [TaoJson] [StdSort] [Zstd] (cfg : Cfg)

/-- An event for `writeEvents`: pending, and packed by the parser. -/
def Submittable (ev : EventToWrite) : Prop :=
  ev.status = .pending ∧ ∃ json, nostrJsonToPackedEvent cfg json = .ok ev.packedStr

omit [TaoJson] [StdSort] [Zstd] in
/-- The views of a batch of such events. -/
theorem viewBatch_spec (evs : List EventToWrite) (h : ∀ ev ∈ evs, Submittable cfg ev) :
    ∃ l, viewBatch evs = .ok l ∧ l.length = evs.length ∧
      ∀ e ∈ l, e.1 ∈ evs ∧ e.1.status = .pending ∧ Packed e.2 ∧ e.2.buf = e.1.packedStr := by
  induction evs with
  | nil => exact ⟨[], rfl, rfl, by simp⟩
  | cons ev evs ih =>
    obtain ⟨l, hl, hlen, hmem⟩ := ih fun ev' hev' => h ev' (List.mem_cons_of_mem _ hev')
    obtain ⟨hpend, json, hjson⟩ := h ev List.mem_cons_self
    obtain ⟨view, hview, hbuf, hpk, -⟩ := nostrJsonToPackedEvent_spec cfg hjson
    refine ⟨(ev, view) :: l, ?_, by simp [hlen], fun e he => ?_⟩
    · unfold viewBatch at hl ⊢
      rw [List.mapM_cons, hview, hl]
      rfl
    · rcases List.mem_cons.mp he with rfl | he
      · exact ⟨List.mem_cons_self, hpend, hpk, hbuf⟩
      · obtain ⟨h1, h2⟩ := hmem e he
        exact ⟨List.mem_cons_of_mem _ h1, h2⟩

omit [Zstd] in
/-- **A batch keeps what a turn keeps**, and comes back when the filters can be compiled. -/
theorem writeEvents_rule (I : List BatchEvent → Db → Prop) (evs : List EventToWrite)
    (hevs : ∀ ev ∈ evs, Submittable cfg ev)
    (hstep : ∀ done db prevId e db' ev', e.1 ∈ evs → e.2.buf = e.1.packedStr → Packed e.2 →
      I done db → StoreInv db → (∀ i, prevId = some i → ∃ e' ∈ done, e'.2.id = i) →
      WriteOutcome db prevId e.1 e.2 db' ev' → I (done ++ [e]) db')
    (done : List BatchEvent) {db : Db} (hI : I done db) (hinv : StoreInv db)
    (hfit : db.event.lastId + evs.length < 2 ^ 64) {cache cache' : NegentropyFilterCache}
    (hcache : cache.freshenCache db = .ok cache') : ∃ db' evs' l,
      writeEvents db cache evs = .ok (db', cache', evs') ∧ viewBatch evs = .ok l ∧ StoreInv db' ∧
      I (done ++ StdSort.sort batchLt l) db' := by
  obtain ⟨l, hl, hlen, hmem⟩ := viewBatch_spec cfg evs hevs
  have hsort := fun e => StdSort.mem_sort batchLt l e
  have hslen := (StdSort.perm batchLt l).length_eq
  obtain ⟨db', evs', hloop, hinv', hI', -⟩ := writeLoop_rule cache' I (StdSort.sort batchLt l)
    (fun e he => ⟨(hmem e ((hsort e).mp he)).2.1, (hmem e ((hsort e).mp he)).2.2.1⟩)
    (fun done db prevId e db' ev' he =>
      have hm := hmem e ((hsort e).mp he)
      hstep done db prevId e db' ev' hm.1 hm.2.2.2 hm.2.2.1)
    hI hinv (by omega) none (by simp)
  refine ⟨db', evs', l, ?_, hl, hinv', hI'⟩
  unfold writeEvents
  rw [hl, hcache]
  show (writeLoop cache' db none (StdSort.sort batchLt l) >>= _) = _
  rw [hloop]
  rfl

/-! ## Runs -/

/-- One committed transaction.  `P` is what is known of the events written. -/
inductive Commit (P : PackedEventView → Prop) (db : Db) : Db → Prop where
  | write (cache cache' : NegentropyFilterCache) (evs evs' : List EventToWrite) (db' : Db)
      (hevs : ∀ ev ∈ evs, Submittable cfg ev)
      (hP : ∀ ev ∈ evs, ∀ v : PackedEventView, v.buf = ev.packedStr → P v)
      (hfit : db.event.lastId + evs.length < 2 ^ 64)
      (h : writeEvents db cache evs = .ok (db', cache', evs')) : Commit P db db'
  | delete (cache cache' : NegentropyFilterCache) (levIds : List Nat) (n : Nat) (db' : Db)
      (h : deleteEvents db cache levIds = .ok (db', cache', n)) : Commit P db db'
  | compress (dictId : Nat) (level : Int) (levIds : List Nat) (db' : Db)
      (h : dictCompress cfg dictId level db levIds = .ok db') : Commit P db db'
  | decompress (levIds : List Nat) : Commit P db (dictDecompress cfg db levIds)

/-- The databases reached from the empty one. -/
inductive Reachable (P : PackedEventView → Prop) : Db → Prop where
  | init (db : Db) (hevent : db.event = .empty) (hpayload : db.eventPayload = .empty) : Reachable P db
  | step {db db' : Db} (h : Reachable P db) (hs : Commit cfg P db db') : Reachable P db'

omit [Golpe] [TaoJson] [StdSort] [Zstd] in
/-- The loop of `deleteEvents` deletes the events of the list. -/
theorem deleteLoop_eq (cache : NegentropyFilterCache) (levIds : List Nat) (st : Db × Nat) :
    (levIds.foldl (fun (st : Db × Nat) levId =>
      match st.1.event.lookup levId with
      | none => st
      | some v =>
        let r := deleteEventBasic (cache.update st.1 v false) levId
        (r.1, st.2 + if r.2 then 1 else 0)) st).1 = levIds.foldl (deleteEvent cache) st.1 := by
  induction levIds generalizing st with
  | nil => rfl
  | cons levId levIds ih =>
    rw [List.foldl_cons, List.foldl_cons, ih]
    congr 1
    unfold deleteEvent
    cases st.1.event.lookup levId with
    | none => rfl
    | some v => rfl

omit [StdSort] [Zstd] in
theorem deleteEvents_eq {db db' : Db} {cache cache' : NegentropyFilterCache} {levIds : List Nat} {n : Nat}
    (h : deleteEvents db cache levIds = .ok (db', cache', n)) :
    cache.freshenCache db = .ok cache' ∧ db' = levIds.foldl (deleteEvent cache') db := by
  unfold deleteEvents at h
  obtain ⟨c, hc, h⟩ := bind_eq_ok.mp h
  cases h
  exact ⟨hc, deleteLoop_eq _ levIds (db, 0)⟩

omit [StdSort] [Zstd] in
theorem deleteEvents_negentropyFilter {db db' : Db} {c c' : NegentropyFilterCache} {levIds : List Nat} {n : Nat}
    (h : deleteEvents db c levIds = .ok (db', c', n)) : db'.negentropyFilter = db.negentropyFilter := by
  obtain ⟨-, rfl⟩ := deleteEvents_eq h
  have hloop : ∀ (levs : List Nat) (d : Db),
      (levs.foldl (deleteEvent c') d).negentropyFilter = d.negentropyFilter := by
    intro levs
    induction levs with
    | nil => exact fun d => rfl
    | cons lev levs ih => exact fun d => (ih _).trans (deleteEvent_negentropyFilter c' d lev)
  exact hloop levIds db

/-- Events are only taken out, with their payloads. -/
structure Shrunk (db db' : Db) : Prop where
  event : ∀ x ∈ db'.event.rows, x ∈ db.event.rows
  payloads : ∀ lev, lev ∈ db'.eventPayload.keys ↔ lev ∈ db'.event.keys

omit [Golpe] [TaoJson] [StdSort] [Zstd] in
theorem StoreInv.shrunk {db db' : Db} (h : StoreInv db) (hs : Shrunk db db') : StoreInv db' where
  packed r hr := h.packed r (hs.event r hr)
  ids r hr r' hr' := h.ids r (hs.event r hr) r' (hs.event r' hr')
  addresses r hr r' hr' := h.addresses r (hs.event r hr) r' (hs.event r' hr')
  payloads := hs.payloads

omit [StdSort] [Zstd] in
theorem StoreInv.deleteEvents {db db' : Db} (h : StoreInv db) {cache cache' : NegentropyFilterCache}
    {levIds : List Nat} {n : Nat} (hd : deleteEvents db cache levIds = .ok (db', cache', n)) :
    Shrunk db db' := by
  obtain ⟨-, rfl⟩ := deleteEvents_eq hd
  obtain ⟨h1, h2, -⟩ := foldl_deleteEvent cache' levIds db h.payloads
  refine ⟨fun x hx => ((h1 x).mp hx).1, fun lev => ?_⟩
  rw [Table.mem_keys, Table.mem_keys]
  simp only [h1, h2]
  have := h.payloads lev
  rw [Table.mem_keys, Table.mem_keys] at this
  constructor
  · rintro ⟨v, hv, hne⟩
    obtain ⟨w, hw⟩ := this.mp ⟨v, hv⟩
    exact ⟨w, hw, hne⟩
  · rintro ⟨v, hv, hne⟩
    obtain ⟨w, hw⟩ := this.mpr ⟨v, hv⟩
    exact ⟨w, hw, hne⟩

omit [Golpe] [TaoJson] [StdSort] [Zstd] in
theorem StoreInv.recoded {db db' : Db} (h : StoreInv db) (hr : Recoded db db') : Shrunk db db' where
  event x hx := hr.event ▸ hx
  payloads lev := by rw [hr.keys, hr.event]; exact h.payloads lev

omit [Zstd] in
/-- The filters of a batch that was written could be compiled. -/
theorem writeEvents_cache {db db' : Db} {cache cache' : NegentropyFilterCache}
    {evs evs' : List EventToWrite} (h : writeEvents db cache evs = .ok (db', cache', evs')) :
    cache.freshenCache db = .ok cache' := by
  unfold writeEvents at h
  obtain ⟨l, -, h⟩ := bind_eq_ok.mp h
  obtain ⟨c, hc, h⟩ := bind_eq_ok.mp h
  obtain ⟨r, -, h⟩ := bind_eq_ok.mp h
  cases h
  exact hc

/-- **Runs keep what turns and deletions keep.** -/
theorem Reachable.rule {P : PackedEventView → Prop} (I : Db → Prop)
    (hinit : ∀ db : Db, db.event = .empty → I db)
    (hturn : ∀ db prevId ev packed db' ev', I db → StoreInv db → Packed packed → P packed →
      WriteOutcome db prevId ev packed db' ev' → I db')
    (hshrunk : ∀ db db', I db → Shrunk db db' → I db') {db : Db} (h : Reachable cfg P db) :
    StoreInv db ∧ I db := by
  induction h with
  | init db hevent hpayload =>
    refine ⟨⟨?_, ?_, ?_, ?_⟩, hinit db hevent⟩
    · simp [hevent]
    · simp [hevent]
    · simp [hevent]
    · simp [hevent, hpayload]
  | @step db db' _ hs ih =>
    obtain ⟨hinv, hI⟩ := ih
    cases hs with
    | write cache cache' evs evs' db' hevs hP hfit hw =>
      obtain ⟨db1, evs1, l, hw1, -, hinv1, hI1⟩ := writeEvents_rule cfg (fun _ => I) evs hevs
        (fun _ db prevId e db' ev' he hbuf hpk hI hinv _ ho =>
          hturn db prevId e.1 e.2 db' ev' hI hinv hpk (hP e.1 he e.2 hbuf) ho)
        [] hI hinv hfit (writeEvents_cache hw)
      rw [hw] at hw1
      cases hw1
      exact ⟨hinv1, hI1⟩
    | delete cache cache' levIds n db' hd =>
      have hs := hinv.deleteEvents hd
      exact ⟨hinv.shrunk hs, hshrunk db db' hI hs⟩
    | compress dictId level levIds db' hc =>
      have hs := hinv.recoded (dictCompress_recoded cfg hc)
      exact ⟨hinv.shrunk hs, hshrunk db db' hI hs⟩
    | decompress levIds =>
      have hs := hinv.recoded (dictDecompress_recoded cfg db levIds)
      exact ⟨hinv.shrunk hs, hshrunk db _ hI hs⟩

theorem Reachable.storeInv {P : PackedEventView → Prop} {db : Db} (h : Reachable cfg P db) :
    StoreInv db :=
  (h.rule cfg (fun _ => True) (fun _ _ => trivial) (fun _ _ _ _ _ _ _ _ _ _ _ => trivial)
    fun _ _ _ _ => trivial).1

/-- **The store invariant.**  In every database reached: no id is stored twice; no two events of a
replaceable or parameterized-replaceable kind share pubkey, kind and first `d` tag; events and
payloads have the same levIds; and a batch is written without "unprocessed deletion". -/
theorem store_invariant (db : Db) (h : Reachable cfg (fun _ => True) db) :
    (∀ r ∈ db.event.rows, ∀ r' ∈ db.event.rows, r.2.id = r'.2.id → r = r') ∧
    (∀ r ∈ db.event.rows, ∀ r' ∈ db.event.rows,
      isReplaceableKind r.2.kind = true ∨ isParamReplaceableKind r.2.kind = true →
      r.2.pubkey = r'.2.pubkey → r.2.kind = r'.2.kind → firstD r.2 = firstD r'.2 → r = r') ∧
    (∀ lev, lev ∈ db.event.keys ↔ lev ∈ db.eventPayload.keys) ∧
    ∀ cache cache' evs, (∀ ev ∈ evs, Submittable cfg ev) → db.event.lastId + evs.length < 2 ^ 64 →
      cache.freshenCache db = .ok cache' → ∃ db' evs', writeEvents db cache evs = .ok (db', cache', evs') := by
  have hinv := h.storeInv
  refine ⟨hinv.ids, fun r hr r' hr' hk hpk hkind hd => ?_, fun lev => (hinv.payloads lev).symm,
    fun cache cache' evs hevs hfit hc => ?_⟩
  · obtain ⟨val, hval⟩ := (hinv.packed r hr).exists_d hk
    obtain ⟨d, hfirst⟩ : ∃ d, firstD r.2 = some d := by
      unfold firstD
      cases hf : r.2.tags.find? fun t => t.1 == tagD with
      | none => exact absurd (List.find?_eq_none.mp hf _ hval) (by simp)
      | some t => exact ⟨t.2, rfl⟩
    have ha : address r.2 = some (r.2.pubkey, r.2.kind, d) := by
      rcases hk with hk | hk
      · simp [address, hk, hfirst]
      · simp [address, hk, hfirst]
    refine hinv.addresses r hr r' hr' ⟨_, ha, ?_⟩
    unfold address at ha ⊢
    rwa [← hkind, ← hpk, ← hd]
  · obtain ⟨db', evs', l, hw, -⟩ := writeEvents_rule cfg (fun _ _ => True) evs hevs
      (fun _ _ _ _ _ _ _ _ _ _ _ _ _ => trivial) [] trivial hinv hfit hc
    exact ⟨db', evs', hw⟩

end

/-- A text event, and a deletion request that names another event. -/
def textEvent : PackedEventView := sampleEvent 1 9 100 1 []

def deletionEvent : PackedEventView := sampleEvent 2 9 100 5 [(tagE, List.replicate 32 3)]

/-- Their JSON. -/
def textJson : Json := sampleJson 1 9 100 1 []

def deletionJson : Json :=
  sampleJson 2 9 100 5 [.array [.string (ascii "e"), .string (toHex (List.replicate 32 3))]]

def twoEvents : List EventToWrite :=
  [{ packedStr := textEvent.buf, jsonStr := ascii "t" },
    { packedStr := deletionEvent.buf, jsonStr := ascii "d" }]

theorem twoEvents_submittable : ∀ ev ∈ twoEvents, @Submittable Golpe.plain {} ev := by
  let _ : Golpe := Golpe.plain
  intro ev hev
  simp only [twoEvents, List.mem_cons, List.not_mem_nil, or_false] at hev
  rcases hev with rfl | rfl
  · exact ⟨rfl, textJson, rfl⟩
  · exact ⟨rfl, deletionJson, rfl⟩

/-- Instances that never have to do anything. -/
@[reducible] def TaoJson.none : TaoJson := ⟨fun _ => .none, fun _ => []⟩

@[reducible] def Zstd.none : Zstd := ⟨fun _ _ _ _ => .none, fun _ _ _ => .none⟩

set_option maxRecDepth 8000 in
/-- The database after the batch. -/
theorem twoEvents_written : ∃ db cache evs,
    @writeEvents Golpe.plain TaoJson.none StdSort.insertion {} {} twoEvents = .ok (db, cache, evs) ∧
    db.event.rows = [(1, textEvent), (2, deletionEvent)] :=
  ⟨_, _, _, rfl, rfl⟩

theorem store_invariant_two : ∃ db : Db,
    db.event.rows = [(1, textEvent), (2, deletionEvent)] ∧ 2 ∈ db.eventPayload.keys := by
  let _ : Golpe := Golpe.plain
  let _ : TaoJson := TaoJson.none
  let _ : StdSort := StdSort.insertion
  let _ : Zstd := Zstd.none
  obtain ⟨db, cache, evs, hw, hrows⟩ := twoEvents_written
  have hreach : Reachable {} (fun _ => True) db :=
    .step (.init {} rfl rfl) (.write {} cache twoEvents evs db twoEvents_submittable
      (fun _ _ _ _ => trivial) (by decide) hw)
  refine ⟨db, hrows, ((store_invariant {} db hreach).2.2.1 2).mp ?_⟩
  rw [Table.mem_keys, hrows]
  exact ⟨deletionEvent, by simp⟩

section
variable [Golpe] [TaoJson] [StdSort] [Zstd] (cfg : Cfg)

/-- **Deletion requests stick.**  Over events that do not name themselves, a stored deletion request
never names a stored event of its author. -/
theorem deletion_sticks (db : Db) (h : Reachable cfg (fun v => (tagE, v.id) ∉ v.tags) db)
    (D : Nat × PackedEventView) (hD : D ∈ db.event.rows) (E : Nat × PackedEventView)
    (hE : E ∈ db.event.rows) (h5 : D.2.kind = 5) (hpk : D.2.pubkey = E.2.pubkey) :
    (tagE, E.2.id) ∉ D.2.tags := by
  have hnone := (h.rule cfg
    (fun db => ∀ D ∈ db.event.rows, ∀ E ∈ db.event.rows, ¬ Names D.2 E.2) ?_ ?_ ?_).2
  · exact fun ht => hnone D hD E hE ⟨h5, hpk, ht⟩
  · intro db hevent D hD
    rw [hevent] at hD
    simp at hD
  · intro db prevId ev packed db' ev' hI _ _ hself ho
    cases ho with
    | duplicate _ => exact hI
    | deleted _ _ => exact hI
    | replaced _ _ _ => exact hI
    | written _ _ hdel _ hw =>
      intro D hD E hE
      rcases (hw.event D).mp hD with ⟨hD, -⟩ | rfl
      · rcases (hw.event E).mp hE with ⟨hE, -⟩ | rfl
        · exact hI D hD E hE
        · exact hdel D hD
      · rcases (hw.event E).mp hE with ⟨-, hrm⟩ | rfl
        · exact fun hn => hrm (Or.inr hn)
        · exact fun hn => hself hn.2.2
  · intro db db' hI hs D hD E hE
    exact hI D (hs.event D hD) E (hs.event E hE)

end

theorem deletion_sticks_two : ∃ db : Db, db.event.rows = [(1, textEvent), (2, deletionEvent)] ∧
    (tagE, textEvent.id) ∉ deletionEvent.tags := by
  let _ : Golpe := Golpe.plain
  let _ : TaoJson := TaoJson.none
  let _ : StdSort := StdSort.insertion
  let _ : Zstd := Zstd.none
  obtain ⟨db, cache, evs, hw, hrows⟩ := twoEvents_written
  have hself : ∀ ev ∈ twoEvents, ∀ v : PackedEventView, v.buf = ev.packedStr → (tagE, v.id) ∉ v.tags := by
    intro ev hev v hv
    simp only [twoEvents, List.mem_cons, List.not_mem_nil, or_false] at hev
    rcases hev with rfl | rfl
    · rw [PackedEventView.ext_buf hv]
      decide
    · rw [PackedEventView.ext_buf hv]
      decide
  have hreach : Reachable {} (fun v => (tagE, v.id) ∉ v.tags) db :=
    .step (.init {} rfl rfl) (.write {} cache twoEvents evs db twoEvents_submittable hself
      (by decide) hw)
  refine ⟨db, hrows, deletion_sticks {} db hreach (2, deletionEvent) ?_ (1, textEvent) ?_ (by decide)
    (by decide)⟩
  · rw [hrows]
    simp
  · rw [hrows]
    simp

end Strfry
