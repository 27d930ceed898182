import Strfry.FriedExport
import Strfry.WriterPipeline

/-!
# Importing a fried export

`import --fried` reads the lines of an export and hands the events to the pipeline, whose writer puts
them into the database in batches.  Whatever the threads do and whatever the size of a batch, the events
of the export are written in their order, none is found stored, replaced or deleted, and in the end the
database stores what was exported (`fried_roundtrip`).
-/

namespace Strfry

open WriterPipeline

/-- What a thread of the pipeline does. -/
inductive ThreadStep [Golpe] [TaoJson] [StdSort] [Crypto] (cfg : Cfg) (writeBatchSize : Nat)
    (s : WriterPipeline) : WriterPipeline → Prop where
  | flushed (hc : s.caller = .flushing) (hf : s.flushInbox = true) :
      ThreadStep cfg writeBatchSize s { s with caller := .returned }
  | validatorPop (hv : s.validator = .running []) (hne : s.validatorInbox ≠ []) :
      ThreadStep cfg writeBatchSize s { s with validator := .running s.validatorInbox, validatorInbox := [] }
  | validate (m : InputNo × Json) (rest : List (InputNo × Json)) (now : Nat)
      (hv : s.validator = .running (m :: rest)) :
      ThreadStep cfg writeBatchSize s (s.validate m rest (parseAndVerifyEvent cfg now true false m.2))
  | writerPop (hw : s.writer = .waiting) (hne : s.writerInbox ≠ []) :
      ThreadStep cfg writeBatchSize s { s with writer := .collecting s.db s.writerInbox [], writerInbox := [] }
  | collect (txn : Db) (newEvents newEventsToProc : List (InputNo × EventToWrite))
      (hw : s.writer = .collecting txn newEvents newEventsToProc) :
      ThreadStep cfg writeBatchSize s (s.collect writeBatchSize txn newEvents newEventsToProc)
  | commit (newEventsToProc : List (InputNo × EventToWrite)) (shutdownComplete : Bool)
      (hw : s.writer = .committing newEventsToProc shutdownComplete) :
      ThreadStep cfg writeBatchSize s (s.commit newEventsToProc shutdownComplete)

/-- An import: the lines to read, and the pipeline. -/
structure Import where
  lines : List Bytes
  pipe : WriterPipeline

section
variable [Golpe] [TaoJson] [StdSort] [Crypto] (cfg : Cfg) (writeBatchSize : Nat)

inductive ImportStep (i : Import) : Import → Prop where
  | line (line : Bytes) (rest : List Bytes) (inp : EventToWrite) (hl : i.lines = line :: rest)
      (hc : i.pipe.caller = .writing) (hp : parseFried line = .ok inp) :
      ImportStep i ⟨rest, i.pipe.writeEvent inp⟩
  /-- a line that cannot be parsed is logged -/
  | badLine (line : Bytes) (rest : List Bytes) (e : Err) (hl : i.lines = line :: rest)
      (hc : i.pipe.caller = .writing) (hp : parseFried line = .error e) : ImportStep i ⟨rest, i.pipe⟩
  | eof (hl : i.lines = []) (hc : i.pipe.caller = .writing) : ImportStep i ⟨[], i.pipe.flush⟩
  | thread (s' : WriterPipeline) (hs : ThreadStep cfg writeBatchSize i.pipe s') : ImportStep i ⟨i.lines, s'⟩

/-- The states of an import of `input` into `db`. -/
inductive ImportReached (input : Bytes) (db : Db) : Import → Prop where
  | start : ImportReached input db ⟨getLines input [], { db := db }⟩
  | step {i i' : Import} (h : ImportReached input db i) (hs : ImportStep cfg writeBatchSize i i') :
      ImportReached input db i'

end

/-- The packed bytes and the JSON bytes of the events of a database. -/
def storedPairs [Zstd] (cfg : Cfg) (db : Db) : Set (Bytes × Bytes) :=
  {q | ∃ r ∈ db.event.rows, r.2.buf = q.1 ∧ getEventJson cfg db r.1 = .ok q.2}

/-! ## Writing events that do not touch each other -/

/-- Events that do not touch each other: no two have one id or one address, and none names another. -/
structure Independent (E : List StoredEvent) : Prop where
  packed : ∀ p ∈ E, Packed p.1
  ids : (E.map fun p => p.1.id).Nodup
  addresses : ∀ p ∈ E, ∀ q ∈ E, SameAddress p.1 q.1 → p = q
  names : ∀ p ∈ E, ∀ q ∈ E, Names p.1 q.1 → p = q
  fit : E.length < 2 ^ 64

/-- The database stores the events of a list. -/
structure Stores (done : List StoredEvent) (db : Db) : Prop extends StoreInv db where
  plain : ∀ x ∈ db.eventPayload.rows, ∃ json, x.2 = 0 :: json
  mem : ∀ p, p ∈ stored db ↔ p ∈ done
  lastId : db.event.lastId ≤ done.length

theorem Stores.perm {done done' : List StoredEvent} {db : Db} (h : Stores done db) (hp : done.Perm done') :
    Stores done' db :=
  ⟨h.toStoreInv, h.plain, fun p => (h.mem p).trans hp.mem_iff, hp.length_eq ▸ h.lastId⟩

theorem Stores.of_row {done : List StoredEvent} {db : Db} (h : Stores done db) {r : Nat × PackedEventView}
    (hr : r ∈ db.event.rows) : ∃ p ∈ done, p.1 = r.2 := by
  obtain ⟨json, hj⟩ := stored_of_row h.toStoreInv h.plain hr
  exact ⟨_, (h.mem _).mp hj, rfl⟩

/-- One turn writes its event. -/
theorem Stores.turn {E done : List StoredEvent} (hE : Independent E) (hsub : ∀ p ∈ done, p ∈ E)
    {db db' : Db} (h : Stores done db) {prevId : Option Bytes} {e : BatchEvent} {ev' : EventToWrite}
    (he : e.toStored ∈ E) (hnew : e.2.id ∉ done.map fun p => p.1.id) (hprev : prevId ≠ some e.2.id)
    (ho : WriteOutcome db prevId e.1 e.2 db' ev') :
    ev'.status = .written ∧ Stores (done ++ [e.toStored]) db' := by
  have hout := ho
  have hrow : ∀ r ∈ db.event.rows, ∃ p ∈ done, p.1 = r.2 ∧ p ≠ e.toStored := by
    intro r hr
    obtain ⟨p, hp, hpr⟩ := h.of_row hr
    refine ⟨p, hp, hpr, fun heq => hnew ?_⟩
    exact List.mem_map.mpr ⟨p, hp, by rw [heq]; rfl⟩
  cases ho with
  | duplicate hdup =>
    rcases hdup with ⟨r, hr, hid⟩ | hpid
    · obtain ⟨p, hp, hpr, -⟩ := hrow r hr
      exact absurd (List.mem_map.mpr ⟨p, hp, by rw [hpr, hid]⟩) hnew
    · exact absurd hpid hprev
  | deleted _ hdel =>
    obtain ⟨r, hr, hn⟩ := hdel
    obtain ⟨p, hp, hpr, hne⟩ := hrow r hr
    exact absurd (hE.names p (hsub p hp) _ he (hpr ▸ hn)) hne
  | replaced _ _ hrep =>
    obtain ⟨r, hr, hs, -⟩ := hrep
    obtain ⟨p, hp, hpr, hne⟩ := hrow r hr
    exact absurd (hE.addresses p (hsub p hp) _ he (hpr ▸ hs.symm)) hne
  | written db' _ _ _ hw =>
    have hkeep : ∀ p ∈ done, ¬ Removes e.2 p.1 := by
      intro p hp hrm
      have hne : p ≠ e.toStored := fun heq => hnew (List.mem_map.mpr ⟨p, hp, by rw [heq]; rfl⟩)
      rcases hrm with hs | hn
      · exact hne (hE.addresses _ he p (hsub p hp) hs).symm
      · exact hne (hE.names _ he p (hsub p hp) hn).symm
    refine ⟨rfl, h.toStoreInv.outcome (hE.packed _ he) hout, ?_, fun p => ?_, ?_⟩
    · intro x hx
      rcases (hw.payload x).mp hx with ⟨hx, -⟩ | rfl
      · exact h.plain x hx
      · exact ⟨_, rfl⟩
    · rw [stored_written hw, h.mem, List.mem_append, List.mem_singleton]
      constructor
      · rintro (⟨hp, -⟩ | rfl)
        · exact Or.inl hp
        · exact Or.inr rfl
      · rintro (hp | rfl)
        · exact Or.inl ⟨hp, hkeep p hp⟩
        · exact Or.inr rfl
    · rw [hw.lastId, List.length_append, List.length_singleton]
      exact Nat.succ_le_succ h.lastId

/-- The loop writes every event. -/
theorem Stores.writeLoop {E : List StoredEvent} (hE : Independent E) (cache : NegentropyFilterCache)
    (l : List BatchEvent) (hl : ∀ e ∈ l, e.1.status = .pending ∧ e.toStored ∈ E) {done : List StoredEvent}
    (hsub : ∀ p ∈ done, p ∈ E) (hnodup : ((done ++ l.map BatchEvent.toStored).map fun p => p.1.id).Nodup)
    (hfit : done.length + l.length < 2 ^ 64) {db : Db} (h : Stores done db) (prevId : Option Bytes)
    (hprev : ∀ i, prevId = some i → i ∈ done.map fun p => p.1.id) :
    ∃ db' evs', Strfry.writeLoop cache db prevId l = .ok (db', evs') ∧
      (∀ ev ∈ evs', ev.status = .written) ∧ evs'.length = l.length ∧
      Stores (done ++ l.map BatchEvent.toStored) db' := by
  induction l generalizing done db prevId with
  | nil => exact ⟨db, [], rfl, by simp, rfl, by simpa using h⟩
  | cons e l ih =>
    obtain ⟨hpend, he⟩ := hl e List.mem_cons_self
    have hnew : e.2.id ∉ done.map fun p => p.1.id := by
      rw [List.map_append] at hnodup
      intro hin
      exact (List.nodup_append.mp hnodup).2.2 _ hin _ (by simp [BatchEvent.toStored]) rfl
    rw [List.length_cons] at hfit
    have hpk : Packed e.2 := hE.packed _ he
    have hlast := h.lastId
    obtain ⟨db1, ev1, hw, ho⟩ := writeEvent_spec cache h.toStoreInv (by omega) prevId hpend hpk
    obtain ⟨hstatus, h1⟩ := h.turn hE hsub he hnew (fun hp => hnew (hprev _ hp)) ho
    rw [List.map_cons] at hnodup ⊢
    have hsub' : ∀ p ∈ done ++ [e.toStored], p ∈ E := by
      intro p hp
      rcases List.mem_append.mp hp with hp | hp
      · exact hsub p hp
      · rw [List.mem_singleton.mp hp]
        exact he
    obtain ⟨db', evs', hloop, hall, hlen, h'⟩ := ih (fun e' he' => hl e' (List.mem_cons_of_mem _ he')) hsub'
      (by simpa using hnodup) (by simp only [List.length_append, List.length_singleton]; omega) h1
      (some e.2.id)
      (by
        intro i hi
        cases hi
        exact List.mem_map.mpr ⟨e.toStored, by simp, rfl⟩)
    refine ⟨db', ev1 :: evs', ?_, ?_, by simp [hlen], by simpa using h'⟩
    · unfold Strfry.writeLoop
      rw [hw]
      show (Strfry.writeLoop cache db1 (some e.2.id) l >>= _) = _
      rw [hloop]
      rfl
    · intro ev hev
      rcases List.mem_cons.mp hev with rfl | hev
      · exact hstatus
      · exact hall ev hev

theorem viewBatch_toWrite (batch : List StoredEvent) :
    viewBatch (batch.map StoredEvent.toWrite) = .ok (batch.map fun p => (p.toWrite, p.1)) := by
  induction batch with
  | nil => rfl
  | cons p batch ih =>
    unfold viewBatch at ih ⊢
    rw [List.map_cons, List.mapM_cons, show p.toWrite.packedStr = p.1.buf from rfl,
      PackedEventView.ofBytes_self, ih]
    rfl

/-- **A batch of the export is written whole.** -/
theorem Stores.writeEvents [Golpe] [TaoJson] [StdSort] {E done batch rest : List StoredEvent}
    (hE : Independent E) (hsplit : E = done ++ batch ++ rest) {db : Db} (h : Stores done db)
    (hdb : Compiles db) (cache : NegentropyFilterCache) : ∃ db' cache' evs',
      Strfry.writeEvents db cache (batch.map StoredEvent.toWrite) = .ok (db', cache', evs') ∧
      (∀ ev ∈ evs', ev.status = .written) ∧ evs'.length = batch.length ∧ Stores (done ++ batch) db' := by
  let l : List BatchEvent := batch.map fun p => (p.toWrite, p.1)
  have hl : viewBatch (batch.map StoredEvent.toWrite) = .ok l := viewBatch_toWrite batch
  have hstored : l.map BatchEvent.toStored = batch := by
    rw [List.map_map]
    exact List.map_id _
  obtain ⟨cache', hc⟩ := hdb.freshenCache cache
  have hperm := StdSort.perm batchLt l
  have hperm' : (done ++ (StdSort.sort batchLt l).map BatchEvent.toStored).Perm (done ++ batch) := by
    rw [← hstored]
    exact (hperm.map _).append_left done
  have hsub : ∀ p ∈ done ++ batch, p ∈ E := by
    intro p hp
    rw [hsplit]
    exact List.mem_append_left _ hp
  have hlen := hE.fit
  rw [hsplit] at hlen
  simp only [List.length_append] at hlen
  obtain ⟨db', evs', hloop, hall, hlen', h'⟩ := Stores.writeLoop hE cache' (StdSort.sort batchLt l)
    (by
      intro e he
      obtain ⟨p, hp, rfl⟩ := List.mem_map.mp (hperm.mem_iff.mp he)
      exact ⟨rfl, hsub _ (List.mem_append_right _ hp)⟩)
    (fun p hp => hsub p (List.mem_append_left _ hp))
    (by
      have hids := hE.ids
      rw [hsplit, List.map_append] at hids
      exact (hperm'.map _).nodup_iff.mpr (List.nodup_append.mp hids).1)
    (by rw [hperm.length_eq, List.length_map]; omega) h none (by simp)
  refine ⟨db', cache', evs', ?_, hall, by rw [hlen', hperm.length_eq, List.length_map], h'.perm hperm'⟩
  unfold Strfry.writeEvents
  rw [hl, hc]
  show (Strfry.writeLoop cache' db none (StdSort.sort batchLt l) >>= _) = _
  rw [hloop]
  rfl

/-! ## The invariant of an import -/

/-- The events of a queue, without the marker of `flush`. -/
def queued (l : List (InputNo × EventToWrite)) : List EventToWrite :=
  (l.filter fun e => e.1.isSome).map Prod.snd

theorem queued_append (l l' : List (InputNo × EventToWrite)) : queued (l ++ l') = queued l ++ queued l' := by
  simp [queued]

/-- Where the events of the export are: written, in the batch, in the writer's queue, and not yet read. -/
structure Parts [Golpe] (E done batch queue rest : List StoredEvent) (i : Import) : Prop where
  split : E = done ++ batch ++ queue ++ rest
  batch : i.pipe.batch.map Prod.snd = batch.map StoredEvent.toWrite
  queue : queued i.pipe.toCollect = queue.map StoredEvent.toWrite
  lines : i.lines.map parseFried = rest.map fun p => .ok p.toWrite
  stores : Stores done i.pipe.db
  written : i.pipe.totalWritten = done.length

structure Importing [Golpe] [TaoJson] (E : List StoredEvent) (i : Import) : Prop where
  inv : Inv i.pipe
  parts : ∃ done batch queue rest, Parts E done batch queue rest i
  flushed : i.pipe.caller ≠ .writing → i.lines = []
  snapshot : ∀ txn newEvents proc, i.pipe.writer = .collecting txn newEvents proc → txn = i.pipe.db
  markers : ∀ m ∈ i.pipe.toValidate, m = nullMarker
  dups : i.pipe.totalDups = 0
  rejected : i.pipe.totalRejected = 0

section
variable [Golpe] [TaoJson] [StdSort] [Crypto] {cfg : Cfg} {writeBatchSize : Nat} {E : List StoredEvent}
  {i : Import}

theorem ThreadStep.toStep {s s' : WriterPipeline} (hs : ThreadStep cfg writeBatchSize s s') :
    Step cfg true false writeBatchSize IsPacked (fun _ => False) s s' := by
  cases hs with
  | flushed hc hf => exact .flushed hc hf
  | validatorPop hv hne => exact .validatorPop hv hne
  | validate m rest now hv => exact .validate m rest now hv
  | writerPop hw hne => exact .writerPop hw hne
  | collect txn newEvents proc hw => exact .collect txn newEvents proc hw
  | commit proc fin hw => exact .commit proc fin hw

omit [StdSort] [Crypto] in
theorem Importing.line (h : Importing E i) {line : Bytes} {rest : List Bytes} {inp : EventToWrite}
    (hl : i.lines = line :: rest) (hc : i.pipe.caller = .writing) (hp : parseFried line = .ok inp) :
    Importing E ⟨rest, i.pipe.writeEvent inp⟩ := by
  obtain ⟨done, batch, queue, unread, hparts⟩ := h.parts
  have hlines := hparts.lines
  rw [hl, List.map_cons, hp] at hlines
  cases unread with
  | nil => cases hlines
  | cons p unread =>
    rw [List.map_cons] at hlines
    obtain ⟨hinp, hlines'⟩ := List.cons.inj hlines
    cases hinp
    refine ⟨h.inv.writeEvent hc ⟨p.1, PackedEventView.ofBytes_self p.1⟩ rfl,
      ⟨done, batch, queue ++ [p], unread, ?_, hparts.batch, ?_, hlines', hparts.stores, hparts.written⟩,
      fun hne => absurd hc hne, h.snapshot, h.markers, h.dups, h.rejected⟩
    · rw [hparts.split]
      simp
    · show queued (i.pipe.writer.queue (i.pipe.writerInbox ++ [_])) = _
      rw [queue_push_writer, queued_append, List.map_append]
      exact congrArg₂ (· ++ ·) hparts.queue rfl

omit [StdSort] [Crypto] in
theorem Importing.badLine (h : Importing E i) {line : Bytes} {rest : List Bytes} {e : Err}
    (hl : i.lines = line :: rest) (hp : parseFried line = .error e) : False := by
  obtain ⟨done, batch, queue, unread, hparts⟩ := h.parts
  have hlines := hparts.lines
  rw [hl, List.map_cons, hp] at hlines
  cases unread with
  | nil => cases hlines
  | cons p unread => cases hlines

omit [StdSort] [Crypto] in
theorem Importing.eof (h : Importing E i) (hl : i.lines = []) (hc : i.pipe.caller = .writing) :
    Importing E ⟨[], i.pipe.flush⟩ := by
  obtain ⟨done, batch, queue, unread, hparts⟩ := h.parts
  refine ⟨h.inv.flush hc, ⟨done, batch, queue, unread, hparts.split, hparts.batch, hparts.queue,
    hl ▸ hparts.lines, hparts.stores, hparts.written⟩, fun _ => rfl, h.snapshot, fun m hm => ?_, h.dups,
    h.rejected⟩
  have hm : m ∈ i.pipe.validator.queue (i.pipe.validatorInbox ++ [(none, .null)]) := hm
  rw [queue_push_validator] at hm
  rcases List.mem_append.mp hm with hm | hm
  · exact h.markers m hm
  · exact List.mem_singleton.mp hm

omit [StdSort] [Crypto] in
/-- The validator only passes the marker on. -/
theorem Importing.validate (h : Importing E i) {m : InputNo × Json} {rest : List (InputNo × Json)}
    (hv : i.pipe.validator = .running (m :: rest)) (res : Except Err (Bytes × Bytes))
    (hinv : Inv (i.pipe.validate m rest res)) : Importing E ⟨i.lines, i.pipe.validate m rest res⟩ := by
  obtain ⟨done, batch, queue, unread, hparts⟩ := h.parts
  have hqueue : i.pipe.toValidate = m :: rest ++ i.pipe.validatorInbox := by
    simp [toValidate, hv, ValidatorPhase.queue]
  obtain rfl : m = nullMarker := h.markers m (by rw [hqueue]; simp)
  have heq : i.pipe.validate nullMarker rest res = { i.pipe with
      validator := .stopped
      writerInbox := i.pipe.writerInbox ++ [emptyMarker] } := rfl
  rw [heq] at hinv ⊢
  refine ⟨hinv, ⟨done, batch, queue, unread, hparts.split, hparts.batch, ?_, hparts.lines, hparts.stores,
    hparts.written⟩, h.flushed, h.snapshot, fun m hm => h.markers m ?_, h.dups, h.rejected⟩
  · show queued (i.pipe.writer.queue (i.pipe.writerInbox ++ [emptyMarker])) = _
    rw [queue_push_writer, queued_append]
    exact (List.append_nil _).trans hparts.queue
  · rw [hqueue]
    exact List.mem_append_right _ hm

omit [StdSort] [Crypto] in
/-- The next event of the writer is not stored. -/
theorem Importing.collect (hE : Independent E) (h : Importing E i) {txn : Db}
    {newEvents proc : List (InputNo × EventToWrite)} (hw : i.pipe.writer = .collecting txn newEvents proc)
    (hinv : Inv (i.pipe.collect writeBatchSize txn newEvents proc)) :
    Importing E ⟨i.lines, i.pipe.collect writeBatchSize txn newEvents proc⟩ := by
  obtain ⟨done, batch, queue, unread, hparts⟩ := h.parts
  have hbatch : proc.map Prod.snd = batch.map StoredEvent.toWrite := by
    have := hparts.batch
    rwa [WriterPipeline.batch, hw] at this
  have hqueue : queued (newEvents ++ i.pipe.writerInbox) = queue.map StoredEvent.toWrite := by
    have := hparts.queue
    rwa [toCollect, hw] at this
  have hsnap := h.snapshot txn newEvents proc hw
  unfold WriterPipeline.collect at hinv ⊢
  cases newEvents with
  | nil =>
    exact ⟨hinv, ⟨done, batch, queue, unread, hparts.split, hbatch, hqueue, hparts.lines, hparts.stores,
      hparts.written⟩, h.flushed, (fun _ _ _ hw' => by cases hw'), h.markers, h.dups, h.rejected⟩
  | cons event rest =>
    simp only [] at hinv ⊢
    by_cases hfull : proc.length ≥ writeBatchSize
    · rw [if_pos hfull] at hinv ⊢
      exact ⟨hinv, ⟨done, batch, queue, unread, hparts.split, hbatch, hqueue, hparts.lines, hparts.stores,
        hparts.written⟩, h.flushed, (fun _ _ _ hw' => by cases hw'), h.markers, h.dups, h.rejected⟩
    rw [if_neg hfull] at hinv ⊢
    have hstage := h.inv.stage
    have hW : i.pipe.toCollect = event :: (rest ++ i.pipe.writerInbox) := by
      simp [toCollect, hw, WriterPhase.queue]
    rw [hW] at hstage
    rcases hstage.of_record with ⟨⟨hno, v, hv, -⟩, -⟩ | ⟨rfl, -, -, hnil, -, -⟩
    · -- an event: it is the first of the queue
      have hhead : queued (event :: (rest ++ i.pipe.writerInbox)) =
          event.2 :: queued (rest ++ i.pipe.writerInbox) := by
        obtain ⟨no, ev⟩ := event
        cases no with
        | none => exact absurd rfl hno
        | some n => rfl
      rw [List.cons_append, hhead] at hqueue
      cases queue with
      | nil => cases hqueue
      | cons p queue =>
        rw [List.map_cons] at hqueue
        obtain ⟨hev, hqueue⟩ := List.cons.inj hqueue
        have hpacked : event.2.packedStr = p.1.buf := by rw [hev]; rfl
        have hsize := p.1.size
        rw [hpacked] at hinv ⊢
        have hfresh : i.pipe.db.eventExistsById (p.1.buf.take 32) = false := by
          rw [← Bool.not_eq_true]
          intro hex
          obtain ⟨r, hr, hid⟩ := (Db.eventExistsById_iff p.1.length_id).mp hex
          obtain ⟨q, hq, hqr⟩ := hparts.stores.of_row hr
          have hids := hE.ids
          rw [hparts.split, List.append_assoc, List.append_assoc, List.map_append] at hids
          exact (List.nodup_append.mp hids).2.2 _ (List.mem_map.mpr ⟨q, hq, rfl⟩) p.1.id
            (List.mem_map.mpr ⟨p, by simp, rfl⟩) (by rw [hqr]; exact hid)
        rw [hsnap, if_neg (by omega), if_neg (by omega), hfresh, if_neg (by simp)] at hinv ⊢
        refine ⟨hinv, ⟨done, batch ++ [p], queue, unread, ?_, ?_, hqueue, hparts.lines, hparts.stores,
          hparts.written⟩, h.flushed, ?_, h.markers, h.dups, h.rejected⟩
        · rw [hparts.split]
          simp
        · show (proc ++ [event]).map Prod.snd = _
          rw [List.map_append, List.map_append, hbatch, List.map_singleton, hev]
          rfl
        · intro txn' ne proc' hw'
          cases hw'
          rfl
    · -- the marker: nothing is left
      rw [if_pos (show emptyMarker.2.packedStr.length = 0 from rfl)] at hinv ⊢
      have hrest : rest = [] ∧ i.pipe.writerInbox = [] := by simpa using hnil
      refine ⟨hinv, ⟨done, batch, queue, unread, hparts.split, hbatch, ?_, hparts.lines, hparts.stores,
        hparts.written⟩, h.flushed, (fun _ _ _ hw' => by cases hw'), h.markers, h.dups, h.rejected⟩
      show queued i.pipe.writerInbox = _
      rw [← hqueue, hrest.1, hrest.2]
      rfl

omit [Crypto] in
/-- A commit writes the batch, and nothing of it is a duplicate. -/
theorem Importing.commit (hE : Independent E) (h : Importing E i)
    {proc : List (InputNo × EventToWrite)} {shutdownComplete : Bool}
    (hw : i.pipe.writer = .committing proc shutdownComplete)
    (hinv : Inv (i.pipe.commit proc shutdownComplete)) :
    Importing E ⟨i.lines, i.pipe.commit proc shutdownComplete⟩ := by
  obtain ⟨done, batch, queue, unread, hparts⟩ := h.parts
  have hbatch : proc.map Prod.snd = batch.map StoredEvent.toWrite := by
    have := hparts.batch
    rwa [WriterPipeline.batch, hw] at this
  have hqueue : queued i.pipe.writerInbox = queue.map StoredEvent.toWrite := by
    have := hparts.queue
    rwa [toCollect, hw] at this
  obtain ⟨db', cache', evs', hok, hall, hlen, hstores⟩ := hparts.stores.writeEvents hE
    (by rw [hparts.split, List.append_assoc (done ++ batch)]) h.inv.compiles i.pipe.neFilterCache
  unfold WriterPipeline.commit at hinv ⊢
  cases proc with
  | nil =>
    obtain rfl : batch = [] := by simpa using hbatch.symm
    simp only [List.isEmpty_nil, if_true] at hinv ⊢
    cases shutdownComplete with
    | true => exact ⟨hinv, ⟨done, [], queue, unread, hparts.split, rfl, hqueue, hparts.lines, hparts.stores,
        hparts.written⟩, h.flushed, (fun _ _ _ hw' => by cases hw'), h.markers, h.dups, h.rejected⟩
    | false => exact ⟨hinv, ⟨done, [], queue, unread, hparts.split, rfl, hqueue, hparts.lines, hparts.stores,
        hparts.written⟩, h.flushed, (fun _ _ _ hw' => by cases hw'), h.markers, h.dups, h.rejected⟩
  | cons e proc =>
    rw [hbatch, hok] at hinv ⊢
    simp only [List.isEmpty_cons, Bool.false_eq_true, if_false] at hinv ⊢
    have hcount : evs'.countP (fun ev => ev.status = .written) = batch.length := by
      rw [← hlen]
      exact List.countP_eq_length.mpr fun ev hev => by simpa using hall ev hev
    have hnone : evs'.countP (fun ev => ¬ ev.status = .written) = 0 := by
      refine List.countP_eq_zero.mpr fun ev hev => ?_
      simpa using hall ev hev
    have hsplit : E = (done ++ batch) ++ [] ++ queue ++ unread := by
      rw [hparts.split, List.append_nil]
    have hwritten : i.pipe.totalWritten + evs'.countP (fun ev => ev.status = .written) =
        (done ++ batch).length := by
      rw [hparts.written, hcount, List.length_append]
    have hdups : i.pipe.totalDups + evs'.countP (fun ev => ¬ ev.status = .written) = 0 := by
      rw [h.dups, hnone]
    cases shutdownComplete with
    | true => exact ⟨hinv, ⟨done ++ batch, [], queue, unread, hsplit, rfl, hqueue, hparts.lines, hstores,
        hwritten⟩, h.flushed, (fun _ _ _ hw' => by cases hw'), h.markers, hdups, h.rejected⟩
    | false => exact ⟨hinv, ⟨done ++ batch, [], queue, unread, hsplit, rfl, hqueue, hparts.lines, hstores,
        hwritten⟩, h.flushed, (fun _ _ _ hw' => by cases hw'), h.markers, hdups, h.rejected⟩

theorem Importing.thread (hE : Independent E) (h : Importing E i) {s' : WriterPipeline}
    (hs : ThreadStep cfg writeBatchSize i.pipe s') : Importing E ⟨i.lines, s'⟩ := by
  have hinv : Inv s' := h.inv.step (fun _ hf => hf.elim) hs.toStep
  obtain ⟨done, batch, queue, unread, hparts⟩ := h.parts
  cases hs with
  | flushed hc hf =>
    exact ⟨hinv, ⟨done, batch, queue, unread, hparts.split, hparts.batch, hparts.queue, hparts.lines,
      hparts.stores, hparts.written⟩, (fun _ => h.flushed (by rw [hc]; decide)), h.snapshot, h.markers, h.dups,
      h.rejected⟩
  | validatorPop hv hne =>
    refine ⟨hinv, ⟨done, batch, queue, unread, hparts.split, hparts.batch, hparts.queue, hparts.lines,
      hparts.stores, hparts.written⟩, h.flushed, h.snapshot, fun m hm => h.markers m ?_, h.dups, h.rejected⟩
    have hm : m ∈ i.pipe.validatorInbox ++ [] := hm
    rw [List.append_nil] at hm
    simpa [toValidate, hv, ValidatorPhase.queue] using hm
  | validate m rest now hv => exact h.validate hv _ hinv
  | writerPop hw hne =>
    have hbatch : batch = [] := by
      have := hparts.batch
      rw [WriterPipeline.batch, hw] at this
      simpa [WriterPhase.batch] using this.symm
    have hqueue : queued (i.pipe.writerInbox ++ []) = queue.map StoredEvent.toWrite := by
      have := hparts.queue
      rw [toCollect, hw] at this
      rwa [List.append_nil]
    refine ⟨hinv, ⟨done, batch, queue, unread, hparts.split, by rw [hbatch]; rfl, hqueue, hparts.lines,
      hparts.stores, hparts.written⟩, h.flushed, ?_, h.markers, h.dups, h.rejected⟩
    intro txn newEvents proc hw'
    cases hw'
    rfl
  | collect txn newEvents proc hw => exact h.collect hE hw hinv
  | commit proc fin hw => exact h.commit hE hw hinv

/-- **One step of an import** keeps the invariant. -/
theorem Importing.step (hE : Independent E) (h : Importing E i) {i' : Import}
    (hs : ImportStep cfg writeBatchSize i i') : Importing E i' := by
  cases hs with
  | line line rest inp hl hc hp => exact h.line hl hc hp
  | badLine line rest e hl hc hp => exact (h.badLine hl hp).elim
  | eof hl hc => exact h.eof hl hc
  | thread s' hs => exact h.thread hE hs

/-! ## An import ends -/

/-- Every step of a thread lowers the work. -/
theorem ThreadStep.work_lt (hsize : 1 ≤ writeBatchSize) {s s' : WriterPipeline}
    (hs : ThreadStep cfg writeBatchSize s s') : work writeBatchSize s' < work writeBatchSize s := by
  cases hs with
  | flushed hc hf =>
    simp only [work, toValidate, toCollect, flushingRank, hc]
    omega
  | validatorPop hv hne =>
    cases hin : s.validatorInbox with
    | nil => exact absurd hin hne
    | cons m rest => simp [work, toValidate, toCollect, ValidatorPhase.queue, idle, hv, hin]
  | validate m rest now hv => exact work_validate hv
  | writerPop hw hne =>
    simp only [work, toValidate, toCollect, WriterPhase.queue, rank, hw, List.append_nil, List.length_nil]
    rw [if_pos ⟨hne, hsize⟩]
    omega
  | collect txn newEvents proc hw => exact work_collect hw
  | commit proc fin hw => exact work_commit hw

/-- What is left of an import: a line costs what it adds to the writer's queue, and the end of the
input the marker of `flush`. -/
def importWork (writeBatchSize : Nat) (i : Import) : Nat :=
  8 * i.lines.length + (if i.pipe.caller = .writing then 16 else 0) + work writeBatchSize i.pipe

theorem ThreadStep.caller {s s' : WriterPipeline} (hs : ThreadStep cfg writeBatchSize s s') :
    s'.caller = s.caller ∨ s.caller = .flushing ∧ s'.caller = .returned := by
  cases hs with
  | flushed hc hf => exact Or.inr ⟨hc, rfl⟩
  | validatorPop hv hne => exact Or.inl rfl
  | validate m rest now hv =>
    unfold WriterPipeline.validate
    split
    · exact Or.inl rfl
    · split <;> exact Or.inl rfl
  | writerPop hw hne => exact Or.inl rfl
  | collect txn newEvents proc hw =>
    unfold WriterPipeline.collect
    repeat' split
    all_goals exact Or.inl rfl
  | commit proc fin hw =>
    unfold WriterPipeline.commit WriterPipeline.endTurn
    repeat' split
    all_goals exact Or.inl rfl

theorem importWork_lt (hsize : 1 ≤ writeBatchSize) {i' : Import} (hs : ImportStep cfg writeBatchSize i i') :
    importWork writeBatchSize i' < importWork writeBatchSize i := by
  cases hs with
  | line line rest inp hl hc hp =>
    simp only [importWork, hl, work, toValidate, toCollect, WriterPipeline.writeEvent, queue_push_writer,
      List.length_append, List.length_cons, List.length_nil, hc, if_true]
    omega
  | badLine line rest e hl hc hp =>
    simp only [importWork, hl, List.length_cons]
    omega
  | eof hl hc =>
    simp only [importWork, hl, work, toValidate, toCollect, WriterPipeline.flush, queue_push_validator,
      List.length_append, List.length_cons, List.length_nil, hc, flushingRank, if_true, reduceCtorEq, if_false]
    omega
  | thread s' hs =>
    have hlt := hs.work_lt hsize
    show 8 * i.lines.length + (if s'.caller = .writing then 16 else 0) + work writeBatchSize s' <
      8 * i.lines.length + (if i.pipe.caller = .writing then 16 else 0) + work writeBatchSize i.pipe
    rcases hs.caller with hc | ⟨hc, hc'⟩
    · rw [hc]
      omega
    · rw [hc, hc']
      simp only [reduceCtorEq, if_false]
      omega

/-- Until `flush` returns a step is possible. -/
theorem Importing.enabled (h : Importing E i) (hc : i.pipe.caller ≠ .returned) :
    ∃ i', ImportStep cfg writeBatchSize i i' := by
  by_cases hwriting : i.pipe.caller = .writing
  · cases hl : i.lines with
    | nil => exact ⟨_, .eof hl hwriting⟩
    | cons line rest =>
      cases hp : parseFried line with
      | error e => exact ⟨_, .badLine line rest e hl hwriting hp⟩
      | ok inp => exact ⟨_, .line line rest inp hl hwriting hp⟩
  · have hflush := flushing_of_ne hwriting hc
    obtain ⟨s', hs⟩ : ∃ s', Step cfg true false writeBatchSize IsPacked (fun _ => False) i.pipe s' :=
      h.inv.enabled hflush (fun _ => False)
    cases hs with
    | write eventJson hc' => exact absurd hc' hwriting
    | writeFried line inp hc' hline hF => exact absurd hc' hwriting
    | flush hc' => exact absurd hc' hwriting
    | flushed hc' hf => exact ⟨_, .thread _ (.flushed hc' hf)⟩
    | validatorPop hv hne => exact ⟨_, .thread _ (.validatorPop hv hne)⟩
    | validate m rest now hv => exact ⟨_, .thread _ (.validate m rest now hv)⟩
    | writerPop hw hne => exact ⟨_, .thread _ (.writerPop hw hne)⟩
    | collect txn newEvents proc hw => exact ⟨_, .thread _ (.collect txn newEvents proc hw)⟩
    | commit proc fin hw => exact ⟨_, .thread _ (.commit proc fin hw)⟩
    | other db' hN => exact hN.elim

/-! ## The round trip -/

omit [Golpe] [StdSort] [Crypto] in
/-- Events of a store of parsed events do not touch each other. -/
theorem Exportable.independent {db : Db} (h : Exportable db) {E : List StoredEvent}
    (hmem : ∀ p, p ∈ E ↔ p ∈ stored db) (hids : (E.map fun p => p.1.id).Nodup) : Independent E := by
  have hrow : ∀ p ∈ E, ∀ q ∈ E, ∀ lev lev', (lev, p.1) ∈ db.event.rows → (lev', q.1) ∈ db.event.rows →
      (lev, p.1) = (lev', q.1) → p = q := by
    intro p hp q hq lev lev' _ _ heq
    have hview : p.1 = q.1 := congrArg Prod.snd heq
    have hid : p.1.id = q.1.id := by rw [hview]
    exact List.inj_on_of_nodup_map hids hp hq hid
  refine ⟨fun p hp => ?_, hids, fun p hp q hq hs => ?_, fun p hp q hq hn => ?_, ?_⟩
  · obtain ⟨lev, hv, -⟩ := (hmem p).mp hp
    exact h.packed _ hv
  · obtain ⟨lev, hv, -⟩ := (hmem p).mp hp
    obtain ⟨lev', hv', -⟩ := (hmem q).mp hq
    exact hrow p hp q hq lev lev' hv hv' (h.addresses _ hv _ hv' hs)
  · obtain ⟨lev, hv, -⟩ := (hmem p).mp hp
    obtain ⟨lev', hv', -⟩ := (hmem q).mp hq
    exact hrow p hp q hq lev lev' hv hv' (h.names _ hv _ hv' hn)
  · -- as many events as levIds at most
    have hsub : (E.map fun p => p.1.id) ⊆ db.event.rows.map fun r => r.2.id := by
      intro x hx
      obtain ⟨p, hp, rfl⟩ := List.mem_map.mp hx
      obtain ⟨lev, hv, -⟩ := (hmem p).mp hp
      exact List.mem_map.mpr ⟨_, hv, rfl⟩
    have hle := (hids.subperm hsub).length_le
    rw [List.length_map, List.length_map] at hle
    exact Nat.lt_of_le_of_lt (hle.trans db.event.length_rows_le) h.fit

omit [StdSort] [Crypto] [Golpe] in
/-- As many as there are events. -/
theorem Exportable.length_eq {db : Db} (h : Exportable db) {E : List StoredEvent}
    (hmem : ∀ p, p ∈ E ↔ p ∈ stored db) (hids : (E.map fun p => p.1.id).Nodup) :
    E.length = db.event.rows.length := by
  have hrows : (db.event.rows.map fun r => r.2.id).Nodup := by
    refine List.Nodup.map_on (fun r hr r' hr' hid => h.ids r hr r' hr' hid) ?_
    exact .of_map Prod.fst db.event.keys_nodup
  have hperm : (E.map fun p => p.1.id).Perm (db.event.rows.map fun r => r.2.id) := by
    refine (List.perm_ext_iff_of_nodup hids hrows).mpr fun x => ?_
    rw [List.mem_map, List.mem_map]
    constructor
    · rintro ⟨p, hp, rfl⟩
      obtain ⟨lev, hv, -⟩ := (hmem p).mp hp
      exact ⟨_, hv, rfl⟩
    · rintro ⟨r, hr, rfl⟩
      obtain ⟨json, hj⟩ := stored_of_row h.toStoreInv (fun x hx => by
        obtain ⟨text, -, ht⟩ := h.texts x hx
        exact ⟨text, ht⟩) hr
      exact ⟨_, (hmem _).mpr hj, rfl⟩
  simpa using hperm.length_eq

omit [StdSort] [Crypto] [Golpe] [TaoJson] in
/-- With payloads that are not compressed, the pairs are those of `stored`. -/
theorem mem_storedPairs [Zstd] {db : Db} (hinv : StoreInv db)
    (hplain : ∀ x ∈ db.eventPayload.rows, ∃ json, x.2 = 0 :: json) (q : Bytes × Bytes) :
    q ∈ storedPairs cfg db ↔ ∃ p ∈ stored db, (p.1.buf, p.2) = q := by
  constructor
  · rintro ⟨r, hr, hbuf, hjson⟩
    obtain ⟨payload, hp⟩ := (db.eventPayload.mem_keys r.1).mp
      ((hinv.payloads r.1).mpr ((db.event.mem_keys r.1).mpr ⟨r.2, hr⟩))
    obtain ⟨json, hj⟩ := hplain _ hp
    simp only at hj
    subst hj
    rw [getEventJson, (db.eventPayload.lookup_eq_some_iff _ _).mpr hp] at hjson
    cases hjson
    exact ⟨(r.2, q.2), ⟨r.1, hr, hp⟩, Prod.ext hbuf rfl⟩
  · rintro ⟨p, ⟨lev, hv, hp⟩, rfl⟩
    refine ⟨(lev, p.1), hv, rfl, ?_⟩
    rw [getEventJson, (db.eventPayload.lookup_eq_some_iff _ _).mpr hp]
    rfl

/-- **A fried export is imported whole.**  The export of a store of parsed events, in either order, comes
back; while it is imported into a database without events the writer never fails; when the import is
done the database has the same pairs of packed bytes and JSON bytes, every event was written and none
was a duplicate, replaced or deleted; and with batches of one event or more the import is done in every
run. -/
theorem fried_roundtrip [Zstd] (hhex : ∀ b, Golpe.fromHex (toHex b) = some b) (hjson : TaoJson.OneLine)
    (db : Db) (h : ParsedStore cfg db) (reverse : Bool) :
    ∃ out, exportFried cfg db reverse = .ok out ∧
      ∀ (db₀ : Db), db₀.event = .empty → db₀.eventPayload = .empty → Compiles db₀ →
      ∀ (writeBatchSize : Nat) (i : Import), ImportReached cfg writeBatchSize out db₀ i →
        i.pipe.writer ≠ .crashed ∧
        (i.pipe.caller = .returned → storedPairs cfg i.pipe.db = storedPairs cfg db ∧
          i.pipe.totalWritten = db.event.rows.length ∧ i.pipe.totalDups = 0 ∧ i.pipe.totalRejected = 0) ∧
        (1 ≤ writeBatchSize → Inevitable (ImportStep cfg writeBatchSize)
          (fun i => i.pipe.caller = .returned) i) := by
  have hexp := h.exportable
  obtain ⟨out, E, hout, hlines, hmem, hids⟩ := export_lines hhex hjson cfg hexp reverse
  have hE := hexp.independent hmem hids
  refine ⟨out, hout, fun db₀ hevent hpayload hcompiles writeBatchSize i hi => ?_⟩
  have himp : Importing E i := by
    induction hi with
    | start =>
      refine ⟨.init hcompiles, ⟨[], [], [], E, by simp, rfl, rfl, hlines, ?_, rfl⟩, fun hne => absurd rfl hne,
        (fun _ _ _ hw => by cases hw), by simp [toValidate, ValidatorPhase.queue], rfl, rfl⟩
      refine ⟨⟨?_, ?_, ?_, ?_⟩, ?_, fun p => ?_, ?_⟩
      · simp [hevent]
      · simp [hevent]
      · simp [hevent]
      · simp [hevent, hpayload]
      · simp [hpayload]
      · simp [stored, hevent]
      · simp [hevent]
    | step _ hs ih => exact ih.step hE hs
  refine ⟨himp.inv.alive, fun hc => ?_, fun hsize => ?_⟩
  · obtain ⟨done, batch, queue, rest, hparts⟩ := himp.parts
    have hstage := himp.inv.stage
    rw [hc] at hstage
    obtain ⟨-, hW, he⟩ := hstage.of_returned
    obtain rfl : queue = [] := by
      have := hparts.queue
      rw [hW] at this
      simpa [queued] using this.symm
    obtain rfl : rest = [] := by
      have := hparts.lines
      rw [himp.flushed (by rw [hc]; decide)] at this
      simpa using this.symm
    obtain rfl : batch = [] := by
      have := hparts.batch
      rw [batch_of_ended he] at this
      simpa using this.symm
    have hdone : E = done := by
      rw [hparts.split]
      simp
    have hplain : ∀ x ∈ db.eventPayload.rows, ∃ json, x.2 = 0 :: json := fun x hx => by
      obtain ⟨text, -, ht⟩ := hexp.texts x hx
      exact ⟨text, ht⟩
    refine ⟨?_, ?_, himp.dups, himp.rejected⟩
    · ext q
      rw [mem_storedPairs hparts.stores.toStoreInv hparts.stores.plain,
        mem_storedPairs hexp.toStoreInv hplain]
      simp only [hparts.stores.mem, ← hdone, hmem]
    · rw [hparts.written, ← hdone]
      exact hexp.length_eq hmem hids
  · exact Inevitable.of_measure (Importing E) (importWork writeBatchSize) (fun j hj hne => hj.enabled hne)
      (fun j j' hj _ hs => ⟨hj.step hE hs, importWork_lt hsize hs⟩) himp

end

/-- A signed text event, as it comes in. -/
def signedJson : Json :=
  .object [(ascii "content", .string []), (ascii "created_at", .unsigned 100),
    (ascii "id", .string (toHex (List.replicate 32 1))), (ascii "kind", .unsigned 1),
    (ascii "pubkey", .string (toHex (List.replicate 32 9))), (ascii "sig", .string []),
    (ascii "tags", .array [])]

def bracesText : Bytes := ascii "\x7b\x7d"

theorem TaoJson.braces_oneLine : @TaoJson.OneLine TaoJson.braces := by
  intro kvs
  exact ⟨⟨ascii "\x7b", rfl⟩, show newline ∉ bracesText by decide⟩

set_option maxRecDepth 8000 in
theorem signedEvent_written : ∃ db cache evs,
    @writeEvents Golpe.plain TaoJson.braces StdSort.insertion {} {}
      [{ packedStr := textEvent.buf, jsonStr := bracesText }] = .ok (db, cache, evs) ∧
    db.event.rows = [(1, textEvent)] ∧ db.eventPayload.rows = [(1, 0 :: bracesText)] :=
  ⟨_, _, _, rfl, rfl, rfl⟩

/-- The export of one event, imported. -/
theorem fried_roundtrip_one : ∃ (db : Db) (i : Import), db.event.rows = [(1, textEvent)] ∧
    i.pipe.caller = .returned ∧ i.pipe.totalWritten = 1 ∧
    @storedPairs Zstd.none {} i.pipe.db = @storedPairs Zstd.none {} db := by
  obtain ⟨db, cache, evs, hw, hrows, -⟩ := signedEvent_written
  let _ : Golpe := Golpe.plain
  let _ : TaoJson := TaoJson.braces
  let _ : StdSort := StdSort.insertion
  let _ : Crypto := noCrypto
  let _ : Zstd := Zstd.none
  have hstore : ParsedStore {} db := by
    refine .write (.init {} rfl rfl) _ _ _ _ _ (fun ev hev => ?_) (by decide) hw
    rw [List.mem_singleton.mp hev]
    exact ⟨rfl, 0, false, false, signedJson, rfl⟩
  obtain ⟨out, -, himport⟩ := fried_roundtrip hexDecode_toHex TaoJson.braces_oneLine db hstore true
  have himport := himport {} rfl rfl ⟨[], rfl⟩ 1
  -- a run of the import to its end
  have hrun : ∀ i, Inevitable (ImportStep {} 1) (fun i => i.pipe.caller = .returned) i →
      ImportReached {} 1 out {} i → ∃ j, ImportReached {} 1 out {} j ∧ j.pipe.caller = .returned := by
    intro i hi
    induction hi with
    | now h => exact fun hr => ⟨_, hr, h⟩
    | later hex _ ih =>
      obtain ⟨s', hs⟩ := hex
      exact fun hr => ih s' hs (hr.step hs)
  obtain ⟨j, hj, hret⟩ := hrun _ ((himport _ .start).2.2 (Nat.le_refl 1)) .start
  obtain ⟨hpairs, hwritten, -, -⟩ := (himport j hj).2.1 hret
  exact ⟨db, j, hrows, hret, by rw [hwritten, hrows]; rfl, hpairs⟩

end Strfry
