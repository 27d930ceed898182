import Strfry.FriedImport
import Strfry.JsonExport

/-!
# Importing a JSON export

`import` without `--fried` parses each line and hands the JSON to the pipeline.  The validator checks and
packs every event anew, and the writer writes what the validator has passed on, in batches, while more lines
are read.

An event of the export is at every moment in one of five places: stored, in the batch, before the writer,
before the validator or still to be read, and it goes through them in the order of the export (`Filled`,
`JsonImporting`).  So the import of an export, of all times or of a range of them, stores what was exported,
rejects nothing and comes to an end (`json_roundtrip`).
-/

namespace Strfry

open WriterPipeline

section
variable [Golpe] [TaoJson] [StdSort] [Crypto] (cfg : Cfg) (writeBatchSize : Nat)

inductive JsonImportStep (i : Import) : Import → Prop where
  | line (line : Bytes) (rest : List Bytes) (evJson : Json) (hl : i.lines = line :: rest)
      (hc : i.pipe.caller = .writing) (hp : TaoJson.fromString line = some evJson) :
      JsonImportStep i ⟨rest, i.pipe.write evJson⟩
  /-- a line that cannot be parsed is logged -/
  | badLine (line : Bytes) (rest : List Bytes) (hl : i.lines = line :: rest)
      (hc : i.pipe.caller = .writing) (hp : TaoJson.fromString line = none) : JsonImportStep i ⟨rest, i.pipe⟩
  | eof (hl : i.lines = []) (hc : i.pipe.caller = .writing) : JsonImportStep i ⟨[], i.pipe.flush⟩
  | thread (s' : WriterPipeline) (hs : ThreadStep cfg writeBatchSize i.pipe s') : JsonImportStep i ⟨i.lines, s'⟩

end

/-! ## The writer -/

/-- Where the writer is with the events `E`: written, in the batch, in its queue, and not yet passed to it. -/
structure Filled (E done batch queue later : List StoredEvent) (s : WriterPipeline) : Prop where
  split : E = done ++ batch ++ queue ++ later
  batch : s.batch.map Prod.snd = batch.map StoredEvent.toWrite
  queue : queued s.toCollect = queue.map StoredEvent.toWrite
  stores : Stores done s.db
  written : s.totalWritten = done.length
  dups : s.totalDups = 0
  snapshot : ∀ txn newEvents proc, s.writer = .collecting txn newEvents proc → txn = s.db

namespace Filled

variable {E done batch queue later : List StoredEvent} {s : WriterPipeline}

/-- What the writer does not see. -/
theorem frame (h : Filled E done batch queue later s) {s' : WriterPipeline} (hwriter : s'.writer = s.writer)
    (hinbox : s'.writerInbox = s.writerInbox) (hdb : s'.db = s.db) (hwritten : s'.totalWritten = s.totalWritten)
    (hdups : s'.totalDups = s.totalDups) : Filled E done batch queue later s' where
  split := h.split
  batch := by
    rw [WriterPipeline.batch, hwriter]
    exact h.batch
  queue := by
    rw [toCollect, hwriter, hinbox]
    exact h.queue
  stores := hdb ▸ h.stores
  written := hwritten.trans h.written
  dups := hdups.trans h.dups
  snapshot txn newEvents proc hw := hdb ▸ h.snapshot txn newEvents proc (hwriter ▸ hw)

/-- The next event of the list comes to the writer. -/
theorem push {p : StoredEvent} (h : Filled E done batch queue (p :: later) s) {no : InputNo} (hno : no ≠ none) :
    Filled E done batch (queue ++ [p]) later { s with writerInbox := s.writerInbox ++ [(no, p.toWrite)] } where
  split := by
    rw [h.split]
    simp
  batch := h.batch
  queue := by
    obtain ⟨n, rfl⟩ := Option.ne_none_iff_exists'.mp hno
    show queued (s.writer.queue (s.writerInbox ++ [_])) = _
    rw [queue_push_writer, queued_append, List.map_append]
    exact congrArg₂ (· ++ ·) h.queue rfl
  stores := h.stores
  written := h.written
  dups := h.dups
  snapshot := h.snapshot

/-- The marker comes to the writer. -/
theorem mark (h : Filled E done batch queue later s) :
    Filled E done batch queue later { s with writerInbox := s.writerInbox ++ [emptyMarker] } where
  split := h.split
  batch := h.batch
  queue := by
    show queued (s.writer.queue (s.writerInbox ++ [emptyMarker])) = _
    rw [queue_push_writer, queued_append]
    exact (List.append_nil _).trans h.queue
  stores := h.stores
  written := h.written
  dups := h.dups
  snapshot := h.snapshot

/-- A turn of the collecting loop: the next event is not stored. -/
theorem collect [Golpe] [TaoJson] (hE : Independent E) (h : Filled E done batch queue later s) (hinv : Inv s)
    (writeBatchSize : Nat) {txn : Db} {newEvents proc : List (InputNo × EventToWrite)}
    (hw : s.writer = .collecting txn newEvents proc) :
    ∃ batch' queue', Filled E done batch' queue' later (s.collect writeBatchSize txn newEvents proc) := by
  have hbatch : proc.map Prod.snd = batch.map StoredEvent.toWrite := by
    have := h.batch
    rwa [WriterPipeline.batch, hw] at this
  have hqueue : queued (newEvents ++ s.writerInbox) = queue.map StoredEvent.toWrite := by
    have := h.queue
    rwa [toCollect, hw] at this
  have hsnap := h.snapshot txn newEvents proc hw
  unfold WriterPipeline.collect
  cases newEvents with
  | nil =>
    exact ⟨batch, queue, h.split, hbatch, hqueue, h.stores, h.written, h.dups, fun _ _ _ hw' => by cases hw'⟩
  | cons event rest =>
    simp only []
    by_cases hfull : proc.length ≥ writeBatchSize
    · rw [if_pos hfull]
      exact ⟨batch, queue, h.split, hbatch, hqueue, h.stores, h.written, h.dups, fun _ _ _ hw' => by cases hw'⟩
    rw [if_neg hfull]
    have hstage := hinv.stage
    have hW : s.toCollect = event :: (rest ++ s.writerInbox) := by
      simp [toCollect, hw, WriterPhase.queue]
    rw [hW] at hstage
    rcases hstage.of_record with ⟨⟨hno, v, hv, -⟩, -⟩ | ⟨rfl, -, -, hnil, -, -⟩
    · -- an event: it is the first of the queue
      have hhead : queued (event :: (rest ++ s.writerInbox)) = event.2 :: queued (rest ++ s.writerInbox) := by
        obtain ⟨no, ev⟩ := event
        obtain ⟨n, rfl⟩ := Option.ne_none_iff_exists'.mp hno
        rfl
      rw [List.cons_append, hhead] at hqueue
      cases queue with
      | nil => cases hqueue
      | cons p queue =>
        rw [List.map_cons] at hqueue
        obtain ⟨hev, hqueue⟩ := List.cons.inj hqueue
        have hpacked : event.2.packedStr = p.1.buf := by rw [hev]; rfl
        have hsize := p.1.size
        have hfresh : s.db.eventExistsById (p.1.buf.take 32) = false := by
          rw [← Bool.not_eq_true]
          intro hex
          obtain ⟨r, hr, hid⟩ := (Db.eventExistsById_iff p.1.length_id).mp hex
          obtain ⟨q, hq, hqr⟩ := h.stores.of_row hr
          have hids := hE.ids
          rw [h.split, List.append_assoc, List.append_assoc, List.map_append] at hids
          exact (List.nodup_append.mp hids).2.2 _ (List.mem_map.mpr ⟨q, hq, rfl⟩) p.1.id
            (List.mem_map.mpr ⟨p, by simp, rfl⟩) (by rw [hqr]; exact hid)
        rw [hpacked, hsnap, if_neg (by omega), if_neg (by omega), hfresh, if_neg (by simp)]
        refine ⟨batch ++ [p], queue, ?_, ?_, hqueue, h.stores, h.written, h.dups, ?_⟩
        · rw [h.split]
          simp
        · show (proc ++ [event]).map Prod.snd = _
          rw [List.map_append, List.map_append, hbatch, List.map_singleton, hev]
          rfl
        · intro txn' ne proc' hw'
          cases hw'
          rfl
    · -- the marker: nothing is left
      rw [if_pos (show emptyMarker.2.packedStr.length = 0 from rfl)]
      have hrest : rest = [] ∧ s.writerInbox = [] := by simpa using hnil
      refine ⟨batch, queue, h.split, hbatch, ?_, h.stores, h.written, h.dups, fun _ _ _ hw' => by cases hw'⟩
      show queued s.writerInbox = _
      rw [← hqueue, hrest.1, hrest.2]
      rfl

/-- A commit writes the batch, and nothing of it is a duplicate. -/
theorem commit [Golpe] [TaoJson] [StdSort] (hE : Independent E) (h : Filled E done batch queue later s)
    (hdb : Compiles s.db) {proc : List (InputNo × EventToWrite)} {shutdownComplete : Bool}
    (hw : s.writer = .committing proc shutdownComplete) :
    ∃ done' batch', Filled E done' batch' queue later (s.commit proc shutdownComplete) := by
  have hbatch : proc.map Prod.snd = batch.map StoredEvent.toWrite := by
    have := h.batch
    rwa [WriterPipeline.batch, hw] at this
  have hqueue : queued s.writerInbox = queue.map StoredEvent.toWrite := by
    have := h.queue
    rwa [toCollect, hw] at this
  obtain ⟨db', cache', evs', hok, hall, hlen, hstores⟩ := h.stores.writeEvents hE
    (by rw [h.split, List.append_assoc (done ++ batch)]) hdb s.neFilterCache
  unfold WriterPipeline.commit
  cases proc with
  | nil =>
    obtain rfl : batch = [] := by simpa using hbatch.symm
    simp only [List.isEmpty_nil, if_true]
    cases shutdownComplete with
    | true => exact ⟨done, [], h.split, rfl, hqueue, h.stores, h.written, h.dups, fun _ _ _ hw' => by cases hw'⟩
    | false => exact ⟨done, [], h.split, rfl, hqueue, h.stores, h.written, h.dups, fun _ _ _ hw' => by cases hw'⟩
  | cons e proc =>
    rw [hbatch, hok]
    simp only [List.isEmpty_cons, Bool.false_eq_true, if_false]
    have hcount : evs'.countP (fun ev => ev.status = .written) = batch.length := by
      rw [← hlen]
      exact List.countP_eq_length.mpr fun ev hev => by simpa using hall ev hev
    have hnone : evs'.countP (fun ev => ¬ ev.status = .written) = 0 := by
      refine List.countP_eq_zero.mpr fun ev hev => ?_
      simpa using hall ev hev
    have hsplit : E = (done ++ batch) ++ [] ++ queue ++ later := by
      rw [h.split, List.append_nil]
    have hwritten : s.totalWritten + evs'.countP (fun ev => ev.status = .written) = (done ++ batch).length := by
      rw [h.written, hcount, List.length_append]
    have hdups : s.totalDups + evs'.countP (fun ev => ¬ ev.status = .written) = 0 := by
      rw [h.dups, hnone]
    cases shutdownComplete with
    | true => exact ⟨done ++ batch, [], hsplit, rfl, hqueue, hstores, hwritten, hdups, fun _ _ _ hw' => by cases hw'⟩
    | false => exact ⟨done ++ batch, [], hsplit, rfl, hqueue, hstores, hwritten, hdups, fun _ _ _ hw' => by cases hw'⟩

end Filled

/-- The writer leaves the caller and the validator alone. -/
theorem WriterPipeline.collect_frame (s : WriterPipeline) (writeBatchSize : Nat) (txn : Db)
    (newEvents proc : List (InputNo × EventToWrite)) : (s.collect writeBatchSize txn newEvents proc).caller = s.caller ∧
      (s.collect writeBatchSize txn newEvents proc).toValidate = s.toValidate ∧
      (s.collect writeBatchSize txn newEvents proc).totalRejected = s.totalRejected := by
  unfold WriterPipeline.collect
  repeat' split
  all_goals exact ⟨rfl, rfl, rfl⟩

theorem WriterPipeline.commit_frame [Golpe] [TaoJson] [StdSort] (s : WriterPipeline)
    (proc : List (InputNo × EventToWrite)) (shutdownComplete : Bool) :
    (s.commit proc shutdownComplete).caller = s.caller ∧ (s.commit proc shutdownComplete).toValidate = s.toValidate ∧
      (s.commit proc shutdownComplete).totalRejected = s.totalRejected := by
  unfold WriterPipeline.commit WriterPipeline.endTurn
  repeat' split
  all_goals exact ⟨rfl, rfl, rfl⟩

/-! ## The invariant of an import -/

/-- The JSON of a queue, without the marker of `flush`. -/
def queuedJson (l : List (InputNo × Json)) : List Json := (l.filter fun m => m.1.isSome).map Prod.snd

theorem queuedJson_append (l l' : List (InputNo × Json)) : queuedJson (l ++ l') = queuedJson l ++ queuedJson l' := by
  simp [queuedJson]

/-- The validator makes this event of the JSON. -/
def Validates [Golpe] [TaoJson] [Crypto] (cfg : Cfg) (evJson : Json) (p : StoredEvent) : Prop :=
  evJson.isNull = false ∧ ∀ now, parseAndVerifyEvent cfg now true false evJson = .ok (p.1.buf, p.2)

/-- The writer stands where `Filled` says; before it come what the validator has not seen and the lines. -/
structure JsonImporting [Golpe] [TaoJson] [Crypto] (cfg : Cfg) (E : List StoredEvent) (i : Import) : Prop where
  inv : Inv i.pipe
  parts : ∃ done batch queue checking rest, Filled E done batch queue (checking ++ rest) i.pipe ∧
    List.Forall₂ (Validates cfg) (queuedJson i.pipe.toValidate) checking ∧ i.lines = rest.map Prod.snd
  flushed : i.pipe.caller ≠ .writing → i.lines = []
  rejected : i.pipe.totalRejected = 0

section
variable [Golpe] [TaoJson] [Crypto] {cfg : Cfg} {writeBatchSize : Nat} {E : List StoredEvent} {i : Import}

/-- A text that is accepted is that of an event. -/
theorem Rereadable.validates {p : StoredEvent} (h : Rereadable cfg p.1 p.2) :
    ∃ evJson, TaoJson.fromString p.2 = some evJson ∧ Validates cfg evJson p := by
  obtain ⟨evJson, hparse, hok⟩ := h.accepted
  obtain ⟨⟨kvs, rfl⟩, -⟩ := parseAndVerifyEvent_iff.mp (hok 0)
  exact ⟨_, hparse, rfl, hok⟩

namespace JsonImporting

/-- The line that is read is the text of the next event. -/
theorem line (hread : ∀ p ∈ E, Rereadable cfg p.1 p.2) (h : JsonImporting cfg E i) {line : Bytes} {rest : List Bytes}
    (hl : i.lines = line :: rest) : ∃ evJson, TaoJson.fromString line = some evJson ∧
      (i.pipe.caller = .writing → JsonImporting cfg E ⟨rest, i.pipe.write evJson⟩) := by
  obtain ⟨done, batch, queue, checking, unread, hfilled, hchecking, hlines⟩ := h.parts
  rw [hl] at hlines
  cases unread with
  | nil => cases hlines
  | cons p unread =>
    rw [List.map_cons] at hlines
    obtain ⟨rfl, hrest⟩ := List.cons.inj hlines
    obtain ⟨evJson, hparse, hval⟩ := (hread p (by rw [hfilled.split]; simp)).validates
    refine ⟨evJson, hparse, fun hc => ?_⟩
    have hwrite : i.pipe.write evJson = { i.pipe with
        totalProcessed := i.pipe.totalProcessed + 1
        numLive := addU64 i.pipe.numLive 1
        validatorInbox := i.pipe.validatorInbox ++ [(some i.pipe.totalProcessed, evJson)] } := by
      rw [WriterPipeline.write, hval.1]
      rfl
    have hinv := h.inv.write hc evJson
    rw [hwrite] at hinv ⊢
    refine ⟨hinv, ⟨done, batch, queue, checking ++ [p], unread, ?_, ?_, hrest⟩, fun hne => absurd hc hne, h.rejected⟩
    · rw [List.append_assoc]
      exact hfilled.frame rfl rfl rfl rfl rfl
    · show List.Forall₂ _ (queuedJson (i.pipe.validator.queue (i.pipe.validatorInbox ++ [_]))) _
      rw [queue_push_validator, queuedJson_append]
      exact List.rel_append hchecking (.cons hval .nil)

theorem eof (h : JsonImporting cfg E i) (hl : i.lines = []) (hc : i.pipe.caller = .writing) :
    JsonImporting cfg E ⟨[], i.pipe.flush⟩ := by
  obtain ⟨done, batch, queue, checking, unread, hfilled, hchecking, hlines⟩ := h.parts
  refine ⟨h.inv.flush hc, ⟨done, batch, queue, checking, unread, hfilled.frame rfl rfl rfl rfl rfl, ?_, hl ▸ hlines⟩,
    fun _ => rfl, h.rejected⟩
  show List.Forall₂ _ (queuedJson (i.pipe.validator.queue (i.pipe.validatorInbox ++ [(none, .null)]))) _
  rw [queue_push_validator, queuedJson_append]
  exact (List.append_nil (queuedJson i.pipe.toValidate)).symm ▸ hchecking

/-- The validator passes on the event of the text, or the marker. -/
theorem validate (h : JsonImporting cfg E i) {m : InputNo × Json} {rest : List (InputNo × Json)} (now : Nat)
    (hv : i.pipe.validator = .running (m :: rest))
    (hinv : Inv (i.pipe.validate m rest (parseAndVerifyEvent cfg now true false m.2))) :
    JsonImporting cfg E ⟨i.lines, i.pipe.validate m rest (parseAndVerifyEvent cfg now true false m.2)⟩ := by
  obtain ⟨done, batch, queue, checking, unread, hfilled, hchecking, hlines⟩ := h.parts
  have hV : i.pipe.toValidate = m :: (rest ++ i.pipe.validatorInbox) := by
    simp [toValidate, hv, ValidatorPhase.queue]
  have hstage := h.inv.stage
  rw [hV] at hstage hchecking
  obtain ⟨-, -, -, -, ⟨⟨hno, hnull⟩, -⟩ | ⟨rfl, -, hnil⟩⟩ := hstage.of_message
  · -- an event: it is the first of those to be validated
    have hhead : queuedJson (m :: (rest ++ i.pipe.validatorInbox)) =
        m.2 :: queuedJson (rest ++ i.pipe.validatorInbox) := by
      obtain ⟨no, evJson⟩ := m
      obtain ⟨n, rfl⟩ := Option.ne_none_iff_exists'.mp hno
      rfl
    rw [hhead] at hchecking
    obtain _ | @⟨-, p, -, checking, hval, hchecking⟩ := hchecking
    have hvalidate : i.pipe.validate m rest (parseAndVerifyEvent cfg now true false m.2) = { i.pipe with
        validator := .running rest
        writerInbox := i.pipe.writerInbox ++ [(m.1, p.toWrite)] } := by
      simp only [WriterPipeline.validate, hnull, Bool.false_eq_true, if_false, hval.2 now]
      rfl
    rw [hvalidate] at hinv ⊢
    exact ⟨hinv, ⟨done, batch, queue ++ [p], checking, unread,
      (hfilled.push hno).frame rfl rfl rfl rfl rfl, hchecking, hlines⟩, h.flushed, h.rejected⟩
  · -- the marker: nothing is left
    rw [hnil] at hchecking
    have hinbox : i.pipe.validatorInbox = [] := (List.append_eq_nil_iff.mp hnil).2
    have hvalidate : i.pipe.validate nullMarker rest (parseAndVerifyEvent cfg now true false nullMarker.2) =
        { i.pipe with
          validator := .stopped
          writerInbox := i.pipe.writerInbox ++ [emptyMarker] } := rfl
    rw [hvalidate] at hinv ⊢
    refine ⟨hinv, ⟨done, batch, queue, checking, unread, hfilled.mark.frame rfl rfl rfl rfl rfl, ?_, hlines⟩,
      h.flushed, h.rejected⟩
    show List.Forall₂ _ (queuedJson i.pipe.validatorInbox) _
    rw [hinbox]
    exact hchecking

/-- The writer goes on with its part. -/
theorem writer (h : JsonImporting cfg E i) {s' : WriterPipeline} (hinv : Inv s')
    (hframe : s'.caller = i.pipe.caller ∧ s'.toValidate = i.pipe.toValidate ∧
      s'.totalRejected = i.pipe.totalRejected)
    (hfilled : ∀ done batch queue later, Filled E done batch queue later i.pipe →
      ∃ done' batch' queue', Filled E done' batch' queue' later s') : JsonImporting cfg E ⟨i.lines, s'⟩ := by
  obtain ⟨hcaller, hvalidate, hrejected⟩ := hframe
  obtain ⟨done, batch, queue, checking, unread, hparts, hchecking, hlines⟩ := h.parts
  obtain ⟨done', batch', queue', hparts'⟩ := hfilled _ _ _ _ hparts
  exact ⟨hinv, ⟨done', batch', queue', checking, unread, hparts', hvalidate ▸ hchecking, hlines⟩,
    fun hne => h.flushed (hcaller ▸ hne), hrejected.trans h.rejected⟩

variable [StdSort]

theorem thread (hE : Independent E) (h : JsonImporting cfg E i) {s' : WriterPipeline}
    (hs : ThreadStep cfg writeBatchSize i.pipe s') : JsonImporting cfg E ⟨i.lines, s'⟩ := by
  have hinv : Inv s' := h.inv.step (fun _ hf => hf.elim) hs.toStep
  cases hs with
  | flushed hc hf =>
    obtain ⟨done, batch, queue, checking, unread, hfilled, hchecking, hlines⟩ := h.parts
    exact ⟨hinv, ⟨done, batch, queue, checking, unread, hfilled.frame rfl rfl rfl rfl rfl, hchecking, hlines⟩,
      fun _ => h.flushed (by rw [hc]; decide), h.rejected⟩
  | validatorPop hv hne =>
    obtain ⟨done, batch, queue, checking, unread, hfilled, hchecking, hlines⟩ := h.parts
    refine ⟨hinv, ⟨done, batch, queue, checking, unread, hfilled.frame rfl rfl rfl rfl rfl, ?_, hlines⟩, h.flushed,
      h.rejected⟩
    show List.Forall₂ _ (queuedJson (i.pipe.validatorInbox ++ [])) _
    have hchecking := hchecking
    rw [toValidate, hv] at hchecking
    rw [List.append_nil]
    exact hchecking
  | validate m rest now hv => exact h.validate now hv hinv
  | writerPop hw hne =>
    refine h.writer hinv ⟨rfl, rfl, rfl⟩ fun done batch queue later hfilled => ⟨done, batch, queue, ?_⟩
    refine ⟨hfilled.split, ?_, ?_, hfilled.stores, hfilled.written, hfilled.dups, ?_⟩
    · have hbatch := hfilled.batch
      rw [WriterPipeline.batch, hw] at hbatch
      exact hbatch
    · have hqueue := hfilled.queue
      rw [toCollect, hw] at hqueue
      show queued (i.pipe.writerInbox ++ []) = _
      rwa [List.append_nil]
    · intro txn newEvents proc hw'
      cases hw'
      rfl
  | collect txn newEvents proc hw =>
    refine h.writer hinv (collect_frame _ _ _ _ _) fun done batch queue later hfilled => ?_
    obtain ⟨batch', queue', hfilled'⟩ := hfilled.collect hE h.inv writeBatchSize hw
    exact ⟨done, batch', queue', hfilled'⟩
  | commit proc fin hw =>
    refine h.writer hinv (commit_frame _ _ _) fun done batch queue later hfilled => ?_
    obtain ⟨done', batch', hfilled'⟩ := hfilled.commit hE h.inv.compiles hw
    exact ⟨done', batch', queue, hfilled'⟩

/-- **One step of an import** keeps the invariant. -/
theorem step (hE : Independent E) (hread : ∀ p ∈ E, Rereadable cfg p.1 p.2) (h : JsonImporting cfg E i) {i' : Import}
    (hs : JsonImportStep cfg writeBatchSize i i') : JsonImporting cfg E i' := by
  cases hs with
  | line line rest evJson hl hc hp =>
    obtain ⟨evJson', hp', hnext⟩ := h.line hread hl
    cases hp.symm.trans hp'
    exact hnext hc
  | badLine line rest hl hc hp =>
    obtain ⟨evJson', hp', -⟩ := h.line hread hl
    cases hp.symm.trans hp'
  | eof hl hc => exact h.eof hl hc
  | thread s' hs => exact h.thread hE hs

/-- Until `flush` returns a step is possible. -/
theorem enabled (h : JsonImporting cfg E i) (hc : i.pipe.caller ≠ .returned) :
    ∃ i', JsonImportStep cfg writeBatchSize i i' := by
  by_cases hwriting : i.pipe.caller = .writing
  · cases hl : i.lines with
    | nil => exact ⟨_, .eof hl hwriting⟩
    | cons line rest =>
      cases hp : TaoJson.fromString line with
      | none => exact ⟨_, .badLine line rest hl hwriting hp⟩
      | some evJson => exact ⟨_, .line line rest evJson hl hwriting hp⟩
  · have hflush := flushing_of_ne hwriting hc
    obtain ⟨s', hs⟩ : ∃ s', Step cfg true false writeBatchSize IsPacked (fun _ => False) i.pipe s' :=
      h.inv.enabled hflush (fun _ => False)
    cases hs with
    | write eventJson hc' => exact absurd hc' hwriting
    | writeFried line inp hc' hline hF => exact absurd hc' hwriting
    | flush hc' => exact absurd hc' hwriting
    | flushed hc' hf => exact ⟨_, .thread _ (.flushed hc' hf)⟩
    | validatorPop hv hne => exact ⟨_, .thread _ (.validatorPop hv hne)⟩
    | validate m rest now hv => exact ⟨_, .thread _ (.validate m rest now hv)⟩
    | writerPop hw hne => exact ⟨_, .thread _ (.writerPop hw hne)⟩
    | collect txn newEvents proc hw => exact ⟨_, .thread _ (.collect txn newEvents proc hw)⟩
    | commit proc fin hw => exact ⟨_, .thread _ (.commit proc fin hw)⟩
    | other db' hN => exact hN.elim

end JsonImporting

/-! ## The round trip -/

/-- Events of a database of verified events do not touch each other. -/
theorem VerifiedStoreInv.independent [Zstd] {db : Db} (h : VerifiedStoreInv cfg db)
    (hmem : ∀ p ∈ E, ∃ levId, (levId, p.1) ∈ db.event.rows) (hids : (E.map fun p => p.1.id).Nodup) :
    Independent E := by
  have hrow : ∀ p ∈ E, ∀ q ∈ E, ∀ lev lev' : Nat, (lev, p.1) = (lev', q.1) → p = q := by
    intro p hp q hq lev lev' heq
    have hview : p.1 = q.1 := congrArg Prod.snd heq
    have hid : p.1.id = q.1.id := by rw [hview]
    exact List.inj_on_of_nodup_map hids hp hq hid
  refine ⟨fun p hp => ?_, hids, fun p hp q hq hs => ?_, fun p hp q hq hn => ?_, ?_⟩
  · obtain ⟨lev, hv⟩ := hmem p hp
    exact h.packed _ hv
  · obtain ⟨lev, hv⟩ := hmem p hp
    obtain ⟨lev', hv'⟩ := hmem q hq
    exact hrow p hp q hq lev lev' (h.addresses _ hv _ hv' hs)
  · obtain ⟨lev, hv⟩ := hmem p hp
    obtain ⟨lev', hv'⟩ := hmem q hq
    exact hrow p hp q hq lev lev' (h.names _ hv _ hv' hn)
  · -- as many events as levIds at most
    have hsub : (E.map fun p => p.1.id) ⊆ db.event.rows.map fun r => r.2.id := by
      intro x hx
      obtain ⟨p, hp, rfl⟩ := List.mem_map.mp hx
      obtain ⟨lev, hv⟩ := hmem p hp
      exact List.mem_map.mpr ⟨_, hv, rfl⟩
    have hle := (hids.subperm hsub).length_le
    rw [List.length_map, List.length_map] at hle
    exact Nat.lt_of_le_of_lt (hle.trans db.event.length_rows_le) h.fit

/-- The rows of a range of times. -/
def rowsInRange (db : Db) (since until_ : Nat) : List (Nat × PackedEventView) :=
  db.event.rows.filter fun r => since ≤ r.2.createdAt ∧ r.2.createdAt ≤ until_

/-- As many events as rows. -/
theorem VerifiedStoreInv.length_eq [Zstd] (hz : Zstd.Lawful) {db : Db} (h : VerifiedStoreInv cfg db) {since until_ : Nat}
    (hmem : ∀ p, p ∈ E ↔ p ∈ inRange cfg db since until_) (hids : (E.map fun p => p.1.id).Nodup) :
    E.length = (rowsInRange db since until_).length := by
  have hrows : ((rowsInRange db since until_).map fun r => r.2.id).Nodup := by
    refine List.Nodup.map_on (fun r hr r' hr' hid => ?_) (List.Nodup.filter _ (.of_map Prod.fst db.event.keys_nodup))
    exact h.ids r (List.mem_filter.mp hr).1 r' (List.mem_filter.mp hr').1 hid
  have hperm : (E.map fun p => p.1.id).Perm ((rowsInRange db since until_).map fun r => r.2.id) := by
    refine (List.perm_ext_iff_of_nodup hids hrows).mpr fun x => ?_
    rw [List.mem_map, List.mem_map]
    constructor
    · rintro ⟨p, hp, rfl⟩
      obtain ⟨lev, hv, -, hrange⟩ := (hmem p).mp hp
      exact ⟨_, List.mem_filter.mpr ⟨hv, by simpa using hrange⟩, rfl⟩
    · rintro ⟨r, hr, rfl⟩
      obtain ⟨hr, hrange⟩ := List.mem_filter.mp hr
      obtain ⟨json, htexts⟩ := h.texts
      obtain ⟨text, hread, -⟩ := htexts.serves hz r hr
      exact ⟨(r.2, text), (hmem _).mpr ⟨r.1, hr, hread, by simpa using hrange⟩, rfl⟩
  simpa using hperm.length_eq

end

end Strfry
