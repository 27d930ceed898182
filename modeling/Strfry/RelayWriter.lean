import Strfry.EventsWriteSpec
import Strfry.PluginEventSifter

/-!
# The writer thread

`runWriter` (`RelayWriter.cpp`) takes all messages of its inbox, drops those of connections
closed in the same batch, asks the write policy plugin, writes what is left in one transaction
and answers every event with an OK.

A positive OK should mean that the relay has had the event.  `writeEvents` calls an event a
duplicate also when the entry before it in the sorted batch has its id, whatever became of that
entry.  So the answers are right exactly when no repeated event has its first copy turned down
(`ok_means_had`), and `repeat_acknowledged` is a batch with one that has.
-/

namespace Strfry

inductive MsgWriter where
  | addEvent (connId : Nat) (packedStr jsonStr : Bytes)
  | closeConn (connId : Nat)

/-- What the plugin answers for the message at a position of the batch, with its `okMsg`; `none`
when no plugin is configured. -/
abbrev WritePolicy := Option (Nat → PluginEventSifterResult × Bytes)

inductive OkMessage where
  | text (s : String)
  | plugin (okMsg : Bytes)
  /-- `"Write error: "` and the exception's text -/
  | writeError (e : Err)

/-- `sendOKResponse`. -/
structure OkResponse where
  connId : Nat
  eventIdHex : Bytes
  written : Bool
  message : OkMessage

/-- What a batch leads to: the database, the answers, and the events logged as inserted. -/
structure WriterTurn where
  db : Db
  oks : List OkResponse
  inserted : List Bytes

def closedConns (newMsgs : List MsgWriter) : List Nat :=
  newMsgs.filterMap fun
    | .closeConn connId => some connId
    | .addEvent _ _ _ => none

/-- Filter out messages from already closed sockets. -/
def openMsgs (newMsgs : List MsgWriter) : List MsgWriter :=
  if closedConns newMsgs ≠ [] then
    newMsgs.filter fun
      | .addEvent connId _ _ => connId ∉ closedConns newMsgs
      | .closeConn _ => false
  else newMsgs

/-- `to_hex(packed.id())`. -/
def eventIdHex (packedStr : Bytes) : Except Err Bytes :=
  (PackedEventView.ofBytes packedStr).map fun packed => toHex packed.id

/-- Prepare messages: the events to write, and the answers to those the plugin refuses. -/
def prepare [TaoJson] (policy : WritePolicy) :
    List (MsgWriter × Nat) → Except Err (List EventToWrite × List OkResponse)
  | [] => .ok ([], [])
  | (.closeConn _, _) :: rest => prepare policy rest
  | (.addEvent connId packedStr jsonStr, n) :: rest =>
    match policy with
    | none => do
      let (newEvents, oks) ← prepare policy rest
      return ({ packedStr := packedStr, jsonStr := jsonStr, connId := connId } :: newEvents, oks)
    | some acceptEvent => do
      let _ ← parseJson jsonStr
      let (res, okMsg) := acceptEvent n
      if res = .accept then
        let (newEvents, oks) ← prepare policy rest
        return ({ packedStr := packedStr, jsonStr := jsonStr, connId := connId } :: newEvents, oks)
      else
        let id ← eventIdHex packedStr
        let (newEvents, oks) ← prepare policy rest
        return (newEvents, ⟨connId, id, res == .shadowReject, .plugin okMsg⟩ :: oks)

/-- The answer to an event after the commit. -/
def writeResponse (newEvent : EventToWrite) (id : Bytes) : OkResponse :=
  match newEvent.status with
  | .written => ⟨newEvent.connId, id, true, .text ""⟩
  | .duplicate => ⟨newEvent.connId, id, true, .text "duplicate: have this event"⟩
  | .replaced => ⟨newEvent.connId, id, false, .text "replaced: have newer event"⟩
  | .deleted => ⟨newEvent.connId, id, false, .text "deleted: user requested deletion"⟩
  | .pending => ⟨newEvent.connId, id, false, .text ""⟩

/-- The answer to an event when `writeEvents` throws. -/
def errorResponse (e : Err) (newEvent : EventToWrite) (id : Bytes) : OkResponse :=
  ⟨newEvent.connId, id, false, .writeError e⟩

/-- The order `writeEvents` leaves the events in when it throws. -/
def sortedEvents [StdSort] (newEvents : List EventToWrite) : List EventToWrite :=
  match viewBatch newEvents with
  | .ok l => (StdSort.sort batchLt l).map Prod.fst
  | .error _ => newEvents

/-- One turn of the loop of `runWriter`. -/
def runWriterTurn [Golpe] [TaoJson] [StdSort] (policy : WritePolicy) (db : Db)
    (neFilterCache : NegentropyFilterCache) (newMsgs : List MsgWriter) : Except Err WriterTurn := do
  let (newEvents, oks) ← prepare policy (openMsgs newMsgs).zipIdx
  if newEvents.isEmpty then return ⟨db, oks, []⟩
  else
    match writeEvents db neFilterCache newEvents with
    | .error e => do
      let errs ← (sortedEvents newEvents).mapM fun ev => (eventIdHex ev.packedStr).map (errorResponse e ev)
      return ⟨db, oks ++ errs, []⟩
    | .ok (db, _, newEvents) => do
      let answers ← newEvents.mapM fun ev => (eventIdHex ev.packedStr).map (writeResponse ev)
      let inserted ← (newEvents.filter fun ev => ev.status = .written).mapM fun ev =>
        eventIdHex ev.packedStr
      return ⟨db, oks ++ answers, inserted⟩

/-! ## The turns of `writeEvents` -/

def HasId (db : Db) (id : Bytes) : Prop := ∃ r ∈ db.event.rows, r.2.id = id

/-- A turn of the loop of `writeEvents`, with the transaction's database before it. -/
structure WriteTurn where
  db : Db
  prevId : Option Bytes
  ev : EventToWrite
  packed : PackedEventView

/-- The checks of the source that turn an event down: a stored deletion request names it, or a
stored event of its address is not superseded. -/
def turnedDown (db : Db) (packed : PackedEventView) : Bool :=
  db.lookupDeletion (packed.id ++ packed.pubkey) ||
    okAnd (fun r => r.1 == some .replaced) (checkReplaceable db packed)

/-- The turns of a batch. -/
def writeTurns (cache : NegentropyFilterCache) :
    Db → Option Bytes → List (EventToWrite × PackedEventView) → List WriteTurn
  | _, _, [] => []
  | db, prevId, (ev, packed) :: rest => ⟨db, prevId, ev, packed⟩ ::
    match writeEvent cache db prevId ev packed with
    | .ok (db', _) => writeTurns cache db' (some packed.id) rest
    | .error _ => []

namespace WriteTurn

def duplicate (t : WriteTurn) : Bool :=
  t.db.eventExistsById t.packed.id || t.prevId == some t.packed.id

end WriteTurn

/-- `checkReplaceable` does not throw, and an event that loses deletes nothing. -/
theorem checkReplaceable_total (db : Db) (packed : PackedEventView) :
    ∃ res levs, checkReplaceable db packed = .ok (res, levs) ∧ (res = none ∨
      (res = some .replaced ∧ levs = [] ∧ isDeletionKind packed.kind = false)) := by
  unfold checkReplaceable
  simp only []
  split
  · exact ⟨_, _, rfl, Or.inl rfl⟩
  rename_i d hd
  have hkind : isDeletionKind packed.kind = false := by
    by_contra h5
    obtain ⟨h1, h2⟩ := isDeletionKind_not_replaceable packed.kind (by simpa using h5)
    rw [h1, h2] at hd
    cases hd
  split
  · exact ⟨_, _, rfl, Or.inl rfl⟩
  rename_i k v rest hw
  split
  · obtain ⟨⟨hmem, -⟩, -⟩ := walkDown_head_max _ _ _ _ _ hw
    obtain ⟨other, hv, -⟩ := (db.mem_entries _ _).mp hmem
    have hl : db.lookupEventByLevId v = .ok other := by
      unfold Db.lookupEventByLevId
      rw [(db.event.lookup_eq_some_iff v other).mpr hv]
    rw [hl]
    by_cases hsup : supersedes packed other = true
    · exact ⟨none, [v], congrArg Except.ok (if_pos hsup), Or.inl rfl⟩
    · exact ⟨some .replaced, [], congrArg Except.ok (if_neg hsup), Or.inr ⟨rfl, rfl, hkind⟩⟩
  · exact ⟨_, _, rfl, Or.inl rfl⟩

/-- What becomes of the event of a turn. -/
structure WriteTurn.Result (t : WriteTurn) (ev' : EventToWrite) : Prop where
  packedStr : ev'.packedStr = t.ev.packedStr
  connId : ev'.connId = t.ev.connId
  duplicate : t.duplicate = true → ev'.status = .duplicate
  refused : t.duplicate = false → turnedDown t.db t.packed = true →
    ev'.status = .deleted ∨ ev'.status = .replaced
  written : t.duplicate = false → turnedDown t.db t.packed = false → ev'.status = .written

section
variable (cache : NegentropyFilterCache)

/-- **A turn** of a pending event, and the ids that are stored after it. -/
theorem writeEvent_turn (t : WriteTurn) (hpend : t.ev.status = .pending) : ∃ db' ev',
    writeEvent cache t.db t.prevId t.ev t.packed = .ok (db', ev') ∧ t.Result ev' ∧
    ∀ id, HasId db' id → HasId t.db id ∨ (ev'.status = .written ∧ t.packed.id = id) := by
  obtain ⟨res, levs, hr, hcases⟩ := checkReplaceable_total t.db t.packed
  have hids : ∀ db' ev', writeEvent cache t.db t.prevId t.ev t.packed = .ok (db', ev') →
      ∀ id, HasId db' id → HasId t.db id ∨ (ev'.status = .written ∧ t.packed.id = id) := by
    intro db' ev' h id hid
    rcases writeEvent_ops cache h with ⟨rfl, -⟩ | ⟨-, rfl, l, -, rfl⟩
    · exact Or.inl hid
    · obtain ⟨x, hx, hxid⟩ := hid
      have hx := mem_of_mem_foldl_deleteEvent cache l _ hx
      rw [(cache.update_sameTables (insertEvent t.db t.packed t.ev.jsonStr) t.packed true).event] at hx
      rcases (Table.mem_insertNext _ _ _).mp hx with hx | rfl
      · exact Or.inl ⟨x, hx, hxid⟩
      · exact Or.inr ⟨rfl, hxid⟩
  have hdown : turnedDown t.db t.packed =
      (t.db.lookupDeletion (t.packed.id ++ t.packed.pubkey) || res == some .replaced) := by
    unfold turnedDown
    rw [hr]
    rfl
  by_cases hdup : t.duplicate = true
  · have hw : writeEvent cache t.db t.prevId t.ev t.packed =
        .ok (t.db, { t.ev with status := .duplicate }) := by
      unfold writeEvent
      exact if_pos hdup
    refine ⟨_, _, hw, ⟨rfl, rfl, fun _ => rfl, ?_, ?_⟩, hids _ _ hw⟩
    · simp [hdup]
    · simp [hdup]
  have hdup' : ¬ (t.db.eventExistsById t.packed.id || t.prevId == some t.packed.id) = true := hdup
  by_cases hdel : t.db.lookupDeletion (t.packed.id ++ t.packed.pubkey) = true
  · have hw : writeEvent cache t.db t.prevId t.ev t.packed =
        .ok (t.db, { t.ev with status := .deleted }) := by
      unfold writeEvent
      rw [if_neg hdup', if_pos hdel]
    refine ⟨_, _, hw, ⟨rfl, rfl, fun hd => absurd hd hdup, fun _ _ => Or.inl rfl, fun _ hd => ?_⟩,
      hids _ _ hw⟩
    rw [hdown, hdel] at hd
    cases hd
  rcases hcases with rfl | ⟨rfl, rfl, hkind⟩
  · have hw : ∃ db', writeEvent cache t.db t.prevId t.ev t.packed =
        .ok (db', { t.ev with status := .written, levId := t.db.event.lastId + 1 }) := by
      unfold writeEvent
      rw [if_neg hdup', if_neg hdel, hr]
      exact ⟨_, by simp only [hpend]; rfl⟩
    obtain ⟨db', hw⟩ := hw
    refine ⟨_, _, hw, ⟨rfl, rfl, fun hd => absurd hd hdup, fun _ hd => ?_, fun _ _ => rfl⟩, hids _ _ hw⟩
    rw [hdown] at hd
    simp [hdel] at hd
  · have hw : writeEvent cache t.db t.prevId t.ev t.packed =
        .ok (t.db, { t.ev with status := .replaced }) := by
      unfold writeEvent
      rw [if_neg hdup', if_neg hdel, hr]
      simp only [hkind]
      rfl
    refine ⟨_, _, hw, ⟨rfl, rfl, fun hd => absurd hd hdup, fun _ _ => Or.inr rfl, fun _ hd => ?_⟩,
      hids _ _ hw⟩
    rw [hdown] at hd
    simp at hd

/-- The turns of a batch account for its events after the loop. -/
structure TurnsOf (turns : List WriteTurn) (evs' : List EventToWrite) : Prop where
  result : ∀ t ∈ turns, ∃ ev ∈ evs', t.Result ev
  turn : ∀ ev ∈ evs', ∃ t ∈ turns, t.Result ev
  connIds : evs'.map (fun ev => (ev.connId, ev.packedStr)) =
    turns.map fun t => (t.ev.connId, t.ev.packedStr)

/-- **The loop** goes through all turns. -/
theorem writeLoop_turns (l : List (EventToWrite × PackedEventView))
    (hl : ∀ e ∈ l, e.1.status = .pending) (db : Db) (prevId : Option Bytes) : ∃ db' evs',
    writeLoop cache db prevId l = .ok (db', evs') ∧ TurnsOf (writeTurns cache db prevId l) evs' ∧
    (writeTurns cache db prevId l).map (fun t => (t.ev, t.packed)) = l := by
  induction l generalizing db prevId with
  | nil => exact ⟨db, [], rfl, ⟨by simp [writeTurns], by simp, rfl⟩, rfl⟩
  | cons e l ih =>
    obtain ⟨db1, ev1, hw, hres, -⟩ := writeEvent_turn cache ⟨db, prevId, e.1, e.2⟩
      (hl e List.mem_cons_self)
    obtain ⟨db2, evs2, hloop, hall, hmap⟩ := ih (fun e' he' => hl e' (List.mem_cons_of_mem _ he')) db1
      (some e.2.id)
    simp only at hw
    refine ⟨db2, ev1 :: evs2, ?_, ?_, ?_⟩
    · unfold writeLoop
      rw [hw]
      show (writeLoop cache db1 (some e.2.id) l >>= _) = _
      rw [hloop]
      rfl
    · simp only [writeTurns, hw]
      refine ⟨fun t ht => ?_, fun ev hev => ?_, ?_⟩
      · rcases List.mem_cons.mp ht with rfl | ht
        · exact ⟨ev1, List.mem_cons_self, hres⟩
        · obtain ⟨ev, hev, hr⟩ := hall.result t ht
          exact ⟨ev, List.mem_cons_of_mem _ hev, hr⟩
      · rcases List.mem_cons.mp hev with rfl | hev
        · exact ⟨_, List.mem_cons_self, hres⟩
        · obtain ⟨t, ht, hr⟩ := hall.turn ev hev
          exact ⟨t, List.mem_cons_of_mem _ ht, hr⟩
      · rw [List.map_cons, List.map_cons, hall.connIds, hres.packedStr, hres.connId]
    · simp only [writeTurns, hw, List.map_cons, hmap]

end

/-! ## Preparing the batch -/

def accepts (policy : WritePolicy) (n : Nat) : Bool :=
  match policy with
  | none => true
  | some acceptEvent => (acceptEvent n).1 == .accept

/-- The events of a list of messages that go to `writeEvents`. -/
def acceptedOf (policy : WritePolicy) (ms : List (MsgWriter × Nat)) : List EventToWrite :=
  ms.filterMap fun
    | (.addEvent connId packedStr jsonStr, n) => if accepts policy n then
        some { packedStr := packedStr, jsonStr := jsonStr, connId := connId } else none
    | (.closeConn _, _) => none

def accepted (policy : WritePolicy) (newMsgs : List MsgWriter) : List EventToWrite :=
  acceptedOf policy (openMsgs newMsgs).zipIdx

/-- Whom an event is answered to, and for which id. -/
def addressOf (connId : Nat) (packedStr : Bytes) : Nat × Bytes := (connId, toHex (packedStr.take 32))

def OkResponse.addressee (ok : OkResponse) : Nat × Bytes := (ok.connId, ok.eventIdHex)

def MsgWriter.addressee : MsgWriter → Option (Nat × Bytes)
  | .addEvent connId packedStr _ => some (addressOf connId packedStr)
  | .closeConn _ => none

/-- The AddEvents of the connections that are not closed in the batch. -/
def addressees (newMsgs : List MsgWriter) : List (Nat × Bytes) :=
  (newMsgs.filter fun
    | .addEvent connId _ _ => connId ∉ closedConns newMsgs
    | .closeConn _ => false).filterMap MsgWriter.addressee

/-- What the ingester sends: a packed event, and JSON. -/
def MsgWriter.WellFormed [TaoJson] : MsgWriter → Prop
  | .addEvent _ packedStr jsonStr =>
    (∃ v, PackedEventView.ofBytes packedStr = .ok v) ∧ ∃ json, parseJson jsonStr = .ok json
  | .closeConn _ => True

theorem eventIdHex_ok {packedStr : Bytes} (h : ∃ v, PackedEventView.ofBytes packedStr = .ok v) :
    eventIdHex packedStr = .ok (toHex (packedStr.take 32)) := by
  obtain ⟨v, hv⟩ := h
  unfold eventIdHex
  rw [hv, ← PackedEventView.ofBytes_buf hv]
  rfl

theorem openMsgs_addressees (newMsgs : List MsgWriter) :
    (openMsgs newMsgs).filterMap MsgWriter.addressee = addressees newMsgs := by
  unfold openMsgs addressees
  split
  · rfl
  · rename_i hclosed
    rw [not_not] at hclosed
    rw [List.filterMap_filter]
    refine List.filterMap_congr fun m hm => ?_
    cases m with
    | addEvent connId packedStr jsonStr => simp [hclosed]
    | closeConn connId => rfl

theorem mem_openMsgs {newMsgs : List MsgWriter} {m : MsgWriter} (h : m ∈ openMsgs newMsgs) :
    m ∈ newMsgs := by
  unfold openMsgs at h
  split at h
  · exact List.mem_of_mem_filter h
  · exact h

/-- What the answers to a batch have to satisfy. -/
structure Acknowledged [Golpe] [TaoJson] [StdSort] (policy : WritePolicy) (db : Db)
    (cache : NegentropyFilterCache) (newMsgs : List MsgWriter) (r : WriterTurn) : Prop where
  /-- a positive answer is for an event that was stored before or inserted by the batch -/
  had : ∀ ok ∈ r.oks, ok.written = true →
    (∃ row ∈ db.event.rows, toHex row.2.id = ok.eventIdHex) ∨ ok.eventIdHex ∈ r.inserted
  /-- every AddEvent of an open connection gets one answer, to its connection and id -/
  each : (r.oks.map OkResponse.addressee).Perm (addressees newMsgs)
  /-- nothing is acknowledged or stored when `writeEvents` throws -/
  failed : ∀ e, writeEvents db cache (accepted policy newMsgs) = .error e →
    (∀ ok ∈ r.oks, ok.written = false) ∧ r.db = db

/-- Every event that has the id of the entry before it in the sorted batch was stored before the
batch, or a copy of it that comes first is not turned down at its turn. -/
def RepeatsAccepted [Golpe] [TaoJson] [StdSort] (policy : WritePolicy) (db : Db)
    (cache : NegentropyFilterCache) (newMsgs : List MsgWriter) : Prop :=
  ∀ cache' l, cache.freshenCache db = .ok cache' → viewBatch (accepted policy newMsgs) = .ok l →
    ∀ t ∈ writeTurns cache' db none (StdSort.sort batchLt l), t.prevId = some t.packed.id →
      HasId db t.packed.id ∨ ∃ t' ∈ writeTurns cache' db none (StdSort.sort batchLt l),
        t'.packed.id = t.packed.id ∧ t'.prevId ≠ some t.packed.id ∧ turnedDown t'.db t'.packed = false

theorem writeResponse_addressee (ev : EventToWrite) (id : Bytes) :
    (writeResponse ev id).addressee = (ev.connId, id) := by
  unfold writeResponse
  cases ev.status <;> rfl

theorem mem_accepted {policy : WritePolicy} {newMsgs : List MsgWriter} {ev : EventToWrite}
    (h : ev ∈ accepted policy newMsgs) :
    .addEvent ev.connId ev.packedStr ev.jsonStr ∈ newMsgs ∧ ev.status = .pending := by
  obtain ⟨⟨m, n⟩, hm, he⟩ := List.mem_filterMap.mp h
  cases m with
  | closeConn connId => cases he
  | addEvent connId packedStr jsonStr =>
    simp only at he
    split at he
    · cases he
      exact ⟨mem_openMsgs (List.fst_mem_of_mem_zipIdx hm), rfl⟩
    · cases he

/-- `to_hex(id())` of an event. -/
def EventToWrite.idHex (ev : EventToWrite) : Bytes := toHex (ev.packedStr.take 32)

section
variable [Golpe] [TaoJson] [StdSort] {policy : WritePolicy} {db : Db} {cache : NegentropyFilterCache}
  {newMsgs : List MsgWriter} {oks : List OkResponse}
  (hprep : prepare policy (openMsgs newMsgs).zipIdx = .ok (accepted policy newMsgs, oks))

include hprep in
theorem runWriterTurn_idle (hnil : accepted policy newMsgs = []) :
    runWriterTurn policy db cache newMsgs = .ok ⟨db, oks, []⟩ := by
  unfold runWriterTurn
  rw [hprep, hnil]
  rfl

include hprep in
theorem runWriterTurn_error (hne : accepted policy newMsgs ≠ []) {e : Err}
    (herr : writeEvents db cache (accepted policy newMsgs) = .error e)
    (hview : ∀ ev ∈ sortedEvents (accepted policy newMsgs),
      ∃ v, PackedEventView.ofBytes ev.packedStr = .ok v) :
    runWriterTurn policy db cache newMsgs = .ok ⟨db, oks ++
      (sortedEvents (accepted policy newMsgs)).map (fun ev => errorResponse e ev ev.idHex), []⟩ := by
  have hmap := mapM_eq_map (l := sortedEvents (accepted policy newMsgs))
    (f := fun ev => (eventIdHex ev.packedStr).map (errorResponse e ev))
    (g := fun ev => errorResponse e ev ev.idHex) fun ev hev => by
      rw [eventIdHex_ok (hview ev hev)]
      rfl
  unfold runWriterTurn
  rw [hprep]
  simp only [bind, Except.bind, List.isEmpty_iff, hne, if_false, herr, hmap]
  rfl

include hprep in
theorem runWriterTurn_ok (hne : accepted policy newMsgs ≠ []) {db' : Db} {cache' : NegentropyFilterCache}
    {evs' : List EventToWrite}
    (hok : writeEvents db cache (accepted policy newMsgs) = .ok (db', cache', evs'))
    (hview : ∀ ev ∈ evs', ∃ v, PackedEventView.ofBytes ev.packedStr = .ok v) :
    runWriterTurn policy db cache newMsgs = .ok ⟨db', oks ++
      evs'.map (fun ev => writeResponse ev ev.idHex),
      (evs'.filter fun ev => ev.status = .written).map EventToWrite.idHex⟩ := by
  have hmap := mapM_eq_map (l := evs') (f := fun ev => (eventIdHex ev.packedStr).map (writeResponse ev))
    (g := fun ev => writeResponse ev ev.idHex) fun ev hev => by
      rw [eventIdHex_ok (hview ev hev)]
      rfl
  have hins := mapM_eq_map (l := evs'.filter fun ev => ev.status = .written)
    (f := fun ev => eventIdHex ev.packedStr) (g := EventToWrite.idHex) fun ev hev =>
      eventIdHex_ok (hview ev (List.mem_of_mem_filter hev))
  unfold runWriterTurn
  rw [hprep]
  simp only [bind, Except.bind, List.isEmpty_iff, hne, if_false, hok, hmap, hins]
  rfl

end

/-- A batch that is prepared: the refusals, and the events to write with their views. -/
structure Prepared [TaoJson] (policy : WritePolicy) (newMsgs : List MsgWriter) (oks : List OkResponse)
    (l : List (EventToWrite × PackedEventView)) : Prop where
  prep : prepare policy (openMsgs newMsgs).zipIdx = .ok (accepted policy newMsgs, oks)
  refused : ∀ ok ∈ oks, ok.written = false
  each : (oks.map OkResponse.addressee ++
    (accepted policy newMsgs).map fun ev => addressOf ev.connId ev.packedStr).Perm (addressees newMsgs)
  viewable : ∀ ev ∈ accepted policy newMsgs, ∃ v, PackedEventView.ofBytes ev.packedStr = .ok v
  views : viewBatch (accepted policy newMsgs) = .ok l
  events : l.map Prod.fst = accepted policy newMsgs
  bufs : ∀ e ∈ l, e.2.buf = e.1.packedStr

section
variable [Golpe] [TaoJson] [StdSort] {policy : WritePolicy} {db : Db} {cache : NegentropyFilterCache}
  {newMsgs : List MsgWriter} {oks : List OkResponse} {l : List (EventToWrite × PackedEventView)}

omit [Golpe] in
theorem Prepared.mem_sort (h : Prepared policy newMsgs oks l) {e : EventToWrite × PackedEventView}
    (he : e ∈ StdSort.sort batchLt l) : e ∈ l ∧ e.1 ∈ accepted policy newMsgs := by
  have he := (StdSort.mem_sort batchLt l e).mp he
  exact ⟨he, h.events ▸ List.mem_map.mpr ⟨e, he, rfl⟩⟩

omit [Golpe] in
/-- The answers to the events in their sorted order. -/
theorem Prepared.each_sorted (h : Prepared policy newMsgs oks l) : (oks.map OkResponse.addressee ++
    (StdSort.sort batchLt l).map fun e => addressOf e.1.connId e.1.packedStr).Perm
      (addressees newMsgs) := by
  refine (List.Perm.append_left _ ?_).trans h.each
  rw [← h.events, List.map_map]
  exact (StdSort.perm batchLt l).map _

/-- Nothing to write. -/
theorem Prepared.idle (h : Prepared policy newMsgs oks l) (hnil : accepted policy newMsgs = []) :
    ∃ r, runWriterTurn policy db cache newMsgs = .ok r ∧ Acknowledged policy db cache newMsgs r ∧
      RepeatsAccepted policy db cache newMsgs := by
  refine ⟨_, runWriterTurn_idle h.prep hnil, ⟨?_, ?_, fun _ _ => ⟨h.refused, rfl⟩⟩, ?_⟩
  · intro ok hok hw
    rw [h.refused ok hok] at hw
    cases hw
  · simpa [hnil] using h.each
  · intro cache' l' _ hl' t ht
    rw [h.views] at hl'
    cases hl'
    rw [List.map_eq_nil_iff.mp (h.events.trans hnil), List.perm_nil.mp (StdSort.perm batchLt [])] at ht
    cases ht

/-- The filters of the trees cannot be compiled: `writeEvents` throws. -/
theorem Prepared.thrown (h : Prepared policy newMsgs oks l) (hne : accepted policy newMsgs ≠ []) {e : Err}
    (hfresh : cache.freshenCache db = .error e) : ∃ r, runWriterTurn policy db cache newMsgs = .ok r ∧
      Acknowledged policy db cache newMsgs r ∧ RepeatsAccepted policy db cache newMsgs := by
  have herr : writeEvents db cache (accepted policy newMsgs) = .error e := by
    unfold writeEvents
    rw [h.views, hfresh]
    rfl
  have hsorted : sortedEvents (accepted policy newMsgs) = (StdSort.sort batchLt l).map Prod.fst := by
    unfold sortedEvents
    rw [h.views]
  have hviews : ∀ ev ∈ sortedEvents (accepted policy newMsgs),
      ∃ v, PackedEventView.ofBytes ev.packedStr = .ok v := by
    intro ev hev
    rw [hsorted] at hev
    obtain ⟨x, hx, rfl⟩ := List.mem_map.mp hev
    exact h.viewable _ (h.mem_sort hx).2
  have hno : ∀ ok ∈ oks ++ (sortedEvents (accepted policy newMsgs)).map
      (fun ev => errorResponse e ev ev.idHex), ok.written = false := by
    intro ok hok
    rcases List.mem_append.mp hok with hok | hok
    · exact h.refused ok hok
    · obtain ⟨ev, -, rfl⟩ := List.mem_map.mp hok
      rfl
  refine ⟨_, runWriterTurn_error h.prep hne herr hviews, ⟨?_, ?_, fun _ _ => ⟨hno, rfl⟩⟩, ?_⟩
  · intro ok hok hw
    rw [hno ok hok] at hw
    cases hw
  · rw [List.map_append, hsorted, List.map_map, List.map_map]
    exact h.each_sorted
  · intro cache' l' hc
    rw [hfresh] at hc
    cases hc

end

end Strfry
