import Strfry.NegentropyFilterCache

/-!
# Writing and deleting events

`writeEvents` (`events_write.cpp`) and `deleteEvents` (`events.h`).  A batch is sorted by
(created_at, id) and its events are written one after the other (`writeEvent`).  An event
that is stored already, that a stored kind-5 event names, or that a newer event of its
address is stored for is not written.  Otherwise it is inserted, and then what it replaces
or deletes is taken out.
-/

namespace Strfry

inductive EventWriteStatus where
  | pending
  | written
  | duplicate
  | replaced
  | deleted
deriving DecidableEq, Repr

structure EventToWrite where
  packedStr : Bytes
  jsonStr : Bytes
  connId : Nat := 0
  status : EventWriteStatus := .pending
  levId : Nat := 0

/-- `lookupEventByLevId`. -/
def Db.lookupEventByLevId (db : Db) (levId : Nat) : Except Err PackedEventView :=
  match db.event.lookup levId with
  | none => .error (.herr "unable to lookup event by levId")
  | some v => .ok v

/-- `deleteEventBasic`, and whether there was a payload. -/
def deleteEventBasic (db : Db) (levId : Nat) : Db × Bool :=
  ({ db with eventPayload := db.eventPayload.delete levId, event := db.event.delete levId },
    (db.eventPayload.lookup levId).isSome)

/-- Whether `packed` supersedes `other`: newer, or as old with a smaller id. -/
def supersedes (packed other : PackedEventView) : Bool :=
  other.createdAt < packed.createdAt ||
    (other.createdAt == packed.createdAt && packed.id < other.id)

/-- `checkReplaceable`: the status when the event loses, and the event to delete when it wins. -/
def checkReplaceable (txn : Db) (packed : PackedEventView) :
    Except Err (Option EventWriteStatus × List Nat) :=
  let replace := if isReplaceableKind packed.kind || isParamReplaceableKind packed.kind then
    firstD packed else none
  match replace with
  | none => .ok (none, [])
  | some replace =>
    let searchStr := packed.pubkey ++ replace
    match txn.foreachDown .replace (makeKeyStringUint64 searchStr packed.kind) maxU64 with
    | [] => .ok (none, [])
    | (k, v) :: _ =>
      let parsedKey := ParsedKeyStringUint64.parse k
      if parsedKey.s = searchStr ∧ parsedKey.n = packed.kind then do
        let other ← txn.lookupEventByLevId v
        return if supersedes packed other then (none, [v]) else (some .replaced, [])
      else .ok (none, [])

/-- `collectDeletionTargets`. -/
def collectDeletionTargets (txn : Db) (packed : PackedEventView) : List Nat :=
  packed.tags.filterMap fun t =>
    if t.1 = tagE then
      match txn.lookupEventById t.2 with
      | some (levId, other) => if other.pubkey = packed.pubkey then some levId else none
      | none => none
    else none

/-- `insert_Event`, and the payload under the new levId. -/
def insertEvent (db : Db) (packed : PackedEventView) (jsonStr : Bytes) : Db :=
  { db with
    event := db.event.insertNext packed
    eventPayload := db.eventPayload.put (db.event.lastId + 1) (Nat.succ_pos _) (0 :: jsonStr) }

section
variable (cache : NegentropyFilterCache)

/-- Delete an event, unless it is gone already. -/
def deleteEvent (db : Db) (levId : Nat) : Db :=
  match db.event.lookup levId with
  | none => db
  | some v => (deleteEventBasic (cache.update db v false) levId).1

/-- One turn of `writeEvents`.  `levIdsToDelete` is empty at its start, since the turn before
would have thrown otherwise. -/
def writeEvent (db : Db) (prevId : Option Bytes) (ev : EventToWrite) (packed : PackedEventView) :
    Except Err (Db × EventToWrite) :=
  if db.eventExistsById packed.id || prevId == some packed.id then
    .ok (db, { ev with status := .duplicate })
  else if db.lookupDeletion (packed.id ++ packed.pubkey) then
    .ok (db, { ev with status := .deleted })
  else do
    let (replaceResult, replaced) ← checkReplaceable db packed
    let status := replaceResult.getD ev.status
    let targets := if isDeletionKind packed.kind then collectDeletionTargets db packed else []
    let levIdsToDelete := replaced ++ targets
    if status = .pending then
      let db' := cache.update (insertEvent db packed ev.jsonStr) packed true
      -- deletions happen after the event was written, so that levIds are not reused
      return (levIdsToDelete.foldl (deleteEvent cache) db',
        { ev with status := .written, levId := db.event.lastId + 1 })
    else
      let _ ← throwIf (levIdsToDelete ≠ []) (.herr "unprocessed deletion")
      return (db, { ev with status := status })

/-- The loop of `writeEvents`. -/
def writeLoop : Db → Option Bytes → List (EventToWrite × PackedEventView) →
    Except Err (Db × List EventToWrite)
  | db, _, [] => .ok (db, [])
  | db, prevId, (ev, packed) :: rest => do
    let (db, ev) ← writeEvent cache db prevId ev packed
    let (db, evs) ← writeLoop db (some packed.id) rest
    return (db, ev :: evs)

end

/-- The comparison of the batch. -/
def batchLt (a b : EventToWrite × PackedEventView) : Bool :=
  if a.2.createdAt = b.2.createdAt then a.2.id < b.2.id else a.2.createdAt < b.2.createdAt

/-- The events of a batch with their views, which the comparison makes first. -/
def viewBatch (evs : List EventToWrite) : Except Err (List (EventToWrite × PackedEventView)) :=
  evs.mapM fun ev => (PackedEventView.ofBytes ev.packedStr).map fun packed => (ev, packed)

def writeEvents [Golpe] [TaoJson] [StdSort] (txn : Db) (neFilterCache : NegentropyFilterCache)
    (evs : List EventToWrite) : Except Err (Db × NegentropyFilterCache × List EventToWrite) := do
  let evs ← viewBatch evs
  let cache ← neFilterCache.freshenCache txn
  let (db, evs) ← writeLoop cache txn none (StdSort.sort batchLt evs)
  return (db, cache, evs)

/-- `deleteEvents`, with the number deleted. -/
def deleteEvents [Golpe] [TaoJson] (txn : Db) (neFilterCache : NegentropyFilterCache)
    (levIds : List Nat) : Except Err (Db × NegentropyFilterCache × Nat) := do
  let cache ← neFilterCache.freshenCache txn
  let st := levIds.foldl (fun (st : Db × Nat) levId =>
    match st.1.event.lookup levId with
    | none => st
    | some v =>
      let r := deleteEventBasic (cache.update st.1 v false) levId
      (r.1, st.2 + if r.2 then 1 else 0)) (txn, 0)
  return (st.1, cache, st.2)

end Strfry
