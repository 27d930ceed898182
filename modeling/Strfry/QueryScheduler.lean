import Strfry.DBQuery
import Strfry.Lib.Nested

/-!
# Query scheduler

`QueryScheduler` (`QueryScheduler.h`) runs the queries of many connections in slices.  A
query lives at an address from `addSub` until `process` frees it; `conns` names the
queries that are not dead, and `running` is the queue of all of them.  A query that is
removed is only marked dead and freed when its turn comes.

`process` takes the front query, runs it until it pauses, and says what was called back
(`Ran`): the events, which `onEvent` gets one by one and `onEventBatch` together, and the
number for `onComplete` when the query is complete.

The address of a new query is chosen by the allocator: it is an argument of `addSub`.
-/

namespace Strfry

structure QueryScheduler where
  /-- connId -> subId -> address of the DBQuery -/
  conns : Nested Nat SubId Nat := .empty
  heap : Assoc Nat DBQuery := .empty
  running : List Nat := []

namespace QueryScheduler

def findQuery (s : QueryScheduler) (connId : Nat) (subId : SubId) : Option Nat := s.conns.find connId subId

/-- `query->dead = true`. -/
def kill (heap : Assoc Nat DBQuery) (p : Nat) : Assoc Nat DBQuery :=
  match heap.find? p with
  | none => heap
  | some q => heap.set p { q with dead := true }

def removeSub (s : QueryScheduler) (connId : Nat) (subId : SubId) : QueryScheduler :=
  match s.findQuery connId subId with
  | none => s
  | some p => { s with heap := kill s.heap p, conns := s.conns.eraseAt connId subId }

def closeConn (s : QueryScheduler) (connId : Nat) : QueryScheduler :=
  match s.conns.find? connId with
  | none => s
  | some connQueries => { s with
      heap := connQueries.entries.foldl (fun heap e => kill heap e.2) s.heap
      conns := s.conns.erase connId }

/-- `addSub`; the new query is put at address `p`. -/
def addSub (cfg : Cfg) (txn : Db) (s : QueryScheduler) (sub : Subscription) (p : Nat) :
    Bool × QueryScheduler :=
  let sub := { sub with latestEventId := txn.getMostRecentLevId }
  let s := s.removeSub sub.connId sub.subId
  let conns := s.conns.tryEmplace sub.connId .empty
  if (Nested.row conns sub.connId).size ≥ cfg.relayMaxSubsPerConnection then
    (false, { s with conns := conns })
  else
    (true, { conns := s.conns.emplaceAt sub.connId sub.subId p
             heap := s.heap.tryEmplace p { sub := sub }
             running := p :: s.running })

/-- What a slice called back. -/
structure Ran where
  sub : Subscription
  levIds : List Nat
  total : Option Nat

/-- `process`, along answers of the query's `doPause`; `ensureExists` leaves out the events whose
payload is gone. -/
def process [StdSort] (ensureExists : Bool) (txn : Db) (pauses : List DBQuery.Pause)
    (s : QueryScheduler) : Except Err (QueryScheduler × Option Ran) :=
  match s.running with
  | [] => .ok (s, none)
  | p :: rest =>
    match s.heap.find? p with
    | none => .error .undefined
    | some q =>
      if q.dead then .ok ({ s with heap := s.heap.erase p, running := rest }, none)
      else match DBQuery.process txn pauses (q, []) with
        | .returned complete (q, out) =>
          let levIds := (DBQuery.sent out).filter fun levId =>
            !ensureExists || (txn.eventPayload.lookup levId).isSome
          if complete then
            let s := { s with heap := s.heap.set p q }.removeSub q.sub.connId q.sub.subId
            .ok ({ s with heap := s.heap.erase p, running := rest },
              some ⟨q.sub, levIds, some q.sentEventsFull.card⟩)
          else .ok ({ s with heap := s.heap.set p q, running := rest ++ [p] }, some ⟨q.sub, levIds, none⟩)
        | _ => .error .undefined

end QueryScheduler

end Strfry
