import Strfry.DBScan
import Mathlib.Data.Finset.Card

/-!
# Queries

`DBQuery` answers the filters of a subscription one after the other, each with a
`DBScan`.  `process` can come back before it is complete, when `doPause` says so at the
head of the scan's loop, and go on at the next call.

One call is a run of `process` along a list of answers, one for each time the loop head
asks `doPause`; the code's own answer is `timePause`, which looks at the clock once in
2000 units of work.  What a call makes visible is the list of its calls of `handleEvent`
and of `cb`.
-/

namespace Strfry

structure DBQuery where
  sub : Subscription
  scanner : Option DBScan := none
  filterGroupIndex : Nat := 0
  /-- external flag -/
  dead : Bool := false
  sentEventsFull : Finset Nat := ∅
  sentEventsCurr : Finset Nat := ∅
  lastWorkChecked : Nat := 0

namespace DBQuery

/-- What a query calls: the scan's `handleEvent` for one filter, and the caller's `cb`. -/
inductive Call where
  | handleEvent (filterGroupIndex levId : Nat)
  | cb (levId : Nat)
deriving DecidableEq, Repr

/-- The arguments of `cb`, in order. -/
def sent (out : List Call) : List Nat :=
  out.filterMap fun
    | .cb levId => some levId
    | .handleEvent _ _ => none

/-- The arguments of `handleEvent` for one filter, in order. -/
def handledBy (i : Nat) (out : List Call) : List Nat :=
  out.filterMap fun
    | .cb _ => none
    | .handleEvent j levId => if j = i then some levId else none

/-- An answer of `doPause`, from the work done and `lastWorkChecked`. -/
abbrev Pause := Nat → Nat → Bool × Nat

/-- The `doPause` of `process`; `overBudget` is what the clock says. -/
def timePause (overBudget : Bool) : Pause := fun approxWork lastWorkChecked =>
  if approxWork > lastWorkChecked + 2000 then (overBudget, approxWork) else (false, lastWorkChecked)

/-- The query while its scanner runs, and what was called so far. -/
abbrev State := DBQuery × List Call

/-- Send the event unless an earlier filter sent it. -/
def send (levId : Nat) (st : State) : State :=
  if levId ∈ st.1.sentEventsFull then st
  else ({ st.1 with sentEventsFull := insert levId st.1.sentEventsFull }, st.2 ++ [.cb levId])

/-- The `handleEvent` of `process`. -/
def handleEvent (f : NostrFilter) (levId : Nat) (st : State) : Bool × State :=
  let st : State := (st.1, st.2 ++ [.handleEvent st.1.filterGroupIndex levId])
  if f.limit = 0 then (true, st)
  -- this event came in after our query began
  else if levId > st.1.sub.latestEventId then (false, st)
  else
    let st := send levId st
    let curr := insert levId st.1.sentEventsCurr
    (curr.card ≥ f.limit, ({ st.1 with sentEventsCurr := curr }, st.2))

def doPause (pause : Pause) (approxWork : Nat) (st : State) : Bool × State :=
  let r := pause approxWork st.1.lastWorkChecked
  (r.1, ({ st.1 with lastWorkChecked := r.2 }, st.2))

/-- How far a call of `process` got: it may need more answers of `doPause`. -/
inductive Outcome where
  | running
  | returned (complete : Bool) (st : State)
  | undefined

/-- One call of `process`. -/
def process [StdSort] (txn : Db) : List Pause → State → Outcome
  | pauses, st =>
    match st.1.sub.filterGroup.filters[st.1.filterGroupIndex]? with
    | none => .returned true st
    | some f =>
      match pauses with
      | [] => .running
      | pause :: pauses =>
        let scanner := st.1.scanner.getD (DBScan.new f)
        match scanner.scanStep txn (handleEvent f) (doPause pause) st with
        | .undefined => .undefined
        | .again s st => process txn pauses ({ st.1 with scanner := some s }, st.2)
        | .returned false s st => .returned false ({ st.1 with scanner := some s }, st.2)
        | .returned true _ st =>
          process txn pauses ({ st.1 with
            scanner := none
            filterGroupIndex := st.1.filterGroupIndex + 1
            sentEventsCurr := ∅ }, st.2)

/-- The states a query is in after calls of `process` on one snapshot; `complete` is what the
last call returned. -/
inductive Calls [StdSort] (txn : Db) (sub : Subscription) : Bool → State → Prop
  | start : Calls txn sub false ({ sub := sub }, [])
  | call (pauses : List Pause) (st st' : State) (complete : Bool) : Calls txn sub false st →
      process txn pauses st = .returned complete st' → Calls txn sub complete st'

end DBQuery

end Strfry
