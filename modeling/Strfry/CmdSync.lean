import Strfry.Json

/-!
# `strfry sync`

The message handler of `cmd_sync.cpp`.  Reconciliation (`NEG-MSG`) fills two vectors:
`haves`, the ids to upload, and `needs`, the ids to download; a set of ids seen keeps an
id from entering its vector twice.  After each message, whatever it was, the handler
uploads while fewer than `highWaterUp` uploads are unanswered, requests the next batch
when none is outstanding, and exits when nothing is left.

A vector is a list with its back first: `push_back` is a cons and `pop_back` the tail.
What the process sends, and what it heard that matters for the order of it, is recorded
in `log`.  The database, the negentropy library and the write policy are the `World` that
a message meets.

`Handled` says what the part of the handler before the uploads can do; what holds over
runs is derived from it.
-/

namespace Strfry

/-- `at(i)` of an array. -/
def Json.atIdx (v : Json) (i : Nat) : Except Err Json :=
  match v with
  | .array l => l[i]?.elim (.error .outOfRange) .ok
  | _ => .error .badVariant

/-- Comparison with a string. -/
def Json.isString (v : Json) (s : String) : Bool :=
  match v with
  | .string t => t == ascii s
  | _ => false

namespace CmdSync

def highWaterUp : Nat := 100

def lowWaterUp : Nat := 50

def batchSizeDown : Nat := 50

/-- The directions of the command line. -/
structure Params where
  doUp : Bool
  doDown : Bool

structure World where
  /-- `ne.reconcile` on the storage of the filter: the answer, what we have, what we need -/
  reconcile : Bytes → Except Err (Option Bytes × List Bytes × List Bytes)
  /-- the JSON of the event with an id -/
  lookupEventById : Bytes → Option Bytes
  /-- whether the write policy accepts -/
  acceptEvent : Json → Except Err Bool

inductive Item where
  | reconciled (currHave currNeed : List Bytes)
  | negMsg (msg : Bytes)
  | negClose
  | ok
  | uploaded (id evJson : Bytes)
  | notFound (id : Bytes)
  | eose
  /-- a `REQ` for these ids -/
  | requested (ids : List Bytes)
  /-- to the writer -/
  | write (evJson : Json)
  | flush

structure State where
  inFlightUp : Nat := 0
  inFlightDown : Bool := false
  haves : List Bytes := []
  needs : List Bytes := []
  seenHave : List Bytes := []
  seenNeed : List Bytes := []
  syncDone : Bool := false
  exited : Option Nat := none
  log : List Item := []

namespace State

def note (s : State) (items : List Item) : State := { s with log := s.log ++ items }

def doExit (p : Params) (s : State) (status : Nat) : State :=
  { s with exited := some status, log := s.log ++ if p.doDown then [.flush] else [] }

end State

/-- The loop over reported ids: those not seen before are pushed. -/
def pushNew : List Bytes → List Bytes → List Bytes → Except Err (List Bytes × List Bytes)
  | vec, seen, [] => .ok (vec, seen)
  | vec, seen, id :: ids =>
    if id.length ≠ 32 then .error (.herr "invalid length for Bytes32")
    else if id ∈ seen then pushNew vec seen ids
    else pushNew (id :: vec) (id :: seen) ids

section
variable [Golpe] (p : Params) (w : World)

/-- What of a `NEG-MSG` goes to the library, and what comes back. -/
def reconcileMsg (msg : Json) : Except Err (Option Bytes × List Bytes × List Bytes) := do
  let inputMsg ← fromHex (← (← msg.atIdx 2).getString)
  w.reconcile inputMsg

/-- `NEG-MSG`.  After a failure the process is gone, and the vectors with it. -/
def onNegMsg (s : State) (msg : Json) : State :=
  match reconcileMsg w msg with
  | .error _ => s.doExit p 1
  | .ok (neMsg, currHave, currNeed) =>
    let s := s.note [.reconciled currHave currNeed]
    match pushNew s.haves s.seenHave currHave, pushNew s.needs s.seenNeed currNeed with
    | .ok (haves, seenHave), .ok (needs, seenNeed) =>
      let s := { s with
        haves := if p.doUp then haves else []
        needs := if p.doDown then needs else []
        seenHave := seenHave
        seenNeed := seenNeed }
      match neMsg with
      | some m => s.note [.negMsg m]
      | none => { s with syncDone := true }.note [.negClose]
    | _, _ => s.doExit p 1

/-- `OK`: the counter is lowered before the rest of the message is looked at. -/
def onOk (s : State) : State := { s with inFlightUp := subU64 s.inFlightUp 1 }.note [.ok]

/-- `EVENT`.  A plugin that throws leaves the event unwritten, as one that refuses. -/
def onEvent (s : State) (msg : Json) : State :=
  match (do
    let arr ← msg.getArray
    let _ ← throwIf (arr.length < 3) (.herr "array too short")
    let evJson ← msg.atIdx 2
    return (evJson, ← w.acceptEvent evJson)) with
  | .ok (evJson, true) => s.note [.write evJson]
  | _ => s

def onEose (s : State) : State := { s with inFlightDown := false }.note [.eose]

/-- The `try` block: which message it is.  An exception leaves the state as it is then. -/
def handleMsg [TaoJson] (s : State) (msgStr : Bytes) : State :=
  match TaoJson.fromString msgStr with
  | none => s
  | some msg =>
    match msg.atIdx 0 with
    | .error _ => s
    | .ok cmd =>
      if cmd.isString "NEG-MSG" then onNegMsg p w s msg
      else if cmd.isString "OK" then onOk s
      else if cmd.isString "EVENT" then onEvent w s msg
      else if cmd.isString "EOSE" then onEose s
      else if cmd.isString "NEG-ERR" then s.doExit p 1
      else s

end

section
variable (p : Params) (w : World)

/-- The upload loop: the ids left, the counter, what was sent. -/
def uploadLoop : List Bytes → Nat → List Bytes × Nat × List Item
  | [], inFlightUp => ([], inFlightUp, [])
  | id :: haves, inFlightUp =>
    if inFlightUp < highWaterUp then
      match w.lookupEventById id with
      | none =>
        let r := uploadLoop haves inFlightUp
        (r.1, r.2.1, .notFound id :: r.2.2)
      | some evJson =>
        let r := uploadLoop haves (inFlightUp + 1)
        (r.1, r.2.1, .uploaded id evJson :: r.2.2)
    else (id :: haves, inFlightUp, [])

def upload (s : State) : State :=
  if p.doUp = true ∧ s.haves ≠ [] ∧ s.inFlightUp ≤ lowWaterUp then
    let r := uploadLoop w s.haves s.inFlightUp
    { s with haves := r.1, inFlightUp := r.2.1 }.note r.2.2
  else s

/-- The next batch: up to `batchSizeDown` ids off the back. -/
def download (s : State) : State :=
  if p.doDown = true ∧ s.needs ≠ [] ∧ s.inFlightDown = false then
    { s with needs := s.needs.drop batchSizeDown, inFlightDown := true }.note
      [.requested (s.needs.take batchSizeDown)]
  else s

def exitTest (s : State) : State :=
  if s.syncDone = true ∧ s.haves = [] ∧ s.needs = [] ∧ s.inFlightUp = 0 ∧ s.inFlightDown = false then
    s.doExit p 0
  else s

variable [Golpe] [TaoJson]

/-- `ws.onMessage`. -/
def onMessage (s : State) (msgStr : Bytes) : State :=
  let s := handleMsg p w s msgStr
  if s.exited.isSome then s else exitTest p (download p (upload p w s))

end

inductive Input where
  | message (w : World) (msgStr : Bytes)
  | disconnect

section
variable [Golpe] [TaoJson] (p : Params)

/-- One callback; none runs once the process has exited. -/
def step (s : State) (i : Input) : State :=
  if s.exited.isSome then s
  else
    match i with
    | .message w msgStr => onMessage p w s msgStr
    | .disconnect => s.doExit p 1

def run (inputs : List Input) : State := inputs.foldl (step p) {}

/-- The message is an `OK`. -/
def Input.isOk : Input → Bool
  | .message _ msgStr =>
    match TaoJson.fromString msgStr with
    | none => false
    | some msg =>
      match msg.atIdx 0 with
      | .error _ => false
      | .ok cmd => cmd.isString "OK"
  | .disconnect => false

end

/-! ## What a message can do before the uploads -/

inductive Handled (p : Params) (s : State) (isOk : Bool) : State → Prop
  | ignored : Handled p s isOk s
  | failed (items : List Item) (h : ∀ i ∈ items, ∃ a b, i = .reconciled a b) :
      Handled p s isOk ((s.note items).doExit p 1)
  | reconciled (currHave currNeed haves seenHave needs seenNeed : List Bytes) (neMsg : Option Bytes)
      (hhave : pushNew s.haves s.seenHave currHave = .ok (haves, seenHave))
      (hneed : pushNew s.needs s.seenNeed currNeed = .ok (needs, seenNeed)) :
      Handled p s isOk { s with
        haves := if p.doUp then haves else []
        needs := if p.doDown then needs else []
        seenHave := seenHave
        seenNeed := seenNeed
        syncDone := s.syncDone || neMsg.isNone
        log := s.log ++ [.reconciled currHave currNeed, neMsg.elim .negClose .negMsg] }
  | ok (h : isOk = true) : Handled p s isOk (onOk s)
  | wrote (evJson : Json) : Handled p s isOk (s.note [.write evJson])
  | eose : Handled p s isOk (onEose s)

section
variable [Golpe] (p : Params) (w : World)

theorem onNegMsg_handled (s : State) (msg : Json) (isOk : Bool) : Handled p s isOk (onNegMsg p w s msg) := by
  unfold onNegMsg
  match reconcileMsg w msg with
  | .error _ =>
    have h : Handled p s isOk _ := Handled.failed [] (by simp)
    simpa [State.note] using h
  | .ok (neMsg, currHave, currNeed) =>
    dsimp only
    have hfail : Handled p s isOk ((s.note [.reconciled currHave currNeed]).doExit p 1) := by
      refine Handled.failed _ fun i hi => ⟨currHave, currNeed, ?_⟩
      rwa [List.mem_singleton] at hi
    split
    · rename_i haves seenHave needs seenNeed hhave hneed
      have h : Handled p s isOk _ :=
        Handled.reconciled currHave currNeed haves seenHave needs seenNeed neMsg hhave hneed
      match neMsg, h with
      | some m, h => simpa [State.note] using h
      | none, h => simpa [State.note] using h
    · exact hfail

theorem handleMsg_handled [TaoJson] (s : State) (msgStr : Bytes) :
    Handled p s (Input.message w msgStr).isOk (handleMsg p w s msgStr) := by
  unfold handleMsg Input.isOk
  dsimp only
  cases TaoJson.fromString msgStr with
  | none => exact .ignored
  | some msg =>
    dsimp only
    cases msg.atIdx 0 with
    | error e => exact .ignored
    | ok cmd =>
      dsimp only
      generalize hok : cmd.isString "OK" = isOk
      show Handled p s isOk (if cmd.isString "NEG-MSG" = true then _ else _)
      by_cases hneg : cmd.isString "NEG-MSG" = true
      · rw [if_pos hneg]
        exact onNegMsg_handled p w s msg isOk
      · rw [if_neg hneg]
        cases isOk with
        | true => exact .ok rfl
        | false =>
          rw [if_neg Bool.false_ne_true]
          by_cases hevent : cmd.isString "EVENT" = true
          · rw [if_pos hevent]
            unfold onEvent
            split
            · exact .wrote _
            · exact .ignored
          · rw [if_neg hevent]
            by_cases heose : cmd.isString "EOSE" = true
            · rw [if_pos heose]
              exact .eose
            · rw [if_neg heose]
              by_cases herr : cmd.isString "NEG-ERR" = true
              · rw [if_pos herr]
                have h : Handled p s false _ := Handled.failed [] (by simp)
                simpa [State.note] using h
              · rw [if_neg herr]
                exact .ignored

end

end CmdSync

end Strfry
