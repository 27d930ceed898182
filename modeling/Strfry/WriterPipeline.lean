import Strfry.Fried
import Strfry.Lib.Inevitable
import Strfry.Ingester
import Strfry.RelayWriter

/-!
# The import pipeline

`WriterPipeline` (`WriterPipeline.h`) as `cmd_import` uses it.  Three threads: the caller, the
validator, which turns JSON into packed events, and the writer, which collects batches and hands
them to `writeEvents`.  Fried records go to the writer's inbox directly.  `flush` puts a null
into the validator's inbox; the validator passes it on as a record with an empty `packedStr` and
ends, and the writer ends when it comes across such a record.

A step is what one thread does between two operations on what the threads share, so the steps
interleave freely.  Every input gets a number, and `rejected`, `dups` and `passed` record what
became of it.  No input is lost or counted twice, and the writer only ends at the marker of
`flush` (`pipeline_conserves`), as long as the fried records are packed events:
`emptyRecord_stops` is a line whose record the writer takes for the marker.
-/

namespace Strfry

/-- The number of an input; `none` is the marker of `flush`. -/
abbrev InputNo := Option Nat

inductive CallerPhase where
  | writing
  | flushing
  | returned
deriving DecidableEq

inductive ValidatorPhase where
  | running (msgs : List (InputNo × Json))
  | stopped

inductive WriterPhase where
  | waiting
  | collecting (txn : Db) (newEvents newEventsToProc : List (InputNo × EventToWrite))
  | committing (newEventsToProc : List (InputNo × EventToWrite)) (shutdownComplete : Bool)
  | stopped
  /-- an exception left the thread -/
  | crashed

structure WriterPipeline where
  db : Db
  neFilterCache : NegentropyFilterCache := {}
  caller : CallerPhase := .writing
  validatorInbox : List (InputNo × Json) := []
  validator : ValidatorPhase := .running []
  writerInbox : List (InputNo × EventToWrite) := []
  writer : WriterPhase := .waiting
  flushInbox : Bool := false
  numLive : Nat := 0
  totalProcessed : Nat := 0
  totalWritten : Nat := 0
  totalRejected : Nat := 0
  totalDups : Nat := 0
  /-- the inputs `parseAndVerifyEvent` threw at, those that were stored already, and those passed
  to `writeEvents` -/
  rejected : List InputNo := []
  dups : List InputNo := []
  passed : List InputNo := []
  /-- the record that ended the writer -/
  endedBy : Option InputNo := none

/-- What a thread has popped stands before its inbox. -/
def ValidatorPhase.queue (v : ValidatorPhase) (inbox : List (InputNo × Json)) : List (InputNo × Json) :=
  match v with
  | .running msgs => msgs ++ inbox
  | .stopped => inbox

def WriterPhase.queue (w : WriterPhase) (inbox : List (InputNo × EventToWrite)) :
    List (InputNo × EventToWrite) :=
  match w with
  | .collecting _ newEvents _ => newEvents ++ inbox
  | _ => inbox

def WriterPhase.batch : WriterPhase → List (InputNo × EventToWrite)
  | .collecting _ _ newEventsToProc => newEventsToProc
  | .committing newEventsToProc _ => newEventsToProc
  | _ => []

/-- How far the writer is with its end. -/
inductive WriterEnd where
  | live
  | ending
  | ended

def WriterPhase.toEnd : WriterPhase → WriterEnd
  | .committing _ shutdownComplete => cond shutdownComplete .ending .live
  | .stopped => .ended
  | _ => .live

def ValidatorPhase.isStopped : ValidatorPhase → Bool
  | .running _ => false
  | .stopped => true

def Json.isNull : Json → Bool
  | .null => true
  | _ => false

namespace WriterPipeline

/-- `write(WriterPipelineInput)`. -/
def write (s : WriterPipeline) (eventJson : Json) : WriterPipeline :=
  if eventJson.isNull then s
  else { s with
    totalProcessed := s.totalProcessed + 1
    numLive := addU64 s.numLive 1
    validatorInbox := s.validatorInbox ++ [(some s.totalProcessed, eventJson)] }

/-- `write(EventToWrite)`. -/
def writeEvent (s : WriterPipeline) (inp : EventToWrite) : WriterPipeline :=
  { s with
    totalProcessed := s.totalProcessed + 1
    numLive := addU64 s.numLive 1
    writerInbox := s.writerInbox ++ [(some s.totalProcessed, inp)] }

/-- The first half of `flush`; the other half waits for `flushInbox`. -/
def flush (s : WriterPipeline) : WriterPipeline :=
  { s with caller := .flushing, validatorInbox := s.validatorInbox ++ [(none, .null)] }

/-- What the validator does with one message; `res` is what `parseAndVerifyEvent` does. -/
def validate (s : WriterPipeline) (m : InputNo × Json) (rest : List (InputNo × Json))
    (res : Except Err (Bytes × Bytes)) : WriterPipeline :=
  if m.2.isNull then
    { s with
      validator := .stopped
      writerInbox := s.writerInbox ++ [(m.1, { packedStr := [], jsonStr := [] })] }
  else match res with
    | .error _ => { s with
        validator := .running rest
        numLive := subU64 s.numLive 1
        totalRejected := s.totalRejected + 1
        rejected := s.rejected ++ [m.1] }
    | .ok (packedStr, jsonStr) => { s with
        validator := .running rest
        writerInbox := s.writerInbox ++ [(m.1, { packedStr := packedStr, jsonStr := jsonStr })] }

/-- One turn of the loop that collects a batch. -/
def collect (writeBatchSize : Nat) (s : WriterPipeline) (txn : Db)
    (newEvents newEventsToProc : List (InputNo × EventToWrite)) : WriterPipeline :=
  match newEvents with
  | [] => { s with writer := .committing newEventsToProc false }
  | event :: rest =>
    if newEventsToProc.length ≥ writeBatchSize then
      -- put the rest back in the writerInbox
      { s with
        writerInbox := event :: rest ++ s.writerInbox
        writer := .committing newEventsToProc false }
    else if event.2.packedStr.length = 0 then
      { s with writer := .committing newEventsToProc true, endedBy := some event.1 }
    else if event.2.packedStr.length < 88 then
      { s with numLive := subU64 s.numLive 1, writer := .crashed }
    else if txn.eventExistsById (event.2.packedStr.take 32) then
      { s with
        numLive := subU64 s.numLive 1
        totalDups := s.totalDups + 1
        dups := s.dups ++ [event.1]
        writer := .collecting txn rest newEventsToProc }
    else
      { s with
        numLive := subU64 s.numLive 1
        writer := .collecting txn rest (newEventsToProc ++ [event]) }

/-- The end of a turn of the writer. -/
def endTurn (s : WriterPipeline) (shutdownComplete : Bool) : WriterPipeline :=
  if shutdownComplete then { s with flushInbox := true, writer := .stopped }
  else { s with writer := .waiting }

/-- The write transaction, and the end of the turn. -/
def commit [Golpe] [TaoJson] [StdSort] (s : WriterPipeline)
    (newEventsToProc : List (InputNo × EventToWrite)) (shutdownComplete : Bool) : WriterPipeline :=
  if newEventsToProc.isEmpty then s.endTurn shutdownComplete
  else match writeEvents s.db s.neFilterCache (newEventsToProc.map Prod.snd) with
    | .error _ => { s with passed := s.passed ++ newEventsToProc.map Prod.fst, writer := .crashed }
    | .ok (db, cache, evs) => endTurn { s with
        db := db
        neFilterCache := cache
        passed := s.passed ++ newEventsToProc.map Prod.fst
        totalWritten := s.totalWritten + evs.countP (fun ev => ev.status = .written)
        totalDups := s.totalDups + evs.countP (fun ev => ¬ ev.status = .written) } shutdownComplete

section
variable [Golpe] [TaoJson] [StdSort] [Crypto] (cfg : Cfg) (verifyMsg verifyTime : Bool)
  (writeBatchSize : Nat)

/-- One step of a thread, or a commit of another process.  `F` is what is known of the fried
records, `N` of the databases others leave. -/
inductive Step (F : EventToWrite → Prop) (N : Db → Prop) (s : WriterPipeline) : WriterPipeline → Prop where
  | write (eventJson : Json) (hc : s.caller = .writing) : Step F N s (s.write eventJson)
  | writeFried (line : Bytes) (inp : EventToWrite) (hc : s.caller = .writing)
      (hline : parseFried line = .ok inp) (hF : F inp) : Step F N s (s.writeEvent inp)
  | flush (hc : s.caller = .writing) : Step F N s s.flush
  | flushed (hc : s.caller = .flushing) (hf : s.flushInbox = true) :
      Step F N s { s with caller := .returned }
  | validatorPop (hv : s.validator = .running []) (hne : s.validatorInbox ≠ []) :
      Step F N s { s with validator := .running s.validatorInbox, validatorInbox := [] }
  | validate (m : InputNo × Json) (rest : List (InputNo × Json)) (now : Nat)
      (hv : s.validator = .running (m :: rest)) :
      Step F N s (s.validate m rest (parseAndVerifyEvent cfg now verifyMsg verifyTime m.2))
  | writerPop (hw : s.writer = .waiting) (hne : s.writerInbox ≠ []) :
      Step F N s { s with writer := .collecting s.db s.writerInbox [], writerInbox := [] }
  | collect (txn : Db) (newEvents newEventsToProc : List (InputNo × EventToWrite))
      (hw : s.writer = .collecting txn newEvents newEventsToProc) :
      Step F N s (s.collect writeBatchSize txn newEvents newEventsToProc)
  | commit (newEventsToProc : List (InputNo × EventToWrite)) (shutdownComplete : Bool)
      (hw : s.writer = .committing newEventsToProc shutdownComplete) :
      Step F N s (s.commit newEventsToProc shutdownComplete)
  | other (db' : Db) (hN : N db') : Step F N s { s with db := db' }

inductive Reached (F : EventToWrite → Prop) (N : Db → Prop) : WriterPipeline → Prop where
  | init (db : Db) (hN : N db) : Reached F N { db := db }
  | step {s s' : WriterPipeline} (h : Reached F N s)
      (hs : Step cfg verifyMsg verifyTime writeBatchSize F N s s') : Reached F N s'

end

/-! ## What is in the queues -/

/-- What the validator has not seen, in order. -/
def toValidate (s : WriterPipeline) : List (InputNo × Json) := s.validator.queue s.validatorInbox

/-- What the writer has not seen, in order. -/
def toCollect (s : WriterPipeline) : List (InputNo × EventToWrite) := s.writer.queue s.writerInbox

/-- The batch being collected or written. -/
def batch (s : WriterPipeline) : List (InputNo × EventToWrite) := s.writer.batch

/-- An input for the validator, and for the writer: not the marker, and not taken for it. -/
def IsJson (m : InputNo × Json) : Prop := m.1 ≠ none ∧ m.2.isNull = false

def IsEvent (e : InputNo × EventToWrite) : Prop :=
  e.1 ≠ none ∧ ∃ v, PackedEventView.ofBytes e.2.packedStr = .ok v ∧ e.2.status = .pending

def nullMarker : InputNo × Json := (none, .null)

def emptyMarker : InputNo × EventToWrite := (none, { packedStr := [], jsonStr := [] })

/-- Where the marker of `flush` is: it comes last in every queue it goes through. -/
inductive Stage : CallerPhase → List (InputNo × Json) → List (InputNo × EventToWrite) → Bool → WriterEnd →
    Bool → Option InputNo → Prop where
  | writing {V : List (InputNo × Json)} {W : List (InputNo × EventToWrite)} (hV : ∀ m ∈ V, IsJson m)
      (hW : ∀ e ∈ W, IsEvent e) : Stage .writing V W false .live false none
  | validating {V : List (InputNo × Json)} {W : List (InputNo × EventToWrite)} (hV : ∀ m ∈ V, IsJson m)
      (hW : ∀ e ∈ W, IsEvent e) : Stage .flushing (V ++ [nullMarker]) W false .live false none
  | draining {W : List (InputNo × EventToWrite)} (hW : ∀ e ∈ W, IsEvent e) :
      Stage .flushing [] (W ++ [emptyMarker]) true .live false none
  | ending : Stage .flushing [] [] true .ending false (some none)
  | ended {c : CallerPhase} (hc : c ≠ .writing) : Stage c [] [] true .ended true (some none)

section
variable {c : CallerPhase} {V : List (InputNo × Json)} {W : List (InputNo × EventToWrite)} {stopped : Bool}
  {e : WriterEnd} {flushed : Bool} {endedBy : Option InputNo}

theorem Stage.of_writing (h : Stage .writing V W stopped e flushed endedBy) :
    (∀ m ∈ V, IsJson m) ∧ (∀ e ∈ W, IsEvent e) ∧ stopped = false ∧ e = .live ∧ flushed = false ∧
      endedBy = none := by
  cases h with
  | writing hV hW => exact ⟨hV, hW, rfl, rfl, rfl, rfl⟩
  | ended hc => exact absurd rfl hc

/-- The next message of the validator is an input, or it is the marker and the last one. -/
theorem Stage.of_message {m : InputNo × Json} (h : Stage c (m :: V) W stopped e flushed endedBy) :
    e = .live ∧ flushed = false ∧ endedBy = none ∧ (∀ e ∈ W, IsEvent e) ∧
      ((IsJson m ∧ Stage c V W stopped e flushed endedBy ∧
          ∀ ev, IsEvent ev → Stage c V (W ++ [ev]) stopped e flushed endedBy) ∨
        (m = nullMarker ∧ c = .flushing ∧ V = [])) := by
  have hpush : ∀ ev, IsEvent ev → (∀ e ∈ W, IsEvent e) → ∀ e ∈ W ++ [ev], IsEvent e := by
    intro ev hev hW e he
    rcases List.mem_append.mp he with he | he
    · exact hW e he
    · rw [List.mem_singleton.mp he]
      exact hev
  generalize hV : m :: V = V' at h
  cases h with
  | writing hV' hW =>
    subst hV
    have hrest := fun x hx => hV' x (List.mem_cons_of_mem _ hx)
    exact ⟨rfl, rfl, rfl, hW, Or.inl ⟨hV' m List.mem_cons_self, .writing hrest hW,
      fun ev hev => .writing hrest (hpush ev hev hW)⟩⟩
  | @validating V0 _ hV' hW =>
    cases V0 with
    | nil =>
      cases hV
      exact ⟨rfl, rfl, rfl, hW, Or.inr ⟨rfl, rfl, rfl⟩⟩
    | cons x V0 =>
      cases hV
      have hrest := fun x hx => hV' x (List.mem_cons_of_mem _ hx)
      exact ⟨rfl, rfl, rfl, hW, Or.inl ⟨hV' m List.mem_cons_self, .validating hrest hW,
        fun ev hev => .validating hrest (hpush ev hev hW)⟩⟩
  | draining hW => cases hV
  | ending => cases hV
  | ended hc => cases hV

/-- The next record of the writer is an input, or it is the marker and the last one. -/
theorem Stage.of_record {ev : InputNo × EventToWrite} (h : Stage c V (ev :: W) stopped e flushed endedBy) :
    (IsEvent ev ∧ Stage c V W stopped e flushed endedBy) ∨
      (ev = emptyMarker ∧ c = .flushing ∧ V = [] ∧ W = [] ∧ stopped = true ∧ flushed = false) := by
  generalize hW : ev :: W = W' at h
  cases h with
  | writing hV hW' =>
    subst hW
    exact Or.inl ⟨hW' ev List.mem_cons_self, .writing hV fun x hx => hW' x (List.mem_cons_of_mem _ hx)⟩
  | validating hV hW' =>
    subst hW
    exact Or.inl ⟨hW' ev List.mem_cons_self, .validating hV fun x hx => hW' x (List.mem_cons_of_mem _ hx)⟩
  | @draining W0 hW' =>
    cases W0 with
    | nil =>
      cases hW
      exact Or.inr ⟨rfl, rfl, rfl, rfl, rfl, rfl⟩
    | cons x W0 =>
      cases hW
      exact Or.inl ⟨hW' ev List.mem_cons_self, .draining fun x hx => hW' x (List.mem_cons_of_mem _ hx)⟩
  | ending => cases hW
  | ended hc => cases hW

theorem Stage.of_flushed (h : Stage c V W stopped e true endedBy) :
    V = [] ∧ W = [] ∧ endedBy = some none ∧ Stage .returned V W stopped e true endedBy := by
  cases h with
  | ended hc => exact ⟨rfl, rfl, rfl, .ended (by decide)⟩

theorem Stage.of_returned (h : Stage .returned V W stopped e flushed endedBy) :
    V = [] ∧ W = [] ∧ e = .ended := by
  cases h with
  | ended hc => exact ⟨rfl, rfl, rfl⟩

theorem Stage.endedBy_marker (h : Stage c V W stopped e flushed endedBy) :
    endedBy = none ∨ endedBy = some none := by
  cases h with
  | writing _ _ => exact Or.inl rfl
  | validating _ _ => exact Or.inl rfl
  | draining _ => exact Or.inl rfl
  | ending => exact Or.inr rfl
  | ended _ => exact Or.inr rfl

theorem Stage.of_ending (h : Stage c V W stopped .ending flushed endedBy) :
    Stage c V W stopped .ended true endedBy := by
  cases h with
  | ending => exact .ended (by decide)

end

/-- The inputs in a queue. -/
def live {α : Type} (l : List (InputNo × α)) : Nat := l.countP fun x => x.1.isSome

/-- How often an input occurs in a queue. -/
def occurs {α : Type} (n : Nat) (l : List (InputNo × α)) : Nat := (l.map Prod.fst).count (some n)

@[simp] theorem live_append {α : Type} (l l' : List (InputNo × α)) : live (l ++ l') = live l + live l' :=
  List.countP_append

@[simp] theorem live_cons {α : Type} (x : InputNo × α) (l : List (InputNo × α)) :
    live (x :: l) = live l + if x.1.isSome then 1 else 0 :=
  List.countP_cons

@[simp] theorem live_nil {α : Type} : live ([] : List (InputNo × α)) = 0 := rfl

@[simp] theorem occurs_append {α : Type} (n : Nat) (l l' : List (InputNo × α)) :
    occurs n (l ++ l') = occurs n l + occurs n l' := by
  simp [occurs]

@[simp] theorem occurs_cons {α : Type} (n : Nat) (x : InputNo × α) (l : List (InputNo × α)) :
    occurs n (x :: l) = occurs n l + if x.1 = some n then 1 else 0 := by
  simp [occurs, List.count_cons]

@[simp] theorem occurs_nil {α : Type} (n : Nat) : occurs n ([] : List (InputNo × α)) = 0 := rfl

structure Inv [Golpe] [TaoJson] (s : WriterPipeline) : Prop where
  stage : Stage s.caller s.toValidate s.toCollect s.validator.isStopped s.writer.toEnd s.flushInbox s.endedBy
  alive : s.writer ≠ .crashed
  batch : ∀ e ∈ s.batch, IsEvent e
  compiles : Compiles s.db
  /-- every input is in one place -/
  once : ∀ n, s.rejected.count (some n) + s.dups.count (some n) + s.passed.count (some n) +
    occurs n s.batch + occurs n s.toValidate + occurs n s.toCollect = if n < s.totalProcessed then 1 else 0
  total : s.totalRejected + s.totalWritten + s.totalDups + s.batch.length + live s.toValidate +
    live s.toCollect = s.totalProcessed
  numLive : s.numLive = (live s.toValidate + live s.toCollect) % 2 ^ 64

theorem queue_push_validator (v : ValidatorPhase) (inbox l : List (InputNo × Json)) :
    v.queue (inbox ++ l) = v.queue inbox ++ l := by
  cases v with
  | running msgs => exact (List.append_assoc msgs inbox l).symm
  | stopped => rfl

theorem queue_push_writer (w : WriterPhase) (inbox l : List (InputNo × EventToWrite)) :
    w.queue (inbox ++ l) = w.queue inbox ++ l := by
  cases w with
  | collecting txn newEvents proc => exact (List.append_assoc newEvents inbox l).symm
  | _ => rfl

/-! ## The caller -/

/-- One more input: its number is new. -/
theorem once_succ {a p n : Nat} (h : a = if n < p then 1 else 0) :
    a + (if (some p : InputNo) = some n then 1 else 0) = if n < p + 1 then 1 else 0 := by
  simp only [Option.some.injEq]
  split at h <;> split <;> split <;> omega

section
variable [Golpe] [TaoJson] {s : WriterPipeline}

theorem Inv.init {db : Db} (h : Compiles db) : Inv { db := db } where
  stage := .writing (by simp [toValidate, ValidatorPhase.queue]) (by simp [toCollect, WriterPhase.queue])
  alive := by simp
  batch := by simp [WriterPipeline.batch, WriterPhase.batch]
  compiles := h
  once n := rfl
  total := rfl
  numLive := rfl

theorem Inv.write (h : Inv s) (hc : s.caller = .writing) (eventJson : Json) : Inv (s.write eventJson) := by
  unfold WriterPipeline.write
  by_cases hnull : eventJson.isNull = true
  · rw [if_pos hnull]
    exact h
  rw [if_neg hnull]
  refine ⟨?_, h.alive, h.batch, h.compiles, fun n => ?_, ?_, ?_⟩
  · have hstage := h.stage
    rw [hc] at hstage
    obtain ⟨hV, hW, h1, h2, h3, h4⟩ := hstage.of_writing
    simp only [toValidate, queue_push_validator, hc, h1, h2, h3, h4]
    refine .writing (fun m hm => ?_) hW
    rcases List.mem_append.mp hm with hm | hm
    · exact hV m hm
    · rw [List.mem_singleton.mp hm]
      exact ⟨by simp, by simpa using hnull⟩
  · have := once_succ (h.once n)
    simp only [toValidate, queue_push_validator, occurs_append, occurs_cons, occurs_nil] at this ⊢
    rw [← this]
    simp only [WriterPipeline.batch, toCollect]
    omega
  · have := h.total
    simp only [toValidate, toCollect, WriterPipeline.batch, queue_push_validator, live_append, live_cons,
      live_nil, Option.isSome_some, if_true] at this ⊢
    omega
  · have := h.numLive
    simp only [toValidate, toCollect, queue_push_validator, live_append, live_cons, live_nil,
      Option.isSome_some, addU64, if_true] at this ⊢
    omega

theorem Inv.writeEvent (h : Inv s) (hc : s.caller = .writing) {inp : EventToWrite}
    (hview : ∃ v, PackedEventView.ofBytes inp.packedStr = .ok v) (hpend : inp.status = .pending) :
    Inv (s.writeEvent inp) := by
  unfold WriterPipeline.writeEvent
  refine ⟨?_, h.alive, h.batch, h.compiles, fun n => ?_, ?_, ?_⟩
  · have hstage := h.stage
    rw [hc] at hstage
    obtain ⟨hV, hW, h1, h2, h3, h4⟩ := hstage.of_writing
    simp only [toCollect, queue_push_writer, hc, h1, h2, h3, h4]
    refine .writing hV fun e he => ?_
    rcases List.mem_append.mp he with he | he
    · exact hW e he
    · rw [List.mem_singleton.mp he]
      obtain ⟨v, hv⟩ := hview
      exact ⟨by simp, v, hv, hpend⟩
  · have := once_succ (h.once n)
    simp only [toCollect, queue_push_writer, occurs_append, occurs_cons, occurs_nil] at this ⊢
    rw [← this]
    simp only [WriterPipeline.batch, toValidate]
    omega
  · have := h.total
    simp only [toValidate, toCollect, WriterPipeline.batch, queue_push_writer, live_append, live_cons,
      live_nil, Option.isSome_some, if_true] at this ⊢
    omega
  · have := h.numLive
    simp only [toValidate, toCollect, queue_push_writer, live_append, live_cons, live_nil,
      Option.isSome_some, addU64, if_true] at this ⊢
    omega

theorem Inv.flush (h : Inv s) (hc : s.caller = .writing) : Inv s.flush := by
  unfold WriterPipeline.flush
  refine ⟨?_, h.alive, h.batch, h.compiles, fun n => ?_, ?_, ?_⟩
  · have hstage := h.stage
    rw [hc] at hstage
    obtain ⟨hV, hW, h1, h2, h3, h4⟩ := hstage.of_writing
    simp only [toValidate, queue_push_validator, h1, h2, h3, h4]
    exact .validating hV hW
  · have := h.once n
    simp only [toValidate, toCollect, WriterPipeline.batch, queue_push_validator, occurs_append,
      occurs_cons, occurs_nil, reduceCtorEq, if_false, Nat.add_zero] at this ⊢
    exact this
  · have := h.total
    simp only [toValidate, toCollect, WriterPipeline.batch, queue_push_validator, live_append, live_cons,
      live_nil, Option.isSome_none, Bool.false_eq_true, if_false, Nat.add_zero] at this ⊢
    exact this
  · have := h.numLive
    simp only [toValidate, toCollect, queue_push_validator, live_append, live_cons, live_nil,
      Option.isSome_none, Bool.false_eq_true, if_false, Nat.add_zero] at this ⊢
    exact this

/-- `flush` returns only when the writer has ended. -/
theorem Inv.flushed (h : Inv s) (hf : s.flushInbox = true) : Inv { s with caller := .returned } := by
  refine ⟨?_, h.alive, h.batch, h.compiles, h.once, h.total, h.numLive⟩
  have hstage := h.stage
  rw [hf] at hstage
  simp only [hf]
  exact hstage.of_flushed.2.2.2

/-! ## The validator -/

theorem Inv.validatorPop (h : Inv s) (hv : s.validator = .running []) :
    Inv { s with validator := .running s.validatorInbox, validatorInbox := [] } := by
  have hV : s.toValidate = s.validatorInbox := by simp [toValidate, hv, ValidatorPhase.queue]
  have hV' : ∀ t : WriterPipeline, t.validator = .running s.validatorInbox → t.validatorInbox = [] →
      t.toValidate = s.toValidate := by
    intro t h1 h2
    rw [hV, toValidate, h1, h2]
    exact List.append_nil _
  have hstage := h.stage
  rw [hv] at hstage
  refine ⟨?_, h.alive, h.batch, h.compiles, fun n => ?_, ?_, ?_⟩
  · rw [hV' _ rfl rfl]
    exact hstage
  · rw [hV' _ rfl rfl]
    exact h.once n
  · rw [hV' _ rfl rfl]
    exact h.total
  · rw [hV' _ rfl rfl]
    exact h.numLive

theorem Inv.validate (h : Inv s) {m : InputNo × Json} {rest : List (InputNo × Json)}
    (hv : s.validator = .running (m :: rest)) {res : Except Err (Bytes × Bytes)}
    (hres : ∀ p, res = .ok p → ∃ v, PackedEventView.ofBytes p.1 = .ok v) : Inv (s.validate m rest res) := by
  have hV : s.toValidate = m :: (rest ++ s.validatorInbox) := by
    simp [toValidate, hv, ValidatorPhase.queue]
  have hstage := h.stage
  rw [hV, hv] at hstage
  obtain ⟨h1, h2, h3, hW, hcases⟩ := hstage.of_message
  have honce := h.once
  have htotal := h.total
  have hlive := h.numLive
  rw [hV] at htotal hlive
  simp only [hV, occurs_cons] at honce
  rw [live_cons] at htotal hlive
  unfold WriterPipeline.validate
  rcases hcases with ⟨hm, hstage', hpush⟩ | ⟨rfl, hc, hnil⟩
  · obtain ⟨n0, hn0⟩ := Option.ne_none_iff_exists'.mp hm.1
    rw [hm.2]
    simp only [Bool.false_eq_true, if_false]
    simp only [hn0, Option.isSome_some, if_true] at htotal hlive
    cases res with
    | error e =>
      refine ⟨hstage', h.alive, h.batch, h.compiles, fun n => ?_, ?_, ?_⟩
      · rw [← honce n]
        simp only [List.count_append, List.count_singleton, toValidate, ValidatorPhase.queue, toCollect,
          WriterPipeline.batch, beq_iff_eq]
        omega
      · simp only [toValidate, ValidatorPhase.queue, toCollect, WriterPipeline.batch] at htotal ⊢
        omega
      · simp only [toValidate, ValidatorPhase.queue, toCollect, subU64] at hlive ⊢
        omega
    | ok p =>
      obtain ⟨v, hview⟩ := hres p rfl
      refine ⟨?_, h.alive, h.batch, h.compiles, fun n => ?_, ?_, ?_⟩
      · simp only [toCollect, queue_push_writer]
        exact hpush _ ⟨hm.1, v, hview, rfl⟩
      · rw [← honce n]
        simp only [toValidate, ValidatorPhase.queue, toCollect, queue_push_writer, WriterPipeline.batch,
          occurs_append, occurs_cons, occurs_nil]
        omega
      · simp only [toValidate, ValidatorPhase.queue, toCollect, queue_push_writer, WriterPipeline.batch,
          live_append, live_cons, live_nil, hn0, Option.isSome_some, if_true] at htotal ⊢
        omega
      · simp only [toValidate, ValidatorPhase.queue, toCollect, queue_push_writer, live_append, live_cons,
          live_nil, hn0, Option.isSome_some, if_true] at hlive ⊢
        omega
  · obtain ⟨rfl, hinbox⟩ := List.append_eq_nil_iff.mp hnil
    simp only [nullMarker, Json.isNull, if_true, hinbox]
    simp only [nullMarker, Option.isSome_none, Bool.false_eq_true, if_false, hinbox, List.append_nil,
      Nat.add_zero] at htotal hlive
    refine ⟨?_, h.alive, h.batch, h.compiles, fun n => ?_, ?_, ?_⟩
    · simp only [toValidate, ValidatorPhase.queue, toCollect, queue_push_writer, hc, h1, h2, h3]
      exact .draining hW
    · rw [← honce n]
      simp [toValidate, ValidatorPhase.queue, toCollect, queue_push_writer, WriterPipeline.batch,
        nullMarker, hinbox]
    · simpa [toValidate, ValidatorPhase.queue, toCollect, queue_push_writer, WriterPipeline.batch]
        using htotal
    · simpa [toValidate, ValidatorPhase.queue, toCollect, queue_push_writer] using hlive

/-! ## The writer -/

theorem Inv.writerPop (h : Inv s) (hw : s.writer = .waiting) :
    Inv { s with writer := .collecting s.db s.writerInbox [], writerInbox := [] } := by
  have hW : s.toCollect = s.writerInbox := by simp [toCollect, hw, WriterPhase.queue]
  have hW' : ∀ t : WriterPipeline, t.writer = .collecting s.db s.writerInbox [] → t.writerInbox = [] →
      t.toCollect = s.toCollect := by
    intro t h1 h2
    rw [hW, toCollect, h1, h2]
    exact List.append_nil _
  have hb : s.batch = [] := by simp [WriterPipeline.batch, hw, WriterPhase.batch]
  have hstage := h.stage
  rw [hw] at hstage
  refine ⟨?_, by simp, by simp [WriterPipeline.batch, WriterPhase.batch], h.compiles, fun n => ?_, ?_, ?_⟩
  · rw [hW' _ rfl rfl]
    exact hstage
  · rw [hW' _ rfl rfl]
    have := h.once n
    rw [hb] at this
    exact this
  · rw [hW' _ rfl rfl]
    have := h.total
    rw [hb] at this
    exact this
  · rw [hW' _ rfl rfl]
    exact h.numLive

/-- The batch goes to be written; nothing else changes. -/
theorem Inv.toCommit (h : Inv s) {txn : Db} {newEvents proc : List (InputNo × EventToWrite)}
    (hw : s.writer = .collecting txn newEvents proc) {inbox : List (InputNo × EventToWrite)}
    (hinbox : inbox = newEvents ++ s.writerInbox) :
    Inv { s with writerInbox := inbox, writer := .committing proc false } := by
  have hW : s.toCollect = inbox := by
    simp [toCollect, hw, WriterPhase.queue, hinbox]
  have hb : s.batch = proc := by simp [WriterPipeline.batch, hw, WriterPhase.batch]
  have hstage := h.stage
  have honce := h.once
  have htotal := h.total
  have hlive := h.numLive
  have hbatch := h.batch
  rw [hW, hw] at hstage
  simp only [hW, hb] at honce htotal hlive hbatch
  exact ⟨hstage, by simp, hbatch, h.compiles, honce, htotal, hlive⟩

theorem Inv.collect (h : Inv s) (writeBatchSize : Nat) {txn : Db}
    {newEvents proc : List (InputNo × EventToWrite)} (hw : s.writer = .collecting txn newEvents proc) :
    Inv (s.collect writeBatchSize txn newEvents proc) := by
  have hb : s.batch = proc := by simp [WriterPipeline.batch, hw, WriterPhase.batch]
  unfold WriterPipeline.collect
  cases newEvents with
  | nil => exact h.toCommit hw rfl
  | cons event rest =>
    simp only []
    split
    · exact h.toCommit hw rfl
    have hW : s.toCollect = event :: (rest ++ s.writerInbox) := by
      simp [toCollect, hw, WriterPhase.queue]
    have hstage := h.stage
    have honce := h.once
    have htotal := h.total
    have hlive := h.numLive
    have hbatch := h.batch
    rw [hW, hw] at hstage
    simp only [hW, hb, occurs_cons] at honce
    simp only [hW, hb, live_cons] at htotal hlive
    rw [hb] at hbatch
    rcases hstage.of_record with ⟨hev, hstage'⟩ | ⟨rfl, hc, hV, hnil, hstop, hf⟩
    · obtain ⟨n0, hn0⟩ := Option.ne_none_iff_exists'.mp hev.1
      obtain ⟨v, hview, -⟩ := hev.2
      have hsize : 88 ≤ event.2.packedStr.length := by
        rw [← PackedEventView.ofBytes_buf hview]
        exact v.size
      simp only [hn0, Option.isSome_some, if_true] at htotal hlive
      rw [if_neg (by omega), if_neg (by omega)]
      split
      · refine ⟨hstage', by simp, hbatch, h.compiles, fun n => ?_, ?_, ?_⟩
        · rw [← honce n]
          simp only [List.count_append, List.count_singleton, toCollect, WriterPhase.queue, toValidate,
            WriterPipeline.batch, WriterPhase.batch, beq_iff_eq]
          omega
        · simp only [toCollect, WriterPhase.queue, toValidate, WriterPipeline.batch, WriterPhase.batch]
            at htotal ⊢
          omega
        · simp only [toCollect, WriterPhase.queue, toValidate, subU64] at hlive ⊢
          omega
      · refine ⟨hstage', by simp, fun e he => ?_, h.compiles, fun n => ?_, ?_, ?_⟩
        · rcases List.mem_append.mp he with he | he
          · exact hbatch e he
          · rw [List.mem_singleton.mp he]
            exact hev
        · rw [← honce n]
          simp only [toCollect, WriterPhase.queue, toValidate, WriterPipeline.batch, WriterPhase.batch,
            occurs_append, occurs_cons, occurs_nil]
          omega
        · simp only [toCollect, WriterPhase.queue, toValidate, WriterPipeline.batch, WriterPhase.batch,
            List.length_append, List.length_cons, List.length_nil] at htotal ⊢
          omega
        · simp only [toCollect, WriterPhase.queue, toValidate, subU64] at hlive ⊢
          omega
    · obtain ⟨rfl, hinbox⟩ := List.append_eq_nil_iff.mp hnil
      simp only [emptyMarker, List.length_nil, if_true]
      refine ⟨?_, by simp, hbatch, h.compiles, honce, htotal, hlive⟩
      show Stage s.caller s.toValidate s.writerInbox s.validator.isStopped .ending s.flushInbox (some none)
      rw [hc, hV, hinbox, hstop, hf]
      exact .ending

/-- The end of a turn, with nothing left to write. -/
theorem Inv.endTurn (h : Inv s) {shutdownComplete : Bool} (hw : s.writer = .committing [] shutdownComplete) :
    Inv (s.endTurn shutdownComplete) := by
  have hstage := h.stage
  have honce := h.once
  have htotal := h.total
  have hlive := h.numLive
  have hb : s.batch = [] := by simp [WriterPipeline.batch, hw, WriterPhase.batch]
  have hW : s.toCollect = s.writerInbox := by simp [toCollect, hw, WriterPhase.queue]
  rw [hW, hw] at hstage
  simp only [hW, hb] at honce htotal hlive
  unfold WriterPipeline.endTurn
  cases shutdownComplete with
  | true =>
    exact ⟨hstage.of_ending, by simp, by simp [WriterPipeline.batch, WriterPhase.batch], h.compiles, honce,
      htotal, hlive⟩
  | false =>
    exact ⟨hstage, by simp, by simp [WriterPipeline.batch, WriterPhase.batch], h.compiles, honce, htotal,
      hlive⟩

end

section
variable [Golpe] [TaoJson] [StdSort] {s : WriterPipeline}

/-- `writeEvents` comes back with as many events as it got. -/
theorem writeEvents_total {db : Db} (hdb : Compiles db) (cache : NegentropyFilterCache)
    (evs : List EventToWrite) (hview : ∀ ev ∈ evs, ∃ v, PackedEventView.ofBytes ev.packedStr = .ok v)
    (hpend : ∀ ev ∈ evs, ev.status = .pending) : ∃ db' cache' evs',
      writeEvents db cache evs = .ok (db', cache', evs') ∧ evs'.length = evs.length ∧ Compiles db' := by
  obtain ⟨l, hl, hfst, -⟩ := viewBatch_total evs hview
  obtain ⟨cache', hc⟩ := hdb.freshenCache cache
  have hpend' : ∀ e ∈ StdSort.sort batchLt l, e.1.status = .pending := by
    intro e he
    refine hpend e.1 ?_
    rw [← hfst]
    exact List.mem_map.mpr ⟨e, (StdSort.mem_sort batchLt l e).mp he, rfl⟩
  obtain ⟨db', evs', hloop, hturns, hmap⟩ := writeLoop_turns cache' (StdSort.sort batchLt l) hpend' db none
  have hok : writeEvents db cache evs = .ok (db', cache', evs') := by
    unfold writeEvents
    rw [hl, hc]
    show (writeLoop cache' db none (StdSort.sort batchLt l) >>= _) = _
    rw [hloop]
    rfl
  refine ⟨db', cache', evs', hok, ?_, ?_⟩
  · have h1 := congrArg List.length hturns.connIds
    have h2 := congrArg List.length hmap
    have h3 := congrArg List.length hfst
    simp only [List.length_map] at h1 h2 h3
    rw [h1, h2, (StdSort.perm batchLt l).length_eq, h3]
  · obtain ⟨filters, hf⟩ := hdb
    refine ⟨filters, ?_⟩
    unfold NegentropyFilterCache.loadFilters at hf ⊢
    rw [writeEvents_negentropyFilter hok]
    exact hf

theorem Inv.commit (h : Inv s) {proc : List (InputNo × EventToWrite)} {shutdownComplete : Bool}
    (hw : s.writer = .committing proc shutdownComplete) : Inv (s.commit proc shutdownComplete) := by
  unfold WriterPipeline.commit
  cases proc with
  | nil => exact h.endTurn hw
  | cons e proc =>
    have hb : s.batch = e :: proc := by simp [WriterPipeline.batch, hw, WriterPhase.batch]
    have hbatch := h.batch
    rw [hb] at hbatch
    obtain ⟨db', cache', evs', hok, hlen, hdb'⟩ := writeEvents_total h.compiles s.neFilterCache
      ((e :: proc).map Prod.snd)
      (by
        intro ev hev
        obtain ⟨x, hx, rfl⟩ := List.mem_map.mp hev
        obtain ⟨v, hv, -⟩ := (hbatch x hx).2
        exact ⟨v, hv⟩)
      (by
        intro ev hev
        obtain ⟨x, hx, rfl⟩ := List.mem_map.mp hev
        exact (hbatch x hx).2.choose_spec.2)
    rw [hok]
    simp only [List.isEmpty_cons, Bool.false_eq_true, if_false]
    have hstage := h.stage
    have honce := h.once
    have htotal := h.total
    have hlive := h.numLive
    have hW : s.toCollect = s.writerInbox := by simp [toCollect, hw, WriterPhase.queue]
    rw [hW, hw] at hstage
    simp only [hW, hb] at honce htotal hlive
    have hcount := List.length_eq_countP_add_countP (l := evs') (fun ev => decide (ev.status = .written))
    -- the state with the batch written, before the end of the turn
    refine Inv.endTurn (s := { s with
        db := db'
        neFilterCache := cache'
        passed := s.passed ++ (e :: proc).map Prod.fst
        totalWritten := s.totalWritten + evs'.countP (fun ev => ev.status = .written)
        totalDups := s.totalDups + evs'.countP (fun ev => ¬ ev.status = .written)
        writer := .committing [] shutdownComplete }) ?_ rfl
    refine ⟨hstage, by simp, by simp [WriterPipeline.batch, WriterPhase.batch], hdb', fun n => ?_, ?_, hlive⟩
    · have := honce n
      simp only [toValidate, toCollect, WriterPhase.queue, WriterPipeline.batch, WriterPhase.batch,
        List.count_append, occurs] at this ⊢
      simp only [List.map_nil, List.count_nil]
      omega
    · simp only [toValidate, toCollect, WriterPhase.queue, WriterPipeline.batch, WriterPhase.batch,
        List.length_map, List.length_nil] at htotal hlen ⊢
      simp only [decide_not, Bool.decide_eq_true] at hcount ⊢
      omega

end

/-! ## Runs -/

/-- The record is a packed event. -/
def IsPacked (ev : EventToWrite) : Prop := ∃ v, PackedEventView.ofBytes ev.packedStr = .ok v

theorem parseFried_pending [Golpe] {line : Bytes} {ev : EventToWrite} (h : parseFried line = .ok ev) :
    ev.status = .pending := by
  unfold parseFried at h
  obtain ⟨_, -, h⟩ := bind_eq_ok.mp h
  obtain ⟨_, -, h⟩ := bind_eq_ok.mp h
  obtain ⟨_, -, h⟩ := bind_eq_ok.mp h
  obtain ⟨packed, -, h⟩ := bind_eq_ok.mp h
  cases h
  rfl

section
variable [Golpe] [TaoJson] [StdSort] [Crypto] {cfg : Cfg} {verifyMsg verifyTime : Bool} {writeBatchSize : Nat}
  {s s' : WriterPipeline}

/-- **One step** keeps the invariant. -/
theorem Inv.step {N : Db → Prop} (hN : ∀ db, N db → Compiles db) (h : Inv s)
    (hs : Step cfg verifyMsg verifyTime writeBatchSize IsPacked N s s') : Inv s' := by
  cases hs with
  | write eventJson hc => exact h.write hc eventJson
  | writeFried line inp hc hline hF => exact h.writeEvent hc hF (parseFried_pending hline)
  | flush hc => exact h.flush hc
  | flushed hc hf => exact h.flushed hf
  | validatorPop hv hne => exact h.validatorPop hv
  | validate m rest now hv => exact h.validate hv fun p hp => (parseAndVerifyEvent_ok hp).2.1
  | writerPop hw hne => exact h.writerPop hw
  | collect txn newEvents proc hw => exact h.collect writeBatchSize hw
  | commit proc fin hw => exact h.commit hw
  | other db' hdb => exact ⟨h.stage, h.alive, h.batch, hN db' hdb, h.once, h.total, h.numLive⟩

theorem Inv.reached (h : Reached cfg verifyMsg verifyTime writeBatchSize IsPacked Compiles s) : Inv s := by
  induction h with
  | init db hdb => exact .init hdb
  | step _ hs ih => exact ih.step (fun _ hdb => hdb) hs

/-! ## `flush` returns -/

/-- Pays for the steps that take nothing out of a queue. -/
def rank (writeBatchSize : Nat) : WriterPhase → Nat
  | .waiting => 1
  | .collecting _ newEvents proc => if newEvents ≠ [] ∧ proc.length < writeBatchSize then 0 else 3
  | .committing _ _ => 2
  | .stopped => 0
  | .crashed => 0

def idle : ValidatorPhase → Nat
  | .running [] => 1
  | _ => 0

def flushingRank : CallerPhase → Nat
  | .flushing => 1
  | _ => 0

def work (writeBatchSize : Nat) (s : WriterPipeline) : Nat :=
  8 * s.toValidate.length + 4 * s.toCollect.length + rank writeBatchSize s.writer + idle s.validator +
    flushingRank s.caller

/-- A thread can go on until `flush` returns. -/
theorem Inv.enabled (h : Inv s) (hc : s.caller = .flushing) (N : Db → Prop) :
    ∃ s', Step cfg verifyMsg verifyTime writeBatchSize IsPacked N s s' := by
  have hstage := h.stage
  rw [hc] at hstage
  generalize hV : s.toValidate = V at hstage
  generalize hW : s.toCollect = W at hstage
  generalize hstop : s.validator.isStopped = stopped at hstage
  generalize hend : s.writer.toEnd = e at hstage
  generalize hfl : s.flushInbox = flushed at hstage
  generalize hby : s.endedBy = endedBy at hstage
  -- the writer has something to do unless it waits at an empty inbox
  have hwriter : e ≠ .ended → (s.writer = .waiting → s.writerInbox ≠ []) →
      ∃ s', Step cfg verifyMsg verifyTime writeBatchSize IsPacked N s s' := by
    intro hne hinbox
    cases hw : s.writer with
    | waiting => exact ⟨_, .writerPop hw (hinbox hw)⟩
    | collecting txn newEvents proc => exact ⟨_, .collect txn newEvents proc hw⟩
    | committing proc fin => exact ⟨_, .commit proc fin hw⟩
    | stopped =>
      rw [hw] at hend
      exact absurd hend.symm hne
    | crashed => exact absurd hw h.alive
  cases hstage with
  | validating hV' hW' =>
    cases hv : s.validator with
    | stopped =>
      rw [hv] at hstop
      cases hstop
    | running msgs =>
      cases msgs with
      | cons m rest => exact ⟨_, .validate m rest 0 hv⟩
      | nil =>
        refine ⟨_, .validatorPop hv fun hnil => ?_⟩
        simp [toValidate, hv, hnil, ValidatorPhase.queue] at hV
  | draining hW' =>
    refine hwriter (by simp) fun hw hnil => ?_
    simp [toCollect, hw, hnil, WriterPhase.queue] at hW
  | ending =>
    refine hwriter (by simp) fun hw => ?_
    rw [hw] at hend
    cases hend
  | ended _ => exact ⟨_, .flushed hc hfl⟩

omit [Golpe] [TaoJson] [StdSort] [Crypto] in
theorem rank_le (writeBatchSize : Nat) (w : WriterPhase) : rank writeBatchSize w ≤ 3 := by
  cases w with
  | collecting txn newEvents proc =>
    show (if newEvents ≠ [] ∧ proc.length < writeBatchSize then 0 else 3) ≤ 3
    split <;> omega
  | _ => simp [rank]

omit [Golpe] [TaoJson] [StdSort] [Crypto] in
theorem idle_le (v : ValidatorPhase) : idle v ≤ 1 := by
  unfold idle
  split <;> omega

omit [Golpe] [TaoJson] [StdSort] [Crypto] in
theorem work_validate {m : InputNo × Json} {rest : List (InputNo × Json)} {res : Except Err (Bytes × Bytes)}
    (hv : s.validator = .running (m :: rest)) :
    work writeBatchSize (s.validate m rest res) < work writeBatchSize s := by
  have hi := idle_le (.running rest)
  have hold : idle s.validator = 0 := by rw [hv]; rfl
  unfold WriterPipeline.validate work
  simp only [toValidate, hv]
  rw [hv] at hold
  split
  · simp only [toCollect, queue_push_writer, ValidatorPhase.queue, idle, List.length_append, List.length_cons,
      List.length_nil]
    omega
  · split
    · simp only [toCollect, ValidatorPhase.queue, List.length_append, List.length_cons]
      omega
    · simp only [toCollect, queue_push_writer, ValidatorPhase.queue, List.length_append, List.length_cons,
        List.length_nil]
      omega

omit [Golpe] [TaoJson] [StdSort] [Crypto] in
theorem work_collect {txn : Db} {newEvents proc : List (InputNo × EventToWrite)}
    (hw : s.writer = .collecting txn newEvents proc) :
    work writeBatchSize (s.collect writeBatchSize txn newEvents proc) < work writeBatchSize s := by
  unfold WriterPipeline.collect
  cases newEvents with
  | nil => simp [work, toValidate, toCollect, hw, WriterPhase.queue, rank]
  | cons event rest =>
    simp only []
    split
    · rename_i hfull
      have : ¬ proc.length < writeBatchSize := by omega
      simp only [work, toValidate, toCollect, hw, WriterPhase.queue, rank, this, and_false, if_false]
      omega
    have hdrop : ∀ t : WriterPipeline, t.toValidate = s.toValidate → t.validator = s.validator →
        t.caller = s.caller → t.toCollect.length < s.toCollect.length →
        work writeBatchSize t < work writeBatchSize s := by
      intro t h1 h2 h3 h4
      have hr := rank_le writeBatchSize t.writer
      unfold work
      rw [h1, h2, h3]
      omega
    have hW : s.toCollect = event :: (rest ++ s.writerInbox) := by
      simp [toCollect, hw, WriterPhase.queue]
    split
    · exact hdrop _ rfl rfl rfl (by
        rw [hW]
        simp only [toCollect, WriterPhase.queue, List.length_cons, List.length_append]
        omega)
    split
    · exact hdrop _ rfl rfl rfl (by
        rw [hW]
        simp only [toCollect, WriterPhase.queue, List.length_cons, List.length_append]
        omega)
    split
    · exact hdrop _ rfl rfl rfl (by rw [hW]; simp [toCollect, WriterPhase.queue])
    · exact hdrop _ rfl rfl rfl (by rw [hW]; simp [toCollect, WriterPhase.queue])

omit [Crypto] in
theorem work_commit {proc : List (InputNo × EventToWrite)} {shutdownComplete : Bool}
    (hw : s.writer = .committing proc shutdownComplete) :
    work writeBatchSize (s.commit proc shutdownComplete) < work writeBatchSize s := by
  have hend : ∀ t : WriterPipeline, t.validatorInbox = s.validatorInbox → t.writerInbox = s.writerInbox →
      t.validator = s.validator → t.caller = s.caller → work writeBatchSize (t.endTurn shutdownComplete) <
        work writeBatchSize s := by
    intro t h1 h2 h3 h4
    cases shutdownComplete with
    | true =>
      simp only [endTurn, if_true, work, toValidate, toCollect, WriterPhase.queue, rank, hw, h1, h2, h3, h4]
      omega
    | false =>
      simp only [endTurn, Bool.false_eq_true, if_false, work, toValidate, toCollect, WriterPhase.queue, rank,
        hw, h1, h2, h3, h4]
      omega
  unfold WriterPipeline.commit
  split
  · exact hend s rfl rfl rfl rfl
  · split
    · simp only [work, toValidate, toCollect, WriterPhase.queue, rank, hw]
      omega
    · exact hend _ rfl rfl rfl rfl

/-- **Every step of a thread lowers the work** while `flush` waits. -/
theorem work_decreases (hsize : 1 ≤ writeBatchSize) (hc : s.caller = .flushing)
    (hs : Step cfg verifyMsg verifyTime writeBatchSize IsPacked (fun _ => False) s s') :
    work writeBatchSize s' < work writeBatchSize s := by
  cases hs with
  | write eventJson hc' =>
    rw [hc] at hc'
    cases hc'
  | writeFried line inp hc' hline hF =>
    rw [hc] at hc'
    cases hc'
  | flush hc' =>
    rw [hc] at hc'
    cases hc'
  | flushed _ hf =>
    simp only [work, toValidate, toCollect, flushingRank, hc]
    omega
  | validatorPop hv hne =>
    cases hin : s.validatorInbox with
    | nil => exact absurd hin hne
    | cons m rest => simp [work, toValidate, toCollect, ValidatorPhase.queue, idle, hv, hin]
  | validate m rest now hv => exact work_validate hv
  | writerPop hw hne =>
    simp only [work, toValidate, toCollect, WriterPhase.queue, rank, hw, List.append_nil, List.length_nil]
    rw [if_pos ⟨hne, hsize⟩]
    omega
  | collect txn newEvents proc hw => exact work_collect hw
  | commit proc fin hw => exact work_commit hw
  | other db' hN => exact hN.elim

omit [Golpe] [TaoJson] [StdSort] [Crypto] in
theorem flushing_of_ne {c : CallerPhase} (h : c ≠ .writing) (h' : c ≠ .returned) : c = .flushing := by
  cases c with
  | writing => exact absurd rfl h
  | flushing => rfl
  | returned => exact absurd rfl h'

/-- Once `flush` is called nothing more is written. -/
theorem Step.not_writing {F : EventToWrite → Prop} {N : Db → Prop}
    (hs : Step cfg verifyMsg verifyTime writeBatchSize F N s s') (hc : s.caller ≠ .writing) :
    s'.caller ≠ .writing := by
  cases hs with
  | write eventJson hc' => exact absurd hc' hc
  | writeFried line inp hc' hline hF => exact absurd hc' hc
  | flush hc' => exact absurd hc' hc
  | flushed _ hf => simp
  | validatorPop hv hne => exact hc
  | validate m rest now hv =>
    unfold WriterPipeline.validate
    split
    · exact hc
    · split <;> exact hc
  | writerPop hw hne => exact hc
  | collect txn newEvents proc hw =>
    unfold WriterPipeline.collect
    split
    · exact hc
    · split
      · exact hc
      · split
        · exact hc
        · split
          · exact hc
          · split <;> exact hc
  | commit proc fin hw =>
    unfold WriterPipeline.commit WriterPipeline.endTurn
    split
    · split <;> exact hc
    · split
      · exact hc
      · split <;> exact hc
  | other db' hN => exact hc

omit [Golpe] [TaoJson] [StdSort] [Crypto] in
/-- A writer that has ended has no batch. -/
theorem batch_of_ended (he : s.writer.toEnd = .ended) : s.batch = [] := by
  unfold WriterPipeline.batch
  cases hw : s.writer with
  | committing proc fin =>
    rw [hw] at he
    cases fin <;> cases he
  | collecting txn newEvents proc =>
    rw [hw] at he
    cases he
  | _ => rfl

/-- Everything written is accounted for. -/
structure Conserved (s : WriterPipeline) : Prop where
  /-- every input is rejected, found stored, or passed to `writeEvents`, and only once -/
  once : ∀ n < s.totalProcessed,
    s.rejected.count (some n) + s.dups.count (some n) + s.passed.count (some n) = 1
  total : s.totalProcessed = s.totalWritten + s.totalRejected + s.totalDups
  numLive : s.numLive = 0

/-- **The pipeline conserves its inputs**, whatever the threads and other processes do, as long as the
fried records are packed events and the filters of the trees can be compiled: when `flush` returns all
inputs are accounted for, the writer never fails and ends at the marker of `flush` only, and `flush`
returns in every run of the threads. -/
theorem pipeline_conserves (hsize : 1 ≤ writeBatchSize)
    (h : Reached cfg verifyMsg verifyTime writeBatchSize IsPacked Compiles s) :
    (s.caller = .returned → Conserved s) ∧ s.writer ≠ .crashed ∧
    (∀ no, s.endedBy = some no → no = none) ∧
    (s.caller = .flushing → Inevitable (Step cfg verifyMsg verifyTime writeBatchSize IsPacked fun _ => False)
      (fun t => t.caller = .returned) s) := by
  have hinv := Inv.reached h
  refine ⟨fun hc => ?_, hinv.alive, fun no hno => ?_, fun hc => ?_⟩
  · have hstage := hinv.stage
    rw [hc] at hstage
    obtain ⟨hV, hW, he⟩ := hstage.of_returned
    have hb := batch_of_ended he
    have htotal := hinv.total
    have hlive := hinv.numLive
    simp only [hV, hW, hb, live_nil, List.length_nil, Nat.add_zero, Nat.zero_mod] at htotal hlive
    refine ⟨fun n hn => ?_, by omega, hlive⟩
    have honce := hinv.once n
    simp only [hV, hW, hb, occurs_nil, Nat.add_zero, if_pos hn] at honce
    exact honce
  · rcases hinv.stage.endedBy_marker with h | h
    · rw [h] at hno
      cases hno
    · rw [h] at hno
      exact (Option.some.inj hno).symm
  · refine Inevitable.of_measure (fun t => Inv t ∧ t.caller ≠ .writing) (work writeBatchSize) ?_ ?_
      ⟨hinv, by rw [hc]; decide⟩
    · rintro t ⟨ht, hne⟩ hnot
      exact ht.enabled (flushing_of_ne hne hnot) _
    · rintro t t' ⟨ht, hne⟩ hnot hs
      exact ⟨⟨ht.step (fun _ hf => hf.elim) hs, hs.not_writing hne⟩,
        work_decreases hsize (flushing_of_ne hne hnot) hs⟩

end

/-- Nothing is verified in these runs. -/
@[reducible] def noCrypto : Crypto := ⟨fun _ => [], fun _ => false, fun _ _ _ => false⟩

/-- The line of an event. -/
def textLine : Bytes := friedLine (ascii "\x7b\x7d") (sampleEvent 1 9 100 1 []).buf

/-- A fried event, and something that is no event, are accounted for. -/
theorem pipeline_conserves_two : ∃ s : WriterPipeline, Conserved s ∧ s.rejected = [some 1] ∧
    s.passed = [some 0] := by
  let _ : Golpe := Golpe.plain
  let _ : TaoJson := TaoJson.braces
  let _ : StdSort := StdSort.insertion
  let _ : Crypto := noCrypto
  have hline : parseFried textLine =
      .ok { packedStr := (sampleEvent 1 9 100 1 []).buf, jsonStr := ascii "\x7b\x7d" } :=
    parseFried_friedLine hexDecode_toHex ⟨ascii "\x7b", rfl⟩ (sampleEvent 1 9 100 1 []).size
  have h0 : Reached {} true false 1 IsPacked Compiles { db := {} } := .init {} ⟨[], rfl⟩
  have h1 := h0.step (.writeFried textLine _ rfl hline ⟨_, (sampleEvent 1 9 100 1 []).ofBytes_self⟩)
  have h2 := (h1.step (.write (.bool true) rfl)).step (.flush rfl)
  have h3 := h2.step (.validatorPop rfl (List.cons_ne_nil _ _))
  have h4 := (h3.step (.validate _ _ 0 rfl)).step (.validate _ _ 0 rfl)
  have h5 := h4.step (.writerPop rfl (List.cons_ne_nil _ _))
  have h6 := (h5.step (.collect _ _ _ rfl)).step (.collect _ _ _ rfl)
  have h7 := h6.step (.commit _ _ rfl)
  have h8 := h7.step (.writerPop rfl (List.cons_ne_nil _ _))
  have h9 := (h8.step (.collect _ _ _ rfl)).step (.commit _ _ rfl)
  have h10 := h9.step (.flushed rfl rfl)
  exact ⟨_, (pipeline_conserves (Nat.le_refl 1) h10).1 rfl, rfl, rfl⟩

/-- A line with an empty record. -/
def emptyFried : Bytes :=
  ascii "\x7b\"content\":\"0123456789012345678901234567890123456789012345\"" ++ friedKey ++ [quote, closeBrace]

def emptyInput : EventToWrite where
  packedStr := []
  jsonStr := ascii "\x7b\"content\":\"0123456789012345678901234567890123456789012345\"\x7d"

/-- The writer takes the record for the marker and ends, and `flush` returns with the input
unaccounted for. -/
theorem emptyRecord_stops : ¬ ∀ s, @Reached Golpe.plain TaoJson.braces StdSort.insertion noCrypto {} true false 1
    (fun _ => True) (@Compiles Golpe.plain TaoJson.braces) s →
      (s.caller = .returned → Conserved s) ∧ s.writer ≠ .crashed ∧ (∀ no, s.endedBy = some no → no = none) := by
  let _ : Golpe := Golpe.plain
  let _ : TaoJson := TaoJson.braces
  let _ : StdSort := StdSort.insertion
  let _ : Crypto := noCrypto
  intro hall
  have h0 : Reached {} true false 1 (fun _ => True) Compiles { db := {} } := .init {} ⟨[], rfl⟩
  have h1 := h0.step (.writeFried emptyFried emptyInput rfl rfl trivial)
  have h2 := h1.step (.writerPop rfl (by simp [WriterPipeline.writeEvent]))
  have h3 := (h2.step (.collect _ _ _ rfl)).step (.commit _ _ rfl)
  have h4 := (h3.step (.flush rfl)).step (.flushed rfl rfl)
  have htotal : 1 = 0 := ((hall _ h4).1 rfl).total
  cases htotal

end WriterPipeline

end Strfry
