import Strfry.Db
import Strfry.Subscription

/-!
# Index scans

`DBScan` (`DBQuery.h`) answers one filter from one index.  The constructor picks the
index and makes one cursor per key prefix; `scan` collects a few records of every
cursor, sorts them, and then hands out the newest candidate again and again, refilling
a cursor whenever none of its records is queued.

`scan` is a `while (1)` loop that can stop at its head when `doPause` says so and go on
from there at the next call.  `scanStep` is one turn of that loop; the callbacks carry
the caller's state `σ`.  A turn can also be undefined: a cursor index out of range, or
a `collect` that does not come back.
-/

namespace Strfry

namespace DBScan

/-- Two words: the scan index above 40 bits of created_at, and the levId. -/
structure CandidateEvent where
  packed : Nat
  levIdStorage : Nat
deriving DecidableEq

namespace CandidateEvent

def new (levId created scanIndex : Nat) : CandidateEvent :=
  ⟨(scanIndex <<< 40) % 2 ^ 64 ||| created, levId⟩

def levId (c : CandidateEvent) : Nat := c.levIdStorage

def created (c : CandidateEvent) : Nat := c.packed &&& 0xFFFFFFFFFF

def scanIndex (c : CandidateEvent) : Nat := c.packed >>> 40

end CandidateEvent

inductive KeyMatchResult where
  | yes
  | no
deriving DecidableEq

structure ScanCursor where
  resumeKey : Bytes
  resumeVal : Nat
  keyMatch : Bytes → KeyMatchResult
  /-- number of records remaining in eventQueue -/
  outstanding : Nat := 0

namespace ScanCursor

def active (c : ScanCursor) : Bool := c.resumeKey.length > 0

/-- What a walk over the records leaves: whether it reached the end, the cursor, the limit
and the output. -/
structure Walk where
  finished : Bool
  cursor : ScanCursor
  limit : Nat
  output : List CandidateEvent

/-- The callback of `collect`, over the records the walk visits. -/
def walk (f : NostrFilter) (scanIndex : Nat) :
    List (Bytes × Nat) → ScanCursor → Nat → List CandidateEvent → Walk
  | [], c, limit, output => ⟨true, c, limit, output⟩
  | (k, v) :: rest, c, limit, output =>
    if limit = 0 then ⟨false, { c with resumeKey := k, resumeVal := v }, limit, output⟩
    else match c.keyMatch k with
      | .no => ⟨false, { c with resumeKey := [] }, limit, output⟩
      | .yes =>
        let parsedKey := ParsedKeyStringUint64.parse k
        let created := parsedKey.n
        if f.since ≠ 0 ∧ created < f.since then
          ⟨false, { c with resumeKey := makeKeyStringUint64 parsedKey.s 0, resumeVal := 0 },
            limit, output⟩
        else if f.until_ ≠ 0 ∧ created > f.until_ then
          ⟨false, { c with resumeKey := makeKeyStringUint64 parsedKey.s f.until_,
                           resumeVal := maxU64 }, limit, output⟩
        else walk f scanIndex rest c (limit - 1) (output ++ [.new v created scanIndex])

/-- The loop of `collect`; `none` when it needs more turns than `fuel`. -/
def collectLoop (txn : Db) (index : Index) (f : NostrFilter) (scanIndex : Nat) :
    Nat → ScanCursor → Nat → List CandidateEvent → Option (ScanCursor × List CandidateEvent)
  | fuel, c, limit, output =>
    if c.active ∧ limit > 0 then
      match fuel with
      | 0 => none
      | fuel + 1 =>
        let w := walk f scanIndex (txn.foreachDown index c.resumeKey c.resumeVal) c limit output
        let c := if w.finished then { w.cursor with resumeKey := [] } else w.cursor
        collectLoop txn index f scanIndex fuel c w.limit w.output
    else some (c, output)

/-- `collect`: the records added, or `none` when the loop does not end. -/
def collect (txn : Db) (index : Index) (f : NostrFilter) (scanIndex limit : Nat) (c : ScanCursor) :
    Option (ScanCursor × List CandidateEvent) :=
  (collectLoop txn index f scanIndex ((txn.entries index).length + 3) c limit []).map
    fun r => ({ r.1 with outstanding := addU64 r.1.outstanding r.2.length }, r.2)

/-- A cursor at the end of a key prefix. -/
def start (search : Bytes) (keyMatch : Bytes → KeyMatchResult) : ScanCursor where
  resumeKey := search ++ List.replicate 8 0xFF
  resumeVal := maxU64
  keyMatch := keyMatch

end ScanCursor

end DBScan

open DBScan in
structure DBScan where
  f : NostrFilter
  indexOnly : Bool
  indexDbi : Index
  desc : String
  cursors : List ScanCursor
  /-- sorted descending by created -/
  eventQueue : List CandidateEvent := []
  initialScanDepth : Nat
  refillScanDepth : Nat
  nextInitIndex : Nat := 0
  approxWork : Nat := 0

namespace DBScan

/-- `k.starts_with(search)`. -/
def prefixMatch (search k : Bytes) : KeyMatchResult := if startsWith k search then .yes else .no

/-- `k.size() == search.size() + 8 && k.starts_with(search)`. -/
def exactMatch (search k : Bytes) : KeyMatchResult :=
  if k.length = search.length + 8 ∧ startsWith k search then .yes else .no

/-- The first field of the tag map with the fewest values. -/
def smallestTag : List (Byte × FilterSetBytes) → Option (Byte × FilterSetBytes)
  | [] => none
  | t :: ts => some (ts.foldl (fun best u => if u.2.size < best.2.size then u else best) t)

/-- The index, its name and the cursors the constructor chooses; `indexOnly` is given up
when the kinds of a large authors-and-kinds filter are not part of the keys. -/
def plan (f : NostrFilter) : Index × String × Bool × List ScanCursor :=
  match f.ids, smallestTag f.tags, f.authors, f.kinds with
  | some ids, _, _, _ =>
    (.id, "ID", f.indexOnlyScans,
      ids.elems.map fun search => ScanCursor.start search (prefixMatch search))
  | none, some (tagName, filterSet), _, _ =>
    (.tag, "Tag", f.indexOnlyScans,
      filterSet.elems.map fun val => ScanCursor.start (tagName :: val) (exactMatch (tagName :: val)))
  | none, none, some authors, some kinds =>
    if authors.size * kinds.size < 1000 then
      (.pubkeyKind, "PubkeyKind", f.indexOnlyScans,
        authors.elems.flatMap fun author => kinds.items.map fun kind =>
          ScanCursor.start (author ++ toSv kind) (prefixMatch (author ++ toSv kind)))
    else
      (.pubkey, "Pubkey", false,
        authors.elems.map fun search => ScanCursor.start search (prefixMatch search))
  | none, none, some authors, none =>
    (.pubkey, "Pubkey", f.indexOnlyScans,
      authors.elems.map fun search => ScanCursor.start search (prefixMatch search))
  | none, none, none, some kinds =>
    (.kind, "Kind", f.indexOnlyScans,
      kinds.items.map fun kind => ScanCursor.start (toSv kind) fun k =>
        if (ParsedKeyUint64Uint64.parse k).n1 = kind then .yes else .no)
  | none, none, none, none =>
    (.createdAt, "CreatedAt", f.indexOnlyScans, [ScanCursor.start [] fun _ => .yes])

/-- `std::clamp(f.limit / cursors.size(), 5, 50)`. -/
def scanDepth (limit numCursors : Nat) : Nat := max 5 (min 50 (limit / numCursors))

/-- `DBScan::DBScan`. -/
def new (f : NostrFilter) : DBScan :=
  let p := plan f
  { f := f
    indexDbi := p.1
    desc := p.2.1
    indexOnly := p.2.2.1
    cursors := p.2.2.2
    initialScanDepth := scanDepth f.limit p.2.2.2.length
    refillScanDepth := 10 * scanDepth f.limit p.2.2.2.length }

/-- The order of the event queue: newest first. -/
def cmp (a b : CandidateEvent) : Bool :=
  if a.created = b.created then a.levId > b.levId else a.created > b.created

/-- Collect the first records of the next cursor; sort once all cursors have their first
records. -/
def initStep [StdSort] (txn : Db) (s : DBScan) : Option DBScan := do
  let c ← s.cursors[s.nextInitIndex]?
  let (c, out) ← c.collect txn s.indexDbi s.f s.nextInitIndex s.initialScanDepth
  let eventQueue := s.eventQueue ++ out
  return { s with
    cursors := s.cursors.set s.nextInitIndex c
    eventQueue := if s.nextInitIndex + 1 = s.cursors.length then StdSort.sort cmp eventQueue
      else eventQueue
    nextInitIndex := s.nextInitIndex + 1
    approxWork := s.approxWork + out.length }

/-- Whether a candidate is passed on: by its time alone, or by looking the event up. -/
def doSend (txn : Db) (s : DBScan) (ev : CandidateEvent) : Bool :=
  if s.indexOnly then s.f.doesMatchTimes ev.created
  else match txn.event.lookup ev.levId with
    | some view => s.f.doesMatch view
    | none => false

/-- Put cursor `scanIndex` back, reading more of it when none of its records is queued. -/
def refill (txn : Db) (s : DBScan) (scanIndex : Nat) (c : ScanCursor) : Option DBScan :=
  if c.outstanding = 0 then do
    let (c, moreEvents) ← c.collect txn s.indexDbi s.f scanIndex s.refillScanDepth
    return { s with
      cursors := s.cursors.set scanIndex c
      eventQueue := s.eventQueue.merge moreEvents fun a b => !cmp b a
      approxWork := s.approxWork + moreEvents.length }
  else some { s with cursors := s.cursors.set scanIndex c }

/-- Account for a candidate that left the queue: its cursor has one record less queued, and
is refilled when it has none. -/
def release (txn : Db) (s : DBScan) (ev : CandidateEvent) : Option DBScan := do
  let c ← s.cursors[ev.scanIndex]?
  s.refill txn ev.scanIndex { c with outstanding := subU64 c.outstanding 1 }

inductive ScanStep (σ : Type) where
  | again (s : DBScan) (st : σ)
  | returned (complete : Bool) (s : DBScan) (st : σ)
  | undefined

/-- A turn that goes on with `o`, when there is one. -/
def ScanStep.ofOption {σ : Type} (st : σ) : Option DBScan → ScanStep σ
  | some s => .again s st
  | none => .undefined

/-- One turn of the loop of `scan`. -/
def scanStep [StdSort] {σ : Type} (txn : Db) (handleEvent : Nat → σ → Bool × σ)
    (doPause : Nat → σ → Bool × σ) (s : DBScan) (st : σ) : ScanStep σ :=
  let s := { s with approxWork := s.approxWork + 1 }
  let paused := doPause s.approxWork st
  if paused.1 then .returned false s paused.2
  else if s.nextInitIndex < s.cursors.length then .ofOption paused.2 (s.initStep txn)
  else match s.eventQueue with
    | [] => .returned true s paused.2
    | ev :: rest =>
      let s' := { s with
        eventQueue := rest
        approxWork := if s.indexOnly then s.approxWork else s.approxWork + 10 }
      let handled := if s.doSend txn ev then handleEvent ev.levId paused.2 else (false, paused.2)
      if handled.1 then .returned true s' handled.2
      else .ofOption handled.2 (s'.release txn ev)

/-! ## What a turn leaves -/

/-- The scan and the caller's state after a turn. -/
def ScanStep.left {σ : Type} : ScanStep σ → Option (DBScan × σ)
  | .again s st => some (s, st)
  | .returned _ s st => some (s, st)
  | .undefined => none

theorem ScanStep.left_ofOption {σ : Type} {st : σ} {o : Option DBScan} {r : DBScan × σ}
    (h : (ScanStep.ofOption st o).left = some r) : o = some r.1 ∧ r.2 = st := by
  cases o with
  | none => cases h
  | some s =>
    cases h
    exact ⟨rfl, rfl⟩

/-- The scan without the head of its queue. -/
def popped (s : DBScan) (rest : List CandidateEvent) : DBScan :=
  { s with
    eventQueue := rest
    approxWork := if s.indexOnly then s.approxWork else s.approxWork + 10 }

/-- **What one turn does**: nothing but count its work when it pauses or the scan is at its end,
read the next cursor for the first time, or take the head of the queue. -/
theorem scanStep_cases [StdSort] {σ : Type} {txn : Db} {handleEvent doPause : Nat → σ → Bool × σ}
    {s s' : DBScan} {st st' : σ}
    (h : (scanStep txn handleEvent doPause s st).left = some (s', st')) :
    let worked := { s with approxWork := s.approxWork + 1 }
    let paused := (doPause (s.approxWork + 1) st).2
    (s' = worked ∧ st' = paused) ∨
    (s.nextInitIndex < s.cursors.length ∧ worked.initStep txn = some s' ∧ st' = paused) ∨
    (∃ ev rest, ¬ s.nextInitIndex < s.cursors.length ∧ s.eventQueue = ev :: rest ∧
      (s' = worked.popped rest ∨ (worked.popped rest).release txn ev = some s') ∧
      st' = (if s.doSend txn ev then handleEvent ev.levId paused else (false, paused)).2) := by
  unfold scanStep at h
  simp only [] at h
  split at h
  · cases h
    exact Or.inl ⟨rfl, rfl⟩
  · split at h
    · rename_i hinit
      obtain ⟨hs, hst⟩ := ScanStep.left_ofOption h
      exact Or.inr (Or.inl ⟨hinit, hs, hst⟩)
    · rename_i hinit
      split at h
      · cases h
        exact Or.inl ⟨rfl, rfl⟩
      · rename_i ev rest hq
        refine Or.inr (Or.inr ⟨ev, rest, hinit, hq, ?_⟩)
        rw [show ({ s with approxWork := s.approxWork + 1 } : DBScan).doSend txn ev = s.doSend txn ev
          from rfl] at h
        generalize (if s.doSend txn ev then handleEvent ev.levId (doPause (s.approxWork + 1) st).2
          else (false, (doPause (s.approxWork + 1) st).2)) = handled at h ⊢
        split at h
        · cases h
          exact ⟨Or.inl rfl, rfl⟩
        · obtain ⟨hs, hst⟩ := ScanStep.left_ofOption h
          exact ⟨Or.inr hs, hst⟩

section
variable {txn : Db} {s s' : DBScan}

theorem initStep_eq_some [StdSort] (h : s.initStep txn = some s') : ∃ c c' out,
    s.cursors[s.nextInitIndex]? = some c ∧
    c.collect txn s.indexDbi s.f s.nextInitIndex s.initialScanDepth = some (c', out) ∧
    s' = { s with
      cursors := s.cursors.set s.nextInitIndex c'
      eventQueue := if s.nextInitIndex + 1 = s.cursors.length then
        StdSort.sort cmp (s.eventQueue ++ out) else s.eventQueue ++ out
      nextInitIndex := s.nextInitIndex + 1
      approxWork := s.approxWork + out.length } := by
  unfold initStep at h
  obtain ⟨c, hc, h⟩ := Option.bind_eq_some_iff.mp h
  obtain ⟨⟨c', out⟩, hcol, h⟩ := Option.bind_eq_some_iff.mp h
  exact ⟨c, c', out, hc, hcol, (Option.some.inj h).symm⟩

/-- The cursor of a released candidate has one record less queued; when it has none, it is read
again. -/
theorem release_eq_some {ev : CandidateEvent} (h : s.release txn ev = some s') : ∃ c,
    s.cursors[ev.scanIndex]? = some c ∧
    let c := { c with outstanding := subU64 c.outstanding 1 }
    (c.outstanding ≠ 0 ∧ s' = { s with cursors := s.cursors.set ev.scanIndex c }) ∨
    (c.outstanding = 0 ∧ ∃ c' out,
      c.collect txn s.indexDbi s.f ev.scanIndex s.refillScanDepth = some (c', out) ∧
      s' = { s with
        cursors := s.cursors.set ev.scanIndex c'
        eventQueue := s.eventQueue.merge out fun a b => !cmp b a
        approxWork := s.approxWork + out.length }) := by
  unfold release at h
  obtain ⟨c, hc, h⟩ := Option.bind_eq_some_iff.mp h
  refine ⟨c, hc, ?_⟩
  unfold refill at h
  split at h
  · rename_i hzero
    obtain ⟨⟨c', out⟩, hcol, h⟩ := Option.bind_eq_some_iff.mp h
    exact Or.inr ⟨hzero, c', out, hcol, (Option.some.inj h).symm⟩
  · rename_i hne
    exact Or.inl ⟨hne, (Option.some.inj h).symm⟩

end

/-! ## The caller's state -/

/-- The turn seen through a map of the caller's state. -/
def ScanStep.map {σ τ : Type} (g : σ → τ) : ScanStep σ → ScanStep τ
  | .again s st => .again s (g st)
  | .returned complete s st => .returned complete s (g st)
  | .undefined => .undefined

/-- A turn does nothing to the caller's state but through the callbacks. -/
theorem scanStep_map [StdSort] {σ τ : Type} {txn : Db} {handleEvent doPause : Nat → σ → Bool × σ}
    {handleEvent' doPause' : Nat → τ → Bool × τ} {g : σ → τ}
    (hhandle : ∀ n st, handleEvent' n (g st) = ((handleEvent n st).1, g (handleEvent n st).2))
    (hpause : ∀ n st, doPause' n (g st) = ((doPause n st).1, g (doPause n st).2)) (s : DBScan) (st : σ) :
    scanStep txn handleEvent' doPause' s (g st) = (scanStep txn handleEvent doPause s st).map g := by
  have hof : ∀ (st : σ) (o : Option DBScan), ScanStep.ofOption (g st) o = (ScanStep.ofOption st o).map g := by
    intro st o
    cases o with
    | none => rfl
    | some s => rfl
  unfold scanStep
  simp only [hpause]
  split
  · rfl
  · split
    · exact hof _ _
    · split
      · rfl
      · rename_i ev rest _
        by_cases hsend : doSend txn { s with approxWork := s.approxWork + 1 } ev = true
        · simp only [hsend, if_true, hhandle]
          split
          · rfl
          · exact hof _ _
        · simp only [hsend, Bool.false_eq_true, if_false]
          exact hof _ _

end DBScan

end Strfry
