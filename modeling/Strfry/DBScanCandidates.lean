import Strfry.DBQuerySpec
import Strfry.EventsWrite
import Strfry.Ingester

/-!
# Candidates and their cursors

A candidate of a scan is two words: one holds the index of its cursor above 40 bits of
created_at.  It gives back what it was built from exactly when created_at is less than 2^40
and the index less than 2^24 (`decode_candidate_iff`).

`ScanRun snaps f s`: the scan for `f` has come to `s` by turns of its loop, each over some
snapshot of `snaps`.  Whatever happened between the turns, every queued candidate was built
from a record that its cursor accepted in one of the snapshots (`Source`), and it leads back
to that cursor when the event's created_at is less than 2^40 (`candidates_keep_iff`).
-/

namespace Strfry

namespace DBScan

/-- A word of two parts is less than 2^64. -/
theorem packed_lt {j : Nat} {x : Nat × Nat} (hx : x.1 < 2 ^ 64) : (candidate j x).packed < 2 ^ 64 :=
  Nat.or_lt_two_pow (Nat.mod_lt _ (by norm_num)) hx

/-- **When the packing keeps its parts.** -/
theorem decode_candidate_iff {j : Nat} {x : Nat × Nat} (hx : x.1 < 2 ^ 64) :
    (candidate j x).decode = (j, x) ↔ x.1 < 2 ^ 40 ∧ j < 2 ^ 24 := by
  constructor
  · intro h
    have hs : (candidate j x).packed >>> 40 = j := congrArg Prod.fst h
    have hc : (candidate j x).packed &&& 0xFFFFFFFFFF = x.1 := congrArg (fun y => y.2.1) h
    have hlt := packed_lt (j := j) hx
    rw [show 0xFFFFFFFFFF = 2 ^ 40 - 1 by norm_num, Nat.and_two_pow_sub_one_eq_mod] at hc
    rw [Nat.shiftRight_eq_div_pow] at hs
    omega
  · rintro ⟨hc, hj⟩
    exact decode_candidate hj hc

/-! ## What is collected -/

/-- The candidate stands for a record of the walk that the cursor accepts. -/
def Taken (f : NostrFilter) (km : Bytes → KeyMatchResult) (j : Nat) (l : List (Bytes × Nat))
    (e : CandidateEvent) : Prop :=
  ∃ r ∈ l, km r.1 = .yes ∧ timesOk f (ParsedKeyStringUint64.parse r.1).n = true ∧
    e = candidate j ((ParsedKeyStringUint64.parse r.1).n, r.2)

theorem Taken.mono {f : NostrFilter} {km : Bytes → KeyMatchResult} {j : Nat} {l l' : List (Bytes × Nat)}
    {e : CandidateEvent} (h : Taken f km j l e) (hl : ∀ r ∈ l, r ∈ l') : Taken f km j l' e := by
  obtain ⟨r, hr, h⟩ := h
  exact ⟨r, hl r hr, h⟩

theorem walk_taken (f : NostrFilter) (j : Nat) (l : List (Bytes × Nat)) (c : ScanCursor) (limit : Nat)
    (out : List CandidateEvent) :
    (ScanCursor.walk f j l c limit out).cursor.keyMatch = c.keyMatch ∧
    (ScanCursor.walk f j l c limit out).cursor.outstanding = c.outstanding ∧
    ∀ e ∈ (ScanCursor.walk f j l c limit out).output, e ∈ out ∨ Taken f c.keyMatch j l e := by
  induction l generalizing limit out with
  | nil => exact ⟨rfl, rfl, fun e he => Or.inl he⟩
  | cons r l ih =>
    obtain ⟨k, v⟩ := r
    unfold ScanCursor.walk
    split
    · exact ⟨rfl, rfl, fun e he => Or.inl he⟩
    · split
      · exact ⟨rfl, rfl, fun e he => Or.inl he⟩
      · rename_i hyes
        simp only []
        split
        · exact ⟨rfl, rfl, fun e he => Or.inl he⟩
        · rename_i hsince
          split
          · exact ⟨rfl, rfl, fun e he => Or.inl he⟩
          · rename_i huntil
            obtain ⟨h1, h2, h3⟩ := ih (limit - 1) (out ++ [.new v (ParsedKeyStringUint64.parse k).n j])
            refine ⟨h1, h2, fun e he => ?_⟩
            rcases h3 e he with he | he
            · rcases List.mem_append.mp he with he | he
              · exact Or.inl he
              · refine Or.inr ⟨(k, v), List.mem_cons_self, hyes, ?_, List.mem_singleton.mp he⟩
                simp only [timesOk, Bool.and_eq_true, Bool.or_eq_true, decide_eq_true_eq]
                omega
            · exact Or.inr (he.mono fun r hr => List.mem_cons_of_mem _ hr)

theorem collectLoop_taken {txn : Db} {i : Index} {f : NostrFilter} {j fuel : Nat} {c c' : ScanCursor}
    {limit : Nat} {out out' : List CandidateEvent}
    (h : ScanCursor.collectLoop txn i f j fuel c limit out = some (c', out')) :
    c'.keyMatch = c.keyMatch ∧ c'.outstanding = c.outstanding ∧
    ∀ e ∈ out', e ∈ out ∨ Taken f c.keyMatch j (txn.entries i) e := by
  induction fuel generalizing c limit out with
  | zero =>
    unfold ScanCursor.collectLoop at h
    split at h
    · cases h
    · cases h
      exact ⟨rfl, rfl, fun e he => Or.inl he⟩
  | succ fuel ih =>
    unfold ScanCursor.collectLoop at h
    split at h
    · obtain ⟨w1, w2, w3⟩ := walk_taken f j (txn.foreachDown i c.resumeKey c.resumeVal) c limit out
      simp only [] at h
      obtain ⟨h1, h2, h3⟩ := ih h
      have hkm : ∀ w : ScanCursor.Walk, (if w.finished then { w.cursor with resumeKey := [] }
          else w.cursor).keyMatch = w.cursor.keyMatch := by
        intro w
        split
        · rfl
        · rfl
      have hout : ∀ w : ScanCursor.Walk, (if w.finished then { w.cursor with resumeKey := [] }
          else w.cursor).outstanding = w.cursor.outstanding := by
        intro w
        split
        · rfl
        · rfl
      rw [hkm, w1] at h1 h3
      rw [hout, w2] at h2
      refine ⟨h1, h2, fun e he => ?_⟩
      rcases h3 e he with he | he
      · rcases w3 e he with he | he
        · exact Or.inl he
        · exact Or.inr (he.mono fun r hr => mem_foreachDown _ _ hr)
      · exact Or.inr he
    · cases h
      exact ⟨rfl, rfl, fun e he => Or.inl he⟩

theorem collect_taken {txn : Db} {i : Index} {f : NostrFilter} {j limit : Nat} {c c' : ScanCursor}
    {out : List CandidateEvent} (h : c.collect txn i f j limit = some (c', out)) :
    c'.keyMatch = c.keyMatch ∧ c'.outstanding = addU64 c.outstanding out.length ∧
    ∀ e ∈ out, Taken f c.keyMatch j (txn.entries i) e := by
  unfold ScanCursor.collect at h
  obtain ⟨⟨c1, out1⟩, hloop, h⟩ := Option.map_eq_some_iff.mp h
  cases h
  obtain ⟨h1, h2, h3⟩ := collectLoop_taken hloop
  refine ⟨h1, by rw [← h2], fun e he => (h3 e he).resolve_left (by simp)⟩

/-! ## Runs -/

theorem scanned_plan (f : NostrFilter) : Scanned (new f).indexDbi := by
  unfold new plan Scanned
  simp only []
  split
  · simp
  · simp
  · split
    · simp
    · simp
  · simp
  · simp
  · simp

/-- A scan for `f` after turns over snapshots of `snaps`. -/
inductive ScanRun [StdSort] (snaps : Db → Prop) (f : NostrFilter) : DBScan → Prop
  | start : ScanRun snaps f (new f)
  | turn {σ : Type} (txn : Db) (handleEvent doPause : Nat → σ → Bool × σ) (s s' : DBScan) (st st' : σ) :
      ScanRun snaps f s → snaps txn →
      (scanStep txn handleEvent doPause s st).left = some (s', st') → ScanRun snaps f s'

/-- A turn leaves the plan of the scan alone. -/
structure SamePlan (s s' : DBScan) : Prop where
  f : s'.f = s.f
  indexOnly : s'.indexOnly = s.indexOnly
  indexDbi : s'.indexDbi = s.indexDbi
  initialScanDepth : s'.initialScanDepth = s.initialScanDepth
  refillScanDepth : s'.refillScanDepth = s.refillScanDepth
  keyMatch : s'.cursors.map ScanCursor.keyMatch = s.cursors.map ScanCursor.keyMatch

theorem SamePlan.refl (s : DBScan) : SamePlan s s := ⟨rfl, rfl, rfl, rfl, rfl, rfl⟩

theorem SamePlan.trans {s s' s'' : DBScan} (h : SamePlan s s') (h' : SamePlan s' s'') : SamePlan s s'' :=
  ⟨h'.f.trans h.f, h'.indexOnly.trans h.indexOnly, h'.indexDbi.trans h.indexDbi,
    h'.initialScanDepth.trans h.initialScanDepth, h'.refillScanDepth.trans h.refillScanDepth,
    h'.keyMatch.trans h.keyMatch⟩

theorem SamePlan.length {s s' : DBScan} (h : SamePlan s s') : s'.cursors.length = s.cursors.length := by
  have := congrArg List.length h.keyMatch
  simpa using this

/-- Putting back a cursor that matches the same keys. -/
theorem map_keyMatch_set {cs : List ScanCursor} {j : Nat} {c c' : ScanCursor} (hc : cs[j]? = some c)
    (hkm : c'.keyMatch = c.keyMatch) :
    (cs.set j c').map ScanCursor.keyMatch = cs.map ScanCursor.keyMatch := by
  refine List.ext_getElem? fun i => ?_
  rw [List.getElem?_map, List.getElem?_map, List.getElem?_set]
  by_cases hi : j = i
  · subst hi
    rw [if_pos rfl, if_pos (List.getElem?_eq_some_iff.mp hc).1, hc, Option.map_some, Option.map_some, hkm]
  · rw [if_neg hi]

section
variable [StdSort] {txn : Db} {s s' : DBScan}

/-- What came into the queue in a turn was taken by one of the cursors. -/
def Came (txn : Db) (s s' : DBScan) : Prop :=
  ∀ e ∈ s'.eventQueue, e ∈ s.eventQueue ∨
    ∃ j c, s.cursors[j]? = some c ∧ Taken s.f c.keyMatch j (txn.entries s.indexDbi) e

theorem initStep_frame (h : s.initStep txn = some s') : SamePlan s s' ∧ Came txn s s' := by
  obtain ⟨c, c', out, hc, hcol, rfl⟩ := initStep_eq_some h
  obtain ⟨hkm, -, htaken⟩ := collect_taken hcol
  refine ⟨⟨rfl, rfl, rfl, rfl, rfl, map_keyMatch_set hc hkm⟩, fun e he => ?_⟩
  have he : e ∈ s.eventQueue ++ out := by
    replace he : e ∈ if s.nextInitIndex + 1 = s.cursors.length then
      StdSort.sort cmp (s.eventQueue ++ out) else s.eventQueue ++ out := he
    split at he
    · exact (StdSort.perm _ _).mem_iff.mp he
    · exact he
  rcases List.mem_append.mp he with he | he
  · exact Or.inl he
  · exact Or.inr ⟨_, c, hc, htaken e he⟩

omit [StdSort] in
theorem release_frame {ev : CandidateEvent} (h : s.release txn ev = some s') :
    SamePlan s s' ∧ Came txn s s' := by
  obtain ⟨c, hc, ⟨-, rfl⟩ | ⟨-, c', out, hcol, rfl⟩⟩ := release_eq_some h
  · exact ⟨⟨rfl, rfl, rfl, rfl, rfl, map_keyMatch_set hc rfl⟩, fun e he => Or.inl he⟩
  · obtain ⟨hkm, -, htaken⟩ := collect_taken hcol
    refine ⟨⟨rfl, rfl, rfl, rfl, rfl, map_keyMatch_set hc hkm⟩, fun e he => ?_⟩
    rcases List.mem_append.mp ((List.merge_perm_append _).mem_iff.mp he) with he | he
    · exact Or.inl he
    · exact Or.inr ⟨_, c, hc, htaken e he⟩

/-- **Frame** of a turn. -/
theorem scanStep_frame {σ : Type} {handleEvent doPause : Nat → σ → Bool × σ} {st st' : σ}
    (h : (scanStep txn handleEvent doPause s st).left = some (s', st')) :
    SamePlan s s' ∧ Came txn s s' := by
  rcases scanStep_cases h with ⟨rfl, -⟩ | ⟨-, hs, -⟩ | ⟨ev, rest, -, hq, hs, -⟩
  · exact ⟨⟨rfl, rfl, rfl, rfl, rfl, rfl⟩, fun e he => Or.inl he⟩
  · obtain ⟨h1, h2⟩ := initStep_frame hs
    exact ⟨⟨h1.f, h1.indexOnly, h1.indexDbi, h1.initialScanDepth, h1.refillScanDepth, h1.keyMatch⟩, h2⟩
  · have hrest : ∀ e ∈ rest, e ∈ s.eventQueue := fun e he => hq ▸ List.mem_cons_of_mem _ he
    rcases hs with rfl | hs
    · exact ⟨⟨rfl, rfl, rfl, rfl, rfl, rfl⟩, fun e he => Or.inl (hrest e he)⟩
    · obtain ⟨h1, h2⟩ := release_frame hs
      refine ⟨⟨h1.f, h1.indexOnly, h1.indexDbi, h1.initialScanDepth, h1.refillScanDepth, h1.keyMatch⟩,
        fun e he => ?_⟩
      exact (h2 e he).imp_left (hrest e)

end

/-- The candidate was built from a stored event of one of the snapshots, under a key that the
cursor accepts. -/
structure Source (snaps : Db → Prop) (f : NostrFilter) (e : CandidateEvent) (j : Nat) (x : Nat × Nat) :
    Prop where
  eq : e = candidate j x
  event : ∃ txn v, snaps txn ∧ (x.2, v) ∈ txn.event.rows ∧ v.createdAt = x.1 ∧ timesOk f x.1 = true ∧
    ∃ c, (new f).cursors[j]? = some c ∧ ∃ k ∈ indexKeys v (new f).indexDbi, c.keyMatch k = .yes

theorem Taken.source {snaps : Db → Prop} {f : NostrFilter} {txn : Db} (htxn : snaps txn) {j : Nat}
    {c : ScanCursor} (hc : (new f).cursors[j]? = some c) {e : CandidateEvent}
    (h : Taken f c.keyMatch j (txn.entries (new f).indexDbi) e) : ∃ x, Source snaps f e j x := by
  obtain ⟨r, hr, hyes, ht, he⟩ := h
  refine ⟨_, he, ?_⟩
  obtain ⟨v, hv, hk⟩ := (txn.mem_entries _ _).mp hr
  have hkey := hk
  rw [indexKeys_eq v (scanned_plan f)] at hkey
  obtain ⟨p, -, hp⟩ := List.mem_map.mp hkey
  have hcreated : v.createdAt = (ParsedKeyStringUint64.parse r.1).n := by
    rw [← hp, parse_makeKey p _ v.createdAt_lt]
  exact ⟨txn, v, htxn, hv, hcreated, ht, c, hc, r.1, hk, hyes⟩

theorem Source.lt {snaps : Db → Prop} {f : NostrFilter} {e : CandidateEvent} {j : Nat} {x : Nat × Nat}
    (h : Source snaps f e j x) : x.1 < 2 ^ 64 ∧ j < (new f).cursors.length := by
  obtain ⟨-, txn, v, -, -, hc, -, c, hj, -⟩ := h
  exact ⟨hc ▸ v.createdAt_lt, (List.getElem?_eq_some_iff.mp hj).1⟩

/-- The queue of a run has sources. -/
theorem ScanRun.sources [StdSort] {snaps : Db → Prop} {f : NostrFilter} {s : DBScan}
    (h : ScanRun snaps f s) :
    SamePlan (new f) s ∧ ∀ e ∈ s.eventQueue, ∃ j x, Source snaps f e j x := by
  induction h with
  | start => exact ⟨.refl _, fun e he => by cases he⟩
  | turn txn handleEvent doPause s s' st st' _ htxn hstep ih =>
    obtain ⟨hplan, hsources⟩ := ih
    obtain ⟨hsame, hcame⟩ := scanStep_frame hstep
    refine ⟨hplan.trans hsame, fun e he => ?_⟩
    rcases hcame e he with he | ⟨j, c, hc, htaken⟩
    · exact hsources e he
    · have hkm := congrArg (fun l => l[j]?) hplan.keyMatch
      simp only [List.getElem?_map, hc, Option.map_some] at hkm
      obtain ⟨c0, hc0, hkm⟩ := Option.map_eq_some_iff.mp hkm.symm
      rw [hplan.f, hplan.indexDbi, ← hkm] at htaken
      obtain ⟨x, hx⟩ := htaken.source htxn hc0
      exact ⟨j, x, hx⟩

/-- **Candidates keep their cursors**, in any run over any snapshots, exactly when the created_at of
the event is less than 2^40 and its cursor one of the first 2^24: every queued candidate was built
from an event, and leads back to what it was built from. -/
theorem candidates_keep_iff [StdSort] (snaps : Db → Prop) (f : NostrFilter) (s : DBScan)
    (h : ScanRun snaps f s) (e : CandidateEvent) (he : e ∈ s.eventQueue) :
    (∃ j x, Source snaps f e j x) ∧
    ∀ j x, Source snaps f e j x → j < s.cursors.length ∧
      ((e.levId = x.2 ∧ e.created = x.1 ∧ e.scanIndex = j) ↔ x.1 < 2 ^ 40 ∧ j < 2 ^ 24) := by
  obtain ⟨hplan, hsources⟩ := h.sources
  refine ⟨hsources e he, fun j x hx => ?_⟩
  obtain ⟨h64, hj⟩ := hx.lt
  refine ⟨by rw [hplan.length]; exact hj, Iff.trans ?_ (decode_candidate_iff (j := j) h64)⟩
  rw [← hx.eq]
  unfold CandidateEvent.decode
  constructor
  · rintro ⟨h1, h2, h3⟩
    rw [h1, h2, h3]
  · intro hd
    have h1 := congrArg Prod.fst hd
    have h2 := congrArg Prod.snd hd
    exact ⟨congrArg Prod.snd h2, congrArg Prod.fst h2, h1⟩

/-- Relay ingest admits no event that is too new to be packed, as long as its clock and the time
window leave room. -/
theorem verifyEventTimestamp_lt {cfg : Cfg} {now : Nat} {packed : PackedEventView}
    (hnow : now + cfg.eventsRejectEventsNewerThanSeconds < 2 ^ 40)
    (h : verifyEventTimestamp cfg now packed = .ok ()) : packed.createdAt < 2 ^ 40 := by
  unfold verifyEventTimestamp at h
  obtain ⟨_, -, h⟩ := bind_eq_ok.mp h
  obtain ⟨_, hle, -⟩ := bind_eq_ok.mp h
  have hle := throwIf_eq_ok.mp hle
  rw [Nat.mod_eq_of_lt (by omega), if_neg (by omega)] at hle
  omega

/-- One turn that neither pauses nor stops. -/
def plainTurn [StdSort] (txn : Db) (s : DBScan) : ScanStep Unit :=
  scanStep txn (fun _ _ => (false, ())) (fun _ _ => (false, ())) s ()

/-- Two notes are collected by the cursor of kind 1. -/
theorem candidates_keep_iff_note : ∃ s e, @ScanRun StdSort.insertion (· = DBQuery.threeEvents)
    DBQuery.kind1Filter s ∧ e ∈ s.eventQueue ∧ e.levId = 3 ∧ e.created = 300 ∧ e.scanIndex = 0 := by
  let _ : StdSort := StdSort.insertion
  obtain ⟨s, hs, hq⟩ : ∃ s, (plainTurn DBQuery.threeEvents (new DBQuery.kind1Filter)).left = some (s, ()) ∧
      s.eventQueue = [candidate 0 (300, 3), candidate 0 (100, 1)] := ⟨_, rfl, by decide +kernel⟩
  have hrun : ScanRun (· = DBQuery.threeEvents) DBQuery.kind1Filter s := .turn _ _ _ _ _ _ _ .start rfl hs
  have hmem : candidate 0 (300, 3) ∈ s.eventQueue := hq ▸ List.mem_cons_self
  have hsource : Source (· = DBQuery.threeEvents) DBQuery.kind1Filter (candidate 0 (300, 3)) 0 (300, 3) :=
    ⟨rfl, _, sampleEvent 3 9 300 1 [], rfl, by decide, by decide, by decide, _, rfl, _, List.mem_singleton.mpr rfl,
      by decide⟩
  exact ⟨s, _, hrun, hmem, ((candidates_keep_iff _ _ s hrun _ hmem).2 0 (300, 3) hsource).2.mpr (by decide)⟩

/-! ## An event of the year 36812 -/

/-- A note with created_at 2^40. -/
def lateJson : Json :=
  .object [(ascii "content", .string []), (ascii "created_at", .unsigned (Fin.ofNat _ (2 ^ 40))),
    (ascii "id", .string (toHex (List.replicate 32 1))), (ascii "kind", .unsigned 1),
    (ascii "pubkey", .string (toHex (List.replicate 32 9))), (ascii "sig", .string []), (ascii "tags", .array [])]

def lateEvent : PackedEventView := sampleEvent 1 9 (Fin.ofNat _ (2 ^ 40)) 1 []

/-- `strfry import --no-verify` of it. -/
def importLate [Golpe] [TaoJson] [Crypto] [StdSort] : Except Err Db := do
  let (packedStr, jsonStr) ← parseAndVerifyEvent {} 0 false false lateJson
  let (db, _, _) ← writeEvents {} {} [{ packedStr := packedStr, jsonStr := jsonStr }]
  return db

/-- `{"kinds": [1]}`. -/
def notesFilter : NostrFilter := { DBQuery.kind1Filter with limit := 500 }

/-- What a turn of the scan and a query make of it. -/
def lateRuns [StdSort] (db : Db) : Bool :=
  decide (db.event.rows = [(1, lateEvent)]) &&
  (match (plainTurn db (new notesFilter)).left with
  | some (s, ()) => decide (s.eventQueue = [candidate 0 (2 ^ 40, 1)] ∧ s.cursors.length = 1)
  | none => false) &&
  match DBQuery.process db (List.replicate 3 fun _ l => (false, l))
    ({ sub := DBQuery.subOf [notesFilter] }, []) with
  | .undefined => true
  | _ => false

theorem importLate_runs : okAnd (@lateRuns StdSort.insertion)
    (@importLate Golpe.plain TaoJson.braces ⟨fun _ => [], fun _ => false, fun _ _ _ => false⟩
      StdSort.insertion) = true := by
  decide +kernel

/-- The note is imported, and its candidate leads from the only cursor of the scan to a second one,
which there is not. -/
theorem lateEvent_loses_cursor : ∃ db, @importLate Golpe.plain TaoJson.braces
      ⟨fun _ => [], fun _ => false, fun _ _ _ => false⟩ StdSort.insertion = .ok db ∧
    (∃ s e, @ScanRun StdSort.insertion (· = db) notesFilter s ∧ e ∈ s.eventQueue ∧
      Source (· = db) notesFilter e 0 (2 ^ 40, 1) ∧ s.cursors.length = 1 ∧
      e.scanIndex = 1 ∧ e.created = 0) ∧
    ∃ pauses, @DBQuery.process StdSort.insertion db pauses
      ({ sub := DBQuery.subOf [notesFilter] }, []) = .undefined := by
  let _ : StdSort := StdSort.insertion
  obtain ⟨db, hdb, hruns⟩ := exists_of_okAnd importLate_runs
  unfold lateRuns at hruns
  rw [Bool.and_eq_true, Bool.and_eq_true, decide_eq_true_eq] at hruns
  obtain ⟨⟨hrows, hturn⟩, hprocess⟩ := hruns
  refine ⟨db, hdb, ?_, List.replicate 3 fun _ l => (false, l), ?_⟩
  · split at hturn
    · rename_i s hs
      obtain ⟨hq, hlen⟩ := of_decide_eq_true hturn
      refine ⟨s, candidate 0 (2 ^ 40, 1), .turn _ _ _ _ _ _ _ .start rfl hs, hq ▸ List.mem_cons_self,
        ⟨rfl, db, lateEvent, rfl, ?_, by decide, by decide, _, rfl, _, List.mem_singleton.mpr rfl,
          by decide⟩, hlen, by decide, by decide⟩
      rw [hrows]
      exact List.mem_cons_self
    · cases hturn
  · split at hprocess
    · assumption
    · cases hprocess

end DBScan

end Strfry
