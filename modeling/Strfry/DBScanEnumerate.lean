import Strfry.DBScanCandidates

/-!
# A cursor enumerates its key range

Every cursor the constructor makes starts at the end of one key prefix and decides which keys have
that prefix (`plan_cursors`).  Calling `collect` again and again on one snapshot (`collectCalls`)
gives the entries under the prefix whose created_at is within the filter's times (`InRange`),
newest first, `limit` of them in each call:

    E = the entries in range, descending
    outputs of calls with limits n₁, n₂, …  =  E.take (n₁ + n₂ + …)       (collect_enumerates)

Whether a cursor is active after a call tells whether to go on.
-/

namespace Strfry

namespace DBScan

/-- The string the cursor was made for. -/
def ScanCursor.keyPrefix (c : ScanCursor) : Bytes := c.resumeKey.take (c.resumeKey.length - 8)

/-- An index entry of this created_at and levId under a key prefix, within the filter's times. -/
def InRange (txn : Db) (i : Index) (p : Bytes) (f : NostrFilter) (x : Nat × Nat) : Prop :=
  (makeKeyStringUint64 p x.1, x.2) ∈ txn.entries i ∧ x.1 < 2 ^ 64 ∧
    (f.since = 0 ∨ f.since ≤ x.1) ∧ (f.until_ = 0 ∨ x.1 ≤ f.until_)

/-- A call of `collect`: its limit, what it returned, and whether the cursor was active afterwards. -/
structure CollectCall where
  limit : Nat
  output : List CandidateEvent
  active : Bool

/-- Calls of `collect`, one after the other. -/
def collectCalls (txn : Db) (i : Index) (f : NostrFilter) (scanIndex : Nat) :
    List Nat → ScanCursor → Option (ScanCursor × List CollectCall)
  | [], c => some (c, [])
  | limit :: limits, c => do
    let (c, output) ← c.collect txn i f scanIndex limit
    let (last, calls) ← collectCalls txn i f scanIndex limits c
    return (last, ⟨limit, output, c.active⟩ :: calls)

@[simp] theorem keyPrefix_start (p : Bytes) (km : Bytes → KeyMatchResult) :
    (ScanCursor.start p km).keyPrefix = p := by
  simp [ScanCursor.keyPrefix, ScanCursor.start]

/-- **The cursors of the constructor**: each is at the end of a prefix of the index, and accepts the
keys of that prefix. -/
theorem plan_cursors {f : NostrFilter} (hv : f.Valid) : Scanned (new f).indexDbi ∧
    ∀ c ∈ (new f).cursors, ∃ p km, c = ScanCursor.start p km ∧ Shape (new f).indexDbi p ∧
      Decides (new f).indexDbi p km := by
  refine ⟨scanned_plan f, ?_⟩
  unfold new plan
  cases hids : f.ids with
  | some ids =>
    intro c hc
    obtain ⟨p, hp, rfl⟩ := List.mem_map.mp hc
    have hlen := (hv.ids ids hids).2 p hp
    exact ⟨p, prefixMatch p, rfl, hlen, decides_prefixMatch fun s hs => Eq.trans hs hlen.symm⟩
  | none =>
    cases htag : smallestTag f.tags with
    | some t =>
      intro c hc
      obtain ⟨val, -, rfl⟩ := List.mem_map.mp hc
      exact ⟨t.1 :: val, exactMatch (t.1 :: val), rfl, trivial, decides_exactMatch _ _⟩
    | none =>
      have hauthors : ∀ authors : FilterSetBytes, f.authors = some authors → ∀ p ∈ authors.elems,
          Shape .pubkey p ∧ Decides .pubkey p (prefixMatch p) := by
        intro authors ha p hp
        have hlen := (hv.authors authors ha).2 p hp
        exact ⟨hlen, decides_prefixMatch fun s hs => Eq.trans hs hlen.symm⟩
      cases ha : f.authors with
      | some authors =>
        cases hk : f.kinds with
        | some kinds =>
          dsimp only
          split
          · intro c hc
            obtain ⟨author, hauthor, hc⟩ := List.mem_flatMap.mp hc
            obtain ⟨kind, -, rfl⟩ := List.mem_map.mp hc
            have hlen : (author ++ toSv kind).length = 40 := by
              rw [List.length_append, (hv.authors authors ha).2 author hauthor, length_toSv]
            exact ⟨author ++ toSv kind, prefixMatch (author ++ toSv kind), rfl, hlen,
              decides_prefixMatch fun s hs => Eq.trans hs hlen.symm⟩
          · intro c hc
            obtain ⟨p, hp, rfl⟩ := List.mem_map.mp hc
            exact ⟨p, prefixMatch p, rfl, hauthors authors ha p hp⟩
        | none =>
          intro c hc
          obtain ⟨p, hp, rfl⟩ := List.mem_map.mp hc
          exact ⟨p, prefixMatch p, rfl, hauthors authors ha p hp⟩
      | none =>
        cases hk : f.kinds with
        | some kinds =>
          intro c hc
          obtain ⟨kind, hkind, rfl⟩ := List.mem_map.mp hc
          exact ⟨toSv kind, _, rfl, length_toSv kind, decides_kind ((hv.kinds kinds hk).2 kind hkind)⟩
        | none =>
          intro c hc
          rw [List.mem_singleton.mp hc]
          refine ⟨[], fun _ => .yes, rfl, rfl, ?_⟩
          intro s n hs _
          have hs : s = [] := hs
          simp [hs]

section
variable {txn : Db} {i : Index} {p : Bytes} {km : Bytes → KeyMatchResult} {a : Bytes} {b : Nat}

/-- A call that returns fewer than its limit leaves an inactive cursor. -/
theorem collect_short (hb : KeyBlock txn i p km a b) {f : NostrFilter} (hf : f.until_ < 2 ^ 64) (j limit : Nat)
    {c : ScanCursor} {P : List (Nat × Nat)} (h : Pending txn i p f c P) : ∃ c' out,
      c.collect txn i f j limit = some (c', out) ∧ out = (P.take limit).map (candidate j) ∧
      Pending txn i p f c' (P.drop limit) ∧ (out.length < limit → c'.active = false) := by
  obtain ⟨c', hcol, hpend, -, -, hshort⟩ := collect_spec hb f hf j limit c P h
  refine ⟨c', _, hcol, rfl, hpend, fun hlen => hshort ?_⟩
  rw [List.length_map, List.length_take] at hlen
  omega

/-- Calls take what is pending, piece by piece. -/
theorem collectCalls_spec (hb : KeyBlock txn i p km a b) {f : NostrFilter} (hf : f.until_ < 2 ^ 64) (j : Nat)
    (limits : List Nat) {c : ScanCursor} {P : List (Nat × Nat)} (h : Pending txn i p f c P) : ∃ last calls,
      collectCalls txn i f j limits c = some (last, calls) ∧ calls.map CollectCall.limit = limits ∧
      calls.flatMap CollectCall.output = (P.take limits.sum).map (candidate j) ∧
      (∀ call ∈ calls, call.output.length < call.limit → call.active = false) ∧
      Pending txn i p f last (P.drop limits.sum) := by
  induction limits generalizing c P with
  | nil => exact ⟨c, [], rfl, rfl, by simp, by simp, by simpa using h⟩
  | cons limit limits ih =>
    obtain ⟨c', out, hcol, hout, hpend, hshort⟩ := collect_short hb hf j limit h
    obtain ⟨last, calls, hcalls, hlimits, houtput, hshorts, hlast⟩ := ih hpend
    refine ⟨last, ⟨limit, out, c'.active⟩ :: calls, ?_, ?_, ?_, ?_, ?_⟩
    · unfold collectCalls
      rw [hcol, Option.bind_eq_bind, Option.bind_some]
      dsimp only
      rw [hcalls]
      rfl
    · rw [List.map_cons, hlimits]
    · rw [List.flatMap_cons, houtput, hout, List.sum_cons, List.take_add, List.map_append]
    · exact List.forall_mem_cons.mpr ⟨hshort, hshorts⟩
    · rw [List.sum_cons, ← List.drop_drop]
      exact hlast

end

theorem timesOk_iff (f : NostrFilter) (n : Nat) :
    timesOk f n = true ↔ (f.since = 0 ∨ f.since ≤ n) ∧ (f.until_ = 0 ∨ n ≤ f.until_) := by
  simp only [timesOk, Bool.and_eq_true, Bool.or_eq_true, decide_eq_true_eq]

/-- **A cursor enumerates its key range.**  Whatever the limits, every call comes back, the outputs
together are a first part of the entries in range, newest first, a call is short only when it leaves
the cursor inactive, and when the cursor is inactive there are no more. -/
theorem collect_enumerates (txn : Db) (hfit : LevIdsFit txn) {f : NostrFilter} (hv : f.Valid) {j : Nat}
    {c : ScanCursor} (hc : (new f).cursors[j]? = some c) : ∃ E : List (Nat × Nat),
    E.Pairwise (fun x y => toLex y < toLex x) ∧
    (∀ x, x ∈ E ↔ InRange txn (new f).indexDbi c.keyPrefix f x) ∧
    ∀ limits : List Nat, ∃ last calls,
      collectCalls txn (new f).indexDbi f j limits c = some (last, calls) ∧
      calls.map CollectCall.limit = limits ∧
      calls.flatMap CollectCall.output = (E.take limits.sum).map (candidate j) ∧
      (∀ call ∈ calls, call.output.length < call.limit → call.active = false) ∧
      (last.active = false → calls.flatMap CollectCall.output = E.map (candidate j)) := by
  obtain ⟨hi, hcursors⟩ := plan_cursors hv
  obtain ⟨p, km, rfl, hshape, hdecides⟩ := hcursors c (List.mem_of_getElem? hc)
  have hb := keyBlock hi hfit hshape hdecides
  obtain ⟨E, hpend, hmem⟩ := pending_start hb f
  refine ⟨E, hpend.sorted hb, fun x => ?_, fun limits => ?_⟩
  · rw [hmem x, timesOk_iff, keyPrefix_start]
    exact Iff.rfl
  · obtain ⟨last, calls, hcalls, hlimits, houtput, hshort, hlast⟩ := collectCalls_spec hb hv.until_lt j limits hpend
    refine ⟨last, calls, hcalls, hlimits, houtput, hshort, fun hinactive => ?_⟩
    -- an inactive cursor has nothing pending
    rcases hlast with ⟨-, hnil⟩ | ⟨hactive, -⟩
    · rw [houtput, List.take_of_length_le (List.drop_eq_nil_iff.mp hnil)]
    · rw [hinactive] at hactive
      cases hactive

/-- `{"kinds": [1], "until": 250}`. -/
def notesUntil : NostrFilter := { kinds := some (FilterSetUint.ofList [1]), until_ := 250, indexOnlyScans := true }

/-- The newer of two notes is jumped over. -/
theorem collect_enumerates_until : ∃ (c : ScanCursor) (E : List (Nat × Nat)), (new notesUntil).cursors[0]? = some c ∧
    (100, 1) ∈ E ∧ (300, 3) ∉ E ∧ ∃ last calls,
      collectCalls DBQuery.threeEvents .kind notesUntil 0 [1, 2] c = some (last, calls) ∧
      calls.flatMap CollectCall.output = (E.take 3).map (candidate 0) := by
  have hfit : LevIdsFit DBQuery.threeEvents := by
    unfold LevIdsFit
    decide
  have hv : notesUntil.Valid := by
    refine { ids := by simp [notesUntil], authors := by simp [notesUntil], kinds := ?_, tags := by simp [notesUntil],
             tagNames := by simp [notesUntil], since_lt := by decide, until_lt := by decide, indexOnly := by decide }
    intro s hs
    rw [← Option.some.inj hs]
    decide
  obtain ⟨c, hc⟩ : ∃ c, (new notesUntil).cursors[0]? = some c := ⟨_, rfl⟩
  have hstart : c.keyPrefix = toSv 1 := by
    rw [← Option.some.inj hc]
    decide
  obtain ⟨E, -, hmem, hcalls⟩ := collect_enumerates DBQuery.threeEvents hfit hv hc
  obtain ⟨last, calls, hrun, -, houtput, -⟩ := hcalls [1, 2]
  have hin : InRange DBQuery.threeEvents .kind (toSv 1) notesUntil (100, 1) := by
    unfold InRange
    decide
  have hout : ¬ InRange DBQuery.threeEvents .kind (toSv 1) notesUntil (300, 3) := by
    unfold InRange
    decide
  rw [hstart] at hmem
  exact ⟨c, E, hc, (hmem _).mpr hin, fun h => hout ((hmem _).mp h), last, calls, hrun, houtput⟩

end DBScan

end Strfry
