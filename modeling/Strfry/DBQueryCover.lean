import Strfry.DBQuerySpec
import Strfry.DBScanCover

/-!
# Queries over changing snapshots

Each call of `process` has a snapshot of its own (`Slices`).  What a query in progress has not lost
is said by `QueryCover`: a filter that is done either reached its limit (`Reached`) or handled every
matching event that all snapshots hold, and the scan at hand covers the rest (`ScanCover`).  A call
on any next snapshot keeps this (`QueryCover.call`) and comes back.

So when no filter reaches its limit, a complete query has passed on every event that was there
throughout, once (`slices_lose_nothing`).
-/

namespace Strfry

namespace DBQuery

/-- The states a query is in after calls of `process`, on one snapshot each; `complete` is what the
last call returned. -/
inductive Slices [StdSort] (sub : Subscription) : List Db → Bool → State → Prop
  | start : Slices sub [] false ({ sub := sub }, [])
  | call (snaps : List Db) (txn : Db) (pauses : List Pause) (st st' : State) (complete : Bool) :
      Slices sub snaps false st → process txn pauses st = .returned complete st' →
      Slices sub (snaps ++ [txn]) complete st'

/-- The `i`-th filter reached its limit: as many events up to `latestEventId` were handled. -/
def Reached (sub : Subscription) (out : List Call) (i : Nat) (f : NostrFilter) : Prop :=
  f.limit ≤ ((handledBy i out).filter (· ≤ sub.latestEventId)).toFinset.card

/-! ## One event -/

section
variable (f : NostrFilter) (levId : Nat) (st : State)

theorem handledBy_handleEvent (i : Nat) : handledBy i (handleEvent f levId st).2.2 =
    handledBy i st.2 ++ if st.1.filterGroupIndex = i then [levId] else [] := by
  have hnew : handledBy i [Call.handleEvent st.1.filterGroupIndex levId] =
      if st.1.filterGroupIndex = i then [levId] else [] := by
    by_cases hi : st.1.filterGroupIndex = i
    · simp [handledBy, hi]
    · simp [handledBy, hi]
  unfold handleEvent
  simp only []
  split
  · rw [handledBy_append, hnew]
  · split
    · rw [handledBy_append, hnew]
    · rw [handledBy_send, handledBy_append, hnew]

/-- `handleEvent` sends what counts and was not sent. -/
theorem sent_handleEvent : sent (handleEvent f levId st).2.2 =
    sent st.2 ++ if f.limit ≠ 0 ∧ levId ≤ st.1.sub.latestEventId ∧ levId ∉ st.1.sentEventsFull then [levId]
      else [] := by
  have hnew : sent (st.2 ++ [Call.handleEvent st.1.filterGroupIndex levId]) = sent st.2 := by
    simp [sent]
  unfold handleEvent
  simp only []
  split
  · rename_i h0
    rw [hnew, if_neg fun h => h.1 h0, List.append_nil]
  · rename_i h0
    split
    · rename_i hlate
      rw [hnew, if_neg fun h => absurd h.2.1 (by omega), List.append_nil]
    · rename_i hlate
      unfold send
      split
      · rename_i hs
        rw [hnew, if_neg fun h => h.2.2 hs, List.append_nil]
      · rename_i hs
        rw [sent_append, hnew, if_pos ⟨h0, by omega, hs⟩]
        rfl

theorem sentEventsFull_handleEvent : (handleEvent f levId st).2.1.sentEventsFull =
    if f.limit ≠ 0 ∧ levId ≤ st.1.sub.latestEventId then insert levId st.1.sentEventsFull
      else st.1.sentEventsFull := by
  unfold handleEvent
  simp only []
  split
  · rename_i h0
    rw [if_neg fun h => h.1 h0]
  · rename_i h0
    split
    · rename_i hlate
      rw [if_neg fun h => absurd h.2 (by omega)]
    · rename_i hlate
      rw [if_pos ⟨h0, by omega⟩]
      unfold send
      split
      · rename_i hs
        exact (Finset.insert_eq_of_mem hs).symm
      · rfl

theorem sentEventsCurr_handleEvent : (handleEvent f levId st).2.1.sentEventsCurr =
    if f.limit ≠ 0 ∧ levId ≤ st.1.sub.latestEventId then insert levId st.1.sentEventsCurr
      else st.1.sentEventsCurr := by
  unfold handleEvent
  simp only []
  split
  · rename_i h0
    rw [if_neg fun h => h.1 h0]
  · rename_i h0
    split
    · rename_i hlate
      rw [if_neg fun h => absurd h.2 (by omega)]
    · rename_i hlate
      rw [if_pos ⟨h0, by omega⟩]
      simp only [send_sentEventsCurr]

/-- `handleEvent` stops the scan at the limit only. -/
theorem handleEvent_stop (h : (handleEvent f levId st).1 = true) :
    f.limit = 0 ∨ f.limit ≤ (handleEvent f levId st).2.1.sentEventsCurr.card := by
  unfold handleEvent at h ⊢
  simp only [] at h ⊢
  split at h
  · rename_i h0
    exact Or.inl h0
  · rename_i h0
    split at h
    · cases h
    · rename_i hlate
      rw [if_neg h0, if_neg hlate]
      exact Or.inr (by simpa using h)

theorem handleEvent_sub : (handleEvent f levId st).2.1.sub = st.1.sub ∧
    (handleEvent f levId st).2.1.filterGroupIndex = st.1.filterGroupIndex := by
  unfold handleEvent
  simp only []
  split
  · exact ⟨rfl, rfl⟩
  · split
    · exact ⟨rfl, rfl⟩
    · unfold send
      split
      · exact ⟨rfl, rfl⟩
      · exact ⟨rfl, rfl⟩

end

/-! ## What a query does not lose -/

/-- The calls made so far, over `snaps`. -/
structure Covered (snaps : Db → Prop) (sub : Subscription) (st : State) : Prop where
  sub_eq : st.1.sub = sub
  full : st.1.sentEventsFull = (sent st.2).toFinset
  nodup : (sent st.2).Nodup
  sound : ∀ levId ∈ sent st.2, levId ≤ sub.latestEventId ∧
    ∃ f ∈ sub.filterGroup.filters, DBScan.Occurs snaps f levId
  handled : ∀ (i : Nat) f, sub.filterGroup.filters[i]? = some f → f.limit ≠ 0 →
    ∀ levId ∈ handledBy i st.2, levId ≤ sub.latestEventId → levId ∈ sent st.2
  curr : ∀ f, sub.filterGroup.filters[st.1.filterGroupIndex]? = some f → f.limit ≠ 0 →
    st.1.sentEventsCurr = ((handledBy st.1.filterGroupIndex st.2).filter (· ≤ sub.latestEventId)).toFinset
  later : ∀ i, st.1.filterGroupIndex < i → handledBy i st.2 = []
  past : ∀ (i : Nat) f, i < st.1.filterGroupIndex → sub.filterGroup.filters[i]? = some f →
    Reached sub st.2 i f ∨ ∀ levId v, DBScan.Stays snaps f levId v → levId ∈ handledBy i st.2

/-- A query between two turns: the scan at hand covers what its filter has still to come. -/
structure QueryCover (snaps : Db → Prop) (sub : Subscription) (st : State) : Prop
    extends Covered snaps sub st where
  fresh : st.1.scanner = none → handledBy st.1.filterGroupIndex st.2 = []
  running : ∀ f s, sub.filterGroup.filters[st.1.filterGroupIndex]? = some f → st.1.scanner = some s →
    ∃ ps km, DBScan.Planned f ps km ∧
      DBScan.ScanCover snaps f ps s (handledBy st.1.filterGroupIndex st.2)

section
variable {snaps snaps' : Db → Prop} {sub : Subscription} {st : State} {f : NostrFilter}

theorem QueryCover.start (snaps : Db → Prop) (sub : Subscription) : QueryCover snaps sub ({ sub := sub }, []) where
  sub_eq := rfl
  full := rfl
  nodup := .nil
  sound levId h := by cases h
  handled i f _ _ levId h := by cases h
  curr f _ _ := rfl
  later i _ := rfl
  past i f h := absurd h (Nat.not_lt_zero i)
  fresh _ := rfl
  running f s _ h := by cases h

/-- More snapshots. -/
theorem Covered.mono (h : Covered snaps sub st) (hsub : ∀ txn, snaps txn → snaps' txn) : Covered snaps' sub st :=
  { h with
    sound := fun levId hl => by
      obtain ⟨hle, f, hf, txn, v, htxn, hrest⟩ := h.sound levId hl
      exact ⟨hle, f, hf, txn, v, hsub txn htxn, hrest⟩
    past := fun i f hi hf => (h.past i f hi hf).imp_right fun hall levId v hst =>
      hall levId v ⟨fun txn htxn => hst.1 txn (hsub txn htxn), hst.2⟩ }

theorem QueryCover.mono (h : QueryCover snaps sub st) (hsub : ∀ txn, snaps txn → snaps' txn) :
    QueryCover snaps' sub st :=
  { h.toCovered.mono hsub with
    fresh := h.fresh
    running := fun f s hf hs => by
      obtain ⟨ps, km, hp, hcov⟩ := h.running f s hf hs
      exact ⟨ps, km, hp, hcov.mono hsub⟩ }

/-- `handleEvent` at an event of the filter at hand. -/
theorem Covered.handle (h : Covered snaps sub st)
    (hf : sub.filterGroup.filters[st.1.filterGroupIndex]? = some f) {levId : Nat}
    (hocc : DBScan.Occurs snaps f levId) : Covered snaps sub (handleEvent f levId st).2 := by
  obtain ⟨hsub, hidx⟩ := handleEvent_sub f levId st
  have hother : ∀ i, st.1.filterGroupIndex ≠ i → handledBy i (handleEvent f levId st).2.2 = handledBy i st.2 := by
    intro i hi
    rw [handledBy_handleEvent, if_neg hi, List.append_nil]
  have hsent := sent_handleEvent f levId st
  have hold : ∀ l ∈ sent st.2, l ∈ sent (handleEvent f levId st).2.2 := by
    intro l hl
    rw [hsent]
    exact List.mem_append_left _ hl
  rw [h.sub_eq, h.full] at hsent
  refine ⟨hsub.trans h.sub_eq, ?_, ?_, ?_, ?_, ?_, ?_, ?_⟩
  · rw [sentEventsFull_handleEvent, h.sub_eq, h.full, hsent]
    by_cases hcount : f.limit ≠ 0 ∧ levId ≤ sub.latestEventId
    · rw [if_pos hcount]
      by_cases hin : levId ∈ (sent st.2).toFinset
      · rw [if_neg fun h => h.2.2 hin, List.append_nil, Finset.insert_eq_of_mem hin]
      · rw [if_pos ⟨hcount.1, hcount.2, hin⟩, List.toFinset_append, Finset.insert_eq, Finset.union_comm]
        rfl
    · rw [if_neg hcount, if_neg fun h => hcount ⟨h.1, h.2.1⟩, List.append_nil]
  · rw [hsent]
    split
    · rename_i hnew
      refine List.nodup_append.mpr ⟨h.nodup, by simp, fun a ha b hb => ?_⟩
      rw [List.mem_singleton.mp hb]
      rintro rfl
      exact hnew.2.2 (List.mem_toFinset.mpr ha)
    · rw [List.append_nil]
      exact h.nodup
  · intro l hl
    rw [hsent] at hl
    rcases List.mem_append.mp hl with hl | hl
    · exact h.sound l hl
    · split at hl
      · rename_i hnew
        rw [List.mem_singleton.mp hl]
        exact ⟨hnew.2.1, f, List.mem_of_getElem? hf, hocc⟩
      · cases hl
  · intro i g hg hg0 l hl hle
    rw [handledBy_handleEvent] at hl
    rcases List.mem_append.mp hl with hl | hl
    · exact hold l (h.handled i g hg hg0 l hl hle)
    · split at hl
      · rename_i hi
        rw [← hi, hf] at hg
        cases hg
        rw [List.mem_singleton] at hl
        subst hl
        by_cases hin : l ∈ sent st.2
        · exact hold l hin
        · rw [hsent, if_pos ⟨hg0, hle, fun h => hin (List.mem_toFinset.mp h)⟩]
          exact List.mem_append_right _ List.mem_cons_self
      · cases hl
  · intro g hg hg0
    rw [hidx, hf] at hg
    cases hg
    rw [sentEventsCurr_handleEvent, hidx, handledBy_handleEvent, if_pos rfl, h.sub_eq, List.filter_append,
      List.toFinset_append, ← h.curr f hf hg0]
    by_cases hle : levId ≤ sub.latestEventId
    · rw [if_pos ⟨hg0, hle⟩, List.filter_cons_of_pos (by simpa using hle), Finset.insert_eq, Finset.union_comm]
      rfl
    · rw [if_neg fun h => hle h.2, List.filter_cons_of_neg (by simpa using hle)]
      exact (Finset.union_empty _).symm
  · intro i hi
    rw [hidx] at hi
    rw [hother i (Nat.ne_of_lt hi)]
    exact h.later i hi
  · intro i g hi hg
    rw [hidx] at hi
    unfold Reached
    rw [hother i (Nat.ne_of_gt hi)]
    exact h.past i g hi hg

/-- The scan is done with its filter. -/
theorem Covered.nextQuery (h : Covered snaps sub st)
    (hf : sub.filterGroup.filters[st.1.filterGroupIndex]? = some f)
    (hdone : Reached sub st.2 st.1.filterGroupIndex f ∨
      ∀ levId v, DBScan.Stays snaps f levId v → levId ∈ handledBy st.1.filterGroupIndex st.2) :
    QueryCover snaps sub (nextFilter st) where
  toCovered := { h with
    curr := fun g _ _ => by
      show (∅ : Finset Nat) = ((handledBy (st.1.filterGroupIndex + 1) st.2).filter _).toFinset
      rw [h.later _ (Nat.lt_succ_self _)]
      rfl
    later := fun i hi => h.later i (Nat.lt_of_succ_lt hi)
    past := fun i g hi hg => by
      rcases Nat.lt_succ_iff_lt_or_eq.mp hi with hi | rfl
      · exact h.past i g hi hg
      · rw [hf] at hg
        cases hg
        exact hdone }
  fresh _ := h.later _ (Nat.lt_succ_self _)
  running g s _ hs := by cases hs

/-- A scan that `handleEvent` stopped reached the limit of its filter. -/
theorem Covered.stopped (h : Covered snaps sub st)
    (hf : sub.filterGroup.filters[st.1.filterGroupIndex]? = some f) {levId : Nat}
    (hocc : DBScan.Occurs snaps f levId) (hstop : (handleEvent f levId st).1 = true) :
    QueryCover snaps sub (nextFilter (handleEvent f levId st).2) := by
  have hnew := h.handle hf hocc
  have hidx := (handleEvent_sub f levId st).2
  have hf' : sub.filterGroup.filters[(handleEvent f levId st).2.1.filterGroupIndex]? = some f := by
    rw [hidx]
    exact hf
  refine hnew.nextQuery hf' (Or.inl ?_)
  by_cases h0 : f.limit = 0
  · unfold Reached
    omega
  · have := (handleEvent_stop f levId st hstop).resolve_left h0
    rw [hnew.curr f hf' h0] at this
    exact this

end

/-! ## Calls of `process` -/

section
variable {snaps : Db → Prop} {sub : Subscription} {txn : Db}

/-- The invariant with `n` to do for the filter at hand, on the snapshot of the call. -/
def CoverRanked (snaps : Db → Prop) (txn : Db) (sub : Subscription) (st : State) (n : Nat) : Prop :=
  QueryCover snaps sub st ∧ ∀ f, sub.filterGroup.filters[st.1.filterGroupIndex]? = some f →
    ∃ ps km, DBScan.Planned f ps km ∧
      DBScan.ScanCover snaps f ps (st.1.scanner.getD (DBScan.new f)) (handledBy st.1.filterGroupIndex st.2) ∧
      DBScan.Todo txn ps (st.1.scanner.getD (DBScan.new f)) n

variable (hplan : ∀ f ∈ sub.filterGroup.filters, ∃ ps km, DBScan.Planned f ps km)
  (hok : ∀ f ∈ sub.filterGroup.filters, ∀ txn, snaps txn → DBScan.SnapOk f txn) (htxn : snaps txn)
include hplan hok htxn

theorem QueryCover.ranked {st : State} (h : QueryCover snaps sub st) : ∃ n, CoverRanked snaps txn sub st n := by
  cases hi : sub.filterGroup.filters[st.1.filterGroupIndex]? with
  | none =>
    refine ⟨0, h, fun f hf => ?_⟩
    rw [hi] at hf
    cases hf
  | some f =>
    have hmem := List.mem_of_getElem? hi
    obtain ⟨ps, km, hp, hcov⟩ : ∃ ps km, DBScan.Planned f ps km ∧ DBScan.ScanCover snaps f ps
        (st.1.scanner.getD (DBScan.new f)) (handledBy st.1.filterGroupIndex st.2) := by
      cases hs : st.1.scanner with
      | none =>
        obtain ⟨ps, km, hp⟩ := hplan f hmem
        rw [h.fresh hs]
        exact ⟨ps, km, hp, .start hp htxn (hok f hmem txn htxn)⟩
      | some s => exact h.running f s hi hs
    obtain ⟨n, hn⟩ := hcov.toCoverCore.exists_todo hp (hok f hmem txn htxn)
    refine ⟨n, h, fun g hg => ?_⟩
    rw [hi] at hg
    cases hg
    exact ⟨ps, km, hp, hcov, hn⟩

theorem cover_loop [StdSort] : LoopInv txn sub (CoverRanked snaps txn sub) where
  sub_eq st n h := h.1.sub_eq
  turn st n f pause h hi := by
    obtain ⟨ps, km, hp, hcov, htodo⟩ := h.2 f hi
    have hmem := List.mem_of_getElem? hi
    simp only []
    generalize hs : st.1.scanner.getD (DBScan.new f) = s at hcov htodo ⊢
    have hturn := hcov.turn hp htxn (hok f hmem) htodo (handleEvent f) (doPause pause) st
    -- asking for a pause changes nothing the invariant speaks of
    have hpaused : Covered snaps sub (doPause pause (s.approxWork + 1) st).2 := { h.1.toCovered with }
    have hkeep : ∀ (st' : State) (s' : DBScan), Covered snaps sub st' →
        sub.filterGroup.filters[st'.1.filterGroupIndex]? = some f →
        DBScan.ScanCover snaps f ps s' (handledBy st'.1.filterGroupIndex st'.2) →
        QueryCover snaps sub ({ st'.1 with scanner := some s' }, st'.2) := fun st' s' hc hf' hcov' =>
      { hc with
        fresh := fun hn => by cases hn
        running := fun g t hg ht => by
          cases hf'.symm.trans hg
          cases ht
          exact ⟨ps, km, hp, hcov'⟩ }
    generalize s.scanStep txn (handleEvent f) (doPause pause) st = r at hturn
    cases hturn with
    | pause s' hpause hcov' =>
      obtain ⟨n', hn'⟩ := (hkeep _ s' hpaused hi hcov').ranked hplan hok htxn
      exact .pause s' _ n' hpause hn'
    | again s' n' _ hcov' htodo' hlt =>
      refine .again s' _ n' ⟨hkeep _ s' hpaused hi hcov', fun g hg => ?_⟩ rfl hlt
      cases hi.symm.trans hg
      exact ⟨ps, km, hp, hcov', htodo'⟩
    | done s' _ hall =>
      obtain ⟨n', hn'⟩ := (hpaused.nextQuery hi (Or.inr hall)).ranked hplan hok htxn
      exact .next s' _ n' hn' rfl
    | stop levId s' _ hocc hstop =>
      obtain ⟨n', hn'⟩ := (hpaused.stopped hi hocc hstop).ranked hplan hok htxn
      exact .next s' _ n' hn' (handleEvent_sub f levId _).2
    | next levId s' n' _ hocc _ hcov' htodo' hlt =>
      have hidx : (handleEvent f levId (doPause pause (s.approxWork + 1) st).2).2.1.filterGroupIndex =
          st.1.filterGroupIndex := (handleEvent_sub f levId _).2
      have hhand : handledBy st.1.filterGroupIndex
          (handleEvent f levId (doPause pause (s.approxWork + 1) st).2).2.2 =
          handledBy st.1.filterGroupIndex st.2 ++ [levId] := by
        rw [handledBy_handleEvent]
        exact congrArg _ (if_pos rfl)
      rw [← hhand] at hcov'
      have hnew := hkeep _ s' (hpaused.handle hi hocc) (by rw [hidx]; exact hi) (by rw [hidx]; exact hcov')
      refine .again s' _ n' ⟨hnew, fun g hg => ?_⟩ hidx hlt
      have hg : sub.filterGroup.filters[
        (handleEvent f levId (doPause pause (s.approxWork + 1) st).2).2.1.filterGroupIndex]? = some g := hg
      rw [hidx, hi] at hg
      cases hg
      refine ⟨ps, km, hp, ?_, htodo'⟩
      show DBScan.ScanCover snaps f ps s' (handledBy _ _)
      rw [hidx]
      exact hcov'
  fresh i := by
    cases hi : sub.filterGroup.filters[i]? with
    | none =>
      refine ⟨0, fun st n h hidx _ => ⟨h.1, fun f hf => ?_⟩⟩
      rw [hidx, hi] at hf
      cases hf
    | some f =>
      have hmem := List.mem_of_getElem? hi
      obtain ⟨ps, km, hp⟩ := hplan f hmem
      have hstart := DBScan.ScanCover.start hp htxn (hok f hmem txn htxn)
      obtain ⟨B, hB⟩ := hstart.toCoverCore.exists_todo hp (hok f hmem txn htxn)
      refine ⟨B, fun st n h hidx hs => ⟨h.1, fun g hg => ?_⟩⟩
      rw [hidx, hi] at hg
      cases hg
      rw [h.1.fresh hs, hs]
      exact ⟨ps, km, hp, hstart, hB⟩

/-- **A call keeps what is covered**, is never undefined, and is complete only at the end. -/
theorem QueryCover.call [StdSort] (pauses : List Pause) {st : State} (h : QueryCover snaps sub st) :
    process txn pauses st ≠ .undefined ∧
    ∀ complete st', process txn pauses st = .returned complete st' → QueryCover snaps sub st' ∧
      (complete = true → sub.filterGroup.filters[st'.1.filterGroupIndex]? = none) := by
  obtain ⟨n, hn⟩ := h.ranked hplan hok htxn
  obtain ⟨hdef, hret⟩ := (cover_loop hplan hok htxn).call pauses hn
  refine ⟨hdef, fun complete st' he => ?_⟩
  obtain ⟨⟨n', hn'⟩, hend⟩ := hret complete st' he
  exact ⟨hn'.1, hend⟩

theorem QueryCover.returns [StdSort] {st : State} (h : QueryCover snaps sub st) : ∃ N, Returns txn st N := by
  obtain ⟨n, hn⟩ := h.ranked hplan hok htxn
  exact (cover_loop hplan hok htxn).returns hn

end

/-! ## Whole queries -/

/-- What the queries ask of a snapshot. -/
def Scannable (txn : Db) : Prop := DBScan.LevIdsFit txn ∧ ∀ r ∈ txn.event.rows, r.2.createdAt < 2 ^ 40

theorem Scannable.snapOk {txn : Db} (h : Scannable txn) (f : NostrFilter) : DBScan.SnapOk f txn :=
  ⟨h.1, fun r hr _ => h.2 r hr⟩

/-- The filters of a request have cursors that answer them. -/
theorem planned_of_built [Golpe] {fg : NostrFilterGroup} (hbuilt : fg.Built)
    (hsmall : ∀ f ∈ fg.filters, DBScan.SmallFields f) :
    ∀ f ∈ fg.filters, ∃ ps km, DBScan.Planned f ps km := by
  intro f hf
  obtain ⟨hv, hn⟩ := hbuilt.valid f hf
  obtain ⟨ps, km, hserves, hcursors⟩ := DBScan.plan_serves hv hn (hsmall f hf)
  exact ⟨ps, km, hserves, hcursors, hv.until_lt⟩

/-- The invariant after calls on any snapshots. -/
theorem QueryCover.slices [StdSort] {sub : Subscription}
    (hplan : ∀ f ∈ sub.filterGroup.filters, ∃ ps km, DBScan.Planned f ps km) {snaps : List Db}
    (hsnaps : ∀ txn ∈ snaps, Scannable txn) {complete : Bool} {st : State} (h : Slices sub snaps complete st) :
    QueryCover (· ∈ snaps) sub st ∧
      (complete = true → sub.filterGroup.filters[st.1.filterGroupIndex]? = none) := by
  induction h with
  | start => exact ⟨.start _ sub, by simp⟩
  | call snaps txn pauses st st' complete _ hp ih =>
    have hin : ∀ t ∈ snaps, t ∈ snaps ++ [txn] := fun t ht => List.mem_append_left _ ht
    obtain ⟨hcov, -⟩ := ih fun t ht => hsnaps t (hin t ht)
    exact ((hcov.mono hin).call hplan (fun f _ t ht => (hsnaps t ht).snapOk f)
      (List.mem_append_right _ List.mem_cons_self) pauses).2 complete st' hp

section
variable {snaps : Db → Prop} {sub : Subscription} {st : State}

/-- A complete query passed on every event that was there throughout, if no filter reached its
limit. -/
theorem QueryCover.lost_nothing (h : QueryCover snaps sub st)
    (hend : sub.filterGroup.filters[st.1.filterGroupIndex]? = none)
    (hlim : ∀ (i : Nat) f, sub.filterGroup.filters[i]? = some f → ¬ Reached sub st.2 i f) {levId : Nat}
    {v : PackedEventView} (hv : ∀ txn, snaps txn → (levId, v) ∈ txn.event.rows)
    (hle : levId ≤ sub.latestEventId) (hm : sub.filterGroup.doesMatch v = true) : levId ∈ sent st.2 := by
  obtain ⟨f, hf, hm⟩ := (NostrFilterGroup.doesMatch_iff _ _).mp hm
  obtain ⟨i, hi, rfl⟩ := List.getElem_of_mem hf
  have hi' : sub.filterGroup.filters[i]? = some sub.filterGroup.filters[i] := List.getElem?_eq_getElem hi
  have hdone : i < st.1.filterGroupIndex := by
    have := List.getElem?_eq_none_iff.mp hend
    omega
  have hall := (h.past i _ hdone hi').resolve_left (hlim i _ hi')
  refine h.handled i _ hi' (fun h0 => hlim i _ hi' ?_) levId
    (hall levId v ⟨hv, (NostrFilter.doesMatch_iff _ v).mp hm⟩) hle
  unfold Reached
  omega

/-- What was passed on matches the group. -/
theorem Covered.sent_matches (h : Covered snaps sub st) {levId : Nat} (hl : levId ∈ sent st.2) :
    levId ≤ sub.latestEventId ∧ ∃ txn v, snaps txn ∧ (levId, v) ∈ txn.event.rows ∧
      sub.filterGroup.doesMatch v = true := by
  obtain ⟨hle, f, hf, txn, v, htxn, hv, hm⟩ := h.sound levId hl
  refine ⟨hle, txn, v, htxn, hv, (NostrFilterGroup.doesMatch_iff _ _).mpr ⟨f, hf, ?_⟩⟩
  exact (NostrFilter.doesMatch_iff f v).mpr hm

/-- A filter that reached its limit had that many events passed on. -/
theorem Covered.limit_le (h : Covered snaps sub st) {i : Nat} {f : NostrFilter}
    (hf : sub.filterGroup.filters[i]? = some f) (hr : Reached sub st.2 i f) : f.limit ≤ (sent st.2).length := by
  rcases Nat.eq_zero_or_pos f.limit with h0 | h0
  · omega
  · rw [← List.toFinset_card_of_nodup h.nodup]
    refine le_trans hr (Finset.card_le_card fun l hl => ?_)
    obtain ⟨hl, hle⟩ := List.mem_filter.mp (List.mem_toFinset.mp hl)
    exact List.mem_toFinset.mpr (h.handled i f hf (by omega) l hl (by simpa using hle))

end

/-- Filters of limit `n` leave out nothing, or `n` events were passed on. -/
theorem QueryCover.full_or_all {snaps : Db → Prop} {sub : Subscription} {st : State} (h : QueryCover snaps sub st)
    (hend : sub.filterGroup.filters[st.1.filterGroupIndex]? = none) {n : Nat}
    (hlimit : ∀ f ∈ sub.filterGroup.filters, f.limit = n) : n ≤ (sent st.2).length ∨
      ∀ levId v, (∀ txn, snaps txn → (levId, v) ∈ txn.event.rows) → levId ≤ sub.latestEventId →
        sub.filterGroup.doesMatch v = true → levId ∈ sent st.2 := by
  by_cases hr : ∃ (i : Nat) (f : NostrFilter), sub.filterGroup.filters[i]? = some f ∧ Reached sub st.2 i f
  · obtain ⟨i, f, hf, hr⟩ := hr
    left
    rw [← hlimit f (List.mem_of_getElem? hf)]
    exact h.toCovered.limit_le hf hr
  · right
    intro levId v hv hle hm
    exact h.lost_nothing hend (fun i f hf hreach => hr ⟨i, f, hf, hreach⟩) hv hle hm

/-- **Paused scans lose nothing.**  After calls of `process` on any snapshots, `cb` has had no levId
twice, and only levIds up to `latestEventId` of events that match and were in one of the snapshots;
the next call on any snapshot comes back.  When the last call was complete and no filter reached its
limit, `cb` has had every matching event that all snapshots hold exactly once. -/
theorem slices_lose_nothing [Golpe] [StdSort] (sub : Subscription) (hbuilt : sub.filterGroup.Built)
    (hsmall : ∀ f ∈ sub.filterGroup.filters, DBScan.SmallFields f) (snaps : List Db)
    (hsnaps : ∀ txn ∈ snaps, Scannable txn) (complete : Bool) (st : State) (h : Slices sub snaps complete st) :
    (sent st.2).Nodup ∧
    (∀ levId ∈ sent st.2, levId ≤ sub.latestEventId ∧ ∃ txn ∈ snaps, ∃ v, (levId, v) ∈ txn.event.rows ∧
      sub.filterGroup.doesMatch v = true) ∧
    (complete = true →
      (∀ (i : Nat) f, sub.filterGroup.filters[i]? = some f → ¬ Reached sub st.2 i f) →
      ∀ levId v, (∀ txn ∈ snaps, (levId, v) ∈ txn.event.rows) → levId ≤ sub.latestEventId →
        sub.filterGroup.doesMatch v = true → (sent st.2).count levId = 1) ∧
    ∀ txn, Scannable txn → (∀ pauses, process txn pauses st ≠ .undefined) ∧ ∃ N, Returns txn st N := by
  have hplan := planned_of_built hbuilt hsmall
  obtain ⟨hcov, hend⟩ := QueryCover.slices hplan hsnaps h
  refine ⟨hcov.nodup, fun levId hl => ?_, fun hc hlim levId v hv hle hm => ?_, fun txn htxn => ?_⟩
  · obtain ⟨hle, txn, v, htxn, hv, hm⟩ := hcov.toCovered.sent_matches hl
    exact ⟨hle, txn, htxn, v, hv, hm⟩
  · exact List.count_eq_one_of_mem hcov.nodup (hcov.lost_nothing (hend hc) hlim hv hle hm)
  · have hnext : QueryCover (· ∈ snaps ++ [txn]) sub st := hcov.mono fun t ht => List.mem_append_left _ ht
    have hok : ∀ f ∈ sub.filterGroup.filters, ∀ t, t ∈ snaps ++ [txn] → DBScan.SnapOk f t := by
      intro f _ t ht
      rcases List.mem_append.mp ht with ht | ht
      · exact (hsnaps t ht).snapOk f
      · rw [List.mem_singleton.mp ht]
        exact htxn.snapOk f
    have hin : txn ∈ snaps ++ [txn] := List.mem_append_right _ List.mem_cons_self
    exact ⟨fun pauses => (hnext.call hplan hok hin pauses).1, hnext.returns hplan hok hin⟩

/-- `["REQ", "x", {"kinds": [1]}]`. -/
def allOfKind1 : Json :=
  .array [.string (ascii "REQ"), .string (ascii "x"), .object [(ascii "kinds", .array [.unsigned 1])]]

/-- `threeEvents` once its first event was deleted and another of kind 1 has come in. -/
def changedEvents : Db where
  event := (threeEvents.event.delete 1).insertNext (sampleEvent 4 9 400 1 [])

theorem slices_lose_nothing_changed : ∃ sub st,
    @Slices StdSort.insertion sub [threeEvents, changedEvents] true st ∧ sub.latestEventId = 3 ∧
    (sent st.2).count 3 = 1 ∧ 4 ∉ sent st.2 := by
  let _ : StdSort := StdSort.insertion
  let _ : Golpe := Golpe.plain
  let f : NostrFilter := { kind1Filter with limit := 500 }
  let sub : Subscription := { subOf [f] with latestEventId := 3 }
  have hreq : NostrFilterGroup.ofReq allOfKind1 500 = .ok ⟨[f]⟩ := rfl
  have hbuilt : sub.filterGroup.Built := .of_ofReq hreq
  have hsmall : ∀ g ∈ sub.filterGroup.filters, DBScan.SmallFields g := by
    intro g hg
    rw [List.mem_singleton.mp hg]
    exact ⟨by simp [f, kind1Filter], by simp [f, kind1Filter],
      fun s hs => by rw [← Option.some.inj hs]; decide, by simp [f, kind1Filter]⟩
  have hok : ∀ txn ∈ [threeEvents, changedEvents], Scannable txn := by
    unfold Scannable DBScan.LevIdsFit
    decide
  -- the first call pauses at once, the second is complete
  have hfirst : ∃ st, process threeEvents [fun _ l => (true, l)] ({ sub := sub }, []) =
      .returned false st := ⟨_, rfl⟩
  obtain ⟨st1, hfirst⟩ := hfirst
  have hone : Slices sub [threeEvents] false st1 := .call [] _ _ _ _ _ .start hfirst
  obtain ⟨N, hN⟩ := ((slices_lose_nothing sub hbuilt hsmall _ (fun txn htxn => hok txn (by simp_all)) _ _
    hone).2.2.2 changedEvents (hok _ (by simp))).2
  obtain ⟨complete, st, hp, hc⟩ := hN (List.replicate N fun _ l => (false, l)) (by simp)
  have hc := hc fun p hp => by rw [List.eq_of_mem_replicate hp]; simp
  subst hc
  have hrun : Slices sub [threeEvents, changedEvents] true st := .call [threeEvents] _ _ _ _ _ hone hp
  obtain ⟨-, hsound, hall, -⟩ := slices_lose_nothing sub hbuilt hsmall _ hok _ _ hrun
  refine ⟨sub, st, hrun, rfl, hall rfl ?_ 3 (sampleEvent 3 9 300 1 []) ?_ (Nat.le_refl _) (by decide), fun h => ?_⟩
  · -- four levIds are not as many as the limit
    intro i g hg hr
    rw [List.mem_singleton.mp (List.mem_of_getElem? hg)] at hr
    have hsub : ((handledBy i st.2).filter (· ≤ sub.latestEventId)).toFinset ⊆ Finset.range 4 := by
      intro l hl
      have := (List.mem_filter.mp (List.mem_toFinset.mp hl)).2
      rw [Finset.mem_range]
      exact Nat.lt_succ_of_le (by simpa using this)
    have := Finset.card_le_card hsub
    rw [Finset.card_range] at this
    have hr : 500 ≤ _ := hr
    omega
  · decide
  · exact absurd (hsound 4 h).1 (by decide)

end DBQuery

end Strfry
