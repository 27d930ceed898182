import Strfry.QuerySchedulerSlices
import Strfry.NegentropyOpen

/-!
# Memory views are not truncated silently

A NEG-OPEN that no tree serves runs a query and collects bare levIds in its view over many slices;
when the query is complete the events are looked up again, those that are gone left out, and the
vector sealed.  From the NEG-OPEN on, whatever the thread does between the slices (`OpenRun`), the
live query of the id has run on the snapshots since, and its view has collected what it sent
(`MemoryInv`).

Every filter may match one event more than `maxSyncEvents`, so a filter that was truncated alone
makes the view too large.  Otherwise nothing was lost (`memory_set_complete`).
-/

namespace Strfry

/-! ## The turns of the thread -/

section
variable [Negentropy] [StdSort] (cfg : Cfg)

/-- What the thread does on one snapshot before it comes back to its inbox or its queries; `tree` is
the id that a tree came to serve. -/
inductive NegTurn (txn : Db) (st : NegentropyThread) (tree : Option (Nat × SubId)) : NegentropyThread → Prop where
  | openMemory (p : Nat) (sub : Subscription) (negPayload : Bytes) (htree : tree = none)
      (hp : st.queries.heap.find? p = none) : NegTurn txn st tree (openMemory cfg txn p st sub negPayload).1
  | openTree (treeId : Nat) (sub : Subscription) (negPayload : Bytes) (st' : NegentropyThread)
      (effects : List Effect) (htree : tree = some sub.key)
      (h : openTree cfg txn treeId st sub negPayload = .ok (st', effects)) : NegTurn txn st tree st'
  | negMsg (connId : Nat) (subId : SubId) (negPayload : Bytes) (st' : NegentropyThread) (effects : List Effect)
      (htree : tree = none) (h : handleNegMsg txn st connId subId negPayload = .ok (st', effects)) :
      NegTurn txn st tree st'
  | negClose (connId : Nat) (subId : SubId) (htree : tree = none) :
      NegTurn txn st tree ⟨st.queries.removeSub connId subId, st.views.removeView connId subId⟩
  | closeConn (connId : Nat) (htree : tree = none) :
      NegTurn txn st tree ⟨st.queries.closeConn connId, st.views.closeConn connId⟩
  | slice (pauses : List DBQuery.Pause) (st' : NegentropyThread) (effects : List Effect) (htree : tree = none)
      (h : processQueries cfg txn pauses st = .ok (st', effects)) : NegTurn txn st tree st'

variable {cfg}

/-- A step of the thread is one turn, or a memory view opened and then a slice. -/
theorem negStep_turns {txn : Db} {pauses : List DBQuery.Pause} {p : Nat} {st st' : NegentropyThread} {e : NegEvent}
    {effects : List Effect} (hp : st.queries.heap.find? p = none)
    (h : negStep cfg txn pauses p st e = .ok (st', effects)) :
    ∃ tree st1, NegTurn cfg txn st tree st1 ∧ (st' = st1 ∨ NegTurn cfg txn st1 none st') := by
  cases e with
  | slice => exact ⟨none, st', .slice pauses st' effects rfl h, Or.inl rfl⟩
  | msg m =>
    cases m with
    | negOpen sub filterStr negPayload =>
      unfold negStep handleNegentropy at h
      simp only [] at h
      split at h
      · rename_i treeId _
        exact ⟨_, st', .openTree treeId sub negPayload st' effects rfl h, Or.inl rfl⟩
      · obtain ⟨⟨st1, more⟩, hs, h⟩ := bind_eq_ok.mp h
        cases h
        exact ⟨none, _, .openMemory p sub negPayload rfl hp, Or.inr (.slice pauses _ more rfl hs)⟩
    | negMsg c i negPayload => exact ⟨none, st', .negMsg c i negPayload st' effects rfl h, Or.inl rfl⟩
    | negClose c i =>
      cases h
      exact ⟨none, _, .negClose c i rfl, Or.inl rfl⟩
    | closeConn c =>
      cases h
      exact ⟨none, _, .closeConn c rfl, Or.inl rfl⟩

end

/-! ## What the callbacks do -/

section
variable [Negentropy] [StdSort] {cfg : Cfg} {st st' : NegentropyThread} {txn : Db}

omit [Negentropy] [StdSort] in
theorem findView_onEventBatch {views views' : NegentropyViews} {sub : Subscription} {levIds : List Nat}
    (h : onEventBatch views sub levIds = .ok views') : (∀ c i, ¬ (c = sub.connId ∧ i = sub.subId) →
      views'.findView c i = views.findView c i) ∧
    ∀ view, views'.findView sub.connId sub.subId = some view → ∃ old,
      views.findView sub.connId sub.subId = some (.memory old) ∧
      view = .memory { old with levIds := old.levIds ++ levIds } := by
  unfold onEventBatch at h
  split at h
  · rename_i hnone
    cases h
    exact ⟨fun _ _ _ => rfl, fun view hv => by rw [hnone] at hv; cases hv⟩
  · cases h
  · rename_i old hold
    cases h
    refine ⟨fun c i hne => ?_, fun view hv => ⟨old, hold, ?_⟩⟩
    · rw [NegentropyViews.findView_setView hold, if_neg hne]
    · rw [NegentropyViews.findView_setView hold, if_pos ⟨rfl, rfl⟩] at hv
      exact (Option.some.inj hv).symm

/-- What `onComplete` does to the views of other ids. -/
theorem findView_onComplete {views views' : NegentropyViews} {sub : Subscription} {effects : List Effect}
    (h : onComplete cfg txn views sub = .ok (views', effects)) {c : Nat} {i : SubId}
    (hne : ¬ (c = sub.connId ∧ i = sub.subId)) : views'.findView c i = views.findView c i := by
  cases hv : views.findView sub.connId sub.subId with
  | none =>
    unfold onComplete at h
    rw [hv] at h
    cases h
    rfl
  | some view =>
    cases view with
    | stateless sub' treeId =>
      unfold onComplete at h
      rw [hv] at h
      cases h
    | memory view =>
      obtain ⟨views1, effects1, hok, hsame, -⟩ := onComplete_memory cfg txn hv
      rw [h] at hok
      cases hok
      exact hsame c i hne

/-- A slice of the thread, taken apart. -/
theorem processQueries_cases {pauses : List DBQuery.Pause} {effects : List Effect}
    (h : processQueries cfg txn pauses st = .ok (st', effects)) : ∃ r,
      st.queries.process false txn pauses = .ok (st'.queries, r) ∧
      (r = none → st'.views = st.views) ∧ ∀ ran, r = some ran → ∃ views,
        onEventBatch st.views ran.sub ran.levIds = .ok views ∧
        (ran.total.isSome = false → st'.views = views) ∧
        (ran.total.isSome = true → onComplete cfg txn views ran.sub = .ok (st'.views, effects)) := by
  unfold processQueries at h
  obtain ⟨⟨queries, r⟩, hp, h⟩ := bind_eq_ok.mp h
  cases r with
  | none =>
    cases h
    exact ⟨none, hp, fun _ => rfl, fun ran hr => by cases hr⟩
  | some ran =>
    obtain ⟨views, hb, h⟩ := bind_eq_ok.mp h
    split at h
    · rename_i htotal
      obtain ⟨⟨views', eff⟩, hc, h⟩ := bind_eq_ok.mp h
      cases h
      refine ⟨some ran, hp, fun hr => (by cases hr), fun ran' hr => ?_⟩
      cases hr
      exact ⟨views, hb, fun hn => (by rw [htotal] at hn; cases hn), fun _ => hc⟩
    · rename_i htotal
      cases h
      refine ⟨some ran, hp, fun hr => (by cases hr), fun ran' hr => ?_⟩
      cases hr
      exact ⟨views, hb, fun _ => rfl, fun hs => absurd hs htotal⟩

omit [StdSort] in
/-- What a NEG-MSG does to the view of an id: nothing to a view that still collects. -/
theorem findView_handleNegMsg {c : Nat} {i : SubId} {negPayload : Bytes} {effects : List Effect}
    (h : handleNegMsg txn st c i negPayload = .ok (st', effects)) : st'.queries = st.queries ∧
      ∀ c' i', st'.views.findView c' i' = st.views.findView c' i' ∨ st'.views.findView c' i' = none ∧
        ∀ view, st.views.findView c' i' = some (.memory view) → view.isSealed = true := by
  have hreconcile : ∀ storage c' i', (∀ view, st.views.findView c i = some (.memory view) → view.isSealed = true) →
      (handleReconcile st.views c i storage negPayload).1.findView c' i' = st.views.findView c' i' ∨
      (handleReconcile st.views c i storage negPayload).1.findView c' i' = none ∧
        ∀ view, st.views.findView c' i' = some (.memory view) → view.isSealed = true := by
    intro storage c' i' hsealed
    rw [findView_handleReconcile]
    split
    · rename_i hci
      rw [hci.1.1, hci.1.2]
      exact Or.inr ⟨rfl, hsealed⟩
    · exact Or.inl rfl
  unfold handleNegMsg at h
  split at h
  · cases h
    exact ⟨rfl, fun _ _ => Or.inl rfl⟩
  · rename_i view hview
    split at h
    · rename_i hsealed
      cases h
      refine ⟨rfl, fun c' i' => hreconcile _ c' i' fun v hv => ?_⟩
      rw [hview] at hv
      cases hv
      exact hsealed
    · cases h
      exact ⟨rfl, fun _ _ => Or.inl rfl⟩
  · rename_i hview
    obtain ⟨storage, -, h⟩ := bind_eq_ok.mp h
    cases h
    refine ⟨rfl, fun c' i' => hreconcile _ c' i' fun v hv => ?_⟩
    rw [hview] at hv
    cases hv

end

/-! ## Queries and views of one id -/

/-- The view of a live query has collected what the query sent, and nothing else. -/
structure Gathers (q : DBQuery) (view : MemoryView) : Prop where
  collecting : Collecting q (.memory view)
  empty : view.storageVector = []

/-- The live query of the id `k` has run on snapshots of `P`, and its view has collected what it sent;
the view is there unless a tree was `taken` to serve the id. -/
structure MemoryInv [StdSort] (cfg : Cfg) (k : Nat × SubId) (P : Db → Prop) (taken : Bool)
    (st : NegentropyThread) : Prop where
  queries : st.queries.Inv cfg
  runs : st.queries.RunsOver P k
  began : ∀ q, st.queries.live k.1 k.2 = some q → ∃ txn, P txn ∧ q.sub.latestEventId = txn.getMostRecentLevId
  gathers : ∀ q view, st.queries.live k.1 k.2 = some q → st.views.findView k.1 k.2 = some (.memory view) →
    Gathers q view
  held : taken = false → ∀ q, st.queries.live k.1 k.2 = some q →
    ∃ view, st.views.findView k.1 k.2 = some (.memory view)

section
variable [StdSort] {cfg : Cfg} {k : Nat × SubId} {P P' : Db → Prop} {taken taken' : Bool}
  {st st' : NegentropyThread} {txn : Db}

/-- Nothing happens to a live query of the id and its view. -/
theorem MemoryInv.keep (h : MemoryInv cfg k P taken st) (hinv : st'.queries.Inv cfg)
    (hlive : ∀ q, st'.queries.live k.1 k.2 = some q → st.queries.live k.1 k.2 = some q ∧
      st'.views.findView k.1 k.2 = st.views.findView k.1 k.2) : MemoryInv cfg k P taken st' where
  queries := hinv
  runs := h.runs.mono (fun _ h => h) fun q hq => (hlive q hq).1
  began q hq := h.began q (hlive q hq).1
  gathers q view hq hv := by
    obtain ⟨hq', hv'⟩ := hlive q hq
    rw [hv'] at hv
    exact h.gathers q view hq' hv
  held ht q hq := by
    obtain ⟨hq', hv'⟩ := hlive q hq
    rw [hv']
    exact h.held ht q hq'

/-- More snapshots. -/
theorem MemoryInv.mono (h : MemoryInv cfg k P taken st) (hP : ∀ txn, P txn → P' txn) :
    MemoryInv cfg k P' taken st :=
  { h with
    runs := h.runs.mono hP fun _ hq => hq
    began := fun q hq => by
      obtain ⟨txn, htxn, hl⟩ := h.began q hq
      exact ⟨txn, hP txn htxn, hl⟩ }

/-- A memory view opened for an id: the query is new and the view is empty, or there is no query. -/
theorem MemoryInv.opened (hinv : st.queries.Inv cfg) {p : Nat} (hp : st.queries.heap.find? p = none)
    (sub : Subscription) (negPayload : Bytes) (htxn : P txn) :
    MemoryInv cfg sub.key P false (openMemory cfg txn p st sub negPayload).1 := by
  unfold openMemory
  rcases hq : st.queries.addSub cfg txn sub p with ⟨added, queries⟩
  rcases hv : st.views.addMemoryView cfg sub.connId sub.subId negPayload with ⟨viewAdded, views⟩
  simp only []
  obtain ⟨hinv', hlive⟩ := hinv.addSub txn sub p hp hq
  have hfind := NegentropyViews.findView_addView hv sub.connId sub.subId
  have hnew := hlive sub.connId sub.subId
  rw [if_pos ⟨rfl, rfl⟩] at hfind hnew
  cases viewAdded with
  | true =>
    have hcase : ∀ q, queries.live sub.connId sub.subId = some q → q = { sub := QueryScheduler.begun txn sub } := by
      intro q hl
      rw [hnew] at hl
      split at hl
      · exact (Option.some.inj hl).symm
      · cases hl
    refine ⟨hinv', .added hinv hp hq P, fun q hl => ?_, fun q view hl hf => ?_, fun _ q hl => ⟨_, hfind⟩⟩
    · rw [hcase q hl]
      exact ⟨txn, htxn, rfl⟩
    · rw [hcase q hl]
      cases hfind.symm.trans hf
      exact ⟨⟨rfl, .nil, fun x => by simp⟩, rfl⟩
  | false =>
    obtain ⟨hinv'', hlive'', -⟩ := hinv'.removeSub sub.connId sub.subId
    have hnone : (queries.removeSub sub.connId sub.subId).live sub.connId sub.subId = none := by
      rw [hlive'', if_pos ⟨rfl, rfl⟩]
    have hfalse : ∀ q, (queries.removeSub sub.connId sub.subId).live sub.connId sub.subId ≠ some q := by
      intro q hl
      rw [hnone] at hl
      cases hl
    exact ⟨hinv'', fun q hl => absurd hl (hfalse q), fun q hl => absurd hl (hfalse q),
      fun q view hl => absurd hl (hfalse q), fun _ q hl => absurd hl (hfalse q)⟩

end

section
variable [Negentropy] [StdSort] {cfg : Cfg} {k : Nat × SubId} {P : Db → Prop} {taken : Bool}
  {st st' : NegentropyThread} {txn : Db}

omit [Negentropy] in
/-- A memory view opened for any id. -/
theorem MemoryInv.openMemory (h : MemoryInv cfg k P taken st) (htxn : P txn) {p : Nat}
    (hp : st.queries.heap.find? p = none) (sub : Subscription) (negPayload : Bytes) :
    MemoryInv cfg k P taken (Strfry.openMemory cfg txn p st sub negPayload).1 := by
  by_cases hk : sub.key = k
  · subst hk
    have hnew := MemoryInv.opened h.queries hp sub negPayload htxn
    exact { hnew with held := fun _ => hnew.held rfl }
  · have hne : ¬ (k.1 = sub.connId ∧ k.2 = sub.subId) := fun hc => hk (Prod.ext hc.1.symm hc.2.symm)
    have hinv := (MemoryInv.opened h.queries hp sub negPayload htxn).queries
    refine h.keep hinv fun q hl => ?_
    revert hl
    unfold Strfry.openMemory
    rcases hq : st.queries.addSub cfg txn sub p with ⟨added, queries⟩
    rcases hv : st.views.addMemoryView cfg sub.connId sub.subId negPayload with ⟨viewAdded, views⟩
    simp only []
    obtain ⟨hinv', hlive⟩ := h.queries.addSub txn sub p hp hq
    have hfind := NegentropyViews.findView_addView hv k.1 k.2
    have hold := hlive k.1 k.2
    rw [if_neg hne] at hfind hold
    cases viewAdded with
    | true => exact fun hl => ⟨hold.symm.trans hl, hfind⟩
    | false =>
      have hrem := (hinv'.removeSub sub.connId sub.subId).2.1 k.1 k.2
      rw [if_neg hne] at hrem
      exact fun hl => ⟨(hrem.trans hold).symm.trans hl, hfind⟩

/-- A slice of the thread. -/
theorem MemoryInv.slice (h : MemoryInv cfg k P taken st) (htxn : P txn) {pauses : List DBQuery.Pause}
    {effects : List Effect} (hs : processQueries cfg txn pauses st = .ok (st', effects)) :
    MemoryInv cfg k P taken st' := by
  obtain ⟨r, hp, hnone, hsome⟩ := processQueries_cases hs
  obtain ⟨hinv, hlive, hran⟩ := h.queries.process hp
  cases r with
  | none =>
    refine h.keep hinv fun q hl => ⟨by rw [← hlive rfl]; exact hl, ?_⟩
    rw [hnone rfl]
  | some ran =>
    obtain ⟨views, hbatch, hgoing, hdone⟩ := hsome ran rfl
    obtain ⟨q, q', out, hsl⟩ := hran ran rfl
    obtain ⟨hother, hself⟩ := findView_onEventBatch hbatch
    have hruns := h.runs.process h.queries htxn hp
    by_cases hk : k.1 = ran.sub.connId ∧ k.2 = ran.sub.subId
    · have hafter := hsl.after k.1 k.2
      rw [if_pos hk] at hafter
      by_cases htotal : ran.total.isSome = true
      · -- the query is complete, and gone
        rw [if_pos htotal] at hafter
        have hfalse : ∀ q1, st'.queries.live k.1 k.2 ≠ some q1 := by
          intro q1 hl
          rw [hafter] at hl
          cases hl
        exact ⟨hinv, hruns, fun q1 hl => absurd hl (hfalse q1), fun q1 view hl => absurd hl (hfalse q1),
          fun _ q1 hl => absurd hl (hfalse q1)⟩
      · rw [if_neg htotal] at hafter
        have hviews := hgoing (by simpa using htotal)
        obtain ⟨l, hl⟩ := DBQuery.sends_process pauses hsl.call
        have hlevIds : ran.levIds = l := by
          rw [hsl.levIds]
          simp only [Bool.not_false, Bool.true_or, List.filter_true]
          exact hl.sent
        have hbefore : st.queries.live k.1 k.2 = some q := by
          rw [hk.1, hk.2]
          exact hsl.before
        refine ⟨hinv, hruns, fun q1 hq1 => ?_, fun q1 view hq1 hv => ?_, fun ht q1 hq1 => ?_⟩
        · cases hafter.symm.trans hq1
          obtain ⟨t, ht, hbegan⟩ := h.began q hbefore
          exact ⟨t, ht, by rw [← hbegan]; exact congrArg _ hl.sub⟩
        · cases hafter.symm.trans hq1
          rw [hviews, hk.1, hk.2] at hv
          obtain ⟨old, hold, heq⟩ := hself _ hv
          cases heq
          obtain ⟨hcol, hempty⟩ := h.gathers q old hbefore (by rw [hk.1, hk.2]; exact hold)
          refine ⟨?_, hempty⟩
          rw [hlevIds]
          exact hcol.send hl
        · obtain ⟨old, hold⟩ := h.held ht q hbefore
          rw [hk.1, hk.2] at hold
          rw [hviews, hk.1, hk.2]
          unfold onEventBatch at hbatch
          rw [hold] at hbatch
          cases hbatch
          exact ⟨_, (NegentropyViews.findView_setView hold _ _ _).trans (if_pos ⟨rfl, rfl⟩)⟩
    · have hviews : st'.views.findView k.1 k.2 = st.views.findView k.1 k.2 := by
        rw [← hother k.1 k.2 hk]
        by_cases htotal : ran.total.isSome = true
        · exact findView_onComplete (hdone htotal) hk
        · rw [hgoing (by simpa using htotal)]
      refine h.keep hinv fun q1 hl => ⟨?_, hviews⟩
      have hafter := hsl.after k.1 k.2
      rw [if_neg hk] at hafter
      exact hafter.symm.trans hl

omit [StdSort] in
/-- A tree-backed NEG-OPEN begins no query. -/
theorem openTree_queries {treeId : Nat} {sub : Subscription} {negPayload : Bytes} {effects : List Effect}
    (ho : openTree cfg txn treeId st sub negPayload = .ok (st', effects)) (h : st.queries.Inv cfg) :
    st'.queries.Inv cfg ∧ ∀ c i q, st'.queries.live c i = some q → st.queries.live c i = some q := by
  obtain ⟨storage, added, -, -, -, hqueries, -⟩ := openTree_cases ho
  obtain ⟨hinv, hlive, -⟩ := h.removeSub sub.connId sub.subId
  rw [hqueries]
  split
  · exact ⟨h, fun _ _ _ hl => hl⟩
  · refine ⟨hinv, fun c i q hl => ?_⟩
    rw [hlive] at hl
    split at hl
    · cases hl
    · exact hl

/-- A tree-backed NEG-OPEN: the view of its id is a memory view no longer, the others stay. -/
theorem MemoryInv.openTree (h : MemoryInv cfg k P taken st) {treeId : Nat} {sub : Subscription}
    {negPayload : Bytes} {effects : List Effect}
    (ho : Strfry.openTree cfg txn treeId st sub negPayload = .ok (st', effects)) :
    MemoryInv cfg k P (taken || decide (some sub.key = some k)) st' := by
  obtain ⟨hinv, hlive⟩ := openTree_queries ho h.queries
  obtain ⟨storage, added, -, -, hfind, -⟩ := openTree_cases ho
  by_cases hk : sub.key = k
  · have htaken : (taken || decide (some sub.key = some k)) = true := by
      rw [hk]
      simp
    rw [htaken]
    have hview := hfind k.1 k.2
    rw [if_pos ⟨(congrArg Prod.fst hk).symm, (congrArg Prod.snd hk).symm⟩] at hview
    refine ⟨hinv, h.runs.mono (fun _ h => h) (hlive _ _), fun q hl => h.began q (hlive _ _ q hl),
      fun q view hl hv => ?_, fun ht => by cases ht⟩
    rw [hview] at hv
    split at hv
    · cases hv
    · cases hv
  · have hfalse : (taken || decide (some sub.key = some k)) = taken := by
      rw [decide_eq_false fun he => hk (Option.some.inj he), Bool.or_false]
    rw [hfalse]
    refine h.keep hinv fun q hl => ⟨hlive _ _ q hl, ?_⟩
    rw [hfind, if_neg fun hc => hk (Prod.ext hc.1.symm hc.2.symm)]

/-- A NEG-MSG takes away a sealed view at most, and a live query's view is not sealed. -/
theorem MemoryInv.handleNegMsg (h : MemoryInv cfg k P taken st) {c : Nat} {i : SubId} {negPayload : Bytes}
    {effects : List Effect} (hm : Strfry.handleNegMsg txn st c i negPayload = .ok (st', effects)) :
    MemoryInv cfg k P taken st' := by
  obtain ⟨hqueries, hviews⟩ := findView_handleNegMsg hm
  rcases hviews k.1 k.2 with hsame | ⟨hgone, hsealed⟩
  · exact h.keep (by rw [hqueries]; exact h.queries) fun q hl => ⟨by rw [← hqueries]; exact hl, hsame⟩
  · refine ⟨by rw [hqueries]; exact h.queries, by rw [hqueries]; exact h.runs,
      fun q hl => h.began q (by rw [← hqueries]; exact hl), fun q view _ hv => ?_, fun hf q hl => ?_⟩
    · rw [hgone] at hv
      cases hv
    · rw [hqueries] at hl
      obtain ⟨view, hview⟩ := h.held hf q hl
      have := hsealed view hview
      rw [(h.gathers q view hl hview).collecting.1] at this
      cases this

/-- **One turn** of the thread. -/
theorem MemoryInv.turn (h : MemoryInv cfg k P taken st) (htxn : P txn) {tree : Option (Nat × SubId)}
    (ht : NegTurn cfg txn st tree st') : MemoryInv cfg k P (taken || decide (tree = some k)) st' := by
  have hno : ∀ {st1}, MemoryInv cfg k P taken st1 → tree = none →
      MemoryInv cfg k P (taken || decide (tree = some k)) st1 := by
    rintro st1 h1 rfl
    rw [decide_eq_false (by simp), Bool.or_false]
    exact h1
  cases ht with
  | openMemory p sub negPayload htree hp => exact hno (h.openMemory htxn hp sub negPayload) htree
  | slice pauses _ effects htree hs => exact hno (h.slice htxn hs) htree
  | openTree treeId sub negPayload _ effects htree ho =>
    rw [htree]
    exact h.openTree ho
  | negMsg c i negPayload _ effects htree hm => exact hno (h.handleNegMsg hm) htree
  | negClose c i htree =>
    refine hno ?_ htree
    obtain ⟨hinv, hlive, -⟩ := h.queries.removeSub c i
    refine h.keep hinv fun q hl => ?_
    replace hl : (st.queries.removeSub c i).live k.1 k.2 = some q := hl
    rw [hlive] at hl
    split at hl
    · cases hl
    · rename_i hne
      exact ⟨hl, (st.views.findView_removeView c i k.1 k.2).trans (if_neg hne)⟩
  | closeConn c htree =>
    refine hno ?_ htree
    obtain ⟨hinv, hlive⟩ := h.queries.closeConn c
    refine h.keep hinv fun q hl => ?_
    replace hl : (st.queries.closeConn c).live k.1 k.2 = some q := hl
    rw [hlive] at hl
    split at hl
    · cases hl
    · rename_i hne
      exact ⟨hl, (st.views.findView_closeConn c k.1 k.2).trans (if_neg hne)⟩

end

/-! ## Runs from a NEG-OPEN on -/

section
variable [Negentropy] [StdSort] (cfg : Cfg)

/-- The thread since a NEG-OPEN with the id `k` was served by a query, over the snapshots so far; `taken`
when a tree came to serve the id. -/
inductive OpenRun (k : Nat × SubId) : List Db → Bool → NegentropyThread → Prop where
  | opened {st : NegentropyThread} (h : Reached cfg (fun _ _ _ _ _ => True) st) (txn : Db) (p : Nat)
      (sub : Subscription) (negPayload : Bytes) (hk : sub.key = k) (hp : st.queries.heap.find? p = none) :
      OpenRun k [txn] false (openMemory cfg txn p st sub negPayload).1
  | turn {snaps : List Db} {taken : Bool} {st st' : NegentropyThread} (h : OpenRun k snaps taken st) (txn : Db)
      (tree : Option (Nat × SubId)) (ht : NegTurn cfg txn st tree st') :
      OpenRun k (snaps ++ [txn]) (taken || decide (tree = some k)) st'

variable {cfg} {k : Nat × SubId} {snaps : List Db} {taken : Bool} {st st' : NegentropyThread} {txn : Db}

theorem NegTurn.queries {tree : Option (Nat × SubId)} (ht : NegTurn cfg txn st tree st')
    (h : st.queries.Inv cfg) : st'.queries.Inv cfg := by
  cases ht with
  | openMemory p sub negPayload _ hp =>
    have hopened : MemoryInv cfg sub.key (· = txn) false (Strfry.openMemory cfg txn p st sub negPayload).1 :=
      .opened h hp sub negPayload rfl
    exact hopened.queries
  | openTree treeId sub negPayload _ effects _ ho => exact (openTree_queries ho h).1
  | negMsg c i negPayload _ effects _ hm =>
    rw [(findView_handleNegMsg hm).1]
    exact h
  | negClose c i => exact (h.removeSub c i).1
  | closeConn c => exact (h.closeConn c).1
  | slice pauses _ effects _ hs =>
    obtain ⟨r, hp, -⟩ := processQueries_cases hs
    exact (h.process hp).1

theorem Reached.queries {C : Db → List DBQuery.Pause → Nat → NegentropyThread → NegEvent → Prop}
    (h : Reached cfg C st) : st.queries.Inv cfg := by
  induction h with
  | init => exact .empty cfg
  | step _ txn pauses p e effects hp _ hs ih =>
    obtain ⟨tree, st1, h1, h2⟩ := negStep_turns hp hs
    rcases h2 with rfl | h2
    · exact h1.queries ih
    · exact h2.queries (h1.queries ih)

/-- The steps of the thread are turns of such a run. -/
theorem OpenRun.step (h : OpenRun cfg k snaps taken st) {pauses : List DBQuery.Pause} {p : Nat} {e : NegEvent}
    {effects : List Effect} (hp : st.queries.heap.find? p = none)
    (hs : negStep cfg txn pauses p st e = .ok (st', effects)) :
    ∃ more taken', (∀ t ∈ more, t = txn) ∧ OpenRun cfg k (snaps ++ more) taken' st' := by
  obtain ⟨tree, st1, h1, h2⟩ := negStep_turns hp hs
  have hrun := h.turn txn tree h1
  rcases h2 with rfl | h2
  · exact ⟨[txn], _, by simp, hrun⟩
  · have hrun := hrun.turn txn none h2
    rw [List.append_assoc] at hrun
    exact ⟨_, _, by simp, hrun⟩

theorem OpenRun.inv (h : OpenRun cfg k snaps taken st) : MemoryInv cfg k (· ∈ snaps) taken st := by
  induction h with
  | opened h txn p sub negPayload hk hp =>
    rw [← hk]
    exact .opened h.queries hp sub negPayload (List.mem_singleton.mpr rfl)
  | turn _ txn tree ht ih =>
    exact (ih.mono fun t ht => List.mem_append_left _ ht).turn (List.mem_append_right _ List.mem_cons_self) ht

end

/-- Between snapshots events are only deleted, and inserted with larger levIds than ever before. -/
inductive FreshLevIds : List Db → Prop where
  | one (txn : Db) : FreshLevIds [txn]
  | next (snaps : List Db) (last txn : Db) (h : FreshLevIds (snaps ++ [last]))
      (hrows : ∀ row ∈ txn.event.rows, row ∈ last.event.rows ∨
        ∀ old ∈ snaps ++ [last], ∀ r ∈ old.event.rows, r.1 < row.1) : FreshLevIds (snaps ++ [last] ++ [txn])

/-- A levId stands for one event only. -/
theorem FreshLevIds.stable {snaps : List Db} (h : FreshLevIds snaps) {txn txn' : Db} (ht : txn ∈ snaps) (ht' : txn' ∈ snaps)
    {levId : Nat} {v v' : PackedEventView} (hv : (levId, v) ∈ txn.event.rows) (hv' : (levId, v') ∈ txn'.event.rows) :
    v = v' := by
  induction h generalizing txn txn' v v' with
  | one t =>
    rw [List.mem_singleton.mp ht] at hv
    rw [List.mem_singleton.mp ht'] at hv'
    exact t.event.row_unique hv hv'
  | next snaps last t _ hrows ih =>
    have hlast : last ∈ snaps ++ [last] := List.mem_append_right _ List.mem_cons_self
    -- an event of the newest snapshot against one of an older one
    have hnew : ∀ {old : Db} {w w' : PackedEventView}, old ∈ snaps ++ [last] → (levId, w) ∈ old.event.rows →
        (levId, w') ∈ t.event.rows → w = w' := by
      intro old w w' hold hw hw'
      rcases hrows _ hw' with hw' | hfresh
      · exact ih hold hlast hw hw'
      · exact absurd (hfresh old hold _ hw) (Nat.lt_irrefl _)
    rcases List.mem_append.mp ht with ht | ht <;> rcases List.mem_append.mp ht' with ht' | ht'
    · exact ih ht ht' hv hv'
    · rw [List.mem_singleton.mp ht'] at hv'
      exact hnew ht hv hv'
    · rw [List.mem_singleton.mp ht] at hv
      exact (hnew ht' hv' hv).symm
    · rw [List.mem_singleton.mp ht] at hv
      rw [List.mem_singleton.mp ht'] at hv'
      exact t.event.row_unique hv hv'

/-! ## Sealing -/

section
variable [StdSort] {txn : Db} {view : MemoryView}

theorem mem_sealView (hempty : view.storageVector = []) (item : Nat × Bytes) :
    item ∈ (sealView txn view).storageVector ↔
      ∃ levId ∈ view.levIds, ∃ v, (levId, v) ∈ txn.event.rows ∧ item = (v.createdAt, v.id) := by
  unfold sealView
  rw [hempty]
  simp only [List.nil_append, List.mem_filterMap, (StdSort.perm _ _).mem_iff, Option.map_eq_some_iff,
    txn.event.lookup_eq_some_iff]
  constructor
  · rintro ⟨levId, hl, v, hv, rfl⟩
    exact ⟨levId, hl, v, hv, rfl⟩
  · rintro ⟨levId, hl, v, hv, rfl⟩
    exact ⟨levId, hl, v, hv, rfl⟩

/-- Distinct events have distinct items. -/
theorem nodup_sealView (hempty : view.storageVector = []) (hnodup : view.levIds.Nodup)
    (hids : ∀ r ∈ txn.event.rows, ∀ r' ∈ txn.event.rows, r.2.id = r'.2.id → r = r') :
    (sealView txn view).storageVector.Nodup := by
  unfold sealView
  rw [hempty]
  simp only [List.nil_append]
  refine List.Nodup.filterMap ?_ ((StdSort.perm _ _).nodup_iff.mpr hnodup)
  intro l l' item hl hl'
  obtain ⟨v, hv, rfl⟩ := Option.map_eq_some_iff.mp hl
  obtain ⟨v', hv', heq⟩ := Option.map_eq_some_iff.mp hl'
  have hrow := hids _ ((txn.event.lookup_eq_some_iff _ _).mp hv) _ ((txn.event.lookup_eq_some_iff _ _).mp hv')
    (congrArg Prod.snd heq).symm
  exact congrArg Prod.fst hrow

end

/-! ## The filters of a NEG-OPEN -/

/-- The NEG-OPEN gave this subscription, whatever the iteration order of the hash maps; its
`latestEventId` is set when the query begins. -/
def OpenRequest [Golpe] [TaoJson] (cfg : Cfg) (arr : List Json) (filterJson : Json) (sub : Subscription) : Prop :=
  arr[2]? = some filterJson ∧ ∃ fg filterStr negPayload,
    ingesterProcessNegentropy cfg sub.connId arr =
      .ok (.negOpen { sub with filterGroup := fg, latestEventId := maxU64 } filterStr negPayload) ∧
    List.Forall₂ NostrFilter.SameUpToTagOrder sub.filterGroup.filters fg.filters

/-- The filter of a NEG-OPEN, or each of them, carries no `limit`. -/
def NoLimits : Json → Prop
  | .array l => ∀ v ∈ l, v.NoLimit
  | v => v.NoLimit

theorem OpenRequest.filters [Golpe] [TaoJson] {cfg : Cfg} {arr : List Json} {filterJson : Json} {sub : Subscription}
    (h : OpenRequest cfg arr filterJson sub) (hmax : cfg.relayNegentropyMaxSyncEvents < maxU64)
    (hno : NoLimits filterJson) : sub.filterGroup.Built ∧
      ∀ f ∈ sub.filterGroup.filters, f.limit = cfg.relayNegentropyMaxSyncEvents + 1 := by
  obtain ⟨harr, fg, filterStr, negPayload, hreq, hsame⟩ := h
  have hfg := (ingester_negOpen harr hreq).1
  unfold NostrFilterGroup.unwrapped at hfg
  refine ⟨⟨_, _, fg, hfg, hsame⟩, fun f hf => ?_⟩
  rw [NostrFilterGroup.limit_of_ofReq hfg hsame ?_ f hf]
  · unfold addU64
    unfold maxU64 at hmax ⊢
    omega
  · show ∀ v ∈ (match filterJson with
      | .array l => l
      | v => [v]), v.NoLimit
    cases filterJson with
    | array l => exact hno
    | _ =>
      intro v hv
      rw [List.mem_singleton.mp hv]
      exact hno

/-! ## The complete query -/

section
variable [Negentropy] [StdSort] {cfg : Cfg} {txn : Db}

/-- `onComplete` for a memory view: too many results, or the sealed view is reconciled. -/
theorem onComplete_cases {views views' : NegentropyViews} {sub : Subscription} {effects : List Effect}
    {view : MemoryView} (hview : views.findView sub.connId sub.subId = some (.memory view))
    (h : onComplete cfg txn views sub = .ok (views', effects)) :
    (cfg.relayNegentropyMaxSyncEvents < view.levIds.length ∧
      effects = [.negErr sub.connId sub.subId "blocked: too many query results"
        (some cfg.relayNegentropyMaxSyncEvents)] ∧
      views'.findView sub.connId sub.subId = none) ∨
    (view.levIds.length ≤ cfg.relayNegentropyMaxSyncEvents ∧
      ∀ resp, Negentropy.reconcile (sealView txn view).storageVector.toFinset view.initialMsg = some resp →
        effects = [.negMsg sub.connId sub.subId resp] ∧
        views'.findView sub.connId sub.subId = some (.memory { sealView txn view with initialMsg := [] })) := by
  unfold onComplete at h
  rw [hview] at h
  simp only [] at h
  split at h
  · rename_i hbig
    cases h
    exact Or.inl ⟨hbig, rfl, (NegentropyViews.findView_removeView _ _ _ _ _).trans (if_pos ⟨rfl, rfl⟩)⟩
  · rename_i hsmall
    refine Or.inr ⟨by omega, fun resp hresp => ?_⟩
    have hset := (NegentropyViews.findView_setView hview (.memory (sealView txn view)) sub.connId sub.subId).trans
      (if_pos ⟨rfl, rfl⟩)
    generalize views.setView sub.connId sub.subId (.memory (sealView txn view)) = views1 at h hset
    have hrec : handleReconcile views1 sub.connId sub.subId (sealView txn view).storageVector.toFinset
        (sealView txn view).initialMsg = (views1, [.negMsg sub.connId sub.subId resp]) := by
      unfold handleReconcile
      rw [show (sealView txn view).initialMsg = view.initialMsg from rfl, hresp]
    simp only [hrec, hset] at h
    cases h
    exact ⟨rfl, (NegentropyViews.findView_setView hset _ _ _).trans (if_pos ⟨rfl, rfl⟩)⟩

end

/-- What the vector of a sealed view has to do with the events of the snapshots: no item twice, all
matching events that were present throughout, and only matching events of the last one. -/
structure Complete (snaps : List Db) (txn : Db) (sub : Subscription) (items : List (Nat × Bytes)) : Prop where
  nodup : items.Nodup
  throughout : ∀ levId v, (∀ t ∈ snaps, (levId, v) ∈ t.event.rows) → sub.filterGroup.doesMatch v = true →
    (v.createdAt, v.id) ∈ items
  only : ∀ item ∈ items, ∃ levId v, levId ≤ sub.latestEventId ∧ (levId, v) ∈ txn.event.rows ∧
    sub.filterGroup.doesMatch v = true ∧ item = (v.createdAt, v.id)

section
variable [Negentropy] [StdSort] {cfg : Cfg} {txn : Db} {snaps : List Db} {taken : Bool} {st : NegentropyThread}

/-- The slice that completes a query: its view, and what is known of what it collected. -/
theorem OpenRun.completes {queries : QueryScheduler} {ran : QueryScheduler.Ran} {pauses : List DBQuery.Pause}
    (h : OpenRun cfg ran.sub.key snaps taken st)
    (hplan : ∀ f ∈ ran.sub.filterGroup.filters, ∃ ps km, DBScan.Planned f ps km)
    (hsnaps : ∀ t ∈ snaps ++ [txn], DBQuery.Scannable t)
    (hp : st.queries.process false txn pauses = .ok (queries, some ran)) (hdone : ran.total.isSome = true) :
    (taken = false → ∃ view, st.views.findView ran.sub.connId ran.sub.subId = some (.memory view)) ∧
    (∃ t ∈ snaps, ran.sub.latestEventId = t.getMostRecentLevId) ∧
    ∃ q', DBQuery.QueryCover (· ∈ snaps ++ [txn]) ran.sub q' ∧
      ran.sub.filterGroup.filters[q'.1.filterGroupIndex]? = none ∧
      ∀ view, st.views.findView ran.sub.connId ran.sub.subId = some (.memory view) →
        view.storageVector = [] ∧ (view.levIds ++ ran.levIds).Nodup ∧
        ∀ levId, levId ∈ view.levIds ++ ran.levIds ↔ levId ∈ DBQuery.sent q'.2 := by
  have hinv := h.inv
  obtain ⟨q, q', out, hsl⟩ := (hinv.queries.process hp).2.2 ran rfl
  have hbefore : st.queries.live ran.sub.key.1 ran.sub.key.2 = some q := hsl.before
  have hin : ∀ t ∈ snaps, t ∈ snaps ++ [txn] := fun t ht => List.mem_append_left _ ht
  obtain ⟨used, out', hused, hrun⟩ := (hinv.mono hin).runs.slice
    (List.mem_append_right _ List.mem_cons_self) hsl rfl
  rw [hdone] at hrun
  obtain ⟨hcov, hend⟩ := DBQuery.QueryCover.slices hplan (fun t ht => hsnaps t (hused t ht)) hrun
  obtain ⟨l, hl⟩ := DBQuery.sends_process pauses hsl.call
  have hlevIds : ran.levIds = l := by
    rw [hsl.levIds]
    simp only [Bool.not_false, Bool.true_or, List.filter_true]
    exact hl.sent
  refine ⟨fun ht => hinv.held ht q hbefore, ?_, (q', out'), hcov.mono hused, hend rfl, fun view hview => ?_⟩
  · obtain ⟨t, ht, hbegan⟩ := hinv.began q hbefore
    exact ⟨t, ht, by rw [← hbegan, hsl.sub]⟩
  · obtain ⟨hcol, hempty⟩ := hinv.gathers q view hbefore hview
    have hnew := hcol.send hl
    rw [hlevIds]
    refine ⟨hempty, hnew.2.1, fun levId => ?_⟩
    rw [hnew.2.2 levId]
    have hfull : q'.sentEventsFull = (DBQuery.sent out').toFinset := hcov.full
    rw [hfull, List.mem_toFinset]

omit [Negentropy] in
/-- What was collected, sealed, is complete, when it was not too much. -/
theorem complete_sealView {q' : DBQuery.State} {sub : Subscription} (hcov : DBQuery.QueryCover (· ∈ snaps ++ [txn]) sub q')
    (hend : sub.filterGroup.filters[q'.1.filterGroupIndex]? = none) {n : Nat}
    (hlimit : ∀ f ∈ sub.filterGroup.filters, f.limit = n + 1)
    (hlatest : ∃ t ∈ snaps, sub.latestEventId = t.getMostRecentLevId) (hfresh : FreshLevIds (snaps ++ [txn]))
    (hids : ∀ r ∈ txn.event.rows, ∀ r' ∈ txn.event.rows, r.2.id = r'.2.id → r = r') {view : MemoryView}
    (hempty : view.storageVector = []) (hnodup : view.levIds.Nodup)
    (hmem : ∀ levId, levId ∈ view.levIds ↔ levId ∈ DBQuery.sent q'.2) (hfew : view.levIds.length ≤ n) :
    Complete (snaps ++ [txn]) txn sub (sealView txn view).storageVector where
  nodup := nodup_sealView hempty hnodup hids
  throughout levId v hv hm := by
    have hlen : view.levIds.length = (DBQuery.sent q'.2).length :=
      ((List.perm_ext_iff_of_nodup hnodup hcov.nodup).mpr hmem).length_eq
    have hall := (hcov.full_or_all hend hlimit).resolve_left (by omega)
    obtain ⟨t, ht, hlast⟩ := hlatest
    have hle : levId ≤ sub.latestEventId := by
      rw [hlast]
      exact t.event.le_lastId _ (hv t (List.mem_append_left _ ht))
    refine (mem_sealView hempty _).mpr ⟨levId, (hmem levId).mpr (hall levId v hv hle hm), v, ?_, rfl⟩
    exact hv txn (List.mem_append_right _ List.mem_cons_self)
  only item hitem := by
    obtain ⟨levId, hl, v, hv, rfl⟩ := (mem_sealView hempty _).mp hitem
    obtain ⟨hle, t, w, ht, hw, hm⟩ := hcov.toCovered.sent_matches ((hmem levId).mp hl)
    -- the event that is still there is the one that matched
    have heq := hfresh.stable (List.mem_append_right _ List.mem_cons_self) ht hv hw
    subst heq
    exact ⟨levId, v, hle, hv, hm, rfl⟩

/-- The slices of the query come back. -/
theorem OpenRun.returns {k : Nat × SubId} (h : OpenRun cfg k snaps taken st) {q : DBQuery}
    (hq : st.queries.live k.1 k.2 = some q)
    (hplan : ∀ f ∈ q.sub.filterGroup.filters, ∃ ps km, DBScan.Planned f ps km)
    (hsnaps : ∀ t ∈ snaps ++ [txn], DBQuery.Scannable t) :
    (∀ pauses, DBQuery.process txn pauses (q, []) ≠ .undefined) ∧ ∃ N, DBQuery.Returns txn (q, []) N := by
  obtain ⟨used, out, hused, hrun⟩ := h.inv.runs q hq
  have hin : ∀ t ∈ used, t ∈ snaps ++ [txn] := fun t ht => List.mem_append_left _ (hused t ht)
  obtain ⟨hcov, -⟩ := DBQuery.QueryCover.slices hplan (fun t ht => hsnaps t (hin t ht)) hrun
  have hcov : DBQuery.QueryCover (· ∈ snaps ++ [txn]) q.sub (q, out) := hcov.mono hin
  have hok : ∀ f ∈ q.sub.filterGroup.filters, ∀ t, t ∈ snaps ++ [txn] → DBScan.SnapOk f t :=
    fun f _ t ht => (hsnaps t ht).snapOk f
  have hlast : txn ∈ snaps ++ [txn] := List.mem_append_right _ List.mem_cons_self
  refine ⟨fun pauses hundef => ?_, ?_⟩
  · refine (hcov.call hplan hok hlast pauses).1 ?_
    have hafter := DBQuery.process_after txn out pauses (q, [])
    rw [hundef, List.append_nil] at hafter
    exact hafter
  · obtain ⟨N, hN⟩ := hcov.returns hplan hok hlast
    rw [← List.append_nil out] at hN
    exact ⟨N, DBQuery.returns_after hN⟩

end

/-- **Memory views are not truncated silently.**  From a NEG-OPEN without limits on, its slices come
back, and the view is there when its query is complete unless a tree was taken to serve the id.  Then
either the NEG-ERR is sent and the view removed, or the vector that is sealed and reconciled is
complete.  `hids` is what the writer keeps of every database (`StoreInv.ids`). -/
theorem memory_set_complete [Golpe] [TaoJson] [Negentropy] [StdSort] (cfg : Cfg)
    (hmax : cfg.relayNegentropyMaxSyncEvents < maxU64) (arr : List Json) (filterJson : Json) (hno : NoLimits filterJson)
    (sub : Subscription) (hreq : OpenRequest cfg arr filterJson sub)
    (hsmall : ∀ f ∈ sub.filterGroup.filters, DBScan.SmallFields f) (snaps : List Db) (taken : Bool)
    (st : NegentropyThread) (h : OpenRun cfg sub.key snaps taken st) (txn : Db)
    (hsnaps : ∀ t ∈ snaps ++ [txn], DBQuery.Scannable t) (hfresh : FreshLevIds (snaps ++ [txn]))
    (hids : ∀ r ∈ txn.event.rows, ∀ r' ∈ txn.event.rows, r.2.id = r'.2.id → r = r') :
    (∀ q, st.queries.live sub.connId sub.subId = some q → q.sub = sub →
      (∀ pauses, DBQuery.process txn pauses (q, []) ≠ .undefined) ∧ ∃ N, DBQuery.Returns txn (q, []) N) ∧
    ∀ pauses queries ran, st.queries.process false txn pauses = .ok (queries, some ran) → ran.sub = sub →
      ran.total.isSome = true →
      (taken = false → ∃ view, st.views.findView sub.connId sub.subId = some (.memory view)) ∧
      ∀ view, st.views.findView sub.connId sub.subId = some (.memory view) →
        let sealed := sealView txn { view with levIds := view.levIds ++ ran.levIds }
        ∃ st' effects, processQueries cfg txn pauses st = .ok (st', effects) ∧
          ((effects = [.negErr sub.connId sub.subId "blocked: too many query results"
              (some cfg.relayNegentropyMaxSyncEvents)] ∧ st'.views.findView sub.connId sub.subId = none) ∨
            Complete (snaps ++ [txn]) txn sub sealed.storageVector ∧
            ∀ resp, Negentropy.reconcile sealed.storageVector.toFinset view.initialMsg = some resp →
              effects = [.negMsg sub.connId sub.subId resp] ∧
              st'.views.findView sub.connId sub.subId = some (.memory { sealed with initialMsg := [] })) := by
  obtain ⟨hbuilt, hlimit⟩ := hreq.filters hmax hno
  have hplan := DBQuery.planned_of_built hbuilt hsmall
  refine ⟨fun q hq hsub => h.returns hq (by rw [hsub]; exact hplan) hsnaps,
    fun pauses queries ran hp hran hdone => ?_⟩
  subst hran
  obtain ⟨hheld, hlatest, q', hcov, hend, hcollected⟩ := h.completes hplan hsnaps hp hdone
  refine ⟨hheld, fun view hview => ?_⟩
  obtain ⟨hempty, hnodup, hmem⟩ := hcollected view hview
  -- the batch goes into the view, and `onComplete` finds it there
  let view1 : MemoryView := { view with levIds := view.levIds ++ ran.levIds }
  let views1 := st.views.setView ran.sub.connId ran.sub.subId (.memory view1)
  have hself : views1.findView ran.sub.connId ran.sub.subId = some (.memory view1) :=
    (NegentropyViews.findView_setView hview _ _ _).trans (if_pos ⟨rfl, rfl⟩)
  have hbatch : onEventBatch st.views ran.sub ran.levIds = .ok views1 := by
    unfold onEventBatch
    rw [hview]
  obtain ⟨views', effects, hcomplete, -⟩ := onComplete_memory cfg txn hself
  have hrun : processQueries cfg txn pauses st = .ok (⟨queries, views'⟩, effects) := by
    unfold processQueries
    rw [hp]
    simp only [bind, Except.bind, hbatch, hdone, if_true, hcomplete]
    rfl
  refine ⟨_, effects, hrun, ?_⟩
  rcases onComplete_cases hself hcomplete with ⟨-, heff, hgone⟩ | ⟨hfew, hreconcile⟩
  · exact Or.inl ⟨heff, hgone⟩
  · exact Or.inr ⟨complete_sealView hcov hend hlimit hlatest hfresh hids hempty hnodup hmem hfew, hreconcile⟩

/-- `["NEG-OPEN", "x", {"kinds": [1]}, "61"]`. -/
def negOpenKind1 : List Json :=
  [.string (ascii "NEG-OPEN"), .string (ascii "x"), .object [(ascii "kinds", .array [.unsigned 1])],
    .string (ascii "61")]

/-- The subscription it gives on three events. -/
def negSubKind1 : Subscription :=
  { DBQuery.subOf [{ DBQuery.kind1Filter with limit := 1000001 }] with latestEventId := 3 }

/-- One of its events is deleted and another comes in before the slice that completes the query. -/
theorem memory_set_complete_changed : let _ : Negentropy := .versionOnly
    let _ : StdSort := .insertion
    ∃ st pauses queries ran view st' effects,
      OpenRun {} negSubKind1.key [DBQuery.threeEvents] false st ∧
      st.queries.process false DBQuery.changedEvents pauses = .ok (queries, some ran) ∧
      ran.sub = negSubKind1 ∧ ran.total.isSome = true ∧
      st.views.findView 1 negSubKind1.subId = some (.memory view) ∧
      processQueries {} DBQuery.changedEvents pauses st = .ok (st', effects) ∧
      ((effects = [.negErr 1 negSubKind1.subId "blocked: too many query results" (some 1000000)] ∧
          st'.views.findView 1 negSubKind1.subId = none) ∨
        Complete [DBQuery.threeEvents, DBQuery.changedEvents] DBQuery.changedEvents negSubKind1
          (sealView DBQuery.changedEvents { view with levIds := view.levIds ++ ran.levIds }).storageVector) := by
  let _ : Negentropy := .versionOnly
  let _ : StdSort := .insertion
  let _ : Golpe := .plain
  let _ : TaoJson := .none
  have hreq : OpenRequest {} negOpenKind1 (.object [(ascii "kinds", .array [.unsigned 1])]) negSubKind1 :=
    ⟨rfl, _, _, _, rfl, List.forall₂_same.mpr fun f _ => .refl f⟩
  have hno : NoLimits (.object [(ascii "kinds", .array [.unsigned 1])]) := by
    intro kvs he kv hkv
    cases he
    rw [List.mem_singleton.mp hkv]
    decide
  have hsmall : ∀ g ∈ negSubKind1.filterGroup.filters, DBScan.SmallFields g := by
    intro g hg
    rw [List.mem_singleton.mp hg]
    exact ⟨by simp [DBQuery.kind1Filter], by simp [DBQuery.kind1Filter],
      fun s hs => by rw [← Option.some.inj hs]; decide, by simp [DBQuery.kind1Filter]⟩
  have hsnaps : ∀ t ∈ [DBQuery.threeEvents] ++ [DBQuery.changedEvents], DBQuery.Scannable t := by
    unfold DBQuery.Scannable DBScan.LevIdsFit
    decide
  have hfresh : FreshLevIds ([] ++ [DBQuery.threeEvents] ++ [DBQuery.changedEvents]) := by
    refine .next [] _ _ (.one _) ?_
    decide
  let st := (openMemory {} DBQuery.threeEvents 7 {} negSubKind1 [0x61]).1
  have hopen : OpenRun {} negSubKind1.key [DBQuery.threeEvents] false st :=
    .opened .init DBQuery.threeEvents 7 negSubKind1 [0x61] rfl rfl
  obtain ⟨hback, hcompletes⟩ := memory_set_complete {} (by decide) negOpenKind1 _ hno negSubKind1 hreq hsmall _ false
    st hopen DBQuery.changedEvents hsnaps hfresh (by decide)
  -- a slice without pauses is complete
  let q : DBQuery := { sub := negSubKind1 }
  obtain ⟨N, hN⟩ := (hback q rfl rfl).2
  obtain ⟨complete, ⟨q', out⟩, hp, hc⟩ := hN (List.replicate N fun _ l => (false, l)) (by simp)
  have hc := hc fun p hp => by rw [List.eq_of_mem_replicate hp]; simp
  subst hc
  obtain ⟨l, hl⟩ := DBQuery.sends_process _ hp
  have hslice : ∃ queries ran, st.queries.process false DBQuery.changedEvents
      (List.replicate N fun _ l => (false, l)) = .ok (queries, some ran) ∧ ran.sub = q'.sub ∧
      ran.total.isSome = true := by
    have hs : st.queries.running = [7] ∧ st.queries.heap.find? 7 = some q := ⟨rfl, rfl⟩
    unfold QueryScheduler.process
    simp only [hs.1, hs.2, hp]
    exact ⟨_, _, rfl, rfl, rfl⟩
  obtain ⟨queries, ran, hslice, hsub, htotal⟩ := hslice
  have hsub : ran.sub = negSubKind1 := hsub.trans hl.sub
  obtain ⟨hview, hresult⟩ := hcompletes _ queries ran hslice hsub htotal
  obtain ⟨view, hview⟩ := hview rfl
  obtain ⟨st', effects, hrun, hcases⟩ := hresult view hview
  exact ⟨st, _, queries, ran, view, st', effects, hopen, hslice, hsub, htotal, hview, hrun,
    hcases.imp_right fun h => h.1⟩

end Strfry
