import Strfry.DBQuerySpec
import Strfry.RelayNegentropy

/-!
# Queries and views of the negentropy thread

While a query is live its view collects what the query sends (`Collecting`); the view is
sealed when the query is complete, and the query is gone by then.  This holds along every
run in which no tree takes over the view of a pending query, and then no callback finds a
view of the other kind (`views_consistent`).  It fails when a tree does (`tree_takes_over`).

A NEG-ERR leaves no view behind (`negErr_closes`), unless a tree-backed NEG-OPEN is
rejected: the view is added after the rejection (`rejected_open_stays`).
-/

namespace Strfry

/-! ## Views -/

namespace NegentropyViews

theorem findView_removeView (views : NegentropyViews) (c : Nat) (i : SubId) (c' : Nat) (i' : SubId) :
    (views.removeView c i).findView c' i' = if c' = c ∧ i' = i then none else views.findView c' i' := by
  unfold removeView
  split
  · rename_i hnone
    split
    · rename_i hci
      rw [hci.1, hci.2, hnone]
    · rfl
  · rename_i view hview
    exact Nested.find_eraseAt views.conns hview c' i'

theorem findView_addView {cfg : Cfg} {views views' : NegentropyViews} {c : Nat} {i : SubId} {view : UserView}
    {added : Bool} (h : views.addView cfg c i view = (added, views')) (c' : Nat) (i' : SubId) :
    views'.findView c' i' = if c' = c ∧ i' = i then (if added then some view else none)
      else views.findView c' i' := by
  have hrem := views.findView_removeView c i
  unfold addView at h
  simp only [] at h
  generalize views.removeView c i = views1 at h hrem
  split at h
  · cases h
    have hf : Nested.find (views1.conns.tryEmplace c .empty) c' i' = views1.findView c' i' :=
      Nested.find_tryEmplace views1.conns c c' i'
    exact hf.trans (hrem c' i')
  · cases h
    have hnone : Nested.find views1.conns c i = none := (hrem c i).trans (if_pos ⟨rfl, rfl⟩)
    refine (Nested.find_emplaceAt views1.conns hnone view c' i').trans ?_
    split
    · rfl
    · rename_i hci
      exact (hrem c' i').trans (if_neg hci)

theorem findView_setView {views : NegentropyViews} {c : Nat} {i : SubId} {old : UserView}
    (h : views.findView c i = some old) (view : UserView) (c' : Nat) (i' : SubId) :
    (views.setView c i view).findView c' i' = if c' = c ∧ i' = i then some view else views.findView c' i' :=
  Nested.find_setAt views.conns h view c' i'

theorem findView_closeConn (views : NegentropyViews) (c c' : Nat) (i' : SubId) :
    (views.closeConn c).findView c' i' = if c' = c then none else views.findView c' i' := by
  unfold closeConn
  split
  · rename_i hnone
    split
    · rename_i hc
      unfold findView Nested.find
      rw [hc, hnone]
      rfl
    · rfl
  · exact Nested.find_erase views.conns c c' i'

end NegentropyViews

/-- One turn of the thread: a message, or a slice of the queries. -/
inductive NegEvent where
  | msg (m : MsgNegentropy)
  | slice

section
variable [Negentropy] [StdSort] (cfg : Cfg)

def negStep (txn : Db) (pauses : List DBQuery.Pause) (p : Nat) (st : NegentropyThread) :
    NegEvent → Except Err (NegentropyThread × List Effect)
  | .msg m => handleNegentropy cfg txn pauses p st m
  | .slice => processQueries cfg txn pauses st

end

section
variable [Negentropy] [StdSort] {cfg : Cfg}

omit [StdSort] in
theorem findView_handleReconcile (views : NegentropyViews) (c : Nat) (i : SubId)
    (storage : Finset (Nat × Bytes)) (msg : Bytes) (c' : Nat) (i' : SubId) :
    (handleReconcile views c i storage msg).1.findView c' i' =
      if (c' = c ∧ i' = i) ∧ Negentropy.reconcile storage msg = none then none
      else views.findView c' i' := by
  unfold handleReconcile
  cases hr : Negentropy.reconcile storage msg with
  | none => simp [NegentropyViews.findView_removeView]
  | some resp => simp

omit [StdSort] in
theorem effects_handleReconcile (views : NegentropyViews) (c : Nat) (i : SubId)
    (storage : Finset (Nat × Bytes)) (msg : Bytes) :
    ∀ e ∈ (handleReconcile views c i storage msg).2, (∃ resp, e = .negMsg c i resp) ∨
      Negentropy.reconcile storage msg = none ∧ e = .negErr c i "PROTOCOL-ERROR" none := by
  unfold handleReconcile
  cases hr : Negentropy.reconcile storage msg with
  | none => simp
  | some resp => simp

/-! ## Queries and their views -/

/-- The view of a query that is not complete. -/
def Collecting (q : DBQuery) : UserView → Prop
  | .memory view => view.isSealed = false ∧ view.levIds.Nodup ∧ ∀ x, x ∈ view.levIds ↔ x ∈ q.sentEventsFull
  | .stateless _ _ => False

structure ThreadInv (cfg : Cfg) (st : NegentropyThread) : Prop where
  queries : st.queries.Inv cfg
  views : ∀ c i q view, st.queries.live c i = some q → st.views.findView c i = some view →
    Collecting q view

omit [Negentropy] [StdSort] in
/-- Fewer live queries and fewer views. -/
theorem ThreadInv.shrink {st st' : NegentropyThread} (h : ThreadInv cfg st) (hq : st'.queries.Inv cfg)
    (hlive : ∀ c i q, st'.queries.live c i = some q → st.queries.live c i = some q)
    (hviews : ∀ c i view, (st'.queries.live c i).isSome → st'.views.findView c i = some view →
      st.views.findView c i = some view) : ThreadInv cfg st' :=
  ⟨hq, fun c i q view hl hv => h.views c i q view (hlive c i q hl) (hviews c i view (by rw [hl]; rfl) hv)⟩

/-- What reconciling the answer to a NEG-OPEN must not do when its query is complete. -/
def Accepted (cfg : Cfg) (txn : Db) (pauses : List DBQuery.Pause) (st : NegentropyThread) : Prop :=
  ∀ queries ran view, st.queries.process false txn pauses = .ok (queries, some ran) →
    ran.total.isSome = true → st.views.findView ran.sub.connId ran.sub.subId = some (.memory view) →
    (view.levIds ++ ran.levIds).length ≤ cfg.relayNegentropyMaxSyncEvents →
    Negentropy.reconcile (sealView txn { view with levIds := view.levIds ++ ran.levIds }).storageVector.toFinset
      view.initialMsg ≠ none

omit [Negentropy] [StdSort] in
/-- A view goes on collecting what its query sends. -/
theorem Collecting.send {q q' : DBQuery} {view : MemoryView} {l : List Nat} {out : List DBQuery.Call}
    (h : Collecting q (.memory view)) (hs : DBQuery.Sends (q, []) (q', out) l) :
    Collecting q' (.memory { view with levIds := view.levIds ++ l }) := by
  obtain ⟨hseal, hnd, hmem⟩ := h
  refine ⟨hseal, List.nodup_append.mpr ⟨hnd, hs.nodup, ?_⟩, fun x => ?_⟩
  · rintro a ha b hb rfl
    exact hs.fresh a hb ((hmem a).mp ha)
  · rw [List.mem_append, hmem]
    exact (hs.full x).symm

/-- A query is complete whose view is a memory view. -/
theorem onComplete_memory (cfg : Cfg) (txn : Db) {views : NegentropyViews} {sub : Subscription} {view : MemoryView}
    (h : views.findView sub.connId sub.subId = some (.memory view)) : ∃ views' effects,
      onComplete cfg txn views sub = .ok (views', effects) ∧
      (∀ c i, ¬ (c = sub.connId ∧ i = sub.subId) → views'.findView c i = views.findView c i) ∧
      ∀ c i, .touchRemoved c i ∈ effects → view.levIds.length ≤ cfg.relayNegentropyMaxSyncEvents ∧
        Negentropy.reconcile (sealView txn view).storageVector.toFinset view.initialMsg = none := by
  unfold onComplete
  rw [h]
  simp only []
  by_cases hbig : view.levIds.length > cfg.relayNegentropyMaxSyncEvents
  · rw [if_pos hbig]
    refine ⟨_, _, rfl, fun c i hne => ?_, by simp⟩
    rw [NegentropyViews.findView_removeView, if_neg hne]
  · rw [if_neg hbig]
    have hset := NegentropyViews.findView_setView h (.memory (sealView txn view))
    generalize views.setView sub.connId sub.subId (.memory (sealView txn view)) = views1 at hset
    have hself := hset sub.connId sub.subId
    rw [if_pos ⟨rfl, rfl⟩] at hself
    unfold handleReconcile
    cases hr : Negentropy.reconcile (sealView txn view).storageVector.toFinset (sealView txn view).initialMsg with
    | none =>
      have hgone : (views1.removeView sub.connId sub.subId).findView sub.connId sub.subId = none := by
        rw [NegentropyViews.findView_removeView, if_pos ⟨rfl, rfl⟩]
      simp only [hgone]
      refine ⟨_, _, rfl, fun c i hne => ?_, fun _ _ _ => ⟨by omega, hr⟩⟩
      rw [NegentropyViews.findView_removeView, if_neg hne, hset, if_neg hne]
    | some resp =>
      simp only [hself]
      refine ⟨_, _, rfl, fun c i hne => ?_, by simp⟩
      rw [NegentropyViews.findView_setView hself, if_neg hne, hset, if_neg hne]

/-- **A slice**: the callbacks find the view they expect, and the views stay in step with the
queries. -/
theorem ThreadInv.after_process {st : NegentropyThread} (h : ThreadInv cfg st) {txn : Db}
    {pauses : List DBQuery.Pause} {queries : QueryScheduler} {r : Option QueryScheduler.Ran}
    (hp : st.queries.process false txn pauses = .ok (queries, r)) :
    ∃ st' effects, processQueries cfg txn pauses st = .ok (st', effects) ∧ ThreadInv cfg st' ∧
      (Accepted cfg txn pauses st → ∀ c i, .touchRemoved c i ∉ effects) := by
  obtain ⟨hinv, hnone, hran⟩ := h.queries.process hp
  unfold processQueries
  rw [hp]
  cases r with
  | none =>
    refine ⟨_, _, rfl, ?_, by simp⟩
    exact h.shrink hinv (fun c i q hl => by rw [← hnone rfl]; exact hl) (fun c i view _ hv => hv)
  | some ran =>
    obtain ⟨q, q', out, hs⟩ := hran ran rfl
    obtain ⟨l, hl⟩ := DBQuery.sends_process pauses hs.call
    have hlevIds : ran.levIds = l := by
      rw [hs.levIds]
      simp only [Bool.not_false, Bool.true_or, List.filter_true]
      exact hl.sent
    -- the live queries after the slice are the other ones, and `q'` unless it is complete
    have hothers : ∀ c i q1, queries.live c i = some q1 → ¬ (c = ran.sub.connId ∧ i = ran.sub.subId) →
        st.queries.live c i = some q1 := by
      intro c i q1 hq1 hne
      rw [hs.after, if_neg hne] at hq1
      exact hq1
    cases hview : st.views.findView ran.sub.connId ran.sub.subId with
    | none =>
      have hviews : ∀ c i q1 view, queries.live c i = some q1 → st.views.findView c i = some view →
          Collecting q1 view := by
        intro c i q1 view hq1 hv
        refine h.views c i q1 view (hothers c i q1 hq1 ?_) hv
        rintro ⟨rfl, rfl⟩
        rw [hview] at hv
        cases hv
      have hbatch : onEventBatch st.views ran.sub ran.levIds = .ok st.views := by
        unfold onEventBatch
        rw [hview]
      have hdone : onComplete cfg txn st.views ran.sub = .ok (st.views, []) := by
        unfold onComplete
        rw [hview]
      by_cases hc : ran.total.isSome = true
      · exact ⟨⟨queries, st.views⟩, [], by simp only [bind, Except.bind, hbatch, hc, if_true, hdone]; rfl,
          ⟨hinv, hviews⟩, by simp⟩
      · exact ⟨⟨queries, st.views⟩, [], by simp only [bind, Except.bind, hbatch, hc]; rfl,
          ⟨hinv, hviews⟩, by simp⟩
    | some view =>
      have hcol := h.views _ _ _ _ hs.before hview
      cases view with
      | stateless sub treeId => cases hcol
      | memory view =>
        have hnew := hcol.send hl
        rw [← hlevIds] at hnew
        let view1 : MemoryView := { view with levIds := view.levIds ++ ran.levIds }
        let views1 := st.views.setView ran.sub.connId ran.sub.subId (.memory view1)
        have hfind1 : ∀ c i, views1.findView c i =
            if c = ran.sub.connId ∧ i = ran.sub.subId then some (.memory view1) else st.views.findView c i :=
          NegentropyViews.findView_setView hview _
        have hbatch : onEventBatch st.views ran.sub ran.levIds = .ok views1 := by
          unfold onEventBatch
          rw [hview]
        by_cases hc : ran.total.isSome = true
        · -- the query is gone, so nothing is asked of its view
          have hgone : ∀ views2 : NegentropyViews, (∀ c i, ¬ (c = ran.sub.connId ∧ i = ran.sub.subId) →
              views2.findView c i = st.views.findView c i) → ThreadInv cfg ⟨queries, views2⟩ := by
            intro views2 hsame
            refine ⟨hinv, fun c i q1 v hq1 hv => ?_⟩
            have hne : ¬ (c = ran.sub.connId ∧ i = ran.sub.subId) := by
              intro hci
              have hq1 : queries.live c i = some q1 := hq1
              rw [hs.after, if_pos hci, if_pos hc] at hq1
              cases hq1
            refine h.views c i q1 v (hothers c i q1 hq1 hne) ?_
            rw [← hsame c i hne]
            exact hv
          have hcomplete : ∃ views2 effects, onComplete cfg txn views1 ran.sub = .ok (views2, effects) ∧
              (∀ c i, ¬ (c = ran.sub.connId ∧ i = ran.sub.subId) →
                views2.findView c i = st.views.findView c i) ∧
              (Accepted cfg txn pauses st → ∀ c i, .touchRemoved c i ∉ effects) := by
            have hself := (hfind1 ran.sub.connId ran.sub.subId).trans (if_pos ⟨rfl, rfl⟩)
            obtain ⟨views2, effects, hdone, hsame, htouch⟩ := onComplete_memory cfg txn hself
            refine ⟨views2, effects, hdone, fun c i hne => ?_, fun hacc c i hin => ?_⟩
            · rw [hsame c i hne, hfind1, if_neg hne]
            · obtain ⟨hlen, hrej⟩ := htouch c i hin
              exact hacc queries ran view hp hc hview hlen hrej
          obtain ⟨views2, effects, hdone, hsame, htouch⟩ := hcomplete
          exact ⟨⟨queries, views2⟩, effects,
            by simp only [bind, Except.bind, hbatch, hc, if_true, hdone]; rfl, hgone views2 hsame, htouch⟩
        · refine ⟨⟨queries, views1⟩, [], by simp only [bind, Except.bind, hbatch, hc]; rfl,
            ⟨hinv, fun c i q1 v hq1 hv => ?_⟩, by simp⟩
          have hq1 : queries.live c i = some q1 := hq1
          have hv : views1.findView c i = some v := hv
          rw [hfind1] at hv
          by_cases hci : c = ran.sub.connId ∧ i = ran.sub.subId
          · rw [if_pos hci] at hv
            rw [hs.after, if_pos hci, if_neg hc] at hq1
            cases hv
            cases hq1
            exact hnew
          · rw [if_neg hci] at hv
            exact h.views c i q1 v (hothers c i q1 hq1 hci) hv

omit [Negentropy] [StdSort] in
theorem ThreadInv.after_openMemory {st : NegentropyThread} (h : ThreadInv cfg st) (txn : Db) {p : Nat}
    (hfresh : st.queries.heap.find? p = none) (sub : Subscription) (negPayload : Bytes) :
    ThreadInv cfg (openMemory cfg txn p st sub negPayload).1 := by
  unfold openMemory
  rcases hq : st.queries.addSub cfg txn sub p with ⟨added, queries⟩
  rcases hv : st.views.addMemoryView cfg sub.connId sub.subId negPayload with ⟨viewAdded, views⟩
  simp only []
  obtain ⟨hinv, hlive⟩ := h.queries.addSub txn sub p hfresh hq
  have hfind := NegentropyViews.findView_addView hv
  cases viewAdded with
  | true =>
    refine ⟨hinv, fun c i q view hl hf => ?_⟩
    have hl : queries.live c i = some q := hl
    have hf : views.findView c i = some view := hf
    rw [hlive] at hl
    rw [hfind] at hf
    by_cases hci : c = sub.connId ∧ i = sub.subId
    · rw [if_pos hci] at hl hf
      cases hf
      split at hl
      · cases hl
        exact ⟨rfl, .nil, fun x => by simp⟩
      · cases hl
    · rw [if_neg hci] at hl hf
      exact h.views c i q view hl hf
  | false =>
    obtain ⟨hinv', hlive', -⟩ := hinv.removeSub sub.connId sub.subId
    refine ⟨hinv', fun c i q view hl hf => ?_⟩
    have hl : (queries.removeSub sub.connId sub.subId).live c i = some q := hl
    have hf : views.findView c i = some view := hf
    rw [hlive'] at hl
    rw [hfind] at hf
    by_cases hci : c = sub.connId ∧ i = sub.subId
    · rw [if_pos hci] at hl
      cases hl
    · rw [if_neg hci] at hl hf
      rw [hlive, if_neg hci] at hl
      exact h.views c i q view hl hf

omit [StdSort] in
/-- What a tree-backed NEG-OPEN does. -/
theorem openTree_cases {st st' : NegentropyThread} {txn : Db} {treeId : Nat} {sub : Subscription}
    {negPayload : Bytes} {effects : List Effect}
    (ho : openTree cfg txn treeId st sub negPayload = .ok (st', effects)) : ∃ storage, ∃ added : Bool,
      treeStorage txn treeId sub = .ok storage ∧
      added = ((handleReconcile st.views sub.connId sub.subId storage negPayload).1.addStatelessView cfg
        sub.connId sub.subId sub treeId).1 ∧
      (∀ c i, st'.views.findView c i = if c = sub.connId ∧ i = sub.subId then
        (if added then some (.stateless sub treeId) else none) else st.views.findView c i) ∧
      st'.queries = (if added then st.queries else st.queries.removeSub sub.connId sub.subId) ∧
      effects = (handleReconcile st.views sub.connId sub.subId storage negPayload).2 ++
        (if added then [] else [.notice sub.connId "too many concurrent NEG requests"]) := by
  unfold openTree at ho
  obtain ⟨storage, hst, ho⟩ := bind_eq_ok.mp ho
  have hrec := findView_handleReconcile st.views sub.connId sub.subId storage negPayload
  rcases hr : handleReconcile st.views sub.connId sub.subId storage negPayload with ⟨views, eff⟩
  rw [hr] at ho hrec
  rcases hv : views.addStatelessView cfg sub.connId sub.subId sub treeId with ⟨added, views'⟩
  simp only [hv] at ho
  have hfind : ∀ c i, views'.findView c i = if c = sub.connId ∧ i = sub.subId then
      (if added then some (.stateless sub treeId) else none) else st.views.findView c i := by
    intro c i
    rw [NegentropyViews.findView_addView hv]
    split
    · rfl
    · rename_i hne
      exact (hrec c i).trans (if_neg fun h => hne h.1)
  cases added with
  | true =>
    rw [if_pos rfl] at ho
    cases ho
    exact ⟨storage, true, hst, by rw [hr, hv], hfind, rfl, by simp [hr]⟩
  | false =>
    rw [if_neg Bool.false_ne_true] at ho
    cases ho
    exact ⟨storage, false, hst, by rw [hr, hv], hfind, rfl, by simp [hr]⟩

omit [StdSort] in
/-- A tree serves an id that has no pending query. -/
theorem ThreadInv.after_openTree {st st' : NegentropyThread} (h : ThreadInv cfg st) {txn : Db} {treeId : Nat}
    {sub : Subscription} {negPayload : Bytes} {effects : List Effect}
    (hidle : st.queries.live sub.connId sub.subId = none)
    (ho : openTree cfg txn treeId st sub negPayload = .ok (st', effects)) : ThreadInv cfg st' := by
  obtain ⟨storage, added, -, -, hfind, hqueries, -⟩ := openTree_cases ho
  obtain ⟨hinv, hlive, -⟩ := h.queries.removeSub sub.connId sub.subId
  have hsub : ∀ c i q, st'.queries.live c i = some q → st.queries.live c i = some q := by
    intro c i q hl
    rw [hqueries] at hl
    cases added with
    | true => exact hl
    | false =>
      replace hl : (st.queries.removeSub sub.connId sub.subId).live c i = some q := hl
      rw [hlive] at hl
      split at hl
      · cases hl
      · exact hl
  refine h.shrink ?_ hsub fun c i view hl hf => ?_
  · rw [hqueries]
    cases added with
    | true => exact h.queries
    | false => exact hinv
  · have hne : ¬ (c = sub.connId ∧ i = sub.subId) := by
      rintro ⟨rfl, rfl⟩
      obtain ⟨q, hq⟩ := Option.isSome_iff_exists.mp hl
      rw [hsub _ _ q hq] at hidle
      cases hidle
    rw [hfind, if_neg hne] at hf
    exact hf

omit [StdSort] in
theorem ThreadInv.after_handleNegMsg {st st' : NegentropyThread} (h : ThreadInv cfg st) {txn : Db} {c : Nat}
    {i : SubId} {negPayload : Bytes} {effects : List Effect}
    (hm : handleNegMsg txn st c i negPayload = .ok (st', effects)) : ThreadInv cfg st' := by
  have hkeep : ∀ storage, ThreadInv cfg ⟨st.queries, (handleReconcile st.views c i storage negPayload).1⟩ := by
    intro storage
    refine h.shrink h.queries (fun _ _ _ hl => hl) fun c' i' view _ hf => ?_
    have hf := (findView_handleReconcile st.views c i storage negPayload c' i').symm.trans hf
    split at hf
    · cases hf
    · exact hf
  unfold handleNegMsg at hm
  split at hm
  · cases hm
    exact h
  · split at hm
    · cases hm
      exact hkeep _
    · cases hm
      exact h
  · obtain ⟨storage, -, hm⟩ := bind_eq_ok.mp hm
    cases hm
    exact hkeep storage

omit [Negentropy] [StdSort] in
theorem ThreadInv.after_negClose {st : NegentropyThread} (h : ThreadInv cfg st) (c : Nat) (i : SubId) :
    ThreadInv cfg ⟨st.queries.removeSub c i, st.views.removeView c i⟩ := by
  obtain ⟨hinv, hlive, -⟩ := h.queries.removeSub c i
  refine h.shrink hinv (fun c' i' q hl => ?_) fun c' i' view _ hf => ?_
  · rw [hlive] at hl
    split at hl
    · cases hl
    · exact hl
  · have hf := (st.views.findView_removeView c i c' i').symm.trans hf
    split at hf
    · cases hf
    · exact hf

omit [Negentropy] [StdSort] in
theorem ThreadInv.after_closeConn {st : NegentropyThread} (h : ThreadInv cfg st) (c : Nat) :
    ThreadInv cfg ⟨st.queries.closeConn c, st.views.closeConn c⟩ := by
  obtain ⟨hinv, hlive⟩ := h.queries.closeConn c
  refine h.shrink hinv (fun c' i' q hl => ?_) fun c' i' view _ hf => ?_
  · rw [hlive] at hl
    split at hl
    · cases hl
    · exact hl
  · have hf := (st.views.findView_closeConn c c' i').symm.trans hf
    split at hf
    · cases hf
    · exact hf

/-- The steps on which the views stay in step with the queries: no tree takes over the view of a
pending query, and the message a query answers is not rejected. -/
def Orderly (cfg : Cfg) (txn : Db) (pauses : List DBQuery.Pause) (p : Nat) (st : NegentropyThread) :
    NegEvent → Prop
  | .msg (.negOpen sub filterStr negPayload) =>
    ((treeFor txn filterStr).isSome = true → st.queries.live sub.connId sub.subId = none) ∧
    (treeFor txn filterStr = none → Accepted cfg txn pauses (openMemory cfg txn p st sub negPayload).1)
  | .msg _ => True
  | .slice => Accepted cfg txn pauses st

/-- The text of the exception the callbacks throw. -/
def badVariant : Err := .herr "bad variant, expected memory view"

omit [Negentropy] in
/-- What `process` throws is not that. -/
theorem process_error {s : QueryScheduler} {txn : Db} {pauses : List DBQuery.Pause} {e : Err}
    (h : s.process false txn pauses = .error e) : e = .undefined := by
  unfold QueryScheduler.process at h
  split at h
  · cases h
  split at h
  · cases h
    rfl
  split at h
  · cases h
  split at h
  · simp only [] at h
    split at h
    · cases h
    · cases h
  · cases h
    rfl

omit [Negentropy] [StdSort] in
theorem treeStorage_error {txn : Db} {treeId : Nat} {sub : Subscription} {e : Err}
    (h : treeStorage txn treeId sub = .error e) : e = .outOfRange := by
  unfold treeStorage at h
  split at h
  · cases h
    rfl
  · cases h

omit [StdSort] in
theorem openTree_error {txn : Db} {treeId : Nat} {st : NegentropyThread} {sub : Subscription}
    {negPayload : Bytes} {e : Err} (h : openTree cfg txn treeId st sub negPayload = .error e) :
    e = .outOfRange := by
  unfold openTree at h
  rcases bind_eq_error.mp h with h | ⟨storage, -, h⟩
  · exact treeStorage_error h
  · simp only [] at h
    split at h
    · cases h
    · cases h

omit [StdSort] in
theorem handleNegMsg_error {txn : Db} {st : NegentropyThread} {c : Nat} {i : SubId} {negPayload : Bytes}
    {e : Err} (h : handleNegMsg txn st c i negPayload = .error e) : e = .outOfRange := by
  unfold handleNegMsg at h
  split at h
  · cases h
  · split at h
    · cases h
    · cases h
  · rcases bind_eq_error.mp h with h | ⟨storage, -, h⟩
    · exact treeStorage_error h
    · cases h

omit [StdSort] in
theorem touchRemoved_not_mem_handleReconcile {views : NegentropyViews} {c : Nat} {i : SubId}
    {storage : Finset (Nat × Bytes)} {msg : Bytes} (c' : Nat) (i' : SubId) :
    .touchRemoved c' i' ∉ (handleReconcile views c i storage msg).2 := by
  intro hin
  rcases effects_handleReconcile views c i storage msg _ hin with ⟨resp, he⟩ | ⟨-, he⟩
  · cases he
  · cases he

omit [Negentropy] [StdSort] in
theorem touchRemoved_not_mem_openMemory {txn : Db} {p : Nat} {st : NegentropyThread} {sub : Subscription}
    {negPayload : Bytes} (c : Nat) (i : SubId) :
    .touchRemoved c i ∉ (openMemory cfg txn p st sub negPayload).2 := by
  unfold openMemory
  simp only []
  split <;> split <;> simp

omit [StdSort] in
theorem touchRemoved_not_mem_handleNegMsg {txn : Db} {st st' : NegentropyThread} {c : Nat} {i : SubId}
    {negPayload : Bytes} {effects : List Effect}
    (h : handleNegMsg txn st c i negPayload = .ok (st', effects)) (c' : Nat) (i' : SubId) :
    .touchRemoved c' i' ∉ effects := by
  unfold handleNegMsg at h
  split at h
  · cases h
    simp
  · split at h
    · cases h
      exact touchRemoved_not_mem_handleReconcile c' i'
    · cases h
      simp
  · obtain ⟨storage, -, h⟩ := bind_eq_ok.mp h
    cases h
    exact touchRemoved_not_mem_handleReconcile c' i'

theorem ThreadInv.after_slice {st : NegentropyThread} (h : ThreadInv cfg st) (txn : Db)
    (pauses : List DBQuery.Pause) : (∀ e, processQueries cfg txn pauses st = .error e → e = .undefined) ∧
      ∀ st' effects, processQueries cfg txn pauses st = .ok (st', effects) → ThreadInv cfg st' ∧
        (Accepted cfg txn pauses st → ∀ c i, .touchRemoved c i ∉ effects) := by
  cases hp : st.queries.process false txn pauses with
  | error e =>
    have hres : processQueries cfg txn pauses st = .error e := by
      unfold processQueries
      rw [hp]
      rfl
    rw [hres]
    refine ⟨fun e' he => ?_, fun st' effects hs => by cases hs⟩
    cases he
    exact process_error hp
  | ok r =>
    obtain ⟨st1, effects1, hres, hinv, htouch⟩ := h.after_process hp
    rw [hres]
    refine ⟨fun e' he => (by cases he), fun st' effects hs => ?_⟩
    cases hs
    exact ⟨hinv, htouch⟩

/-- A NEG-OPEN is either answered from the tree of its filter or starts a query. -/
theorem negStep_negOpen (txn : Db) (pauses : List DBQuery.Pause) (p : Nat) (st : NegentropyThread)
    (sub : Subscription) (filterStr negPayload : Bytes) :
    negStep cfg txn pauses p st (.msg (.negOpen sub filterStr negPayload)) =
      match treeFor txn filterStr with
      | some treeId => openTree cfg txn treeId st sub negPayload
      | none => do
        let (st1, more) ← processQueries cfg txn pauses (openMemory cfg txn p st sub negPayload).1
        return (st1, (openMemory cfg txn p st sub negPayload).2 ++ more) := rfl

/-- **One step** keeps the invariant, throws no `badVariant` and touches no view that is gone. -/
theorem ThreadInv.step {st : NegentropyThread} (h : ThreadInv cfg st) {txn : Db}
    {pauses : List DBQuery.Pause} {p : Nat} (hfresh : st.queries.heap.find? p = none) {e : NegEvent}
    (hok : Orderly cfg txn pauses p st e) : negStep cfg txn pauses p st e ≠ .error badVariant ∧
      ∀ st' effects, negStep cfg txn pauses p st e = .ok (st', effects) → ThreadInv cfg st' ∧
        ∀ c i, .touchRemoved c i ∉ effects := by
  cases e with
  | slice =>
    obtain ⟨herr, hres⟩ := h.after_slice txn pauses
    refine ⟨fun hs => ?_, fun st' effects hs => ?_⟩
    · cases herr _ hs
    · obtain ⟨hinv, htouch⟩ := hres st' effects hs
      exact ⟨hinv, htouch hok⟩
  | msg m =>
    cases m with
    | negOpen sub filterStr negPayload =>
      rw [negStep_negOpen]
      obtain ⟨htree, hmem⟩ := hok
      cases ht : treeFor txn filterStr with
      | some treeId =>
        refine ⟨fun hs => ?_, fun st' effects hs => ⟨h.after_openTree (htree (by rw [ht]; rfl)) hs, fun c i hin => ?_⟩⟩
        · cases openTree_error hs
        · obtain ⟨storage, added, -, -, -, -, rfl⟩ := openTree_cases hs
          rcases List.mem_append.mp hin with hin | hin
          · exact touchRemoved_not_mem_handleReconcile c i hin
          · cases added <;> simp at hin
      | none =>
        obtain ⟨herr, hres⟩ := (h.after_openMemory txn hfresh sub negPayload).after_slice txn pauses
        refine ⟨fun hs => ?_, fun st' effects hs => ?_⟩
        · rcases bind_eq_error.mp hs with hs | ⟨_, -, hs⟩
          · cases herr _ hs
          · cases hs
        · obtain ⟨⟨st1, more⟩, hrun, hs⟩ := bind_eq_ok.mp hs
          cases hs
          obtain ⟨hinv, htouch⟩ := hres _ _ hrun
          refine ⟨hinv, fun c i hin => ?_⟩
          rcases List.mem_append.mp hin with hin | hin
          · exact touchRemoved_not_mem_openMemory c i hin
          · exact htouch (hmem ht) c i hin
    | negMsg c i negPayload =>
      refine ⟨fun hs => ?_, fun st' effects hs => ⟨h.after_handleNegMsg hs, fun c' i' hin => ?_⟩⟩
      · cases handleNegMsg_error hs
      · exact touchRemoved_not_mem_handleNegMsg hs c' i' hin
    | negClose c i =>
      refine ⟨fun hs => (by cases hs), fun st' effects hs => ?_⟩
      cases hs
      exact ⟨h.after_negClose c i, by simp⟩
    | closeConn c =>
      refine ⟨fun hs => (by cases hs), fun st' effects hs => ?_⟩
      cases hs
      exact ⟨h.after_closeConn c, by simp⟩

/-- The states of the thread in runs whose steps meet `C`. -/
inductive Reached (cfg : Cfg) (C : Db → List DBQuery.Pause → Nat → NegentropyThread → NegEvent → Prop) :
    NegentropyThread → Prop where
  | init : Reached cfg C {}
  | step {st st' : NegentropyThread} (h : Reached cfg C st) (txn : Db) (pauses : List DBQuery.Pause)
      (p : Nat) (e : NegEvent) (effects : List Effect) (hfresh : st.queries.heap.find? p = none)
      (hC : C txn pauses p st e) (hs : negStep cfg txn pauses p st e = .ok (st', effects)) :
      Reached cfg C st'

theorem Reached.inv {st : NegentropyThread} (h : Reached cfg (Orderly cfg) st) : ThreadInv cfg st := by
  induction h with
  | init => exact ⟨.empty cfg, fun c i q view hl _ => by cases hl⟩
  | step _ txn pauses p e effects hfresh hok hs ih => exact ((ih.step hfresh hok).2 _ _ hs).1

/-- **Queries and views stay consistent** along orderly runs: the view of a query that is not dead is
the unsealed memory view of what it sent, no callback throws for a view of the other kind, and no
view is touched after it was removed. -/
theorem views_consistent (cfg : Cfg) (st : NegentropyThread) (h : Reached cfg (Orderly cfg) st) :
    (∀ p q view, p ∈ st.queries.running → st.queries.heap.find? p = some q → q.dead = false →
      st.views.findView q.sub.connId q.sub.subId = some view → Collecting q view) ∧
    ∀ txn pauses p e, st.queries.heap.find? p = none → Orderly cfg txn pauses p st e →
      negStep cfg txn pauses p st e ≠ .error badVariant ∧
      ∀ st' effects, negStep cfg txn pauses p st e = .ok (st', effects) →
        ∀ c i, .touchRemoved c i ∉ effects := by
  have hinv := h.inv
  refine ⟨fun p q view _ hq hd hv => ?_, fun txn pauses p e hfresh hok => ?_⟩
  · exact hinv.views _ _ q view (hinv.queries.live_eq.mpr ⟨p, hq, hd, rfl⟩) hv
  · obtain ⟨hne, hok⟩ := hinv.step hfresh hok
    exact ⟨hne, fun st' effects hs => (hok st' effects hs).2⟩

end

/-- A message of the protocol version alone is answered with the same; anything else is rejected. -/
@[reducible] def Negentropy.versionOnly : Negentropy := ⟨fun _ msg => if msg = [0x61] then some [0x61] else none⟩

/-- A database with the tree of all events. -/
def treeDb : Db := { negentropyFilter := Table.empty.insertNext (ascii "\x7b\x7d") }

/-- A request for the events of kind 1, and one with the same id for all events. -/
def openKind1 (negPayload : Bytes) : NegEvent :=
  .msg (.negOpen (DBQuery.subOf [DBQuery.kind1Filter]) (ascii "\x7b\"kinds\":[1]\x7d") negPayload)

def openAll (negPayload : Bytes) : NegEvent :=
  .msg (.negOpen (DBQuery.subOf [{}]) (ascii "\x7b\x7d") negPayload)

/-- A query that pauses at once. -/
def pauseAtOnce : List DBQuery.Pause := [fun _ _ => (true, 0)]

/-- A pending query and its view. -/
theorem views_consistent_pending : ∃ (st : NegentropyThread) (q : DBQuery) (view : UserView),
    st.queries.heap.find? 7 = some q ∧ st.views.findView 1 q.sub.subId = some view ∧ Collecting q view := by
  let _ : Negentropy := .versionOnly
  let _ : StdSort := .insertion
  have hs : ∃ st q view, negStep {} treeDb pauseAtOnce 7 {} (openKind1 [0x61]) = .ok (st, []) ∧
      st.queries.heap.find? 7 = some q ∧ q.dead = false ∧ q.sub.connId = 1 ∧ st.queries.running = [7] ∧
      st.views.findView 1 q.sub.subId = some view := ⟨_, _, _, rfl, rfl, rfl, rfl, rfl, rfl⟩
  obtain ⟨st, q, view, hs, hq, hd, hc, hrun, hv⟩ := hs
  have hok : Orderly {} treeDb pauseAtOnce 7 {} (openKind1 [0x61]) := by
    refine ⟨fun h => (by cases h), fun _ queries ran v hp ht _ _ => ?_⟩
    cases hp
    cases ht
  have hreach : Reached {} (Orderly {}) st := .step .init treeDb pauseAtOnce 7 _ [] rfl hok hs
  refine ⟨st, q, view, hq, hv, (views_consistent {} st hreach).1 7 q view ?_ hq hd (by rw [hc]; exact hv)⟩
  rw [hrun]
  exact List.mem_cons_self

/-- The second request takes the view over, and the next slice throws.  A malformed initial message
makes `onComplete` write to the view it removed. -/
theorem tree_takes_over : ¬ (∀ st, @Reached Negentropy.versionOnly StdSort.insertion {} (fun _ _ _ _ _ => True) st →
    ∀ txn pauses p e, st.queries.heap.find? p = none →
      @negStep Negentropy.versionOnly StdSort.insertion {} txn pauses p st e ≠ .error badVariant) ∧
    ¬ ∀ st, @Reached Negentropy.versionOnly StdSort.insertion {} (fun _ _ _ _ _ => True) st →
      ∀ txn pauses p e, st.queries.heap.find? p = none → ∀ st' effects,
        @negStep Negentropy.versionOnly StdSort.insertion {} txn pauses p st e = .ok (st', effects) →
        ∀ c i, .touchRemoved c i ∉ effects := by
  let _ : Negentropy := .versionOnly
  let _ : StdSort := .insertion
  refine ⟨fun hall => ?_, fun hall => ?_⟩
  · have hs : ∃ st st', negStep {} treeDb pauseAtOnce 7 {} (openKind1 [0x61]) = .ok (st, []) ∧
        st.queries.heap.find? 8 = none ∧
        negStep {} treeDb pauseAtOnce 8 st (openAll [0x61]) =
          .ok (st', [.negMsg 1 (DBQuery.subOf [{}]).subId [0x61]]) ∧
        negStep {} treeDb pauseAtOnce 8 st' .slice = .error badVariant ∧
        st'.queries.heap.find? 8 = none := ⟨_, _, rfl, rfl, rfl, rfl, rfl⟩
    obtain ⟨st, st', h1, hf, h2, h3, hf'⟩ := hs
    have hreach : Reached {} (fun _ _ _ _ _ => True) st' :=
      .step (.step .init treeDb pauseAtOnce 7 _ _ rfl trivial h1) treeDb pauseAtOnce 8 _ _ hf trivial h2
    exact hall st' hreach treeDb pauseAtOnce 8 .slice hf' h3
  · have hs : ∃ st', negStep {} treeDb (List.replicate 3 (DBQuery.timePause false)) 7 {} (openKind1 []) =
        .ok (st', [.negErr 1 (DBQuery.subOf [{}]).subId "PROTOCOL-ERROR" none,
          .touchRemoved 1 (DBQuery.subOf [{}]).subId]) := ⟨_, rfl⟩
    obtain ⟨st', h1⟩ := hs
    exact hall {} .init treeDb _ 7 _ rfl st' _ h1 1 (DBQuery.subOf [{}]).subId (by simp)

/-! ## NEG-ERR -/

section
variable [Negentropy] [StdSort] {cfg : Cfg}

omit [Negentropy] [StdSort] in
theorem onEventBatch_none {views views' : NegentropyViews} {sub : Subscription} {levIds : List Nat}
    (h : onEventBatch views sub levIds = .ok views') {c : Nat} {i : SubId}
    (hnone : views.findView c i = none) : views'.findView c i = none := by
  unfold onEventBatch at h
  split at h
  · cases h
    exact hnone
  · cases h
  · rename_i view hview
    cases h
    rw [NegentropyViews.findView_setView hview, if_neg]
    · exact hnone
    · rintro ⟨rfl, rfl⟩
      rw [hview] at hnone
      cases hnone

/-- No view comes up when a query is complete, and the one that a NEG-ERR is about is gone. -/
theorem onComplete_closes {txn : Db} {views views' : NegentropyViews} {sub : Subscription}
    {effects : List Effect} (h : onComplete cfg txn views sub = .ok (views', effects)) :
    (∀ c i, views.findView c i = none → views'.findView c i = none) ∧
    ∀ c i r m, .negErr c i r m ∈ effects → views'.findView c i = none := by
  unfold onComplete at h
  split at h
  · cases h
    exact ⟨fun _ _ hnone => hnone, by simp⟩
  · cases h
  · rename_i view hview
    have hremove : ∀ views : NegentropyViews, (∀ c i, views.findView c i = none →
        (views.removeView sub.connId sub.subId).findView c i = none) ∧
        (views.removeView sub.connId sub.subId).findView sub.connId sub.subId = none := by
      intro views
      refine ⟨fun c i hnone => ?_, ?_⟩
      · rw [NegentropyViews.findView_removeView, hnone, ite_self]
      · rw [NegentropyViews.findView_removeView, if_pos ⟨rfl, rfl⟩]
    split at h
    · cases h
      refine ⟨(hremove views).1, fun c i r m hin => ?_⟩
      cases List.mem_singleton.mp hin
      exact (hremove views).2
    · -- the view is there until `handleReconcile` removes it
      have hset := NegentropyViews.findView_setView hview (.memory (sealView txn view))
      have hself := (hset sub.connId sub.subId).trans (if_pos ⟨rfl, rfl⟩)
      have hkeep : ∀ c i, views.findView c i = none →
          (views.setView sub.connId sub.subId (.memory (sealView txn view))).findView c i = none := by
        intro c i hnone
        rw [hset, if_neg]
        · exact hnone
        · rintro ⟨rfl, rfl⟩
          rw [hview] at hnone
          cases hnone
      simp only [] at h
      generalize views.setView sub.connId sub.subId (.memory (sealView txn view)) = views1 at h hself hkeep
      unfold handleReconcile at h
      cases hr : Negentropy.reconcile (sealView txn view).storageVector.toFinset
          (sealView txn view).initialMsg with
      | none =>
        simp only [hr, (hremove views1).2] at h
        cases h
        refine ⟨fun c i hnone => (hremove views1).1 c i (hkeep c i hnone), fun c i r m hin => ?_⟩
        simp only [List.cons_append, List.nil_append, List.mem_cons, List.not_mem_nil, or_false,
          reduceCtorEq] at hin
        cases hin
        exact (hremove views1).2
      | some resp =>
        simp only [hr, hself] at h
        cases h
        refine ⟨fun c i hnone => ?_, by simp⟩
        rw [NegentropyViews.findView_setView hself, if_neg]
        · exact hkeep c i hnone
        · rintro ⟨rfl, rfl⟩
          rw [hview] at hnone
          cases hnone

theorem processQueries_closes {txn : Db} {pauses : List DBQuery.Pause} {st st' : NegentropyThread}
    {effects : List Effect} (h : processQueries cfg txn pauses st = .ok (st', effects)) :
    (∀ c i, st.views.findView c i = none → st'.views.findView c i = none) ∧
    ∀ c i r m, .negErr c i r m ∈ effects → st'.views.findView c i = none := by
  unfold processQueries at h
  obtain ⟨⟨queries, ran⟩, -, h⟩ := bind_eq_ok.mp h
  cases ran with
  | none =>
    cases h
    exact ⟨fun _ _ hnone => hnone, by simp⟩
  | some ran =>
    obtain ⟨views, hbatch, h⟩ := bind_eq_ok.mp h
    split at h
    · obtain ⟨⟨views', eff⟩, hdone, h⟩ := bind_eq_ok.mp h
      cases h
      obtain ⟨hnone, hclose⟩ := onComplete_closes hdone
      exact ⟨fun c i hn => hnone c i (onEventBatch_none hbatch hn), hclose⟩
    · cases h
      exact ⟨fun c i hn => onEventBatch_none hbatch hn, by simp⟩

/-- Whether a message opens this subscription. -/
def NegEvent.opens (e : NegEvent) (c : Nat) (i : SubId) : Prop :=
  ∃ sub filterStr negPayload, e = .msg (.negOpen sub filterStr negPayload) ∧ sub.connId = c ∧ sub.subId = i

/-- The connection has no room for one more view. -/
def Full (cfg : Cfg) (st : NegentropyThread) (c : Nat) (i : SubId) : Prop :=
  cfg.relayMaxSubsPerConnection ≤ (Nested.row (st.views.removeView c i).conns c).size

/-- The steps on which a NEG-ERR leaves no view: a tree-backed NEG-OPEN is not rejected, unless the
connection is full. -/
def Answered (cfg : Cfg) (txn : Db) (st : NegentropyThread) : NegEvent → Prop
  | .msg (.negOpen sub filterStr negPayload) => ∀ treeId storage, treeFor txn filterStr = some treeId →
    treeStorage txn treeId sub = .ok storage → Negentropy.reconcile storage negPayload = none →
    Full cfg st sub.connId sub.subId
  | _ => True

omit [Negentropy] [StdSort] in
theorem addView_full {views : NegentropyViews} {c : Nat} {i : SubId} (view : UserView)
    (h : cfg.relayMaxSubsPerConnection ≤ (Nested.row (views.removeView c i).conns c).size) :
    (views.addView cfg c i view).1 = false := by
  unfold NegentropyViews.addView
  simp only [Nested.row_tryEmplace]
  rw [if_pos h]

omit [Negentropy] [StdSort] in
theorem removeView_removeView (views : NegentropyViews) (c : Nat) (i : SubId) :
    (views.removeView c i).removeView c i = views.removeView c i := by
  have hgone : (views.removeView c i).findView c i = none := by
    rw [NegentropyViews.findView_removeView, if_pos ⟨rfl, rfl⟩]
  generalize views.removeView c i = views1 at hgone
  unfold NegentropyViews.removeView
  rw [hgone]

omit [StdSort] in
theorem openTree_closes {txn : Db} {treeId : Nat} {st st' : NegentropyThread} {sub : Subscription}
    {negPayload : Bytes} {effects : List Effect}
    (ho : openTree cfg txn treeId st sub negPayload = .ok (st', effects))
    (hok : ∀ storage, treeStorage txn treeId sub = .ok storage →
      Negentropy.reconcile storage negPayload = none → Full cfg st sub.connId sub.subId) :
    ∀ c i r m, .negErr c i r m ∈ effects → st'.views.findView c i = none := by
  obtain ⟨storage, added, hst, hadd, hfind, -, rfl⟩ := openTree_cases ho
  intro c i r m hin
  have hin : .negErr c i r m ∈ (handleReconcile st.views sub.connId sub.subId storage negPayload).2 := by
    rcases List.mem_append.mp hin with hin | hin
    · exact hin
    · cases added <;> simp at hin
  rcases effects_handleReconcile _ _ _ _ _ _ hin with ⟨resp, he⟩ | ⟨hrej, he⟩
  · cases he
  · cases he
    -- the view is not added, since the connection is full
    have hfull := addView_full (.stateless sub treeId) (show cfg.relayMaxSubsPerConnection ≤ (Nested.row
      ((st.views.removeView sub.connId sub.subId).removeView sub.connId sub.subId).conns sub.connId).size by
        rw [removeView_removeView]
        exact hok storage hst hrej)
    have hadded : added = false := by
      rw [hadd]
      unfold handleReconcile
      rw [hrej]
      exact hfull
    rw [hfind, if_pos ⟨rfl, rfl⟩, hadded]
    rfl

omit [Negentropy] [StdSort] in
theorem openMemory_views (cfg : Cfg) (txn : Db) (p : Nat) (st : NegentropyThread) (sub : Subscription)
    (negPayload : Bytes) : (∀ c i, ¬ (c = sub.connId ∧ i = sub.subId) →
      (openMemory cfg txn p st sub negPayload).1.views.findView c i = st.views.findView c i) ∧
      ∀ c i r m, .negErr c i r m ∉ (openMemory cfg txn p st sub negPayload).2 := by
  unfold openMemory
  rcases st.queries.addSub cfg txn sub p with ⟨added, queries⟩
  rcases hv : st.views.addMemoryView cfg sub.connId sub.subId negPayload with ⟨viewAdded, views⟩
  have hfind := NegentropyViews.findView_addView hv
  cases viewAdded with
  | true =>
    refine ⟨fun c i hne => (hfind c i).trans (if_neg hne), fun c i r m => ?_⟩
    cases added <;> simp
  | false =>
    refine ⟨fun c i hne => (hfind c i).trans (if_neg hne), fun c i r m => ?_⟩
    cases added <;> simp

omit [StdSort] in
theorem handleNegMsg_closes {txn : Db} {st st' : NegentropyThread} {c : Nat} {i : SubId} {negPayload : Bytes}
    {effects : List Effect} (h : handleNegMsg txn st c i negPayload = .ok (st', effects)) :
    (∀ c' i', st.views.findView c' i' = none → st'.views.findView c' i' = none) ∧
    ∀ c' i' r m, .negErr c' i' r m ∈ effects → st'.views.findView c' i' = none := by
  have hrec : ∀ storage, (∀ c' i', st.views.findView c' i' = none →
      (handleReconcile st.views c i storage negPayload).1.findView c' i' = none) ∧
      ∀ c' i' r m, .negErr c' i' r m ∈ (handleReconcile st.views c i storage negPayload).2 →
        (handleReconcile st.views c i storage negPayload).1.findView c' i' = none := by
    intro storage
    refine ⟨fun c' i' hnone => ?_, fun c' i' r m hin => ?_⟩
    · rw [findView_handleReconcile, hnone, ite_self]
    · rcases effects_handleReconcile _ _ _ _ _ _ hin with ⟨resp, he⟩ | ⟨hrej, he⟩
      · cases he
      · cases he
        rw [findView_handleReconcile, if_pos ⟨⟨rfl, rfl⟩, hrej⟩]
  unfold handleNegMsg at h
  split at h
  · rename_i hnone
    cases h
    refine ⟨fun _ _ hn => hn, fun c' i' r m hin => ?_⟩
    cases List.mem_singleton.mp hin
    exact hnone
  · split at h
    · cases h
      exact hrec _
    · cases h
      exact ⟨fun _ _ hn => hn, by simp⟩
  · obtain ⟨storage, -, h⟩ := bind_eq_ok.mp h
    cases h
    exact hrec storage

/-- **One step**: no view comes up that is not opened, and a NEG-ERR leaves none. -/
theorem negStep_closes {txn : Db} {pauses : List DBQuery.Pause} {p : Nat} {st st' : NegentropyThread}
    {e : NegEvent} {effects : List Effect} (hs : negStep cfg txn pauses p st e = .ok (st', effects)) :
    (∀ c i, ¬ e.opens c i → st.views.findView c i = none → st'.views.findView c i = none) ∧
    (Answered cfg txn st e → ∀ c i r m, .negErr c i r m ∈ effects → st'.views.findView c i = none) := by
  cases e with
  | slice =>
    obtain ⟨hnone, hclose⟩ := processQueries_closes hs
    exact ⟨fun c i _ => hnone c i, fun _ => hclose⟩
  | msg m =>
    cases m with
    | negOpen sub filterStr negPayload =>
      have hopens : ∀ c i, ¬ (NegEvent.msg (.negOpen sub filterStr negPayload)).opens c i →
          ¬ (c = sub.connId ∧ i = sub.subId) :=
        fun c i hno hci => hno ⟨sub, filterStr, negPayload, rfl, hci.1.symm, hci.2.symm⟩
      rw [negStep_negOpen] at hs
      cases ht : treeFor txn filterStr with
      | some treeId =>
        rw [ht] at hs
        refine ⟨fun c i hno hnone => ?_, fun hok c i r m hin => ?_⟩
        · obtain ⟨storage, added, -, -, hfind, -⟩ := openTree_cases hs
          rw [hfind, if_neg (hopens c i hno)]
          exact hnone
        · exact openTree_closes hs (fun storage => hok treeId storage ht) c i r m hin
      | none =>
        rw [ht] at hs
        obtain ⟨⟨st1, more⟩, hrun, hs⟩ := bind_eq_ok.mp hs
        cases hs
        obtain ⟨hnone, hclose⟩ := processQueries_closes hrun
        obtain ⟨hviews, heff⟩ := openMemory_views cfg txn p st sub negPayload
        refine ⟨fun c i hno hn => hnone c i ?_, fun _ c i r m hin => ?_⟩
        · rw [hviews c i (hopens c i hno)]
          exact hn
        · rcases List.mem_append.mp hin with hin | hin
          · exact absurd hin (heff c i r m)
          · exact hclose c i r m hin
    | negMsg c i negPayload =>
      obtain ⟨hnone, hclose⟩ := handleNegMsg_closes hs
      exact ⟨fun c' i' _ => hnone c' i', fun _ => hclose⟩
    | negClose c i =>
      cases hs
      refine ⟨fun c' i' _ hnone => ?_, by simp⟩
      rw [NegentropyViews.findView_removeView, hnone, ite_self]
    | closeConn c =>
      cases hs
      refine ⟨fun c' i' _ hnone => ?_, by simp⟩
      rw [NegentropyViews.findView_closeConn, hnone, ite_self]

/-- A run that does not open the subscription again. -/
inductive Later (cfg : Cfg) (c : Nat) (i : SubId) (st : NegentropyThread) : NegentropyThread → Prop where
  | refl : Later cfg c i st st
  | step {st1 st2 : NegentropyThread} (h : Later cfg c i st st1) (txn : Db) (pauses : List DBQuery.Pause)
      (p : Nat) (e : NegEvent) (effects : List Effect) (hno : ¬ e.opens c i)
      (hs : negStep cfg txn pauses p st1 e = .ok (st2, effects)) : Later cfg c i st st2

/-- **NEG-ERR closes the subscription** unless it rejects a tree-backed NEG-OPEN: from any state on, once
a step sends a NEG-ERR there is no view, and no slot taken, until the subscription is opened again, and
a NEG-MSG is answered by saying so. -/
theorem negErr_closes (cfg : Cfg) (st st' : NegentropyThread) (txn : Db) (pauses : List DBQuery.Pause)
    (p : Nat) (e : NegEvent) (effects : List Effect) (hok : Answered cfg txn st e)
    (hs : negStep cfg txn pauses p st e = .ok (st', effects)) (c : Nat) (i : SubId) (reason : String)
    (limit : Option Nat) (hin : .negErr c i reason limit ∈ effects) (st'' : NegentropyThread)
    (hlater : Later cfg c i st' st'') : st''.views.findView c i = none ∧
      i ∉ (Nested.row st''.views.conns c).keys ∧
      ∀ txn negPayload, handleNegMsg txn st'' c i negPayload =
        .ok (st'', [.negErr c i "closed: unknown subscription handle" none]) := by
  have hnone : st''.views.findView c i = none := by
    induction hlater with
    | refl => exact (negStep_closes hs).2 hok c i reason limit hin
    | step _ txn1 pauses1 p1 e1 effects1 hno hs1 ih => exact (negStep_closes hs1).1 c i hno ih
  refine ⟨hnone, ?_, fun txn negPayload => ?_⟩
  · rw [← Assoc.find?_eq_none_iff, ← Nested.find_eq_row]
    exact hnone
  · unfold handleNegMsg
    rw [hnone]

end

/-- A malformed answer to a memory-backed request. -/
theorem negErr_closes_memory : ∃ st' : NegentropyThread,
    st'.views.findView 1 (DBQuery.subOf [{}]).subId = none := by
  let _ : Negentropy := .versionOnly
  let _ : StdSort := .insertion
  obtain ⟨st', hs⟩ : ∃ st', negStep {} treeDb (List.replicate 3 (DBQuery.timePause false)) 7 {} (openKind1 []) =
      .ok (st', [.negErr 1 (DBQuery.subOf [{}]).subId "PROTOCOL-ERROR" none,
        .touchRemoved 1 (DBQuery.subOf [{}]).subId]) := ⟨_, rfl⟩
  have hok : Answered {} treeDb {} (openKind1 []) := by
    intro treeId storage ht
    cases ht
  exact ⟨st', (negErr_closes {} {} st' treeDb _ 7 _ _ hok hs 1 _ _ _ List.mem_cons_self st' .refl).1⟩

/-- A tree-backed request that is rejected: the view is there after the NEG-ERR. -/
theorem rejected_open_stays : ¬ ∀ st, @Reached Negentropy.versionOnly StdSort.insertion {}
    (fun _ _ _ _ _ => True) st → ∀ txn pauses p e st' effects,
      @negStep Negentropy.versionOnly StdSort.insertion {} txn pauses p st e = .ok (st', effects) →
      ∀ c i r m, .negErr c i r m ∈ effects → st'.views.findView c i = none := by
  let _ : Negentropy := .versionOnly
  let _ : StdSort := .insertion
  intro hall
  have hs : ∃ st' view, negStep {} treeDb [] 7 {} (openAll []) =
      .ok (st', [.negErr 1 (DBQuery.subOf [{}]).subId "PROTOCOL-ERROR" none]) ∧
      st'.views.findView 1 (DBQuery.subOf [{}]).subId = some view := ⟨_, _, rfl, rfl⟩
  obtain ⟨st', view, hs, hview⟩ := hs
  rw [hall {} .init treeDb [] 7 _ st' _ hs 1 _ _ _ List.mem_cons_self] at hview
  cases hview

end Strfry
