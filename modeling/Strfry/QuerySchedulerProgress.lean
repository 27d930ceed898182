import Strfry.DBQueryProgress
import Strfry.QuerySchedulerSlices

/-!
# The queue empties

`Workload txn s K`: while the database stays `txn`, the queries of the queue are complete or freed
after at most `K` turns of `process`.  Each turn lowers it (`Workload.process`), a new query adds what
it takes itself, and ending queries adds nothing.
-/

namespace Strfry

namespace QueryScheduler

open DBQuery (Due Timed)

/-- The queue takes at most `K` turns. -/
def Workload [StdSort] (txn : Db) (s : QueryScheduler) (K : Nat) : Prop :=
  ∃ cost : Nat → Nat, (∀ p, 1 ≤ cost p) ∧
    (∀ p q, s.heap.find? p = some q → q.dead = false → Due txn q (cost p)) ∧ K = (s.running.map cost).sum

section
variable [StdSort] {cfg : Cfg} {s s' : QueryScheduler} {txn txn' : Db} {K : Nat}

/-- What `process` does to the queue: the front query is gone, or is put at the end once it paused. -/
theorem process_queue {ensureExists : Bool} {pauses : List DBQuery.Pause} {ran : Option Ran} {p : Nat}
    {rest : List Nat} (hrun : s.running = p :: rest) (hs : s.process ensureExists txn pauses = .ok (s', ran)) :
    (s'.running = rest ∧ ∀ r, ran = some r → r.total.isSome) ∨
      (s'.running = rest ++ [p] ∧ ∃ q q' out, s.heap.find? p = some q ∧ q.dead = false ∧
        DBQuery.process txn pauses (q, []) = .returned false (q', out) ∧ s'.heap.find? p = some q') := by
  unfold QueryScheduler.process at hs
  simp only [hrun] at hs
  split at hs
  · cases hs
  rename_i q hq
  split at hs
  · cases hs
    exact Or.inl ⟨rfl, fun r hr => by cases hr⟩
  rename_i hdead
  rw [Bool.not_eq_true] at hdead
  split at hs
  · rename_i complete q' out hcall
    split at hs
    · cases hs
      refine Or.inl ⟨rfl, fun r hr => ?_⟩
      cases hr
      rfl
    · rename_i hcomplete
      rw [Bool.not_eq_true] at hcomplete
      subst hcomplete
      cases hs
      refine Or.inr ⟨rfl, q, q', out, hq, hdead, hcall, ?_⟩
      show (s.heap.set p q').find? p = some q'
      rw [Assoc.find?_set, if_pos rfl, hq]
      rfl
  · cases hs

/-- **A turn** lowers the workload, unless the queue is empty. -/
theorem Workload.process (h : Workload txn s K) (hinv : s.Inv cfg) {ensureExists : Bool}
    {pauses : List DBQuery.Pause} (ht : Timed pauses) {ran : Option Ran}
    (hs : s.process ensureExists txn pauses = .ok (s', ran)) :
    ∃ K' ≤ K, Workload txn s' K' ∧ (s.running ≠ [] → K' < K) := by
  cases hrun : s.running with
  | nil =>
    unfold QueryScheduler.process at hs
    rw [hrun] at hs
    cases hs
    exact ⟨K, le_rfl, h, fun hne => absurd rfl hne⟩
  | cons p rest =>
    obtain ⟨cost, hpos, hdue, rfl⟩ := h
    have hturn := hinv.turn hrun hs
    have hsum : (s.running.map cost).sum = cost p + (rest.map cost).sum := by
      rw [hrun, List.map_cons, List.sum_cons]
    have hp := hpos p
    rcases process_queue hrun hs with ⟨hrest, hall⟩ | ⟨hrest, q, q', out, hq, hdead, hcall, hq'⟩
    · -- the query at the front is gone
      have hgone : s'.heap.find? p = none := by
        cases ran with
        | none => exact (hturn.dead rfl).2
        | some r => exact hturn.complete r rfl (hall r rfl)
      refine ⟨(rest.map cost).sum, by omega, ⟨cost, hpos, fun p' q hq hdead => ?_, by rw [hrest]⟩, fun _ => by omega⟩
      refine hdue p' q ?_ hdead
      rw [← hturn.others p' fun he => ?_]
      · exact hq
      · rw [he, hgone] at hq
        cases hq
    · obtain ⟨k, hlt, hk⟩ := (hdue p q hq hdead).slice ht hcall
      have hnot : p ∉ rest := by
        have hnd := hinv.nodup
        rw [hrun] at hnd
        exact (List.nodup_cons.mp hnd).1
      have hsame : (rest.map (Function.update cost p k)).sum = (rest.map cost).sum := by
        congr 1
        refine List.map_congr_left fun p' hp' => Function.update_of_ne ?_ _ _
        rintro rfl
        exact hnot hp'
      have hsum' : (s'.running.map (Function.update cost p k)).sum = (rest.map cost).sum + k := by
        rw [hrest, List.map_append, List.sum_append, hsame, List.map_singleton, List.sum_singleton,
          Function.update_self]
      refine ⟨_, ?_, ⟨Function.update cost p k, fun p' => ?_, fun p' q1 hq1 hdead1 => ?_, rfl⟩, fun _ => ?_⟩
      · omega
      · rw [Function.update_apply]
        split
        · exact hk.pos
        · exact hpos p'
      · rw [Function.update_apply]
        split
        · rename_i he
          rw [he, hq'] at hq1
          cases hq1
          exact hk
        · rename_i hne
          rw [hturn.others p' hne] at hq1
          exact hdue p' q1 hq1 hdead1
      · omega

/-- `process` comes back, when it is given time. -/
theorem Workload.exists_process (h : Workload txn s K) (hinv : s.Inv cfg) (ensureExists : Bool) :
    ∃ pauses, Timed pauses ∧ ∃ r, s.process ensureExists txn pauses = .ok r := by
  obtain ⟨cost, -, hdue, -⟩ := h
  unfold QueryScheduler.process
  cases hrun : s.running with
  | nil => exact ⟨[], fun pause hp => (by cases hp), _, rfl⟩
  | cons p rest =>
    obtain ⟨q, hq⟩ := Option.isSome_iff_exists.mp ((hinv.queued p).mp (hrun ▸ List.mem_cons_self))
    simp only [hq]
    cases hdead : q.dead with
    | true => exact ⟨[], fun pause hp => (by cases hp), _, rfl⟩
    | false =>
      obtain ⟨N, hN⟩ := (hdue p q hq hdead).returns
      obtain ⟨complete, st, hcall, -⟩ := hN (List.replicate N (DBQuery.timePause false)) (by simp)
      have ht : Timed (List.replicate N (DBQuery.timePause false)) := fun pause hp =>
        ⟨false, List.eq_of_mem_replicate hp⟩
      refine ⟨_, ht, ?_⟩
      rw [hcall]
      cases complete
      · exact ⟨_, rfl⟩
      · exact ⟨_, rfl⟩

/-- The queue as it was, with some of its queries dead. -/
theorem Workload.fewer (h : Workload txn s K) (hrun : s'.running = s.running)
    (hheap : ∀ p q, s'.heap.find? p = some q → q.dead = false → s.heap.find? p = some q) : Workload txn s' K := by
  obtain ⟨cost, hpos, hdue, rfl⟩ := h
  exact ⟨cost, hpos, fun p q hq hdead => hdue p q (hheap p q hq hdead) hdead, by rw [hrun]⟩

omit [StdSort] in
/-- A query that is not dead was not killed. -/
theorem find?_of_kill {heap : Assoc Nat DBQuery} {p p' : Nat} {q : DBQuery}
    (h : (kill heap p).find? p' = some q) (hdead : q.dead = false) : heap.find? p' = some q := by
  rw [find?_kill] at h
  obtain ⟨q0, hq0, rfl⟩ := Option.map_eq_some_iff.mp h
  split at hdead
  · cases hdead
  · rename_i hne
    rw [if_neg hne]
    exact hq0

theorem Workload.removeSub (h : Workload txn s K) (c : Nat) (i : SubId) : Workload txn (s.removeSub c i) K := by
  unfold QueryScheduler.removeSub
  split
  · exact h
  · exact h.fewer rfl fun p q hq hdead => find?_of_kill hq hdead

theorem Workload.closeConn (h : Workload txn s K) (c : Nat) : Workload txn (s.closeConn c) K := by
  unfold QueryScheduler.closeConn
  split
  · exact h
  · refine h.fewer rfl fun p q hq hdead => ?_
    replace hq := (find?_foldl_kill _ _ _).symm.trans hq
    obtain ⟨q0, hq0, rfl⟩ := Option.map_eq_some_iff.mp hq
    split at hdead
    · cases hdead
    · rename_i hne
      rw [if_neg hne]
      exact hq0

/-- A new query adds its own turns. -/
theorem Workload.addSub (h : Workload txn s K) (hinv : s.Inv cfg) {sub : Subscription} {p k : Nat}
    (hk : Due txn { sub := begun txn' sub } k) (hp : s.heap.find? p = none) {added : Bool}
    (ha : s.addSub cfg txn' sub p = (added, s')) : ∃ K' ≤ K + k, Workload txn s' K' := by
  obtain ⟨hinv1, -, hsome⟩ := hinv.removeSub sub.connId sub.subId
  have hp1 : (s.removeSub sub.connId sub.subId).heap.find? p = none := by
    rw [← Option.isNone_iff_eq_none, ← Option.not_isSome, hsome, hp]
    rfl
  have h1 := h.removeSub sub.connId sub.subId
  unfold QueryScheduler.addSub at ha
  simp only [] at ha
  generalize s.removeSub sub.connId sub.subId = s1 at hinv1 hp1 h1 ha
  split at ha
  · cases ha
    exact ⟨K, Nat.le_add_right K k, h1.fewer rfl fun _ _ hq _ => hq⟩
  · cases ha
    obtain ⟨cost, hpos, hdue, rfl⟩ := h1
    have hnot : p ∉ s1.running := fun hin => by
      have := (hinv1.queued p).mp hin
      rw [hp1] at this
      cases this
    have hsame : (s1.running.map (Function.update cost p k)).sum = (s1.running.map cost).sum := by
      congr 1
      refine List.map_congr_left fun p' hp' => Function.update_of_ne ?_ _ _
      rintro rfl
      exact hnot hp'
    refine ⟨_, ?_, Function.update cost p k, fun p' => ?_, fun p' q hq hdead => ?_, rfl⟩
    · rw [List.map_cons, List.sum_cons, hsame, Function.update_self, Nat.add_comm]
    · rw [Function.update_apply]
      split
      · exact hk.pos
      · exact hpos p'
    · replace hq : (s1.heap.tryEmplace p { sub := begun txn' sub }).find? p' = some q := hq
      rw [Assoc.find?_tryEmplace, hp1] at hq
      rw [Function.update_apply]
      split at hq
      · rename_i he
        rw [if_pos he]
        cases hq
        exact hk
      · rename_i hne
        rw [if_neg hne]
        exact hdue p' q hq hdead

/-- Queries that can be answered make a workload. -/
theorem exists_workload (s : QueryScheduler)
    (h : ∀ p q, s.heap.find? p = some q → q.dead = false → ∃ k, Due txn q k) : ∃ K, Workload txn s K := by
  have hone : ∀ p, ∃ k, 1 ≤ k ∧ ∀ q, s.heap.find? p = some q → q.dead = false → Due txn q k := by
    intro p
    by_cases hq : ∃ q, s.heap.find? p = some q ∧ q.dead = false
    · obtain ⟨q, hq, hdead⟩ := hq
      obtain ⟨k, hk⟩ := h p q hq hdead
      refine ⟨k, hk.pos, fun q' hq' _ => ?_⟩
      rw [hq] at hq'
      cases hq'
      exact hk
    · exact ⟨1, le_rfl, fun q hq' hdead => absurd ⟨q, hq', hdead⟩ hq⟩
  choose cost hcost using hone
  exact ⟨_, cost, fun p => (hcost p).1, fun p => (hcost p).2, rfl⟩

end

end QueryScheduler

end Strfry
