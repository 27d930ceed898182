import Strfry.DBQueryCover
import Strfry.QuerySchedulerRun

/-!
# The slices of one query

The scheduler runs a query in slices between those of others.  `RunsOver P s k` says that the live
query of the id `k` is what slices on snapshots of `P` make of a new one (`DBQuery.Slices`), and every
call of the scheduler keeps it.  So what was said of whole queries holds of those of the scheduler
(`RunsOver.slice`).
-/

namespace Strfry

namespace DBQuery

/-- A slice of the scheduler is the next call of its query. -/
theorem Slices.next [StdSort] {snaps : List Db} {q q' : DBQuery} {out out' : List Call} {txn : Db}
    {pauses : List Pause} {complete : Bool} (h : Slices q.sub snaps false (q, out))
    (hcall : process txn pauses (q, []) = .returned complete (q', out')) :
    Slices q.sub (snaps ++ [txn]) complete (q', out ++ out') := by
  refine .call snaps txn pauses (q, out) _ complete h ?_
  have hafter := process_after txn out pauses (q, [])
  rw [hcall, List.append_nil] at hafter
  exact hafter

end DBQuery

namespace QueryScheduler

/-- The live query of an id has run on snapshots of `P` only. -/
def RunsOver [StdSort] (P : Db → Prop) (s : QueryScheduler) (k : Nat × SubId) : Prop :=
  ∀ q, s.live k.1 k.2 = some q → ∃ snaps out, (∀ txn ∈ snaps, P txn) ∧ DBQuery.Slices q.sub snaps false (q, out)

section
variable [StdSort] {cfg : Cfg} {P P' : Db → Prop} {s s' : QueryScheduler} {k : Nat × SubId} {txn : Db}

/-- More snapshots, and fewer queries. -/
theorem RunsOver.mono (h : RunsOver P s k) (hP : ∀ txn, P txn → P' txn)
    (hlive : ∀ q, s'.live k.1 k.2 = some q → s.live k.1 k.2 = some q) : RunsOver P' s' k := by
  intro q hq
  obtain ⟨snaps, out, hsnaps, hrun⟩ := h q (hlive q hq)
  exact ⟨snaps, out, fun txn htxn => hP txn (hsnaps txn htxn), hrun⟩

/-- A new query has run on none. -/
theorem RunsOver.added (hinv : s.Inv cfg) {sub : Subscription} {p : Nat} (hp : s.heap.find? p = none)
    {added : Bool} (ha : s.addSub cfg txn sub p = (added, s')) (P : Db → Prop) : RunsOver P s' sub.key := by
  intro q hq
  rw [(hinv.addSub txn sub p hp ha).2, if_pos ⟨rfl, rfl⟩] at hq
  split at hq
  · cases hq
    exact ⟨[], [], by simp, .start⟩
  · cases hq

theorem RunsOver.addSub (h : RunsOver P s k) (hinv : s.Inv cfg) {sub : Subscription} {p : Nat}
    (hp : s.heap.find? p = none) {added : Bool} (ha : s.addSub cfg txn sub p = (added, s')) : RunsOver P s' k := by
  by_cases hk : sub.key = k
  · rw [← hk]
    exact .added hinv hp ha P
  · refine h.mono (fun _ h => h) fun q hq => ?_
    rw [(hinv.addSub txn sub p hp ha).2, if_neg] at hq
    · exact hq
    · rintro ⟨hc, hi⟩
      exact hk (Prod.ext hc.symm hi.symm)

theorem RunsOver.removeSub (h : RunsOver P s k) (hinv : s.Inv cfg) (c : Nat) (i : SubId) :
    RunsOver P (s.removeSub c i) k := by
  refine h.mono (fun _ h => h) fun q hq => ?_
  rw [(hinv.removeSub c i).2.1] at hq
  split at hq
  · cases hq
  · exact hq

theorem RunsOver.closeConn (h : RunsOver P s k) (hinv : s.Inv cfg) (c : Nat) : RunsOver P (s.closeConn c) k := by
  refine h.mono (fun _ h => h) fun q hq => ?_
  rw [(hinv.closeConn c).2] at hq
  split at hq
  · cases hq
  · exact hq

/-- What a slice called back comes from a run on the snapshots. -/
theorem RunsOver.slice (h : RunsOver P s k) (htxn : P txn) {ensureExists : Bool} {pauses : List DBQuery.Pause}
    {ran : Ran} {q q' : DBQuery} {out : List DBQuery.Call}
    (hs : Sliced ensureExists txn pauses s s' ran q q' out) (hk : ran.sub.key = k) : ∃ snaps out',
      (∀ txn ∈ snaps, P txn) ∧ DBQuery.Slices ran.sub snaps ran.total.isSome (q', out') := by
  subst hk
  obtain ⟨snaps, out0, hsnaps, hrun⟩ := h q hs.before
  have hnext := hrun.next hs.call
  rw [hs.sub] at hnext
  refine ⟨snaps ++ [txn], _, fun t ht => ?_, hnext⟩
  rcases List.mem_append.mp ht with ht | ht
  · exact hsnaps t ht
  · rw [List.mem_singleton.mp ht]
    exact htxn

theorem RunsOver.process (h : RunsOver P s k) (hinv : s.Inv cfg) (htxn : P txn) {ensureExists : Bool}
    {pauses : List DBQuery.Pause} {ran : Option Ran} (hp : s.process ensureExists txn pauses = .ok (s', ran)) :
    RunsOver P s' k := by
  obtain ⟨-, hnone, hsome⟩ := hinv.process hp
  cases ran with
  | none => exact h.mono (fun _ h => h) fun q hq => by rw [← hnone rfl]; exact hq
  | some ran =>
    obtain ⟨q, q', out, hs⟩ := hsome ran rfl
    intro q1 hq1
    rw [hs.after] at hq1
    split at hq1
    · rename_i hk
      split at hq1
      · cases hq1
      · rename_i htotal
        cases hq1
        obtain ⟨snaps, out', hsnaps, hrun⟩ := h.slice htxn hs (Prod.ext hk.1.symm hk.2.symm)
        rw [Bool.not_eq_true] at htotal
        rw [htotal] at hrun
        have hsub : q'.sub = ran.sub := by
          obtain ⟨l, hl⟩ := DBQuery.sends_process pauses hs.call
          exact hl.sub.trans hs.sub
        rw [← hsub] at hrun
        exact ⟨snaps, out', hsnaps, hrun⟩
    · exact h q1 hq1

end

end QueryScheduler

end Strfry
