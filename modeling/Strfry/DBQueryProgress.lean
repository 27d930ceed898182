import Strfry.DBQueryCover

/-!
# Slices make progress

While the database stays as it is a query has so many turns to go: what is left of the scan at hand,
and a bound for each filter to come (`toGo`).  A pause leaves this alone and every other turn lowers
it.  The clock is asked only after 2000 units of work, so a slice that starts where the last one was
paused makes a turn at least (`LoopBound.slice`).

So `Due txn q k`, which says that `q` is complete after fewer than `k` slices on `txn`, gets smaller
with each slice (`Due.slice`), and every query of a client has some `k` to begin with (`exists_due`).
-/

namespace Strfry

/-- A turn that returns `false` paused, and only counted its work. -/
theorem DBScan.scanStep_paused [StdSort] {σ : Type} {txn : Db} {handleEvent doPause : Nat → σ → Bool × σ}
    {s s' : DBScan} {st st' : σ} (h : s.scanStep txn handleEvent doPause st = .returned false s' st') :
    (doPause (s.approxWork + 1) st).1 = true ∧ s' = { s with approxWork := s.approxWork + 1 } ∧
      st' = (doPause (s.approxWork + 1) st).2 := by
  have hoption : ∀ {o : Option DBScan} {st1 : σ}, ScanStep.ofOption st1 o ≠ .returned false s' st' := by
    intro o st1 ho
    cases o <;> cases ho
  have htaken : ∀ {c : Prop} [Decidable c] {s1 : DBScan} {st1 st2 : σ} {o : Option DBScan},
      (if c then ScanStep.returned true s1 st1 else .ofOption st2 o) ≠ .returned false s' st' := by
    intro c _ s1 st1 st2 o ho
    by_cases hc : c
    · rw [if_pos hc] at ho
      cases ho
    · rw [if_neg hc] at ho
      exact hoption ho
  unfold DBScan.scanStep at h
  simp only [] at h
  split at h
  · rename_i hpause
    cases h
    exact ⟨hpause, rfl, rfl⟩
  · split at h
    · exact absurd h hoption
    · split at h
      · cases h
      · exact absurd h htaken

namespace DBQuery

/-- The answers of the clock. -/
def Timed (pauses : List Pause) : Prop := ∀ pause ∈ pauses, ∃ overBudget, pause = timePause overBudget

/-- The clock was asked at the work done so far. -/
def Rested (q : DBQuery) : Prop := ∀ s, q.scanner = some s → s.approxWork ≤ q.lastWorkChecked

/-- The turns to go at the `i`-th of `len` filters, when `n` are left of its scan and the scan of the
`j`-th takes `B j`. -/
def toGo (B : Nat → Nat) (len i n : Nat) : Nat :=
  n + ((List.range' (i + 1) (len - (i + 1))).map fun j => B j + 1).sum

theorem toGo_next {B : Nat → Nat} {len i : Nat} (h : i + 1 < len) (n : Nat) :
    toGo B len (i + 1) (B (i + 1)) < toGo B len i n := by
  obtain ⟨m, hm⟩ : ∃ m, len - (i + 1) = m + 1 := ⟨len - (i + 2), by omega⟩
  have hm' : len - (i + 1 + 1) = m := by omega
  unfold toGo
  rw [hm, hm', List.range'_succ, List.map_cons, List.sum_cons]
  omega

/-- An invariant of the loop that pauses leave alone, with bounds for the filters to come. -/
structure LoopBound [StdSort] (txn : Db) (sub : Subscription) (I : State → Nat → Prop) (B : Nat → Nat) : Prop
    extends LoopInv txn sub I where
  paused : ∀ st n f (pause : Pause) (s : DBScan) (st' : State), I st n →
    sub.filterGroup.filters[st.1.filterGroupIndex]? = some f →
    (st.1.scanner.getD (DBScan.new f)).scanStep txn (handleEvent f) (doPause pause) st = .returned false s st' →
    I ({ st'.1 with scanner := some s }, st'.2) n
  begun : ∀ st n, I st n → st.1.scanner = none → I st (B st.1.filterGroupIndex)

section
variable [StdSort] {txn : Db} {sub : Subscription} {I : State → Nat → Prop} {B : Nat → Nat}

/-- **A slice** that pauses leaves no more to go than before, and less if the query was rested. -/
theorem LoopBound.slice (hI : LoopBound txn sub I B) {pauses : List Pause} (ht : Timed pauses) {st st' : State}
    {n : Nat} (h : I st n) (hp : process txn pauses st = .returned false st') :
    ∃ n', I st' n' ∧ Rested st'.1 ∧
      toGo B sub.filterGroup.filters.length st'.1.filterGroupIndex n' ≤
        toGo B sub.filterGroup.filters.length st.1.filterGroupIndex n ∧
      (Rested st.1 → toGo B sub.filterGroup.filters.length st'.1.filterGroupIndex n' <
        toGo B sub.filterGroup.filters.length st.1.filterGroupIndex n) := by
  induction pauses generalizing st n with
  | nil =>
    cases hi : st.1.sub.filterGroup.filters[st.1.filterGroupIndex]? with
    | none =>
      rw [process_none [] hi] at hp
      cases hp
    | some f =>
      rw [process, hi] at hp
      cases hp
  | cons pause pauses ih =>
    have hsub := hI.sub_eq st n h
    cases hi : st.1.sub.filterGroup.filters[st.1.filterGroupIndex]? with
    | none =>
      rw [process_none _ hi] at hp
      cases hp
    | some f =>
      rw [process_some pause pauses hi] at hp
      rw [hsub] at hi
      have hrest : Timed pauses := fun p hp => ht p (List.mem_cons_of_mem _ hp)
      have hturn := hI.turn st n f pause h hi
      have hpaused := hI.paused st n f pause
      simp only [] at hturn
      generalize hr : (st.1.scanner.getD (DBScan.new f)).scanStep txn (handleEvent f) (doPause pause) st = r
        at hturn hp hpaused
      cases hturn with
      | pause s st1 n' _ _ =>
        cases hp
        obtain ⟨hover, hs, hst1⟩ := DBScan.scanStep_paused hr
        obtain ⟨overBudget, rfl⟩ := ht pause List.mem_cons_self
        have hwork : (st.1.scanner.getD (DBScan.new f)).approxWork + 1 > st.1.lastWorkChecked + 2000 := by
          by_contra hle
          unfold doPause timePause at hover
          simp only [if_neg hle] at hover
          cases hover
        have hlast : st1.1.lastWorkChecked = (st.1.scanner.getD (DBScan.new f)).approxWork + 1 := by
          rw [hst1]
          unfold doPause timePause
          simp only [if_pos hwork]
        have hidx : st1.1.filterGroupIndex = st.1.filterGroupIndex := by
          rw [hst1]
          rfl
        refine ⟨n, hpaused s st1 h hi rfl, fun t hts => ?_, ?_, fun hrested => ?_⟩
        · cases hts
          show s.approxWork ≤ st1.1.lastWorkChecked
          rw [hs, hlast]
        · show toGo B _ st1.1.filterGroupIndex n ≤ _
          rw [hidx]
        · -- a rested query has work to do before the clock is asked
          exfalso
          cases hsc : st.1.scanner with
          | none =>
            rw [hsc] at hwork
            have : (DBScan.new f).approxWork = 0 := rfl
            simp only [Option.getD_none, this] at hwork
            omega
          | some s0 =>
            have := hrested s0 hsc
            rw [hsc] at hwork
            simp only [Option.getD_some] at hwork
            omega
      | again s st1 n' hq hidx hlt =>
        obtain ⟨m, hm, hrested, hle, -⟩ := ih hrest hq hp
        have hless : toGo B sub.filterGroup.filters.length st1.1.filterGroupIndex n' <
            toGo B sub.filterGroup.filters.length st.1.filterGroupIndex n := by
          rw [hidx]
          exact Nat.add_lt_add_right hlt _
        exact ⟨m, hm, hrested, hle.trans hless.le, fun _ => hle.trans_lt hless⟩
      | next s st1 n' hq hidx =>
        replace hp : process txn pauses (nextFilter st1) = .returned false st' := hp
        have hnext : (nextFilter st1).1.filterGroupIndex = st.1.filterGroupIndex + 1 := congrArg (· + 1) hidx
        by_cases hlast : st.1.filterGroupIndex + 1 < sub.filterGroup.filters.length
        · obtain ⟨m, hm, hrested, hle, -⟩ := ih hrest (hI.begun _ n' hq rfl) hp
          rw [hnext] at hle
          have hless := toGo_next (B := B) hlast n
          exact ⟨m, hm, hrested, hle.trans hless.le, fun _ => hle.trans_lt hless⟩
        · have hend : (nextFilter st1).1.sub.filterGroup.filters[(nextFilter st1).1.filterGroupIndex]? = none := by
            rw [hI.sub_eq _ _ hq, hnext]
            exact List.getElem?_eq_none (by omega)
          rw [process_none _ hend] at hp
          cases hp

/-! ## Slices to come -/

/-- The query is complete after fewer than `k` slices. -/
def Due (txn : Db) (q : DBQuery) (k : Nat) : Prop :=
  ∃ (I : State → Nat → Prop) (B : Nat → Nat) (out : List Call) (n : Nat), LoopBound txn q.sub I B ∧ I (q, out) n ∧
    let left := toGo B q.sub.filterGroup.filters.length q.filterGroupIndex n
    k = left + 2 ∨ Rested q ∧ k = left + 1

variable {q q' : DBQuery} {k : Nat}

theorem Due.pos (h : Due txn q k) : 1 ≤ k := by
  obtain ⟨I, B, out, n, -, -, rfl | ⟨-, rfl⟩⟩ := h
  · omega
  · omega

theorem Due.slice (h : Due txn q k) {pauses : List Pause} (ht : Timed pauses) {out' : List Call}
    (hp : process txn pauses (q, []) = .returned false (q', out')) : ∃ k' < k, Due txn q' k' := by
  obtain ⟨I, B, out, n, hI, hn, hk⟩ := h
  have hcall : process txn pauses (q, out) = .returned false (q', out ++ out') := by
    have hafter := process_after txn out pauses (q, [])
    rw [hp, List.append_nil] at hafter
    exact hafter
  obtain ⟨n', hn', hrested, hle, hlt⟩ := hI.slice ht hn hcall
  have hsub : q'.sub = q.sub := hI.sub_eq _ _ hn'
  let left := toGo B q.sub.filterGroup.filters.length q'.filterGroupIndex n'
  refine ⟨left + 1, ?_, I, B, out ++ out', n', ?_, hn', ?_⟩
  · rcases hk with rfl | ⟨hr, rfl⟩
    · exact Nat.lt_of_le_of_lt (Nat.succ_le_succ hle) (Nat.lt_succ_self _)
    · exact Nat.succ_lt_succ (hlt hr)
  · rw [hsub]
    exact hI
  · rw [hsub]
    exact Or.inr ⟨hrested, rfl⟩

/-- A slice comes back. -/
theorem Due.returns (h : Due txn q k) : ∃ N, Returns txn (q, []) N := by
  obtain ⟨I, B, out, n, hI, hn, -⟩ := h
  obtain ⟨N, hN⟩ := hI.toLoopInv.returns hn
  refine ⟨N, @returns_after _ txn out _ N ?_⟩
  rw [List.append_nil]
  exact hN

end

/-! ## The queries of clients -/

section
variable [StdSort] {snaps : Db → Prop} {sub : Subscription} {txn : Db}
  (hplan : ∀ f ∈ sub.filterGroup.filters, ∃ ps km, DBScan.Planned f ps km)
  (hok : ∀ f ∈ sub.filterGroup.filters, ∀ txn, snaps txn → DBScan.SnapOk f txn) (htxn : snaps txn)
include hplan hok htxn

/-- A pause leaves what a scan covers and what it has to do. -/
theorem cover_bound : ∃ B, LoopBound txn sub (CoverRanked snaps txn sub) B := by
  have hloop := cover_loop hplan hok htxn
  choose B hB using hloop.fresh
  refine ⟨B, hloop, fun st n f pause s st' h hi hr => ?_, fun st n h hs => hB _ st n h rfl hs⟩
  obtain ⟨-, rfl, rfl⟩ := DBScan.scanStep_paused hr
  obtain ⟨ps, km, hp, hcov, P, hP, hn⟩ := h.2 f hi
  have hwork := hcov.work ((st.1.scanner.getD (DBScan.new f)).approxWork + 1)
  refine ⟨{ h.1.toCovered with
    fresh := fun hnone => by cases hnone
    running := fun g t hg ht => ?_ }, fun g hg => ?_⟩
  · cases hi.symm.trans hg
    cases ht
    exact ⟨ps, km, hp, hwork⟩
  · cases hi.symm.trans hg
    exact ⟨ps, km, hp, hwork, P, ⟨hP.length, hP.pending⟩, hn⟩

end

/-- A query that ran on any snapshots is complete after so many slices on the next. -/
theorem exists_due [StdSort] {q : DBQuery} {snaps : List Db} {out : List Call} {txn : Db}
    (hplan : ∀ f ∈ q.sub.filterGroup.filters, ∃ ps km, DBScan.Planned f ps km)
    (hsnaps : ∀ t ∈ snaps, Scannable t) (htxn : Scannable txn) (h : Slices q.sub snaps false (q, out)) :
    ∃ k, Due txn q k := by
  obtain ⟨hcov, -⟩ := QueryCover.slices hplan hsnaps h
  have hnext : QueryCover (· ∈ snaps ++ [txn]) q.sub (q, out) := hcov.mono fun t ht => List.mem_append_left _ ht
  have hok : ∀ f ∈ q.sub.filterGroup.filters, ∀ t, t ∈ snaps ++ [txn] → DBScan.SnapOk f t := by
    intro f _ t ht
    rcases List.mem_append.mp ht with ht | ht
    · exact (hsnaps t ht).snapOk f
    · rw [List.mem_singleton.mp ht]
      exact htxn.snapOk f
  have hin : txn ∈ snaps ++ [txn] := List.mem_append_right _ List.mem_cons_self
  obtain ⟨n, hn⟩ := hnext.ranked hplan hok hin
  obtain ⟨B, hB⟩ := cover_bound hplan hok hin
  exact ⟨_, _, B, out, n, hB, hn, Or.inl rfl⟩

end DBQuery

end Strfry
