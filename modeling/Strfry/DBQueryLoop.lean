import Strfry.DBQuery

/-!
# The loop of a query

`process` goes through the filters and, for each, through the turns of its scan.  Two things are
said once for any invariant `I st n` of the states between turns, where `n` bounds the turns that
the filter at hand still takes: whole calls keep it (`LoopInv.call`), and they come back
(`LoopInv.returns`).  What an invariant has to do for this is one turn (`LoopTurn`) and a bound
for a filter that is begun.
-/

namespace Strfry

namespace DBQuery

/-- The state after the scan of a filter is complete. -/
def nextFilter (st : State) : State :=
  ({ st.1 with scanner := none, filterGroupIndex := st.1.filterGroupIndex + 1, sentEventsCurr := ∅ }, st.2)

section
variable [StdSort] {txn : Db}

theorem process_none {st : State} (pauses : List Pause)
    (h : st.1.sub.filterGroup.filters[st.1.filterGroupIndex]? = none) :
    process txn pauses st = .returned true st := by
  unfold process
  rw [h]

theorem process_some {st : State} {f : NostrFilter} (pause : Pause) (pauses : List Pause)
    (h : st.1.sub.filterGroup.filters[st.1.filterGroupIndex]? = some f) :
    process txn (pause :: pauses) st =
      match (st.1.scanner.getD (DBScan.new f)).scanStep txn (handleEvent f) (doPause pause) st with
      | .undefined => .undefined
      | .again s st => process txn pauses ({ st.1 with scanner := some s }, st.2)
      | .returned false s st => .returned false ({ st.1 with scanner := some s }, st.2)
      | .returned true _ st => process txn pauses (nextFilter st) := by
  rw [process, h]
  rfl

/-- A call from `st` comes back within `N` turns, whatever the pauses; without a pause it is
complete. -/
def Returns (txn : Db) (st : State) (N : Nat) : Prop :=
  ∀ pauses : List Pause, N ≤ pauses.length → ∃ complete st',
    process txn pauses st = .returned complete st' ∧
    ((∀ pause ∈ pauses, ∀ w l, (pause w l).1 = false) → complete = true)

theorem returns_ended {sub : Subscription} {st : State} (hsub : st.1.sub = sub)
    (h : sub.filterGroup.filters[st.1.filterGroupIndex]? = none) (N : Nat) : Returns txn st N := by
  intro pauses _
  exact ⟨true, st, process_none pauses (by rw [hsub]; exact h), fun _ => rfl⟩

end

/-- What one turn at the `i`-th filter leads to, from a state with bound `n`. -/
inductive LoopTurn (I : State → Nat → Prop) (i n : Nat) (paused : Bool) : DBScan.ScanStep State → Prop
  | pause (s : DBScan) (st : State) (n' : Nat) : paused = true → I ({ st.1 with scanner := some s }, st.2) n' →
      LoopTurn I i n paused (.returned false s st)
  | again (s : DBScan) (st : State) (n' : Nat) : I ({ st.1 with scanner := some s }, st.2) n' →
      st.1.filterGroupIndex = i → n' < n → LoopTurn I i n paused (.again s st)
  | next (s : DBScan) (st : State) (n' : Nat) : I (nextFilter st) n' → st.1.filterGroupIndex = i →
      LoopTurn I i n paused (.returned true s st)

/-- An invariant of the loop, with a bound on the turns at the filter at hand. -/
structure LoopInv [StdSort] (txn : Db) (sub : Subscription) (I : State → Nat → Prop) : Prop where
  sub_eq : ∀ st n, I st n → st.1.sub = sub
  turn : ∀ st n f (pause : Pause), I st n → sub.filterGroup.filters[st.1.filterGroupIndex]? = some f →
    let s := st.1.scanner.getD (DBScan.new f)
    LoopTurn I st.1.filterGroupIndex n (pause (s.approxWork + 1) st.1.lastWorkChecked).1
      (s.scanStep txn (handleEvent f) (doPause pause) st)
  fresh : ∀ i, ∃ B, ∀ st n, I st n → st.1.filterGroupIndex = i → st.1.scanner = none → I st B

section
variable [StdSort] {txn : Db} {sub : Subscription} {I : State → Nat → Prop} (hI : LoopInv txn sub I)
include hI

/-- **A call keeps the invariant**, is never undefined, and is complete only at the end. -/
theorem LoopInv.call (pauses : List Pause) {st : State} {n : Nat} (h : I st n) :
    process txn pauses st ≠ .undefined ∧
    ∀ complete st', process txn pauses st = .returned complete st' → (∃ n', I st' n') ∧
      (complete = true → sub.filterGroup.filters[st'.1.filterGroupIndex]? = none) := by
  induction pauses generalizing st n with
  | nil =>
    have hsub := hI.sub_eq st n h
    cases hi : st.1.sub.filterGroup.filters[st.1.filterGroupIndex]? with
    | none =>
      rw [process_none [] hi]
      refine ⟨by simp, fun complete st' he => ?_⟩
      cases he
      exact ⟨⟨n, h⟩, fun _ => hsub ▸ hi⟩
    | some f =>
      rw [process, hi]
      simp
  | cons pause pauses ih =>
    have hsub := hI.sub_eq st n h
    cases hi : st.1.sub.filterGroup.filters[st.1.filterGroupIndex]? with
    | none =>
      rw [process_none _ hi]
      refine ⟨by simp, fun complete st' he => ?_⟩
      cases he
      exact ⟨⟨n, h⟩, fun _ => hsub ▸ hi⟩
    | some f =>
      rw [process_some pause pauses hi]
      rw [hsub] at hi
      have hturn := hI.turn st n f pause h hi
      simp only [] at hturn
      generalize (st.1.scanner.getD (DBScan.new f)).scanStep txn (handleEvent f) (doPause pause) st = r
        at hturn
      cases hturn with
      | pause s st1 n' _ hq =>
        refine ⟨by simp, fun complete st' he => ?_⟩
        cases he
        exact ⟨⟨n', hq⟩, by simp⟩
      | again s st1 n' hq _ _ => exact ih hq
      | next s st1 n' hq _ => exact ih hq

/-- While a scan is at work, a call comes back after as many turns as its bound says, if calls from
the next filter on do after `B` turns. -/
theorem LoopInv.returns_filter {B i : Nat} (hB : ∀ st n, I st n → st.1.filterGroupIndex = i + 1 →
      st.1.scanner = none → Returns txn st B) (m : Nat) {st : State} {n : Nat} (h : I st n)
    (hi : st.1.filterGroupIndex = i) (hn : n < m) : Returns txn st (m + B) := by
  induction m generalizing st n with
  | zero => omega
  | succ m ih =>
    intro pauses hlen
    obtain ⟨pause, pauses, rfl⟩ : ∃ p ps, pauses = p :: ps := by
      cases pauses with
      | nil => simp only [List.length_nil] at hlen; omega
      | cons p ps => exact ⟨p, ps, rfl⟩
    simp only [List.length_cons] at hlen
    have hsub := hI.sub_eq st n h
    cases hf : sub.filterGroup.filters[st.1.filterGroupIndex]? with
    | none => exact returns_ended hsub hf 0 _ (Nat.zero_le _)
    | some f =>
      have hnever : (∀ p ∈ pause :: pauses, ∀ w l, (p w l).1 = false) →
          ∀ p ∈ pauses, ∀ w l, (p w l).1 = false := fun h p hp => h p (List.mem_cons_of_mem _ hp)
      rw [process_some pause pauses (by rw [hsub]; exact hf)]
      have hturn := hI.turn st n f pause h hf
      simp only [] at hturn
      generalize (st.1.scanner.getD (DBScan.new f)).scanStep txn (handleEvent f) (doPause pause) st = r
        at hturn
      cases hturn with
      | pause s st1 n' hp hq =>
        refine ⟨false, _, rfl, fun h => ?_⟩
        rw [h pause List.mem_cons_self] at hp
        cases hp
      | again s st1 n' hq hidx hlt =>
        obtain ⟨c, st', hc, hcomplete⟩ := ih hq (hidx.trans hi) (by omega) pauses (by omega)
        exact ⟨c, st', hc, fun h => hcomplete (hnever h)⟩
      | next s st1 n' hq hidx =>
        obtain ⟨c, st', hc, hcomplete⟩ := hB (nextFilter st1) n' hq
          (by show st1.1.filterGroupIndex + 1 = i + 1; rw [hidx, hi]) rfl pauses (by omega)
        exact ⟨c, st', hc, fun h => hcomplete (hnever h)⟩

/-- From the start of a filter, by the number of filters left. -/
theorem LoopInv.returns_fresh (m : Nat) : ∃ B, ∀ st n, I st n →
    sub.filterGroup.filters.length ≤ st.1.filterGroupIndex + m → st.1.scanner = none → Returns txn st B := by
  induction m with
  | zero =>
    exact ⟨0, fun st n h hm _ => returns_ended (hI.sub_eq st n h) (List.getElem?_eq_none hm) 0⟩
  | succ m ih =>
    obtain ⟨B, hB⟩ := ih
    let i := sub.filterGroup.filters.length - (m + 1)
    obtain ⟨b, hb⟩ := hI.fresh i
    refine ⟨b + 1 + B, fun st n h hm hs => ?_⟩
    by_cases hlast : st.1.filterGroupIndex = i
    · exact hI.returns_filter (fun st' n' h' hi' hs' => hB st' n' h' (by omega) hs') (b + 1)
        (hb st n h hlast hs) hlast (Nat.lt_succ_self _)
    · intro pauses hlen
      exact hB st n h (by omega) hs pauses (by omega)

/-- **Calls come back**, from any state of a query. -/
theorem LoopInv.returns {st : State} {n : Nat} (h : I st n) : ∃ N, Returns txn st N := by
  obtain ⟨B, hB⟩ := hI.returns_fresh sub.filterGroup.filters.length
  exact ⟨_, hI.returns_filter (fun st' n' h' _ hs' => hB st' n' h' (by omega) hs') (n + 1) h rfl
    (Nat.lt_succ_self _)⟩

end

/-! ## What was called before -/

/-- The outcome with `pre` called before. -/
def Outcome.after (pre : List Call) : Outcome → Outcome
  | .running => .running
  | .returned complete st => .returned complete (st.1, pre ++ st.2)
  | .undefined => .undefined

theorem handleEvent_after (pre : List Call) (f : NostrFilter) (levId : Nat) (st : State) :
    handleEvent f levId (st.1, pre ++ st.2) =
      ((handleEvent f levId st).1, ((handleEvent f levId st).2.1, pre ++ (handleEvent f levId st).2.2)) := by
  have hassoc : ∀ l : List Call, pre ++ st.2 ++ l = pre ++ (st.2 ++ l) := List.append_assoc pre st.2
  unfold handleEvent
  simp only [hassoc]
  split
  · rfl
  · split
    · rfl
    · unfold send
      split
      · rfl
      · simp only [List.append_assoc]

/-- A call does not look at what was called before. -/
theorem process_after [StdSort] (txn : Db) (pre : List Call) (pauses : List Pause) (st : State) :
    process txn pauses (st.1, pre ++ st.2) = (process txn pauses st).after pre := by
  induction pauses generalizing st with
  | nil =>
    cases hi : st.1.sub.filterGroup.filters[st.1.filterGroupIndex]? with
    | none =>
      rw [process_none [] hi, process_none [] (by exact hi)]
      rfl
    | some f =>
      unfold process
      simp only [hi]
      rfl
  | cons pause pauses ih =>
    cases hi : st.1.sub.filterGroup.filters[st.1.filterGroupIndex]? with
    | none =>
      rw [process_none _ hi, process_none _ (by exact hi)]
      rfl
    | some f =>
      rw [process_some pause pauses hi, process_some pause pauses (by exact hi)]
      have hmap : DBScan.scanStep txn (handleEvent f) (doPause pause) (st.1.scanner.getD (DBScan.new f))
          (st.1, pre ++ st.2) = (DBScan.scanStep txn (handleEvent f) (doPause pause)
            (st.1.scanner.getD (DBScan.new f)) st).map fun st => (st.1, pre ++ st.2) :=
        DBScan.scanStep_map (handleEvent_after pre f) (fun _ _ => rfl) _ st
      rw [hmap]
      cases (st.1.scanner.getD (DBScan.new f)).scanStep txn (handleEvent f) (doPause pause) st with
      | again s st1 => exact ih ({ st1.1 with scanner := some s }, st1.2)
      | returned complete s st1 =>
        cases complete with
        | true => exact ih (nextFilter st1)
        | false => rfl
      | undefined => rfl

theorem returns_after [StdSort] {txn : Db} {pre : List Call} {st : State} {N : Nat}
    (h : Returns txn (st.1, pre ++ st.2) N) : Returns txn st N := by
  intro pauses hlen
  obtain ⟨complete, st', hp, hc⟩ := h pauses hlen
  rw [process_after] at hp
  cases hr : process txn pauses st with
  | running =>
    rw [hr] at hp
    cases hp
  | returned c st1 =>
    rw [hr] at hp
    cases hp
    exact ⟨_, st1, rfl, hc⟩
  | undefined =>
    rw [hr] at hp
    cases hp

end DBQuery

end Strfry
