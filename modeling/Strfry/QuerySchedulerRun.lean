import Strfry.QuerySchedulerInv

/-!
# Runs of the scheduler

Any sequence of `addSub`, `removeSub`, `closeConn` and `process` calls.  The address of a query
is used again once the query is freed, so a query is known by its number in the order of
allocation, and a run records what becomes of each: taken away by a call (`retired`), called
back for (`called`), completed, freed.

`scheduler_bookkeeping`: the queries allocated and not freed are those of the queue, `conns`
names exactly the live ones, every query is freed once, and once it is retired or complete
nothing is called back for it.
-/

namespace Strfry

namespace QueryScheduler

/-- What becomes of a query. -/
inductive QueryEvent where
  /-- removed, replaced, or its connection closed -/
  | retired (n : Nat)
  /-- `onEvent` for each event, and `onEventBatch` -/
  | called (n : Nat) (levIds : List Nat)
  /-- `onComplete` -/
  | completed (n total : Nat)
  | freed (n : Nat)
deriving DecidableEq

structure Run where
  scheduler : QueryScheduler := {}
  /-- the number of the query last put at an address -/
  number : Nat → Nat := fun _ => 0
  allocated : Nat := 0
  history : List QueryEvent := []

/-- A call takes away the queries of some subscriptions, which may still be in the queue. -/
def Run.retire (r : Run) (taken : Subscription → Bool) : List QueryEvent :=
  (r.scheduler.running.filter fun p => (r.scheduler.heap.find? p).any fun q => taken q.sub).map
    fun p => .retired (r.number p)

/-- What `process` does to the query at the front. -/
def Run.processed (r : Run) (ran : Option Ran) : List QueryEvent :=
  match r.scheduler.running with
  | [] => []
  | p :: _ =>
    match ran with
    | none => [.freed (r.number p)]
    | some ran =>
      .called (r.number p) ran.levIds :: match ran.total with
        | none => []
        | some total => [.completed (r.number p) total, .freed (r.number p)]

section
variable [StdSort] (cfg : Cfg)

/-- One call. -/
inductive Call (r : Run) : Run → Prop where
  | addSub (txn : Db) (sub : Subscription) (p : Nat) (added : Bool) (s : QueryScheduler)
      (hp : r.scheduler.heap.find? p = none) (h : r.scheduler.addSub cfg txn sub p = (added, s)) :
      Call r { r with
        scheduler := s
        number := if added then Function.update r.number p r.allocated else r.number
        allocated := if added then r.allocated + 1 else r.allocated
        history := r.history ++ r.retire fun sub' => sub'.key = sub.key }
  | removeSub (connId : Nat) (subId : SubId) : Call r { r with
      scheduler := r.scheduler.removeSub connId subId
      history := r.history ++ r.retire fun sub => sub.key = (connId, subId) }
  | closeConn (connId : Nat) : Call r { r with
      scheduler := r.scheduler.closeConn connId
      history := r.history ++ r.retire fun sub => sub.connId = connId }
  | process (ensureExists : Bool) (txn : Db) (pauses : List DBQuery.Pause) (s : QueryScheduler)
      (ran : Option Ran) (h : r.scheduler.process ensureExists txn pauses = .ok (s, ran)) :
      Call r { r with
        scheduler := s
        history := r.history ++ r.processed ran }

inductive Reached : Run → Prop where
  | init : Reached {}
  | call {r r' : Run} (h : Reached r) (hc : Call cfg r r') : Reached r'

end

/-! ## The queries at their addresses -/

/-- There is a query at the address, and it is not dead. -/
def Alive (s : QueryScheduler) (p : Nat) : Prop := ∃ q, s.heap.find? p = some q ∧ q.dead = false

theorem Alive.isSome {s : QueryScheduler} {p : Nat} (h : Alive s p) : (s.heap.find? p).isSome := by
  obtain ⟨q, hq, -⟩ := h
  rw [hq]
  rfl

section
variable {cfg : Cfg} {s : QueryScheduler}

/-- A heap in which the queries `D` are dead. -/
theorem alive_killed {s s' : QueryScheduler} (D : Nat → Prop) [DecidablePred D]
    (hheap : ∀ p, s'.heap.find? p = (s.heap.find? p).map fun q => if D p then { q with dead := true } else q)
    (p : Nat) : Alive s' p ↔ Alive s p ∧ ¬ D p := by
  unfold Alive
  rw [hheap]
  constructor
  · rintro ⟨q', hq', hd⟩
    obtain ⟨q, hq, rfl⟩ := Option.map_eq_some_iff.mp hq'
    by_cases hD : D p
    · rw [if_pos hD] at hd
      cases hd
    · rw [if_neg hD] at hd
      exact ⟨⟨q, hq, hd⟩, hD⟩
  · rintro ⟨⟨q, hq, hd⟩, hD⟩
    exact ⟨q, by rw [hq, Option.map_some, if_neg hD], hd⟩

theorem alive_removeSub (s : QueryScheduler) (c : Nat) (i : SubId) (p : Nat) :
    Alive (s.removeSub c i) p ↔ Alive s p ∧ s.findQuery c i ≠ some p := by
  unfold QueryScheduler.removeSub
  cases hp : s.findQuery c i with
  | none => simp
  | some p0 =>
    let s' : QueryScheduler := { s with heap := kill s.heap p0, conns := s.conns.eraseAt c i }
    have hk : Alive s' p ↔ _ := alive_killed (fun p' => p' = p0) (find?_kill s.heap p0) p
    change Alive s' p ↔ _
    rw [hk]
    simp [eq_comm]

theorem alive_closeConn (s : QueryScheduler) (c p : Nat) :
    (Alive (s.closeConn c) p ↔ Alive s p ∧ ∀ i, s.findQuery c i ≠ some p) ∧
    ((s.closeConn c).heap.find? p).isSome = (s.heap.find? p).isSome := by
  unfold QueryScheduler.closeConn
  cases hrow : s.conns.find? c with
  | none =>
    refine ⟨⟨fun h => ⟨h, fun i hi => ?_⟩, And.left⟩, rfl⟩
    unfold findQuery Nested.find at hi
    rw [hrow] at hi
    cases hi
  | some row =>
    have hk := find?_foldl_kill row.entries s.heap
    have hmem : p ∈ row.entries.map Prod.snd ↔ ∃ i, s.findQuery c i = some p := by
      unfold findQuery Nested.find
      rw [hrow, List.mem_map]
      constructor
      · rintro ⟨e, he, rfl⟩
        exact ⟨e.1, (row.find?_eq_some_iff _ _).mpr he⟩
      · rintro ⟨i, hi⟩
        exact ⟨(i, p), (row.find?_eq_some_iff _ _).mp hi, rfl⟩
    refine ⟨?_, ?_⟩
    · let s' : QueryScheduler := { s with
        heap := row.entries.foldl (fun heap e => kill heap e.2) s.heap
        conns := s.conns.erase c }
      have hkilled : Alive s' p ↔ _ := alive_killed (fun p' => p' ∈ row.entries.map Prod.snd) hk p
      exact hkilled.trans (by rw [hmem, not_exists])
    · show ((row.entries.foldl (fun heap e => kill heap e.2) s.heap).find? p).isSome = _
      rw [hk, Option.isSome_map]

/-- `addSub`: the query of the id is dead, and the new one is at `p` unless the connection is full. -/
theorem Inv.addSub_alive (h : Inv cfg s) {txn : Db} {sub : Subscription} {p : Nat}
    (hp : s.heap.find? p = none) {added : Bool} {s' : QueryScheduler}
    (ha : s.addSub cfg txn sub p = (added, s')) (p' : Nat) :
    (Alive s' p' ↔ (Alive s p' ∧ s.findQuery sub.connId sub.subId ≠ some p') ∨ (added = true ∧ p' = p)) ∧
    ((s'.heap.find? p').isSome ↔ (s.heap.find? p').isSome ∨ (added = true ∧ p' = p)) := by
  obtain ⟨-, -, hsome⟩ := h.removeSub sub.connId sub.subId
  have halive := alive_removeSub s sub.connId sub.subId p'
  have hp1 : (s.removeSub sub.connId sub.subId).heap.find? p = none := by
    rw [← Option.isNone_iff_eq_none, ← Option.not_isSome, hsome, hp]
    rfl
  rw [← halive, ← hsome]
  unfold QueryScheduler.addSub at ha
  simp only [] at ha
  generalize s.removeSub sub.connId sub.subId = s1 at ha hp1
  split at ha
  · cases ha
    simp [Alive]
  · cases ha
    have hheap : (s1.heap.tryEmplace p { sub := begun txn sub }).find? p' =
        if p' = p then some { sub := begun txn sub } else s1.heap.find? p' := by
      rw [Assoc.find?_tryEmplace, hp1]
      rfl
    unfold Alive
    show ((∃ q, (s1.heap.tryEmplace p { sub := begun txn sub }).find? p' = some q ∧ _) ↔ _) ∧
      (((s1.heap.tryEmplace p { sub := begun txn sub }).find? p').isSome ↔ _)
    rw [hheap]
    by_cases hpp : p' = p
    · rw [if_pos hpp]
      exact ⟨⟨fun _ => Or.inr ⟨rfl, hpp⟩, fun _ => ⟨_, rfl, rfl⟩⟩, ⟨fun _ => Or.inr ⟨rfl, hpp⟩, fun _ => rfl⟩⟩
    · simp [hpp]

/-- A slice, at the addresses: a dead query at the front is freed; a live one is called, and freed if
it is complete.  The others stay as they are. -/
structure Turn (s s' : QueryScheduler) (p : Nat) (ran : Option Ran) : Prop where
  others : ∀ p', p' ≠ p → s'.heap.find? p' = s.heap.find? p'
  dead : ran = none → ¬ Alive s p ∧ s'.heap.find? p = none
  called : ∀ r, ran = some r → Alive s p
  going : ∀ r, ran = some r → r.total = none → Alive s' p
  complete : ∀ r, ran = some r → r.total.isSome → s'.heap.find? p = none

theorem Inv.turn [StdSort] (h : Inv cfg s) {ensureExists : Bool} {txn : Db} {pauses : List DBQuery.Pause}
    {s' : QueryScheduler} {ran : Option Ran} {p : Nat} {rest : List Nat} (hrun : s.running = p :: rest)
    (hs : s.process ensureExists txn pauses = .ok (s', ran)) : Turn s s' p ran := by
  have herase : ∀ (heap : Assoc Nat DBQuery) p', (heap.erase p).find? p' =
      if p' = p then none else heap.find? p' := fun heap p' => heap.find?_erase p p'
  unfold QueryScheduler.process at hs
  simp only [hrun] at hs
  split at hs
  · cases hs
  rename_i q hq
  split at hs
  · rename_i hdead
    cases hs
    refine ⟨fun p' hp' => ?_, fun _ => ⟨?_, ?_⟩, fun r hr => (by cases hr), fun r hr => (by cases hr),
      fun r hr => (by cases hr)⟩
    · show (s.heap.erase p).find? p' = _
      rw [herase, if_neg hp']
    · rintro ⟨q', hq', hd⟩
      rw [hq] at hq'
      cases hq'
      rw [hdead] at hd
      cases hd
    · show (s.heap.erase p).find? p = none
      rw [herase, if_pos rfl]
  rename_i hdead
  rw [Bool.not_eq_true] at hdead
  split at hs
  · rename_i complete q' out hcall
    obtain ⟨l, hl⟩ := DBQuery.sends_process pauses hcall
    have hset : ∀ p', (s.heap.set p q').find? p' = if p' = p then some q' else s.heap.find? p' := by
      intro p'
      rw [Assoc.find?_set, hq]
      rfl
    have halive : Alive s p := ⟨q, hq, hdead⟩
    split at hs
    · cases hs
      have hname : s.findQuery q'.sub.connId q'.sub.subId = some p := by
        rw [show q'.sub = q.sub from hl.sub]
        exact (h.named _ _ _).mpr ⟨q, hq, hdead, rfl⟩
      have hheap : (({ conns := s.conns, heap := s.heap.set p q', running := p :: rest } :
          QueryScheduler).removeSub q'.sub.connId q'.sub.subId).heap = kill (s.heap.set p q') p := by
        unfold QueryScheduler.removeSub
        rw [show ({ conns := s.conns, heap := s.heap.set p q', running := p :: rest } :
          QueryScheduler).findQuery q'.sub.connId q'.sub.subId = some p from hname]
      refine ⟨fun p' hp' => ?_, fun hr => (by cases hr), fun _ _ => halive, fun r hr ht => ?_, fun r hr _ => ?_⟩
      · show (Assoc.erase _ p).find? p' = _
        rw [herase, if_neg hp', hheap, find?_kill, hset, if_neg hp']
        simp [hp']
      · cases hr
        cases ht
      · show (Assoc.erase _ p).find? p = none
        rw [herase, if_pos rfl]
    · cases hs
      refine ⟨fun p' hp' => ?_, fun hr => (by cases hr), fun _ _ => halive, fun r hr _ => ?_, fun r hr ht => ?_⟩
      · show (s.heap.set p q').find? p' = _
        rw [hset, if_neg hp']
      · refine ⟨q', ?_, hl.dead.trans hdead⟩
        show (s.heap.set p q').find? p = some q'
        rw [hset, if_pos rfl]
      · cases hr
        cases ht
  · cases hs

/-! ## Histories -/

namespace QueryEvent

/-- The query that an event ends. -/
def ended : QueryEvent → Option Nat
  | .retired n => some n
  | .completed n _ => some n
  | _ => none

/-- The query that a callback is for. -/
def calledFor : QueryEvent → Option Nat
  | .called n _ => some n
  | .completed n _ => some n
  | _ => none

def query : QueryEvent → Nat
  | .retired n => n
  | .called n _ => n
  | .completed n _ => n
  | .freed n => n

/-- `onComplete` of a query. -/
def completes (e : QueryEvent) (n : Nat) : Bool :=
  match e with
  | .completed m _ => m = n
  | _ => false

theorem query_of_ended {e : QueryEvent} {n : Nat} (h : e.ended = some n) : e.query = n := by
  cases e with
  | retired m => exact Option.some.inj h
  | called m l => cases h
  | completed m t => exact Option.some.inj h
  | freed m => cases h

theorem query_of_calledFor {e : QueryEvent} {n : Nat} (h : e.calledFor = some n) : e.query = n := by
  cases e with
  | retired m => cases h
  | called m l => exact Option.some.inj h
  | completed m t => exact Option.some.inj h
  | freed m => cases h

/-- Nothing is called back for a query once it has ended. -/
def Silent (history : List QueryEvent) : Prop :=
  history.Pairwise fun e e' => ∀ n, e.ended = some n → e'.calledFor ≠ some n

end QueryEvent

open QueryEvent

structure RunInv (cfg : Cfg) (r : Run) : Prop where
  inv : Inv cfg r.scheduler
  lt : ∀ p, (r.scheduler.heap.find? p).isSome → r.number p < r.allocated
  inj : ∀ p p', (r.scheduler.heap.find? p).isSome → (r.scheduler.heap.find? p').isSome →
    r.number p = r.number p' → p = p'
  known : ∀ e ∈ r.history, e.query < r.allocated
  unfreed : ∀ p, (r.scheduler.heap.find? p).isSome → r.history.count (.freed (r.number p)) = 0
  freed : ∀ n, n < r.allocated → (∀ p, (r.scheduler.heap.find? p).isSome → r.number p ≠ n) →
    r.history.count (.freed n) = 1
  alive : ∀ p, Alive r.scheduler p → ∀ e ∈ r.history, e.ended ≠ some (r.number p)
  silent : Silent r.history

theorem RunInv.init (cfg : Cfg) : RunInv cfg {} where
  inv := Inv.empty cfg
  lt p h := by cases h
  inj p p' h := by cases h
  known e he := by cases he
  unfreed p h := by cases h
  freed n hn := absurd hn (Nat.not_lt_zero n)
  alive p h := by cases h.isSome
  silent := .nil

/-- Queries are taken away. -/
theorem RunInv.retire {r : Run} (h : RunInv cfg r) {s' : QueryScheduler} (hinv : Inv cfg s')
    (hsome : ∀ p, (s'.heap.find? p).isSome = (r.scheduler.heap.find? p).isSome)
    (halive : ∀ p, Alive s' p → Alive r.scheduler p) (taken : Subscription → Bool)
    (htaken : ∀ p q, r.scheduler.heap.find? p = some q → taken q.sub → ¬ Alive s' p) :
    RunInv cfg { r with scheduler := s', history := r.history ++ r.retire taken } := by
  have hnew : ∀ e ∈ r.retire taken, ∃ p, (r.scheduler.heap.find? p).isSome ∧ ¬ Alive s' p ∧
      e = .retired (r.number p) := by
    intro e he
    obtain ⟨p, hp, rfl⟩ := List.mem_map.mp he
    obtain ⟨-, hp⟩ := List.mem_filter.mp hp
    obtain ⟨q, hq, ht⟩ := (Option.any_eq_true _ _).mp hp
    exact ⟨p, by rw [hq]; rfl, htaken p q hq ht, rfl⟩
  have hcount : ∀ n, (r.retire taken).count (.freed n) = 0 := by
    intro n
    refine List.count_eq_zero.mpr fun hin => ?_
    obtain ⟨p, -, -, he⟩ := hnew _ hin
    cases he
  refine ⟨hinv, fun p hp => ?_, fun p p' hp hp' => ?_, fun e he => ?_, fun p hp => ?_, fun n hn hno => ?_,
    fun p hp e he => ?_, ?_⟩
  · exact h.lt p (hsome p ▸ hp)
  · exact h.inj p p' (hsome p ▸ hp) (hsome p' ▸ hp')
  · rcases List.mem_append.mp he with he | he
    · exact h.known e he
    · obtain ⟨p, hp, -, rfl⟩ := hnew e he
      exact h.lt p hp
  · show (r.history ++ r.retire taken).count _ = 0
    rw [List.count_append, hcount]
    exact h.unfreed p (hsome p ▸ hp)
  · show (r.history ++ r.retire taken).count _ = 1
    rw [List.count_append, hcount]
    exact h.freed n hn fun p hp => hno p ((hsome p).symm ▸ hp)
  · rcases List.mem_append.mp he with he | he
    · exact h.alive p (halive p hp) e he
    · obtain ⟨p', hp', hgone, rfl⟩ := hnew e he
      intro heq
      have hpp := h.inj p' p hp' (halive p hp).isSome (Option.some.inj heq)
      exact hgone (hpp ▸ hp)
  · have hcall : ∀ e ∈ r.retire taken, ∀ n, e.calledFor ≠ some n := by
      intro e he n hc
      obtain ⟨p, -, -, rfl⟩ := hnew e he
      cases hc
    refine List.pairwise_append.mpr ⟨h.silent, ?_, fun _ _ e' he' n _ => hcall e' he' n⟩
    exact List.Pairwise.imp_of_mem (fun _ he' _ n _ => hcall _ he' n) (List.pairwise_of_forall fun _ _ => trivial)

/-- A query is allocated at a free address. -/
theorem RunInv.allocate {r : Run} (h : RunInv cfg r) {s' : QueryScheduler} (hinv : Inv cfg s') {p : Nat}
    (hfree : r.scheduler.heap.find? p = none)
    (hsome : ∀ p', (s'.heap.find? p').isSome ↔ (r.scheduler.heap.find? p').isSome ∨ p' = p)
    (halive : ∀ p', Alive s' p' → Alive r.scheduler p' ∨ p' = p) :
    RunInv cfg { r with
      scheduler := s'
      number := Function.update r.number p r.allocated
      allocated := r.allocated + 1 } := by
  have hnum : ∀ p', (r.scheduler.heap.find? p').isSome →
      Function.update r.number p r.allocated p' = r.number p' := by
    intro p' hp'
    refine Function.update_of_ne ?_ _ _
    rintro rfl
    rw [hfree] at hp'
    cases hp'
  have hself : Function.update r.number p r.allocated p = r.allocated := Function.update_self _ _ _
  have hold : ∀ e ∈ r.history, e.query ≠ r.allocated := fun e he => Nat.ne_of_lt (h.known e he)
  refine ⟨hinv, fun p' hp' => ?_, fun p1 p2 h1 h2 heq => ?_, fun e he => Nat.lt_succ_of_lt (h.known e he),
    fun p' hp' => ?_, fun n hn hno => ?_, fun p' hp' e he => ?_, h.silent⟩
  · show Function.update r.number p r.allocated p' < r.allocated + 1
    rcases (hsome p').mp hp' with hp' | rfl
    · rw [hnum p' hp']
      exact Nat.lt_succ_of_lt (h.lt p' hp')
    · rw [hself]
      exact Nat.lt_succ_self _
  · replace heq : Function.update r.number p r.allocated p1 = Function.update r.number p r.allocated p2 := heq
    rcases (hsome p1).mp h1 with hold1 | rfl
    · rcases (hsome p2).mp h2 with hold2 | rfl
      · rw [hnum p1 hold1, hnum p2 hold2] at heq
        exact h.inj p1 p2 hold1 hold2 heq
      · rw [hnum p1 hold1, hself] at heq
        exact absurd heq (Nat.ne_of_lt (h.lt p1 hold1))
    · rcases (hsome p2).mp h2 with hold2 | rfl
      · rw [hnum p2 hold2, hself] at heq
        exact absurd heq.symm (Nat.ne_of_lt (h.lt p2 hold2))
      · rfl
  · show r.history.count (.freed (Function.update r.number p r.allocated p')) = 0
    rcases (hsome p').mp hp' with hp' | rfl
    · rw [hnum p' hp']
      exact h.unfreed p' hp'
    · rw [hself]
      exact List.count_eq_zero.mpr fun hin => hold _ hin rfl
  · have hne : n ≠ r.allocated := by
      rintro rfl
      exact hno p ((hsome p).mpr (Or.inr rfl)) hself
    have hn : n < r.allocated + 1 := hn
    refine h.freed n (by omega) fun p' hp' he => hno p' ((hsome p').mpr (Or.inl hp')) ?_
    exact (hnum p' hp').trans he
  · show e.ended ≠ some (Function.update r.number p r.allocated p')
    rcases halive p' hp' with hp' | rfl
    · rw [hnum p' hp'.isSome]
      exact h.alive p' hp' e he
    · rw [hself]
      exact fun hend => hold e he (query_of_ended hend)

/-- The query at the front has its turn. -/
theorem RunInv.advance {r : Run} (h : RunInv cfg r) {s' : QueryScheduler} (hinv : Inv cfg s') {p : Nat}
    (hp : (r.scheduler.heap.find? p).isSome) {ran : Option Ran} (ht : Turn r.scheduler s' p ran)
    (new : List QueryEvent) (hquery : ∀ e ∈ new, e.query = r.number p)
    (hcalls : (∃ e ∈ new, e.calledFor.isSome) → Alive r.scheduler p)
    (hsilent : Silent new) (hfreed : new.count (.freed (r.number p)) = if (s'.heap.find? p).isSome then 0 else 1)
    (hends : (∃ e ∈ new, e.ended.isSome) → ¬ Alive s' p) :
    RunInv cfg { r with scheduler := s', history := r.history ++ new } := by
  have hsome : ∀ p', p' ≠ p → (s'.heap.find? p').isSome = (r.scheduler.heap.find? p').isSome :=
    fun p' hne => congrArg Option.isSome (ht.others p' hne)
  have hback : ∀ p', (s'.heap.find? p').isSome → (r.scheduler.heap.find? p').isSome := by
    intro p' hp'
    by_cases hpp : p' = p
    · rw [hpp]
      exact hp
    · rw [← hsome p' hpp]
      exact hp'
  have hother : ∀ n, n ≠ r.number p → new.count (.freed n) = 0 :=
    fun n hne => List.count_eq_zero.mpr fun hin => hne (hquery _ hin)
  have halive : ∀ p', p' ≠ p → Alive s' p' → Alive r.scheduler p' := by
    rintro p' hne ⟨q, hq, hd⟩
    exact ⟨q, ht.others p' hne ▸ hq, hd⟩
  refine ⟨hinv, fun p' hp' => h.lt p' (hback p' hp'), fun p1 p2 h1 h2 => h.inj p1 p2 (hback p1 h1) (hback p2 h2),
    fun e he => ?_, fun p' hp' => ?_, fun n hn hno => ?_, fun p' hp' e he => ?_, ?_⟩
  · rcases List.mem_append.mp he with he | he
    · exact h.known e he
    · rw [hquery e he]
      exact h.lt p hp
  · show (r.history ++ new).count _ = 0
    rw [List.count_append, h.unfreed p' (hback p' hp')]
    by_cases hpp : p' = p
    · subst hpp
      rw [hfreed, if_pos hp']
    · rw [hother]
      exact fun heq => hpp (h.inj p' p (hback p' hp') hp heq)
  · show (r.history ++ new).count _ = 1
    rw [List.count_append]
    by_cases hpn : n = r.number p
    · subst hpn
      have hgone : ¬ (s'.heap.find? p).isSome := fun hp' => hno p hp' rfl
      rw [h.unfreed p hp, hfreed, if_neg hgone]
    · rw [hother n hpn, h.freed n hn fun p' hp' heq => ?_]
      have hpp : p' ≠ p := by
        rintro rfl
        exact hpn heq.symm
      exact hno p' (by rw [hsome p' hpp]; exact hp') heq
  · show e.ended ≠ some (r.number p')
    by_cases hpp : p' = p
    · subst hpp
      rcases List.mem_append.mp he with he | he
      · by_cases hold : Alive r.scheduler p'
        · exact h.alive p' hold e he
        · -- a dead query does not come back to life
          cases hr : ran with
          | none =>
            have hgone := hp'.isSome
            rw [(ht.dead hr).2] at hgone
            cases hgone
          | some ran => exact absurd (ht.called ran hr) hold
      · intro hend
        exact hends ⟨e, he, by rw [hend]; rfl⟩ hp'
    · rcases List.mem_append.mp he with he | he
      · exact h.alive p' (halive p' hpp hp') e he
      · intro hend
        have hq := query_of_ended hend
        rw [hquery e he] at hq
        exact hpp (h.inj p p' hp (hback p' hp'.isSome) hq).symm
  · refine List.pairwise_append.mpr ⟨h.silent, hsilent, fun e he e' he' n hend hcall => ?_⟩
    have hq := query_of_calledFor hcall
    rw [hquery e' he'] at hq
    refine h.alive p (hcalls ⟨e', he', by rw [hcall]; rfl⟩) e he ?_
    rw [hend, hq]

/-! ## Calls -/

theorem RunInv.removeSub {r : Run} (h : RunInv cfg r) (connId : Nat) (subId : SubId) :
    RunInv cfg { r with
      scheduler := r.scheduler.removeSub connId subId
      history := r.history ++ r.retire fun sub => sub.key = (connId, subId) } := by
  obtain ⟨hinv, -, hsome⟩ := h.inv.removeSub connId subId
  have halive := alive_removeSub r.scheduler connId subId
  refine h.retire hinv hsome (fun p hp => ((halive p).mp hp).1) _ fun p q hq hkey hp => ?_
  obtain ⟨⟨q', hq', hd⟩, hno⟩ := (halive p).mp hp
  rw [hq] at hq'
  cases hq'
  exact hno ((h.inv.named connId subId p).mpr ⟨q, hq, hd, of_decide_eq_true hkey⟩)

theorem RunInv.closeConn {r : Run} (h : RunInv cfg r) (connId : Nat) :
    RunInv cfg { r with
      scheduler := r.scheduler.closeConn connId
      history := r.history ++ r.retire fun sub => sub.connId = connId } := by
  have halive := fun p => (alive_closeConn r.scheduler connId p).1
  refine h.retire (h.inv.closeConn connId).1 (fun p => (alive_closeConn r.scheduler connId p).2)
    (fun p hp => ((halive p).mp hp).1) _ fun p q hq hconn hp => ?_
  obtain ⟨⟨q', hq', hd⟩, hno⟩ := (halive p).mp hp
  rw [hq] at hq'
  cases hq'
  refine hno q.sub.subId ((h.inv.named connId q.sub.subId p).mpr ⟨q, hq, hd, ?_⟩)
  rw [← of_decide_eq_true hconn]
  rfl

theorem RunInv.addSub {r : Run} (h : RunInv cfg r) {txn : Db} {sub : Subscription} {p : Nat} {added : Bool}
    {s' : QueryScheduler} (hp : r.scheduler.heap.find? p = none)
    (ha : r.scheduler.addSub cfg txn sub p = (added, s')) :
    RunInv cfg { r with
      scheduler := s'
      number := if added then Function.update r.number p r.allocated else r.number
      allocated := if added then r.allocated + 1 else r.allocated
      history := r.history ++ r.retire fun sub' => sub'.key = sub.key } := by
  -- the query of the id goes first
  have h1 := h.removeSub sub.connId sub.subId
  obtain ⟨hinv, -⟩ := h.inv.addSub txn sub p hp ha
  have halive := h.inv.addSub_alive hp ha
  have hsome1 := (h.inv.removeSub sub.connId sub.subId).2.2
  have halive1 := alive_removeSub r.scheduler sub.connId sub.subId
  cases added with
  | false =>
    have hold : ∀ p', Alive s' p' → Alive (r.scheduler.removeSub sub.connId sub.subId) p' := by
      intro p' hp'
      rw [halive1]
      rcases (halive p').1.mp hp' with hold | ⟨hf, -⟩
      · exact hold
      · cases hf
    have h2 := h1.retire hinv (fun p' => by rw [Bool.eq_iff_iff, hsome1, (halive p').2]; simp) hold
      (fun _ => false) (fun _ _ _ ht => by cases ht)
    have hnil : Run.retire { r with
        scheduler := r.scheduler.removeSub sub.connId sub.subId
        history := r.history ++ r.retire fun sub' => sub'.key = sub.key } (fun _ => false) = [] := by
      unfold Run.retire
      simp
    rw [show (fun s : Subscription => decide (s.key = (sub.connId, sub.subId))) =
      fun s => decide (s.key = sub.key) from rfl, hnil, List.append_nil] at h2
    exact h2
  | true =>
    refine h1.allocate hinv (p := p) ?_ (fun p' => ?_) fun p' hp' => ?_
    · rw [← Option.isNone_iff_eq_none, ← Option.not_isSome, hsome1, hp]
      rfl
    · show _ ↔ ((r.scheduler.removeSub sub.connId sub.subId).heap.find? p').isSome ∨ _
      rw [hsome1, (halive p').2]
      simp
    · rcases (halive p').1.mp hp' with hold | ⟨-, hpp⟩
      · exact Or.inl ((halive1 p').mpr hold)
      · exact Or.inr hpp

theorem RunInv.process [StdSort] {r : Run} (h : RunInv cfg r) {ensureExists : Bool} {txn : Db}
    {pauses : List DBQuery.Pause} {s' : QueryScheduler} {ran : Option Ran}
    (hs : r.scheduler.process ensureExists txn pauses = .ok (s', ran)) :
    RunInv cfg { r with scheduler := s', history := r.history ++ r.processed ran } := by
  have hinv := (h.inv.process hs).1
  cases hrun : r.scheduler.running with
  | nil =>
    unfold QueryScheduler.process at hs
    simp only [hrun] at hs
    cases hs
    unfold Run.processed
    simp only [hrun, List.append_nil]
    exact h
  | cons p rest =>
    have ht := h.inv.turn hrun hs
    have hp : (r.scheduler.heap.find? p).isSome := (h.inv.queued p).mp (by rw [hrun]; exact List.mem_cons_self)
    unfold Run.processed
    simp only [hrun]
    cases ran with
    | none =>
      refine h.advance hinv hp ht _ (fun e he => ?_) (fun ⟨e, he, hc⟩ => ?_) ?_ ?_ (fun ⟨e, he, hc⟩ => ?_)
      · rw [List.mem_singleton.mp he]
        rfl
      · rw [List.mem_singleton.mp he] at hc
        cases hc
      · exact List.pairwise_singleton _ _
      · rw [(ht.dead rfl).2]
        simp
      · rw [List.mem_singleton.mp he] at hc
        cases hc
    | some ran =>
      obtain ⟨sub, levIds, total⟩ := ran
      cases total with
      | none =>
        refine h.advance hinv hp ht _ (fun e he => ?_) (fun _ => ht.called _ rfl) ?_ ?_ (fun ⟨e, he, hc⟩ => ?_)
        · rw [List.mem_singleton.mp he]
          rfl
        · exact List.pairwise_singleton _ _
        · rw [if_pos (ht.going _ rfl rfl).isSome]
          simp
        · rw [List.mem_singleton.mp he] at hc
          cases hc
      | some total =>
        have hgone := ht.complete _ rfl rfl
        refine h.advance hinv hp ht _ (fun e he => ?_) (fun _ => ht.called _ rfl) ?_ ?_ (fun _ ha => ?_)
        · simp only [List.mem_cons, List.not_mem_nil, or_false] at he
          rcases he with rfl | rfl | rfl <;> rfl
        · simp [Silent, ended, calledFor]
        · rw [hgone]
          simp
        · have := ha.isSome
          rw [hgone] at this
          cases this

/-- One call. -/
theorem RunInv.call [StdSort] {r r' : Run} (h : RunInv cfg r) (hc : Call cfg r r') : RunInv cfg r' := by
  cases hc with
  | addSub txn sub p added s hp ha => exact h.addSub hp ha
  | removeSub connId subId => exact h.removeSub connId subId
  | closeConn connId => exact h.closeConn connId
  | process ensureExists txn pauses s ran hs => exact h.process hs

theorem Reached.inv [StdSort] {r : Run} (h : Reached cfg r) : RunInv cfg r := by
  induction h with
  | init => exact RunInv.init cfg
  | call _ hc ih => exact ih.call hc

theorem completes_eq {e : QueryEvent} {n : Nat} (h : e.completes n) :
    e.ended = some n ∧ e.calledFor = some n := by
  cases e with
  | completed m total =>
    have hm : m = n := of_decide_eq_true h
    rw [hm]
    exact ⟨rfl, rfl⟩
  | retired m => cases h
  | called m levIds => cases h
  | freed m => cases h

/-- A second `onComplete` would be a callback after the first. -/
theorem completed_once {history : List QueryEvent} (h : Silent history) (n : Nat) :
    history.countP (completes · n) ≤ 1 := by
  rw [List.countP_eq_length_filter]
  have hpair := List.Pairwise.sublist (List.filter_sublist (p := (completes · n))) h
  have hmem : ∀ e ∈ history.filter (completes · n), e.completes n := fun e he => (List.mem_filter.mp he).2
  generalize history.filter (completes · n) = l at hpair hmem
  match l with
  | [] => exact Nat.zero_le _
  | [_] => exact Nat.le_refl _
  | e :: e' :: rest =>
    have hno := (List.pairwise_cons.mp hpair).1 e' List.mem_cons_self n (completes_eq (hmem e List.mem_cons_self)).1
    exact absurd (completes_eq (hmem e' (List.mem_cons_of_mem _ List.mem_cons_self))).2 hno

/-- **The books of the scheduler, after any calls.**  The queue holds each query allocated and not
freed once, and a query that is not in it was freed once; `conns` names the live queries of the
queue by their ids; no connection has too many; a query is complete at most once; and a query
removed, replaced, closed or complete is not called back for again. -/
theorem scheduler_bookkeeping [StdSort] (cfg : Cfg) (r : Run) (h : Reached cfg r) :
    (r.scheduler.running.map r.number).Nodup ∧
    (∀ n, n ∈ r.scheduler.running.map r.number ↔ n < r.allocated ∧ r.history.count (.freed n) = 0) ∧
    (∀ n, n < r.allocated → n ∉ r.scheduler.running.map r.number → r.history.count (.freed n) = 1) ∧
    (∀ c i p, r.scheduler.findQuery c i = some p ↔ p ∈ r.scheduler.running ∧
      ∃ q, r.scheduler.heap.find? p = some q ∧ q.dead = false ∧ q.sub.key = (c, i)) ∧
    (∀ c, (Nested.row r.scheduler.conns c).size ≤ cfg.relayMaxSubsPerConnection) ∧
    (∀ n, r.history.countP (completes · n) ≤ 1) ∧
    Silent r.history := by
  have hi := h.inv
  have hqueued : ∀ p, p ∈ r.scheduler.running ↔ (r.scheduler.heap.find? p).isSome := hi.inv.queued
  have hgone : ∀ n, n < r.allocated → n ∉ r.scheduler.running.map r.number → r.history.count (.freed n) = 1 :=
    fun n hn hno => hi.freed n hn fun p hp he => hno (List.mem_map.mpr ⟨p, (hqueued p).mpr hp, he⟩)
  refine ⟨?_, fun n => ⟨?_, ?_⟩, hgone, fun c i p => ?_, hi.inv.sizes, completed_once hi.silent, hi.silent⟩
  · exact List.Nodup.map_on
      (fun p hp p' hp' he => hi.inj p p' ((hqueued p).mp hp) ((hqueued p').mp hp') he) hi.inv.nodup
  · intro hn
    obtain ⟨p, hp, rfl⟩ := List.mem_map.mp hn
    exact ⟨hi.lt p ((hqueued p).mp hp), hi.unfreed p ((hqueued p).mp hp)⟩
  · rintro ⟨hn, hcount⟩
    by_contra hno
    have := hgone n hn hno
    omega
  · rw [hi.inv.named]
    constructor
    · rintro ⟨q, hq, hd, hk⟩
      exact ⟨(hqueued p).mpr (by rw [hq]; rfl), q, hq, hd, hk⟩
    · rintro ⟨-, h⟩
      exact h

end

/-- A subscription `a` of connection 1, to anything. -/
def subA : Subscription where
  connId := 1
  subId := ⟨ascii "a", by decide, by decide⟩
  filterGroup := { filters := [] }

/-- It is opened, closed, and freed when its turn comes. -/
theorem scheduler_bookkeeping_closed : let _ : StdSort := StdSort.insertion
    ∃ r : Run, Reached {} r ∧ r.history = [.retired 0, .freed 0] ∧ r.scheduler.running = [] ∧
      (∀ n, n < r.allocated → n ∉ r.scheduler.running.map r.number → r.history.count (.freed n) = 1) := by
  let _ : StdSort := StdSort.insertion
  let p1 : QueryScheduler := { conns := Nested.emplaceAt .empty 1 subA.subId 0
                               heap := Assoc.tryEmplace .empty 0 { sub := begun {} subA }
                               running := [0] }
  have h1 : Reached {} _ := .call .init (.addSub {} subA 0 true p1 rfl rfl)
  have h2 : Reached {} _ := .call h1 (.removeSub 1 subA.subId)
  have h3 : Reached {} _ := .call h2 (.process false {} [] {} none rfl)
  exact ⟨_, h3, rfl, rfl, (scheduler_bookkeeping {} _ h3).2.2.1⟩

end QueryScheduler

end Strfry
