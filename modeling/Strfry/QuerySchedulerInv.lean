import Strfry.QueryScheduler

/-!
# What the scheduler keeps

One call of a query, on any database, only appends to what was sent: new events, none of
them twice, none after the query began (`DBQuery.Sends`).

The scheduler's invariant `QueryScheduler.Inv` says that the queue and the heap hold the
same queries and that `conns` names exactly the live ones.  The operations are then
described by `live`, the live query of an id.
-/

namespace Strfry

namespace DBQuery

/-- What calls of `process` do to a query, whatever the database. -/
structure Sends (st st' : State) (l : List Nat) : Prop where
  sub : st'.1.sub = st.1.sub
  dead : st'.1.dead = st.1.dead
  sent : sent st'.2 = sent st.2 ++ l
  nodup : l.Nodup
  fresh : ∀ x ∈ l, x ∉ st.1.sentEventsFull
  began : ∀ x ∈ l, x ≤ st.1.sub.latestEventId
  full : ∀ x, x ∈ st'.1.sentEventsFull ↔ x ∈ st.1.sentEventsFull ∨ x ∈ l

/-- A change of the rest of the query. -/
theorem Sends.of_eq {st st' : State} (hsub : st'.1.sub = st.1.sub) (hdead : st'.1.dead = st.1.dead)
    (hfull : st'.1.sentEventsFull = st.1.sentEventsFull)
    (hout : DBQuery.sent st'.2 = DBQuery.sent st.2) : Sends st st' [] where
  sub := hsub
  dead := hdead
  sent := by rw [hout, List.append_nil]
  nodup := .nil
  fresh x hx := by cases hx
  began x hx := by cases hx
  full x := by simp [hfull]

theorem Sends.trans {st st' st'' : State} {l l' : List Nat} (h : Sends st st' l) (h' : Sends st' st'' l') :
    Sends st st'' (l ++ l') where
  sub := h'.sub.trans h.sub
  dead := h'.dead.trans h.dead
  sent := by rw [h'.sent, h.sent, List.append_assoc]
  nodup := List.nodup_append.mpr ⟨h.nodup, h'.nodup, fun a ha b hb hab =>
    h'.fresh b hb ((h.full b).mpr (Or.inr (hab ▸ ha)))⟩
  fresh x hx := by
    rcases List.mem_append.mp hx with hx | hx
    · exact h.fresh x hx
    · exact fun hin => h'.fresh x hx ((h.full x).mpr (Or.inl hin))
  began x hx := by
    rcases List.mem_append.mp hx with hx | hx
    · exact h.began x hx
    · rw [← h.sub]
      exact h'.began x hx
  full x := by
    rw [h'.full, h.full, List.mem_append, or_assoc]

theorem sends_handleEvent (f : NostrFilter) (levId : Nat) (st : State) :
    ∃ l, Sends st (handleEvent f levId st).2 l := by
  have hcalled : DBQuery.sent (st.2 ++ [.handleEvent st.1.filterGroupIndex levId]) = DBQuery.sent st.2 := by
    simp [DBQuery.sent]
  unfold handleEvent
  simp only []
  split
  · exact ⟨[], .of_eq rfl rfl rfl hcalled⟩
  split
  · exact ⟨[], .of_eq rfl rfl rfl hcalled⟩
  · rename_i hle
    unfold send
    split
    · exact ⟨[], .of_eq rfl rfl rfl hcalled⟩
    · rename_i hnew
      refine ⟨[levId], rfl, rfl, ?_, by simp, by simpa using hnew, ?_, fun x => ?_⟩
      · show DBQuery.sent ((st.2 ++ [.handleEvent st.1.filterGroupIndex levId]) ++ [.cb levId]) = _
        simp [DBQuery.sent]
      · intro x hx
        rw [List.mem_singleton.mp hx]
        exact Nat.le_of_not_lt hle
      · show x ∈ insert levId st.1.sentEventsFull ↔ _
        rw [Finset.mem_insert, List.mem_singleton, or_comm]

theorem sends_doPause (pause : Pause) (w : Nat) (st : State) : Sends st (doPause pause w st).2 [] :=
  .of_eq rfl rfl rfl rfl

/-- The caller's state after a turn of the scan's loop. -/
def stateOf : DBScan.ScanStep State → Option State
  | .again _ st => some st
  | .returned _ _ st => some st
  | .undefined => none

theorem sends_scanStep [StdSort] {txn : Db} {f : NostrFilter} {pause : Pause} {s : DBScan} {st st' : State}
    (h : stateOf (s.scanStep txn (handleEvent f) (doPause pause) st) = some st') :
    ∃ l, Sends st st' l := by
  have hofOption : ∀ (o : Option DBScan) (st1 : State),
      stateOf (.ofOption st1 o) = some st' → st1 = st' := by
    intro o st1 h
    cases o with
    | none => cases h
    | some s => exact Option.some.inj h
  have hpause := sends_doPause pause (s.approxWork + 1) st
  unfold DBScan.scanStep at h
  simp only [] at h
  split at h
  · cases h
    exact ⟨[], hpause⟩
  split at h
  · rw [← hofOption _ _ h]
    exact ⟨[], hpause⟩
  split at h
  · cases h
    exact ⟨[], hpause⟩
  · rename_i ev rest _
    obtain ⟨l, hl⟩ := sends_handleEvent f ev.levId (doPause pause (s.approxWork + 1) st).2
    split at h
    · split at h
      · cases h
        exact ⟨_, hpause.trans hl⟩
      · rw [← hofOption _ _ h]
        exact ⟨_, hpause.trans hl⟩
    · rw [if_neg Bool.false_ne_true] at h
      rw [← hofOption _ _ h]
      exact ⟨[], hpause⟩

/-- **One call of `process`** only appends to what was sent. -/
theorem sends_process [StdSort] {txn : Db} (pauses : List Pause) {st st' : State} {complete : Bool}
    (h : process txn pauses st = .returned complete st') : ∃ l, Sends st st' l := by
  induction pauses generalizing st with
  | nil =>
    unfold process at h
    split at h
    · cases h
      exact ⟨[], .of_eq rfl rfl rfl rfl⟩
    · cases h
  | cons pause pauses ih =>
    unfold process at h
    split at h
    · cases h
      exact ⟨[], .of_eq rfl rfl rfl rfl⟩
    · rename_i f _
      simp only [] at h
      split at h
      · cases h
      · rename_i s st1 hstep
        obtain ⟨l1, h1⟩ := sends_scanStep (by rw [hstep]; rfl)
        obtain ⟨l2, h2⟩ := ih h
        refine ⟨l1 ++ ([] ++ l2), h1.trans (Sends.trans ?_ h2)⟩
        exact .of_eq rfl rfl rfl rfl
      · rename_i s st1 hstep
        obtain ⟨l1, h1⟩ := sends_scanStep (by rw [hstep]; rfl)
        cases h
        refine ⟨l1 ++ [], h1.trans ?_⟩
        exact .of_eq rfl rfl rfl rfl
      · rename_i s st1 hstep
        obtain ⟨l1, h1⟩ := sends_scanStep (by rw [hstep]; rfl)
        obtain ⟨l2, h2⟩ := ih h
        refine ⟨l1 ++ ([] ++ l2), h1.trans (Sends.trans ?_ h2)⟩
        exact .of_eq rfl rfl rfl rfl

end DBQuery

namespace QueryScheduler

structure Inv (cfg : Cfg) (s : QueryScheduler) : Prop where
  nodup : s.running.Nodup
  queued : ∀ p, p ∈ s.running ↔ (s.heap.find? p).isSome = true
  named : ∀ c i p, s.findQuery c i = some p ↔
    ∃ q, s.heap.find? p = some q ∧ q.dead = false ∧ q.sub.key = (c, i)
  sizes : ∀ c, (Nested.row s.conns c).size ≤ cfg.relayMaxSubsPerConnection

/-- The live query of an id. -/
def live (s : QueryScheduler) (c : Nat) (i : SubId) : Option DBQuery :=
  (s.findQuery c i).bind s.heap.find?

theorem Inv.empty (cfg : Cfg) : Inv cfg {} where
  nodup := .nil
  queued p := by simp
  named c i p := by
    constructor
    · intro h
      cases h
    · rintro ⟨q, hq, -⟩
      cases hq
  sizes c := Nat.zero_le _

section
variable {cfg : Cfg} {s : QueryScheduler}

theorem Inv.live_eq (h : Inv cfg s) {c : Nat} {i : SubId} {q : DBQuery} :
    s.live c i = some q ↔ ∃ p, s.heap.find? p = some q ∧ q.dead = false ∧ q.sub.key = (c, i) := by
  unfold live
  rw [Option.bind_eq_some_iff]
  constructor
  · rintro ⟨p, hp, hq⟩
    obtain ⟨q', hq', hd, hk⟩ := (h.named c i p).mp hp
    rw [hq] at hq'
    cases hq'
    exact ⟨p, hq, hd, hk⟩
  · rintro ⟨p, hq, hd, hk⟩
    exact ⟨p, (h.named c i p).mpr ⟨q, hq, hd, hk⟩, hq⟩

theorem find?_kill (heap : Assoc Nat DBQuery) (p p' : Nat) : (kill heap p).find? p' =
    (heap.find? p').map fun q => if p' = p then { q with dead := true } else q := by
  unfold kill
  cases hp : heap.find? p with
  | none =>
    by_cases he : p' = p
    · rw [he, hp]
      rfl
    · simp [he]
  | some q =>
    simp only [Assoc.find?_set, hp]
    by_cases he : p' = p
    · simp [he, hp]
    · simp [he]

theorem isSome_find?_kill (heap : Assoc Nat DBQuery) (p p' : Nat) :
    ((kill heap p).find? p').isSome = (heap.find? p').isSome := by
  rw [find?_kill, Option.isSome_map]

/-- The state once the queries `D` are dead and their names gone. -/
theorem Inv.drop (h : Inv cfg s) {s' : QueryScheduler} (D : Nat → Prop) [DecidablePred D]
    (hrun : s'.running = s.running)
    (hheap : ∀ p, s'.heap.find? p = (s.heap.find? p).map fun q => if D p then { q with dead := true } else q)
    (hfind : ∀ c i p, s'.findQuery c i = some p ↔ s.findQuery c i = some p ∧ ¬ D p)
    (hsizes : ∀ c, (Nested.row s'.conns c).size ≤ (Nested.row s.conns c).size) : Inv cfg s' := by
  refine ⟨by rw [hrun]; exact h.nodup, fun p => ?_, fun c i p => ?_, fun c => (hsizes c).trans (h.sizes c)⟩
  · rw [hrun, h.queued, hheap, Option.isSome_map]
  · rw [hfind, h.named, hheap]
    constructor
    · rintro ⟨⟨q, hq, hd, hk⟩, hD⟩
      exact ⟨q, by rw [hq, Option.map_some, if_neg hD], hd, hk⟩
    · rintro ⟨q', hq', hd, hk⟩
      obtain ⟨q, hq, rfl⟩ := Option.map_eq_some_iff.mp hq'
      by_cases hD : D p
      · rw [if_pos hD] at hd
        cases hd
      · rw [if_neg hD] at hd hk
        exact ⟨⟨q, hq, hd, hk⟩, hD⟩

/-- `removeSub`: the query of the id is dead. -/
theorem Inv.removeSub (h : Inv cfg s) (c : Nat) (i : SubId) : Inv cfg (s.removeSub c i) ∧
    (∀ c' i', (s.removeSub c i).live c' i' = if c' = c ∧ i' = i then none else s.live c' i') ∧
    ∀ p, ((s.removeSub c i).heap.find? p).isSome = (s.heap.find? p).isSome := by
  unfold QueryScheduler.removeSub
  cases hp : s.findQuery c i with
  | none =>
    refine ⟨h, fun c' i' => ?_, fun _ => rfl⟩
    by_cases hci : c' = c ∧ i' = i
    · rw [if_pos hci]
      show s.live c' i' = none
      unfold live
      rw [hci.1, hci.2, hp]
      rfl
    · rw [if_neg hci]
  | some p =>
    have hfind : ∀ c' i', Nested.find (s.conns.eraseAt c i) c' i' =
        if c' = c ∧ i' = i then none else s.findQuery c' i' := Nested.find_eraseAt s.conns hp
    -- no other id names the query
    have hone : ∀ c' i' p', s.findQuery c' i' = some p' → (¬ (c' = c ∧ i' = i) ↔ p' ≠ p) := by
      intro c' i' p' hp'
      constructor
      · rintro hne rfl
        obtain ⟨q, hq, -, hk⟩ := (h.named c i p').mp hp
        obtain ⟨q', hq', -, hk'⟩ := (h.named c' i' p').mp hp'
        rw [hq] at hq'
        cases hq'
        rw [hk] at hk'
        cases hk'
        exact hne ⟨rfl, rfl⟩
      · rintro hne ⟨rfl, rfl⟩
        rw [hp] at hp'
        exact hne (Option.some.inj hp').symm
    refine ⟨h.drop (fun p' => p' = p) rfl (find?_kill s.heap p) (fun c' i' p' => ?_) (fun c' => ?_),
      fun c' i' => ?_, isSome_find?_kill s.heap p⟩
    · show Nested.find (s.conns.eraseAt c i) c' i' = some p' ↔ _
      rw [hfind]
      constructor
      · intro hf
        split at hf
        · cases hf
        · rename_i hne
          exact ⟨hf, (hone c' i' p' hf).mp hne⟩
      · rintro ⟨hf, hne⟩
        rw [if_neg ((hone c' i' p' hf).mpr hne)]
        exact hf
    · exact Nested.size_row_eraseAt_le s.conns c i c'
    · unfold live
      show (Nested.find (s.conns.eraseAt c i) c' i').bind (kill s.heap p).find? = _
      rw [hfind]
      split
      · rfl
      · rename_i hne
        cases hf : s.findQuery c' i' with
        | none => rfl
        | some p' =>
          have := (hone c' i' p' hf).mp hne
          simp [find?_kill, this]

theorem find?_foldl_kill (l : List (SubId × Nat)) (heap : Assoc Nat DBQuery) (p : Nat) :
    (l.foldl (fun heap e => kill heap e.2) heap).find? p =
      (heap.find? p).map fun q => if p ∈ l.map Prod.snd then { q with dead := true } else q := by
  induction l generalizing heap with
  | nil => simp
  | cons e l ih =>
    rw [List.foldl_cons, ih, find?_kill, Option.map_map]
    cases heap.find? p with
    | none => rfl
    | some q =>
      simp only [Option.map_some, Function.comp_apply, List.map_cons, List.mem_cons]
      by_cases he : p = e.2
      · simp [he]
      · simp only [he, if_false, false_or]

/-- `closeConn`: the queries of the connection are dead. -/
theorem Inv.closeConn (h : Inv cfg s) (c : Nat) : Inv cfg (s.closeConn c) ∧
    ∀ c' i', (s.closeConn c).live c' i' = if c' = c then none else s.live c' i' := by
  unfold QueryScheduler.closeConn
  cases hrow : s.conns.find? c with
  | none =>
    refine ⟨h, fun c' i' => ?_⟩
    by_cases hc : c' = c
    · rw [if_pos hc]
      show s.live c' i' = none
      unfold live findQuery Nested.find
      rw [hc, hrow]
      rfl
    · rw [if_neg hc]
  | some row =>
    have hfind : ∀ c' i', Nested.find (Assoc.erase s.conns c) c' i' =
        if c' = c then none else s.findQuery c' i' := Nested.find_erase s.conns c
    have hmem : ∀ i p, (i, p) ∈ row.entries ↔ s.findQuery c i = some p := by
      intro i p
      unfold findQuery Nested.find
      rw [hrow, ← Assoc.find?_eq_some_iff]
      rfl
    -- a query of another connection is not among them
    have hone : ∀ c' i' p', s.findQuery c' i' = some p' → (c' ≠ c ↔ p' ∉ row.entries.map Prod.snd) := by
      intro c' i' p' hp'
      obtain ⟨q', hq', -, hk'⟩ := (h.named c' i' p').mp hp'
      constructor
      · rintro hne hin
        obtain ⟨⟨i, p⟩, he, rfl⟩ := List.mem_map.mp hin
        obtain ⟨q, hq, -, hk⟩ := (h.named c i p).mp ((hmem i p).mp he)
        rw [hq] at hq'
        cases hq'
        rw [hk] at hk'
        exact hne (congrArg Prod.fst hk').symm
      · rintro hnot rfl
        exact hnot (List.mem_map.mpr ⟨(i', p'), (hmem i' p').mpr hp', rfl⟩)
    refine ⟨h.drop (fun p => p ∈ row.entries.map Prod.snd) rfl (find?_foldl_kill row.entries s.heap)
      (fun c' i' p' => ?_) (fun c' => ?_), fun c' i' => ?_⟩
    · show Nested.find (Assoc.erase s.conns c) c' i' = some p' ↔ _
      rw [hfind]
      constructor
      · intro hf
        split at hf
        · cases hf
        · rename_i hne
          exact ⟨hf, (hone c' i' p' hf).mp hne⟩
      · rintro ⟨hf, hnot⟩
        rw [if_neg ((hone c' i' p' hf).mpr hnot)]
        exact hf
    · show (Nested.row (Assoc.erase s.conns c) c').size ≤ _
      unfold Nested.row
      rw [Assoc.find?_erase]
      split
      · exact Nat.zero_le _
      · exact Nat.le_refl _
    · unfold live
      show (Nested.find (Assoc.erase s.conns c) c' i').bind
        (row.entries.foldl (fun heap e => kill heap e.2) s.heap).find? = _
      rw [hfind]
      split
      · rfl
      · rename_i hne
        cases hf : s.findQuery c' i' with
        | none => rfl
        | some p' =>
          have := (hone c' i' p' hf).mp hne
          simp [find?_foldl_kill, this]

/-- The subscription as `addSub` queues it. -/
def begun (txn : Db) (sub : Subscription) : Subscription :=
  { sub with latestEventId := txn.getMostRecentLevId }

/-- A new query `q` for an id that has none, at an address that is free. -/
theorem Inv.emplace (h : Inv cfg s) {p : Nat} {q : DBQuery} (hp : s.heap.find? p = none) (hdead : q.dead = false)
    (hnone : s.findQuery q.sub.connId q.sub.subId = none)
    (hroom : (Nested.row s.conns q.sub.connId).size < cfg.relayMaxSubsPerConnection) :
    let s' : QueryScheduler := { conns := s.conns.emplaceAt q.sub.connId q.sub.subId p
                                 heap := s.heap.tryEmplace p q
                                 running := p :: s.running }
    Inv cfg s' ∧ ∀ c i, s'.live c i = if c = q.sub.connId ∧ i = q.sub.subId then some q else s.live c i := by
  have hf : ∀ c i, Nested.find (s.conns.emplaceAt q.sub.connId q.sub.subId p) c i =
      if c = q.sub.connId ∧ i = q.sub.subId then some p else s.findQuery c i :=
    Nested.find_emplaceAt s.conns hnone p
  have hheap : ∀ p', (s.heap.tryEmplace p q).find? p' = if p' = p then some q else s.heap.find? p' := by
    intro p'
    rw [Assoc.find?_tryEmplace, hp]
    rfl
  -- no id has the free address
  have hother : ∀ c i p', s.findQuery c i = some p' → p' ≠ p := by
    rintro c i p' hq rfl
    obtain ⟨q', hq', -⟩ := (h.named c i p').mp hq
    rw [hp] at hq'
    cases hq'
  refine ⟨⟨?_, fun p' => ?_, fun c i p' => ?_, fun c => ?_⟩, fun c i => ?_⟩
  · refine List.nodup_cons.mpr ⟨fun hin => ?_, h.nodup⟩
    rw [h.queued, hp] at hin
    cases hin
  · show p' ∈ p :: s.running ↔ ((s.heap.tryEmplace p q).find? p').isSome = true
    rw [hheap, List.mem_cons, h.queued]
    by_cases hpp : p' = p
    · simp [hpp]
    · simp [hpp]
  · show Nested.find (s.conns.emplaceAt q.sub.connId q.sub.subId p) c i = some p' ↔
      ∃ q', (s.heap.tryEmplace p q).find? p' = some q' ∧ _
    rw [hf, hheap]
    by_cases hpp : p' = p
    · subst hpp
      rw [if_pos rfl]
      constructor
      · intro hq
        split at hq
        · rename_i hci
          exact ⟨q, rfl, hdead, by rw [hci.1, hci.2]; rfl⟩
        · exact absurd rfl (hother c i p' hq)
      · rintro ⟨q', hq', -, hk⟩
        cases hq'
        cases hk
        rw [if_pos ⟨rfl, rfl⟩]
    · rw [if_neg hpp, ← h.named]
      split
      · rename_i hci
        rw [hci.1, hci.2, hnone]
        constructor
        · intro he
          exact absurd (Option.some.inj he).symm hpp
        · intro he
          cases he
      · exact Iff.rfl
  · show (Nested.row (s.conns.emplaceAt q.sub.connId q.sub.subId p) c).size ≤ _
    rw [Nested.row_emplaceAt]
    split
    · have := Assoc.size_tryEmplace_le (Nested.row s.conns q.sub.connId) q.sub.subId p
      omega
    · exact h.sizes c
  · unfold live
    show (Nested.find (s.conns.emplaceAt q.sub.connId q.sub.subId p) c i).bind (s.heap.tryEmplace p q).find? = _
    rw [hf]
    split
    · rw [Option.bind_some, hheap, if_pos rfl]
    · cases hq : s.findQuery c i with
      | none => rfl
      | some p' => rw [Option.bind_some, Option.bind_some, hheap, if_neg (hother c i p' hq)]

/-- `addSub`: the new query takes the place of the one with its id, unless the connection is full. -/
theorem Inv.addSub (h : Inv cfg s) (txn : Db) (sub : Subscription) (p : Nat)
    (hp : s.heap.find? p = none) {added : Bool} {s' : QueryScheduler}
    (ha : s.addSub cfg txn sub p = (added, s')) : Inv cfg s' ∧
      ∀ c i, s'.live c i = if c = sub.connId ∧ i = sub.subId then
        (if added then some { sub := begun txn sub } else none) else s.live c i := by
  obtain ⟨h1, hlive, hsome⟩ := h.removeSub sub.connId sub.subId
  have hp1 : (s.removeSub sub.connId sub.subId).heap.find? p = none := by
    rw [← Option.isNone_iff_eq_none, ← Option.not_isSome, hsome, hp]
    rfl
  unfold QueryScheduler.addSub at ha
  simp only [] at ha
  generalize s.removeSub sub.connId sub.subId = s1 at h1 hlive hp1 ha
  split at ha
  · cases ha
    have hf : ∀ c i, Nested.find (s1.conns.tryEmplace sub.connId .empty) c i = s1.findQuery c i :=
      Nested.find_tryEmplace s1.conns sub.connId
    refine ⟨⟨h1.nodup, h1.queued, fun c i p' => ?_, fun c => ?_⟩, fun c i => ?_⟩
    · rw [← h1.named]
      exact Eq.congr_left (hf c i)
    · show (Nested.row (s1.conns.tryEmplace sub.connId .empty) c).size ≤ _
      rw [Nested.row_tryEmplace]
      exact h1.sizes c
    · have hsame : live { s1 with conns := s1.conns.tryEmplace sub.connId .empty } c i = s1.live c i := by
        unfold live
        exact congrArg (fun o => Option.bind o s1.heap.find?) (hf c i)
      rw [hsame, hlive]
      rfl
  · rename_i hroom
    cases ha
    rw [Nested.row_tryEmplace] at hroom
    have hnone : s1.findQuery sub.connId sub.subId = none := by
      cases hq : s1.findQuery sub.connId sub.subId with
      | none => rfl
      | some p' =>
        obtain ⟨q, hq', -⟩ := (h1.named _ _ _).mp hq
        have hl := hlive sub.connId sub.subId
        unfold live at hl
        rw [hq, Option.bind_some, hq', if_pos ⟨rfl, rfl⟩] at hl
        cases hl
    obtain ⟨h2, hlive2⟩ := h1.emplace (q := { sub := begun txn sub }) hp1 rfl hnone (Nat.lt_of_not_le hroom)
    refine ⟨h2, fun c i => (hlive2 c i).trans ?_⟩
    by_cases hci : c = sub.connId ∧ i = sub.subId
    · exact (if_pos hci).trans (if_pos hci).symm
    · rw [if_neg hci, ← (hlive c i).trans (if_neg hci)]
      exact if_neg hci

/-- `addSub` turns a query down only when its connection has as many others. -/
theorem Inv.addSub_full (h : Inv cfg s) {txn : Db} {sub : Subscription} {p : Nat} {s' : QueryScheduler}
    (ha : s.addSub cfg txn sub p = (false, s')) : ∃ ids : Finset SubId,
      cfg.relayMaxSubsPerConnection ≤ ids.card ∧
      ∀ i ∈ ids, i ≠ sub.subId ∧ (s.live sub.connId i).isSome := by
  obtain ⟨h1, hlive, -⟩ := h.removeSub sub.connId sub.subId
  unfold QueryScheduler.addSub at ha
  simp only [] at ha
  generalize s.removeSub sub.connId sub.subId = s1 at h1 hlive ha
  split at ha
  · rename_i hsize
    rw [Nested.row_tryEmplace] at hsize
    let row : Assoc SubId Nat := Nested.row s1.conns sub.connId
    refine ⟨row.keys.toFinset, ?_, fun i hi => ?_⟩
    · have hcard : row.keys.toFinset.card = row.size := by
        rw [List.toFinset_card_of_nodup (l := row.keys) row.nodup]
        exact List.length_map _
      rw [hcard]
      exact hsize
    · obtain ⟨p', hp'⟩ := (row.mem_keys i).mp (List.mem_toFinset.mp hi)
      have hname : s1.findQuery sub.connId i = some p' := (Nested.find_eq_row s1.conns _ _).trans hp'
      obtain ⟨q, hq, -⟩ := (h1.named _ _ _).mp hname
      have hl := hlive sub.connId i
      unfold live at hl
      rw [hname, Option.bind_some, hq] at hl
      split at hl
      · cases hl
      · rename_i hne
        refine ⟨fun he => hne ⟨rfl, he⟩, ?_⟩
        show (s.live sub.connId i).isSome
        unfold live
        rw [← hl]
        rfl
  · cases ha

/-- What a slice did: the live query of an id went from `q` to `q'`, sending `l`. -/
structure Sliced [StdSort] (ensureExists : Bool) (txn : Db) (pauses : List DBQuery.Pause)
    (s s' : QueryScheduler) (ran : Ran) (q q' : DBQuery) (out : List DBQuery.Call) : Prop where
  before : s.live ran.sub.connId ran.sub.subId = some q
  sub : q.sub = ran.sub
  call : DBQuery.process txn pauses (q, []) = .returned ran.total.isSome (q', out)
  levIds : ran.levIds = (DBQuery.sent out).filter fun levId =>
    !ensureExists || (txn.eventPayload.lookup levId).isSome
  total : ∀ n, ran.total = some n → n = q'.sentEventsFull.card
  after : ∀ c i, s'.live c i = if c = ran.sub.connId ∧ i = ran.sub.subId then
    (if ran.total.isSome then none else some q') else s.live c i

/-- The heap once the query at `p` goes on as `q'`. -/
theorem Inv.advance (h : Inv cfg s) {p : Nat} {q q' : DBQuery} (hq : s.heap.find? p = some q)
    (hdead : q.dead = false) (hdead' : q'.dead = false) (hsub : q'.sub = q.sub) (run : List Nat)
    (hrun : run.Perm s.running) : Inv cfg { s with heap := s.heap.set p q', running := run } ∧
      ∀ c i, ({ s with heap := s.heap.set p q', running := run } : QueryScheduler).live c i =
        if c = q.sub.connId ∧ i = q.sub.subId then some q' else s.live c i := by
  have hheap : ∀ p', (s.heap.set p q').find? p' = if p' = p then some q' else s.heap.find? p' := by
    intro p'
    rw [Assoc.find?_set, hq]
    rfl
  have hname : s.findQuery q.sub.connId q.sub.subId = some p := (h.named _ _ _).mpr ⟨q, hq, hdead, rfl⟩
  refine ⟨⟨hrun.nodup_iff.mpr h.nodup, fun p' => ?_, fun c i p' => ?_, h.sizes⟩, fun c i => ?_⟩
  · show p' ∈ run ↔ ((s.heap.set p q').find? p').isSome = true
    rw [hrun.mem_iff, h.queued, hheap]
    by_cases hpp : p' = p
    · simp [hpp, hq]
    · simp [hpp]
  · show s.findQuery c i = some p' ↔ ∃ q1, (s.heap.set p q').find? p' = some q1 ∧ _
    rw [h.named, hheap]
    by_cases hpp : p' = p
    · subst hpp
      rw [if_pos rfl, hq]
      constructor
      · rintro ⟨q1, hq1, -, hk⟩
        cases hq1
        exact ⟨q', rfl, hdead', by rw [← hk]; exact congrArg Subscription.key hsub⟩
      · rintro ⟨q1, hq1, -, hk⟩
        cases hq1
        exact ⟨q, rfl, hdead, by rw [← hk]; exact congrArg Subscription.key hsub.symm⟩
    · rw [if_neg hpp]
  · unfold live
    show (s.findQuery c i).bind (s.heap.set p q').find? = _
    by_cases hci : c = q.sub.connId ∧ i = q.sub.subId
    · rw [if_pos hci, hci.1, hci.2, hname, Option.bind_some, hheap, if_pos rfl]
    · rw [if_neg hci]
      cases hf : s.findQuery c i with
      | none => rfl
      | some p' =>
        rw [Option.bind_some, Option.bind_some, hheap, if_neg]
        rintro rfl
        obtain ⟨q1, hq1, -, hk⟩ := (h.named c i p').mp hf
        rw [hq] at hq1
        cases hq1
        cases hk
        exact hci ⟨rfl, rfl⟩

/-- The heap once a dead query at the front of the queue is freed. -/
theorem Inv.free (h : Inv cfg s) {p : Nat} {rest : List Nat} {q : DBQuery} (hrun : s.running = p :: rest)
    (hq : s.heap.find? p = some q) (hdead : q.dead = true) :
    Inv cfg { s with heap := s.heap.erase p, running := rest } ∧
      ∀ c i, ({ s with heap := s.heap.erase p, running := rest } : QueryScheduler).live c i = s.live c i := by
  have hnd := h.nodup
  rw [hrun] at hnd
  obtain ⟨hnot, hnd⟩ := List.nodup_cons.mp hnd
  have hheap := s.heap.find?_erase p
  have hother : ∀ c i p', s.findQuery c i = some p' → p' ≠ p := by
    rintro c i p' hf rfl
    obtain ⟨q1, hq1, hd, -⟩ := (h.named c i p').mp hf
    rw [hq] at hq1
    cases hq1
    rw [hdead] at hd
    cases hd
  refine ⟨⟨hnd, fun p' => ?_, fun c i p' => ?_, h.sizes⟩, fun c i => ?_⟩
  · show p' ∈ rest ↔ ((s.heap.erase p).find? p').isSome = true
    rw [hheap]
    by_cases hpp : p' = p
    · subst hpp
      simp [hnot]
    · have hq' := h.queued p'
      rw [hrun, List.mem_cons] at hq'
      rw [if_neg hpp, ← hq']
      simp [hpp]
  · show s.findQuery c i = some p' ↔ ∃ q1, (s.heap.erase p).find? p' = some q1 ∧ _
    rw [hheap]
    constructor
    · intro hf
      rw [if_neg (hother c i p' hf)]
      exact (h.named c i p').mp hf
    · rintro ⟨q1, hq1, hrest⟩
      split at hq1
      · cases hq1
      · exact (h.named c i p').mpr ⟨q1, hq1, hrest⟩
  · unfold live
    show (s.findQuery c i).bind (s.heap.erase p).find? = _
    cases hf : s.findQuery c i with
    | none => rfl
    | some p' => rw [Option.bind_some, Option.bind_some, hheap, if_neg (hother c i p' hf)]

/-- **One slice**: nothing, a dead query freed, or the front query run. -/
theorem Inv.process [StdSort] (h : Inv cfg s) {ensureExists : Bool} {txn : Db} {pauses : List DBQuery.Pause}
    {s' : QueryScheduler} {r : Option Ran} (hp : s.process ensureExists txn pauses = .ok (s', r)) :
    Inv cfg s' ∧ (r = none → ∀ c i, s'.live c i = s.live c i) ∧
      ∀ ran, r = some ran → ∃ q q' out, Sliced ensureExists txn pauses s s' ran q q' out := by
  unfold QueryScheduler.process at hp
  split at hp
  · cases hp
    exact ⟨h, fun _ _ _ => rfl, fun ran hr => by cases hr⟩
  rename_i p rest hrun
  split at hp
  · cases hp
  rename_i q hq
  split at hp
  · rename_i hdead
    cases hp
    obtain ⟨hinv, hlive⟩ := h.free hrun hq hdead
    exact ⟨hinv, fun _ => hlive, fun ran hr => by cases hr⟩
  rename_i hdead
  rw [Bool.not_eq_true] at hdead
  split at hp
  · rename_i complete q' out hcall
    obtain ⟨l, hl⟩ := DBQuery.sends_process pauses hcall
    have hbefore : s.live q.sub.connId q.sub.subId = some q := h.live_eq.mpr ⟨p, hq, hdead, rfl⟩
    have hsub : q'.sub = q.sub := hl.sub
    have hdead' : q'.dead = false := hl.dead.trans hdead
    simp only [] at hp
    split at hp
    · rename_i hcomplete
      cases hp
      obtain ⟨h1, hlive1⟩ := h.advance hq hdead hdead' hsub s.running (.refl _)
      obtain ⟨h2, hlive2, -⟩ := h1.removeSub q'.sub.connId q'.sub.subId
      have hname : ({ s with heap := s.heap.set p q' } : QueryScheduler).findQuery q'.sub.connId q'.sub.subId =
          some p := by
        rw [hsub]
        exact (h.named _ _ _).mpr ⟨q, hq, hdead, rfl⟩
      have hrun2 : (({ s with heap := s.heap.set p q' } : QueryScheduler).removeSub q'.sub.connId
          q'.sub.subId).running = p :: rest := by
        unfold QueryScheduler.removeSub
        rw [hname]
        exact hrun
      have hheap2 : (({ s with heap := s.heap.set p q' } : QueryScheduler).removeSub q'.sub.connId
          q'.sub.subId).heap.find? p = some { q' with dead := true } := by
        unfold QueryScheduler.removeSub
        rw [hname]
        show (kill (s.heap.set p q') p).find? p = _
        rw [find?_kill, Assoc.find?_set, if_pos rfl, hq]
        simp
      obtain ⟨h3, hlive3⟩ := h2.free hrun2 hheap2 rfl
      refine ⟨h3, fun hr => (by cases hr), fun ran hr => ?_⟩
      cases hr
      refine ⟨q, q', out, by rw [hsub]; exact hbefore, hsub.symm, by rw [hcall, hcomplete]; rfl, rfl,
        fun n hn => (Option.some.inj hn).symm, fun c i => ?_⟩
      rw [hlive3, hlive2, hlive1, hsub]
      simp only [Option.isSome_some, if_true]
      split
      · rfl
      · rfl
    · rename_i hcomplete
      rw [Bool.not_eq_true] at hcomplete
      cases hp
      obtain ⟨h1, hlive1⟩ := h.advance hq hdead hdead' hsub (rest ++ [p])
        (by rw [hrun]; exact List.perm_append_singleton p rest)
      refine ⟨h1, fun hr => (by cases hr), fun ran hr => ?_⟩
      cases hr
      refine ⟨q, q', out, by rw [hsub]; exact hbefore, hsub.symm, by rw [hcall, hcomplete]; rfl, rfl,
        fun n hn => (by cases hn), fun c i => ?_⟩
      rw [hlive1, hsub]
      rfl
  · cases hp

end

end QueryScheduler

end Strfry
