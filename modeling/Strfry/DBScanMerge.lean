import Strfry.DBScanPlan
import Strfry.Lib.Merge
import Mathlib.Data.Nat.Bitwise

/-!
# What a scan hands out

`ScanInv txn s P L` is the invariant of a scan in progress: `P` holds what each cursor
will still collect, and `L` is everything the scan has still to go through, newest first,
with repetitions where an event has records under several cursors.  The queue and `P` are
a merge in the sense of `Merging`, so one turn of the loop takes the head of `L`:

    scanStep txn … s st   goes on with   L'   where   L = x :: L'          (scanStep_cases)

and nothing else about cursors, portions and jumps is visible from outside.
-/

namespace Strfry

namespace DBScan

/-- A queued candidate as the merge sees it: its cursor, and its place in the order. -/
def CandidateEvent.decode (c : CandidateEvent) : Nat × Nat × Nat :=
  (c.scanIndex, c.created, c.levId)

/-- The packing keeps a cursor index below 2^24 and a created_at below 2^40 apart. -/
theorem decode_candidate {j : Nat} {x : Nat × Nat} (hj : j < 2 ^ 24) (hx : x.1 < 2 ^ 40) :
    (candidate j x).decode = (j, x) := by
  have hmod : (j <<< 40) % 2 ^ 64 = j <<< 40 := by
    apply Nat.mod_eq_of_lt
    rw [Nat.shiftLeft_eq]
    omega
  have hpacked : (candidate j x).packed = j * 2 ^ 40 + x.1 := by
    show (j <<< 40) % 2 ^ 64 ||| x.1 = _
    rw [hmod, ← Nat.shiftLeft_add_eq_or_of_lt hx, Nat.shiftLeft_eq]
  have hs : (candidate j x).scanIndex = j := by
    show (candidate j x).packed >>> 40 = j
    rw [hpacked, Nat.shiftRight_eq_div_pow]
    omega
  have hc : (candidate j x).created = x.1 := by
    show (candidate j x).packed &&& 0xFFFFFFFFFF = x.1
    rw [hpacked, show 0xFFFFFFFFFF = 2 ^ 40 - 1 by norm_num, Nat.and_two_pow_sub_one_eq_mod]
    omega
  unfold CandidateEvent.decode
  rw [hs, hc]
  rfl

theorem map_decode_candidate {j : Nat} {l : List (Nat × Nat)} (hj : j < 2 ^ 24)
    (hl : ∀ x ∈ l, x.1 < 2 ^ 40) :
    (l.map (candidate j)).map CandidateEvent.decode = l.map fun x => (j, x) := by
  rw [List.map_map]
  exact List.map_congr_left fun x hx => decode_candidate hj (hl x hx)

theorem cmp_iff (a b : CandidateEvent) :
    cmp a b = true ↔ toLex b.decode.2 < toLex a.decode.2 := by
  unfold cmp CandidateEvent.decode
  rw [Prod.Lex.toLex_lt_toLex]
  split
  · rename_i h
    simp [h]
  · rename_i h
    simp only [decide_eq_true_eq]
    omega

theorem cmp_false_iff (a b : CandidateEvent) :
    cmp a b = false ↔ toLex a.decode.2 ≤ toLex b.decode.2 := by
  rw [← Bool.not_eq_true, cmp_iff, not_lt]

theorem strictWeak_cmp : StrictWeak cmp :=
  StrictWeak.of_key (fun c => OrderDual.toDual (toLex c.decode.2)) cmp fun a b => by
    rw [cmp_iff, OrderDual.toDual_lt_toDual]

/-- What a cursor still hands out, whatever its place. -/
def Reads (txn : Db) (i : Index) (f : NostrFilter) (c : ScanCursor) (l : List (Nat × Nat)) : Prop :=
  ∃ p km a b, KeyBlock txn i p km a b ∧ Pending txn i p f c l

theorem Reads.collect {txn : Db} {i : Index} {f : NostrFilter} {c : ScanCursor}
    {l : List (Nat × Nat)} (h : Reads txn i f c l) (hf : f.until_ < 2 ^ 64) (scanIndex limit : Nat) :
    ∃ c', c.collect txn i f scanIndex limit = some (c', (l.take limit).map (candidate scanIndex)) ∧
      Reads txn i f c' (l.drop limit) ∧
      c'.outstanding = addU64 c.outstanding (min limit l.length) := by
  obtain ⟨p, km, a, b, hb, hp⟩ := h
  obtain ⟨c', h1, h2, -, h4, -⟩ := collect_spec hb f hf scanIndex limit c l hp
  exact ⟨c', h1, ⟨p, km, a, b, hb, h2⟩, h4⟩

theorem Reads.of_outstanding {txn : Db} {i : Index} {f : NostrFilter} {c : ScanCursor}
    {l : List (Nat × Nat)} (h : Reads txn i f c l) (n : Nat) :
    Reads txn i f { c with outstanding := n } l := h

/-- The number of queued entries of a cursor. -/
def queuedOf (q : List CandidateEvent) (j : Nat) : Nat := q.countP fun c => c.scanIndex = j

/-- The state of a scan whose cursors of `ready` have been read: `P` is what the cursors will
still collect, `L` all that is left. -/
structure ScanCore (txn : Db) (s : DBScan) (ready : Nat → Prop) (P : List (List (Nat × Nat)))
    (L : List (Nat × Nat)) : Prop where
  length : P.length = s.cursors.length
  few : s.cursors.length < 2 ^ 24
  reads : ∀ (j : Nat) c l, s.cursors[j]? = some c → P[j]? = some l → Reads txn s.indexDbi s.f c l
  outstanding : ∀ (j : Nat) c, s.cursors[j]? = some c →
    c.outstanding = queuedOf s.eventQueue j ∧ queuedOf s.eventQueue j ≤ 500
  merging : Merging toLex ready (s.eventQueue.map CandidateEvent.decode) P
  perm : L.Perm (Merging.contents (s.eventQueue.map CandidateEvent.decode) P)
  sorted : L.Pairwise fun x y => toLex y ≤ toLex x
  created : ∀ x ∈ L, x.1 < 2 ^ 40
  initDepth : 0 < s.initialScanDepth ∧ s.initialScanDepth ≤ 500
  refillDepth : 0 < s.refillScanDepth ∧ s.refillScanDepth ≤ 500
  until_lt : s.f.until_ < 2 ^ 64
  event : ∀ x ∈ L, ∃ v, (x.2, v) ∈ txn.event.rows ∧ v.createdAt = x.1 ∧
    (s.indexOnly = true → s.f.doesMatchTimes x.1 = true → s.f.Matches v)

structure ScanInv (txn : Db) (s : DBScan) (P : List (List (Nat × Nat))) (L : List (Nat × Nat)) :
    Prop extends ScanCore txn s (fun j => j < s.nextInitIndex) P L where
  init_le : s.nextInitIndex ≤ s.cursors.length
  index : ∀ e ∈ s.eventQueue, e.scanIndex < s.nextInitIndex
  ordered : s.nextInitIndex = s.cursors.length →
    s.eventQueue.Pairwise fun a b => toLex b.decode.2 ≤ toLex a.decode.2

/-- Whether an entry is passed on: the event it stands for matches. -/
def hits (txn : Db) (f : NostrFilter) (x : Nat × Nat) : Bool :=
  match txn.event.lookup x.2 with
  | some v => f.doesMatch v
  | none => false

section
variable {txn : Db} {s : DBScan} {ready : Nat → Prop} {P : List (List (Nat × Nat))}
  {L : List (Nat × Nat)}

theorem ScanInv.work (h : ScanInv txn s P L) (w : Nat) :
    ScanInv txn { s with approxWork := w } P L := { h with }

theorem ScanCore.mem_of_mem (h : ScanCore txn s ready P L) {j : Nat} {l : List (Nat × Nat)}
    (hj : P[j]? = some l) {x : Nat × Nat} (hx : x ∈ l) : x ∈ L :=
  h.perm.mem_iff.mpr (List.mem_append_right _ (List.mem_flatten.mpr ⟨l, List.mem_of_getElem? hj, hx⟩))

/-- An index-only scan decides by the time alone what a lookup would decide. -/
theorem ScanCore.doSend_eq (h : ScanCore txn s ready P L) {x : Nat × Nat} (hx : x ∈ L) {ev : CandidateEvent}
    (hev : ev.decode.2 = x) : s.doSend txn ev = hits txn s.f x := by
  obtain ⟨v, hv, hc, hio⟩ := h.event x hx
  subst hev
  have hlook : txn.event.lookup ev.levId = some v := (txn.event.lookup_eq_some_iff _ _).mpr hv
  have hc : v.createdAt = ev.created := hc
  unfold doSend hits
  show (if s.indexOnly = true then _ else match txn.event.lookup ev.levId with
    | some view => s.f.doesMatch view
    | none => false) = match txn.event.lookup ev.levId with
    | some v => s.f.doesMatch v
    | none => false
  rw [hlook]
  split
  · rename_i hi
    rw [Bool.eq_iff_iff, NostrFilter.doesMatch_iff]
    refine ⟨hio hi, fun hm => ?_⟩
    rw [NostrFilter.doesMatchTimes_iff, ← hc]
    exact ⟨hm.since_le, hm.le_until⟩
  · rfl

theorem queuedOf_eq_zero {q : List CandidateEvent} {j : Nat} (h : ∀ e ∈ q, e.scanIndex ≠ j) :
    queuedOf q j = 0 := by
  unfold queuedOf
  rw [List.countP_eq_zero]
  intro e he
  simpa using h e he

/-- Candidates of cursor `j` count for `j` only. -/
theorem queuedOf_all {q : List CandidateEvent} {j : Nat} (h : ∀ e ∈ q, e.scanIndex = j) (i : Nat) :
    queuedOf q i = if i = j then q.length else 0 := by
  split
  · rename_i hij
    subst hij
    unfold queuedOf
    rw [List.countP_eq_length.mpr (by simpa using h)]
  · rename_i hij
    exact queuedOf_eq_zero fun e he => by rw [h e he]; exact fun h => hij h.symm

theorem queuedOf_candidates {j : Nat} (hj : j < 2 ^ 24) {l : List (Nat × Nat)}
    (hl : ∀ x ∈ l, x.1 < 2 ^ 40) (i : Nat) :
    queuedOf (l.map (candidate j)) i = if i = j then l.length else 0 := by
  rw [queuedOf_all (fun e he => ?_) i, List.length_map]
  obtain ⟨x, hx, rfl⟩ := List.mem_map.mp he
  exact congrArg Prod.fst (decode_candidate hj (hl x hx))

theorem queuedOf_perm {q q' : List CandidateEvent} (h : q.Perm q') (j : Nat) :
    queuedOf q j = queuedOf q' j := h.countP_eq _

theorem queuedOf_append (q q' : List CandidateEvent) (j : Nat) :
    queuedOf (q ++ q') j = queuedOf q j + queuedOf q' j := List.countP_append

theorem queuedOf_cons (e : CandidateEvent) (q : List CandidateEvent) (j : Nat) :
    queuedOf (e :: q) j = queuedOf q j + if e.scanIndex = j then 1 else 0 := by
  unfold queuedOf
  rw [List.countP_cons]
  simp

/-! ## Reading a portion -/

/-- A cursor with nothing queued is read; where its entries go in the queue is open. -/
theorem ScanCore.collect (h : ScanCore txn s ready P L) {j : Nat} {c : ScanCursor}
    (hc : s.cursors[j]? = some c) (hzero : queuedOf s.eventQueue j = 0) {d : Nat} (hd : 0 < d)
    (hd' : d ≤ 500) : ∃ c' out P', c.collect txn s.indexDbi s.f j d = some (c', out) ∧
      (∀ e ∈ out, e.scanIndex = j) ∧
      (∃ l : List (Nat × Nat), l.Pairwise (fun x y => toLex y < toLex x) ∧
        out.map CandidateEvent.decode = l.map fun x => (j, x)) ∧
      ∀ queue m w, queue.Perm (s.eventQueue ++ out) →
        ScanCore txn { s with cursors := s.cursors.set j c', eventQueue := queue,
                              nextInitIndex := m, approxWork := w }
          (fun i => ready i ∨ i = j) P' L := by
  have hjc := (List.getElem?_eq_some_iff.mp hc).1
  have hjP : j < P.length := by rw [h.length]; exact hjc
  have hj : j < 2 ^ 24 := Nat.lt_trans hjc h.few
  obtain ⟨l, hP⟩ : ∃ l, P[j]? = some l := ⟨_, List.getElem?_eq_getElem hjP⟩
  obtain ⟨c', hcol, hreads, hout⟩ := (h.reads _ _ _ hc hP).collect h.until_lt j d
  have hl40 : ∀ x ∈ l.take d, x.1 < 2 ^ 40 := fun x hx =>
    h.created x (h.mem_of_mem hP (List.mem_of_mem_take hx))
  have hdec := map_decode_candidate hj hl40
  refine ⟨c', (l.take d).map (candidate j), P.set j (l.drop d), hcol, ?_, ⟨l.take d, ?_, hdec⟩,
    fun queue m w hqueue => ?_⟩
  · intro e he
    obtain ⟨x, hx, rfl⟩ := List.mem_map.mp he
    exact congrArg Prod.fst (decode_candidate hj (hl40 x hx))
  · exact (h.merging.sorted l (List.mem_of_getElem? hP)).sublist (List.take_sublist _ _)
  have hq : (queue.map CandidateEvent.decode).Perm (s.eventQueue.map CandidateEvent.decode ++
      (l.take d).map fun x => (j, x)) := by
    rw [← hdec, ← List.map_append]
    exact hqueue.map _
  refine { h with
    length := by simpa using h.length
    few := by simpa using h.few
    reads := ?_
    outstanding := ?_
    merging := h.merging.collect hP hd hq
    perm := h.perm.trans (Merging.contents_collect hP _ hq).symm }
  · intro i b m hb hm
    rcases getElem?_set_cases hb with ⟨rfl, rfl⟩ | ⟨hij, hb⟩
    · rcases getElem?_set_cases hm with ⟨-, rfl⟩ | ⟨hne, -⟩
      · exact hreads
      · exact absurd rfl hne
    · exact h.reads i b m hb ((getElem?_set_cases hm).resolve_left fun h => hij h.1).2
  · intro i b hb
    show b.outstanding = queuedOf queue i ∧ queuedOf queue i ≤ 500
    rw [queuedOf_perm hqueue, queuedOf_append, queuedOf_candidates hj hl40]
    rcases getElem?_set_cases hb with ⟨rfl, rfl⟩ | ⟨hij, hb⟩
    · rw [hzero, if_pos rfl, List.length_take, hout, (h.outstanding _ _ hc).1, hzero]
      unfold addU64
      omega
    · rw [if_neg hij]
      exact h.outstanding i b hb

/-- The next cursor is read for the first time. -/
theorem ScanInv.initStep [StdSort] (h : ScanInv txn s P L)
    (hinit : s.nextInitIndex < s.cursors.length) : ∃ s' P', s.initStep txn = some s' ∧
      ScanInv txn s' P' L ∧ s'.f = s.f ∧ s'.cursors.length = s.cursors.length ∧
      s'.nextInitIndex = s.nextInitIndex + 1 := by
  obtain ⟨c, hc⟩ : ∃ c, s.cursors[s.nextInitIndex]? = some c := ⟨_, List.getElem?_eq_getElem hinit⟩
  have hzero : queuedOf s.eventQueue s.nextInitIndex = 0 :=
    queuedOf_eq_zero fun e he => Nat.ne_of_lt (h.index e he)
  obtain ⟨c', out, P', hcol, hidx, -, hcore⟩ := h.toScanCore.collect hc hzero h.initDepth.1 h.initDepth.2
  let queue := if s.nextInitIndex + 1 = s.cursors.length then StdSort.sort cmp (s.eventQueue ++ out)
    else s.eventQueue ++ out
  have hqueue : queue.Perm (s.eventQueue ++ out) := by
    unfold queue
    split
    · exact StdSort.perm _ _
    · exact .refl _
  have hcore := hcore queue (s.nextInitIndex + 1) (s.approxWork + out.length) hqueue
  refine ⟨_, P', ?_, { hcore with merging := ?_, init_le := ?_, index := ?_, ordered := ?_ }, rfl,
    by simp, rfl⟩
  · simp only [DBScan.initStep, hc, hcol, Option.bind_eq_bind, Option.bind_some, Option.pure_def]
    rfl
  · refine hcore.merging.mono fun j hj => ?_
    have hj : j < s.nextInitIndex + 1 := hj
    omega
  · show s.nextInitIndex + 1 ≤ (s.cursors.set s.nextInitIndex c').length
    rw [List.length_set]
    exact hinit
  · intro e he
    show e.scanIndex < s.nextInitIndex + 1
    rcases List.mem_append.mp (hqueue.mem_iff.mp he) with he | he
    · exact Nat.lt_succ_of_lt (h.index e he)
    · rw [hidx e he]
      exact Nat.lt_succ_self _
  · intro hlast
    have hlast : s.nextInitIndex + 1 = s.cursors.length := by simpa using hlast
    show queue.Pairwise _
    unfold queue
    rw [if_pos hlast]
    exact (StdSort.ordered cmp strictWeak_cmp _).imp fun {a b} hab => (cmp_false_iff b a).mp hab

/-! ## Handing out the head -/

/-- The head of the queue is the head of what is left. -/
theorem ScanInv.head (h : ScanInv txn s P L) (hdone : s.nextInitIndex = s.cursors.length)
    {ev : CandidateEvent} {rest : List CandidateEvent} (hq : s.eventQueue = ev :: rest) :
    ∃ L', L = ev.decode.2 :: L' ∧
      L'.Perm (Merging.contents (rest.map CandidateEvent.decode) P) := by
  have hm := h.merging
  have hp := h.perm
  have ho := h.ordered hdone
  rw [hq] at hm hp ho
  refine eq_cons_of_perm_max toLex toLex.injective h.sorted hp (hm.head_max (fun j hj => ?_) ?_)
  · rw [hdone, ← h.length]
    exact hj
  · exact (List.pairwise_map (f := CandidateEvent.decode) (l := ev :: rest)).mpr ho

/-- The head is gone, and its cursor counts one less. -/
theorem ScanInv.pop (h : ScanInv txn s P L) (hdone : s.nextInitIndex = s.cursors.length)
    {ev : CandidateEvent} {rest : List CandidateEvent} (hq : s.eventQueue = ev :: rest)
    {c : ScanCursor} (hc : s.cursors[ev.scanIndex]? = some c) {L' : List (Nat × Nat)}
    (hL : L = ev.decode.2 :: L')
    (hp : L'.Perm (Merging.contents (rest.map CandidateEvent.decode) P)) (w : Nat) :
    c.outstanding = queuedOf rest ev.scanIndex + 1 ∧
    ScanCore txn { s with eventQueue := rest, approxWork := w,
                          cursors := s.cursors.set ev.scanIndex
                            { c with outstanding := queuedOf rest ev.scanIndex } }
      (fun j => j < s.cursors.length ∧ (j = ev.scanIndex → 0 < queuedOf rest j)) P L' := by
  have hcount : ∀ j, queuedOf s.eventQueue j = queuedOf rest j + if ev.scanIndex = j then 1 else 0 := by
    intro j
    rw [hq, queuedOf_cons]
  refine ⟨?_, { h.toScanCore with length := ?_, few := ?_, reads := ?_, outstanding := ?_, merging := ?_,
                                  perm := hp, sorted := ?_, created := ?_, event := ?_ }⟩
  · rw [(h.outstanding _ _ hc).1, hcount, if_pos rfl]
  · simpa using h.length
  · simpa using h.few
  · intro j b l hb hl
    rcases getElem?_set_cases hb with ⟨rfl, rfl⟩ | ⟨-, hb⟩
    · exact (h.reads _ _ _ hc hl).of_outstanding _
    · exact h.reads j b l hb hl
  · intro j b hb
    show b.outstanding = queuedOf rest j ∧ queuedOf rest j ≤ 500
    rcases getElem?_set_cases hb with ⟨rfl, rfl⟩ | ⟨hj, hb⟩
    · have := (h.outstanding _ _ hc).2
      rw [hcount] at this
      exact ⟨rfl, by omega⟩
    · have := h.outstanding j b hb
      rwa [hcount, if_neg (Ne.symm hj), Nat.add_zero] at this
  · have hm := h.merging
    rw [hq, List.map_cons] at hm
    show Merging toLex _ (rest.map CandidateEvent.decode) P
    by_cases hmore : 0 < queuedOf rest ev.scanIndex
    · refine (hm.pop_same ?_).mono fun j hj => hdone ▸ hj.1
      obtain ⟨e, he, hes⟩ := List.countP_pos_iff.mp hmore
      exact ⟨e.decode, List.mem_map_of_mem he, of_decide_eq_true hes⟩
    · refine hm.pop.mono fun j hj => ⟨hdone ▸ hj.1, fun hje => ?_⟩
      have hje : j = ev.scanIndex := hje
      have := hj.2 hje
      rw [hje] at this
      exact hmore this
  · have := h.sorted
    rw [hL] at this
    exact (List.pairwise_cons.mp this).2
  · exact fun x hx => h.created x (hL ▸ List.mem_cons_of_mem _ hx)
  · exact fun x hx => h.event x (hL ▸ List.mem_cons_of_mem _ hx)

theorem subU64_succ {n : Nat} (h : n < 2 ^ 64) : subU64 (n + 1) 1 = n := by
  unfold subU64
  rw [Nat.add_right_comm, Nat.add_sub_cancel, Nat.add_mod_right, Nat.mod_eq_of_lt h]

/-- `release` once the new count `n` of the cursor is known. -/
theorem release_eq {ev : CandidateEvent} {c : ScanCursor} {n : Nat}
    (hc : s.cursors[ev.scanIndex]? = some c) (hn : subU64 c.outstanding 1 = n) :
    s.release txn ev = s.refill txn ev.scanIndex { c with outstanding := n } := by
  unfold DBScan.release
  rw [hc, Option.bind_eq_bind, Option.bind_some, hn]

/-- The head leaves and its cursor is refilled when nothing of it is queued. -/
theorem ScanInv.release (h : ScanInv txn s P L) (hdone : s.nextInitIndex = s.cursors.length)
    {ev : CandidateEvent} {rest : List CandidateEvent} (hq : s.eventQueue = ev :: rest)
    {L' : List (Nat × Nat)} (hL : L = ev.decode.2 :: L')
    (hp : L'.Perm (Merging.contents (rest.map CandidateEvent.decode) P)) (w : Nat) :
    ∃ s' P', ({ s with eventQueue := rest, approxWork := w } : DBScan).release txn ev = some s' ∧
      ScanInv txn s' P' L' ∧ s'.f = s.f ∧ s'.nextInitIndex = s'.cursors.length := by
  have hidx : ev.scanIndex < s.cursors.length := by
    rw [← hdone]
    exact h.index ev (by rw [hq]; exact List.mem_cons_self)
  obtain ⟨c, hc⟩ : ∃ c, s.cursors[ev.scanIndex]? = some c := ⟨_, List.getElem?_eq_getElem hidx⟩
  obtain ⟨hout, hcore⟩ := h.pop hdone hq hc hL hp w
  have hrest : rest.Pairwise fun a b => toLex b.decode.2 ≤ toLex a.decode.2 := by
    have := h.ordered hdone
    rw [hq] at this
    exact (List.pairwise_cons.mp this).2
  have hindex : ∀ e ∈ rest, e.scanIndex < s.nextInitIndex := fun e he =>
    h.index e (by rw [hq]; exact List.mem_cons_of_mem _ he)
  have hle := (h.outstanding _ _ hc).2
  rw [hq, queuedOf_cons, if_pos rfl] at hle
  have hsub : subU64 c.outstanding 1 = queuedOf rest ev.scanIndex := by
    rw [hout]
    exact subU64_succ (by omega)
  by_cases hmore : queuedOf rest ev.scanIndex = 0
  · -- nothing of the cursor is queued: read the next portion and merge it
    rw [hmore] at hcore
    have hc' : (s.cursors.set ev.scanIndex { c with outstanding := 0 })[ev.scanIndex]? =
        some { c with outstanding := 0 } := by
      rw [List.getElem?_set, if_pos rfl, if_pos hidx]
    obtain ⟨c', out, P', hcol, hoidx, ⟨l, hl, hdec⟩, hcore'⟩ :=
      hcore.collect hc' hmore h.refillDepth.1 h.refillDepth.2
    let queue := rest.merge out fun a b => !cmp b a
    have hqueue : queue.Perm (rest ++ out) := List.merge_perm_append _
    have hcore' := hcore' queue s.nextInitIndex (w + out.length) hqueue
    simp only [List.set_set] at hcore'
    refine ⟨_, P', ?_, { hcore' with merging := ?_, init_le := ?_, index := ?_, ordered := ?_ }, rfl, ?_⟩
    · rw [release_eq (s := { s with eventQueue := rest, approxWork := w }) hc hsub, hmore, refill,
        if_pos rfl, hcol]
      rfl
    · refine hcore'.merging.mono fun j hj => ?_
      have hj : j < s.nextInitIndex := hj
      by_cases hje : j = ev.scanIndex
      · exact Or.inr hje
      · exact Or.inl ⟨hdone ▸ hj, fun h => absurd h hje⟩
    · show s.nextInitIndex ≤ (s.cursors.set ev.scanIndex c').length
      rw [List.length_set]
      exact h.init_le
    · intro e he
      show e.scanIndex < s.nextInitIndex
      rcases List.mem_append.mp (hqueue.mem_iff.mp he) with he | he
      · exact hindex e he
      · rw [hoidx e he, hdone]
        exact hidx
    · intro _
      have hle : ∀ a b : CandidateEvent, (!cmp b a) = true ↔ toLex b.decode.2 ≤ toLex a.decode.2 := by
        intro a b
        rw [Bool.not_eq_true', cmp_false_iff]
      have hsorted : out.Pairwise fun a b => toLex b.decode.2 ≤ toLex a.decode.2 := by
        have : (out.map CandidateEvent.decode).Pairwise fun a b => toLex b.2 ≤ toLex a.2 := by
          rw [hdec]
          exact List.pairwise_map.mpr (hl.imp fun h => le_of_lt h)
        exact List.pairwise_map.mp this
      have hmerged : (rest.merge out fun a b => !cmp b a).Pairwise fun a b => (!cmp b a) = true :=
        List.pairwise_merge
        (fun a b c hab hbc => by rw [hle] at hab hbc ⊢; exact le_trans hbc hab)
        (fun a b => by
          rw [Bool.or_eq_true, hle, hle]
          exact le_total _ _)
        rest out (hrest.imp fun {a b} hab => (hle a b).mpr hab)
        (hsorted.imp fun {a b} hab => (hle a b).mpr hab)
      exact hmerged.imp fun {a b} hab => (hle a b).mp hab
    · show s.nextInitIndex = (s.cursors.set ev.scanIndex c').length
      rw [List.length_set]
      exact hdone
  · refine ⟨_, P, ?_, { hcore with merging := ?_, init_le := ?_, index := hindex, ordered := ?_ }, rfl, ?_⟩
    · rw [release_eq (s := { s with eventQueue := rest, approxWork := w }) hc hsub, refill, if_neg hmore]
    · refine hcore.merging.mono fun j hj => ⟨hdone ▸ hj, fun hje => ?_⟩
      rw [hje]
      omega
    · show s.nextInitIndex ≤ (s.cursors.set ev.scanIndex _).length
      rw [List.length_set]
      exact h.init_le
    · exact fun _ => hrest
    · show s.nextInitIndex = (s.cursors.set ev.scanIndex _).length
      rw [List.length_set]
      exact hdone

/-! ## One turn of the loop -/

/-- A scan for `f` with `L` left to go through and `k` cursors not read yet. -/
def Scanning (txn : Db) (f : NostrFilter) (s : DBScan) (k : Nat) (L : List (Nat × Nat)) : Prop :=
  s.f = f ∧ s.nextInitIndex + k = s.cursors.length ∧ ∃ P, ScanInv txn s P L

theorem Scanning.work {f : NostrFilter} {k : Nat} (h : Scanning txn f s k L) (w : Nat) :
    Scanning txn f { s with approxWork := w } k L := by
  obtain ⟨hf, hk, P, hP⟩ := h
  exact ⟨hf, hk, P, hP.work w⟩

/-- What handling the head of `L` gives. -/
def handled {σ : Type} (txn : Db) (f : NostrFilter) (handleEvent : Nat → σ → Bool × σ) (x : Nat × Nat)
    (st : σ) : Bool × σ :=
  if hits txn f x then handleEvent x.2 st else (false, st)

/-- **One turn of the loop**, from `k` cursors not read and `L` left: a pause, a cursor read for
the first time, the end, or the head of `L` handled. -/
inductive Turn {σ : Type} (txn : Db) (f : NostrFilter) (handleEvent : Nat → σ → Bool × σ)
    (paused : Bool × σ) (k : Nat) (L : List (Nat × Nat)) : ScanStep σ → Prop
  | pause (s : DBScan) : paused.1 = true → Scanning txn f s k L →
      Turn txn f handleEvent paused k L (.returned false s paused.2)
  | init (s : DBScan) : paused.1 = false → 0 < k → Scanning txn f s (k - 1) L →
      Turn txn f handleEvent paused k L (.again s paused.2)
  | done (s : DBScan) : paused.1 = false → L = [] →
      Turn txn f handleEvent paused k L (.returned true s paused.2)
  | stop (x : Nat × Nat) (L' : List (Nat × Nat)) (s : DBScan) : paused.1 = false → L = x :: L' →
      (handled txn f handleEvent x paused.2).1 = true →
      Turn txn f handleEvent paused k L (.returned true s (handled txn f handleEvent x paused.2).2)
  | next (x : Nat × Nat) (L' : List (Nat × Nat)) (s : DBScan) : paused.1 = false → L = x :: L' →
      (handled txn f handleEvent x paused.2).1 = false → Scanning txn f s k L' →
      Turn txn f handleEvent paused k L (.again s (handled txn f handleEvent x paused.2).2)

theorem scanStep_turn [StdSort] {σ : Type} {f : NostrFilter} {k : Nat} (h : Scanning txn f s k L)
    (handleEvent : Nat → σ → Bool × σ) (doPause : Nat → σ → Bool × σ) (st : σ) :
    Turn txn f handleEvent (doPause (s.approxWork + 1) st) k L
      (scanStep txn handleEvent doPause s st) := by
  have hwork := h.work (s.approxWork + 1)
  obtain ⟨rfl, hk, P, hP⟩ := h
  unfold scanStep
  simp only []
  by_cases hpause : (doPause (s.approxWork + 1) st).1 = true
  · rw [if_pos hpause]
    exact .pause _ hpause hwork
  · rw [if_neg hpause]
    have hpause : (doPause (s.approxWork + 1) st).1 = false := by simpa using hpause
    by_cases hinit : s.nextInitIndex < s.cursors.length
    · rw [if_pos hinit]
      obtain ⟨s', P', hs', hP', hf, hlen, hnext⟩ := (hP.work (s.approxWork + 1)).initStep hinit
      rw [hs']
      refine .init s' hpause (by omega) ⟨hf, ?_, P', hP'⟩
      rw [hnext, hlen]
      show s.nextInitIndex + 1 + (k - 1) = s.cursors.length
      omega
    · rw [if_neg hinit]
      have hdone : s.nextInitIndex = s.cursors.length := by
        have := hP.init_le
        omega
      have hk0 : k = 0 := by omega
      cases hq : s.eventQueue with
      | nil =>
        refine .done _ hpause ?_
        -- nothing is queued, so no cursor holds anything
        have hnil : ∀ l ∈ P, l = [] := by
          intro l hl
          by_contra hne
          obtain ⟨j, hj, rfl⟩ := List.getElem_of_mem hl
          obtain ⟨e, he, -⟩ := hP.merging.queued j _ (by rw [hdone, ← hP.length]; exact hj)
            (List.getElem?_eq_getElem hj) hne
          rw [hq] at he
          simp at he
        have hperm := hP.perm
        rw [hq] at hperm
        simpa [Merging.contents, List.flatten_eq_nil_iff.mpr hnil] using hperm
      | cons ev rest =>
        obtain ⟨L', hL, hp⟩ := hP.head hdone hq
        have hsend : ∀ q w, doSend txn { s with eventQueue := q, approxWork := w } ev =
            hits txn s.f ev.decode.2 := fun _ _ => hP.doSend_eq (hL ▸ List.mem_cons_self) rfl
        simp only [hsend]
        change Turn txn s.f handleEvent _ k L
          (if (handled txn s.f handleEvent ev.decode.2 (doPause (s.approxWork + 1) st).2).1 = true then
            .returned true _ (handled txn s.f handleEvent ev.decode.2 (doPause (s.approxWork + 1) st).2).2
          else .ofOption (handled txn s.f handleEvent ev.decode.2 (doPause (s.approxWork + 1) st).2).2 _)
        by_cases hstop : (handled txn s.f handleEvent ev.decode.2 (doPause (s.approxWork + 1) st).2).1 = true
        · rw [if_pos hstop]
          exact .stop _ L' _ hpause hL hstop
        · rw [if_neg hstop]
          obtain ⟨s', P', hs', hP', hf, hnext⟩ := hP.release hdone hq hL hp
            (if s.indexOnly = true then s.approxWork + 1 else s.approxWork + 1 + 10)
          rw [hs']
          exact .next _ L' s' hpause hL (by simpa using hstop) ⟨hf, by rw [hk0]; exact hnext, P', hP'⟩

end

/-! ## A new scan -/

/-- The scan for `f` comes across the event: a cursor accepts one of its keys, within the times
of the filter. -/
def Reaches (f : NostrFilter) (v : PackedEventView) : Prop :=
  timesOk f v.createdAt = true ∧
    ∃ c ∈ (new f).cursors, ∃ k ∈ indexKeys v (new f).indexDbi, c.keyMatch k = .yes

/-- What the scan for `f` comes across has a created_at that the candidates can hold. -/
def Packable (txn : Db) (f : NostrFilter) : Prop :=
  ∀ r ∈ txn.event.rows, Reaches f r.2 → r.2.createdAt < 2 ^ 40

theorem Pending.sorted {txn : Db} {i : Index} {p : Bytes} {km : Bytes → KeyMatchResult} {a : Bytes}
    {b : Nat} {f : NostrFilter} {c : ScanCursor} {l : List (Nat × Nat)}
    (h : Pending txn i p f c l) (hb : KeyBlock txn i p km a b) :
    l.Pairwise fun x y => toLex y < toLex x := by
  rcases h with ⟨-, rfl⟩ | ⟨-, V, hV, rfl⟩
  · exact .nil
  · exact (hV.sorted hb).filter _

/-- A record under the prefix of a cursor is a record of a stored event. -/
theorem record_cases {txn : Db} {i : Index} (hi : Scanned i) {p : Bytes} {x : Nat × Nat}
    (hx : x.1 < 2 ^ 64) (he : record p x ∈ txn.entries i) :
    ∃ v, (x.2, v) ∈ txn.event.rows ∧ p ∈ keyPrefixes v i ∧ v.createdAt = x.1 := by
  obtain ⟨v, s, hv, hs, heq⟩ := entry_cases hi he
  obtain ⟨rfl, hc⟩ := makeKey_inj hx v.createdAt_lt (congrArg Prod.fst heq)
  exact ⟨v, hv, hs, hc.symm⟩

theorem timesOk_of_matches {f : NostrFilter} {v : PackedEventView} (hm : f.Matches v) :
    timesOk f v.createdAt = true := by
  have := hm.since_le
  have := hm.le_until
  simp only [timesOk, Bool.and_eq_true, Bool.or_eq_true, decide_eq_true_eq]
  omega

/-- A new scan has all the events of the filter to go through. -/
theorem scanning_new {txn : Db} {f : NostrFilter} (hv : f.Valid) (hn : f.neverMatch = false)
    (hsmall : SmallFields f) (hfit : LevIdsFit txn) (hpack : Packable txn f) :
    ∃ k L, Scanning txn f (new f) k L ∧ L.Pairwise (fun x y => toLex y ≤ toLex x) ∧
      ∀ x, (x ∈ L ∧ hits txn f x = true) ↔
        ∃ v, (x.2, v) ∈ txn.event.rows ∧ v.createdAt = x.1 ∧ f.doesMatch v = true := by
  obtain ⟨ps, km, hserves, hcursors⟩ := plan_serves hv hn hsmall
  have hpend : ∀ p, ∃ l : List (Nat × Nat), p ∈ ps →
      Reads txn (new f).indexDbi f (ScanCursor.start p (km p)) l ∧
      l.Pairwise (fun x y => toLex y < toLex x) ∧
      ∀ x, x ∈ l ↔ record p x ∈ txn.entries (new f).indexDbi ∧ x.1 < 2 ^ 64 ∧ timesOk f x.1 = true := by
    intro p
    by_cases hp : p ∈ ps
    · have hb := keyBlock hserves.scanned hfit (hserves.shape p hp) (hserves.decides p hp)
      obtain ⟨l, hl, hmem⟩ := pending_start hb f
      exact ⟨l, fun _ => ⟨⟨p, km p, _, _, hb, hl⟩, hl.sorted hb, hmem⟩⟩
    · exact ⟨[], fun h => absurd h hp⟩
  choose pend hpend using hpend
  let L := (ps.map pend).flatten.insertionSort fun x y => toLex y ≤ toLex x
  have hsorted : L.Pairwise fun x y => toLex y ≤ toLex x := by
    have : Std.Total fun x y : Nat × Nat => toLex y ≤ toLex x := ⟨fun x y => le_total _ _⟩
    have : IsTrans (Nat × Nat) fun x y => toLex y ≤ toLex x := ⟨fun x y z h h' => le_trans h' h⟩
    exact List.pairwise_insertionSort _ _
  have hperm : L.Perm (ps.map pend).flatten := List.perm_insertionSort _ _
  have hmemL : ∀ x, x ∈ L ↔ ∃ p ∈ ps, x ∈ pend p := by
    intro x
    rw [hperm.mem_iff]
    simp
  have hevent : ∀ x ∈ L, ∃ p ∈ ps, ∃ v, (x.2, v) ∈ txn.event.rows ∧
      p ∈ keyPrefixes v (new f).indexDbi ∧ v.createdAt = x.1 ∧ timesOk f x.1 = true := by
    intro x hx
    obtain ⟨p, hp, hxp⟩ := (hmemL x).mp hx
    obtain ⟨he, h64, ht⟩ := ((hpend p hp).2.2 x).mp hxp
    obtain ⟨v, hrow, hpv, hc⟩ := record_cases hserves.scanned h64 he
    exact ⟨p, hp, v, hrow, hpv, hc, ht⟩
  have hlen : (new f).cursors.length = ps.length := by rw [hcursors, List.length_map]
  refine ⟨(new f).cursors.length, L, ⟨rfl, by simp [new], ps.map pend, ?_⟩, hsorted, fun x => ?_⟩
  · refine { length := ?_, few := ?_, reads := ?_, outstanding := ?_, merging := ?_, perm := hperm,
             sorted := hsorted, created := ?_, initDepth := ?_, refillDepth := ?_,
             until_lt := hv.until_lt, event := ?_, init_le := Nat.zero_le _, index := ?_, ordered := ?_ }
    · rw [List.length_map, hlen]
    · rw [hlen]
      exact hserves.length_lt
    · intro j c l hc hl
      rw [hcursors, List.getElem?_map] at hc
      rw [List.getElem?_map] at hl
      cases hp : ps[j]? with
      | none => rw [hp] at hc; cases hc
      | some p =>
        rw [hp] at hc hl
        cases hc
        cases hl
        exact (hpend p (List.mem_of_getElem? hp)).1
    · intro j c hc
      rw [hcursors, List.getElem?_map] at hc
      obtain ⟨p, -, rfl⟩ := Option.map_eq_some_iff.mp hc
      exact ⟨rfl, Nat.zero_le _⟩
    · refine ⟨fun l hl => ?_, fun e he => ?_, fun j l hj => ?_⟩
      · obtain ⟨p, hp, rfl⟩ := List.mem_map.mp hl
        exact (hpend p hp).2.1
      · simp [new] at he
      · exact absurd hj (Nat.not_lt_zero _)
    · intro x hx
      obtain ⟨p, hp, v, hrow, hpv, hc, ht⟩ := hevent x hx
      rw [← hc] at ht ⊢
      refine hpack _ hrow ⟨ht, ScanCursor.start p (km p), ?_, makeKeyStringUint64 p v.createdAt, ?_, ?_⟩
      · rw [hcursors]
        exact List.mem_map_of_mem hp
      · rw [indexKeys_eq v hserves.scanned]
        exact List.mem_map.mpr ⟨p, hpv, rfl⟩
      · exact (hserves.decides p hp p _ (hserves.shape p hp) v.createdAt_lt).mpr rfl
    · simp only [new, scanDepth]
      omega
    · simp only [new, scanDepth]
      omega
    · intro x hx
      obtain ⟨p, hp, v, hrow, hpv, hc, -⟩ := hevent x hx
      exact ⟨v, hrow, hc, fun hio ht => hserves.sound hio v p hp hpv (hc ▸ ht)⟩
    · simp [new]
    · simp [new]
  · constructor
    · rintro ⟨hx, hhit⟩
      obtain ⟨p, -, v, hrow, -, hc, -⟩ := hevent x hx
      refine ⟨v, hrow, hc, ?_⟩
      unfold hits at hhit
      rwa [(txn.event.lookup_eq_some_iff _ _).mpr hrow] at hhit
    · rintro ⟨v, hrow, hc, hm⟩
      refine ⟨?_, ?_⟩
      · have hmatch := (f.doesMatch_iff v).mp hm
        obtain ⟨p, hp, hpv⟩ := hserves.complete v hmatch
        have he := record_mem_entries hserves.scanned hrow hpv
        rw [hc] at he
        refine (hmemL x).mpr ⟨p, hp, ((hpend p hp).2.2 x).mpr ⟨he, ?_, ?_⟩⟩
        · rw [← hc]
          exact v.createdAt_lt
        · rw [← hc]
          exact timesOk_of_matches hmatch
      · unfold hits
        rw [(txn.event.lookup_eq_some_iff _ _).mpr hrow]
        exact hm

end DBScan

end Strfry
