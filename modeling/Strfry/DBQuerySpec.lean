import Strfry.DBQueryLoop
import Strfry.DBScanMerge

/-!
# Queries equal brute force

`bruteForce txn latest f` is what a query should send for one filter: the first `f.limit`
of the matching events up to `latest`, newest first.  `QueryInv` says how far a query in
progress is: what it has sent is the brute force answer of the filters already done, and
for the filter at hand a prefix of its matches has been handled.  One turn of `process`
keeps it (`QueryInv.turn`), so any number of calls with any pauses does (`QueryInv.calls`),
and no call goes on forever (`QueryInv.returns`).
-/

namespace Strfry

namespace DBQuery

/-- The place of a stored event in the order of results. -/
def place (txn : Db) (levId : Nat) : Nat × Nat :=
  (((txn.event.lookup levId).map PackedEventView.createdAt).getD 0, levId)

/-- The matching events up to `latest`, newest first. -/
def matchesUpTo (txn : Db) (latest : Nat) (f : NostrFilter) : List Nat :=
  ((txn.event.rows.filter fun r => r.1 ≤ latest && f.doesMatch r.2).map Prod.fst).insertionSort
    fun a b => toLex (place txn b) ≤ toLex (place txn a)

/-- What a query sends for one filter. -/
def bruteForce (txn : Db) (latest : Nat) (f : NostrFilter) : List Nat :=
  (matchesUpTo txn latest f).take f.limit

theorem place_of_row {txn : Db} {levId : Nat} {v : PackedEventView}
    (h : (levId, v) ∈ txn.event.rows) : place txn levId = (v.createdAt, levId) := by
  unfold place
  rw [(txn.event.lookup_eq_some_iff _ _).mpr h]
  rfl

theorem mem_matchesUpTo (txn : Db) (latest : Nat) (f : NostrFilter) (levId : Nat) :
    levId ∈ matchesUpTo txn latest f ↔
      levId ≤ latest ∧ ∃ v, (levId, v) ∈ txn.event.rows ∧ f.doesMatch v = true := by
  unfold matchesUpTo
  rw [(List.perm_insertionSort _ _).mem_iff, List.mem_map]
  constructor
  · rintro ⟨⟨l, v⟩, hr, rfl⟩
    obtain ⟨hr, hc⟩ := List.mem_filter.mp hr
    simp only [Bool.and_eq_true, decide_eq_true_eq] at hc
    exact ⟨hc.1, v, hr, hc.2⟩
  · rintro ⟨hle, v, hr, hm⟩
    exact ⟨(levId, v), List.mem_filter.mpr ⟨hr, by simp [hle, hm]⟩, rfl⟩

theorem matchesUpTo_nodup (txn : Db) (latest : Nat) (f : NostrFilter) :
    (matchesUpTo txn latest f).Nodup := by
  unfold matchesUpTo
  rw [(List.perm_insertionSort _ _).nodup_iff]
  exact txn.event.keys_nodup.sublist (List.filter_sublist.map Prod.fst)

theorem matchesUpTo_sorted (txn : Db) (latest : Nat) (f : NostrFilter) :
    (matchesUpTo txn latest f).Pairwise fun a b => toLex (place txn b) ≤ toLex (place txn a) := by
  unfold matchesUpTo
  have : Std.Total fun a b : Nat => toLex (place txn b) ≤ toLex (place txn a) :=
    ⟨fun a b => le_total _ _⟩
  have : IsTrans Nat fun a b => toLex (place txn b) ≤ toLex (place txn a) :=
    ⟨fun a b c h h' => le_trans h' h⟩
  exact List.pairwise_insertionSort _ _

/-- **The first results.**  Of all matches in order, with repetitions, let `A` have been handled
and `B` not.  Then the events of `A` up to `latest` are the first of `matchesUpTo`, as many as
they are. -/
theorem take_matchesUpTo {txn : Db} {latest : Nat} {f : NostrFilter} {A B : List Nat}
    (hsorted : (A ++ B).Pairwise fun a b => toLex (place txn b) ≤ toLex (place txn a))
    (hmem : ∀ levId, levId ∈ A ++ B ↔ ∃ v, (levId, v) ∈ txn.event.rows ∧ f.doesMatch v = true) :
    ((matchesUpTo txn latest f).take (A.filter (· ≤ latest)).toFinset.card).toFinset =
      (A.filter (· ≤ latest)).toFinset := by
  -- the handled ones are a prefix: nothing newer than a handled event is left in `B`
  have hsplit := filter_append_filter_not _ (fun a => decide (a ∈ A)) (matchesUpTo txn latest f)
    (matchesUpTo_sorted txn latest f) (by
      intro a ha b hb hab hbA
      rw [decide_eq_true_eq] at hbA ⊢
      obtain ⟨-, v, hv, hm⟩ := (mem_matchesUpTo _ _ _ _).mp ha
      rcases List.mem_append.mp ((hmem a).mpr ⟨v, hv, hm⟩) with h | h
      · exact h
      · have hle := (List.pairwise_append.mp hsorted).2.2 b hbA a h
        have heq := congrArg (fun x => (ofLex x).2) (le_antisymm hle hab)
        exact (show a = b from heq) ▸ hbA)
  have hset : ((matchesUpTo txn latest f).filter fun a => decide (a ∈ A)).toFinset =
      (A.filter (· ≤ latest)).toFinset := by
    ext a
    rw [List.mem_toFinset, List.mem_filter, List.mem_toFinset, List.mem_filter, mem_matchesUpTo]
    simp only [decide_eq_true_eq]
    constructor
    · rintro ⟨⟨hle, -⟩, ha⟩
      exact ⟨ha, hle⟩
    · rintro ⟨ha, hle⟩
      exact ⟨⟨hle, (hmem a).mp (List.mem_append_left _ ha)⟩, ha⟩
  have hlen : ((matchesUpTo txn latest f).filter fun a => decide (a ∈ A)).length =
      (A.filter (· ≤ latest)).toFinset.card := by
    rw [← hset, List.toFinset_card_of_nodup ((matchesUpTo_nodup txn latest f).filter _)]
  rw [hsplit, List.take_left' hlen]
  exact hset

/-- With nothing left, all matches up to `latest` have been handled. -/
theorem toFinset_matchesUpTo {txn : Db} (latest : Nat) {f : NostrFilter} {A : List Nat}
    (hmem : ∀ levId, levId ∈ A ↔ ∃ v, (levId, v) ∈ txn.event.rows ∧ f.doesMatch v = true) :
    (matchesUpTo txn latest f).toFinset = (A.filter (· ≤ latest)).toFinset := by
  ext a
  rw [List.mem_toFinset, mem_matchesUpTo, List.mem_toFinset, List.mem_filter, hmem]
  simp only [decide_eq_true_eq]
  exact and_comm

/-! ## The filter at hand -/

open DBScan in
/-- What is left for `handleEvent`. -/
def left (txn : Db) (f : NostrFilter) (L : List (Nat × Nat)) : List Nat :=
  (L.filter (hits txn f)).map Prod.snd

/-- `A` has been handled, and the scan has `L` to go through. -/
structure Progress (txn : Db) (latest : Nat) (f : NostrFilter) (s : DBScan) (k : Nat)
    (L : List (Nat × Nat)) (curr : Finset Nat) (A : List Nat) : Prop where
  scanning : DBScan.Scanning txn f s k L
  sorted : (A ++ left txn f L).Pairwise fun a b => toLex (place txn b) ≤ toLex (place txn a)
  mem : ∀ levId, levId ∈ A ++ left txn f L ↔
    ∃ v, (levId, v) ∈ txn.event.rows ∧ f.doesMatch v = true
  curr_eq : curr = (A.filter (· ≤ latest)).toFinset
  below : curr.card < f.limit ∨ f.limit = 0 ∧ A = []

/-- What the theorems ask of a filter: compiled, with few enough values, and events that the
candidates of its scan can hold. -/
structure Servable (txn : Db) (f : NostrFilter) : Prop where
  valid : f.Valid
  possible : f.neverMatch = false
  small : DBScan.SmallFields f
  packable : DBScan.Packable txn f

section
variable {txn : Db} {latest : Nat} {f : NostrFilter} {s : DBScan} {k : Nat} {L : List (Nat × Nat)}
  {curr : Finset Nat} {A : List Nat}

/-- An entry of a scan is at its place. -/
theorem place_of_scanning (h : DBScan.Scanning txn f s k L) {x : Nat × Nat} (hx : x ∈ L) :
    place txn x.2 = x := by
  obtain ⟨-, -, P, hP⟩ := h
  obtain ⟨v, hv, hc, -⟩ := hP.event x hx
  rw [place_of_row hv, hc]

theorem Progress.new (hf : Servable txn f) (hfit : DBScan.LevIdsFit txn) (latest : Nat) :
    ∃ k L, Progress txn latest f (DBScan.new f) k L ∅ [] := by
  obtain ⟨k, L, hscan, hsorted, hmem⟩ :=
    DBScan.scanning_new hf.valid hf.possible hf.small hfit hf.packable
  refine ⟨k, L, ⟨hscan, ?_, fun levId => ?_, rfl, ?_⟩⟩
  · refine List.pairwise_map.mpr ((hsorted.filter _).imp_of_mem fun {x y} hx hy hxy => ?_)
    rw [place_of_scanning hscan (List.mem_of_mem_filter hx),
      place_of_scanning hscan (List.mem_of_mem_filter hy)]
    exact hxy
  · rw [List.nil_append, left, List.mem_map]
    constructor
    · rintro ⟨x, hx, rfl⟩
      obtain ⟨v, hv, -, hm⟩ := (hmem x).mp (List.mem_filter.mp hx)
      exact ⟨v, hv, hm⟩
    · rintro ⟨v, hv, hm⟩
      exact ⟨(v.createdAt, levId), List.mem_filter.mpr ((hmem _).mpr ⟨v, hv, rfl, hm⟩), rfl⟩
  · rw [Finset.card_empty]
    rcases Nat.eq_zero_or_pos f.limit with h | h
    · exact Or.inr ⟨h, rfl⟩
    · exact Or.inl h

theorem left_cons (txn : Db) (f : NostrFilter) (x : Nat × Nat) (L : List (Nat × Nat)) :
    left txn f (x :: L) = if DBScan.hits txn f x then x.2 :: left txn f L else left txn f L := by
  unfold left
  split
  · rename_i hx
    rw [List.filter_cons_of_pos hx, List.map_cons]
  · rename_i hx
    rw [List.filter_cons_of_neg hx]

/-- The answer for a filter whose scan has ended. -/
theorem Progress.done (h : Progress txn latest f s k [] curr A) :
    curr = (bruteForce txn latest f).toFinset := by
  have hmem := h.mem
  rw [show A ++ left txn f [] = A from List.append_nil A] at hmem
  have hall := toFinset_matchesUpTo latest hmem
  have hcard : (matchesUpTo txn latest f).length = curr.card := by
    rw [h.curr_eq, ← hall, List.toFinset_card_of_nodup (matchesUpTo_nodup txn latest f)]
  unfold bruteForce
  rcases h.below with hlt | ⟨h0, hA⟩
  · rw [List.take_of_length_le (by omega), hall]
    exact h.curr_eq
  · rw [h.curr_eq, hA, h0]
    rfl

/-- The answer for a filter whose limit is reached. -/
theorem bruteForce_of_limit {B : List Nat}
    (hsorted : (A ++ B).Pairwise fun a b => toLex (place txn b) ≤ toLex (place txn a))
    (hmem : ∀ levId, levId ∈ A ++ B ↔ ∃ v, (levId, v) ∈ txn.event.rows ∧ f.doesMatch v = true)
    (hcard : (A.filter (· ≤ latest)).toFinset.card = f.limit) :
    (A.filter (· ≤ latest)).toFinset = (bruteForce txn latest f).toFinset := by
  unfold bruteForce
  rw [← hcard, take_matchesUpTo hsorted hmem]

end

/-! ## What has been sent -/

/-- The calls made so far: `cb` has the answers of the filters done and what the filter at hand
sent, and `handleEvent` has matches in order. -/
structure CallsOk (txn : Db) (sub : Subscription) (st : State) : Prop where
  sub_eq : st.1.sub = sub
  full : st.1.sentEventsFull = (sent st.2).toFinset
  nodup : (sent st.2).Nodup
  sent_iff : ∀ levId, levId ∈ sent st.2 ↔
    (∃ (i : Nat) (f : NostrFilter), i < st.1.filterGroupIndex ∧
      sub.filterGroup.filters[i]? = some f ∧ levId ∈ bruteForce txn sub.latestEventId f) ∨
    levId ∈ st.1.sentEventsCurr
  handled : ∀ (i : Nat) (f : NostrFilter), sub.filterGroup.filters[i]? = some f →
    ((handledBy i st.2).Pairwise fun a b => toLex (place txn b) ≤ toLex (place txn a)) ∧
    ∀ levId ∈ handledBy i st.2, ∃ v, (levId, v) ∈ txn.event.rows ∧ f.doesMatch v = true
  later : ∀ i, st.1.filterGroupIndex < i → handledBy i st.2 = []

section
variable {txn : Db} {sub : Subscription} {st : State} {f : NostrFilter}

@[simp] theorem sent_append (out out' : List Call) : sent (out ++ out') = sent out ++ sent out' :=
  List.filterMap_append

@[simp] theorem handledBy_append (i : Nat) (out out' : List Call) :
    handledBy i (out ++ out') = handledBy i out ++ handledBy i out' :=
  List.filterMap_append

@[simp] theorem send_filterGroupIndex (levId : Nat) (st : State) :
    (send levId st).1.filterGroupIndex = st.1.filterGroupIndex := by
  unfold send
  split
  · rfl
  · rfl

@[simp] theorem send_sentEventsCurr (levId : Nat) (st : State) :
    (send levId st).1.sentEventsCurr = st.1.sentEventsCurr := by
  unfold send
  split
  · rfl
  · rfl

@[simp] theorem handledBy_send (levId : Nat) (st : State) (i : Nat) :
    handledBy i (send levId st).2 = handledBy i st.2 := by
  unfold send
  split
  · rfl
  · simp [handledBy]

/-- `handleEvent` is called for the filter at hand. -/
theorem CallsOk.handle (h : CallsOk txn sub st)
    (hf : sub.filterGroup.filters[st.1.filterGroupIndex]? = some f) {levId : Nat} {B : List Nat}
    (hsorted : ((handledBy st.1.filterGroupIndex st.2 ++ [levId]) ++ B).Pairwise
      fun a b => toLex (place txn b) ≤ toLex (place txn a))
    (hmem : ∀ l, l ∈ (handledBy st.1.filterGroupIndex st.2 ++ [levId]) ++ B ↔
      ∃ v, (l, v) ∈ txn.event.rows ∧ f.doesMatch v = true) :
    CallsOk txn sub (st.1, st.2 ++ [.handleEvent st.1.filterGroupIndex levId]) := by
  have hsent : sent (st.2 ++ [.handleEvent st.1.filterGroupIndex levId]) = sent st.2 := by
    simp [sent]
  refine { sub_eq := h.sub_eq, full := ?_, nodup := ?_, sent_iff := ?_, handled := ?_, later := ?_ }
  · rw [hsent]
    exact h.full
  · rw [hsent]
    exact h.nodup
  · rw [hsent]
    exact h.sent_iff
  · intro i g hg
    by_cases hi : st.1.filterGroupIndex = i
    · subst hi
      rw [hf] at hg
      cases hg
      have hnew : handledBy st.1.filterGroupIndex (st.2 ++ [.handleEvent st.1.filterGroupIndex levId]) =
          handledBy st.1.filterGroupIndex st.2 ++ [levId] := by simp [handledBy]
      rw [hnew]
      exact ⟨(List.pairwise_append.mp hsorted).1,
        fun l hl => (hmem l).mp (List.mem_append_left _ hl)⟩
    · have hold : handledBy i (st.2 ++ [.handleEvent st.1.filterGroupIndex levId]) =
          handledBy i st.2 := by simp [handledBy, hi]
      rw [hold]
      exact h.handled i g hg
  · intro i hi
    have hne : ¬ st.1.filterGroupIndex = i := Nat.ne_of_lt hi
    simp [handledBy, hne]
    simpa [handledBy] using h.later i hi

/-- `cb` is called unless the event was sent before. -/
theorem CallsOk.sending (h : CallsOk txn sub st) (levId : Nat) :
    CallsOk txn sub ({ (send levId st).1 with
      sentEventsCurr := insert levId (send levId st).1.sentEventsCurr }, (send levId st).2) := by
  unfold send
  by_cases hs : levId ∈ st.1.sentEventsFull
  · rw [if_pos hs]
    refine { h with sent_iff := fun l => ?_ }
    show l ∈ sent st.2 ↔ _ ∨ l ∈ insert levId st.1.sentEventsCurr
    rw [h.sent_iff, Finset.mem_insert]
    constructor
    · rintro (hl | hl)
      · exact Or.inl hl
      · exact Or.inr (Or.inr hl)
    · rintro (hl | rfl | hl)
      · exact Or.inl hl
      · rw [h.full, List.mem_toFinset, h.sent_iff] at hs
        exact hs
      · exact Or.inr hl
  · rw [if_neg hs]
    have hsent : sent (st.2 ++ [.cb levId]) = sent st.2 ++ [levId] := by
      simp [sent]
    have hhand : ∀ i, handledBy i (st.2 ++ [.cb levId]) = handledBy i st.2 := by
      intro i
      simp [handledBy]
    rw [h.full, List.mem_toFinset] at hs
    refine { sub_eq := h.sub_eq, full := ?_, nodup := ?_, sent_iff := ?_, handled := ?_, later := ?_ }
    · show insert levId st.1.sentEventsFull = (sent (st.2 ++ [.cb levId])).toFinset
      rw [hsent, h.full, List.toFinset_append, Finset.union_comm]
      rfl
    · rw [hsent]
      refine List.nodup_append.mpr ⟨h.nodup, by simp, fun a ha b hb => ?_⟩
      rw [List.mem_singleton.mp hb]
      exact fun h => hs (h ▸ ha)
    · intro l
      show l ∈ sent (st.2 ++ [.cb levId]) ↔ _ ∨ l ∈ insert levId st.1.sentEventsCurr
      rw [hsent, List.mem_append, List.mem_singleton, h.sent_iff, Finset.mem_insert]
      constructor
      · rintro ((hl | hl) | hl)
        · exact Or.inl hl
        · exact Or.inr (Or.inr hl)
        · exact Or.inr (Or.inl hl)
      · rintro (hl | hl | hl)
        · exact Or.inl (Or.inl hl)
        · exact Or.inr hl
        · exact Or.inl (Or.inr hl)
    · intro i g hg
      rw [hhand]
      exact h.handled i g hg
    · intro i hi
      rw [hhand]
      exact h.later i hi

theorem CallsOk.next (h : CallsOk txn sub st)
    (hf : sub.filterGroup.filters[st.1.filterGroupIndex]? = some f)
    (hcurr : st.1.sentEventsCurr = (bruteForce txn sub.latestEventId f).toFinset) :
    CallsOk txn sub (nextFilter st) := by
  refine { h with sent_iff := fun l => ?_, later := fun i hi => h.later i (Nat.lt_of_succ_lt hi) }
  show l ∈ sent st.2 ↔ _ ∨ l ∈ (∅ : Finset Nat)
  rw [h.sent_iff, hcurr, List.mem_toFinset]
  simp only [Finset.notMem_empty, or_false]
  constructor
  · rintro (⟨i, g, hi, hg, hl⟩ | hl)
    · exact ⟨i, g, Nat.lt_succ_of_lt hi, hg, hl⟩
    · exact ⟨_, f, Nat.lt_succ_self _, hf, hl⟩
  · rintro ⟨i, g, hi, hg, hl⟩
    rcases Nat.lt_succ_iff_lt_or_eq.mp hi with hi | rfl
    · exact Or.inl ⟨i, g, hi, hg, hl⟩
    · rw [hf] at hg
      cases hg
      exact Or.inr hl

end

/-! ## The whole query -/

structure QueryInv (txn : Db) (sub : Subscription) (st : State) : Prop extends CallsOk txn sub st where
  ended : sub.filterGroup.filters[st.1.filterGroupIndex]? = none → st.1.scanner = none
  fresh : st.1.scanner = none →
    st.1.sentEventsCurr = ∅ ∧ handledBy st.1.filterGroupIndex st.2 = []
  running : ∀ (f : NostrFilter) (s : DBScan),
    sub.filterGroup.filters[st.1.filterGroupIndex]? = some f → st.1.scanner = some s →
    ∃ k L, Progress txn sub.latestEventId f s k L st.1.sentEventsCurr
      (handledBy st.1.filterGroupIndex st.2)

theorem QueryInv.start (txn : Db) (sub : Subscription) : QueryInv txn sub ({ sub := sub }, []) where
  sub_eq := rfl
  full := rfl
  nodup := .nil
  sent_iff levId := by simp [sent]
  handled i f _ := by simp [handledBy]
  later i _ := rfl
  ended _ := rfl
  fresh _ := ⟨rfl, rfl⟩
  running f s _ h := by cases h

/-- The scan `s` of filter `f` is at work. -/
structure Going (txn : Db) (sub : Subscription) (f : NostrFilter) (st : State) (s : DBScan) (k : Nat)
    (L : List (Nat × Nat)) : Prop extends CallsOk txn sub st where
  filter : sub.filterGroup.filters[st.1.filterGroupIndex]? = some f
  progress : Progress txn sub.latestEventId f s k L st.1.sentEventsCurr
    (handledBy st.1.filterGroupIndex st.2)

section
variable {txn : Db} {sub : Subscription} {st : State} {f : NostrFilter} {s : DBScan} {k : Nat}
  {L : List (Nat × Nat)}

theorem QueryInv.going (h : QueryInv txn sub st) (hfit : DBScan.LevIdsFit txn)
    (hf : Servable txn f) (hi : sub.filterGroup.filters[st.1.filterGroupIndex]? = some f) :
    ∃ k L, Going txn sub f st (st.1.scanner.getD (DBScan.new f)) k L := by
  cases hs : st.1.scanner with
  | none =>
    obtain ⟨k, L, hp⟩ := Progress.new hf hfit sub.latestEventId
    obtain ⟨h1, h2⟩ := h.fresh hs
    exact ⟨k, L, { h.toCallsOk with filter := hi, progress := by rw [h1, h2]; exact hp }⟩
  | some s =>
    obtain ⟨k, L, hp⟩ := h.running f s hi hs
    exact ⟨k, L, { h.toCallsOk with filter := hi, progress := hp }⟩

/-- Keeping the scanner. -/
theorem Going.keep (h : Going txn sub f st s k L) :
    QueryInv txn sub ({ st.1 with scanner := some s }, st.2) :=
  { h.toCallsOk with
    ended := fun hn => by rw [h.filter] at hn; cases hn
    fresh := fun hn => by cases hn
    running := fun g t hg ht => by
      rw [h.filter] at hg
      cases hg
      cases ht
      exact ⟨k, L, h.progress⟩ }

theorem Going.scan (h : Going txn sub f st s k L) {s' : DBScan} {k' : Nat}
    (hs : DBScan.Scanning txn f s' k' L) : Going txn sub f st s' k' L :=
  { h with progress := { h.progress with scanning := hs } }

theorem Going.paused (h : Going txn sub f st s k L) (pause : Pause) (w : Nat) :
    Going txn sub f (doPause pause w st).2 s k L := { h with }

/-- The scan is complete and its answer is sent. -/
theorem CallsOk.nextQuery (h : CallsOk txn sub st)
    (hf : sub.filterGroup.filters[st.1.filterGroupIndex]? = some f)
    (hcurr : st.1.sentEventsCurr = (bruteForce txn sub.latestEventId f).toFinset) :
    QueryInv txn sub (nextFilter st) :=
  { h.next hf hcurr with
    ended := fun _ => rfl
    fresh := fun _ => ⟨rfl, h.later _ (Nat.lt_succ_self _)⟩
    running := fun _ _ _ hs => by cases hs }

/-- `handleEvent` at the next match. -/
theorem Going.atMatch {x : Nat × Nat} (h : Going txn sub f st s k (x :: L))
    (hx : DBScan.hits txn f x = true) :
    ((handleEvent f x.2 st).1 = true → QueryInv txn sub (nextFilter (handleEvent f x.2 st).2)) ∧
    ((handleEvent f x.2 st).1 = false → ∀ s', DBScan.Scanning txn f s' k L →
      Going txn sub f (handleEvent f x.2 st).2 s' k L) := by
  have hsorted := h.progress.sorted
  have hmem := h.progress.mem
  rw [left_cons, if_pos hx, List.append_cons] at hsorted hmem
  have hcalls := h.toCallsOk.handle h.filter hsorted hmem
  have hnew : handledBy st.1.filterGroupIndex (st.2 ++ [.handleEvent st.1.filterGroupIndex x.2]) =
      handledBy st.1.filterGroupIndex st.2 ++ [x.2] := by simp [handledBy]
  have hcurr := h.progress.curr_eq
  unfold handleEvent
  by_cases h0 : f.limit = 0
  · simp only [h0, if_true, reduceCtorEq, false_implies, and_true, forall_const]
    refine hcalls.nextQuery h.filter ?_
    show st.1.sentEventsCurr = _
    rcases h.progress.below with hb | ⟨-, hA⟩
    · omega
    · rw [hcurr, hA, bruteForce, h0]
      rfl
  · have hlt : st.1.sentEventsCurr.card < f.limit := h.progress.below.resolve_right fun hb => h0 hb.1
    simp only [h0, if_false]
    by_cases hl : x.2 > st.1.sub.latestEventId
    · -- newer than the query: only `handleEvent` is called
      simp only [hl, if_true, reduceCtorEq, false_implies, true_and, forall_const]
      have hfil : (handledBy st.1.filterGroupIndex st.2 ++ [x.2]).filter (· ≤ sub.latestEventId) =
          (handledBy st.1.filterGroupIndex st.2).filter (· ≤ sub.latestEventId) := by
        have : ¬ x.2 ≤ sub.latestEventId := by
          rw [← h.sub_eq]
          omega
        simp [this]
      refine fun s' hs' => { hcalls with filter := h.filter, progress := ?_ }
      refine ⟨hs', by rw [hnew]; exact hsorted, by rw [hnew]; exact hmem, ?_, Or.inl hlt⟩
      rw [hnew, hfil]
      exact hcurr
    · simp only [hl, if_false]
      have hle : x.2 ≤ sub.latestEventId := by
        rw [← h.sub_eq]
        omega
      have hsend := hcalls.sending x.2
      have hfil : insert x.2 st.1.sentEventsCurr =
          ((handledBy st.1.filterGroupIndex st.2 ++ [x.2]).filter (· ≤ sub.latestEventId)).toFinset := by
        rw [List.filter_append, List.toFinset_append, ← hcurr]
        rw [List.filter_cons_of_pos (by simpa using hle), Finset.insert_eq, Finset.union_comm]
        rfl
      simp only [send_sentEventsCurr] at hsend ⊢
      refine ⟨fun hstop => ?_, fun hgo s' hs' => ?_⟩
      · refine hsend.nextQuery (by simpa using h.filter) ?_
        show insert x.2 st.1.sentEventsCurr = _
        have hcard := Finset.card_insert_le x.2 st.1.sentEventsCurr
        have hstop : f.limit ≤ (insert x.2 st.1.sentEventsCurr).card := by simpa using hstop
        rw [hfil]
        exact bruteForce_of_limit hsorted hmem (by rw [← hfil]; omega)
      · refine { hsend with filter := by simpa using h.filter, progress := ?_ }
        simp only [send_filterGroupIndex, handledBy_send, hnew]
        exact ⟨hs', hsorted, hmem, hfil, Or.inl (by simpa using hgo)⟩

/-- The head of what is left, matching or not. -/
theorem Going.atEntry {x : Nat × Nat} (h : Going txn sub f st s k (x :: L)) :
    ((DBScan.handled txn f (handleEvent f) x st).1 = true →
      QueryInv txn sub (nextFilter (DBScan.handled txn f (handleEvent f) x st).2)) ∧
    ((DBScan.handled txn f (handleEvent f) x st).1 = false →
      ∀ s', DBScan.Scanning txn f s' k L →
        Going txn sub f (DBScan.handled txn f (handleEvent f) x st).2 s' k L) := by
  unfold DBScan.handled
  by_cases hx : DBScan.hits txn f x = true
  · rw [if_pos hx]
    exact h.atMatch hx
  · rw [if_neg hx]
    refine ⟨fun hf => absurd hf (by simp), fun _ s' hs' =>
      { h.toCallsOk with filter := h.filter, progress := ?_ }⟩
    have hsorted := h.progress.sorted
    have hmem := h.progress.mem
    rw [left_cons, if_neg hx] at hsorted hmem
    exact ⟨hs', hsorted, hmem, h.progress.curr_eq, h.progress.below⟩

end

/-! ## Calls of `process` -/

section
variable [StdSort] {txn : Db} {sub : Subscription}

/-- What one turn of `process` at filter `f`, the `i`-th, leads to. -/
inductive QueryTurn (txn : Db) (sub : Subscription) (f : NostrFilter) (i k : Nat)
    (L : List (Nat × Nat)) (paused : Bool) : DBScan.ScanStep State → Prop
  | pause (s : DBScan) (st : State) : paused = true →
      QueryInv txn sub ({ st.1 with scanner := some s }, st.2) →
      QueryTurn txn sub f i k L paused (.returned false s st)
  | again (s : DBScan) (st : State) (k' : Nat) (L' : List (Nat × Nat)) : Going txn sub f st s k' L' →
      st.1.filterGroupIndex = i → k' + L'.length < k + L.length →
      QueryTurn txn sub f i k L paused (.again s st)
  | next (s : DBScan) (st : State) : QueryInv txn sub (nextFilter st) →
      st.1.filterGroupIndex = i → QueryTurn txn sub f i k L paused (.returned true s st)

omit [StdSort] in
theorem handled_filterGroupIndex (f : NostrFilter) (x : Nat × Nat) (st : State) :
    (DBScan.handled txn f (handleEvent f) x st).2.1.filterGroupIndex = st.1.filterGroupIndex := by
  unfold DBScan.handled handleEvent
  simp only []
  split
  · split
    · rfl
    · split
      · rfl
      · exact send_filterGroupIndex _ _
  · rfl

theorem Going.turn {f : NostrFilter} {st : State} {s : DBScan} {k : Nat} {L : List (Nat × Nat)}
    (h : Going txn sub f st s k L) (pause : Pause) :
    QueryTurn txn sub f st.1.filterGroupIndex k L (pause (s.approxWork + 1) st.1.lastWorkChecked).1
      (s.scanStep txn (handleEvent f) (doPause pause) st) := by
  have hgo := h.paused pause (s.approxWork + 1)
  have hturn := DBScan.scanStep_turn h.progress.scanning (handleEvent f) (doPause pause) st
  generalize s.scanStep txn (handleEvent f) (doPause pause) st = r at hturn
  cases hturn with
  | pause s' hp hs => exact .pause s' _ hp (hgo.scan hs).keep
  | init s' _ hk hs => exact .again s' _ _ _ (hgo.scan hs) rfl (by omega)
  | done s' _ hL =>
    subst hL
    exact .next s' _ (hgo.toCallsOk.nextQuery hgo.filter hgo.progress.done) rfl
  | stop x L' s' _ hL hstop =>
    subst hL
    exact .next s' _ (hgo.atEntry.1 hstop) (handled_filterGroupIndex f x _)
  | next x L' s' _ hL hfalse hs =>
    subst hL
    exact .again s' _ _ _ (hgo.atEntry.2 hfalse s' hs) (handled_filterGroupIndex f x _) (by simp)

variable (hfit : DBScan.LevIdsFit txn) (hf : ∀ f ∈ sub.filterGroup.filters, Servable txn f)

omit [StdSort] in
/-- The invariant with `n` entries left for the filter at hand. -/
def Ranked (txn : Db) (sub : Subscription) (st : State) (n : Nat) : Prop :=
  QueryInv txn sub st ∧ ∀ f, sub.filterGroup.filters[st.1.filterGroupIndex]? = some f →
    ∃ k L, Going txn sub f st (st.1.scanner.getD (DBScan.new f)) k L ∧ k + L.length = n

include hfit hf

omit [StdSort] in
theorem QueryInv.ranked {st : State} (h : QueryInv txn sub st) : ∃ n, Ranked txn sub st n := by
  cases hi : sub.filterGroup.filters[st.1.filterGroupIndex]? with
  | none =>
    refine ⟨0, h, fun f hf => ?_⟩
    rw [hi] at hf
    cases hf
  | some f =>
    obtain ⟨k, L, hgo⟩ := h.going hfit (hf f (List.mem_of_getElem? hi)) hi
    refine ⟨k + L.length, h, fun g hg => ?_⟩
    rw [hi] at hg
    cases hg
    exact ⟨k, L, hgo, rfl⟩

theorem ranked_loop : LoopInv txn sub (Ranked txn sub) where
  sub_eq st n h := h.1.sub_eq
  turn st n f pause h hi := by
    obtain ⟨k, L, hgo, rfl⟩ := h.2 f hi
    have hturn := hgo.turn pause
    simp only []
    generalize (st.1.scanner.getD (DBScan.new f)).scanStep txn (handleEvent f) (doPause pause) st = r
      at hturn
    cases hturn with
    | pause s st1 hp hq =>
      obtain ⟨n', hn'⟩ := hq.ranked hfit hf
      exact .pause s st1 n' hp hn'
    | again s st1 k' L' hg hidx hlt =>
      refine .again s st1 _ ⟨hg.keep, fun g hg' => ⟨k', L', ?_, rfl⟩⟩ hidx hlt
      cases hg.filter.symm.trans hg'
      exact { hg with }
    | next s st1 hq hidx =>
      obtain ⟨n', hn'⟩ := hq.ranked hfit hf
      exact .next s st1 n' hn' hidx
  fresh i := by
    cases hi : sub.filterGroup.filters[i]? with
    | none =>
      refine ⟨0, fun st n h hidx _ => ⟨h.1, fun f hf => ?_⟩⟩
      rw [hidx, hi] at hf
      cases hf
    | some f =>
      obtain ⟨k, L, hp⟩ := Progress.new (hf f (List.mem_of_getElem? hi)) hfit sub.latestEventId
      refine ⟨k + L.length, fun st n h hidx hs => ⟨h.1, fun g hg => ⟨k, L, ?_, rfl⟩⟩⟩
      have hg' := hg
      rw [hidx, hi] at hg
      cases hg
      obtain ⟨h1, h2⟩ := h.1.fresh hs
      rw [hs]
      exact { h.1.toCallsOk with
        filter := hg'
        progress := by rw [h1, h2]; exact hp }

/-- A call keeps the invariant, is never undefined, and is complete only at the end. -/
theorem QueryInv.call (pauses : List Pause) {st : State} (h : QueryInv txn sub st) :
    process txn pauses st ≠ .undefined ∧
    ∀ complete st', process txn pauses st = .returned complete st' → QueryInv txn sub st' ∧
      (complete = true → sub.filterGroup.filters[st'.1.filterGroupIndex]? = none) := by
  obtain ⟨n, hn⟩ := h.ranked hfit hf
  obtain ⟨hdef, hret⟩ := (ranked_loop hfit hf).call pauses hn
  refine ⟨hdef, fun complete st' he => ?_⟩
  obtain ⟨⟨n', hn'⟩, hend⟩ := hret complete st' he
  exact ⟨hn'.1, hend⟩

/-- Calls come back, from any state of a query. -/
theorem QueryInv.returns {st : State} (h : QueryInv txn sub st) : ∃ N, Returns txn st N := by
  obtain ⟨n, hn⟩ := h.ranked hfit hf
  exact (ranked_loop hfit hf).returns hn

/-- The invariant after any calls. -/
theorem QueryInv.calls {complete : Bool} {st : State} (h : Calls txn sub complete st) :
    QueryInv txn sub st ∧
      (complete = true → sub.filterGroup.filters[st.1.filterGroupIndex]? = none) := by
  induction h with
  | start => exact ⟨.start txn sub, by simp⟩
  | call pauses st st' complete _ hp ih => exact (ih.1.call hfit hf pauses).2 complete st' hp

omit [StdSort] hfit hf in
/-- What a complete query has sent. -/
theorem QueryInv.sent_complete {st : State} (h : QueryInv txn sub st)
    (hend : sub.filterGroup.filters[st.1.filterGroupIndex]? = none) (levId : Nat) :
    levId ∈ sent st.2 ↔
      ∃ f ∈ sub.filterGroup.filters, levId ∈ bruteForce txn sub.latestEventId f := by
  have hlen := List.getElem?_eq_none_iff.mp hend
  rw [h.sent_iff, (h.fresh (h.ended hend)).1]
  simp only [Finset.notMem_empty, or_false]
  constructor
  · rintro ⟨i, f, -, hi, hl⟩
    exact ⟨f, List.mem_of_getElem? hi, hl⟩
  · rintro ⟨f, hf, hl⟩
    obtain ⟨i, hi, rfl⟩ := List.getElem_of_mem hf
    exact ⟨i, _, by omega, List.getElem?_eq_getElem hi, hl⟩

end

/-- Filters of a request, over events whose created_at the candidates can hold. -/
theorem servable_of_built [Golpe] {txn : Db} {fg : NostrFilterGroup} (hbuilt : fg.Built)
    (hsmall : ∀ f ∈ fg.filters, DBScan.SmallFields f)
    (hcreated : ∀ r ∈ txn.event.rows, r.2.createdAt < 2 ^ 40) :
    ∀ f ∈ fg.filters, Servable txn f := by
  intro f hf
  obtain ⟨hv, hn⟩ := hbuilt.valid f hf
  exact ⟨hv, hn, hsmall f hf, fun r hr _ => hcreated r hr⟩

/-- **Queries equal brute force.**  After any calls of `process` with any pauses, `cb` has had no
levId twice and each `handleEvent` the matches of its filter in order, and the next call comes
back; when the last call was complete, `cb` has had the brute force answers of the filters. -/
theorem query_eq_bruteForce [Golpe] [StdSort] (txn : Db) (hfit : DBScan.LevIdsFit txn)
    (hcreated : ∀ r ∈ txn.event.rows, r.2.createdAt < 2 ^ 40) (sub : Subscription)
    (hbuilt : sub.filterGroup.Built)
    (hsmall : ∀ f ∈ sub.filterGroup.filters, DBScan.SmallFields f) (complete : Bool) (st : State)
    (h : Calls txn sub complete st) :
    (sent st.2).Nodup ∧
    (complete = true → ∀ levId, levId ∈ sent st.2 ↔
      ∃ f ∈ sub.filterGroup.filters, levId ∈ bruteForce txn sub.latestEventId f) ∧
    (∀ (i : Nat) (f : NostrFilter), sub.filterGroup.filters[i]? = some f →
      ((handledBy i st.2).Pairwise fun a b => toLex (place txn b) ≤ toLex (place txn a)) ∧
      ∀ levId ∈ handledBy i st.2, ∃ v, (levId, v) ∈ txn.event.rows ∧ f.doesMatch v = true) ∧
    ∃ N, Returns txn st N := by
  have hf := servable_of_built hbuilt hsmall hcreated
  obtain ⟨hinv, hend⟩ := QueryInv.calls hfit hf h
  exact ⟨hinv.nodup, fun hc => hinv.sent_complete (hend hc), hinv.handled,
    hinv.returns hfit hf⟩

/-- Three events of kind 1, 7 and 1. -/
def threeEvents : Db where
  event := ((Table.empty.insertNext (sampleEvent 1 9 100 1 [])).insertNext
    (sampleEvent 2 9 200 7 [])).insertNext (sampleEvent 3 9 300 1 [])

/-- `["REQ", "x", {"kinds": [1], "limit": 1}]`. -/
def newestOfKind1 : Json :=
  .array [.string (ascii "REQ"), .string (ascii "x"),
    .object [(ascii "kinds", .array [.unsigned 1]), (ascii "limit", .unsigned 1)]]

/-- The filter it compiles to. -/
def kind1Filter : NostrFilter :=
  { kinds := some (FilterSetUint.ofList [1]), limit := 1, indexOnlyScans := true }

def subOf (filters : List NostrFilter) : Subscription where
  connId := 1
  subId := .x
  filterGroup := ⟨filters⟩

theorem query_eq_bruteForce_newest : ∃ st : State,
    @Calls StdSort.insertion threeEvents (subOf [kind1Filter]) true st ∧ sent st.2 = [3] := by
  let _ : StdSort := StdSort.insertion
  let _ : Golpe := Golpe.plain
  have hfit : DBScan.LevIdsFit threeEvents := by
    unfold DBScan.LevIdsFit
    decide
  have hcreated : ∀ r ∈ threeEvents.event.rows, r.2.createdAt < 2 ^ 40 := by decide
  have hreq : NostrFilterGroup.ofReq newestOfKind1 500 = .ok ⟨[kind1Filter]⟩ := rfl
  have hbuilt : (subOf [kind1Filter]).filterGroup.Built := .of_ofReq hreq
  have hsmall : ∀ f ∈ (subOf [kind1Filter]).filterGroup.filters, DBScan.SmallFields f := by
    intro f hf
    rw [List.mem_singleton.mp hf]
    exact ⟨by simp [kind1Filter], by simp [kind1Filter],
      fun s hs => by rw [← Option.some.inj hs]; decide, by simp [kind1Filter]⟩
  -- a call without pauses is complete
  obtain ⟨N, hN⟩ := (query_eq_bruteForce threeEvents hfit hcreated _ hbuilt hsmall false _ .start).2.2.2
  obtain ⟨complete, st, hp, hc⟩ := hN (List.replicate N fun _ l => (false, l)) (by simp)
  have hc := hc fun p hp => by rw [List.eq_of_mem_replicate hp]; simp
  subst hc
  have hcalls : Calls threeEvents (subOf [kind1Filter]) true st := .call _ _ _ _ .start hp
  obtain ⟨hnd, hmem, -⟩ := query_eq_bruteForce threeEvents hfit hcreated _ hbuilt hsmall true st hcalls
  have hbf : bruteForce threeEvents maxU64 kind1Filter = [3] := by decide
  refine ⟨st, hcalls, ?_⟩
  refine List.perm_singleton.mp ((List.perm_ext_iff_of_nodup hnd (by simp)).mpr fun l => ?_)
  rw [hmem rfl]
  show (∃ f ∈ [kind1Filter], l ∈ bruteForce threeEvents maxU64 f) ↔ _
  simp [hbf]

end DBQuery

end Strfry
