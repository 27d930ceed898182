import Strfry.DBScan

/-!
# What a cursor collects

The records of an index under one key prefix form one block of the index
(`KeyBlock`).  A cursor stands before some records of its block (`At`), of which those
within the filter's times are pending (`Pending`); jumps over times outside the filter
change the place but not what is pending.  One call of `collect`

    c.collect txn i f scanIndex limit = some (c', (P.take limit).map …)
    Pending c P  →  Pending c' (P.drop limit)                        (collect_spec)

always comes back, takes the first `limit` pending records, newest first, and leaves an
inactive cursor when there were fewer.
-/

namespace Strfry

namespace DBScan

/-- The times `collect` lets through: a bound of 0 is no bound. -/
def timesOk (f : NostrFilter) (n : Nat) : Bool :=
  (f.since = 0 || f.since ≤ n) && (f.until_ = 0 || n ≤ f.until_)

/-- The index record of created_at `x.1` and levId `x.2` under a prefix. -/
def record (p : Bytes) (x : Nat × Nat) : Bytes × Nat := (makeKeyStringUint64 p x.1, x.2)

/-- The candidate made of such a record. -/
def candidate (scanIndex : Nat) (x : Nat × Nat) : CandidateEvent := .new x.2 x.1 scanIndex

/-- The records under prefix `p` are one block of the index: those whose order begins with
`(a, b)`, and those that `keyMatch` accepts. -/
structure KeyBlock (txn : Db) (i : Index) (p : Bytes) (km : Bytes → KeyMatchResult) (a : Bytes)
    (b : Nat) : Prop where
  inj : ∀ e ∈ txn.entries i, ∀ e' ∈ txn.entries i, entryOrd i e = entryOrd i e' → e = e'
  yes : ∀ e ∈ txn.entries i, km e.1 = .yes → ∃ n, n < 2 ^ 64 ∧ e = record p (n, e.2)
  no : ∀ e ∈ txn.entries i, km e.1 = .no → ∃ a' b' x,
    entryOrd i e = toLex (a', toLex (b', x)) ∧ (a', b') ≠ (a, b)
  ord : ∀ n lev, n < 2 ^ 64 →
    entryOrd i (record p (n, lev)) = toLex (a, toLex (b, toLex (n, lev)))
  pos : ∀ e ∈ txn.entries i, 0 < e.2
  fits : ∀ e ∈ txn.entries i, e.2 ≤ maxU64

section
variable {txn : Db} {i : Index} {p : Bytes} {km : Bytes → KeyMatchResult} {a : Bytes} {b : Nat}

/-- The cursor stands before the records `V` of its block, newest first. -/
def At (txn : Db) (i : Index) (p : Bytes) (c : ScanCursor) (V : List (Nat × Nat)) : Prop :=
  (∀ x ∈ V, x.1 < 2 ^ 64 ∧ c.keyMatch (record p x).1 = .yes) ∧
  ∃ R, txn.foreachDown i c.resumeKey c.resumeVal = V.map (record p) ++ R ∧
    ∀ e ∈ R, c.keyMatch e.1 = .no

/-- What the cursor will still hand out. -/
def Pending (txn : Db) (i : Index) (p : Bytes) (f : NostrFilter) (c : ScanCursor)
    (P : List (Nat × Nat)) : Prop :=
  (c.active = false ∧ P = []) ∨
  (c.active = true ∧ ∃ V, At txn i p c V ∧ P = V.filter fun x => timesOk f x.1)

theorem mem_foreachDown (key : Bytes) (val : Nat) {e : Bytes × Nat}
    (h : e ∈ txn.foreachDown i key val) : e ∈ txn.entries i :=
  ((mem_walkDown _ _ _ _).mp h).1

theorem At.mem_entries {c : ScanCursor} {V : List (Nat × Nat)} (h : At txn i p c V) :
    ∀ x ∈ V, record p x ∈ txn.entries i := by
  obtain ⟨-, R, hR, -⟩ := h
  intro x hx
  apply mem_foreachDown c.resumeKey c.resumeVal
  rw [hR]
  exact List.mem_append_left _ (List.mem_map_of_mem hx)

theorem record_lt (hb : KeyBlock txn i p km a b) {x y : Nat × Nat} (hx : x.1 < 2 ^ 64)
    (hy : y.1 < 2 ^ 64) :
    entryOrd i (record p x) < entryOrd i (record p y) ↔ toLex x < toLex y := by
  rw [show x = (x.1, x.2) from rfl, show y = (y.1, y.2) from rfl, hb.ord _ _ hx, hb.ord _ _ hy]
  simp only [Prod.Lex.toLex_lt_toLex, lt_self_iff_false, true_and, false_or]

/-- The records before a cursor are strictly descending. -/
theorem At.sorted (hb : KeyBlock txn i p km a b) {c : ScanCursor} {V : List (Nat × Nat)}
    (h : At txn i p c V) : V.Pairwise fun x y => toLex y < toLex x := by
  obtain ⟨hV, R, hR, -⟩ := h
  have hp := walkDown_pairwise_gt (entryOrd i) (txn.entries i)
    (entryOrd i (c.resumeKey, c.resumeVal)) hb.inj
  rw [show walkDown _ _ _ = txn.foreachDown i c.resumeKey c.resumeVal from rfl, hR] at hp
  have hp := List.pairwise_map.mp (List.pairwise_append.mp hp).1
  refine hp.imp_of_mem fun {x y} hx hy hxy => ?_
  exact (record_lt hb (hV y hy).1 (hV x hx).1).mp hxy

/-! ## One walk over the records -/

section
variable (f : NostrFilter) (scanIndex : Nat) (c : ScanCursor) (rest : List (Bytes × Nat))
  (limit : Nat) (out : List CandidateEvent)

theorem walk_stop (e : Bytes × Nat) : ScanCursor.walk f scanIndex (e :: rest) c 0 out =
    ⟨false, { c with resumeKey := e.1, resumeVal := e.2 }, 0, out⟩ := by
  rw [ScanCursor.walk, if_pos rfl]

theorem walk_other (e : Bytes × Nat) (hl : limit > 0) (hno : c.keyMatch e.1 = .no) :
    ScanCursor.walk f scanIndex (e :: rest) c limit out =
      ⟨false, { c with resumeKey := [] }, limit, out⟩ := by
  rw [ScanCursor.walk, if_neg (by omega), hno]

theorem walk_old {x : Nat × Nat} (hl : limit > 0) (hx : x.1 < 2 ^ 64)
    (hyes : c.keyMatch (record p x).1 = .yes) (hold : f.since ≠ 0 ∧ x.1 < f.since) :
    ScanCursor.walk f scanIndex (record p x :: rest) c limit out =
      ⟨false, { c with resumeKey := makeKeyStringUint64 p 0, resumeVal := 0 }, limit, out⟩ := by
  have hparse : ParsedKeyStringUint64.parse (record p x).1 = ⟨p, x.1⟩ := parse_makeKey p x.1 hx
  rw [ScanCursor.walk, if_neg (by omega), hyes]
  simp only [hparse]
  rw [if_pos hold]

theorem walk_new {x : Nat × Nat} (hl : limit > 0) (hx : x.1 < 2 ^ 64)
    (hyes : c.keyMatch (record p x).1 = .yes) (hold : ¬ (f.since ≠ 0 ∧ x.1 < f.since))
    (hnew : f.until_ ≠ 0 ∧ x.1 > f.until_) :
    ScanCursor.walk f scanIndex (record p x :: rest) c limit out =
      ⟨false, { c with resumeKey := makeKeyStringUint64 p f.until_, resumeVal := maxU64 },
        limit, out⟩ := by
  have hparse : ParsedKeyStringUint64.parse (record p x).1 = ⟨p, x.1⟩ := parse_makeKey p x.1 hx
  rw [ScanCursor.walk, if_neg (by omega), hyes]
  simp only [hparse]
  rw [if_neg hold, if_pos hnew]

theorem walk_ok {x : Nat × Nat} (hl : limit > 0) (hx : x.1 < 2 ^ 64)
    (hyes : c.keyMatch (record p x).1 = .yes) (hok : timesOk f x.1 = true) :
    ScanCursor.walk f scanIndex (record p x :: rest) c limit out =
      ScanCursor.walk f scanIndex rest c (limit - 1) (out ++ [candidate scanIndex x]) := by
  have hparse : ParsedKeyStringUint64.parse (record p x).1 = ⟨p, x.1⟩ := parse_makeKey p x.1 hx
  simp only [timesOk, Bool.and_eq_true, Bool.or_eq_true, decide_eq_true_eq] at hok
  rw [ScanCursor.walk, if_neg (by omega), hyes]
  simp only [hparse]
  rw [if_neg (by omega), if_neg (by omega)]
  rfl

end

/-- Records within the times are taken one by one. -/
theorem walk_take (f : NostrFilter) (scanIndex : Nat) (c : ScanCursor) (A : List (Nat × Nat))
    (D : List (Bytes × Nat)) (hA : ∀ x ∈ A, x.1 < 2 ^ 64 ∧ c.keyMatch (record p x).1 = .yes)
    (hok : ∀ x ∈ A, timesOk f x.1 = true) :
    ∀ (limit : Nat) (out : List CandidateEvent), A.length ≤ limit →
    ScanCursor.walk f scanIndex (A.map (record p) ++ D) c limit out =
      ScanCursor.walk f scanIndex D c (limit - A.length) (out ++ A.map (candidate scanIndex)) := by
  induction A with
  | nil => intro limit out _; simp
  | cons x A ih =>
    intro limit out hlen
    simp only [List.length_cons] at hlen
    obtain ⟨hx, hkm⟩ := hA x List.mem_cons_self
    rw [List.map_cons, List.cons_append,
      walk_ok f scanIndex c _ limit out (by omega) hx hkm (hok x List.mem_cons_self),
      ih (fun y hy => hA y (List.mem_cons_of_mem _ hy)) (fun y hy => hok y (List.mem_cons_of_mem _ hy))
        (limit - 1) _ (by omega)]
    simp only [List.map_cons, List.append_assoc, List.singleton_append, List.length_cons]
    rw [show limit - 1 - A.length = limit - (A.length + 1) by omega]

/-- Standing before no record of the block, a walk ends the cursor. -/
theorem walk_none (f : NostrFilter) (scanIndex : Nat) (c : ScanCursor) (R : List (Bytes × Nat))
    (hR : ∀ e ∈ R, c.keyMatch e.1 = .no) (limit : Nat) (hl : limit > 0)
    (out : List CandidateEvent) :
    let w := ScanCursor.walk f scanIndex R c limit out
    (if w.finished then { w.cursor with resumeKey := [] } else w.cursor) =
      { c with resumeKey := [] } ∧ w.limit = limit ∧ w.output = out := by
  cases R with
  | nil => simp [ScanCursor.walk]
  | cons e R =>
    rw [walk_other f scanIndex c R limit out e hl (hR e List.mem_cons_self)]
    simp

/-! ## Where the jumps lead -/

/-- Moving down to a record of the walk. -/
theorem at_of_entry (hb : KeyBlock txn i p km a b) {c : ScanCursor} {l : List (Bytes × Nat)}
    {e : Bytes × Nat} {rest : List (Bytes × Nat)}
    (h : txn.foreachDown i c.resumeKey c.resumeVal = l ++ e :: rest) :
    txn.foreachDown i e.1 e.2 = e :: rest :=
  walkDown_from_entry (entryOrd i) (txn.entries i) _ hb.inj l e rest h

/-- Moving down to a place inside the block keeps the records below it. -/
theorem At.jump (hb : KeyBlock txn i p km a b) {c : ScanCursor} {V : List (Nat × Nat)}
    (h : At txn i p c V) {x : Nat × Nat} (hx : x ∈ V) (n lev : Nat)
    (hn : n < 2 ^ 64) (hle : toLex (n, lev) ≤ toLex x) :
    At txn i p { c with resumeKey := makeKeyStringUint64 p n, resumeVal := lev }
      (V.filter fun y => toLex y ≤ toLex (n, lev)) := by
  obtain ⟨hV, R, hR, hno⟩ := h
  have hD := walkDown_filter (entryOrd i) (txn.entries i) (entryOrd i (c.resumeKey, c.resumeVal))
    (entryOrd i (record p (n, lev))) (by
      have hxD : record p x ∈ txn.foreachDown i c.resumeKey c.resumeVal := by
        rw [hR]; exact List.mem_append_left _ (List.mem_map_of_mem hx)
      refine le_trans ?_ ((mem_walkDown _ _ _ _).mp hxD).2
      rw [show x = (x.1, x.2) from rfl, hb.ord _ _ (hV x hx).1, hb.ord _ _ hn]
      exact Prod.Lex.toLex_le_toLex.mpr (Or.inr ⟨rfl, Prod.Lex.toLex_le_toLex.mpr
        (Or.inr ⟨rfl, hle⟩)⟩)) hb.inj
  rw [show walkDown _ _ (entryOrd i (c.resumeKey, c.resumeVal)) =
    txn.foreachDown i c.resumeKey c.resumeVal from rfl, hR] at hD
  refine ⟨fun y hy => hV y (List.mem_of_mem_filter hy), R.filter
    fun e => entryOrd i e ≤ entryOrd i (record p (n, lev)), ?_, fun e he =>
      hno e (List.mem_of_mem_filter he)⟩
  show walkDown _ _ (entryOrd i (record p (n, lev))) = _
  rw [hD, List.filter_append, List.filter_map]
  congr 2
  apply List.filter_congr
  intro y hy
  simp only [Function.comp_apply, decide_eq_decide]
  rw [← not_lt, ← not_lt, not_iff_not]
  exact record_lt hb hn (hV y hy).1

/-- Below the block nothing of it is left. -/
theorem At.jump_below (hb : KeyBlock txn i p km a b) {c : ScanCursor} {V : List (Nat × Nat)}
    (h : At txn i p c V) {x : Nat × Nat} (hx : x ∈ V) :
    At txn i p { c with resumeKey := makeKeyStringUint64 p 0, resumeVal := 0 } [] := by
  have hjump := h.jump hb hx 0 0 (by norm_num) (by
    rw [Prod.Lex.toLex_le_toLex]
    rcases Nat.eq_zero_or_pos x.1 with h0 | h0
    · right; exact ⟨h0.symm, Nat.zero_le _⟩
    · left; exact h0)
  have hnil : (V.filter fun y => decide (toLex y ≤ toLex (0, 0))) = [] := by
    rw [List.filter_eq_nil_iff]
    intro y hy hle
    -- levIds start at 1
    have hpos := hb.pos _ (h.mem_entries y hy)
    simp only [record] at hpos
    simp only [decide_eq_true_eq, Prod.Lex.toLex_le_toLex] at hle
    omega
  rw [hnil] at hjump
  exact hjump

/-! ## The loop -/

/-- What the loop leaves: the first `limit` pending records taken. -/
def Collected (txn : Db) (i : Index) (p : Bytes) (f : NostrFilter) (scanIndex : Nat)
    (c : ScanCursor) (P : List (Nat × Nat)) (limit : Nat) (out : List CandidateEvent)
    (r : Option (ScanCursor × List CandidateEvent)) : Prop :=
  ∃ c', r = some (c', out ++ (P.take limit).map (candidate scanIndex)) ∧
    Pending txn i p f c' (P.drop limit) ∧ c'.keyMatch = c.keyMatch ∧
    c'.outstanding = c.outstanding ∧ (P.length < limit → c'.active = false)

theorem makeKey_active (p : Bytes) (n v : Nat) (c : ScanCursor) :
    ({ c with resumeKey := makeKeyStringUint64 p n, resumeVal := v } : ScanCursor).active = true := by
  simp [ScanCursor.active, makeKeyStringUint64]

/-- The loop ended because the block did. -/
theorem Collected.of_end {f : NostrFilter} {scanIndex : Nat} {c c' : ScanCursor}
    {P : List (Nat × Nat)} {limit : Nat} {out : List CandidateEvent} (hlen : P.length ≤ limit)
    (hc : c' = { c with resumeKey := [], resumeVal := c'.resumeVal }) :
    Collected txn i p f scanIndex c P limit out
      (some (c', out ++ P.map (candidate scanIndex))) := by
  have hact : c'.active = false := by rw [hc]; simp [ScanCursor.active]
  refine ⟨c', by rw [List.take_of_length_le hlen], Or.inl ⟨hact, List.drop_eq_nil_of_le hlen⟩, ?_, ?_,
    fun _ => hact⟩
  · rw [hc]
  · rw [hc]

/-- The loop ended at the limit, at a record `e` of the walk. -/
theorem Collected.of_limit (hb : KeyBlock txn i p km a b) {f : NostrFilter} {scanIndex : Nat}
    {c : ScanCursor} {P : List (Nat × Nat)} {limit : Nat} {out : List CandidateEvent}
    (hlen : limit ≤ P.length) {l : List (Bytes × Nat)} {e : Bytes × Nat} {rest : List (Bytes × Nat)}
    (hR : txn.foreachDown i c.resumeKey c.resumeVal = l ++ e :: rest)
    {V : List (Nat × Nat)} {R : List (Bytes × Nat)} (hrest : e :: rest = V.map (record p) ++ R)
    (hV : ∀ x ∈ V, x.1 < 2 ^ 64 ∧ c.keyMatch (record p x).1 = .yes)
    (hno : ∀ e ∈ R, c.keyMatch e.1 = .no) (hP : P.drop limit = V.filter fun x => timesOk f x.1) :
    Collected txn i p f scanIndex c P limit out
      (some ({ c with resumeKey := e.1, resumeVal := e.2 },
        out ++ (P.take limit).map (candidate scanIndex))) := by
  refine ⟨_, rfl, ?_, rfl, rfl, fun h => absurd h (by omega)⟩
  have hat : At txn i p { c with resumeKey := e.1, resumeVal := e.2 } V :=
    ⟨hV, R, (at_of_entry hb hR).trans hrest, hno⟩
  by_cases hact : ({ c with resumeKey := e.1, resumeVal := e.2 } : ScanCursor).active = true
  · exact Or.inr ⟨hact, V, hat, hP⟩
  · -- a key is never empty inside the block
    refine Or.inl ⟨by simpa using hact, ?_⟩
    rw [hP]
    cases V with
    | nil => rfl
    | cons x V =>
      rw [List.map_cons, List.cons_append, List.cons.injEq] at hrest
      rw [hrest.1] at hact
      exact absurd (makeKey_active p x.1 x.2 c) hact

theorem collectLoop_succ (f : NostrFilter) (scanIndex fuel : Nat) {c : ScanCursor} {limit : Nat}
    (hact : c.active = true) (hl : limit > 0) (out : List CandidateEvent) :
    ScanCursor.collectLoop txn i f scanIndex (fuel + 1) c limit out =
      (let w := ScanCursor.walk f scanIndex (txn.foreachDown i c.resumeKey c.resumeVal) c limit out
       ScanCursor.collectLoop txn i f scanIndex fuel
        (if w.finished then { w.cursor with resumeKey := [] } else w.cursor) w.limit w.output) := by
  rw [ScanCursor.collectLoop, if_pos ⟨hact, hl⟩]

theorem collectLoop_zero (f : NostrFilter) (scanIndex fuel : Nat) (c : ScanCursor)
    (out : List CandidateEvent) :
    ScanCursor.collectLoop txn i f scanIndex fuel c 0 out = some (c, out) := by
  unfold ScanCursor.collectLoop
  rw [if_neg (by omega)]

theorem collectLoop_inactive (f : NostrFilter) (scanIndex fuel limit : Nat) (c : ScanCursor)
    (hact : c.active = false) (out : List CandidateEvent) :
    ScanCursor.collectLoop txn i f scanIndex fuel c limit out = some (c, out) := by
  unfold ScanCursor.collectLoop
  rw [if_neg (by simp [hact])]

/-- The loop from a place before no record of the block. -/
theorem collectLoop_none (f : NostrFilter) (scanIndex : Nat) (c : ScanCursor)
    (h : At txn i p c []) (hact : c.active = true) (limit : Nat) (hl : limit > 0)
    (out : List CandidateEvent) (fuel : Nat) (hf : 1 ≤ fuel) :
    ScanCursor.collectLoop txn i f scanIndex fuel c limit out =
      some ({ c with resumeKey := [] }, out) := by
  obtain ⟨-, R, hR, hno⟩ := h
  rw [List.map_nil, List.nil_append] at hR
  obtain ⟨fuel, rfl⟩ : ∃ k, fuel = k + 1 := ⟨fuel - 1, by omega⟩
  obtain ⟨h1, h2, h3⟩ := walk_none f scanIndex c R hno limit hl out
  rw [collectLoop_succ f scanIndex fuel hact hl, hR]
  simp only [h1, h2, h3]
  exact collectLoop_inactive f scanIndex fuel limit _ (by simp [ScanCursor.active]) out

/-- The loop when no record before the cursor is too new. -/
theorem collectLoop_inside (hb : KeyBlock txn i p km a b) (f : NostrFilter) (scanIndex : Nat)
    (c : ScanCursor) (V : List (Nat × Nat)) (h : At txn i p c V)
    (hact : c.active = true) (hu : ∀ x ∈ V, f.until_ = 0 ∨ x.1 ≤ f.until_) (limit : Nat)
    (hl : limit > 0) (out : List CandidateEvent) (fuel : Nat) (hf : 2 ≤ fuel) :
    Collected txn i p f scanIndex c (V.filter fun x => timesOk f x.1) limit out
      (ScanCursor.collectLoop txn i f scanIndex fuel c limit out) := by
  have hAt := h
  obtain ⟨hV, R, hR, hno⟩ := h
  -- the records within the times come first
  have hsplit := filter_append_filter_not _ (fun x : Nat × Nat => timesOk f x.1) V (hAt.sorted hb) (by
    intro x hx y hy hxy hok
    simp only [timesOk, Bool.and_eq_true, Bool.or_eq_true, decide_eq_true_eq] at hok ⊢
    have := hu x hx
    rw [Prod.Lex.toLex_lt_toLex] at hxy
    omega)
  have hmem1 : ∀ x ∈ V.filter (fun x => timesOk f x.1), x ∈ V ∧ timesOk f x.1 = true :=
    fun x hx => List.mem_filter.mp hx
  have hmem2 : ∀ x ∈ V.filter (fun x => !timesOk f x.1), x ∈ V ∧ timesOk f x.1 = false :=
    fun x hx => by simpa using List.mem_filter.mp hx
  generalize V.filter (fun x => timesOk f x.1) = V1 at hsplit hmem1 ⊢
  generalize V.filter (fun x => !timesOk f x.1) = V2 at hsplit hmem2
  have hnone : ∀ l : List (Nat × Nat), (∀ x ∈ l, x ∈ V2) → l.filter (fun x => timesOk f x.1) = [] := by
    intro l hl
    rw [List.filter_eq_nil_iff]
    intro y hy
    simp [(hmem2 y (hl y hy)).2]
  obtain ⟨fuel, rfl⟩ : ∃ k, fuel = k + 1 := ⟨fuel - 1, by omega⟩
  have hD : V.map (record p) ++ R = (V1.take limit).map (record p) ++
      ((V1.drop limit).map (record p) ++ (V2.map (record p) ++ R)) := by
    rw [← List.append_assoc, ← List.map_append, List.take_append_drop, ← List.append_assoc,
      ← List.map_append, ← hsplit]
  rw [hD] at hR
  rw [collectLoop_succ f scanIndex fuel hact hl, hR, walk_take f scanIndex c _ _
    (fun x hx => hV x (hmem1 x (List.mem_of_mem_take hx)).1)
    (fun x hx => (hmem1 x (List.mem_of_mem_take hx)).2) limit out (List.length_take_le _ _)]
  cases hdrop : V1.drop limit with
  | cons x rest =>
    -- the limit is reached inside the block
    have hlen : limit < V1.length := by
      by_contra hge
      rw [List.drop_eq_nil_of_le (by omega)] at hdrop
      cases hdrop
    rw [hdrop, List.map_cons, List.cons_append] at hR
    rw [show limit - (V1.take limit).length = 0 by rw [List.length_take]; omega, List.map_cons,
      List.cons_append, walk_stop]
    simp only [Bool.false_eq_true, if_false, collectLoop_zero]
    have hx1 : ∀ y ∈ x :: rest, y ∈ V1 := fun y hy => List.mem_of_mem_drop (hdrop ▸ hy)
    refine Collected.of_limit hb (Nat.le_of_lt hlen) hR (V := (x :: rest) ++ V2) (R := R) (by simp) ?_
      hno ?_
    · intro y hy
      rcases List.mem_append.mp hy with hy | hy
      · exact hV y (hmem1 y (hx1 y hy)).1
      · exact hV y (hmem2 y hy).1
    · rw [hdrop, List.filter_append, hnone V2 (fun _ h => h), List.append_nil, eq_comm,
        List.filter_eq_self]
      exact fun y hy => (hmem1 y (hx1 y hy)).2
  | nil =>
    have hlen : V1.length ≤ limit := List.drop_eq_nil_iff.mp hdrop
    have htake : V1.take limit = V1 := List.take_of_length_le hlen
    rw [hdrop, htake, List.map_nil, List.nil_append] at hR
    rw [htake, List.map_nil, List.nil_append]
    by_cases hz : limit - V1.length > 0
    · cases V2 with
      | nil =>
        -- the block ends before the limit
        obtain ⟨h1, h2, h3⟩ := walk_none f scanIndex c R hno (limit - V1.length) hz
          (out ++ V1.map (candidate scanIndex))
        rw [List.map_nil, List.nil_append]
        simp only [h1, h2, h3]
        rw [collectLoop_inactive _ _ _ _ _ (by simp [ScanCursor.active])]
        exact Collected.of_end hlen rfl
      | cons x rest =>
        -- the next record is too old: jump below the block
        obtain ⟨hxV, hxno⟩ := hmem2 x List.mem_cons_self
        have hold : f.since ≠ 0 ∧ x.1 < f.since := by
          have := hu x hxV
          simp only [timesOk, Bool.and_eq_false_iff, Bool.or_eq_false_iff, decide_eq_false_iff_not]
            at hxno
          omega
        rw [List.map_cons, List.cons_append,
          walk_old f scanIndex c _ _ _ hz (hV x hxV).1 (hV x hxV).2 hold]
        simp only [Bool.false_eq_true, if_false]
        rw [collectLoop_none f scanIndex _ (hAt.jump_below hb hxV) (makeKey_active _ _ _ _) _ hz _ fuel
          (by omega)]
        exact Collected.of_end hlen rfl
    · -- the limit is reached at the end of what is pending
      have h0 : limit - V1.length = 0 := by omega
      rw [h0]
      cases hrest : V2.map (record p) ++ R with
      | nil =>
        simp only [ScanCursor.walk, if_true, collectLoop_zero]
        exact Collected.of_end hlen rfl
      | cons e rest =>
        rw [walk_stop]
        simp only [Bool.false_eq_true, if_false, collectLoop_zero]
        rw [hrest] at hR
        have hlimit : Collected txn i p f scanIndex c V1 limit out (some
            ({ c with resumeKey := e.1, resumeVal := e.2 },
              out ++ (V1.take limit).map (candidate scanIndex))) :=
          Collected.of_limit hb (by omega) hR hrest.symm (fun y hy => hV y (hmem2 y hy).1) hno
            (by rw [hdrop, hnone V2 (fun _ h => h)])
        rwa [htake] at hlimit

/-- The loop when some record before the cursor is too new: jump to `until` first. -/
theorem collectLoop_newer (hb : KeyBlock txn i p km a b) (f : NostrFilter) (hf : f.until_ < 2 ^ 64)
    (scanIndex : Nat) (c : ScanCursor) (V : List (Nat × Nat)) (hAt : At txn i p c V)
    (hact : c.active = true) (hu : ¬ ∀ x ∈ V, f.until_ = 0 ∨ x.1 ≤ f.until_) (limit : Nat)
    (hl : limit > 0) (out : List CandidateEvent) (fuel : Nat) (hfuel : 3 ≤ fuel) :
    Collected txn i p f scanIndex c (V.filter fun x => timesOk f x.1) limit out
      (ScanCursor.collectLoop txn i f scanIndex fuel c limit out) := by
  have hsorted := hAt.sorted hb
  obtain ⟨fuel, rfl⟩ : ∃ k, fuel = k + 1 := ⟨fuel - 1, by omega⟩
  obtain ⟨x, rest, hVc⟩ : ∃ x rest, V = x :: rest := by
    cases V with
    | nil => simp at hu
    | cons x rest => exact ⟨x, rest, rfl⟩
  have hxV : x ∈ V := by rw [hVc]; exact List.mem_cons_self
  -- no record is newer than the first
  have hmax : ∀ y ∈ V, y.1 ≤ x.1 := by
    intro y hy
    rw [hVc] at hy hsorted
    rcases List.mem_cons.mp hy with rfl | hy
    · exact Nat.le_refl _
    · have := (List.pairwise_cons.mp hsorted).1 y hy
      rw [Prod.Lex.toLex_lt_toLex] at this
      omega
  have hnew : f.until_ ≠ 0 ∧ x.1 > f.until_ := by
    by_contra hcon
    apply hu
    intro y hy
    have := hmax y hy
    omega
  obtain ⟨hx64, hxkm⟩ := hAt.1 x hxV
  rw [collectLoop_succ f scanIndex fuel hact hl]
  obtain ⟨R, hR, -⟩ := hAt.2
  rw [hR, hVc, List.map_cons, List.cons_append]
  by_cases hold : f.since ≠ 0 ∧ x.1 < f.since
  · -- too old as well: nothing is pending
    rw [walk_old f scanIndex c _ _ _ hl hx64 hxkm hold]
    simp only [Bool.false_eq_true, if_false]
    have hP : (V.filter fun y => timesOk f y.1) = [] := by
      rw [List.filter_eq_nil_iff]
      intro y hy hok
      have := hmax y hy
      simp only [timesOk, Bool.and_eq_true, Bool.or_eq_true, decide_eq_true_eq] at hok
      omega
    rw [collectLoop_none f scanIndex _ (hAt.jump_below hb hxV) (makeKey_active _ _ _ _) _ hl _ fuel
      (by omega), ← hVc, hP]
    have hend : Collected txn i p f scanIndex c [] limit out
        (some ({ c with resumeKey := [], resumeVal := 0 }, out ++ [].map (candidate scanIndex))) :=
      Collected.of_end (Nat.zero_le _) rfl
    rwa [List.map_nil, List.append_nil] at hend
  · rw [walk_new f scanIndex c _ _ _ hl hx64 hxkm hold hnew]
    simp only [Bool.false_eq_true, if_false]
    have hjump := hAt.jump hb hxV f.until_ maxU64 hf (by
      rw [Prod.Lex.toLex_le_toLex]; left; exact hnew.2)
    have hin := collectLoop_inside hb f scanIndex _ _ hjump (makeKey_active _ _ _ _) (by
      intro y hy
      have hle := (List.mem_filter.mp hy).2
      simp only [decide_eq_true_eq, Prod.Lex.toLex_le_toLex] at hle
      omega) limit hl out fuel (by omega)
    have hP : ((V.filter fun y => decide (toLex y ≤ toLex (f.until_, maxU64))).filter
        fun y => timesOk f y.1) = V.filter fun y => timesOk f y.1 := by
      rw [List.filter_filter]
      apply List.filter_congr
      intro y hy
      have hfit := hb.fits _ (hAt.mem_entries y hy)
      simp only [record] at hfit
      by_cases hok : timesOk f y.1 = true
      · have hle : toLex y ≤ toLex (f.until_, maxU64) := by
          simp only [timesOk, Bool.and_eq_true, Bool.or_eq_true, decide_eq_true_eq] at hok
          rw [Prod.Lex.toLex_le_toLex]
          omega
        simp [hok, hle]
      · simp [hok]
    rw [hP] at hin
    rw [← hVc]
    exact hin

/-- **One call of `collect`.** -/
theorem collect_spec (hb : KeyBlock txn i p km a b) (f : NostrFilter) (hf : f.until_ < 2 ^ 64)
    (scanIndex limit : Nat) (c : ScanCursor) (P : List (Nat × Nat))
    (h : Pending txn i p f c P) : ∃ c',
      c.collect txn i f scanIndex limit = some (c', (P.take limit).map (candidate scanIndex)) ∧
      Pending txn i p f c' (P.drop limit) ∧ c'.keyMatch = c.keyMatch ∧
      c'.outstanding = addU64 c.outstanding (min limit P.length) ∧
      (P.length < limit → c'.active = false) := by
  suffices hc : Collected txn i p f scanIndex c P limit []
      (ScanCursor.collectLoop txn i f scanIndex ((txn.entries i).length + 3) c limit []) by
    obtain ⟨c', h1, h2, h3, h4, h5⟩ := hc
    have hlen : ((P.take limit).map (candidate scanIndex)).length = min limit P.length := by
      rw [List.length_map, List.length_take]
    refine ⟨{ c' with outstanding := addU64 c'.outstanding (min limit P.length) }, ?_, h2, h3, ?_, h5⟩
    · unfold ScanCursor.collect
      rw [h1, Option.map_some, List.nil_append, hlen]
    · rw [← h4]
  rcases h with ⟨hact, rfl⟩ | ⟨hact, V, hAt, rfl⟩
  · rw [collectLoop_inactive f scanIndex _ limit c hact]
    exact ⟨c, by simp, Or.inl ⟨hact, by simp⟩, rfl, rfl, fun _ => hact⟩
  · rcases Nat.eq_zero_or_pos limit with rfl | hl
    · rw [collectLoop_zero]
      exact ⟨c, by simp, Or.inr ⟨hact, V, hAt, by simp⟩, rfl, rfl, fun h => absurd h (by omega)⟩
    · by_cases hu : ∀ x ∈ V, f.until_ = 0 ∨ x.1 ≤ f.until_
      · exact collectLoop_inside hb f scanIndex c V hAt hact hu limit hl [] _ (by omega)
      · exact collectLoop_newer hb f hf scanIndex c V hAt hact hu limit hl [] _ (by omega)

end

end DBScan

end Strfry
