import Strfry.DBScanCandidates

/-!
# Scans over changing snapshots

Between two calls of `process` the database may change: keys that a cursor would go on from
disappear, queued candidates go stale, new records appear.  What a scan does not lose is said
without the order of its output (`ScanCover`): every event that all snapshots so far hold, and
that matches, was handed out, or is queued, or is ahead of one of the cursors,

    lev ∈ handed  ∨  candidate j x ∈ eventQueue  ∨  Ahead i p c x,

where `Ahead` compares a record with the place where the cursor goes on and does not mention the
table.  A cursor that can go on has a candidate queued (`busy`), so that an empty queue leaves
nothing ahead.  One turn keeps this (`ScanCover.turn`), whatever snapshot it is over.
-/

namespace Strfry

namespace DBScan

/-! ## Where `collect` leaves a cursor -/

section
variable {txn : Db} {i : Index} {p : Bytes} {km : Bytes → KeyMatchResult} {a : Bytes} {b : Nat}

/-- A place inside the block is not above it. -/
theorem ord_makeKey_le (hb : KeyBlock txn i p km a b) {n lev : Nat} (hn : n < 2 ^ 64) (hlev : lev ≤ maxU64) :
    entryOrd i (makeKeyStringUint64 p n, lev) ≤ entryOrd i (record p (maxU64, maxU64)) := by
  have hord := hb.ord n lev hn
  change entryOrd i (makeKeyStringUint64 p n, lev) = _ at hord
  rw [hord, hb.ord maxU64 maxU64 (by norm_num [maxU64])]
  simp only [Prod.Lex.toLex_le_toLex, lt_self_iff_false, true_and, false_or]
  unfold maxU64 at hlev ⊢
  omega

theorem walk_low (hb : KeyBlock txn i p km a b) {f : NostrFilter} (hf : f.until_ < 2 ^ 64) (j : Nat)
    (l : List (Bytes × Nat)) (hl : ∀ e ∈ l, e ∈ txn.entries i ∧
      entryOrd i e ≤ entryOrd i (record p (maxU64, maxU64))) {c : ScanCursor} (hkm : c.keyMatch = km)
    (limit : Nat) (out : List CandidateEvent)
    (hfin : (ScanCursor.walk f j l c limit out).finished = false) :
    Low i p (ScanCursor.walk f j l c limit out).cursor := by
  induction l generalizing limit out with
  | nil => cases hfin
  | cons r l ih =>
    obtain ⟨k, v⟩ := r
    obtain ⟨hmem, hle⟩ := hl (k, v) List.mem_cons_self
    unfold ScanCursor.walk at hfin ⊢
    split
    · exact fun _ => hle
    · rename_i hlim
      rw [if_neg hlim] at hfin
      split
      · intro hact
        simp [ScanCursor.active] at hact
      · rename_i hyes
        rw [hyes] at hfin
        rw [hkm] at hyes
        -- the key has the prefix of the cursor
        obtain ⟨n, hn, hr⟩ := hb.yes _ hmem hyes
        have hparse : ParsedKeyStringUint64.parse k = ⟨p, n⟩ := by
          have hk : k = makeKeyStringUint64 p n := congrArg Prod.fst hr
          rw [hk]
          exact parse_makeKey p n hn
        simp only [hparse] at hfin ⊢
        split
        · exact fun _ => ord_makeKey_le hb (by norm_num) (Nat.zero_le _)
        · rename_i hsince
          rw [if_neg hsince] at hfin
          split
          · exact fun _ => ord_makeKey_le hb hf (Nat.le_refl _)
          · rename_i huntil
            rw [if_neg huntil] at hfin
            exact ih (fun e he => hl e (List.mem_cons_of_mem _ he)) _ _ hfin

theorem collectLoop_low (hb : KeyBlock txn i p km a b) {f : NostrFilter} (hf : f.until_ < 2 ^ 64) {j fuel : Nat}
    {c c' : ScanCursor} (hkm : c.keyMatch = km) (hlow : Low i p c) {limit : Nat}
    {out out' : List CandidateEvent}
    (h : ScanCursor.collectLoop txn i f j fuel c limit out = some (c', out')) : Low i p c' := by
  induction fuel generalizing c limit out with
  | zero =>
    unfold ScanCursor.collectLoop at h
    split at h
    · cases h
    · cases h
      exact hlow
  | succ fuel ih =>
    unfold ScanCursor.collectLoop at h
    split at h
    · rename_i hact
      simp only [] at h
      have hwkm := (walk_taken f j (txn.foreachDown i c.resumeKey c.resumeVal) c limit out).1
      have hwlow := walk_low hb hf j (txn.foreachDown i c.resumeKey c.resumeVal) (fun e he => by
        obtain ⟨hmem, hle⟩ := (mem_walkDown _ _ _ _).mp he
        exact ⟨hmem, le_trans hle (hlow hact.1)⟩) hkm limit out
      refine ih ?_ ?_ h
      · split
        · exact hwkm.trans hkm
        · exact hwkm.trans hkm
      · split
        · intro hact
          simp [ScanCursor.active] at hact
        · rename_i hfin
          exact hwlow (by simpa using hfin)
    · cases h
      exact hlow

theorem collect_low (hb : KeyBlock txn i p km a b) {f : NostrFilter} (hf : f.until_ < 2 ^ 64) {j limit : Nat}
    {c c' : ScanCursor} (hkm : c.keyMatch = km) (hlow : Low i p c) {out : List CandidateEvent}
    (h : c.collect txn i f j limit = some (c', out)) : Low i p c' := by
  unfold ScanCursor.collect at h
  obtain ⟨⟨c1, out1⟩, hloop, h⟩ := Option.map_eq_some_iff.mp h
  cases h
  have hlow1 : Low i p c1 := collectLoop_low hb hf hkm hlow hloop
  exact hlow1

end

/-! ## What a scan does not lose -/

/-- Cursors at the prefixes `ps`, matching keys with `km`, answer the filter. -/
structure Planned (f : NostrFilter) (ps : List Bytes) (km : Bytes → Bytes → KeyMatchResult) : Prop where
  serves : Serves f (new f).indexDbi (new f).indexOnly ps km
  cursors : (new f).cursors = ps.map fun p => ScanCursor.start p (km p)
  until_lt : f.until_ < 2 ^ 64

/-- What the scans ask of a snapshot. -/
structure SnapOk (f : NostrFilter) (txn : Db) : Prop where
  fit : LevIdsFit txn
  packable : Packable txn f

/-- The event is in all snapshots, and matches. -/
def Stays (snaps : Db → Prop) (f : NostrFilter) (levId : Nat) (v : PackedEventView) : Prop :=
  (∀ txn, snaps txn → (levId, v) ∈ txn.event.rows) ∧ f.Matches v

/-- The event has still to come: it is queued, or ahead of a cursor. -/
def ToCome (ps : List Bytes) (s : DBScan) (levId : Nat) (v : PackedEventView) : Prop :=
  ∃ j p, ps[j]? = some p ∧ p ∈ keyPrefixes v s.indexDbi ∧
    (candidate j (v.createdAt, levId) ∈ s.eventQueue ∨
      ∃ c, s.cursors[j]? = some c ∧ Ahead s.indexDbi p c (v.createdAt, levId))

/-- A scan in progress whose cursors of `ready` have been read; `handed` was handed out. -/
structure CoverCore (snaps : Db → Prop) (f : NostrFilter) (ps : List Bytes) (s : DBScan) (ready : Nat → Prop)
    (handed : List Nat) : Prop where
  plan : SamePlan (new f) s
  sources : ∀ e ∈ s.eventQueue, Source snaps f e e.scanIndex (e.created, e.levId)
  outstanding : ∀ (j : Nat) c, s.cursors[j]? = some c →
    c.outstanding = queuedOf s.eventQueue j ∧ queuedOf s.eventQueue j ≤ 500
  low : ∀ (j : Nat) c p, s.cursors[j]? = some c → ps[j]? = some p → Low s.indexDbi p c
  busy : ∀ (j : Nat) c, ready j → s.cursors[j]? = some c → c.active = true → 0 < queuedOf s.eventQueue j
  covers : ∀ levId v, Stays snaps f levId v → levId ∈ handed ∨ ToCome ps s levId v

structure ScanCover (snaps : Db → Prop) (f : NostrFilter) (ps : List Bytes) (s : DBScan) (handed : List Nat) :
    Prop extends CoverCore snaps f ps s (fun j => j < s.nextInitIndex) handed where
  init_le : s.nextInitIndex ≤ s.cursors.length
  index : ∀ e ∈ s.eventQueue, e.scanIndex < s.nextInitIndex

/-- What is pending at the cursors, on a snapshot. -/
structure Pends (txn : Db) (ps : List Bytes) (s : DBScan) (P : List (List (Nat × Nat))) : Prop where
  length : P.length = s.cursors.length
  pending : ∀ (j : Nat) c p l, s.cursors[j]? = some c → ps[j]? = some p → P[j]? = some l →
    Pending txn s.indexDbi p s.f c l

/-- How much there is to do on a snapshot: cursors to read first, candidates and pending records. -/
def Todo (txn : Db) (ps : List Bytes) (s : DBScan) (n : Nat) : Prop :=
  ∃ P, Pends txn ps s P ∧ n = s.cursors.length - s.nextInitIndex + s.eventQueue.length + P.flatten.length

section
variable {snaps : Db → Prop} {f : NostrFilter} {ps : List Bytes} {km : Bytes → Bytes → KeyMatchResult}
  {s : DBScan} {ready : Nat → Prop} {handed : List Nat} {txn : Db}

theorem Planned.length (hp : Planned f ps km) : (new f).cursors.length = ps.length := by
  rw [hp.cursors, List.length_map]

theorem Planned.few (hp : Planned f ps km) : (new f).cursors.length < 2 ^ 24 := by
  rw [hp.length]
  exact hp.serves.length_lt

theorem Planned.block (hp : Planned f ps km) (hok : SnapOk f txn) {p : Bytes} (hmem : p ∈ ps) :
    KeyBlock txn (new f).indexDbi p (km p) (headOf (new f).indexDbi p).1 (headOf (new f).indexDbi p).2 :=
  keyBlock hp.serves.scanned hok.fit (hp.serves.shape p hmem) (hp.serves.decides p hmem)

/-- The cursor at a place matches the keys of its prefix. -/
theorem SamePlan.cursor (hp : Planned f ps km) (hs : SamePlan (new f) s) {j : Nat} {c : ScanCursor}
    (hc : s.cursors[j]? = some c) : ∃ p, ps[j]? = some p ∧ c.keyMatch = km p := by
  have hkm := congrArg (fun l => l[j]?) hs.keyMatch
  simp only [List.getElem?_map, hc, Option.map_some, hp.cursors] at hkm
  obtain ⟨c0, hc0, hkm⟩ := Option.map_eq_some_iff.mp hkm.symm
  obtain ⟨p, hpj, rfl⟩ := Option.map_eq_some_iff.mp hc0
  exact ⟨p, hpj, hkm.symm⟩

/-- A source in a snapshot of small created_at leads back to where it came from. -/
theorem Source.decode (hp : Planned f ps km) (hok : ∀ txn, snaps txn → SnapOk f txn) {e : CandidateEvent}
    {j : Nat} {x : Nat × Nat} (h : Source snaps f e j x) : e.decode = (j, x) := by
  have hj := h.lt.2
  have hfew := hp.few
  obtain ⟨he, txn, v, htxn, hv, hc, ht, c, hcj, k, hk, hyes⟩ := h
  rw [he]
  refine decode_candidate (by omega) ?_
  rw [← hc] at ht ⊢
  exact (hok txn htxn).packable _ hv ⟨ht, c, List.mem_of_getElem? hcj, k, hk, hyes⟩

/-- The event a candidate stands for has the prefix of its cursor. -/
theorem Source.prefix_mem (hp : Planned f ps km) {e : CandidateEvent} {j : Nat} {x : Nat × Nat}
    (h : Source snaps f e j x) : ∃ txn v p, snaps txn ∧ (x.2, v) ∈ txn.event.rows ∧ v.createdAt = x.1 ∧
      ps[j]? = some p ∧ p ∈ keyPrefixes v (new f).indexDbi := by
  obtain ⟨-, txn, v, htxn, hv, hc, -, c, hcj, k, hk, hyes⟩ := h
  rw [hp.cursors, List.getElem?_map] at hcj
  obtain ⟨p, hpj, rfl⟩ := Option.map_eq_some_iff.mp hcj
  refine ⟨txn, v, p, htxn, hv, hc, hpj, ?_⟩
  rw [indexKeys_eq v hp.serves.scanned] at hk
  obtain ⟨q, hq, rfl⟩ := List.mem_map.mp hk
  have hdec := hp.serves.decides p (List.mem_of_getElem? hpj)
  rw [← (hdec q _ (shape_keyPrefixes v hp.serves.scanned hq) v.createdAt_lt).mp hyes]
  exact hq

/-- More snapshots: less stays, and candidates may come from more of them. -/
theorem CoverCore.mono (h : CoverCore snaps f ps s ready handed) {snaps' : Db → Prop}
    (hsub : ∀ txn, snaps txn → snaps' txn) : CoverCore snaps' f ps s ready handed :=
  { h with
    sources := fun e he => by
      obtain ⟨heq, txn, v, htxn, hrest⟩ := h.sources e he
      exact ⟨heq, txn, v, hsub txn htxn, hrest⟩
    covers := fun levId v hst => h.covers levId v ⟨fun txn htxn => hst.1 txn (hsub txn htxn), hst.2⟩ }

theorem ScanCover.mono (h : ScanCover snaps f ps s handed) {snaps' : Db → Prop}
    (hsub : ∀ txn, snaps txn → snaps' txn) : ScanCover snaps' f ps s handed :=
  { h.toCoverCore.mono hsub with init_le := h.init_le, index := h.index }

theorem ScanCover.work (h : ScanCover snaps f ps s handed) (w : Nat) :
    ScanCover snaps f ps { s with approxWork := w } handed :=
  { h with plan := ⟨h.plan.f, h.plan.indexOnly, h.plan.indexDbi, h.plan.initialScanDepth,
      h.plan.refillScanDepth, h.plan.keyMatch⟩ }

/-- A new scan has everything ahead. -/
theorem ScanCover.start (hp : Planned f ps km) (htxn : snaps txn) (hok : SnapOk f txn) :
    ScanCover snaps f ps (new f) [] where
  plan := .refl _
  sources e he := by cases he
  outstanding j c hc := by
    rw [hp.cursors, List.getElem?_map] at hc
    obtain ⟨p, -, rfl⟩ := Option.map_eq_some_iff.mp hc
    exact ⟨rfl, Nat.zero_le _⟩
  low j c p hc hpj := by
    rw [hp.cursors, List.getElem?_map, hpj] at hc
    cases hc
    exact low_start (hp.block hok (List.mem_of_getElem? hpj)) _
  busy j c hj := absurd hj (Nat.not_lt_zero _)
  covers levId v hst := by
    obtain ⟨p, hmem, hpv⟩ := hp.serves.complete v hst.2
    obtain ⟨j, hj, hget⟩ := List.getElem_of_mem hmem
    have hpj : ps[j]? = some p := by rw [List.getElem?_eq_getElem hj, hget]
    refine Or.inr ⟨j, p, hpj, hpv, Or.inr ⟨ScanCursor.start p (km p), ?_, ?_⟩⟩
    · rw [hp.cursors, List.getElem?_map, hpj]
      rfl
    · refine ahead_start (hp.block hok hmem) _ v.createdAt_lt ?_
      have := hok.fit _ (hst.1 txn htxn)
      show levId ≤ maxU64
      unfold maxU64
      omega
  init_le := Nat.zero_le _
  index e he := by cases he

/-- On any snapshot there is only so much to do. -/
theorem CoverCore.exists_todo (hp : Planned f ps km) (hok : SnapOk f txn)
    (h : CoverCore snaps f ps s ready handed) : ∃ n, Todo txn ps s n := by
  have hex : ∀ j : Nat, ∃ l : List (Nat × Nat), ∀ c p, s.cursors[j]? = some c → ps[j]? = some p →
      Pending txn s.indexDbi p s.f c l := by
    intro j
    cases hc : s.cursors[j]? with
    | none => exact ⟨[], fun c p h => by cases h⟩
    | some c =>
      obtain ⟨p, hpj, hkm⟩ := h.plan.cursor hp hc
      have hb := hp.block hok (List.mem_of_getElem? hpj)
      rw [← h.plan.indexDbi] at hb
      obtain ⟨l, hl⟩ := exists_pending hb s.f hkm (h.low j c p hc hpj)
      refine ⟨l, fun c' p' hc' hp' => ?_⟩
      cases hc'
      rw [hpj] at hp'
      cases hp'
      exact hl
  choose pend hpend using hex
  refine ⟨_, (List.range s.cursors.length).map pend, ⟨by simp, fun j c p l hc hpj hl => ?_⟩, rfl⟩
  have hj := (List.getElem?_eq_some_iff.mp hc).1
  rw [List.getElem?_map, List.getElem?_range hj] at hl
  cases hl
  exact hpend j c p hc hpj

/-! ## One turn -/

/-- What a cursor takes leads back to it. -/
theorem Taken.leads_back (hp : Planned f ps km) (htxn : snaps txn) (hok : ∀ txn, snaps txn → SnapOk f txn)
    {j : Nat} {p : Bytes} (hpj : ps[j]? = some p) {e : CandidateEvent}
    (h : Taken f (km p) j (txn.entries (new f).indexDbi) e) :
    e.scanIndex = j ∧ Source snaps f e e.scanIndex (e.created, e.levId) := by
  have hcj : (new f).cursors[j]? = some (ScanCursor.start p (km p)) := by
    rw [hp.cursors, List.getElem?_map, hpj]
    rfl
  obtain ⟨x, hx⟩ := h.source htxn hcj
  have hdec := hx.decode hp hok
  have hj : e.scanIndex = j := congrArg Prod.fst hdec
  refine ⟨hj, ?_⟩
  rw [hj, show (e.created, e.levId) = x from congrArg Prod.snd hdec]
  exact hx

/-- A record ahead of a cursor is among the next `d` pending ones or still ahead after them. -/
theorem Pending.taken_or_ahead {i : Index} {p a : Bytes} {b : Nat} (hb : KeyBlock txn i p (km p) a b)
    {c c' : ScanCursor} (hkm : c.keyMatch = km p) (hkm' : c'.keyMatch = km p) {l : List (Nat × Nat)} {d : Nat}
    (h : Pending txn i p f c l) (h' : Pending txn i p f c' (l.drop d)) {x : Nat × Nat}
    (hx : record p x ∈ txn.entries i) (hlt : x.1 < 2 ^ 64) (ht : timesOk f x.1 = true) (hahead : Ahead i p c x) :
    x ∈ l.take d ∨ Ahead i p c' x := by
  have hmem := (h.mem_iff hb hkm x).mpr ⟨hx, hlt, ht, hahead⟩
  rw [← List.take_append_drop d l] at hmem
  exact (List.mem_append.mp hmem).imp_right fun hrest => ((h'.mem_iff hb hkm' x).mp hrest).2.2.2

/-- A cursor with nothing queued is read; where its entries go in the queue is open. -/
theorem CoverCore.collect (hp : Planned f ps km) (htxn : snaps txn) (hok : ∀ txn, snaps txn → SnapOk f txn)
    (h : CoverCore snaps f ps s ready handed) {P : List (List (Nat × Nat))} (hP : Pends txn ps s P) {j : Nat}
    {c : ScanCursor} (hc : s.cursors[j]? = some c) (hzero : queuedOf s.eventQueue j = 0) {d : Nat}
    (hd : 0 < d) (hd' : d ≤ 500) : ∃ c' out P', c.collect txn s.indexDbi s.f j d = some (c', out) ∧
      (∀ e ∈ out, e.scanIndex = j) ∧ P.flatten.length = out.length + P'.flatten.length ∧
      ∀ queue m w, queue.Perm (s.eventQueue ++ out) →
        let s' := { s with cursors := s.cursors.set j c', eventQueue := queue, nextInitIndex := m,
                           approxWork := w }
        Pends txn ps s' P' ∧ CoverCore snaps f ps s' (fun i => ready i ∨ i = j) handed := by
  have hjc := (List.getElem?_eq_some_iff.mp hc).1
  have hjP : j < P.length := by rw [hP.length]; exact hjc
  obtain ⟨l, hl⟩ : ∃ l, P[j]? = some l := ⟨_, List.getElem?_eq_getElem hjP⟩
  obtain ⟨p, hpj, hkm⟩ := h.plan.cursor hp hc
  have hmem := List.mem_of_getElem? hpj
  have hf : s.f = f := h.plan.f
  have hb := hp.block (hok txn htxn) hmem
  rw [← h.plan.indexDbi] at hb
  have hpend := hP.pending j c p l hc hpj hl
  obtain ⟨c', hcol, hpend', hkm', hout', hact'⟩ :=
    collect_spec hb s.f (hf ▸ hp.until_lt) j d c l hpend
  have htaken := (collect_taken hcol).2.2
  have hlow' := collect_low hb (hf ▸ hp.until_lt) hkm (h.low j c p hc hpj) hcol
  -- what was collected leads back to this cursor
  have hsource : ∀ e ∈ (l.take d).map (candidate j), e.scanIndex = j ∧
      Source snaps f e e.scanIndex (e.created, e.levId) := by
    intro e he
    have ht := htaken e he
    rw [hkm, h.plan.indexDbi, hf] at ht
    exact ht.leads_back hp htxn hok hpj
  have hlen : ((l.take d).map (candidate j)).length = min d l.length := by
    rw [List.length_map, List.length_take]
  refine ⟨c', (l.take d).map (candidate j), P.set j (l.drop d), hcol, fun e he => (hsource e he).1, ?_,
    fun queue m w hqueue => ⟨⟨?_, ?_⟩, ⟨?_, ?_, ?_, ?_, ?_, ?_⟩⟩⟩
  · have hflat := (flatten_set_perm P j (l.take d) (l.drop d) (by rw [List.take_append_drop]; exact hl)).length_eq
    rw [List.length_append] at hflat
    rw [List.length_map]
    exact hflat
  · show (P.set j (l.drop d)).length = (s.cursors.set j c').length
    rw [List.length_set, List.length_set, hP.length]
  · intro i b q m' hb' hq hm
    show Pending txn s.indexDbi q s.f b m'
    rcases getElem?_set_cases hb' with ⟨rfl, rfl⟩ | ⟨hij, hb'⟩
    · rcases getElem?_set_cases hm with ⟨-, rfl⟩ | ⟨hne, -⟩
      · rw [hpj] at hq
        cases hq
        exact hpend'
      · exact absurd rfl hne
    · exact hP.pending i b q m' hb' hq ((getElem?_set_cases hm).resolve_left fun h => hij h.1).2
  · have hplan := h.plan
    exact ⟨hplan.f, hplan.indexOnly, hplan.indexDbi, hplan.initialScanDepth, hplan.refillScanDepth,
      (map_keyMatch_set hc hkm').trans hplan.keyMatch⟩
  · intro e he
    rcases List.mem_append.mp (hqueue.mem_iff.mp he) with he | he
    · exact h.sources e he
    · exact (hsource e he).2
  · intro i b hb'
    show b.outstanding = queuedOf queue i ∧ queuedOf queue i ≤ 500
    rw [queuedOf_perm hqueue, queuedOf_append, queuedOf_all fun e he => (hsource e he).1, hlen]
    rcases getElem?_set_cases hb' with ⟨rfl, rfl⟩ | ⟨hij, hb'⟩
    · rw [hzero, if_pos rfl, hout', (h.outstanding _ _ hc).1, hzero]
      unfold addU64
      omega
    · rw [if_neg hij]
      exact h.outstanding i b hb'
  · intro i b q hb' hq
    show Low s.indexDbi q b
    rcases getElem?_set_cases hb' with ⟨rfl, rfl⟩ | ⟨hij, hb'⟩
    · rw [hpj] at hq
      cases hq
      exact hlow'
    · exact h.low i b q hb' hq
  · intro i b hready hb' hact
    show 0 < queuedOf queue i
    rw [queuedOf_perm hqueue, queuedOf_append, queuedOf_all fun e he => (hsource e he).1, hlen]
    rcases getElem?_set_cases hb' with ⟨rfl, rfl⟩ | ⟨hij, hb'⟩
    · rw [if_pos rfl]
      -- a cursor that is not at its end gave as many records as it was asked for
      have hmore : ¬ l.length < d := fun hlt => by
        rw [hact' hlt] at hact
        cases hact
      omega
    · have := h.busy i b (hready.resolve_right hij) hb' hact
      omega
  · intro levId v hst
    refine (h.covers levId v hst).imp_right ?_
    rintro ⟨i, q, hq, hqv, hcome⟩
    refine ⟨i, q, hq, hqv, ?_⟩
    show candidate i (v.createdAt, levId) ∈ queue ∨
      ∃ b, (s.cursors.set j c')[i]? = some b ∧ Ahead s.indexDbi q b (v.createdAt, levId)
    have hin : candidate i (v.createdAt, levId) ∈ s.eventQueue ++ (l.take d).map (candidate j) →
        candidate i (v.createdAt, levId) ∈ queue := hqueue.mem_iff.mpr
    rcases hcome with hcome | ⟨b, hb', hahead⟩
    · exact Or.inl (hin (List.mem_append_left _ hcome))
    · by_cases hij : j = i
      · subst hij
        rw [hc] at hb'
        cases hb'
        rw [hpj] at hq
        cases hq
        have hscanned : Scanned s.indexDbi := h.plan.indexDbi ▸ hp.serves.scanned
        have hentry := record_mem_entries hscanned (hst.1 txn htxn) hqv
        have ht : timesOk s.f v.createdAt = true := hf ▸ timesOk_of_matches hst.2
        rcases hpend.taken_or_ahead hb hkm (hkm'.trans hkm) hpend' hentry v.createdAt_lt ht hahead with hx | hx
        · exact Or.inl (hin (List.mem_append_right _ (List.mem_map_of_mem hx)))
        · exact Or.inr ⟨c', by rw [List.getElem?_set, if_pos rfl, if_pos hjc], hx⟩
      · exact Or.inr ⟨b, by rw [List.getElem?_set, if_neg hij]; exact hb', hahead⟩

theorem depth_new (f : NostrFilter) : (0 < (new f).initialScanDepth ∧ (new f).initialScanDepth ≤ 500) ∧
    0 < (new f).refillScanDepth ∧ (new f).refillScanDepth ≤ 500 := by
  simp only [new, scanDepth]
  omega

/-- The next cursor is read for the first time. -/
theorem ScanCover.initStep [StdSort] (hp : Planned f ps km) (htxn : snaps txn)
    (hok : ∀ txn, snaps txn → SnapOk f txn) (h : ScanCover snaps f ps s handed) {n : Nat}
    (ht : Todo txn ps s n) (hinit : s.nextInitIndex < s.cursors.length) :
    ∃ s' n', s.initStep txn = some s' ∧ ScanCover snaps f ps s' handed ∧ Todo txn ps s' n' ∧ n' < n := by
  obtain ⟨P, hP, rfl⟩ := ht
  obtain ⟨c, hc⟩ : ∃ c, s.cursors[s.nextInitIndex]? = some c := ⟨_, List.getElem?_eq_getElem hinit⟩
  have hzero : queuedOf s.eventQueue s.nextInitIndex = 0 :=
    queuedOf_eq_zero fun e he => Nat.ne_of_lt (h.index e he)
  have hdepth := (depth_new f).1
  rw [← h.plan.initialScanDepth] at hdepth
  obtain ⟨c', out, P', hcol, hidx, hflat, hcore⟩ :=
    h.toCoverCore.collect hp htxn hok hP hc hzero hdepth.1 hdepth.2
  let queue := if s.nextInitIndex + 1 = s.cursors.length then StdSort.sort cmp (s.eventQueue ++ out)
    else s.eventQueue ++ out
  have hqueue : queue.Perm (s.eventQueue ++ out) := by
    unfold queue
    split
    · exact StdSort.perm _ _
    · exact .refl _
  obtain ⟨hP', hcore⟩ := hcore queue (s.nextInitIndex + 1) (s.approxWork + out.length) hqueue
  refine ⟨_, _, ?_, { hcore with busy := ?_, init_le := ?_, index := ?_ }, ⟨P', hP', rfl⟩, ?_⟩
  · simp only [DBScan.initStep, hc, hcol, Option.bind_eq_bind, Option.bind_some, Option.pure_def]
    rfl
  · intro j b hj
    refine hcore.busy j b ?_
    have hj : j < s.nextInitIndex + 1 := hj
    omega
  · show s.nextInitIndex + 1 ≤ (s.cursors.set s.nextInitIndex c').length
    rw [List.length_set]
    exact hinit
  · intro e he
    show e.scanIndex < s.nextInitIndex + 1
    rcases List.mem_append.mp (hqueue.mem_iff.mp he) with he | he
    · exact Nat.lt_succ_of_lt (h.index e he)
    · rw [hidx e he]
      exact Nat.lt_succ_self _
  · show (s.cursors.set s.nextInitIndex c').length - (s.nextInitIndex + 1) + queue.length + P'.flatten.length < _
    have hlen := hqueue.length_eq
    rw [List.length_append] at hlen
    rw [List.length_set]
    omega

/-- The candidate of an event that stays. -/
theorem Stays.source (hp : Planned f ps km) (htxn : snaps txn) {levId : Nat} {v : PackedEventView}
    (hst : Stays snaps f levId v) {j : Nat} {p : Bytes} (hpj : ps[j]? = some p)
    (hpv : p ∈ keyPrefixes v (new f).indexDbi) :
    Source snaps f (candidate j (v.createdAt, levId)) j (v.createdAt, levId) := by
  have hmem := List.mem_of_getElem? hpj
  refine ⟨rfl, txn, v, htxn, hst.1 txn htxn, rfl, timesOk_of_matches hst.2, ScanCursor.start p (km p), ?_,
    makeKeyStringUint64 p v.createdAt, ?_, ?_⟩
  · rw [hp.cursors, List.getElem?_map, hpj]
    rfl
  · rw [indexKeys_eq v hp.serves.scanned]
    exact List.mem_map.mpr ⟨p, hpv, rfl⟩
  · exact (hp.serves.decides p hmem p _ (hp.serves.shape p hmem) v.createdAt_lt).mpr rfl

/-- An event that stays is passed on. -/
theorem Stays.doSend (hp : Planned f ps km) (hok : ∀ txn, snaps txn → SnapOk f txn) (htxn : snaps txn)
    (hplan : SamePlan (new f) s) {levId : Nat} {v : PackedEventView} (hst : Stays snaps f levId v) {j : Nat}
    {p : Bytes} (hpj : ps[j]? = some p) (hpv : p ∈ keyPrefixes v (new f).indexDbi) :
    (candidate j (v.createdAt, levId)).levId = levId ∧
      s.doSend txn (candidate j (v.createdAt, levId)) = true := by
  have hdec := (hst.source hp htxn hpj hpv).decode hp hok
  have hlev : (candidate j (v.createdAt, levId)).levId = levId := congrArg (fun y => y.2.2) hdec
  have hcre : (candidate j (v.createdAt, levId)).created = v.createdAt := congrArg (fun y => y.2.1) hdec
  refine ⟨hlev, ?_⟩
  unfold DBScan.doSend
  rw [hlev, hcre, show s.f = f from hplan.f]
  split
  · exact (f.doesMatchTimes_iff _).mpr ⟨hst.2.since_le, hst.2.le_until⟩
  · rw [(txn.event.lookup_eq_some_iff _ _).mpr (hst.1 txn htxn)]
    exact (f.doesMatch_iff v).mpr hst.2

/-- What is passed on was in one of the snapshots, and matched. -/
theorem CoverCore.doSend_sound (hp : Planned f ps km) (htxn : snaps txn)
    (h : CoverCore snaps f ps s ready handed) {ev : CandidateEvent} (hev : ev ∈ s.eventQueue)
    (hsend : s.doSend txn ev = true) :
    ∃ txn v, snaps txn ∧ (ev.levId, v) ∈ txn.event.rows ∧ f.Matches v := by
  unfold DBScan.doSend at hsend
  rw [show s.f = f from h.plan.f] at hsend
  split at hsend
  · rename_i hio
    obtain ⟨txn', v, p, htxn', hv, hc, hpj, hpv⟩ := (h.sources ev hev).prefix_mem hp
    refine ⟨txn', v, htxn', hv, hp.serves.sound ?_ v p (List.mem_of_getElem? hpj) hpv ?_⟩
    · rw [← h.plan.indexOnly]
      exact hio
    · rw [hc]
      exact hsend
  · split at hsend
    · rename_i v hv
      exact ⟨txn, v, htxn, (txn.event.lookup_eq_some_iff _ _).mp hv, (f.doesMatch_iff v).mp hsend⟩
    · cases hsend

/-- What was handed out once the head of the queue was dealt with. -/
def handedAfter (txn : Db) (s : DBScan) (ev : CandidateEvent) (handed : List Nat) : List Nat :=
  if s.doSend txn ev then handed ++ [ev.levId] else handed

/-- The head is gone, and its cursor counts one less. -/
theorem CoverCore.pop (hp : Planned f ps km) (htxn : snaps txn) (hok : ∀ txn, snaps txn → SnapOk f txn)
    (h : CoverCore snaps f ps s ready handed) {ev : CandidateEvent} {rest : List CandidateEvent}
    (hq : s.eventQueue = ev :: rest) {c : ScanCursor} (hc : s.cursors[ev.scanIndex]? = some c)
    {P : List (List (Nat × Nat))} (hP : Pends txn ps s P) (w : Nat) :
    let s' := { s with eventQueue := rest, approxWork := w,
                       cursors := s.cursors.set ev.scanIndex { c with outstanding := queuedOf rest ev.scanIndex } }
    c.outstanding = queuedOf rest ev.scanIndex + 1 ∧ Pends txn ps s' P ∧
    CoverCore snaps f ps s' (fun j => ready j ∧ (j = ev.scanIndex → 0 < queuedOf rest j))
      (handedAfter txn s ev handed) := by
  have hjc := (List.getElem?_eq_some_iff.mp hc).1
  have hcount : ∀ j, queuedOf s.eventQueue j = queuedOf rest j + if ev.scanIndex = j then 1 else 0 := by
    intro j
    rw [hq, queuedOf_cons]
  -- the cursor put back stands where it stood
  have hback : ∀ (j : Nat) b, (s.cursors.set ev.scanIndex
      { c with outstanding := queuedOf rest ev.scanIndex })[j]? = some b →
      ∃ b0, s.cursors[j]? = some b0 ∧ b.outstanding = queuedOf rest j ∧ b = { b0 with outstanding := b.outstanding } := by
    intro j b hb
    rcases getElem?_set_cases hb with ⟨rfl, rfl⟩ | ⟨hj, hb⟩
    · exact ⟨c, hc, rfl, rfl⟩
    · refine ⟨b, hb, ?_, rfl⟩
      rw [(h.outstanding j b hb).1, hcount, if_neg (Ne.symm hj), Nat.add_zero]
  refine ⟨by rw [(h.outstanding _ _ hc).1, hcount, if_pos rfl], ⟨?_, ?_⟩, ⟨?_, ?_, ?_, ?_, ?_, ?_⟩⟩
  · show P.length = (s.cursors.set _ _).length
    rw [List.length_set, hP.length]
  · intro j b p l hb hpj hl
    obtain ⟨b0, hb0, -, hbe⟩ := hback j b hb
    have hpend := hP.pending j b0 p l hb0 hpj hl
    rw [hbe]
    exact hpend
  · have hplan := h.plan
    have hkm : (s.cursors.set ev.scanIndex { c with outstanding := queuedOf rest ev.scanIndex }).map
        ScanCursor.keyMatch = s.cursors.map ScanCursor.keyMatch := map_keyMatch_set hc rfl
    exact ⟨hplan.f, hplan.indexOnly, hplan.indexDbi, hplan.initialScanDepth, hplan.refillScanDepth,
      hkm.trans hplan.keyMatch⟩
  · intro e he
    exact h.sources e (hq ▸ List.mem_cons_of_mem _ he)
  · intro j b hb
    obtain ⟨b0, hb0, hout, -⟩ := hback j b hb
    have := (h.outstanding j b0 hb0).2
    rw [hcount] at this
    exact ⟨hout, by show queuedOf rest j ≤ 500; omega⟩
  · intro j b p hb hpj
    obtain ⟨b0, hb0, -, hbe⟩ := hback j b hb
    rw [hbe]
    exact h.low j b0 p hb0 hpj
  · intro j b hready hb hact
    obtain ⟨b0, hb0, -, hbe⟩ := hback j b hb
    have hact0 : b0.active = true := by
      rw [hbe] at hact
      exact hact
    have hpos := h.busy j b0 hready.1 hb0 hact0
    show 0 < queuedOf rest j
    by_cases hj : ev.scanIndex = j
    · exact hready.2 hj.symm
    · rw [hcount, if_neg hj] at hpos
      exact hpos
  · intro levId v hst
    unfold handedAfter
    rcases h.covers levId v hst with hin | ⟨j, p, hpj, hpv, hcome⟩
    · left
      split
      · exact List.mem_append_left _ hin
      · exact hin
    · have hpv' : p ∈ keyPrefixes v (new f).indexDbi := h.plan.indexDbi ▸ hpv
      rcases hcome with hcome | ⟨b, hb, hahead⟩
      · rw [hq] at hcome
        rcases List.mem_cons.mp hcome with heq | hcome
        · obtain ⟨hlev, hsend⟩ := hst.doSend hp hok htxn h.plan hpj hpv'
          left
          rw [← heq, hsend, hlev, if_pos rfl]
          exact List.mem_append_right _ List.mem_cons_self
        · exact Or.inr ⟨j, p, hpj, hpv, Or.inl hcome⟩
      · refine Or.inr ⟨j, p, hpj, hpv, Or.inr ?_⟩
        show ∃ b, (s.cursors.set _ _)[j]? = some b ∧ _
        rw [List.getElem?_set]
        by_cases hj : ev.scanIndex = j
        · rw [if_pos hj, if_pos hjc]
          rw [← hj, hc] at hb
          cases hb
          exact ⟨_, rfl, hahead⟩
        · rw [if_neg hj]
          exact ⟨b, hb, hahead⟩

/-- The head leaves, and its cursor is refilled when nothing of it is queued. -/
theorem ScanCover.release (hp : Planned f ps km) (htxn : snaps txn) (hok : ∀ txn, snaps txn → SnapOk f txn)
    (h : ScanCover snaps f ps s handed) (hdone : s.nextInitIndex = s.cursors.length) {ev : CandidateEvent}
    {rest : List CandidateEvent} (hq : s.eventQueue = ev :: rest) {n : Nat} (ht : Todo txn ps s n) (w : Nat) :
    ∃ s' n', ({ s with eventQueue := rest, approxWork := w } : DBScan).release txn ev = some s' ∧
      ScanCover snaps f ps s' (handedAfter txn s ev handed) ∧ Todo txn ps s' n' ∧ n' < n := by
  obtain ⟨P, hP, rfl⟩ := ht
  have hidx : ev.scanIndex < s.cursors.length := by
    rw [← hdone]
    exact h.index ev (by rw [hq]; exact List.mem_cons_self)
  obtain ⟨c, hc⟩ : ∃ c, s.cursors[ev.scanIndex]? = some c := ⟨_, List.getElem?_eq_getElem hidx⟩
  obtain ⟨hout, hP', hcore⟩ := h.toCoverCore.pop hp htxn hok hq hc hP w
  have hindex : ∀ e ∈ rest, e.scanIndex < s.nextInitIndex := fun e he =>
    h.index e (by rw [hq]; exact List.mem_cons_of_mem _ he)
  have hle := (h.outstanding _ _ hc).2
  rw [hq, queuedOf_cons, if_pos rfl] at hle
  have hsub : subU64 c.outstanding 1 = queuedOf rest ev.scanIndex := by
    rw [hout]
    exact subU64_succ (by omega)
  by_cases hmore : queuedOf rest ev.scanIndex = 0
  · -- nothing of the cursor is queued: read the next portion and merge it
    rw [hmore] at hcore hP'
    have hc' : (s.cursors.set ev.scanIndex { c with outstanding := 0 })[ev.scanIndex]? =
        some { c with outstanding := 0 } := by
      rw [List.getElem?_set, if_pos rfl, if_pos hidx]
    have hdepth := (depth_new f).2
    rw [← h.plan.refillScanDepth] at hdepth
    obtain ⟨c', out, P', hcol, hoidx, hflat, hcore'⟩ :=
      hcore.collect hp htxn hok hP' hc' hmore hdepth.1 hdepth.2
    let queue := rest.merge out fun a b => !cmp b a
    have hqueue : queue.Perm (rest ++ out) := List.merge_perm_append _
    obtain ⟨hP'', hcore'⟩ := hcore' queue s.nextInitIndex (w + out.length) hqueue
    simp only [List.set_set] at hP'' hcore'
    refine ⟨_, _, ?_, { hcore' with busy := ?_, init_le := ?_, index := ?_ }, ⟨P', hP'', rfl⟩, ?_⟩
    · rw [release_eq (s := { s with eventQueue := rest, approxWork := w }) hc hsub, hmore, refill,
        if_pos rfl, hcol]
      rfl
    · intro j b hj
      refine hcore'.busy j b ?_
      have hj : j < s.nextInitIndex := hj
      by_cases hje : j = ev.scanIndex
      · exact Or.inr hje
      · exact Or.inl ⟨hj, fun h => absurd h hje⟩
    · show s.nextInitIndex ≤ (s.cursors.set ev.scanIndex c').length
      rw [List.length_set]
      exact h.init_le
    · intro e he
      show e.scanIndex < s.nextInitIndex
      rcases List.mem_append.mp (hqueue.mem_iff.mp he) with he | he
      · exact hindex e he
      · rw [hoidx e he, hdone]
        exact hidx
    · show (s.cursors.set ev.scanIndex c').length - s.nextInitIndex + queue.length + P'.flatten.length < _
      have hlen := hqueue.length_eq
      rw [List.length_append] at hlen
      rw [List.length_set, hq, List.length_cons]
      omega
  · refine ⟨_, _, ?_, { hcore with busy := ?_, init_le := ?_, index := hindex }, ⟨P, hP', rfl⟩, ?_⟩
    · rw [release_eq (s := { s with eventQueue := rest, approxWork := w }) hc hsub, refill, if_neg hmore]
    · intro j b hj
      refine hcore.busy j b ⟨hj, fun hje => ?_⟩
      rw [hje]
      omega
    · show s.nextInitIndex ≤ (s.cursors.set ev.scanIndex _).length
      rw [List.length_set]
      exact h.init_le
    · show (s.cursors.set ev.scanIndex _).length - s.nextInitIndex + rest.length + P.flatten.length < _
      rw [List.length_set, hq, List.length_cons]
      omega

/-- When all cursors were read and the queue is empty, nothing is ahead. -/
theorem ScanCover.ended (h : ScanCover snaps f ps s handed) (hdone : s.nextInitIndex = s.cursors.length)
    (hq : s.eventQueue = []) {levId : Nat} {v : PackedEventView} (hst : Stays snaps f levId v) :
    levId ∈ handed := by
  rcases h.covers levId v hst with hin | ⟨j, p, -, -, hcome | ⟨c, hc, hahead⟩⟩
  · exact hin
  · rw [hq] at hcome
    cases hcome
  · have hj := (List.getElem?_eq_some_iff.mp hc).1
    have hpos := h.busy j c (by rw [hdone]; exact hj) hc hahead.1
    rw [hq] at hpos
    exact absurd hpos (Nat.lt_irrefl 0)

/-- The levId belongs to an event that matches and is in one of the snapshots. -/
def Occurs (snaps : Db → Prop) (f : NostrFilter) (levId : Nat) : Prop :=
  ∃ txn v, snaps txn ∧ (levId, v) ∈ txn.event.rows ∧ f.Matches v

/-- **One turn of the loop** over the next snapshot, with `n` to do: a pause, less to do, the end
with nothing lost, or an event handed out. -/
inductive CoverTurn {σ : Type} (snaps : Db → Prop) (f : NostrFilter) (ps : List Bytes) (txn : Db)
    (handleEvent : Nat → σ → Bool × σ) (paused : Bool × σ) (handed : List Nat) (n : Nat) : ScanStep σ → Prop
  | pause (s : DBScan) : paused.1 = true → ScanCover snaps f ps s handed →
      CoverTurn snaps f ps txn handleEvent paused handed n (.returned false s paused.2)
  | again (s : DBScan) (n' : Nat) : paused.1 = false → ScanCover snaps f ps s handed → Todo txn ps s n' →
      n' < n → CoverTurn snaps f ps txn handleEvent paused handed n (.again s paused.2)
  | done (s : DBScan) : paused.1 = false → (∀ levId v, Stays snaps f levId v → levId ∈ handed) →
      CoverTurn snaps f ps txn handleEvent paused handed n (.returned true s paused.2)
  | stop (levId : Nat) (s : DBScan) : paused.1 = false → Occurs snaps f levId →
      (handleEvent levId paused.2).1 = true →
      CoverTurn snaps f ps txn handleEvent paused handed n (.returned true s (handleEvent levId paused.2).2)
  | next (levId : Nat) (s : DBScan) (n' : Nat) : paused.1 = false → Occurs snaps f levId →
      (handleEvent levId paused.2).1 = false → ScanCover snaps f ps s (handed ++ [levId]) →
      Todo txn ps s n' → n' < n →
      CoverTurn snaps f ps txn handleEvent paused handed n (.again s (handleEvent levId paused.2).2)

theorem ScanCover.turn [StdSort] {σ : Type} (hp : Planned f ps km) (htxn : snaps txn)
    (hok : ∀ txn, snaps txn → SnapOk f txn) (h : ScanCover snaps f ps s handed) {n : Nat}
    (ht : Todo txn ps s n) (handleEvent doPause : Nat → σ → Bool × σ) (st : σ) :
    CoverTurn snaps f ps txn handleEvent (doPause (s.approxWork + 1) st) handed n
      (scanStep txn handleEvent doPause s st) := by
  have hwork := h.work (s.approxWork + 1)
  have htwork : Todo txn ps { s with approxWork := s.approxWork + 1 } n := by
    obtain ⟨P, hP, hn⟩ := ht
    exact ⟨P, ⟨hP.length, hP.pending⟩, hn⟩
  unfold scanStep
  simp only []
  by_cases hpause : (doPause (s.approxWork + 1) st).1 = true
  · rw [if_pos hpause]
    exact .pause _ hpause hwork
  · rw [if_neg hpause]
    have hpause : (doPause (s.approxWork + 1) st).1 = false := by simpa using hpause
    by_cases hinit : s.nextInitIndex < s.cursors.length
    · rw [if_pos hinit]
      obtain ⟨s', n', hs', hcov, ht', hlt⟩ := hwork.initStep hp htxn hok htwork hinit
      rw [hs']
      exact .again s' n' hpause hcov ht' hlt
    · rw [if_neg hinit]
      have hdone : s.nextInitIndex = s.cursors.length := by
        have := h.init_le
        omega
      cases hq : s.eventQueue with
      | nil => exact .done _ hpause fun levId v hst => h.ended hdone hq hst
      | cons ev rest =>
        have hev : ev ∈ s.eventQueue := by
          rw [hq]
          exact List.mem_cons_self
        obtain ⟨s', n', hs', hcov, ht', hlt⟩ := h.release hp htxn hok hdone hq ht
          (if s.indexOnly = true then s.approxWork + 1 else s.approxWork + 1 + 10)
        simp only [show ∀ q w, doSend txn { s with eventQueue := q, approxWork := w } ev = s.doSend txn ev
          from fun _ _ => rfl, hs']
        unfold handedAfter at hcov
        by_cases hsend : s.doSend txn ev = true
        · rw [if_pos hsend] at hcov
          rw [if_pos hsend]
          have hocc : Occurs snaps f ev.levId := h.toCoverCore.doSend_sound hp htxn hev hsend
          by_cases hstop : (handleEvent ev.levId (doPause (s.approxWork + 1) st).2).1 = true
          · rw [if_pos hstop]
            exact .stop _ _ hpause hocc hstop
          · rw [if_neg hstop]
            exact .next _ s' n' hpause hocc (by simpa using hstop) hcov ht' hlt
        · rw [if_neg hsend] at hcov
          rw [if_neg hsend]
          exact .again s' n' hpause hcov ht' hlt

end

end DBScan

end Strfry
