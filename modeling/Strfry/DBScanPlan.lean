import Strfry.DBScanCollect

/-!
# The plan of a scan

Whichever index the constructor chooses, its cursors serve the filter (`Serves`): they
walk distinct blocks of the index, every matching event has a record in one of the
blocks, and when the scan is index-only every record of the blocks whose time is right
belongs to a matching event.

A key of the scanned indices is a prefix followed by created_at (`keyPrefixes`); the
comparator of the index sees the prefix as `headOf`.
-/

namespace Strfry

namespace DBScan

/-- The prefixes of an event's keys in the indices scans use. -/
def keyPrefixes (v : PackedEventView) : Index → List Bytes
  | .createdAt => [[]]
  | .id => [v.id]
  | .pubkey => [v.pubkey]
  | .kind => [toSv v.kind]
  | .pubkeyKind => [v.pubkey ++ toSv v.kind]
  | .tag => v.tags.map fun t => t.1 :: t.2
  | _ => []

/-- The prefixes that occur in an index have its shape. -/
def Shape : Index → Bytes → Prop
  | .createdAt, s => s = []
  | .id, s => s.length = 32
  | .pubkey, s => s.length = 32
  | .kind, s => s.length = 8
  | .pubkeyKind, s => s.length = 40
  | .tag, _ => True
  | _, _ => False

/-- The indices scans use. -/
def Scanned (i : Index) : Prop :=
  i = .createdAt ∨ i = .id ∨ i = .pubkey ∨ i = .kind ∨ i = .pubkeyKind ∨ i = .tag

/-- What the comparator of the index compares before created_at. -/
def headOf : Index → Bytes → Bytes × Nat
  | .kind, s => ([], fromSv s)
  | .pubkeyKind, s => ((ParsedKeyStringUint64.parse s).s, (ParsedKeyStringUint64.parse s).n)
  | _, s => (s, 0)

theorem indexKeys_eq (v : PackedEventView) {i : Index} (hi : Scanned i) :
    indexKeys v i = (keyPrefixes v i).map fun s => makeKeyStringUint64 s v.createdAt := by
  rcases hi with rfl | rfl | rfl | rfl | rfl | rfl
  · rfl
  · rfl
  · rfl
  · rfl
  · rfl
  · simp [indexKeys, keyPrefixes]

theorem shape_keyPrefixes (v : PackedEventView) {i : Index} {s : Bytes} (hi : Scanned i)
    (hs : s ∈ keyPrefixes v i) : Shape i s := by
  rcases hi with rfl | rfl | rfl | rfl | rfl | rfl
  · exact List.mem_singleton.mp hs
  · rw [List.mem_singleton.mp hs]
    exact v.length_id
  · rw [List.mem_singleton.mp hs]
    exact v.length_pubkey
  · rw [List.mem_singleton.mp hs]
    exact length_toSv _
  · rw [List.mem_singleton.mp hs]
    show (v.pubkey ++ toSv v.kind).length = 40
    rw [List.length_append, v.length_pubkey, length_toSv]
  · trivial

theorem entryOrd_makeKey {i : Index} {s : Bytes} (hs : Shape i s) (n lev : Nat) (hn : n < 2 ^ 64) :
    entryOrd i (makeKeyStringUint64 s n, lev) =
      toLex ((headOf i s).1, toLex ((headOf i s).2, toLex (n, lev))) := by
  cases i with
  | createdAt =>
    have hs : s = [] := hs
    subst hs
    show toLex (([] : Bytes), toLex (0, toLex (fromSv (toSv n), lev))) = _
    rw [fromSv_toSv n hn]
    rfl
  | id => simp only [entryOrd, parse_makeKey s n hn, headOf]
  | pubkey => simp only [entryOrd, parse_makeKey s n hn, headOf]
  | tag => simp only [entryOrd, parse_makeKey s n hn, headOf]
  | pubkeyKind => simp only [entryOrd, parse_makeKey s n hn, headOf]
  | kind =>
    have hs : s.length = 8 := hs
    simp only [entryOrd, headOf, ParsedKeyUint64Uint64.parse, makeKeyStringUint64,
      List.take_left' hs, List.drop_left' hs, fromSv_toSv n hn]
  | deletion => exact absurd hs id
  | expiration => exact absurd hs id
  | replace => exact absurd hs id

theorem headOf_inj {i : Index} {s t : Bytes} (hs : Shape i s) (ht : Shape i t)
    (h : headOf i s = headOf i t) : s = t := by
  cases i with
  | createdAt => exact (congrArg Prod.fst h : s = t)
  | id => exact (congrArg Prod.fst h : s = t)
  | pubkey => exact (congrArg Prod.fst h : s = t)
  | tag => exact (congrArg Prod.fst h : s = t)
  | kind =>
    have hs : s.length = 8 := hs
    have ht : t.length = 8 := ht
    exact fromLE_inj s t (by omega) (congrArg Prod.snd h)
  | pubkeyKind =>
    have hs : s.length = 40 := hs
    have ht : t.length = 40 := ht
    have h1 : s.take 32 = t.take 32 := by
      have := congrArg Prod.fst h
      simpa [headOf, ParsedKeyStringUint64.parse, hs, ht] using this
    have h2 : fromLE (s.drop 32) = fromLE (t.drop 32) := by
      have := congrArg Prod.snd h
      simpa [headOf, ParsedKeyStringUint64.parse, hs, ht, fromSv] using this
    have h3 := fromLE_inj _ _ (by simp [hs, ht]) h2
    rw [← List.take_append_drop 32 s, ← List.take_append_drop 32 t, h1, h3]
  | deletion => exact absurd hs id
  | expiration => exact absurd hs id
  | replace => exact absurd hs id

/-- A record of a scanned index comes from one event. -/
theorem entry_cases {txn : Db} {i : Index} (hi : Scanned i) {e : Bytes × Nat}
    (he : e ∈ txn.entries i) : ∃ v s, (e.2, v) ∈ txn.event.rows ∧ s ∈ keyPrefixes v i ∧
      e = record s (v.createdAt, e.2) := by
  obtain ⟨v, hv, hk⟩ := (txn.mem_entries i e).mp he
  rw [indexKeys_eq v hi] at hk
  obtain ⟨s, hs, hk⟩ := List.mem_map.mp hk
  exact ⟨v, s, hv, hs, Prod.ext hk.symm rfl⟩

theorem record_mem_entries {txn : Db} {i : Index} (hi : Scanned i) {lev : Nat} {v : PackedEventView}
    {s : Bytes} (hv : (lev, v) ∈ txn.event.rows) (hs : s ∈ keyPrefixes v i) :
    record s (v.createdAt, lev) ∈ txn.entries i := by
  refine (txn.mem_entries i _).mpr ⟨v, hv, ?_⟩
  rw [indexKeys_eq v hi]
  exact List.mem_map.mpr ⟨s, hs, rfl⟩

/-- What `keyMatch` has to decide for the prefix `p`. -/
def Decides (i : Index) (p : Bytes) (km : Bytes → KeyMatchResult) : Prop :=
  ∀ s n, Shape i s → n < 2 ^ 64 → (km (makeKeyStringUint64 s n) = .yes ↔ s = p)

/-- The levIds of the table are 64-bit integers. -/
def LevIdsFit (txn : Db) : Prop := ∀ r ∈ txn.event.rows, r.1 < 2 ^ 64

/-- A prefix of the right shape is a block of the index. -/
theorem keyBlock {txn : Db} {i : Index} (hi : Scanned i) (hfit : LevIdsFit txn) {p : Bytes}
    (hp : Shape i p) {km : Bytes → KeyMatchResult} (hkm : Decides i p km) :
    KeyBlock txn i p km (headOf i p).1 (headOf i p).2 := by
  refine ⟨fun e he e' he' h => ?_, fun e he hyes => ?_, fun e he hno => ?_, fun n lev hn => ?_,
    fun e he => ?_, fun e he => ?_⟩
  · obtain ⟨v, s, -, hs, hes⟩ := entry_cases hi he
    obtain ⟨v', s', -, hs', hes'⟩ := entry_cases hi he'
    have hsh := shape_keyPrefixes v hi hs
    have hsh' := shape_keyPrefixes v' hi hs'
    rw [hes, hes'] at h ⊢
    unfold record at h ⊢
    rw [entryOrd_makeKey hsh _ _ v.createdAt_lt, entryOrd_makeKey hsh' _ _ v'.createdAt_lt] at h
    simp only [EmbeddingLike.apply_eq_iff_eq, Prod.mk.injEq] at h
    rw [headOf_inj hsh hsh' (Prod.ext h.1 h.2.1), h.2.2.1, h.2.2.2]
  · obtain ⟨v, s, -, hs, hes⟩ := entry_cases hi he
    refine ⟨v.createdAt, v.createdAt_lt, ?_⟩
    rw [hes] at hyes
    rw [← (hkm s _ (shape_keyPrefixes v hi hs) v.createdAt_lt).mp hyes]
    exact hes
  · obtain ⟨v, s, -, hs, hes⟩ := entry_cases hi he
    have hsh := shape_keyPrefixes v hi hs
    refine ⟨(headOf i s).1, (headOf i s).2, toLex (v.createdAt, e.2), ?_, fun h => ?_⟩
    · rw [hes]
      exact entryOrd_makeKey hsh _ _ v.createdAt_lt
    · have hsp := headOf_inj hsh hp h
      rw [hes, record, (hkm s _ hsh v.createdAt_lt).mpr hsp] at hno
      cases hno
  · exact entryOrd_makeKey hp n lev hn
  · obtain ⟨v, -, hv, -⟩ := entry_cases hi he
    exact txn.event.pos _ hv
  · obtain ⟨v, -, hv, -⟩ := entry_cases hi he
    have := hfit _ hv
    show e.2 ≤ 2 ^ 64 - 1
    omega

/-! ## A new cursor -/

section
variable {txn : Db} {i : Index} {p : Bytes} {km : Bytes → KeyMatchResult} {a : Bytes} {b : Nat}

/-- Where a new cursor starts: at the greatest place of its block. -/
theorem entryOrd_start (hb : KeyBlock txn i p km a b) :
    entryOrd i ((ScanCursor.start p km).resumeKey, (ScanCursor.start p km).resumeVal) =
      toLex (a, toLex (b, toLex (maxU64, maxU64))) := by
  show entryOrd i (p ++ List.replicate 8 0xFF, maxU64) = _
  rw [replicate_ff]
  exact hb.ord maxU64 maxU64 (by norm_num [maxU64])

/-- A record of the block is accepted by `keyMatch`. -/
theorem keyMatch_record (hb : KeyBlock txn i p km a b) {x : Nat × Nat} (hx : x.1 < 2 ^ 64)
    (he : record p x ∈ txn.entries i) : km (record p x).1 = .yes := by
  cases hkm : km (record p x).1 with
  | yes => rfl
  | no =>
    obtain ⟨a', b', y, hord, hne⟩ := hb.no _ he hkm
    rw [show x = (x.1, x.2) from rfl, hb.ord x.1 x.2 hx] at hord
    simp only [EmbeddingLike.apply_eq_iff_eq, Prod.mk.injEq] at hord
    exact absurd (Prod.ext hord.1.symm hord.2.1.symm) hne

/-- From the start of a cursor its block comes first: nothing between the block and the start
is left out. -/
theorem block_first (hb : KeyBlock txn i p km a b) {x y : Bytes × Nat} (hx : x ∈ txn.entries i)
    (hy : y ∈ txn.entries i) (hxs : entryOrd i x ≤ toLex (a, toLex (b, toLex (maxU64, maxU64))))
    (hle : entryOrd i y ≤ entryOrd i x) (hyes : km y.1 = .yes) : km x.1 = .yes := by
  obtain ⟨n, hn, hyr⟩ := hb.yes y hy hyes
  cases hkm : km x.1 with
  | yes => rfl
  | no =>
    obtain ⟨a', b', z, hord, hne⟩ := hb.no x hx hkm
    rw [hyr, hb.ord n y.2 hn, hord] at hle
    rw [hord] at hxs
    simp only [Prod.Lex.toLex_le_toLex] at hle hxs
    exfalso
    apply hne
    rcases hle with h | ⟨rfl, h⟩
    · rcases hxs with h' | ⟨rfl, -⟩
      · exact absurd h (lt_asymm h')
      · exact absurd h (lt_irrefl _)
    · have : b' = b := by
        rcases hxs with h' | ⟨-, h'⟩
        · exact absurd h' (lt_irrefl _)
        · omega
      rw [this]

/-- A record of the block is the record of its parsed key. -/
theorem record_parse (hb : KeyBlock txn i p km a b) {e : Bytes × Nat} (he : e ∈ txn.entries i)
    (hyes : km e.1 = .yes) : (ParsedKeyStringUint64.parse e.1).n < 2 ^ 64 ∧
      record p ((ParsedKeyStringUint64.parse e.1).n, e.2) = e := by
  obtain ⟨n, hn, hr⟩ := hb.yes e he hyes
  have hp : (ParsedKeyStringUint64.parse e.1).n = n := by
    rw [hr]
    show (ParsedKeyStringUint64.parse (makeKeyStringUint64 p n)).n = n
    rw [parse_makeKey p n hn]
  rw [hp]
  exact ⟨hn, hr.symm⟩

/-- The record comes where the cursor goes on, or further down. -/
def Ahead (i : Index) (p : Bytes) (c : ScanCursor) (x : Nat × Nat) : Prop :=
  c.active = true ∧ entryOrd i (record p x) ≤ entryOrd i (c.resumeKey, c.resumeVal)

/-- The cursor does not stand above its block. -/
def Low (i : Index) (p : Bytes) (c : ScanCursor) : Prop :=
  c.active = true → entryOrd i (c.resumeKey, c.resumeVal) ≤ entryOrd i (record p (maxU64, maxU64))

/-- Whatever the table holds, something is pending at a cursor. -/
theorem exists_pending (hb : KeyBlock txn i p km a b) (f : NostrFilter) {c : ScanCursor}
    (hkm : c.keyMatch = km) (hlow : Low i p c) : ∃ P, Pending txn i p f c P := by
  by_cases hact : c.active = true
  swap
  · exact ⟨[], Or.inl ⟨by simpa using hact, rfl⟩⟩
  have htop := hlow hact
  rw [hb.ord maxU64 maxU64 (by norm_num [maxU64])] at htop
  have hW : ∀ e, e ∈ txn.foreachDown i c.resumeKey c.resumeVal ↔
      e ∈ txn.entries i ∧ entryOrd i e ≤ entryOrd i (c.resumeKey, c.resumeVal) :=
    fun e => mem_walkDown _ _ _ e
  have hle := walkDown_pairwise_ge (entryOrd i) (txn.entries i) (entryOrd i (c.resumeKey, c.resumeVal))
  change (txn.foreachDown i _ _).Pairwise _ at hle
  generalize hWe : txn.foreachDown i c.resumeKey c.resumeVal = W at hW hle
  have hsplit := filter_append_filter_not _ (fun e : Bytes × Nat => decide (km e.1 = .yes)) W hle (by
    intro x hx y hy hxy hyes
    rw [decide_eq_true_eq] at hyes ⊢
    exact block_first hb ((hW x).mp hx).1 ((hW y).mp hy).1 (le_trans ((hW x).mp hx).2 htop) hxy hyes)
  have hmem : ∀ e ∈ W.filter (fun e => decide (km e.1 = .yes)), e ∈ txn.entries i ∧ km e.1 = .yes := by
    intro e he
    obtain ⟨heW, hk⟩ := List.mem_filter.mp he
    exact ⟨((hW e).mp heW).1, by simpa using hk⟩
  let V := (W.filter fun e => decide (km e.1 = .yes)).map fun e =>
    ((ParsedKeyStringUint64.parse e.1).n, e.2)
  have hmap : V.map (record p) = W.filter fun e => decide (km e.1 = .yes) := by
    rw [List.map_map]
    refine (List.map_congr_left fun e he => ?_).trans (List.map_id _)
    exact (record_parse hb (hmem e he).1 (hmem e he).2).2
  refine ⟨V.filter fun x => timesOk f x.1, Or.inr ⟨hact, V,
    ⟨?_, W.filter fun e => !decide (km e.1 = .yes), ?_, ?_⟩, rfl⟩⟩
  · intro x hx
    obtain ⟨e, he, rfl⟩ := List.mem_map.mp hx
    obtain ⟨hn, hr⟩ := record_parse hb (hmem e he).1 (hmem e he).2
    rw [hr, hkm]
    exact ⟨hn, (hmem e he).2⟩
  · rw [hmap, hWe]
    exact hsplit
  · intro e he
    have hno := (List.mem_filter.mp he).2
    rw [hkm]
    cases hk : km e.1 with
    | no => rfl
    | yes => simp [hk] at hno

/-- What is pending at a cursor: the records of its block that are ahead of it, within the times. -/
theorem Pending.mem_iff (hb : KeyBlock txn i p km a b) {f : NostrFilter} {c : ScanCursor}
    (hkm : c.keyMatch = km) {P : List (Nat × Nat)} (h : Pending txn i p f c P) (x : Nat × Nat) :
    x ∈ P ↔ record p x ∈ txn.entries i ∧ x.1 < 2 ^ 64 ∧ timesOk f x.1 = true ∧ Ahead i p c x := by
  rcases h with ⟨hact, rfl⟩ | ⟨hact, V, hAt, rfl⟩
  · simp [Ahead, hact]
  · obtain ⟨hV, R, hR, hno⟩ := hAt
    have hdown : ∀ e, e ∈ V.map (record p) ++ R ↔
        e ∈ txn.entries i ∧ entryOrd i e ≤ entryOrd i (c.resumeKey, c.resumeVal) := by
      intro e
      rw [← hR]
      exact mem_walkDown _ _ _ e
    rw [List.mem_filter]
    constructor
    · rintro ⟨hx, ht⟩
      obtain ⟨he, hle⟩ := (hdown _).mp (List.mem_append_left _ (List.mem_map_of_mem hx))
      exact ⟨he, (hV x hx).1, ht, hact, hle⟩
    · rintro ⟨he, h64, ht, -, hle⟩
      refine ⟨?_, ht⟩
      rcases List.mem_append.mp ((hdown _).mpr ⟨he, hle⟩) with hx | hx
      · obtain ⟨y, hy, heq⟩ := List.mem_map.mp hx
        obtain ⟨-, h1⟩ := makeKey_inj (hV y hy).1 h64 (congrArg Prod.fst heq)
        have h2 : (record p y).2 = (record p x).2 := congrArg Prod.snd heq
        exact (Prod.ext h1 h2 : y = x) ▸ hy
      · have hyes := keyMatch_record hb h64 he
        rw [← hkm, hno _ hx] at hyes
        cases hyes

theorem start_active (p : Bytes) (km : Bytes → KeyMatchResult) : (ScanCursor.start p km).active = true := by
  simp [ScanCursor.active, ScanCursor.start]

theorem low_start (hb : KeyBlock txn i p km a b) (km' : Bytes → KeyMatchResult) :
    Low i p (ScanCursor.start p km') := by
  intro _
  have hord := entryOrd_start hb
  change entryOrd i ((ScanCursor.start p km').resumeKey, (ScanCursor.start p km').resumeVal) = _ at hord
  rw [hord, hb.ord maxU64 maxU64 (by norm_num [maxU64])]

/-- A new cursor has its whole block ahead. -/
theorem ahead_start (hb : KeyBlock txn i p km a b) (km' : Bytes → KeyMatchResult) {x : Nat × Nat}
    (hx : x.1 < 2 ^ 64) (hfit : x.2 ≤ maxU64) : Ahead i p (ScanCursor.start p km') x := by
  refine ⟨start_active p km', ?_⟩
  have hord := entryOrd_start hb
  change entryOrd i ((ScanCursor.start p km').resumeKey, (ScanCursor.start p km').resumeVal) = _ at hord
  rw [hord, show x = (x.1, x.2) from rfl, hb.ord _ _ hx]
  simp only [Prod.Lex.toLex_le_toLex, lt_self_iff_false, true_and, false_or]
  unfold maxU64 at hfit ⊢
  omega

/-- A new cursor stands before its whole block. -/
theorem pending_start (hb : KeyBlock txn i p km a b) (f : NostrFilter) :
    ∃ P, Pending txn i p f (ScanCursor.start p km) P ∧
      ∀ x, x ∈ P ↔ record p x ∈ txn.entries i ∧ x.1 < 2 ^ 64 ∧ timesOk f x.1 = true := by
  obtain ⟨P, hP⟩ := exists_pending hb f (c := ScanCursor.start p km) rfl (low_start hb km)
  refine ⟨P, hP, fun x => (hP.mem_iff hb rfl x).trans ?_⟩
  constructor
  · rintro ⟨he, hx, ht, -⟩
    exact ⟨he, hx, ht⟩
  · rintro ⟨he, hx, ht⟩
    exact ⟨he, hx, ht, ahead_start hb km hx (hb.fits _ he)⟩

end

/-! ## The plan -/

/-- Fewer than 2^24 values in every field of the filter. -/
structure SmallFields (f : NostrFilter) : Prop where
  ids : ∀ s, f.ids = some s → s.size < 2 ^ 24
  authors : ∀ s, f.authors = some s → s.size < 2 ^ 24
  kinds : ∀ s, f.kinds = some s → s.size < 2 ^ 24
  tags : ∀ t ∈ f.tags, t.2.size < 2 ^ 24

/-- Cursors at the prefixes `ps` of index `i`, matching keys with `km`, answer the filter. -/
structure Serves (f : NostrFilter) (i : Index) (indexOnly : Bool) (ps : List Bytes)
    (km : Bytes → Bytes → KeyMatchResult) : Prop where
  scanned : Scanned i
  ne_nil : ps ≠ []
  length_lt : ps.length < 2 ^ 24
  shape : ∀ p ∈ ps, Shape i p
  decides : ∀ p ∈ ps, Decides i p (km p)
  complete : ∀ v, f.Matches v → ∃ p ∈ ps, p ∈ keyPrefixes v i
  sound : indexOnly = true → ∀ v, ∀ p ∈ ps, p ∈ keyPrefixes v i →
    f.doesMatchTimes v.createdAt = true → f.Matches v

theorem decides_prefixMatch {i : Index} {p : Bytes} (h : ∀ s, Shape i s → s.length = p.length) :
    Decides i p (prefixMatch p) := by
  intro s n hs _
  unfold prefixMatch
  rw [← startsWith_makeKey s p n (h s hs)]
  split
  · rename_i hw; simp [hw]
  · rename_i hw; simp [hw]

theorem decides_exactMatch (i : Index) (p : Bytes) : Decides i p (exactMatch p) := by
  intro s n _ _
  have hlen : (makeKeyStringUint64 s n).length = s.length + 8 := by
    simp [makeKeyStringUint64]
  unfold exactMatch
  rw [hlen]
  by_cases hl : s.length = p.length
  · rw [← startsWith_makeKey s p n hl]
    split
    · rename_i hw; simp [hw.2]
    · rename_i hw
      simp only [reduceCtorEq, false_iff]
      exact fun h => hw ⟨by omega, h⟩
  · rw [if_neg (by omega)]
    simp only [reduceCtorEq, false_iff]
    exact fun h => hl (by rw [h])

theorem decides_kind {kind : Nat} (hk : kind < 2 ^ 64) :
    Decides .kind (toSv kind) fun k =>
      if (ParsedKeyUint64Uint64.parse k).n1 = kind then .yes else .no := by
  intro s n hs _
  have hs : s.length = 8 := hs
  simp only [ParsedKeyUint64Uint64.parse, makeKeyStringUint64, List.take_left' hs]
  constructor
  · intro h
    split at h
    · rename_i he
      rw [← he, toSv_fromSv s hs]
    · cases h
  · rintro rfl
    rw [if_pos (fromSv_toSv kind hk)]

theorem smallestTag_mem {ts : List (Byte × FilterSetBytes)} {t : Byte × FilterSetBytes}
    (h : smallestTag ts = some t) : t ∈ ts := by
  cases ts with
  | nil => cases h
  | cons u us =>
    have hmem : ∀ (l : List (Byte × FilterSetBytes)) (b : Byte × FilterSetBytes),
        l.foldl (fun best u => if u.2.size < best.2.size then u else best) b ∈ b :: l := by
      intro l
      induction l with
      | nil => intro b; exact List.mem_cons_self
      | cons x xs ih =>
        intro b
        rw [List.foldl_cons]
        rcases List.mem_cons.mp (ih (if x.2.size < b.2.size then x else b)) with h | h
        · rw [h]
          split
          · simp
          · simp
        · exact List.mem_cons_of_mem _ (List.mem_cons_of_mem _ h)
    rw [← Option.some.inj h]
    exact hmem us u

theorem smallestTag_none {ts : List (Byte × FilterSetBytes)} (h : smallestTag ts = none) : ts = [] := by
  cases ts with
  | nil => rfl
  | cons u us => cases h

theorem length_elems (s : FilterSetBytes) : s.elems.length = s.size := by
  simp [FilterSetBytes.elems, FilterSetBytes.size]

theorem eq_none_of_toNat {σ : Type} (o : Option σ) (h : o.isSome.toNat = 0) : o = none := by
  cases o with
  | none => rfl
  | some _ => cases h

section
variable {f : NostrFilter} (hv : f.Valid) (hn : f.neverMatch = false) (hsmall : SmallFields f)
include hv hn hsmall

theorem serves_ids {ids : FilterSetBytes} (hids : f.ids = some ids) :
    Serves f .id f.indexOnlyScans ids.elems prefixMatch := by
  obtain ⟨hne, hlen⟩ := hv.ids ids hids
  refine ⟨by simp [Scanned], hne, by rw [length_elems]; exact hsmall.ids ids hids, hlen,
    fun p hp => decides_prefixMatch fun s hs => Eq.trans hs (hlen p hp).symm, fun v hm => ?_,
    fun hio v p hp hpv ht => ?_⟩
  · exact ⟨v.id, hm.ids ids hids, List.mem_singleton.mpr rfl⟩
  · rcases hv.indexOnly hio with h1 | h2
    · simp only [NostrFilter.numFields, hids, Option.isSome_some, Bool.toNat_true] at h1
      have ha := eq_none_of_toNat f.authors (by omega)
      have hk := eq_none_of_toNat f.kinds (by omega)
      have htags : f.tags = [] := List.length_eq_zero_iff.mp (by omega)
      obtain ⟨h3, h4⟩ := (f.doesMatchTimes_iff _).mp ht
      rw [List.mem_singleton.mp hpv] at hp
      refine ⟨hn, h3, h4, fun s hs => ?_, by simp [ha], by simp [hk], by simp [htags]⟩
      rw [hids] at hs
      cases hs
      exact hp
    · rw [hids] at h2
      cases h2.1

theorem serves_tags {t : Byte × FilterSetBytes} (hids : f.ids = none) (ht : t ∈ f.tags) :
    Serves f .tag f.indexOnlyScans (t.2.elems.map (t.1 :: ·)) exactMatch := by
  refine ⟨by simp [Scanned], by simpa using hv.tags t ht, ?_, fun _ _ => trivial,
    fun p _ => decides_exactMatch _ p, fun v hm => ?_, fun hio v p hp hpv htm => ?_⟩
  · rw [List.length_map, length_elems]
    exact hsmall.tags t ht
  · obtain ⟨u, hu, h1, h2⟩ := hm.tags t ht
    refine ⟨t.1 :: u.2, List.mem_map.mpr ⟨u.2, h2, rfl⟩, List.mem_map.mpr ⟨u, hu, ?_⟩⟩
    rw [h1]
  · rcases hv.indexOnly hio with h1 | h2
    · simp only [NostrFilter.numFields, hids, Option.isSome_none, Bool.toNat_false] at h1
      have hpos := List.length_pos_of_mem ht
      have ha := eq_none_of_toNat f.authors (by omega)
      have hk := eq_none_of_toNat f.kinds (by omega)
      have htags : f.tags = [t] := by
        obtain ⟨u, hu⟩ := List.length_eq_one_iff.mp (show f.tags.length = 1 by omega)
        rw [hu] at ht ⊢
        rw [List.mem_singleton.mp ht]
      obtain ⟨h3, h4⟩ := (f.doesMatchTimes_iff _).mp htm
      refine ⟨hn, h3, h4, by simp [hids], by simp [ha], by simp [hk], fun t' ht' => ?_⟩
      rw [htags, List.mem_singleton] at ht'
      subst ht'
      obtain ⟨val, hval, rfl⟩ := List.mem_map.mp hp
      obtain ⟨u, hu, hue⟩ := List.mem_map.mp hpv
      simp only [List.cons.injEq] at hue
      exact ⟨u, hu, hue.1, hue.2 ▸ hval⟩
    · rw [h2.2.1] at ht
      simp at ht

omit hsmall in
theorem serves_pubkeyKind {authors : FilterSetBytes} {kinds : FilterSetUint} (hids : f.ids = none)
    (htags : f.tags = []) (ha : f.authors = some authors) (hk : f.kinds = some kinds)
    (hlt : authors.size * kinds.size < 1000) :
    Serves f .pubkeyKind f.indexOnlyScans
      (authors.elems.flatMap fun a => kinds.items.map fun k => a ++ toSv k) prefixMatch := by
  obtain ⟨hane, halen⟩ := hv.authors authors ha
  obtain ⟨hkne, hklt⟩ := hv.kinds kinds hk
  have hlen : ∀ p ∈ authors.elems.flatMap (fun a => kinds.items.map fun k => a ++ toSv k),
      p.length = 40 := by
    intro p hp
    obtain ⟨a, haa, hp⟩ := List.mem_flatMap.mp hp
    obtain ⟨k, -, rfl⟩ := List.mem_map.mp hp
    rw [List.length_append, halen a haa, length_toSv]
  refine ⟨by simp [Scanned], ?_, ?_, hlen,
    fun p hp => decides_prefixMatch fun s hs => Eq.trans hs (hlen p hp).symm, fun v hm => ?_,
    fun hio v p hp hpv ht => ?_⟩
  · obtain ⟨a, as, hae⟩ := List.exists_cons_of_ne_nil hane
    obtain ⟨k, ks, hke⟩ := List.exists_cons_of_ne_nil hkne
    rw [hae, hke]
    simp
  · have : (authors.elems.flatMap fun a => kinds.items.map fun k => a ++ toSv k).length =
        authors.size * kinds.size := by
      simp [List.length_flatMap, FilterSetUint.size, length_elems]
    omega
  · refine ⟨v.pubkey ++ toSv v.kind, List.mem_flatMap.mpr ⟨v.pubkey, hm.authors authors ha, ?_⟩,
      List.mem_singleton.mpr rfl⟩
    exact List.mem_map.mpr ⟨v.kind, hm.kinds kinds hk, rfl⟩
  · obtain ⟨h3, h4⟩ := (f.doesMatchTimes_iff _).mp ht
    rw [List.mem_singleton.mp hpv] at hp
    obtain ⟨a, haa, hp⟩ := List.mem_flatMap.mp hp
    obtain ⟨k, hkk, hp⟩ := List.mem_map.mp hp
    obtain ⟨h5, h6⟩ := List.append_inj hp (by rw [halen a haa, v.length_pubkey])
    have h6 := toSv_inj (hklt k hkk) v.kind_lt h6
    refine ⟨hn, h3, h4, by simp [hids], fun s hs => ?_, fun s hs => ?_, by simp [htags]⟩
    · rw [ha] at hs
      cases hs
      exact h5 ▸ haa
    · rw [hk] at hs
      cases hs
      exact h6 ▸ hkk

theorem serves_pubkey {authors : FilterSetBytes} {indexOnly : Bool} (hids : f.ids = none)
    (htags : f.tags = []) (ha : f.authors = some authors)
    (hio : indexOnly = true → f.kinds = none) :
    Serves f .pubkey indexOnly authors.elems prefixMatch := by
  obtain ⟨hne, hlen⟩ := hv.authors authors ha
  refine ⟨by simp [Scanned], hne, by rw [length_elems]; exact hsmall.authors authors ha, hlen,
    fun p hp => decides_prefixMatch fun s hs => Eq.trans hs (hlen p hp).symm, fun v hm => ?_,
    fun hi v p hp hpv ht => ?_⟩
  · exact ⟨v.pubkey, hm.authors authors ha, List.mem_singleton.mpr rfl⟩
  · obtain ⟨h3, h4⟩ := (f.doesMatchTimes_iff _).mp ht
    rw [List.mem_singleton.mp hpv] at hp
    refine ⟨hn, h3, h4, by simp [hids], fun s hs => ?_, by simp [hio hi], by simp [htags]⟩
    rw [ha] at hs
    cases hs
    exact hp

theorem serves_kind {kinds : FilterSetUint} (hids : f.ids = none) (htags : f.tags = [])
    (ha : f.authors = none) (hk : f.kinds = some kinds) :
    Serves f .kind f.indexOnlyScans (kinds.items.map toSv) fun p k =>
      if (ParsedKeyUint64Uint64.parse k).n1 = fromSv p then .yes else .no := by
  obtain ⟨hne, hlt⟩ := hv.kinds kinds hk
  refine ⟨by simp [Scanned], by simpa using hne, by rw [List.length_map]; exact hsmall.kinds kinds hk,
    fun p hp => ?_, fun p hp => ?_, fun v hm => ?_, fun hio v p hp hpv ht => ?_⟩
  · obtain ⟨k, -, rfl⟩ := List.mem_map.mp hp
    exact length_toSv k
  · obtain ⟨k, hkk, rfl⟩ := List.mem_map.mp hp
    rw [fromSv_toSv k (hlt k hkk)]
    exact decides_kind (hlt k hkk)
  · exact ⟨toSv v.kind, List.mem_map_of_mem (hm.kinds kinds hk), List.mem_singleton.mpr rfl⟩
  · obtain ⟨h3, h4⟩ := (f.doesMatchTimes_iff _).mp ht
    rw [List.mem_singleton.mp hpv] at hp
    obtain ⟨k, hkk, hp⟩ := List.mem_map.mp hp
    have hp := toSv_inj (hlt k hkk) v.kind_lt hp
    refine ⟨hn, h3, h4, by simp [hids], by simp [ha], fun s hs => ?_, by simp [htags]⟩
    rw [hk] at hs
    cases hs
    exact hp ▸ hkk

omit hv hsmall in
theorem serves_createdAt (hids : f.ids = none) (htags : f.tags = []) (ha : f.authors = none)
    (hk : f.kinds = none) : Serves f .createdAt f.indexOnlyScans [[]] fun _ _ => .yes := by
  refine ⟨by simp [Scanned], by simp, by norm_num, fun p hp => List.mem_singleton.mp hp,
    fun p hp s n hs _ => ?_, fun v _ => ⟨[], List.mem_singleton.mpr rfl, List.mem_singleton.mpr rfl⟩,
    fun _ v p _ _ ht => ?_⟩
  · have hs : s = [] := hs
    simp [hs, List.mem_singleton.mp hp]
  · obtain ⟨h3, h4⟩ := (f.doesMatchTimes_iff _).mp ht
    exact ⟨hn, h3, h4, by simp [hids], by simp [ha], by simp [hk], by simp [htags]⟩

/-- **Every plan serves its filter.** -/
theorem plan_serves : ∃ ps km, Serves f (new f).indexDbi (new f).indexOnly ps km ∧
    (new f).cursors = ps.map fun p => ScanCursor.start p (km p) := by
  unfold new plan
  cases hids : f.ids with
  | some ids => exact ⟨_, _, serves_ids hv hn hsmall hids, rfl⟩
  | none =>
    cases htag : smallestTag f.tags with
    | some t => exact ⟨_, _, serves_tags hv hn hsmall hids (smallestTag_mem htag), by simp [Function.comp_def]⟩
    | none =>
      have htags := smallestTag_none htag
      cases ha : f.authors with
      | some authors =>
        cases hk : f.kinds with
        | some kinds =>
          simp only []
          split
          · rename_i hlt
            exact ⟨_, _, serves_pubkeyKind hv hn hids htags ha hk hlt,
              by simp [List.map_flatMap, Function.comp_def]⟩
          · exact ⟨_, _, serves_pubkey hv hn hsmall hids htags ha (by simp), rfl⟩
        | none => exact ⟨_, _, serves_pubkey hv hn hsmall hids htags ha (fun _ => hk), rfl⟩
      | none =>
        cases hk : f.kinds with
        | some kinds =>
          refine ⟨_, _, serves_kind hv hn hsmall hids htags ha hk, ?_⟩
          simp only [List.map_map]
          refine List.map_congr_left fun k hkk => ?_
          show ScanCursor.start (toSv k) _ = ScanCursor.start (toSv k) _
          rw [fromSv_toSv k ((hv.kinds kinds hk).2 k hkk)]
        | none => exact ⟨_, _, serves_createdAt hn hids htags ha hk, rfl⟩

end

end DBScan

end Strfry
