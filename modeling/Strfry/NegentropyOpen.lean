import Strfry.NegentropyTrees
import Strfry.RelayNegentropySpec

/-!
# Tree-backed requests serve the requested filter

The ingester compiles the filter of a NEG-OPEN and looks for its tree by the text of the
JSON without `since` and `until`; the thread then answers from the part of the tree
between the two.  The filter without the times matches what the whole tree holds, so the
part is what the full filter matches (`open_serves_filter`).

A filter with an empty array under `since` or `until` has a tree as well, but it can never
match: the group is empty and `filters.at(0)` throws (`emptySince_throws`).
-/

namespace Strfry

/-! ## A filter without its times -/

namespace NostrFilter

def isTimeKey (k : Bytes) : Bool := k == ascii "since" || k == ascii "until"

/-- The fields that are left. -/
def timeless (kvs : List (Bytes × Json)) : List (Bytes × Json) := kvs.filter fun kv => !isTimeKey kv.1

/-- A filter with the times of a new one. -/
def untimed (f : NostrFilter) (neverMatch : Bool) : NostrFilter :=
  { f with since := 0, until_ := maxU64, neverMatch := neverMatch }

variable [Golpe]

/-- A field that is not a time does not look at the times. -/
theorem addField_untimed {st st' : NostrFilter × Nat} {kv : Bytes × Json} (hk : isTimeKey kv.1 = false)
    (h : addField st kv = .ok st') (c : Bool) :
    addField (st.1.untimed c, st.2) kv = .ok (st'.1.untimed (c || kv.2.isEmptyArray), st'.2) := by
  unfold isTimeKey at hk
  simp only [Bool.or_eq_false_iff, beq_eq_false_iff_ne] at hk
  unfold addField at h ⊢
  simp only [] at h ⊢
  split at h
  · rename_i he
    cases h
    rw [if_pos he, he, Bool.or_true]
    rfl
  rename_i he
  have hne : kv.2.isEmptyArray = false := by simpa using he
  rw [if_neg he, hne, Bool.or_false]
  split at h
  · rename_i hki
    obtain ⟨s, hs, h⟩ := bind_eq_ok.mp h
    cases h
    rw [if_pos hki, hs]
    rfl
  rename_i hki
  rw [if_neg hki]
  split at h
  · rename_i hka
    obtain ⟨s, hs, h⟩ := bind_eq_ok.mp h
    cases h
    rw [if_pos hka, hs]
    rfl
  rename_i hka
  rw [if_neg hka]
  split at h
  · rename_i hkk
    obtain ⟨s, hs, h⟩ := bind_eq_ok.mp h
    cases h
    rw [if_pos hkk, hs]
    rfl
  rename_i hkk
  rw [if_neg hkk]
  split at h
  · rename_i hkt
    rw [if_pos hkt]
    split at h
    · rename_i tag htag
      obtain ⟨s, hs, h⟩ := bind_eq_ok.mp h
      cases h
      rw [hs]
      show Except.ok ((st.1.untimed c).emplaceTag tag s, st.2 + 1) = _
      congr 2
      unfold emplaceTag untimed
      split
      · rfl
      · rfl
    · cases h
  rename_i hkt
  rw [if_neg hkt]
  rw [if_neg hk.1] at h ⊢
  rw [if_neg hk.2] at h ⊢
  split at h
  · rename_i hkl
    obtain ⟨n, hn, h⟩ := bind_eq_ok.mp h
    cases h
    rw [if_pos hkl, hn]
    rfl
  · cases h

/-- A time changes nothing else. -/
theorem addField_time {st st' : NostrFilter × Nat} {kv : Bytes × Json} (hk : isTimeKey kv.1 = true)
    (h : addField st kv = .ok st') : (∀ c, st'.1.untimed c = st.1.untimed c) ∧ st'.2 = st.2 := by
  have hother : ∀ s : String, ascii s ≠ ascii "since" → ascii s ≠ ascii "until" → kv.1 ≠ ascii s := by
    intro s h1 h2 he
    unfold isTimeKey at hk
    rw [he] at hk
    simp [h1, h2] at hk
  have hhash : startsWith kv.1 (ascii "#") = false := by
    unfold isTimeKey at hk
    simp only [Bool.or_eq_true, beq_iff_eq] at hk
    rcases hk with hk | hk
    · rw [hk]
      decide
    · rw [hk]
      decide
  unfold addField at h
  simp only [] at h
  split at h
  · cases h
    exact ⟨fun _ => rfl, rfl⟩
  rw [if_neg (hother "ids" (by decide) (by decide)), if_neg (hother "authors" (by decide) (by decide)),
    if_neg (hother "kinds" (by decide) (by decide)), hhash, if_neg Bool.false_ne_true] at h
  split at h
  · obtain ⟨n, hn, h⟩ := bind_eq_ok.mp h
    cases h
    exact ⟨fun _ => rfl, rfl⟩
  split at h
  · obtain ⟨n, hn, h⟩ := bind_eq_ok.mp h
    cases h
    exact ⟨fun _ => rfl, rfl⟩
  rw [if_neg (hother "limit" (by decide) (by decide))] at h
  cases h

theorem addFields_untimed (kvs : List (Bytes × Json)) {st st' : NostrFilter × Nat}
    (h : kvs.foldlM addField st = .ok st') (c : Bool) :
    (timeless kvs).foldlM addField (st.1.untimed c, st.2) =
      .ok (st'.1.untimed (c || (timeless kvs).any fun kv => kv.2.isEmptyArray), st'.2) := by
  induction kvs generalizing st c with
  | nil =>
    cases h
    simp [timeless]
    rfl
  | cons kv kvs ih =>
    rw [List.foldlM_cons] at h
    obtain ⟨st1, h1, h⟩ := bind_eq_ok.mp h
    by_cases hk : isTimeKey kv.1 = true
    · obtain ⟨hsame, hn⟩ := addField_time hk h1
      have hskip : timeless (kv :: kvs) = timeless kvs := by simp [timeless, hk]
      rw [hskip, ← hsame c, ← hn]
      exact ih h c
    · rw [Bool.not_eq_true] at hk
      have hkeep : timeless (kv :: kvs) = kv :: timeless kvs := by simp [timeless, hk]
      rw [hkeep, List.foldlM_cons, addField_untimed hk h1 c, List.any_cons, ← Bool.or_assoc]
      exact ih h _

theorem addField_neverMatch {st st' : NostrFilter × Nat} {kv : Bytes × Json} (h : addField st kv = .ok st') :
    st'.1.neverMatch = (st.1.neverMatch || kv.2.isEmptyArray) := by
  unfold addField at h
  simp only [] at h
  split at h
  · rename_i he
    cases h
    rw [he, Bool.or_true]
  rename_i he
  have hne : kv.2.isEmptyArray = false := by simpa using he
  rw [hne, Bool.or_false]
  split at h
  · obtain ⟨_, -, h⟩ := bind_eq_ok.mp h
    cases h
    rfl
  split at h
  · obtain ⟨_, -, h⟩ := bind_eq_ok.mp h
    cases h
    rfl
  split at h
  · obtain ⟨_, -, h⟩ := bind_eq_ok.mp h
    cases h
    rfl
  split at h
  · split at h
    · obtain ⟨_, -, h⟩ := bind_eq_ok.mp h
      cases h
      show (emplaceTag _ _ _).neverMatch = _
      unfold emplaceTag
      split
      · rfl
      · rfl
    · cases h
  split at h
  · obtain ⟨_, -, h⟩ := bind_eq_ok.mp h
    cases h
    rfl
  split at h
  · obtain ⟨_, -, h⟩ := bind_eq_ok.mp h
    cases h
    rfl
  split at h
  · obtain ⟨_, -, h⟩ := bind_eq_ok.mp h
    cases h
    rfl
  · cases h

theorem addFields_neverMatch (kvs : List (Bytes × Json)) {st st' : NostrFilter × Nat}
    (h : kvs.foldlM addField st = .ok st') :
    st'.1.neverMatch = (st.1.neverMatch || kvs.any fun kv => kv.2.isEmptyArray) := by
  induction kvs generalizing st with
  | nil =>
    cases h
    simp
  | cons kv kvs ih =>
    rw [List.foldlM_cons] at h
    obtain ⟨st1, h1, h⟩ := bind_eq_ok.mp h
    rw [ih h, addField_neverMatch h1, List.any_cons, Bool.or_assoc]

/-- The filter, and the one compiled without the times. -/
theorem ofJson_timeless {kvs : List (Bytes × Json)} {m : Nat} (m' : Nat) {f : NostrFilter}
    (h : ofJson (.object kvs) m = .ok f) : ∃ f0, ofJson (.object (timeless kvs)) m' = .ok f0 ∧
      f0.ids = f.ids ∧ f0.authors = f.authors ∧ f0.kinds = f.kinds ∧ f0.tags = f.tags ∧
      f0.since = 0 ∧ f0.until_ = maxU64 ∧
      f0.neverMatch = ((timeless kvs).any fun kv => kv.2.isEmptyArray) ∧
      f.neverMatch = kvs.any fun kv => kv.2.isEmptyArray := by
  unfold ofJson at h ⊢
  obtain ⟨st, hst, h⟩ := bind_eq_ok.mp h
  obtain ⟨_, htags, h⟩ := bind_eq_ok.mp h
  cases h
  have hloop := addFields_untimed kvs hst false
  simp only [Bool.false_or] at hloop
  have hnever := addFields_neverMatch kvs hst
  have htags' : throwIf ((st.1.untimed ((timeless kvs).any fun kv => kv.2.isEmptyArray)).tags.length > 3)
      (.herr "too many tags in filter") = .ok () := htags
  refine ⟨_, bind_eq_ok.mpr ⟨_, hloop, bind_eq_ok.mpr ⟨(), htags', rfl⟩⟩, rfl, rfl, rfl, rfl, rfl, rfl, rfl, ?_⟩
  exact hnever.trans (Bool.false_or _)

omit [Golpe] in
/-- **The times select from what the filter without them matches.** -/
theorem doesMatch_timeless {f f0 : NostrFilter} (hids : f0.ids = f.ids) (hauthors : f0.authors = f.authors)
    (hkinds : f0.kinds = f.kinds) (htags : f0.tags = f.tags) (hsince : f0.since = 0)
    (huntil : f0.until_ = maxU64) (hnever : f0.neverMatch = f.neverMatch) (ev : PackedEventView) :
    f.doesMatch ev = true ↔ f0.doesMatch ev = true ∧ f.since ≤ ev.createdAt ∧ ev.createdAt ≤ f.until_ := by
  rw [doesMatch_iff, doesMatch_iff]
  constructor
  · intro h
    refine ⟨⟨hnever.trans h.possible, by omega, ?_, ?_, ?_, ?_, ?_⟩, h.since_le, h.le_until⟩
    · rw [huntil]
      have := ev.createdAt_lt
      have : maxU64 = 2 ^ 64 - 1 := rfl
      omega
    · rw [hids]
      exact h.ids
    · rw [hauthors]
      exact h.authors
    · rw [hkinds]
      exact h.kinds
    · rw [htags]
      exact h.tags
  · rintro ⟨h, hs, hu⟩
    exact ⟨hnever ▸ h.possible, hs, hu, hids ▸ h.ids, hauthors ▸ h.authors, hkinds ▸ h.kinds, htags ▸ h.tags⟩

end NostrFilter

theorem erase_times (kvs : List (Bytes × Json)) :
    ((Json.object kvs).erase (ascii "since")).erase (ascii "until") = .object (NostrFilter.timeless kvs) := by
  show Json.object ((kvs.filter fun kv => kv.1 ≠ ascii "since").filter fun kv => kv.1 ≠ ascii "until") = _
  rw [List.filter_filter]
  unfold NostrFilter.timeless NostrFilter.isTimeKey
  congr 2
  funext kv
  by_cases h1 : kv.1 = ascii "since" <;> by_cases h2 : kv.1 = ascii "until" <;> simp [h1, h2]

/-! ## The records -/

section
variable [Golpe] [TaoJson] [StdSort] (cfg : Cfg)

/-- A text `negentropy add` makes a record of. -/
def AddedText (filterStr : Bytes) : Prop :=
  ∃ json fg text, parseJson text = .ok json ∧ filterStr = TaoJson.toString json ∧
    NostrFilterGroup.unwrapped json cfg.relayMaxFilterLimit = .ok fg ∧ fg.filters ≠ []

omit [StdSort] in
theorem addedText_of_add {db db' : Db} {text : Bytes} (h : negentropyAdd cfg db text = .ok db') :
    ∀ r ∈ db'.negentropyFilter.rows, r ∈ db.negentropyFilter.rows ∨ AddedText cfg r.2 := by
  unfold negentropyAdd at h
  obtain ⟨json, hj, h⟩ := bind_eq_ok.mp h
  obtain ⟨fg, hfg, h⟩ := bind_eq_ok.mp h
  obtain ⟨_, -, h⟩ := bind_eq_ok.mp h
  obtain ⟨_, hne, h⟩ := bind_eq_ok.mp h
  simp only [] at h
  split at h
  · cases h
  cases h
  intro r hr
  rcases (Table.mem_insertNext _ _ r).mp hr with hr | rfl
  · exact Or.inl hr
  · refine Or.inr ⟨json, fg, text, hj, rfl, hfg, fun hnil => throwIf_eq_ok.mp hne ?_⟩
    rw [hnil]
    rfl

/-- Every record is the initial one or was added. -/
theorem NegReachable.added {Q : Db → NostrFilterGroup → Prop} {s : NegState} (h : NegReachable cfg Q s) :
    ∀ r ∈ s.db.negentropyFilter.rows, r.2 = allText ∨ AddedText cfg r.2 := by
  induction h with
  | init =>
    intro r hr
    cases List.mem_singleton.mp hr
    exact Or.inl rfl
  | @step s s' _ hs ih =>
    cases hs with
    | write i evs evs' db' cache' hfit hw =>
      intro r hr
      refine ih r ?_
      rw [← writeEvents_negentropyFilter hw]
      exact hr
    | delete i levIds db' cache' n hd =>
      intro r hr
      refine ih r ?_
      rw [← deleteEvents_negentropyFilter hd]
      exact hr
    | abort i cache' ha => exact ih
    | add text db' ha =>
      intro r hr
      rcases addedText_of_add cfg ha r hr with hr | hr
      · exact ih r hr
      · exact Or.inr hr
    | build treeId fg db' hQ hb =>
      cases hb with
      | intro filterStr json fg st db' hrec hjson hfg hquery hstore =>
        intro r hr
        have hsame : db'.negentropyFilter = s.db.negentropyFilter := (storeRecs_spec hstore).1.negentropyFilter
        refine ih r ?_
        rw [← hsame]
        exact hr

end

/-! ## What is asked for and what is served -/

section
variable [Golpe] [TaoJson]

/-- The JSON values a client's message gives rise to. -/
inductive Parsed : Json → Prop where
  | text (s : Bytes) (json : Json) (h : TaoJson.fromString s = some json) : Parsed json
  | erase (json : Json) (key : Bytes) (h : Parsed json) : Parsed (json.erase key)

/-- Serialised values are read back. -/
structure TaoJson.Lawful : Prop where
  empty : TaoJson.fromString allText = some (.object [])
  roundTrip : ∀ json, Parsed json → TaoJson.fromString (TaoJson.toString json) = some json

/-- The tree holds what its filter matches. -/
def Mirrors (db : Db) (t : Nat) (filterStr : Bytes) : Prop :=
  ∃ f, recordFilter filterStr = .ok f ∧ ∀ item, item ∈ db.negentropy t ↔
    ∃ r ∈ db.event.rows, f.doesMatch r.2 = true ∧ (r.2.createdAt, r.2.id) = item

/-- An empty array under `since` or `until`. -/
def EmptyTime (json : Json) : Prop :=
  ∃ kvs, json = .object kvs ∧ ∃ kv ∈ kvs, NostrFilter.isTimeKey kv.1 = true ∧ kv.2.isEmptyArray = true

theorem ingester_negOpen {cfg : Cfg} {connId : Nat} {arr : List Json} {sub : Subscription}
    {filterStr negPayload : Bytes} {json : Json} (harr : arr[2]? = some json)
    (h : ingesterProcessNegentropy cfg connId arr = .ok (.negOpen sub filterStr negPayload)) :
    NostrFilterGroup.unwrapped json (addU64 cfg.relayNegentropyMaxSyncEvents 1) = .ok sub.filterGroup ∧
      filterStr = TaoJson.toString ((json.erase (ascii "since")).erase (ascii "until")) := by
  unfold ingesterProcessNegentropy at h
  simp only [harr] at h
  obtain ⟨_, -, h⟩ := bind_eq_ok.mp h
  obtain ⟨subscriptionStr, -, h⟩ := bind_eq_ok.mp h
  obtain ⟨_, -, h⟩ := bind_eq_ok.mp h
  obtain ⟨cmd, -, h⟩ := bind_eq_ok.mp h
  split at h
  · obtain ⟨_, -, h⟩ := bind_eq_ok.mp h
    obtain ⟨filterJson, hj, h⟩ := bind_eq_ok.mp h
    cases hj
    obtain ⟨filter, hf, h⟩ := bind_eq_ok.mp h
    obtain ⟨subId, -, h⟩ := bind_eq_ok.mp h
    obtain ⟨_, -, h⟩ := bind_eq_ok.mp h
    obtain ⟨_, -, h⟩ := bind_eq_ok.mp h
    obtain ⟨_, -, h⟩ := bind_eq_ok.mp h
    cases h
    exact ⟨hf, rfl⟩
  split at h
  · obtain ⟨_, -, h⟩ := bind_eq_ok.mp h
    obtain ⟨_, -, h⟩ := bind_eq_ok.mp h
    obtain ⟨_, -, h⟩ := bind_eq_ok.mp h
    obtain ⟨_, -, h⟩ := bind_eq_ok.mp h
    cases h
  split at h
  · obtain ⟨_, -, h⟩ := bind_eq_ok.mp h
    cases h
  · cases h

omit [Golpe] [TaoJson] in
/-- A filter can match once its times are left out, or not at all. -/
theorem any_isEmptyArray_iff {kvs : List (Bytes × Json)}
    (h : ((NostrFilter.timeless kvs).any fun kv => kv.2.isEmptyArray) = false) :
    (kvs.any fun kv => kv.2.isEmptyArray) = true ↔ EmptyTime (.object kvs) := by
  rw [List.any_eq_true]
  constructor
  · rintro ⟨kv, hkv, he⟩
    refine ⟨kvs, rfl, kv, hkv, ?_, he⟩
    by_contra hk
    have hmem : kv ∈ NostrFilter.timeless kvs := List.mem_filter.mpr ⟨hkv, by simpa using hk⟩
    rw [List.any_eq_false] at h
    exact h kv hmem he
  · rintro ⟨kvs', hkvs, kv, hkv, -, he⟩
    cases hkvs
    exact ⟨kv, hkv, he⟩

/-- The record a text stands for can match something. -/
theorem timeless_possible {cfg : Cfg} (hjson : TaoJson.Lawful) {kvs : List (Bytes × Json)} {filterStr : Bytes}
    (hparse : TaoJson.fromString filterStr = some (.object kvs))
    (h : filterStr = allText ∨ AddedText cfg filterStr) :
    (kvs.any fun kv => kv.2.isEmptyArray) = false := by
  rcases h with rfl | ⟨json, fg, text, hp, rfl, hfg, hne⟩
  · rw [hjson.empty] at hparse
    cases hparse
    rfl
  · have hpar : Parsed json := by
      unfold parseJson at hp
      split at hp
      · rename_i j hj
        cases hp
        exact .text text json hj
      · cases hp
    rw [hjson.roundTrip json hpar] at hparse
    cases hparse
    obtain ⟨f, hf, hfs⟩ := NostrFilterGroup.unwrapped_object hfg
    obtain ⟨_, -, -, -, -, -, -, -, -, hnever⟩ := NostrFilter.ofJson_timeless 0 hf
    rw [← hnever]
    by_contra hn
    rw [Bool.not_eq_false] at hn
    rw [hfs, if_pos hn] at hne
    exact hne rfl

/-- **A tree-backed NEG-OPEN serves its filter** exactly when neither `since` nor `until` is an empty
array: then the group has one filter, and the part of the tree it is answered from holds the items of
the stored events that the filter matches. -/
theorem open_serves_filter [StdSort] (cfg : Cfg) (hjson : TaoJson.Lawful)
    (Q : Db → NostrFilterGroup → Prop) (s : NegState) (h : NegReachable cfg Q s) (connId : Nat)
    (arr : List Json) (json : Json) (harr : arr[2]? = some json) (hparsed : Parsed json) (sub : Subscription)
    (filterStr negPayload : Bytes)
    (hin : ingesterProcessNegentropy cfg connId arr = .ok (.negOpen sub filterStr negPayload)) (t : Nat)
    (htree : treeFor s.db filterStr = some t) (hmirror : Mirrors s.db t filterStr) :
    (sub.filterGroup.filters.length = 1 ∧ ∃ storage, treeStorage s.db t sub = .ok storage ∧
      ∀ item, item ∈ storage ↔ ∃ r ∈ s.db.event.rows, sub.filterGroup.doesMatch r.2 = true ∧
        r.2.createdAt < maxU64 ∧ (r.2.createdAt, r.2.id) = item) ↔ ¬ EmptyTime json := by
  obtain ⟨hgroup, hstr⟩ := ingester_negOpen harr hin
  have hparse := hjson.roundTrip _ ((hparsed.erase json (ascii "since")).erase _ (ascii "until"))
  rw [← hstr] at hparse
  have hrow : ∃ r ∈ s.db.negentropyFilter.rows, r.2 = filterStr := by
    obtain ⟨r, hr, -⟩ := Option.map_eq_some_iff.mp htree
    exact ⟨r, List.mem_of_find?_eq_some hr, by simpa using List.find?_some hr⟩
  obtain ⟨r, hr, hrs⟩ := hrow
  have hadded := h.added cfg r hr
  rw [hrs] at hadded
  obtain ⟨f0, hf0, hitems⟩ := hmirror
  -- the record is an object, and so is the filter asked for
  cases json with
  | object kvs =>
    rw [erase_times] at hparse
    obtain ⟨f, hf, hfs⟩ := NostrFilterGroup.unwrapped_object hgroup
    obtain ⟨g, hg, hids, hauthors, hkinds, htags, hsince, huntil, hg0, hf1⟩ := NostrFilter.ofJson_timeless maxU64 hf
    have hfg : f0 = g := by
      unfold recordFilter parseJson at hf0
      rw [hparse] at hf0
      replace hf0 : NostrFilter.ofJson (.object (NostrFilter.timeless kvs)) maxU64 = .ok f0 := hf0
      rw [hg] at hf0
      exact (Except.ok.inj hf0).symm
    subst hfg
    have hposs := timeless_possible hjson hparse hadded
    have hiff := any_isEmptyArray_iff hposs
    rw [← hf1] at hiff
    constructor
    · rintro ⟨hlen, -⟩ hempty
      rw [hfs, if_pos (hiff.mpr hempty)] at hlen
      cases hlen
    · intro hno
      have hnever : f.neverMatch = false := by
        rw [← Bool.not_eq_true]
        exact fun hn => hno (hiff.mp hn)
      rw [hnever, if_neg Bool.false_ne_true] at hfs
      have hmatch := NostrFilter.doesMatch_timeless hids hauthors hkinds htags hsince huntil
        (hg0.trans (hposs.trans hnever.symm))
      refine ⟨by rw [hfs]; rfl, subRange (s.db.negentropy t) f.since
        (if f.until_ = maxU64 then maxU64 else f.until_ + 1), by unfold treeStorage; rw [hfs], fun item => ?_⟩
      have hgroupMatch : ∀ ev, sub.filterGroup.doesMatch ev = f.doesMatch ev := by
        intro ev
        unfold NostrFilterGroup.doesMatch
        rw [hfs, List.any_cons, List.any_nil, Bool.or_false]
      unfold subRange
      rw [Finset.mem_filter, hitems]
      have hmax : maxU64 = 2 ^ 64 - 1 := rfl
      constructor
      · rintro ⟨⟨r, hr, hm, rfl⟩, hlo, hhi⟩
        simp only [] at hlo hhi
        have hc := r.2.createdAt_lt
        have hu := (NostrFilter.ofJson_valid hf).until_lt
        refine ⟨r, hr, ?_, by split at hhi <;> omega, rfl⟩
        rw [hgroupMatch, hmatch]
        exact ⟨hm, hlo, by split at hhi <;> omega⟩
      · rintro ⟨r, hr, hm, hlt, rfl⟩
        rw [hgroupMatch, hmatch] at hm
        refine ⟨⟨r, hr, hm.1, rfl⟩, hm.2.1, ?_⟩
        show r.2.createdAt < _
        split
        · exact hlt
        · exact Nat.lt_succ_of_le hm.2.2
  | _ =>
    unfold recordFilter parseJson at hf0
    rw [hparse] at hf0
    cases hf0

end

/-- Filters with a time, and their texts. -/
def since5 : Json := .object [(ascii "since", .unsigned 5)]

def sinceEmpty : Json := .object [(ascii "since", .array [])]

def since5Text : Bytes := ascii "\x7b\"since\":5\x7d"

def sinceEmptyText : Bytes := ascii "\x7b\"since\":[]\x7d"

@[reducible] def TaoJson.times : TaoJson where
  fromString b := if b = allText then some (.object []) else if b = since5Text then some since5
    else if b = sinceEmptyText then some sinceEmpty else .none
  toString json := match json with
    | .object [] => allText
    | .object [(_, .array [])] => sinceEmptyText
    | _ => since5Text

theorem TaoJson.times_lawful : @TaoJson.Lawful TaoJson.times := by
  let _ : TaoJson := TaoJson.times
  have hthree : ∀ json, Parsed json → json = .object [] ∨ json = since5 ∨ json = sinceEmpty := by
    intro json h
    induction h with
    | text s json h =>
      replace h : (if s = allText then some (Json.object []) else if s = since5Text then some since5
        else if s = sinceEmptyText then some sinceEmpty else .none) = some json := h
      split at h
      · exact Or.inl (Option.some.inj h).symm
      split at h
      · exact Or.inr (Or.inl (Option.some.inj h).symm)
      split at h
      · exact Or.inr (Or.inr (Option.some.inj h).symm)
      · cases h
    | erase json key _ ih =>
      have hone : ∀ v, (Json.object [(ascii "since", v)]).erase key = .object [] ∨
          (Json.object [(ascii "since", v)]).erase key = .object [(ascii "since", v)] := by
        intro v
        unfold Json.erase
        by_cases hk : ascii "since" = key
        · simp [hk]
        · simp [hk]
      rcases ih with rfl | rfl | rfl
      · exact Or.inl rfl
      · rcases hone (.unsigned 5) with he | he
        · exact Or.inl he
        · exact Or.inr (Or.inl he)
      · rcases hone (.array []) with he | he
        · exact Or.inl he
        · exact Or.inr (Or.inr he)
  refine ⟨rfl, fun json h => ?_⟩
  rcases hthree json h with rfl | rfl | rfl
  · rfl
  · rfl
  · rfl

theorem init_mirrors : @Mirrors Golpe.plain TaoJson.times NegState.init.db 1 allText := by
  let _ : Golpe := Golpe.plain
  let _ : TaoJson := TaoJson.times
  obtain ⟨f, hf⟩ : ∃ f, recordFilter allText = .ok f := ⟨_, rfl⟩
  exact ⟨f, hf, fun item => by simp [NegState.init]⟩

/-- A NEG-OPEN of a filter. -/
def openArr (filterJson : Json) : List Json :=
  [.string (ascii "NEG-OPEN"), .string (ascii "x"), filterJson, .string (ascii "61")]

/-- The initial tree, asked for the events from 5 on. -/
theorem open_serves_filter_since5 : ∃ (sub : Subscription) (storage : Finset (Nat × Bytes)),
    sub.filterGroup.filters.length = 1 ∧ treeStorage NegState.init.db 1 sub = .ok storage := by
  let _ : Golpe := Golpe.plain
  let _ : TaoJson := TaoJson.times
  let _ : StdSort := StdSort.insertion
  obtain ⟨sub, hin, ht⟩ : ∃ sub, ingesterProcessNegentropy {} 1 (openArr since5) =
      .ok (.negOpen sub allText [0x61]) ∧ treeFor NegState.init.db allText = some 1 := ⟨_, rfl, rfl⟩
  obtain ⟨hlen, storage, hst, -⟩ := (open_serves_filter {} TaoJson.times_lawful (fun _ _ => True) .init .init 1
    (openArr since5) since5 rfl (.text since5Text _ rfl) sub allText [0x61] hin 1 ht init_mirrors).mpr (by
      rintro ⟨kvs, hkvs, kv, hkv, -, he⟩
      cases hkvs
      cases List.mem_singleton.mp hkv
      cases he)
  exact ⟨sub, storage, hlen, hst⟩

/-- An empty `since`: the initial tree is found, and `filters.at(0)` throws. -/
theorem emptySince_throws : ∃ sub : Subscription,
    @ingesterProcessNegentropy Golpe.plain TaoJson.times {} 1 (openArr sinceEmpty) =
      .ok (.negOpen sub allText [0x61]) ∧
    treeFor NegState.init.db allText = some 1 ∧ @Mirrors Golpe.plain TaoJson.times NegState.init.db 1 allText ∧
    sub.filterGroup.filters.length ≠ 1 ∧ treeStorage NegState.init.db 1 sub = .error .outOfRange := by
  let _ : Golpe := Golpe.plain
  let _ : TaoJson := TaoJson.times
  exact ⟨_, rfl, rfl, init_mirrors, by decide, rfl⟩

end Strfry
