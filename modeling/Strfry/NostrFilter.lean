import Strfry.Filters

/-!
# Compiled filters and filter groups

`NostrFilter.ofJson` compiles one filter object, `NostrFilterGroup.ofReq` the filters
of a request; a filter with an empty array in any field never matches and is left out
of its group.  `NostrFilter.Valid` is what compilation establishes: present fields are
non-empty, ids and authors have 32 bytes, and `indexOnlyScans` is set only when one
index can answer the filter.

The `tags` of a filter are a hash map: the list here is its iteration order, which is
any order (`SameUpToTagOrder`).

    f.doesMatch ev = true ↔ f.Matches ev                           (doesMatch_iff)
-/

namespace Strfry

structure NostrFilter where
  ids : Option FilterSetBytes := none
  authors : Option FilterSetBytes := none
  kinds : Option FilterSetUint := none
  tags : List (Byte × FilterSetBytes) := []
  since : Nat := 0
  until_ : Nat := maxU64
  limit : Nat := maxU64
  neverMatch : Bool := false
  indexOnlyScans : Bool := false

namespace NostrFilter

/-- `tags.emplace(tag, set)`: an existing entry is kept. -/
def emplaceTag (f : NostrFilter) (tag : Byte) (s : FilterSetBytes) : NostrFilter :=
  if (f.tags.map Prod.fst).contains tag then f else { f with tags := f.tags ++ [(tag, s)] }

/-- The set of a `#x` field. -/
def tagSet [Golpe] (tag : Byte) (v : Json) : Except Err FilterSetBytes :=
  if tag = tagP ∨ tag = tagE then FilterSetBytes.ofJson v true 32 32
  else FilterSetBytes.ofJson v false 0 maxIndexedTagValSize

/-- One turn of the constructor's loop: the filter and `numMajorFields` so far. -/
def addField [Golpe] (st : NostrFilter × Nat) (kv : Bytes × Json) : Except Err (NostrFilter × Nat) :=
  let f := st.1
  let numMajorFields := st.2
  let k := kv.1
  let v := kv.2
  if v.isEmptyArray then .ok ({ f with neverMatch := true }, numMajorFields)
  else if k = ascii "ids" then do
    let s ← FilterSetBytes.ofJson v true 32 32
    return ({ f with ids := some s }, numMajorFields + 1)
  else if k = ascii "authors" then do
    let s ← FilterSetBytes.ofJson v true 32 32
    return ({ f with authors := some s }, numMajorFields + 1)
  else if k = ascii "kinds" then do
    let s ← FilterSetUint.ofJson v
    return ({ f with kinds := some s }, numMajorFields + 1)
  else if startsWith k (ascii "#") then
    match k with
    | [_, tag] => do
      let s ← tagSet tag v
      return (f.emplaceTag tag s, numMajorFields + 1)
    | _ => .error (.herr "unindexed tag filter")
  else if k = ascii "since" then do
    let n ← v.getUnsigned
    return ({ f with since := n }, numMajorFields)
  else if k = ascii "until" then do
    let n ← v.getUnsigned
    return ({ f with until_ := n }, numMajorFields)
  else if k = ascii "limit" then do
    let n ← v.getUnsigned
    return ({ f with limit := n }, numMajorFields)
  else .error (.herr "unrecognised filter item")

/-- What the constructor does after the loop. -/
def finish (f : NostrFilter) (numMajorFields maxFilterLimit : Nat) : NostrFilter :=
  { f with
    limit := if f.limit > maxFilterLimit then maxFilterLimit else f.limit
    indexOnlyScans := numMajorFields ≤ 1 ||
      (numMajorFields == 2 && f.authors.isSome && f.kinds.isSome) }

/-- `NostrFilter::NostrFilter`. -/
def ofJson [Golpe] (filterObj : Json) (maxFilterLimit : Nat) : Except Err NostrFilter :=
  match filterObj with
  | .object kvs => do
    let st ← kvs.foldlM addField ({}, 0)
    let _ ← throwIf (st.1.tags.length > 3) (.herr "too many tags in filter")
    return st.1.finish st.2 maxFilterLimit
  | _ => .error (.herr "provided filter is not an object")

def doesMatchTimes (f : NostrFilter) (created : Nat) : Bool :=
  if created < f.since then false else if created > f.until_ then false else true

/-- `NostrFilter::doesMatch`. -/
def doesMatch (f : NostrFilter) (ev : PackedEventView) : Bool :=
  if f.neverMatch then false
  else if !f.doesMatchTimes ev.createdAt then false
  else if f.ids.any fun s => !s.doesMatch ev.id then false
  else if f.authors.any fun s => !s.doesMatch ev.pubkey then false
  else if f.kinds.any fun s => !s.doesMatch ev.kind then false
  else f.tags.all fun t => ev.tags.any fun u => u.1 == t.1 && t.2.doesMatch u.2

/-- `isFullDbQuery`. -/
def isFullDbQuery (f : NostrFilter) : Bool :=
  f.ids.isNone && f.authors.isNone && f.kinds.isNone && f.tags.isEmpty

/-! ## Matching -/

/-- What matching means, field by field. -/
structure Matches (f : NostrFilter) (ev : PackedEventView) : Prop where
  possible : f.neverMatch = false
  since_le : f.since ≤ ev.createdAt
  le_until : ev.createdAt ≤ f.until_
  ids : ∀ s, f.ids = some s → ev.id ∈ s.elems
  authors : ∀ s, f.authors = some s → ev.pubkey ∈ s.elems
  kinds : ∀ s, f.kinds = some s → ev.kind ∈ s.items
  tags : ∀ t ∈ f.tags, ∃ u ∈ ev.tags, u.1 = t.1 ∧ u.2 ∈ t.2.elems

theorem doesMatchTimes_iff (f : NostrFilter) (n : Nat) :
    f.doesMatchTimes n = true ↔ f.since ≤ n ∧ n ≤ f.until_ := by
  unfold doesMatchTimes
  split
  · rename_i h
    simp only [Bool.false_eq_true, false_iff]
    omega
  · split
    · rename_i h1 h2
      simp only [Bool.false_eq_true, false_iff]
      omega
    · simp only [true_iff]
      omega

theorem not_any_iff {σ : Type} (o : Option σ) (p : σ → Bool) :
    (o.any fun s => !p s) = false ↔ ∀ s, o = some s → p s = true := by
  cases o with
  | none => simp
  | some s => simp

theorem doesMatch_iff (f : NostrFilter) (ev : PackedEventView) :
    f.doesMatch ev = true ↔ f.Matches ev := by
  have htags : (f.tags.all fun t => ev.tags.any fun u => u.1 == t.1 && t.2.doesMatch u.2) = true ↔
      ∀ t ∈ f.tags, ∃ u ∈ ev.tags, u.1 = t.1 ∧ u.2 ∈ t.2.elems := by
    simp only [List.all_eq_true, List.any_eq_true, Bool.and_eq_true, beq_iff_eq,
      FilterSetBytes.doesMatch_iff]
  unfold doesMatch
  constructor
  · intro h
    split at h
    · cases h
    · rename_i h1
      split at h
      · cases h
      · rename_i h2
        split at h
        · cases h
        · rename_i h3
          split at h
          · cases h
          · rename_i h4
            split at h
            · cases h
            · rename_i h5
              have ht := (f.doesMatchTimes_iff _).mp (by simpa using h2)
              refine ⟨by simpa using h1, ht.1, ht.2, fun s hs => ?_, fun s hs => ?_, fun s hs => ?_,
                htags.mp h⟩
              · exact (s.doesMatch_iff _).mp ((not_any_iff _ _).mp (by simpa using h3) s hs)
              · exact (s.doesMatch_iff _).mp ((not_any_iff _ _).mp (by simpa using h4) s hs)
              · exact (s.doesMatch_iff _).mp ((not_any_iff _ _).mp (by simpa using h5) s hs)
  · intro h
    have ht := (f.doesMatchTimes_iff ev.createdAt).mpr ⟨h.since_le, h.le_until⟩
    have h3 := (not_any_iff f.ids fun s => s.doesMatch ev.id).mpr
      fun s hs => (s.doesMatch_iff _).mpr (h.ids s hs)
    have h4 := (not_any_iff f.authors fun s => s.doesMatch ev.pubkey).mpr
      fun s hs => (s.doesMatch_iff _).mpr (h.authors s hs)
    have h5 := (not_any_iff f.kinds fun s => s.doesMatch ev.kind).mpr
      fun s hs => (s.doesMatch_iff _).mpr (h.kinds s hs)
    rw [h.possible, ht, h3, h4, h5]
    simpa using htags.mpr h.tags

/-! ## What compilation establishes -/

/-- How many of the fields that select events are present. -/
def numFields (f : NostrFilter) : Nat :=
  f.ids.isSome.toNat + f.authors.isSome.toNat + f.kinds.isSome.toNat + f.tags.length

structure FieldsOk (f : NostrFilter) : Prop where
  ids : ∀ s, f.ids = some s → s.elems ≠ [] ∧ ∀ x ∈ s.elems, x.length = 32
  authors : ∀ s, f.authors = some s → s.elems ≠ [] ∧ ∀ x ∈ s.elems, x.length = 32
  kinds : ∀ s, f.kinds = some s → s.items ≠ [] ∧ ∀ n ∈ s.items, n < 2 ^ 64
  tags : ∀ t ∈ f.tags, t.2.elems ≠ []
  tagNames : (f.tags.map Prod.fst).Nodup
  since_lt : f.since < 2 ^ 64
  until_lt : f.until_ < 2 ^ 64

structure Valid (f : NostrFilter) : Prop extends FieldsOk f where
  /-- An index-only scan needs one field, or authors with kinds. -/
  indexOnly : f.indexOnlyScans = true → f.numFields ≤ 1 ∨
    (f.ids = none ∧ f.tags = [] ∧ f.authors.isSome = true ∧ f.kinds.isSome = true)

theorem fieldsOk_default : FieldsOk {} := by
  constructor <;> simp [maxU64]

section
variable [Golpe]

theorem set32 {v : Json} {s : FilterSetBytes} (h : FilterSetBytes.ofJson v true 32 32 = .ok s)
    (hne : v.isEmptyArray = false) : s.elems ≠ [] ∧ ∀ x ∈ s.elems, x.length = 32 := by
  obtain ⟨h1, h2⟩ := FilterSetBytes.ofJson_ok h hne
  exact ⟨h1, fun x hx => by have := h2 x hx; omega⟩

theorem tagSet_ne_nil {tag : Byte} {v : Json} {s : FilterSetBytes} (h : tagSet tag v = .ok s)
    (hne : v.isEmptyArray = false) : s.elems ≠ [] := by
  unfold tagSet at h
  split at h
  · exact (FilterSetBytes.ofJson_ok h hne).1
  · exact (FilterSetBytes.ofJson_ok h hne).1

/-- One field keeps the invariant and counts itself. -/
theorem addField_ok {st st' : NostrFilter × Nat} {kv : Bytes × Json}
    (h : addField st kv = .ok st') (hf : FieldsOk st.1) (hn : st.1.numFields ≤ st.2) :
    FieldsOk st'.1 ∧ st'.1.numFields ≤ st'.2 := by
  obtain ⟨f, n⟩ := st
  obtain ⟨k, v⟩ := kv
  have toNat_le : ∀ b : Bool, b.toNat ≤ 1 := by decide
  have hi := toNat_le f.ids.isSome
  have ha := toNat_le f.authors.isSome
  have hk := toNat_le f.kinds.isSome
  simp only [numFields] at hn
  unfold addField at h
  simp only at h
  split at h
  · cases h
    exact ⟨{ hf with }, hn⟩
  · rename_i hne
    have hne : v.isEmptyArray = false := by simpa using hne
    split at h
    · obtain ⟨s, hs, h⟩ := bind_eq_ok.mp h
      cases h
      refine ⟨{ hf with ids := fun t ht => ?_ }, ?_⟩
      · cases ht; exact set32 hs hne
      · simp only [numFields, Option.isSome_some, Bool.toNat_true]; omega
    · split at h
      · obtain ⟨s, hs, h⟩ := bind_eq_ok.mp h
        cases h
        refine ⟨{ hf with authors := fun t ht => ?_ }, ?_⟩
        · cases ht; exact set32 hs hne
        · simp only [numFields, Option.isSome_some, Bool.toNat_true]; omega
      · split at h
        · obtain ⟨s, hs, h⟩ := bind_eq_ok.mp h
          cases h
          refine ⟨{ hf with kinds := fun t ht => ?_ }, ?_⟩
          · cases ht; exact FilterSetUint.ofJson_ok hs hne
          · simp only [numFields, Option.isSome_some, Bool.toNat_true]; omega
        · split at h
          · -- `#x`
            split at h
            · rename_i _ tag _ _
              obtain ⟨s, hs, h⟩ := bind_eq_ok.mp h
              cases h
              have hs := tagSet_ne_nil hs hne
              unfold emplaceTag
              split
              · exact ⟨hf, by simp only [numFields]; omega⟩
              · rename_i hnew
                refine ⟨{ hf with tags := fun t ht => ?_, tagNames := ?_ }, ?_⟩
                · rcases List.mem_append.mp ht with ht | ht
                  · exact hf.tags t ht
                  · simp only [List.mem_singleton] at ht
                    subst ht
                    exact hs
                · simp only [List.map_append, List.map_cons, List.map_nil]
                  refine List.nodup_append.mpr ⟨hf.tagNames, by simp, ?_⟩
                  intro a ha b hb hab
                  simp only [List.mem_singleton] at hb
                  subst hb hab
                  exact hnew (by simpa using ha)
                · simp only [numFields, List.length_append, List.length_singleton]; omega
            · cases h
          · split at h
            · obtain ⟨m, hm, h⟩ := bind_eq_ok.mp h
              cases h
              exact ⟨{ hf with since_lt := Json.getUnsigned_lt hm }, hn⟩
            · split at h
              · obtain ⟨m, hm, h⟩ := bind_eq_ok.mp h
                cases h
                exact ⟨{ hf with until_lt := Json.getUnsigned_lt hm }, hn⟩
              · split at h
                · obtain ⟨m, hm, h⟩ := bind_eq_ok.mp h
                  cases h
                  exact ⟨{ hf with }, hn⟩
                · cases h

theorem addFields_ok (kvs : List (Bytes × Json)) {st st' : NostrFilter × Nat}
    (h : kvs.foldlM addField st = .ok st') (hf : FieldsOk st.1) (hn : st.1.numFields ≤ st.2) :
    FieldsOk st'.1 ∧ st'.1.numFields ≤ st'.2 := by
  induction kvs generalizing st with
  | nil =>
    rw [List.foldlM_nil] at h
    cases h
    exact ⟨hf, hn⟩
  | cons kv kvs ih =>
    rw [List.foldlM_cons] at h
    obtain ⟨st1, h1, h⟩ := bind_eq_ok.mp h
    obtain ⟨hf1, hn1⟩ := addField_ok h1 hf hn
    exact ih h hf1 hn1

/-- **Compiled filters are valid.** -/
theorem ofJson_valid {v : Json} {maxFilterLimit : Nat} {f : NostrFilter}
    (h : ofJson v maxFilterLimit = .ok f) : f.Valid := by
  unfold ofJson at h
  split at h
  · obtain ⟨st, hst, h⟩ := bind_eq_ok.mp h
    obtain ⟨_, -, h⟩ := bind_eq_ok.mp h
    cases h
    obtain ⟨hf, hn⟩ := addFields_ok _ hst fieldsOk_default (by simp [numFields])
    refine { hf with indexOnly := fun hi => ?_ }
    simp only [finish, Bool.or_eq_true, decide_eq_true_eq, Bool.and_eq_true, beq_iff_eq] at hi
    rcases hi with hi | ⟨⟨h2, ha⟩, hk⟩
    · left
      show st.1.numFields ≤ 1
      omega
    · right
      simp only [numFields, ha, hk, Bool.toNat_true] at hn
      have hz : st.1.ids.isSome.toNat = 0 ∧ st.1.tags.length = 0 := by omega
      refine ⟨?_, List.length_eq_zero_iff.mp hz.2, ha, hk⟩
      cases hids : st.1.ids with
      | none => exact hids
      | some s => rw [hids] at hz; simp at hz
  · cases h

end

/-- The same filter with the entries of its hash map in another order. -/
def SameUpToTagOrder (f g : NostrFilter) : Prop := f.tags.Perm g.tags ∧ f = { g with tags := f.tags }

theorem SameUpToTagOrder.refl (f : NostrFilter) : SameUpToTagOrder f f := ⟨.refl _, rfl⟩

theorem SameUpToTagOrder.valid {f g : NostrFilter} (h : SameUpToTagOrder f g) (hg : g.Valid) :
    f.Valid := by
  obtain ⟨hp, he⟩ := h
  rw [he]
  refine { hg with tags := fun t ht => hg.tags t (hp.mem_iff.mp ht), tagNames := ?_, indexOnly := ?_ }
  · exact (hp.map Prod.fst).nodup_iff.mpr hg.tagNames
  · intro hi
    rcases hg.indexOnly hi with h | ⟨h1, h2, h3, h4⟩
    · left
      simp only [numFields] at h ⊢
      rw [hp.length_eq]
      exact h
    · right
      exact ⟨h1, by rw [h2] at hp; exact hp.eq_nil, h3, h4⟩

theorem SameUpToTagOrder.doesMatch {f g : NostrFilter} (h : SameUpToTagOrder f g) (ev : PackedEventView) :
    f.doesMatch ev = g.doesMatch ev := by
  obtain ⟨hp, he⟩ := h
  have hmatches : f.Matches ev ↔ g.Matches ev := by
    rw [he]
    constructor
    · rintro ⟨h1, h2, h3, h4, h5, h6, h7⟩
      exact ⟨h1, h2, h3, h4, h5, h6, fun t ht => h7 t (hp.mem_iff.mpr ht)⟩
    · rintro ⟨h1, h2, h3, h4, h5, h6, h7⟩
      exact ⟨h1, h2, h3, h4, h5, h6, fun t ht => h7 t (hp.mem_iff.mp ht)⟩
  rw [Bool.eq_iff_iff, doesMatch_iff, doesMatch_iff]
  exact hmatches

section
variable [Golpe]

theorem addField_limit {st st' : NostrFilter × Nat} {kv : Bytes × Json} (h : addField st kv = .ok st')
    (hk : kv.1 ≠ ascii "limit") : st'.1.limit = st.1.limit := by
  unfold addField at h
  simp only [] at h
  split at h
  · cases h
    rfl
  split at h
  · obtain ⟨_, -, h⟩ := bind_eq_ok.mp h
    cases h
    rfl
  split at h
  · obtain ⟨_, -, h⟩ := bind_eq_ok.mp h
    cases h
    rfl
  split at h
  · obtain ⟨_, -, h⟩ := bind_eq_ok.mp h
    cases h
    rfl
  split at h
  · split at h
    · obtain ⟨_, -, h⟩ := bind_eq_ok.mp h
      cases h
      show (emplaceTag _ _ _).limit = _
      unfold emplaceTag
      split
      · rfl
      · rfl
    · cases h
  split at h
  · obtain ⟨_, -, h⟩ := bind_eq_ok.mp h
    cases h
    rfl
  split at h
  · obtain ⟨_, -, h⟩ := bind_eq_ok.mp h
    cases h
    rfl
  cases h

/-- A filter without the field has the largest limit allowed. -/
theorem ofJson_limit {kvs : List (Bytes × Json)} {maxFilterLimit : Nat} {f : NostrFilter}
    (h : ofJson (.object kvs) maxFilterLimit = .ok f) (hk : ∀ kv ∈ kvs, kv.1 ≠ ascii "limit") :
    f.limit = min maxU64 maxFilterLimit := by
  have hloop : ∀ (st st' : NostrFilter × Nat), kvs.foldlM addField st = .ok st' →
      st'.1.limit = st.1.limit := by
    clear h
    induction kvs with
    | nil =>
      intro st st' h
      cases h
      rfl
    | cons kv kvs ih =>
      intro st st' h
      rw [List.foldlM_cons] at h
      obtain ⟨st1, h1, h⟩ := bind_eq_ok.mp h
      rw [ih (fun kv' hkv' => hk kv' (List.mem_cons_of_mem _ hkv')) st1 st' h,
        addField_limit h1 (hk kv List.mem_cons_self)]
  unfold ofJson at h
  obtain ⟨st, hst, h⟩ := bind_eq_ok.mp h
  obtain ⟨_, -, h⟩ := bind_eq_ok.mp h
  cases h
  have hlim : st.1.limit = maxU64 := hloop _ _ hst
  simp only [finish, hlim]
  split
  · omega
  · omega

end

end NostrFilter

/-! ## Groups -/

structure NostrFilterGroup where
  filters : List NostrFilter := []

/-- The filter carries no `limit`. -/
def Json.NoLimit (v : Json) : Prop := ∀ kvs, v = .object kvs → ∀ kv ∈ kvs, kv.1 ≠ ascii "limit"

namespace NostrFilterGroup

/-- The filters of a request that can match. -/
def compile [Golpe] (maxFilterLimit : Nat) : List Json → Except Err (List NostrFilter)
  | [] => .ok []
  | v :: vs => do
    let f ← NostrFilter.ofJson v maxFilterLimit
    let fs ← compile maxFilterLimit vs
    return if f.neverMatch then fs else f :: fs

/-- The constructor: the full array, so the first two items are "REQ" and the subId. -/
def ofReq [Golpe] (req : Json) (maxFilterLimit : Nat) : Except Err NostrFilterGroup := do
  let arr ← req.getArray
  let _ ← throwIf (arr.length < 3) (.herr "too small")
  let fs ← compile maxFilterLimit (arr.drop 2)
  return ⟨fs⟩

/-- `unwrapped`: a single filter or an array of them. -/
def unwrapped [Golpe] (filter : Json) (maxFilterLimit : Nat) : Except Err NostrFilterGroup :=
  let filters := match filter with
    | .array l => l
    | v => [v]
  ofReq (.array (.string (ascii "REQ") :: .string (ascii "junkSub") :: filters)) maxFilterLimit

/-- One filter gives itself, unless it can never match. -/
theorem unwrapped_object [Golpe] {kvs : List (Bytes × Json)} {maxFilterLimit : Nat} {fg : NostrFilterGroup}
    (h : unwrapped (.object kvs) maxFilterLimit = .ok fg) : ∃ f,
      NostrFilter.ofJson (.object kvs) maxFilterLimit = .ok f ∧
      fg.filters = if f.neverMatch then [] else [f] := by
  unfold unwrapped ofReq at h
  obtain ⟨arr, harr, h⟩ := bind_eq_ok.mp h
  cases harr
  obtain ⟨_, -, h⟩ := bind_eq_ok.mp h
  obtain ⟨fs, hfs, h⟩ := bind_eq_ok.mp h
  cases h
  unfold compile at hfs
  obtain ⟨f, hf, hfs⟩ := bind_eq_ok.mp hfs
  cases hfs
  exact ⟨f, hf, rfl⟩

def doesMatch (fg : NostrFilterGroup) (ev : PackedEventView) : Bool :=
  fg.filters.any fun f => f.doesMatch ev

def size (fg : NostrFilterGroup) : Nat := fg.filters.length

theorem doesMatch_iff (fg : NostrFilterGroup) (ev : PackedEventView) :
    fg.doesMatch ev = true ↔ ∃ f ∈ fg.filters, f.doesMatch ev = true := by
  simp [doesMatch]

/-- A compiled filter comes from one of the request. -/
theorem mem_compile [Golpe] {maxFilterLimit : Nat} {vs : List Json} {fs : List NostrFilter}
    (h : compile maxFilterLimit vs = .ok fs) {f : NostrFilter} (hf : f ∈ fs) :
    ∃ v ∈ vs, NostrFilter.ofJson v maxFilterLimit = .ok f := by
  induction vs generalizing fs with
  | nil =>
    cases h
    cases hf
  | cons v vs ih =>
    unfold compile at h
    obtain ⟨g, hg, h⟩ := bind_eq_ok.mp h
    obtain ⟨gs, hgs, h⟩ := bind_eq_ok.mp h
    cases h
    have hrest : f ∈ gs → ∃ v' ∈ v :: vs, NostrFilter.ofJson v' maxFilterLimit = .ok f := by
      intro hf
      obtain ⟨v', hv', hc⟩ := ih hgs hf
      exact ⟨v', List.mem_cons_of_mem _ hv', hc⟩
    split at hf
    · exact hrest hf
    · rcases List.mem_cons.mp hf with rfl | hf
      · exact ⟨v, List.mem_cons_self, hg⟩
      · exact hrest hf

theorem limit_of_compile [Golpe] {maxFilterLimit : Nat} {vs : List Json} {fs : List NostrFilter}
    (h : compile maxFilterLimit vs = .ok fs) (hno : ∀ v ∈ vs, v.NoLimit) :
    ∀ f ∈ fs, f.limit = min maxU64 maxFilterLimit := by
  intro f hf
  obtain ⟨v, hv, hc⟩ := mem_compile h hf
  cases v with
  | object kvs => exact NostrFilter.ofJson_limit hc (hno _ hv kvs rfl)
  | _ => cases hc

theorem compile_valid [Golpe] {maxFilterLimit : Nat} {vs : List Json} {fs : List NostrFilter}
    (h : compile maxFilterLimit vs = .ok fs) : ∀ f ∈ fs, f.Valid ∧ f.neverMatch = false := by
  induction vs generalizing fs with
  | nil => cases h; simp
  | cons v vs ih =>
    unfold compile at h
    obtain ⟨f, hf, h⟩ := bind_eq_ok.mp h
    obtain ⟨gs, hgs, h⟩ := bind_eq_ok.mp h
    cases h
    intro g hg
    split at hg
    · exact ih hgs g hg
    · rename_i hnm
      rcases List.mem_cons.mp hg with rfl | hg
      · exact ⟨NostrFilter.ofJson_valid hf, by simpa using hnm⟩
      · exact ih hgs g hg

theorem ofReq_valid [Golpe] {req : Json} {maxFilterLimit : Nat} {fg : NostrFilterGroup}
    (h : ofReq req maxFilterLimit = .ok fg) : ∀ f ∈ fg.filters, f.Valid ∧ f.neverMatch = false := by
  unfold ofReq at h
  obtain ⟨arr, -, h⟩ := bind_eq_ok.mp h
  obtain ⟨_, -, h⟩ := bind_eq_ok.mp h
  obtain ⟨fs, hfs, h⟩ := bind_eq_ok.mp h
  cases h
  exact compile_valid hfs

/-- A group some request compiles to, whatever the iteration order of the hash maps. -/
def Built [Golpe] (fg : NostrFilterGroup) : Prop :=
  ∃ req maxFilterLimit fg', ofReq req maxFilterLimit = .ok fg' ∧
    List.Forall₂ NostrFilter.SameUpToTagOrder fg.filters fg'.filters

theorem Built.valid [Golpe] {fg : NostrFilterGroup} (h : fg.Built) :
    ∀ f ∈ fg.filters, f.Valid ∧ f.neverMatch = false := by
  obtain ⟨req, m, fg', hreq, hall⟩ := h
  have hv := ofReq_valid hreq
  generalize fg.filters = l at hall
  generalize fg'.filters = l' at hall hv
  induction hall with
  | nil => simp
  | @cons f g l l' hfg _ ih =>
    intro x hx
    rcases List.mem_cons.mp hx with rfl | hx
    · have hg := hv g List.mem_cons_self
      refine ⟨hfg.valid hg.1, ?_⟩
      rw [hfg.2]
      exact hg.2
    · exact ih (fun y hy => hv y (List.mem_cons_of_mem _ hy)) x hx

theorem Built.of_ofReq [Golpe] {req : Json} {m : Nat} {fg : NostrFilterGroup}
    (h : ofReq req m = .ok fg) : fg.Built :=
  ⟨req, m, fg, h, List.forall₂_same.mpr fun f _ => .refl f⟩

/-- The limit of the filters of a request that carry none. -/
theorem limit_of_ofReq [Golpe] {arr : List Json} {maxFilterLimit : Nat} {fg : NostrFilterGroup}
    {fs : List NostrFilter} (h : ofReq (.array arr) maxFilterLimit = .ok fg)
    (hsame : List.Forall₂ NostrFilter.SameUpToTagOrder fs fg.filters) (hno : ∀ v ∈ arr.drop 2, v.NoLimit) :
    ∀ f ∈ fs, f.limit = min maxU64 maxFilterLimit := by
  unfold ofReq at h
  obtain ⟨arr', harr, h⟩ := bind_eq_ok.mp h
  cases harr
  obtain ⟨_, -, h⟩ := bind_eq_ok.mp h
  obtain ⟨gs, hgs, h⟩ := bind_eq_ok.mp h
  cases h
  intro f hf
  obtain ⟨i, hi, rfl⟩ := List.getElem_of_mem hf
  have hi' : i < gs.length := by
    rw [← hsame.length_eq]
    exact hi
  have hfg : NostrFilter.SameUpToTagOrder fs[i] gs[i] := List.Forall₂.get hsame hi hi'
  rw [hfg.2]
  exact limit_of_compile hgs hno gs[i] (List.getElem_mem hi')

end NostrFilterGroup

end Strfry
