import Strfry.NostrFilter

/-!
# Filters as NIP-01 has them

What a filter asks of an event, read off the JSON object: every field that is given asks
something of its own (`asks`), an array is a list of allowed values in any order, and an empty
array allows nothing.  The compiled filter, with its sorted tables and its hash map of tags, is
compared with that:

    f.doesMatch ev = true ↔ Nip01 kvs ev                    (filter_matches_nip01)
-/

namespace Strfry

section
variable [Golpe]

/-! ## The lists of a filter -/

/-- A list of hex strings has the value. -/
def InHexList (v : Json) (b : Bytes) : Prop :=
  ∃ l s, v = .array l ∧ .string s ∈ l ∧ Golpe.fromHex s = some b

omit [Golpe] in
/-- A list of strings has the value. -/
def InList (v : Json) (b : Bytes) : Prop := ∃ l, v = .array l ∧ .string b ∈ l

omit [Golpe] in
/-- A list of numbers has the value. -/
def InUintList (v : Json) (n : Nat) : Prop := ∃ l m, v = .array l ∧ .unsigned m ∈ l ∧ m.val = n

/-- What a field of a filter asks of an event. -/
def asks (ev : PackedEventView) (k : Bytes) (v : Json) : Prop :=
  if k = ascii "ids" then InHexList v ev.id
  else if k = ascii "authors" then InHexList v ev.pubkey
  else if k = ascii "kinds" then InUintList v ev.kind
  else if k = ascii "since" then ∃ n, v = .unsigned n ∧ n.val ≤ ev.createdAt
  else if k = ascii "until" then ∃ n, v = .unsigned n ∧ ev.createdAt ≤ n.val
  else match k with
    | [35, x] => ∃ t ∈ ev.tags, t.1 = x ∧ if x = tagP ∨ x = tagE then InHexList v t.2 else InList v t.2
    | _ => True

theorem asks_ids (ev : PackedEventView) (v : Json) : asks ev (ascii "ids") v ↔ InHexList v ev.id := Iff.rfl

theorem asks_authors (ev : PackedEventView) (v : Json) :
    asks ev (ascii "authors") v ↔ InHexList v ev.pubkey := Iff.rfl

theorem asks_kinds (ev : PackedEventView) (v : Json) : asks ev (ascii "kinds") v ↔ InUintList v ev.kind := Iff.rfl

theorem asks_since (ev : PackedEventView) (n : U64) :
    asks ev (ascii "since") (.unsigned n) ↔ n.val ≤ ev.createdAt :=
  ⟨fun ⟨_, hn, h⟩ => by cases hn; exact h, fun h => ⟨n, rfl, h⟩⟩

theorem asks_until (ev : PackedEventView) (n : U64) :
    asks ev (ascii "until") (.unsigned n) ↔ ev.createdAt ≤ n.val :=
  ⟨fun ⟨_, hn, h⟩ => by cases hn; exact h, fun h => ⟨n, rfl, h⟩⟩

theorem asks_tag (ev : PackedEventView) (x : Byte) (v : Json) : asks ev [35, x] v ↔
    ∃ t ∈ ev.tags, t.1 = x ∧ if x = tagP ∨ x = tagE then InHexList v t.2 else InList v t.2 := by
  have hlen : ∀ k : Bytes, k.length ≠ 2 → [35, x] ≠ k := by
    rintro k hk rfl
    exact hk rfl
  unfold asks
  rw [if_neg (hlen _ (by decide)), if_neg (hlen _ (by decide)), if_neg (hlen _ (by decide)),
    if_neg (hlen _ (by decide)), if_neg (hlen _ (by decide))]
  exact Iff.rfl

theorem asks_limit (ev : PackedEventView) (v : Json) : asks ev (ascii "limit") v := trivial

/-- A filter matches: no field is an empty array, and each gets what it asks. -/
def Nip01 (kvs : List (Bytes × Json)) (ev : PackedEventView) : Prop :=
  (∀ kv ∈ kvs, kv.2.isEmptyArray = false) ∧ ∀ kv ∈ kvs, asks ev kv.1 kv.2

namespace FilterSetBytes

/-- The table has the decoded values of the list. -/
theorem mem_elems_ofJson {v : Json} {hexDecode : Bool} {lo hi : Nat} {s : FilterSetBytes}
    (h : ofJson v hexDecode lo hi = .ok s) (b : Bytes) :
    b ∈ s.elems ↔ ∃ l x, v = .array l ∧ .string x ∈ l ∧ decodeItem hexDecode x = .ok b := by
  unfold ofJson at h
  split at h
  · cases h
  rename_i hmax
  obtain ⟨l, hl, h⟩ := bind_eq_ok.mp h
  obtain ⟨arr, harr, h⟩ := bind_eq_ok.mp h
  have hv := Json.getArray_ok hl
  have hitem : ∀ i c, item hexDecode lo hi (by omega) i = .ok c →
      ∃ x, i = .string x ∧ decodeItem hexDecode x = .ok c.1 := by
    intro i c hi
    unfold item at hi
    obtain ⟨x, hx, hi⟩ := bind_eq_ok.mp hi
    obtain ⟨c', hc, hi⟩ := bind_eq_ok.mp hi
    refine ⟨x, Json.getString_ok hx, ?_⟩
    split at hi
    · cases hi
    split at hi
    · cases hi
    · rw [← Except.ok.inj hi]
      exact hc
  rw [mem_elems_ofList h, List.mem_map]
  constructor
  · rintro ⟨c, hc, rfl⟩
    obtain ⟨i, hin, hic⟩ := (mapM_eq_ok harr).2 c hc
    obtain ⟨x, rfl, hx⟩ := hitem i c hic
    exact ⟨l, x, hv, hin, hx⟩
  · rintro ⟨l', x, hv', hin, hx⟩
    rw [hv] at hv'
    cases hv'
    obtain ⟨c, hc, hic⟩ := mapM_eq_ok_of_mem harr _ hin
    obtain ⟨x', hxx, hx'⟩ := hitem _ c hic
    cases hxx
    rw [hx] at hx'
    exact ⟨c, hc, (Except.ok.inj hx').symm⟩

theorem mem_elems_hex {v : Json} {lo hi : Nat} {s : FilterSetBytes} (h : ofJson v true lo hi = .ok s)
    (b : Bytes) : b ∈ s.elems ↔ InHexList v b := by
  have hdecode : ∀ x, decodeItem true x = .ok b ↔ Golpe.fromHex x = some b := by
    intro x
    unfold decodeItem fromHex
    rw [if_pos rfl]
    cases Golpe.fromHex x with
    | none => simp
    | some b' => simp
  rw [mem_elems_ofJson h]
  simp only [hdecode, InHexList]

theorem mem_elems_raw {v : Json} {lo hi : Nat} {s : FilterSetBytes} (h : ofJson v false lo hi = .ok s)
    (b : Bytes) : b ∈ s.elems ↔ InList v b := by
  rw [mem_elems_ofJson h]
  constructor
  · rintro ⟨l, x, hv, hin, hx⟩
    cases hx
    exact ⟨l, hv, hin⟩
  · rintro ⟨l, hv, hin⟩
    exact ⟨l, b, hv, hin, rfl⟩

end FilterSetBytes

omit [Golpe] in
theorem FilterSetUint.mem_items_ofJson {v : Json} {s : FilterSetUint} (h : ofJson v = .ok s) (n : Nat) :
    n ∈ s.items ↔ InUintList v n := by
  unfold ofJson at h
  obtain ⟨l, hl, h⟩ := bind_eq_ok.mp h
  obtain ⟨arr, harr, h⟩ := bind_eq_ok.mp h
  cases h
  have hv := Json.getArray_ok hl
  rw [mem_ofList]
  constructor
  · intro hn
    obtain ⟨i, hin, hi⟩ := (mapM_eq_ok harr).2 n hn
    obtain ⟨k, rfl, hk⟩ := Json.getUnsigned_ok hi
    exact ⟨l, k, hv, hin, hk⟩
  · rintro ⟨l', k, hv', hin, rfl⟩
    rw [hv] at hv'
    cases hv'
    obtain ⟨m, hm, hi⟩ := mapM_eq_ok_of_mem harr _ hin
    obtain ⟨k', hk', rfl⟩ := Json.getUnsigned_ok hi
    cases hk'
    exact hm

namespace NostrFilter

/-! ## One field -/

omit [Golpe] in
/-- A key the loop has not seen: its field is as the declaration has it. -/
structure Unread (f : NostrFilter) (k : Bytes) : Prop where
  ids : k = ascii "ids" → f.ids = none
  authors : k = ascii "authors" → f.authors = none
  kinds : k = ascii "kinds" → f.kinds = none
  tags : ∀ x, k = [35, x] → x ∉ f.tags.map Prod.fst
  since : k = ascii "since" → f.since = 0
  until_ : k = ascii "until" → f.until_ = maxU64

omit [Golpe] in
theorem unread_default (k : Bytes) : Unread {} k :=
  ⟨fun _ => rfl, fun _ => rfl, fun _ => rfl, fun _ _ => List.not_mem_nil, fun _ => rfl, fun _ => rfl⟩

omit [Golpe] in
theorem matches_emplaceTag {f : NostrFilter} {tag : Byte} (hf : tag ∉ f.tags.map Prod.fst) (s : FilterSetBytes)
    (ev : PackedEventView) :
    (f.emplaceTag tag s).Matches ev ↔ f.Matches ev ∧ ∃ t ∈ ev.tags, t.1 = tag ∧ t.2 ∈ s.elems := by
  unfold emplaceTag
  rw [if_neg (by simpa using hf)]
  constructor
  · intro h
    refine ⟨{ h with tags := fun t ht => h.tags t (List.mem_append_left _ ht) }, ?_⟩
    exact h.tags (tag, s) (List.mem_append_right _ List.mem_cons_self)
  · rintro ⟨h, hs⟩
    refine { h with tags := fun t ht => ?_ }
    rcases List.mem_append.mp ht with ht | ht
    · exact h.tags t ht
    · rw [List.mem_singleton.mp ht]
      exact hs

/-- The set of a `#x` field has the values of its list. -/
theorem mem_elems_tagSet {tag : Byte} {v : Json} {s : FilterSetBytes} (h : tagSet tag v = .ok s) (b : Bytes) :
    b ∈ s.elems ↔ if tag = tagP ∨ tag = tagE then InHexList v b else InList v b := by
  unfold tagSet at h
  split at h
  · rename_i htag
    rw [if_pos htag]
    exact FilterSetBytes.mem_elems_hex h b
  · rename_i htag
    rw [if_neg htag]
    exact FilterSetBytes.mem_elems_raw h b

/-- One turn of the loop over a new key: what the filter matches gets what the field asks, and the
other keys are as new as before. -/
theorem addField_spec {f f' : NostrFilter} {n n' : Nat} {k : Bytes} {v : Json}
    (h : addField (f, n) (k, v) = .ok (f', n')) (hk : Unread f k) :
    (∀ ev, f'.Matches ev ↔ f.Matches ev ∧ v.isEmptyArray = false ∧ asks ev k v) ∧
    ∀ k', k' ≠ k → Unread f k' → Unread f' k' := by
  unfold addField at h
  simp only [] at h
  split at h
  · rename_i hempty
    cases h
    refine ⟨fun ev => ⟨fun hm => ?_, fun ⟨_, hne, _⟩ => ?_⟩, fun k' _ hk' => { hk' with }⟩
    · cases hm.possible
    · rw [hempty] at hne
      cases hne
  rename_i hne
  replace hne : v.isEmptyArray = false := by simpa using hne
  simp only [hne, true_and]
  split at h
  · rename_i hids
    subst hids
    obtain ⟨s, hs, h⟩ := bind_eq_ok.mp h
    cases h
    refine ⟨fun ev => ?_, fun k' hk' hun => { hun with ids := fun he => absurd he hk' }⟩
    rw [asks_ids, ← FilterSetBytes.mem_elems_hex hs]
    constructor
    · intro hm
      refine ⟨{ hm with ids := fun s' hs' => ?_ }, hm.ids s rfl⟩
      rw [hk.ids rfl] at hs'
      cases hs'
    · rintro ⟨hm, hin⟩
      refine { hm with ids := fun s' hs' => ?_ }
      cases hs'
      exact hin
  split at h
  · rename_i hauthors
    subst hauthors
    obtain ⟨s, hs, h⟩ := bind_eq_ok.mp h
    cases h
    refine ⟨fun ev => ?_, fun k' hk' hun => { hun with authors := fun he => absurd he hk' }⟩
    rw [asks_authors, ← FilterSetBytes.mem_elems_hex hs]
    constructor
    · intro hm
      refine ⟨{ hm with authors := fun s' hs' => ?_ }, hm.authors s rfl⟩
      rw [hk.authors rfl] at hs'
      cases hs'
    · rintro ⟨hm, hin⟩
      refine { hm with authors := fun s' hs' => ?_ }
      cases hs'
      exact hin
  split at h
  · rename_i hkinds
    subst hkinds
    obtain ⟨s, hs, h⟩ := bind_eq_ok.mp h
    cases h
    refine ⟨fun ev => ?_, fun k' hk' hun => { hun with kinds := fun he => absurd he hk' }⟩
    rw [asks_kinds, ← FilterSetUint.mem_items_ofJson hs]
    constructor
    · intro hm
      refine ⟨{ hm with kinds := fun s' hs' => ?_ }, hm.kinds s rfl⟩
      rw [hk.kinds rfl] at hs'
      cases hs'
    · rintro ⟨hm, hin⟩
      refine { hm with kinds := fun s' hs' => ?_ }
      cases hs'
      exact hin
  split at h
  · rename_i hhash
    split at h
    · rename_i c tag _ _ _
      obtain rfl : c = 35 := by
        obtain ⟨rest, hrest⟩ := (startsWith_iff _ _).mp hhash
        exact (List.cons.inj hrest).1.symm
      obtain ⟨s, hs, h⟩ := bind_eq_ok.mp h
      cases h
      have hnew := hk.tags tag rfl
      refine ⟨fun ev => ?_, fun k' hk' hun => ?_⟩
      · rw [asks_tag, matches_emplaceTag hnew]
        simp only [mem_elems_tagSet hs]
      · unfold emplaceTag
        rw [if_neg (by simpa using hnew)]
        refine { hun with tags := fun x hx hin => ?_ }
        rw [List.map_append] at hin
        rcases List.mem_append.mp hin with hin | hin
        · exact hun.tags x hx hin
        · rw [List.mem_singleton.mp hin] at hx
          exact hk' hx
    · cases h
  split at h
  · rename_i hsince
    subst hsince
    obtain ⟨m, hm, h⟩ := bind_eq_ok.mp h
    cases h
    obtain ⟨n, rfl, rfl⟩ := Json.getUnsigned_ok hm
    refine ⟨fun ev => ?_, fun k' hk' hun => { hun with since := fun he => absurd he hk' }⟩
    rw [asks_since]
    constructor
    · intro hm
      refine ⟨{ hm with since_le := ?_ }, hm.since_le⟩
      rw [hk.since rfl]
      exact Nat.zero_le _
    · rintro ⟨hm, hle⟩
      exact { hm with since_le := hle }
  split at h
  · rename_i huntil
    subst huntil
    obtain ⟨m, hm, h⟩ := bind_eq_ok.mp h
    cases h
    obtain ⟨n, rfl, rfl⟩ := Json.getUnsigned_ok hm
    refine ⟨fun ev => ?_, fun k' hk' hun => { hun with until_ := fun he => absurd he hk' }⟩
    rw [asks_until]
    constructor
    · intro hm
      refine ⟨{ hm with le_until := ?_ }, hm.le_until⟩
      rw [hk.until_ rfl]
      exact Nat.le_pred_of_lt ev.createdAt_lt
    · rintro ⟨hm, hle⟩
      exact { hm with le_until := hle }
  split at h
  · rename_i hlimit
    subst hlimit
    obtain ⟨m, -, h⟩ := bind_eq_ok.mp h
    cases h
    exact ⟨fun ev => ⟨fun hm => ⟨{ hm with }, asks_limit ev v⟩, fun ⟨hm, _⟩ => { hm with }⟩,
      fun k' _ hun => { hun with }⟩
  cases h

/-! ## The object -/

/-- The loop over fields with different keys. -/
theorem addFields_spec (kvs : List (Bytes × Json)) {st st' : NostrFilter × Nat}
    (h : kvs.foldlM addField st = .ok st') (hnodup : (kvs.map Prod.fst).Nodup)
    (hnew : ∀ kv ∈ kvs, Unread st.1 kv.1) (ev : PackedEventView) :
    st'.1.Matches ev ↔ st.1.Matches ev ∧ Nip01 kvs ev := by
  induction kvs generalizing st with
  | nil =>
    cases h
    simp [Nip01]
  | cons kv kvs ih =>
    rw [List.foldlM_cons] at h
    obtain ⟨st1, h1, h⟩ := bind_eq_ok.mp h
    obtain ⟨hnotin, hnodup⟩ := List.nodup_cons.mp hnodup
    obtain ⟨hmatch, hkeep⟩ := addField_spec h1 (hnew kv List.mem_cons_self)
    rw [ih h hnodup fun kv' hkv' => hkeep kv'.1
      (fun he => hnotin (he ▸ List.mem_map_of_mem hkv')) (hnew kv' (List.mem_cons_of_mem _ hkv')), hmatch]
    simp only [Nip01, List.forall_mem_cons]
    tauto

/-- A compiled filter matches what its object asks for. -/
theorem ofJson_doesMatch {kvs : List (Bytes × Json)} {maxFilterLimit : Nat} {f : NostrFilter}
    (h : ofJson (.object kvs) maxFilterLimit = .ok f) (hnodup : (kvs.map Prod.fst).Nodup)
    (ev : PackedEventView) : f.doesMatch ev = true ↔ Nip01 kvs ev := by
  unfold ofJson at h
  obtain ⟨st, hst, h⟩ := bind_eq_ok.mp h
  obtain ⟨_, -, h⟩ := bind_eq_ok.mp h
  cases h
  have hfinish : (st.1.finish st.2 maxFilterLimit).Matches ev ↔ st.1.Matches ev :=
    ⟨fun hm => { hm with }, fun hm => { hm with }⟩
  have hempty : Matches {} ev :=
    ⟨rfl, Nat.zero_le _, Nat.le_pred_of_lt ev.createdAt_lt, fun _ hs => (by cases hs), fun _ hs => (by cases hs),
      fun _ hs => (by cases hs), fun _ ht => (by cases ht)⟩
  rw [doesMatch_iff, hfinish, addFields_spec kvs hst hnodup (fun kv _ => unread_default kv.1) ev]
  simp [hempty]

end NostrFilter

/-! ## Groups -/

namespace NostrFilterGroup

/-- The filters left out match nothing. -/
theorem compile_doesMatch {maxFilterLimit : Nat} {vs : List Json} {fs : List NostrFilter}
    (h : compile maxFilterLimit vs = .ok fs) (ev : PackedEventView) : (∃ f ∈ fs, f.doesMatch ev = true) ↔
      ∃ v ∈ vs, ∃ f, NostrFilter.ofJson v maxFilterLimit = .ok f ∧ f.doesMatch ev = true := by
  induction vs generalizing fs with
  | nil =>
    cases h
    simp
  | cons v vs ih =>
    unfold compile at h
    obtain ⟨f, hf, h⟩ := bind_eq_ok.mp h
    obtain ⟨gs, hgs, h⟩ := bind_eq_ok.mp h
    cases h
    rw [List.exists_mem_cons_iff, ← ih hgs]
    have hone : (∃ f, NostrFilter.ofJson v maxFilterLimit = .ok f ∧ f.doesMatch ev = true) ↔
        f.doesMatch ev = true := by
      constructor
      · rintro ⟨f', hf', hm⟩
        rw [hf] at hf'
        cases hf'
        exact hm
      · exact fun hm => ⟨f, hf, hm⟩
    rw [hone]
    split
    · rename_i hnever
      have hno : ¬ f.doesMatch ev = true := by
        intro hm
        have := ((f.doesMatch_iff ev).mp hm).possible
        rw [hnever] at this
        cases this
      simp [hno]
    · rw [List.exists_mem_cons_iff]

/-- Every filter given was compiled. -/
theorem ofJson_of_mem_compile {maxFilterLimit : Nat} {vs : List Json} {fs : List NostrFilter}
    (h : compile maxFilterLimit vs = .ok fs) {v : Json} (hv : v ∈ vs) :
    ∃ f, NostrFilter.ofJson v maxFilterLimit = .ok f := by
  induction vs generalizing fs with
  | nil => cases hv
  | cons v' vs ih =>
    unfold compile at h
    obtain ⟨f, hf, h⟩ := bind_eq_ok.mp h
    obtain ⟨gs, hgs, -⟩ := bind_eq_ok.mp h
    rcases List.mem_cons.mp hv with rfl | hv
    · exact ⟨f, hf⟩
    · exact ih hgs hv

omit [Golpe] in
theorem doesMatch_sameUpToTagOrder {fs gs : List NostrFilter} (h : List.Forall₂ NostrFilter.SameUpToTagOrder fs gs)
    (ev : PackedEventView) : (∃ f ∈ fs, f.doesMatch ev = true) ↔ ∃ g ∈ gs, g.doesMatch ev = true := by
  induction h with
  | nil => rfl
  | cons hfg _ ih => rw [List.exists_mem_cons_iff, List.exists_mem_cons_iff, hfg.doesMatch, ih]

end NostrFilterGroup

/-- **Matching is NIP-01 matching**, for filters and for groups, whatever the order of the hash
maps of tags. -/
theorem filter_matches_nip01 (maxFilterLimit : Nat) (ev : PackedEventView) :
    (∀ kvs f g, (kvs.map Prod.fst).Nodup → NostrFilter.ofJson (.object kvs) maxFilterLimit = .ok f →
      NostrFilter.SameUpToTagOrder g f → (g.doesMatch ev = true ↔ Nip01 kvs ev)) ∧
    ∀ arr fg (gg : NostrFilterGroup), (∀ kvs, .object kvs ∈ arr.drop 2 → (kvs.map Prod.fst).Nodup) →
      NostrFilterGroup.ofReq (.array arr) maxFilterLimit = .ok fg →
      List.Forall₂ NostrFilter.SameUpToTagOrder gg.filters fg.filters →
      (gg.doesMatch ev = true ↔ ∃ kvs, .object kvs ∈ arr.drop 2 ∧ Nip01 kvs ev) := by
  refine ⟨fun kvs f g hnodup h hsame => ?_, fun arr fg gg hnodup h hsame => ?_⟩
  · rw [hsame.doesMatch]
    exact NostrFilter.ofJson_doesMatch h hnodup ev
  · unfold NostrFilterGroup.ofReq at h
    obtain ⟨arr', harr, h⟩ := bind_eq_ok.mp h
    cases harr
    obtain ⟨_, -, h⟩ := bind_eq_ok.mp h
    obtain ⟨fs, hfs, h⟩ := bind_eq_ok.mp h
    cases h
    rw [NostrFilterGroup.doesMatch_iff, NostrFilterGroup.doesMatch_sameUpToTagOrder hsame,
      NostrFilterGroup.compile_doesMatch hfs]
    constructor
    · rintro ⟨v, hv, f, hf, hm⟩
      cases v with
      | object kvs => exact ⟨kvs, hv, (NostrFilter.ofJson_doesMatch hf (hnodup kvs hv) ev).mp hm⟩
      | _ => cases hf
    · rintro ⟨kvs, hv, hm⟩
      obtain ⟨f, hf⟩ := NostrFilterGroup.ofJson_of_mem_compile hfs hv
      exact ⟨_, hv, f, hf, (NostrFilter.ofJson_doesMatch hf (hnodup kvs hv) ev).mpr hm⟩

end

/-- `{"kinds": [7, 7]}`, alone and in a request. -/
theorem filter_matches_nip01_kinds : let _ : Golpe := Golpe.plain
    ∃ f fg, NostrFilter.ofJson (.object [(ascii "kinds", .array [.unsigned 7, .unsigned 7])]) 500 = .ok f ∧
      NostrFilterGroup.ofReq (.array [.string (ascii "REQ"), .string (ascii "x"),
        .object [(ascii "kinds", .array [.unsigned 7, .unsigned 7])]]) 500 = .ok fg ∧
      f.doesMatch (sampleEvent 1 9 100 7 []) = true ∧ fg.doesMatch (sampleEvent 1 9 100 7 []) = true := by
  let _ : Golpe := Golpe.plain
  have hnodup : ([(ascii "kinds", Json.array [.unsigned 7, .unsigned 7])].map Prod.fst).Nodup := by simp
  have hspec : Nip01 [(ascii "kinds", .array [.unsigned 7, .unsigned 7])] (sampleEvent 1 9 100 7 []) := by
    refine ⟨fun kv hkv => ?_, fun kv hkv => ?_⟩
    · rw [List.mem_singleton.mp hkv]
      rfl
    · rw [List.mem_singleton.mp hkv]
      exact (asks_kinds _ _).mpr ⟨_, 7, rfl, List.mem_cons_self, by decide⟩
  have h := filter_matches_nip01 500 (sampleEvent 1 9 100 7 [])
  refine ⟨_, _, rfl, rfl, (h.1 _ _ _ hnodup rfl (.refl _)).mpr hspec, ?_⟩
  refine (h.2 [.string (ascii "REQ"), .string (ascii "x"),
    .object [(ascii "kinds", .array [.unsigned 7, .unsigned 7])]] _ _ (fun kvs hkvs => ?_) rfl
    (List.forall₂_same.mpr fun f _ => .refl f)).mpr ⟨_, List.mem_cons_self, hspec⟩
  cases List.mem_singleton.mp hkvs
  exact hnodup

end Strfry
