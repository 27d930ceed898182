import Strfry.Store

/-!
# The address of a parameterized-replaceable event

Two events of one author and one parameterized-replaceable kind are versions of one address
when one of them can replace the other or keep it out (`Versions`).  `writeEvents` takes the
address from the first packed `d` tag.  A `d` tag of more than 255 bytes is not packed, so the
address is that of the first `d` tag that is short enough, or the virtual one:

    Versions a b ↔ firstShortDTag a = firstShortDTag b          (versions_iff)

The address of the event's own first `d` tag is kept when that tag is short.
-/

namespace Strfry

/-! ## The `d` tags of the JSON -/

/-- The `tags` field of an event. -/
def eventTags (v : Json) : List Json :=
  match v.atKey (ascii "tags") with
  | .ok (.array tags) => tags
  | _ => []

/-- The value of the first `d` tag, empty when there is none. -/
def firstDTag (tags : List Json) : Bytes := (tags.filterMap dTagValue).headD []

/-- The value of the first `d` tag that is short enough to be packed, empty when there is none. -/
def firstShortDTag (tags : List Json) : Bytes := (shortDs tags).headD []

theorem firstShortDTag_of_short {tags : List Json} (h : (firstDTag tags).length ≤ maxIndexedTagValSize) :
    firstShortDTag tags = firstDTag tags := by
  unfold firstShortDTag firstDTag shortDs at *
  cases hd : tags.filterMap dTagValue with
  | nil => rfl
  | cons d ds =>
    rw [hd] at h
    have hlen : d.length ≤ maxIndexedTagValSize := h
    rw [List.filter_cons_of_pos (by simpa using hlen)]
    rfl

/-- The first packed `d` tag. -/
theorem firstD_eq_head (v : PackedEventView) : firstD v = (packedDs v.tags).head? := by
  unfold firstD packedDs
  rw [List.head?_map, List.head?_filter]

section
variable [Golpe] (cfg : Cfg)

/-- **The address of an accepted event** of a parameterized-replaceable kind. -/
theorem nostrJsonToPackedEvent_address {json : Json} {buf : Bytes}
    (h : nostrJsonToPackedEvent cfg json = .ok buf) {v : PackedEventView}
    (hv : PackedEventView.ofBytes buf = .ok v) (hk : isParamReplaceableKind v.kind = true) :
    address v = some (v.pubkey, v.kind, firstShortDTag (eventTags json)) := by
  obtain ⟨view, k, tags, ts, hview, -, -, -, htags, -, hds, hvt⟩ := nostrJsonToPackedEvent_fields cfg h
  rw [hv] at hview
  cases hview
  have hrep : isReplaceableKind v.kind = false := by
    by_contra hne
    exact not_replaceable_and_param v.kind ⟨by simpa using hne, hk⟩
  have hd : firstD v = some (firstShortDTag (eventTags json)) := by
    rw [firstD_eq_head, hvt, packedDs_append, packedDs_append, hds, hrep, hk]
    unfold eventTags firstShortDTag
    rw [htags]
    cases shortDs tags with
    | nil => rfl
    | cons d ds => rfl
  rw [address, hk, Bool.or_true, if_pos rfl, hd]
  rfl

end

/-! ## Versions -/

section
variable [Golpe] [TaoJson] [StdSort]

/-- A batch of one event. -/
theorem writeEvents_one {db : Db} (hinv : StoreInv db) (hfit : db.event.lastId < 2 ^ 64)
    {ev : EventToWrite} (hev : ev.status = .pending) {v : PackedEventView}
    (hv : PackedEventView.ofBytes ev.packedStr = .ok v) (hp : Packed v)
    {cache cache' : NegentropyFilterCache} (hc : cache.freshenCache db = .ok cache') :
    ∃ db' ev', writeEvents db cache [ev] = .ok (db', cache', [ev']) ∧
      WriteOutcome db none ev v db' ev' := by
  obtain ⟨db', ev', hw, ho⟩ := writeEvent_spec cache' hinv hfit none hev hp
  have hview : viewBatch [ev] = .ok [(ev, v)] := by
    unfold viewBatch
    rw [List.mapM_cons, hv]
    rfl
  have hsort : StdSort.sort batchLt [(ev, v)] = [(ev, v)] :=
    List.perm_singleton.mp (StdSort.perm batchLt [(ev, v)])
  refine ⟨db', ev', ?_, ho⟩
  unfold writeEvents
  rw [hview, hc]
  show (writeLoop cache' db none (StdSort.sort batchLt [(ev, v)]) >>= _) = _
  rw [hsort]
  unfold writeLoop
  rw [hw]
  rfl

variable [Zstd] (cfg : Cfg)

/-- The event stored under `levId`. -/
def StoredAt (db : Db) (levId : Nat) (ev : EventToWrite) : Prop :=
  ∃ v, (levId, v) ∈ db.event.rows ∧ v.buf = ev.packedStr

/-- Some store that has `a` loses it when `b` is written. -/
def Replaces (b a : EventToWrite) : Prop :=
  ∃ db cache db' cache' b' levId, Reachable cfg (fun _ => True) db ∧ db.event.lastId + 1 < 2 ^ 64 ∧
    StoredAt db levId a ∧ writeEvents db cache [b] = .ok (db', cache', [b']) ∧ ¬ StoredAt db' levId a

/-- Some store that has `a` turns `b` down as replaced, and would take it without `a`. -/
def Suppresses (a b : EventToWrite) : Prop :=
  ∃ db cache db' cache' b' levId, Reachable cfg (fun _ => True) db ∧ db.event.lastId + 1 < 2 ^ 64 ∧
    StoredAt db levId a ∧ writeEvents db cache [b] = .ok (db', cache', [b']) ∧ b'.status = .replaced ∧
    ∃ db₁ cache₁ n db₂ cache₂ b₂, deleteEvents db cache [levId] = .ok (db₁, cache₁, n) ∧
      writeEvents db₁ cache₁ [b] = .ok (db₂, cache₂, [b₂]) ∧ b₂.status = .written

/-- One of the events can replace or suppress the other. -/
def Versions (a b : EventToWrite) : Prop :=
  Replaces cfg b a ∨ Replaces cfg a b ∨ Suppresses cfg a b ∨ Suppresses cfg b a

/-- An event for `writeEvents`, of a parameterized-replaceable kind, with its JSON and its view. -/
structure ParamEvent (json : Json) (ev : EventToWrite) (v : PackedEventView) : Prop where
  pending : ev.status = .pending
  accepted : nostrJsonToPackedEvent cfg json = .ok ev.packedStr
  view : PackedEventView.ofBytes ev.packedStr = .ok v
  kind : isParamReplaceableKind v.kind = true

variable {cfg} {A B : Json} {a b : EventToWrite} {va vb : PackedEventView}

omit [TaoJson] [StdSort] [Zstd] in
theorem ParamEvent.packed (h : ParamEvent cfg A a va) : Packed va ∧ va.buf = a.packedStr := by
  obtain ⟨view, hview, hbuf, hp, -⟩ := nostrJsonToPackedEvent_spec cfg h.accepted
  rw [h.view] at hview
  cases hview
  exact ⟨hp, hbuf⟩

omit [TaoJson] [StdSort] [Zstd] in
theorem ParamEvent.not_names (h : ParamEvent cfg A a va) (w : PackedEventView) : ¬ Names va w := by
  rintro ⟨h5, -⟩
  have hk := h.kind
  rw [h5] at hk
  exact absurd hk (by decide)

omit [TaoJson] [StdSort] [Zstd] in
theorem ParamEvent.storedAt (h : ParamEvent cfg A a va) (db : Db) (levId : Nat) :
    StoredAt db levId a ↔ (levId, va) ∈ db.event.rows := by
  constructor
  · rintro ⟨v, hv, hbuf⟩
    rwa [← PackedEventView.ext_buf (hbuf.trans h.packed.2.symm)]
  · exact fun hv => ⟨va, hv, h.packed.2⟩

omit [Zstd] in
/-- What writing a batch of one such event did. -/
theorem ParamEvent.outcome (h : ParamEvent cfg A a va) {db db' : Db} (hinv : StoreInv db)
    (hfit : db.event.lastId < 2 ^ 64) {cache cache' : NegentropyFilterCache} {a' : EventToWrite}
    (hw : writeEvents db cache [a] = .ok (db', cache', [a'])) : WriteOutcome db none a va db' a' := by
  obtain ⟨db₁, a₁, hw₁, ho⟩ := writeEvents_one hinv hfit h.pending h.view h.packed.1 (writeEvents_cache hw)
  rw [hw] at hw₁
  cases hw₁
  exact ho

theorem Replaces.sameAddress (ha : ParamEvent cfg A a va) (hb : ParamEvent cfg B b vb)
    (h : Replaces cfg b a) : SameAddress vb va := by
  obtain ⟨db, cache, db', cache', b', levId, hreach, hfit, hstored, hw, hgone⟩ := h
  rw [ha.storedAt] at hstored hgone
  cases hb.outcome (hreach.storeInv cfg) (by omega) hw with
  | duplicate _ => exact absurd hstored hgone
  | deleted _ _ => exact absurd hstored hgone
  | replaced _ _ _ => exact absurd hstored hgone
  | written _ _ _ _ hwr =>
    by_contra hne
    refine hgone ((hwr.event _).mpr (Or.inl ⟨hstored, ?_⟩))
    rintro (hs | hn)
    · exact hne hs
    · exact hb.not_names _ hn

theorem Suppresses.sameAddress (ha : ParamEvent cfg A a va) (hb : ParamEvent cfg B b vb)
    (h : Suppresses cfg a b) : SameAddress vb va := by
  obtain ⟨db, cache, db', cache', b', levId, hreach, hfit, hstored, hw, hrep, db₁, cache₁, n, db₂, cache₂,
    b₂, hdel, hw₂, hwritten⟩ := h
  rw [ha.storedAt] at hstored
  have hinv := hreach.storeInv cfg
  have hshrunk := hinv.deleteEvents hdel
  have hfit₁ : db₁.event.lastId ≤ db.event.lastId :=
    Table.lastId_le_of_keys _ _ fun r hr => db.event.le_lastId r (hshrunk.event r hr)
  cases hb.outcome hinv (by omega) hw with
  | duplicate _ => cases hrep
  | deleted _ _ => cases hrep
  | written _ _ _ _ _ => cases hrep
  | replaced _ _ h =>
    obtain ⟨r, hr, hs, hsup⟩ := h
    -- the event that keeps `b` out went with `a`, so it is `a`
    cases hb.outcome (hinv.shrunk hshrunk) (by omega) hw₂ with
    | duplicate _ => cases hwritten
    | deleted _ _ => cases hwritten
    | replaced _ _ _ => cases hwritten
    | written _ _ _ hnot _ =>
      have hgone : r ∉ db₁.event.rows := fun hr₁ => hnot ⟨r, hr₁, hs, hsup⟩
      obtain ⟨-, rfl⟩ := deleteEvents_eq hdel
      rw [(foldl_deleteEvent cache₁ [levId] db hinv.payloads).1, List.mem_singleton] at hgone
      have hlev : r.1 = levId := by
        by_contra hne
        exact hgone ⟨hr, hne⟩
      have heq : va = r.2 := db.event.row_unique hstored (hlev ▸ hr)
      rwa [heq]

/-- A store that has one such event. -/
theorem ParamEvent.exists_store (h : ParamEvent cfg A a va) : ∃ db : Db, Reachable cfg (fun _ => True) db ∧
    Compiles db ∧ (∀ x, x ∈ db.event.rows ↔ x = (1, va)) ∧ db.event.lastId = 1 := by
  have hload : Compiles ({} : Db) := ⟨[], rfl⟩
  obtain ⟨cache', hc⟩ := hload.freshenCache {}
  obtain ⟨db, a', hw, ho⟩ := writeEvents_one StoreInv.empty (by norm_num) h.pending h.view h.packed.1 hc
  have hreach : Reachable cfg (fun _ => True) db := by
    refine .step (.init {} rfl rfl) (.write {} cache' [a] [a'] db ?_ (fun _ _ _ _ => trivial)
      (by norm_num) hw)
    intro ev hev
    rw [List.mem_singleton.mp hev]
    exact ⟨h.pending, A, h.accepted⟩
  refine ⟨db, hreach, ⟨[], ?_⟩, ?_⟩
  · unfold NegentropyFilterCache.loadFilters
    rw [writeEvents_negentropyFilter hw]
    rfl
  · cases ho with
    | duplicate hd => exact absurd hd (by simp [IsDuplicate])
    | deleted _ hd => exact absurd hd (by simp)
    | replaced _ _ hr => exact absurd hr (by simp [IsReplaced])
    | written _ _ _ _ hwr =>
      refine ⟨fun x => ?_, hwr.lastId⟩
      rw [hwr.event]
      simp

/-- Of two events with one address, the second to be written replaces the first or is suppressed. -/
theorem versions_of_sameAddress (ha : ParamEvent cfg A a va) (hb : ParamEvent cfg B b vb)
    (hid : va.id ≠ vb.id) (hs : SameAddress vb va) : Versions cfg a b := by
  obtain ⟨db, hreach, hcomp, hrows, hlast⟩ := ha.exists_store
  have hinv := hreach.storeInv cfg
  have hstored : StoredAt db 1 a := (ha.storedAt db 1).mpr ((hrows _).mpr rfl)
  obtain ⟨cache', hc⟩ := hcomp.freshenCache {}
  obtain ⟨db', b', hw, ho⟩ := writeEvents_one hinv (by omega) hb.pending hb.view hb.packed.1 hc
  have hnodup : ¬ IsDuplicate db none vb := by
    rintro (⟨r, hr, he⟩ | hnone)
    · rw [(hrows r).mp hr] at he
      exact hid he
    · cases hnone
  have hnodel : ∀ r ∈ db.event.rows, ¬ Names r.2 vb := by
    intro r hr
    rw [(hrows r).mp hr]
    exact ha.not_names vb
  cases ho with
  | duplicate hd => exact absurd hd hnodup
  | deleted _ hd =>
    obtain ⟨r, hr, hn⟩ := hd
    exact absurd hn (hnodel r hr)
  | written _ _ _ _ hwr =>
    refine Or.inl ⟨db, {}, db', cache', _, 1, hreach, by omega, hstored, hw, ?_⟩
    rw [ha.storedAt, hwr.event]
    rintro (⟨-, hnot⟩ | heq)
    · exact hnot (Or.inl hs)
    · rw [hlast] at heq
      cases heq
  | replaced _ _ _ =>
    refine Or.inr (Or.inr (Or.inl ⟨db, {}, db, cache', _, 1, hreach, by omega, hstored, hw, rfl, ?_⟩))
    obtain ⟨hc₁, hd⟩ : ∃ n, deleteEvents db {} [1] = .ok ([1].foldl (deleteEvent cache') db, cache', n) := by
      unfold deleteEvents
      rw [hc]
      exact ⟨_, by rw [← deleteLoop_eq cache' [1] (db, 0)]; rfl⟩
    have hshrunk := hinv.deleteEvents hd
    have hnone : ∀ r, r ∉ ([1].foldl (deleteEvent cache') db).event.rows := by
      intro r hr
      rw [(foldl_deleteEvent cache' [1] db hinv.payloads).1, hrows] at hr
      obtain ⟨rfl, hne⟩ := hr
      exact hne List.mem_cons_self
    have hlast₁ : ([1].foldl (deleteEvent cache') db).event.lastId ≤ 0 :=
      Table.lastId_le_of_keys _ _ fun r hr => absurd hr (hnone r)
    obtain ⟨filters, hf⟩ := hcomp
    have hcomp₁ : Compiles ([1].foldl (deleteEvent cache') db) := by
      refine ⟨filters, ?_⟩
      unfold NegentropyFilterCache.loadFilters
      rw [deleteEvents_negentropyFilter hd]
      exact hf
    obtain ⟨cache₂, hc₂⟩ := hcomp₁.freshenCache cache'
    obtain ⟨db₂, b₂, hw₂, ho₂⟩ := writeEvents_one (hinv.shrunk hshrunk) (by omega) hb.pending hb.view
      hb.packed.1 hc₂
    refine ⟨_, cache', _, db₂, cache₂, b₂, hd, hw₂, ?_⟩
    cases ho₂ with
    | duplicate hd₂ =>
      rcases hd₂ with ⟨r, hr, -⟩ | hno
      · exact absurd hr (hnone r)
      · cases hno
    | deleted _ hd₂ =>
      obtain ⟨r, hr, -⟩ := hd₂
      exact absurd hr (hnone r)
    | replaced _ _ hr₂ =>
      obtain ⟨r, hr, -⟩ := hr₂
      exact absurd hr (hnone r)
    | written _ _ _ _ _ => rfl

/-- **Versions share the first short `d` tag.** -/
theorem versions_iff (ha : ParamEvent cfg A a va) (hb : ParamEvent cfg B b vb)
    (hpk : va.pubkey = vb.pubkey) (hkind : va.kind = vb.kind) (hid : va.id ≠ vb.id) :
    Versions cfg a b ↔ firstShortDTag (eventTags A) = firstShortDTag (eventTags B) := by
  have hadda := nostrJsonToPackedEvent_address cfg ha.accepted ha.view ha.kind
  have haddb := nostrJsonToPackedEvent_address cfg hb.accepted hb.view hb.kind
  have hsame : SameAddress vb va ↔ firstShortDTag (eventTags A) = firstShortDTag (eventTags B) := by
    unfold SameAddress
    rw [hadda, haddb, hpk, hkind]
    constructor
    · rintro ⟨x, hx, hx'⟩
      have he := hx.trans hx'.symm
      simp only [Option.some.injEq, Prod.mk.injEq, true_and] at he
      exact he.symm
    · intro he
      exact ⟨_, rfl, by rw [he]⟩
  have hsymm : SameAddress va vb → SameAddress vb va := fun ⟨x, hx, hx'⟩ => ⟨x, hx', hx⟩
  rw [← hsame]
  constructor
  · rintro (h | h | h | h)
    · exact h.sameAddress ha hb
    · exact hsymm (h.sameAddress hb ha)
    · exact h.sameAddress ha hb
    · exact hsymm (h.sameAddress hb ha)
  · exact versions_of_sameAddress ha hb hid

/-- Where a first `d` tag is too long to be packed, what the event falls back to does not matter:
it differs from a short first `d` tag of the other event, and two such events fall back to the same
value just when their first `d` tags agree. -/
def DTagKept (A B : List Json) : Prop :=
  if (firstDTag A).length ≤ maxIndexedTagValSize then
    if (firstDTag B).length ≤ maxIndexedTagValSize then True else firstShortDTag B ≠ firstDTag A
  else if (firstDTag B).length ≤ maxIndexedTagValSize then firstShortDTag A ≠ firstDTag B
  else firstShortDTag A = firstShortDTag B ↔ firstDTag A = firstDTag B

/-- **When the address is the event's own `d` tag.**  Events of one author and one
parameterized-replaceable kind are versions of one address just when their first `d` tags agree,
if and only if `DTagKept`; two first `d` tags of at most 255 bytes are enough. -/
theorem versions_by_first_d (ha : ParamEvent cfg A a va) (hb : ParamEvent cfg B b vb)
    (hpk : va.pubkey = vb.pubkey) (hkind : va.kind = vb.kind) (hid : va.id ≠ vb.id) :
    (Versions cfg a b ↔ firstDTag (eventTags A) = firstDTag (eventTags B)) ↔
      DTagKept (eventTags A) (eventTags B) := by
  rw [versions_iff ha hb hpk hkind hid]
  unfold DTagKept
  by_cases hA : (firstDTag (eventTags A)).length ≤ maxIndexedTagValSize
  · rw [if_pos hA, firstShortDTag_of_short hA]
    by_cases hB : (firstDTag (eventTags B)).length ≤ maxIndexedTagValSize
    · rw [if_pos hB, firstShortDTag_of_short hB]
      exact iff_of_true Iff.rfl trivial
    · rw [if_neg hB]
      have hne : firstDTag (eventTags A) ≠ firstDTag (eventTags B) := fun he => hB (he ▸ hA)
      rw [iff_false_right hne, ne_comm]
  · rw [if_neg hA]
    by_cases hB : (firstDTag (eventTags B)).length ≤ maxIndexedTagValSize
    · rw [if_pos hB, firstShortDTag_of_short hB]
      have hne : firstDTag (eventTags A) ≠ firstDTag (eventTags B) := fun he => hA (he ▸ hB)
      rw [iff_false_right hne]
    · rw [if_neg hB]

end

/-- The JSON of an event of kind 30000 with one `d` tag. -/
def dTagJson (id : Byte) (createdAt : U64) (d : Bytes) : Json :=
  sampleJson id 9 createdAt 30000 [.array [.string (ascii "d"), .string d]]

/-- Two versions of one address. -/
def dTagEvent (id : Byte) (createdAt : U64) : PackedEventView :=
  sampleEvent id 9 createdAt 30000 [(tagD, ascii "x"), (tagD, [])]

theorem versions_by_first_d_short : @Versions Golpe.plain TaoJson.none StdSort.insertion Zstd.none {}
    { packedStr := (dTagEvent 1 100).buf, jsonStr := [] } { packedStr := (dTagEvent 2 101).buf, jsonStr := [] } := by
  let _ : Golpe := Golpe.plain
  let _ : TaoJson := TaoJson.none
  let _ : StdSort := StdSort.insertion
  let _ : Zstd := Zstd.none
  have ha : ParamEvent {} (dTagJson 1 100 (ascii "x"))
      { packedStr := (dTagEvent 1 100).buf, jsonStr := [] } (dTagEvent 1 100) :=
    ⟨rfl, rfl, PackedEventView.ofBytes_self _, by decide⟩
  have hb : ParamEvent {} (dTagJson 2 101 (ascii "x"))
      { packedStr := (dTagEvent 2 101).buf, jsonStr := [] } (dTagEvent 2 101) :=
    ⟨rfl, rfl, PackedEventView.ofBytes_self _, by decide⟩
  have hkept : DTagKept (eventTags (dTagJson 1 100 (ascii "x"))) (eventTags (dTagJson 2 101 (ascii "x"))) := by
    rw [DTagKept, if_pos (by decide), if_pos (by decide)]
    trivial
  exact ((versions_by_first_d ha hb (by decide) (by decide) (by decide)).mpr hkept).mpr rfl

/-- An event whose `d` tag was not packed. -/
def longDTagEvent (id : Byte) (createdAt : U64) : PackedEventView :=
  sampleEvent id 9 createdAt 30000 [(tagD, [])]

set_option maxRecDepth 8000 in
/-- Two `d` tags of 256 bytes that differ are one address. -/
theorem versions_long_d : ¬ (@Versions Golpe.plain TaoJson.none StdSort.insertion Zstd.none {}
      { packedStr := (longDTagEvent 1 100).buf, jsonStr := [] }
      { packedStr := (longDTagEvent 2 101).buf, jsonStr := [] } ↔
      firstDTag (eventTags (dTagJson 1 100 (List.replicate 256 97))) =
        firstDTag (eventTags (dTagJson 2 101 (List.replicate 256 98)))) ∧
    @ParamEvent Golpe.plain {} (dTagJson 1 100 (List.replicate 256 97))
      { packedStr := (longDTagEvent 1 100).buf, jsonStr := [] } (longDTagEvent 1 100) ∧
    @ParamEvent Golpe.plain {} (dTagJson 2 101 (List.replicate 256 98))
      { packedStr := (longDTagEvent 2 101).buf, jsonStr := [] } (longDTagEvent 2 101) := by
  let _ : Golpe := Golpe.plain
  let _ : TaoJson := TaoJson.none
  let _ : StdSort := StdSort.insertion
  let _ : Zstd := Zstd.none
  have ha : ParamEvent {} (dTagJson 1 100 (List.replicate 256 97))
      { packedStr := (longDTagEvent 1 100).buf, jsonStr := [] } (longDTagEvent 1 100) :=
    ⟨rfl, rfl, PackedEventView.ofBytes_self _, by decide⟩
  have hb : ParamEvent {} (dTagJson 2 101 (List.replicate 256 98))
      { packedStr := (longDTagEvent 2 101).buf, jsonStr := [] } (longDTagEvent 2 101) :=
    ⟨rfl, rfl, PackedEventView.ofBytes_self _, by decide⟩
  refine ⟨fun h => ?_, ha, hb⟩
  have hversions := (versions_iff ha hb (by decide) (by decide) (by decide)).mpr rfl
  exact absurd (h.mp hversions) (by decide)

end Strfry
