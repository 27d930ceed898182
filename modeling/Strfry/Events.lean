import Strfry.PackedEvent

/-!
# Event kinds and the event parser

`nostrJsonToPackedEvent` (`events_parse.cpp`) turns the JSON of an event into its
packed bytes.  The kind decides where a virtual `d` tag goes: first for replaceable
kinds (so it is the one that counts), last for parameterized-replaceable kinds (so
it counts only when the event has no `d` tag of its own).

`nostrJsonToPackedEvent_spec` describes what is accepted: the bytes are those of a
`PackedFields` whose tags are the virtual ones around tags of at most 255 bytes, `e`
and `p` values having 32.
-/

namespace Strfry

/-! ## `EventKind` -/

def isReplaceableKind (value : Nat) : Bool :=
  value == 0 || value == 3 || value == 41 || (10000 ≤ value && value < 20000)

def isParamReplaceableKind (value : Nat) : Bool := 30000 ≤ value && value < 40000

def isEphemeralKind (value : Nat) : Bool := 20000 ≤ value && value < 30000

def isDeletionKind (value : Nat) : Bool := value == 5

theorem isDeletionKind_not_replaceable (k : Nat) (h : isDeletionKind k = true) :
    isReplaceableKind k = false ∧ isParamReplaceableKind k = false := by
  have : k = 5 := by simpa [isDeletionKind] using h
  subst this
  decide

theorem not_replaceable_and_param (k : Nat) :
    ¬ (isReplaceableKind k = true ∧ isParamReplaceableKind k = true) := by
  simp only [isReplaceableKind, isParamReplaceableKind, Bool.or_eq_true, Bool.and_eq_true,
    beq_iff_eq, decide_eq_true_eq]
  omega

/-- `MAX_INDEXED_TAG_VAL_SIZE`. -/
def maxIndexedTagValSize : Nat := 255

/-- The tag names the code looks at. -/
def tagD : Byte := 100

def tagE : Byte := 101

def tagP : Byte := 112

def tagProtected : Byte := 45

/-- The value of a string of decimal digits. -/
def decimal : Bytes → Option Nat :=
  List.foldlM (fun acc b => if 48 ≤ b.val ∧ b.val ≤ 57 then some (10 * acc + (b.val - 48)) else none) 0

/-- `parseUint64`: digits only, then `std::stoull` (which throws on the empty string and
above `MAX_U64`). -/
def parseUint64 (s : Bytes) : Except Err Nat :=
  match decimal s with
  | none => .error (.herr "non-digit character")
  | some n => if s = [] ∨ n > maxU64 then .error .badNumber else .ok n

theorem parseUint64_lt {s : Bytes} {n : Nat} (h : parseUint64 s = .ok n) : n < 2 ^ 64 := by
  unfold parseUint64 at h
  split at h
  · cases h
  · split at h
    · cases h
    · rename_i hn
      cases h
      have : ¬ n > maxU64 := fun h => hn (Or.inr h)
      unfold maxU64 at this
      omega

section
variable [Golpe] (cfg : Cfg)

/-- The second field of a tag, empty when missing. -/
def tagValue : List Json → Except Err Bytes
  | [] => .ok []
  | v :: _ => jsonGetString v "tag val was not a string"

/-- One turn of the loop over the `tags` field: the tag buffer and the expiration so far. -/
def packTag (st : Bytes × Nat) (tagArr : Json) : Except Err (Bytes × Nat) :=
  jsonGetArray tagArr "tag in tags field was not an array" >>= fun tag =>
  match tag with
  | [] => .error (.herr "too few fields in tag")
  | name :: fields => do
    let tagName ← jsonGetString name "tag name was not a string"
    let tagVal ← tagValue fields
    if tagName = [tagE] ∨ tagName = [tagP] then
      let _ ← throwIf (tagVal.length ≠ 64) (.herr ("unexpected size for fixed-size tag: " ++
        String.ofList (tagName.map fun b => Char.ofNat b.val)))
      let tagVal ← fromHex tagVal
      let buf ← PackedEventTagBuilder.add st.1 (tagName.headD 0) tagVal
      return (buf, st.2)
    else if tagName = ascii "expiration" then
      if st.2 = 0 then
        let expiration ← parseUint64 tagVal
        let _ ← throwIf (expiration < 100) (.herr "invalid expiration")
        return (st.1, expiration)
      else return st
    else if tagName.length = 1 then
      let _ ← throwIf (tagVal.length > cfg.eventsMaxTagValSize)
        (.herr ("tag val too large: " ++ toString tagVal.length))
      if tagVal.length ≤ maxIndexedTagValSize then
        let buf ← PackedEventTagBuilder.add st.1 (tagName.headD 0) tagVal
        return (buf, st.2)
      else return st
    else return st

/-- Add the virtual `d` tag when `b`. -/
def addVirtualD (b : Bool) (tagBuf : Bytes) : Except Err Bytes :=
  if b then PackedEventTagBuilder.add tagBuf tagD [] else .ok tagBuf

/-- `nostrJsonToPackedEvent`. -/
def nostrJsonToPackedEvent (v : Json) : Except Err Bytes := do
  let id ← fromHex (← jsonGetString (← v.atKey (ascii "id")) "event id field was not a string")
  let pubkey ← fromHex
    (← jsonGetString (← v.atKey (ascii "pubkey")) "event pubkey field was not a string")
  let createdAt ← jsonGetUnsigned (← v.atKey (ascii "created_at"))
    "event created_at field was not an integer"
  let kind ← jsonGetUnsigned (← v.atKey (ascii "kind")) "event kind field was not an integer"
  let _ ← throwIf (id.length ≠ 32) (.herr "unexpected id size")
  let _ ← throwIf (pubkey.length ≠ 32) (.herr "unexpected pubkey size")
  let _ ← jsonGetString (← v.atKey (ascii "content")) "event content field was not a string"
  -- Prepend virtual d-tag
  let tagBuf ← addVirtualD (isReplaceableKind kind) []
  let tags ← jsonGetArray (← v.atKey (ascii "tags")) "tags field not an array"
  let _ ← throwIf (tags.length > cfg.eventsMaxNumTags)
    (.herr ("too many tags: " ++ toString tags.length))
  let st ← tags.foldlM (packTag cfg) (tagBuf, 0)
  -- Append virtual d-tag
  let tagBuf ← addVirtualD (isParamReplaceableKind kind) st.1
  let expiration := if isEphemeralKind kind then 1 else st.2
  PackedEventBuilder.build id pubkey createdAt kind expiration tagBuf

/-! ## What the parser accepts -/

/-- A tag the parser packs from the JSON: at most 255 bytes, 32 for `e` and `p`. -/
def TagOk (t : Byte × Bytes) : Prop :=
  t.2.length ≤ 255 ∧ (t.1 = tagE ∨ t.1 = tagP → t.2.length = 32)

omit [Golpe] in
theorem add_ok {buf buf' : Bytes} {k : Byte} {val : Bytes}
    (h : PackedEventTagBuilder.add buf k val = .ok buf') :
    val.length ≤ 255 ∧ buf' = buf ++ encodeTags [(k, val)] := by
  unfold PackedEventTagBuilder.add at h
  split at h
  · cases h
  · rename_i hl
    cases h
    exact ⟨by omega, by simp [encodeTags]⟩

/-- The value of a JSON `d` tag, empty when it has none. -/
def dTagValue : Json → Option Bytes
  | .array (.string name :: fields) => if name = [tagD] then
      match fields with
      | .string val :: _ => some val
      | _ => some []
    else none
  | _ => none

/-- The values of the `d` tags among packed tags. -/
def packedDs (ts : List (Byte × Bytes)) : List Bytes := (ts.filter fun t => t.1 == tagD).map Prod.snd

omit [Golpe] in
theorem packedDs_append (ts us : List (Byte × Bytes)) : packedDs (ts ++ us) = packedDs ts ++ packedDs us := by
  simp [packedDs]

/-- The values of the `d` tags of the JSON that are short enough to be packed. -/
def shortDs (tags : List Json) : List Bytes :=
  (tags.filterMap dTagValue).filter fun d => d.length ≤ maxIndexedTagValSize

omit [Golpe] in
theorem dTagValue_ok {name : Json} {tagName tagVal : Bytes} {fields : List Json} {msg : String}
    (hn : jsonGetString name msg = .ok tagName) (hv : tagValue fields = .ok tagVal) :
    dTagValue (.array (name :: fields)) = if tagName = [tagD] then some tagVal else none := by
  obtain rfl := jsonGetString_ok hn
  match fields, hv with
  | [], hv =>
    cases hv
    rfl
  | v :: _, hv =>
    obtain rfl := jsonGetString_ok hv
    rfl

/-- One tag adds at most one packed tag; a `d` tag is packed when it is short. -/
theorem packTag_ok {st st' : Bytes × Nat} {t : Json} (h : packTag cfg st t = .ok st')
    (hexp : st.2 < 2 ^ 64) :
    st'.2 < 2 ^ 64 ∧ ∃ ts, (∀ t ∈ ts, TagOk t) ∧ packedDs ts = shortDs [t] ∧
      st'.1 = st.1 ++ encodeTags ts := by
  unfold packTag at h
  obtain ⟨tag, ht, h⟩ := bind_eq_ok.mp h
  rw [jsonGetArray_ok ht]
  cases tag with
  | nil => cases h
  | cons name fields =>
    obtain ⟨tagName, hn, h⟩ := bind_eq_ok.mp h
    obtain ⟨tagVal, hv, h⟩ := bind_eq_ok.mp h
    have hd := dTagValue_ok hn hv
    -- tags of another name count for nothing
    have hother : tagName ≠ [tagD] → shortDs [.array (name :: fields)] = [] := by
      intro hne
      rw [if_neg hne] at hd
      simp [shortDs, hd]
    split at h
    · -- `e` and `p`
      rename_i hep
      obtain ⟨_, hlen, h⟩ := bind_eq_ok.mp h
      obtain ⟨val, hval, h⟩ := bind_eq_ok.mp h
      obtain ⟨buf, hbuf, h⟩ := bind_eq_ok.mp h
      cases h
      obtain ⟨hle, rfl⟩ := add_ok hbuf
      have h64 := fromHex_ok_length hval
      have hlen := not_not.mp (throwIf_eq_ok.mp hlen)
      refine ⟨hexp, [(tagName.headD 0, val)], ?_, ?_, rfl⟩
      · intro t ht
        simp only [List.mem_singleton] at ht
        subst ht
        exact ⟨hle, fun _ => by show val.length = 32; omega⟩
      · rcases hep with rfl | rfl
        · exact (hother (by decide)).symm
        · exact (hother (by decide)).symm
    · rename_i hname
      split at h
      · -- `expiration`
        rename_i hexpiration
        have hnil := hother (by rw [hexpiration]; decide)
        split at h
        · obtain ⟨e, he, h⟩ := bind_eq_ok.mp h
          obtain ⟨_, -, h⟩ := bind_eq_ok.mp h
          cases h
          exact ⟨parseUint64_lt he, [], by simp, hnil.symm, by simp [encodeTags]⟩
        · cases h
          exact ⟨hexp, [], by simp, hnil.symm, by simp [encodeTags]⟩
      · split at h
        · -- other names of one character
          rename_i hone
          obtain ⟨c, rfl⟩ := List.length_eq_one_iff.mp hone
          have hshort : shortDs [.array (name :: fields)] =
              if c = tagD ∧ tagVal.length ≤ maxIndexedTagValSize then [tagVal] else [] := by
            by_cases hc : c = tagD
            · simp [shortDs, hd, hc, List.filter_cons]
            · simp [shortDs, hd, hc]
          obtain ⟨_, -, h⟩ := bind_eq_ok.mp h
          split at h
          · rename_i hle'
            obtain ⟨buf, hbuf, h⟩ := bind_eq_ok.mp h
            cases h
            obtain ⟨hle, rfl⟩ := add_ok hbuf
            refine ⟨hexp, [(c, tagVal)], ?_, ?_, rfl⟩
            · intro t ht
              simp only [List.mem_singleton] at ht
              subst ht
              refine ⟨hle, fun hep => absurd ?_ hname⟩
              simpa using hep
            · by_cases hc : c = tagD
              · simp [hshort, hc, hle', packedDs]
              · simp [hshort, hc, packedDs]
          · rename_i hle
            cases h
            exact ⟨hexp, [], by simp, by simp [hshort, hle, packedDs], by simp [encodeTags]⟩
        · rename_i hone
          cases h
          exact ⟨hexp, [], by simp, (hother (by rintro rfl; exact hone rfl)).symm, by simp [encodeTags]⟩

theorem packTags_ok (tags : List Json) {st st' : Bytes × Nat}
    (h : tags.foldlM (packTag cfg) st = .ok st') (hexp : st.2 < 2 ^ 64) :
    st'.2 < 2 ^ 64 ∧ ∃ ts, (∀ t ∈ ts, TagOk t) ∧ packedDs ts = shortDs tags ∧
      st'.1 = st.1 ++ encodeTags ts := by
  induction tags generalizing st with
  | nil =>
    simp only [List.foldlM_nil] at h
    cases h
    exact ⟨hexp, [], by simp, rfl, by simp [encodeTags]⟩
  | cons t tags ih =>
    rw [List.foldlM_cons] at h
    obtain ⟨st1, h1, h⟩ := bind_eq_ok.mp h
    obtain ⟨hexp1, ts, hts, hd1, e1⟩ := packTag_ok cfg h1 hexp
    obtain ⟨hexp', us, hus, hd2, e2⟩ := ih h hexp1
    refine ⟨hexp', ts ++ us, ?_, ?_, ?_⟩
    · intro t ht
      rcases List.mem_append.mp ht with ht | ht
      · exact hts t ht
      · exact hus t ht
    · have hcons : shortDs (t :: tags) = shortDs [t] ++ shortDs tags := by
        unfold shortDs
        rw [← List.filter_append, ← List.filterMap_append, List.singleton_append]
      rw [packedDs_append, hd1, hd2, hcons]
    · rw [e2, e1, encodeTags_append, List.append_assoc]

/-- The virtual `d` tag, present when `b`. -/
def virtualD (b : Bool) : List (Byte × Bytes) := if b then [(tagD, [])] else []

omit [Golpe] in
theorem addVirtualD_ok {b : Bool} {buf buf' : Bytes} (h : addVirtualD b buf = .ok buf') :
    buf' = buf ++ encodeTags (virtualD b) := by
  cases b with
  | true =>
    simp only [addVirtualD, if_true] at h
    exact (add_ok h).2
  | false =>
    cases h
    simp [virtualD, encodeTags]

/-- The packed form of an accepted event. -/
structure Packed (v : PackedEventView) : Prop where
  tags_eq : ∃ ts, (∀ t ∈ ts, TagOk t) ∧
    v.tags = virtualD (isReplaceableKind v.kind) ++ ts ++ virtualD (isParamReplaceableKind v.kind)

omit [Golpe] in
theorem tagOk_virtualD (b : Bool) : ∀ t ∈ virtualD b, TagOk t := by
  intro t ht
  cases b with
  | false => simp [virtualD] at ht
  | true =>
    simp only [virtualD, if_true, List.mem_singleton] at ht
    subst ht
    exact ⟨by simp, fun h => by rcases h with h | h <;> exact absurd h (by decide)⟩

/-- The steps of an accepting run: the fields read, the walk over the tags, what is built. -/
theorem nostrJsonToPackedEvent_steps {v : Json} {buf : Bytes}
    (h : nostrJsonToPackedEvent cfg v = .ok buf) :
    ∃ (idText id pubkeyText pubkey : Bytes) (c k : U64) (tags : List Json) (st : Bytes × Nat),
      v.atKey (ascii "id") = .ok (.string idText) ∧ fromHex idText = .ok id ∧ id.length = 32 ∧
      v.atKey (ascii "pubkey") = .ok (.string pubkeyText) ∧ fromHex pubkeyText = .ok pubkey ∧
      pubkey.length = 32 ∧ v.atKey (ascii "created_at") = .ok (.unsigned c) ∧
      v.atKey (ascii "kind") = .ok (.unsigned k) ∧ v.atKey (ascii "tags") = .ok (.array tags) ∧
      tags.foldlM (packTag cfg) (encodeTags (virtualD (isReplaceableKind k.val)), 0) = .ok st ∧
      buf = id ++ pubkey ++ toSv c.val ++ toSv k.val ++ toSv (if isEphemeralKind k.val then 1 else st.2) ++
        (st.1 ++ encodeTags (virtualD (isParamReplaceableKind k.val))) := by
  unfold nostrJsonToPackedEvent at h
  obtain ⟨jid, hjid, h⟩ := bind_eq_ok.mp h
  obtain ⟨idText, hidText, h⟩ := bind_eq_ok.mp h
  obtain ⟨id, hid, h⟩ := bind_eq_ok.mp h
  obtain ⟨jpk, hjpk, h⟩ := bind_eq_ok.mp h
  obtain ⟨pubkeyText, hpkText, h⟩ := bind_eq_ok.mp h
  obtain ⟨pubkey, hpk, h⟩ := bind_eq_ok.mp h
  obtain ⟨jc, hjc, h⟩ := bind_eq_ok.mp h
  obtain ⟨createdAt, hc, h⟩ := bind_eq_ok.mp h
  obtain ⟨jk, hjk, h⟩ := bind_eq_ok.mp h
  obtain ⟨kind, hk, h⟩ := bind_eq_ok.mp h
  obtain ⟨_, -, h⟩ := bind_eq_ok.mp h
  obtain ⟨_, -, h⟩ := bind_eq_ok.mp h
  obtain ⟨_, -, h⟩ := bind_eq_ok.mp h
  obtain ⟨_, -, h⟩ := bind_eq_ok.mp h
  obtain ⟨buf0, h0, h⟩ := bind_eq_ok.mp h
  obtain ⟨jtags, hjtags, h⟩ := bind_eq_ok.mp h
  obtain ⟨tags, htags, h⟩ := bind_eq_ok.mp h
  obtain ⟨_, -, h⟩ := bind_eq_ok.mp h
  obtain ⟨st, hst, h⟩ := bind_eq_ok.mp h
  obtain ⟨buf2, h2, h⟩ := bind_eq_ok.mp h
  obtain ⟨hidl, hpkl, hbuf⟩ := PackedEventBuilder.build_ok h
  rw [jsonGetString_ok hidText] at hjid
  rw [jsonGetString_ok hpkText] at hjpk
  rw [jsonGetArray_ok htags] at hjtags
  obtain ⟨c, rfl, rfl⟩ := jsonGetUnsigned_ok hc
  obtain ⟨k, rfl, rfl⟩ := jsonGetUnsigned_ok hk
  have e0 := addVirtualD_ok h0
  rw [List.nil_append] at e0
  subst e0
  rw [addVirtualD_ok h2] at hbuf
  exact ⟨idText, id, pubkeyText, pubkey, c, k, tags, st, hjid, hid, hidl, hjpk, hpk, hpkl, hjc, hjk, hjtags,
    hst, hbuf⟩

/-- What the parser packs, with where the `d` tags come from. -/
theorem nostrJsonToPackedEvent_fields {v : Json} {buf : Bytes}
    (h : nostrJsonToPackedEvent cfg v = .ok buf) : ∃ (view : PackedEventView) (k : U64)
      (tags : List Json) (ts : List (Byte × Bytes)),
      PackedEventView.ofBytes buf = .ok view ∧ view.buf = buf ∧
      v.atKey (ascii "kind") = .ok (.unsigned k) ∧ view.kind = k.val ∧
      v.atKey (ascii "tags") = .ok (.array tags) ∧ (∀ t ∈ ts, TagOk t) ∧ packedDs ts = shortDs tags ∧
      view.tags = virtualD (isReplaceableKind view.kind) ++ ts ++
        virtualD (isParamReplaceableKind view.kind) := by
  obtain ⟨_, id, _, pubkey, c, k, tags, st, -, -, hidl, -, -, hpkl, -, hjk, hjtags, hst, hbuf⟩ :=
    nostrJsonToPackedEvent_steps cfg h
  obtain ⟨hexp, ts, hts, hds, hst1⟩ := packTags_ok cfg tags hst (by norm_num)
  let tg := virtualD (isReplaceableKind k) ++ ts ++ virtualD (isParamReplaceableKind k)
  have htg : ∀ t ∈ tg, TagOk t := by
    intro t ht
    rcases List.mem_append.mp ht with ht | ht
    · rcases List.mem_append.mp ht with ht | ht
      · exact tagOk_virtualD _ t ht
      · exact hts t ht
    · exact tagOk_virtualD _ t ht
  let p : PackedFields :=
    { id := id, pubkey := pubkey, createdAt := c, kind := k
      expiration := if isEphemeralKind k then 1 else st.2
      tags := tg
      id_len := hidl
      pubkey_len := hpkl
      createdAt_lt := c.isLt
      kind_lt := k.isLt
      expiration_lt := by
        split
        · norm_num
        · exact hexp
      tags_len := fun t ht => (htg t ht).1 }
  have hb : p.view.buf = buf := by
    rw [hbuf, hst1]
    simp [p, tg, PackedFields.bytes, encodeTags_append]
  refine ⟨p.view, k, tags, ts, ?_, hb, hjk, p.view_kind, hjtags, hts, hds, ?_⟩
  · rw [← hb]
    exact PackedEventView.ofBytes_self _
  · rw [PackedFields.view_tags, PackedFields.view_kind]

/-- **The parser packs.**  Accepted JSON gives bytes that are viewed as a packed event. -/
theorem nostrJsonToPackedEvent_spec {v : Json} {buf : Bytes}
    (h : nostrJsonToPackedEvent cfg v = .ok buf) : ∃ view : PackedEventView,
      PackedEventView.ofBytes buf = .ok view ∧ view.buf = buf ∧ Packed view ∧
      ∃ k : U64, v.atKey (ascii "kind") = .ok (.unsigned k) ∧ view.kind = k.val := by
  obtain ⟨view, k, tags, ts, hview, hbuf, hjk, hk, -, hts, -, hvt⟩ := nostrJsonToPackedEvent_fields cfg h
  exact ⟨view, hview, hbuf, ⟨ts, hts, hvt⟩, k, hjk, hk⟩

end

/-- The JSON of an event whose id and pubkey repeat one byte each. -/
def sampleJson (id pubkey : Byte) (createdAt kind : U64) (tags : List Json) : Json :=
  .object [(ascii "content", .string []), (ascii "created_at", .unsigned createdAt),
    (ascii "id", .string (toHex (List.replicate 32 id))), (ascii "kind", .unsigned kind),
    (ascii "pubkey", .string (toHex (List.replicate 32 pubkey))), (ascii "tags", .array tags)]

/-- Events of a replaceable or parameterized-replaceable kind have a `d` tag. -/
theorem Packed.exists_d {v : PackedEventView} (h : Packed v)
    (hk : isReplaceableKind v.kind = true ∨ isParamReplaceableKind v.kind = true) :
    ∃ val, (tagD, val) ∈ v.tags := by
  obtain ⟨ts, -, he⟩ := h.tags_eq
  refine ⟨[], ?_⟩
  rw [he]
  rcases hk with hk | hk
  · simp [hk, virtualD]
  · simp [hk, virtualD]

/-- Packed tags satisfy the size rules. -/
theorem Packed.tagOk {v : PackedEventView} (h : Packed v) : ∀ t ∈ v.tags, TagOk t := by
  obtain ⟨ts, hts, he⟩ := h.tags_eq
  intro t ht
  rw [he] at ht
  rcases List.mem_append.mp ht with ht | ht
  · rcases List.mem_append.mp ht with ht | ht
    · exact tagOk_virtualD _ t ht
    · exact hts t ht
  · exact tagOk_virtualD _ t ht

end Strfry
