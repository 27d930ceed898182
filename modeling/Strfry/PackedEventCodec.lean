import Strfry.Events

/-!
# The packed event codec

What `nostrJsonToPackedEvent` writes is what `PackedEventView` reads.  `Decodes v view`
says it field by field, with the JSON on one side and the accessors on the other:

    id, pubkey        the hex strings, decoded
    created_at, kind  the integers
    expiration        1 if the kind is ephemeral, else the first `expiration` tag, else 0
    tags              virtual d ++ the indexed tags, in order ++ virtual d

`indexedTag` is the reading of one tag array: it is indexed when its name is one byte and
its value (`e` and `p` values decoded, a missing value empty) has at most 255 bytes.

The builder's own length check is never reached with a longer value
(`nostrJsonToPackedEvent_short`): `e` and `p` values are 64 digits by then, the others
were compared before.
-/

namespace Strfry

/-! ## What the tags of the JSON say -/

/-- The name and the value of a tag array, the value empty when missing. -/
def tagFields : Json → Option (Bytes × Bytes)
  | .array [.string name] => some (name, [])
  | .array (.string name :: .string val :: _) => some (name, val)
  | _ => none

section
variable [Golpe]

/-- The value a tag is indexed by. -/
def indexedValue (name : Byte) (val : Bytes) : Option Bytes :=
  if name = tagE ∨ name = tagP then Golpe.fromHex val else some val

/-- What is indexed of a tag array. -/
def indexedTag (t : Json) : Option (Byte × Bytes) :=
  match tagFields t with
  | some ([name], val) => ((indexedValue name val).filter fun x => x.length ≤ 255).map fun x => (name, x)
  | _ => none

/-- An `e` or `p` tag has a value of 32 bytes in hex. -/
def FixedSize (t : Json) : Prop :=
  ∀ name val, tagFields t = some ([name], val) → name = tagE ∨ name = tagP →
    ∃ x, Golpe.fromHex val = some x ∧ x.length = 32

end

/-- The value of the first `expiration` tag. -/
def expirationTag (tags : List Json) : Option Bytes :=
  ((tags.filterMap tagFields).find? fun f => f.1 == ascii "expiration").map Prod.snd

/-- The number in the first `expiration` tag, 0 without one. -/
def ExpiresAt (tags : List Json) (n : Nat) : Prop :=
  match expirationTag tags with
  | none => n = 0
  | some s => s ≠ [] ∧ decimal s = some n

/-- What the accessors of a packed event return, said of the JSON it was made from. -/
structure Decodes [Golpe] (v : Json) (view : PackedEventView) : Prop where
  id : ∃ s, v.atKey (ascii "id") = .ok (.string s) ∧ Golpe.fromHex s = some view.id
  pubkey : ∃ s, v.atKey (ascii "pubkey") = .ok (.string s) ∧ Golpe.fromHex s = some view.pubkey
  createdAt : ∃ n : U64, v.atKey (ascii "created_at") = .ok (.unsigned n) ∧ view.createdAt = n.val
  kind : ∃ n : U64, v.atKey (ascii "kind") = .ok (.unsigned n) ∧ view.kind = n.val
  tags : ∃ tags, v.atKey (ascii "tags") = .ok (.array tags) ∧ (∀ t ∈ tags, FixedSize t) ∧
    view.tags = virtualD (isReplaceableKind view.kind) ++ tags.filterMap indexedTag ++
      virtualD (isParamReplaceableKind view.kind) ∧
    (isEphemeralKind view.kind = false → ExpiresAt tags view.expiration)
  ephemeral : view.expiration = 1 ↔ isEphemeralKind view.kind = true

theorem virtualD_length (b : Bool) : ∀ t ∈ virtualD b, t.2.length ≤ 255 := fun t ht => (tagOk_virtualD b t ht).1

/-! ## One tag -/

theorem parseUint64_ok {s : Bytes} {n : Nat} (h : parseUint64 s = .ok n) :
    s ≠ [] ∧ decimal s = some n := by
  unfold parseUint64 at h
  split at h
  · cases h
  · rename_i m hm
    split at h
    · cases h
    · rename_i hs
      cases h
      exact ⟨fun hnil => hs (Or.inl hnil), hm⟩

theorem tagFields_ok {name : Json} {tagName tagVal : Bytes} {fields : List Json} {msg : String}
    (hn : jsonGetString name msg = .ok tagName) (hv : tagValue fields = .ok tagVal) :
    tagFields (.array (name :: fields)) = some (tagName, tagVal) := by
  obtain rfl := jsonGetString_ok hn
  match fields, hv with
  | [], hv =>
    cases hv
    rfl
  | v :: _, hv =>
    obtain rfl := jsonGetString_ok hv
    rfl

/-- What one turn of the loop over the tags does to the expiration. -/
def nextExpiration (e : Nat) (t : Json) (e' : Nat) : Prop :=
  match tagFields t with
  | some (name, val) => if name = ascii "expiration" ∧ e = 0 then
      val ≠ [] ∧ decimal val = some e' ∧ 100 ≤ e' ∧ e' < 2 ^ 64
    else e' = e
  | none => False

theorem nextExpiration.of_ne {e e' : Nat} {t : Json} (h : nextExpiration e t e') (he : e ≠ 0) : e' = e := by
  unfold nextExpiration at h
  split at h
  · rwa [if_neg fun hc => he hc.2] at h
  · exact h.elim

theorem nextExpiration.of_zero {e' : Nat} {t : Json} (h : nextExpiration 0 t e') :
    (∃ val, tagFields t = some (ascii "expiration", val) ∧ val ≠ [] ∧ decimal val = some e' ∧ 100 ≤ e' ∧
      e' < 2 ^ 64) ∨ (∃ name val, tagFields t = some (name, val) ∧ name ≠ ascii "expiration") ∧ e' = 0 := by
  unfold nextExpiration at h
  split at h
  · rename_i name val hf
    by_cases hname : name = ascii "expiration"
    · rw [if_pos ⟨hname, rfl⟩] at h
      subst hname
      exact Or.inl ⟨val, hf, h⟩
    · rw [if_neg fun hc => hname hc.1] at h
      exact Or.inr ⟨⟨name, val, hf, hname⟩, h⟩
  · exact h.elim

theorem expirationTag_cons {t : Json} {name val : Bytes} (tags : List Json) (h : tagFields t = some (name, val)) :
    expirationTag (t :: tags) = if name = ascii "expiration" then some val else expirationTag tags := by
  unfold expirationTag
  rw [List.filterMap_cons_some h, List.find?_cons]
  by_cases hname : name = ascii "expiration"
  · simp [hname]
  · have hb : (name == ascii "expiration") = false := beq_eq_false_iff_ne.mpr hname
    rw [if_neg hname]
    simp only [hb]

section
variable [Golpe] (cfg : Cfg)

/-- Only names of one byte are indexed. -/
theorem indexedTag_of_length {t : Json} {name val : Bytes} (h : tagFields t = some (name, val))
    (hname : name.length ≠ 1) : indexedTag t = none := by
  unfold indexedTag
  rw [h]
  cases name with
  | nil => rfl
  | cons c cs =>
    cases cs with
    | nil => exact absurd rfl hname
    | cons d ds => rfl

/-- One tag: its indexed form goes to the buffer, an `expiration` counts when it is the first. -/
theorem packTag_packs {st st' : Bytes × Nat} {t : Json} (h : packTag cfg st t = .ok st') :
    FixedSize t ∧ st'.1 = st.1 ++ encodeTags (indexedTag t).toList ∧ nextExpiration st.2 t st'.2 := by
  unfold packTag at h
  obtain ⟨tag, ht, h⟩ := bind_eq_ok.mp h
  rw [jsonGetArray_ok ht]
  cases tag with
  | nil => cases h
  | cons name fields =>
    obtain ⟨tagName, hn, h⟩ := bind_eq_ok.mp h
    obtain ⟨tagVal, hv, h⟩ := bind_eq_ok.mp h
    have hf := tagFields_ok hn hv
    split at h
    · -- `e` and `p`
      rename_i hep
      obtain ⟨_, hlen, h⟩ := bind_eq_ok.mp h
      obtain ⟨val, hval, h⟩ := bind_eq_ok.mp h
      obtain ⟨buf, hbuf, h⟩ := bind_eq_ok.mp h
      cases h
      obtain ⟨c, rfl, hc⟩ : ∃ c, tagName = [c] ∧ (c = tagE ∨ c = tagP) := by
        rcases hep with rfl | rfl
        · exact ⟨tagE, rfl, Or.inl rfl⟩
        · exact ⟨tagP, rfl, Or.inr rfl⟩
      have hhex := fromHex_eq_ok.mp hval
      have h32 : val.length = 32 := by
        have h64 := not_not.mp (throwIf_eq_ok.mp hlen)
        have := Golpe.length_fromHex tagVal val hhex
        omega
      have hexp : [c] ≠ ascii "expiration" := by
        intro h
        have := congrArg List.length h
        simp [ascii] at this
      refine ⟨?_, ?_, ?_⟩
      · intro n x hx _
        rw [hf] at hx
        cases hx
        exact ⟨val, hhex, h32⟩
      · rw [(add_ok hbuf).2]
        simp [indexedTag, hf, indexedValue, hc, hhex, h32, Option.filter]
      · simp [nextExpiration, hf, hexp]
    · rename_i hname
      -- a name of one byte is neither `e` nor `p` from here on
      have hfixed : FixedSize (.array (name :: fields)) := by
        intro n x hx hep
        rw [hf] at hx
        cases hx
        exact absurd (hep.imp (congrArg fun c => [c]) (congrArg fun c => [c])) hname
      split at h
      · -- `expiration`
        rename_i hexpiration
        rw [indexedTag_of_length hf (by rw [hexpiration]; decide)]
        split at h
        · rename_i h0
          obtain ⟨e, he, h⟩ := bind_eq_ok.mp h
          obtain ⟨_, h100, h⟩ := bind_eq_ok.mp h
          cases h
          have hlow := throwIf_eq_ok.mp h100
          refine ⟨hfixed, by simp [encodeTags], ?_⟩
          unfold nextExpiration
          rw [hf]
          show if _ then _ else _
          rw [if_pos ⟨hexpiration, h0⟩]
          exact ⟨(parseUint64_ok he).1, (parseUint64_ok he).2, by omega, parseUint64_lt he⟩
        · rename_i h0
          cases h
          exact ⟨hfixed, by simp [encodeTags], by simp [nextExpiration, hf, h0]⟩
      · rename_i hexpiration
        have hnext : nextExpiration st.2 (.array (name :: fields)) st.2 := by
          simp [nextExpiration, hf, hexpiration]
        split at h
        · -- other names of one byte
          rename_i hone
          obtain ⟨c, rfl⟩ := List.length_eq_one_iff.mp hone
          have hep : ¬ (c = tagE ∨ c = tagP) := by simpa using hname
          obtain ⟨_, -, h⟩ := bind_eq_ok.mp h
          split at h
          · rename_i hle
            obtain ⟨buf, hbuf, h⟩ := bind_eq_ok.mp h
            cases h
            refine ⟨hfixed, ?_, hnext⟩
            rw [(add_ok hbuf).2]
            have hle : tagVal.length ≤ 255 := hle
            simp [indexedTag, hf, indexedValue, hep, hle, Option.filter]
          · rename_i hle
            cases h
            refine ⟨hfixed, ?_, hnext⟩
            have hle : ¬ tagVal.length ≤ 255 := hle
            simp [indexedTag, hf, indexedValue, hep, hle, Option.filter, encodeTags]
        · -- longer names
          rename_i hone
          cases h
          exact ⟨hfixed, by simp [indexedTag_of_length hf hone, encodeTags], hnext⟩

/-- The whole loop over the tags. -/
theorem packTags_packs (tags : List Json) {st st' : Bytes × Nat}
    (h : tags.foldlM (packTag cfg) st = .ok st') :
    (∀ t ∈ tags, FixedSize t) ∧ st'.1 = st.1 ++ encodeTags (tags.filterMap indexedTag) ∧
      (st.2 ≠ 0 → st'.2 = st.2) ∧
      (st.2 = 0 → ExpiresAt tags st'.2 ∧ (st'.2 = 0 ∨ 100 ≤ st'.2) ∧ st'.2 < 2 ^ 64) := by
  induction tags generalizing st with
  | nil =>
    rw [List.foldlM_nil] at h
    cases h
    refine ⟨by simp, by simp [encodeTags], fun _ => rfl, fun h0 => ⟨h0, Or.inl h0, ?_⟩⟩
    rw [h0]
    norm_num
  | cons t tags ih =>
    rw [List.foldlM_cons] at h
    obtain ⟨st1, h1, h⟩ := bind_eq_ok.mp h
    obtain ⟨hfix, hbuf, hnext⟩ := packTag_packs cfg h1
    obtain ⟨ihfix, ihbuf, ihset, ihunset⟩ := ih h
    refine ⟨?_, ?_, ?_, ?_⟩
    · intro u hu
      rcases List.mem_cons.mp hu with rfl | hu
      · exact hfix
      · exact ihfix u hu
    · rw [ihbuf, hbuf, List.append_assoc, ← encodeTags_append]
      cases hi : indexedTag t with
      | none => simp [hi]
      | some x => simp [hi]
    · intro hne
      rw [ihset (by rwa [hnext.of_ne hne]), hnext.of_ne hne]
    · intro h0
      rw [h0] at hnext
      rcases hnext.of_zero with ⟨val, hf, hne, hval, h100, hlt⟩ | ⟨hf, h1⟩
      · rw [ihset (by omega), ExpiresAt, expirationTag_cons _ hf, if_pos rfl]
        exact ⟨⟨hne, hval⟩, Or.inr h100, hlt⟩
      · obtain ⟨name, val, hf, hname⟩ := hf
        rw [ExpiresAt, expirationTag_cons _ hf, if_neg hname]
        exact ihunset h1

end

/-! ## The length check of the builder -/

/-- A step that does not end in the builder's refusal of a value. -/
def Short {α : Type} (x : Except Err α) : Prop := x ≠ .error (.herr "tagVal too long")

theorem Short.bind {α β : Type} {x : Except Err α} {f : α → Except Err β} (hx : Short x)
    (hf : ∀ a, x = .ok a → Short (f a)) : Short (x >>= f) := by
  intro h
  rcases bind_eq_error.mp h with h | ⟨a, ha, h⟩
  · exact hx h
  · exact hf a ha h

theorem Short.ok {α : Type} (a : α) : Short (.ok a : Except Err α) := by
  intro h
  cases h

theorem Short.throwIf {c : Prop} [Decidable c] {e : Err} (he : e ≠ .herr "tagVal too long") :
    Short (throwIf c e) := by
  unfold Strfry.throwIf
  split
  · intro h
    exact he (Except.error.inj h)
  · exact Short.ok ()

theorem Short.add {buf val : Bytes} (k : Byte) (h : val.length ≤ 255) :
    Short (PackedEventTagBuilder.add buf k val) := by
  unfold PackedEventTagBuilder.add
  rw [if_neg (by omega)]
  exact Short.ok _

theorem Short.jsonGetString {v : Json} {msg : String} (h : msg ≠ "tagVal too long") :
    Short (jsonGetString v msg) := by
  intro he
  cases v <;> simp only [Strfry.jsonGetString, Except.error.injEq, Err.herr.injEq, reduceCtorEq] at he <;>
    exact h he

theorem Short.jsonGetArray {v : Json} {msg : String} (h : msg ≠ "tagVal too long") :
    Short (jsonGetArray v msg) := by
  intro he
  cases v <;> simp only [Strfry.jsonGetArray, Except.error.injEq, Err.herr.injEq, reduceCtorEq] at he <;>
    exact h he

theorem Short.jsonGetUnsigned {v : Json} {msg : String} (h : msg ≠ "tagVal too long") :
    Short (jsonGetUnsigned v msg) := by
  intro he
  cases v <;> simp only [Strfry.jsonGetUnsigned, Except.error.injEq, Err.herr.injEq, reduceCtorEq] at he <;>
    exact h he

theorem Short.atKey {v : Json} {key : Bytes} : Short (v.atKey key) := by
  unfold Json.atKey
  cases v with
  | object kvs =>
    dsimp only
    cases (kvs.find? fun kv => kv.1 == key).map Prod.snd with
    | none => simp [Short]
    | some w => simp [Short]
  | _ => simp [Short]

theorem Short.parseUint64 {s : Bytes} : Short (parseUint64 s) := by
  unfold Strfry.parseUint64
  split
  · simp [Short]
  · split
    · simp [Short]
    · simp [Short]

theorem Short.foldlM {α β : Type} {f : α → β → Except Err α} (hf : ∀ a b, Short (f a b)) (l : List β) (a : α) :
    Short (l.foldlM f a) := by
  induction l generalizing a with
  | nil => exact Short.ok a
  | cons b l ih =>
    rw [List.foldlM_cons]
    exact Short.bind (hf a b) fun a' _ => ih a'

theorem Short.addVirtualD {b : Bool} {tagBuf : Bytes} : Short (addVirtualD b tagBuf) := by
  unfold Strfry.addVirtualD
  split
  · exact Short.add _ (by simp)
  · exact Short.ok _

theorem Short.build {id pubkey tagBuf : Bytes} {createdAt kind expiration : Nat} :
    Short (PackedEventBuilder.build id pubkey createdAt kind expiration tagBuf) := by
  unfold PackedEventBuilder.build
  split
  · simp [Short]
  · split
    · simp [Short]
    · exact Short.ok _

/-- A message with a computed end is told from the builder's by its first characters. -/
theorem append_ne_tooLong {a : String} (b : String) (n : Nat) (hn : n ≤ a.toList.length)
    (hne : a.toList.take n ≠ "tagVal too long".toList.take n) : a ++ b ≠ "tagVal too long" := by
  intro h
  have h := congrArg (fun s => s.toList.take n) h
  simp only [String.toList_append] at h
  rw [List.take_append_of_le_length hn] at h
  exact hne h

section
variable [Golpe] (cfg : Cfg)

theorem Short.fromHex {s : Bytes} : Short (fromHex s) := by
  unfold Strfry.fromHex
  cases Golpe.fromHex s with
  | none => simp [Short]
  | some b => simp [Short]

theorem packTag_short (st : Bytes × Nat) (t : Json) : Short (packTag cfg st t) := by
  unfold packTag
  refine Short.bind (Short.jsonGetArray (by decide)) fun tag _ => ?_
  match tag with
  | [] => simp [Short]
  | name :: fields =>
    refine Short.bind (Short.jsonGetString (by decide)) fun tagName _ => ?_
    refine Short.bind ?_ fun tagVal _ => ?_
    · match fields with
      | [] => exact Short.ok _
      | v :: _ => exact Short.jsonGetString (by decide)
    split
    · -- 64 digits are 32 bytes
      refine Short.bind (Short.throwIf ?_) fun _ hlen => Short.bind Short.fromHex fun val hval => ?_
      · rw [ne_eq, Err.herr.injEq]
        exact append_ne_tooLong _ 4 (by decide) (by decide)
      · have h64 := not_not.mp (throwIf_eq_ok.mp hlen)
        have h2 := fromHex_ok_length hval
        exact Short.bind (Short.add _ (by omega)) fun _ _ => Short.ok _
    · split
      · split
        · refine Short.bind Short.parseUint64 fun _ _ => Short.bind (Short.throwIf ?_) fun _ _ => Short.ok _
          decide
        · exact Short.ok _
      · split
        · refine Short.bind (Short.throwIf ?_) fun _ _ => ?_
          · rw [ne_eq, Err.herr.injEq]
            exact append_ne_tooLong _ 4 (by decide) (by decide)
          · split
            · rename_i hle
              exact Short.bind (Short.add _ hle) fun _ _ => Short.ok _
            · exact Short.ok _
        · exact Short.ok _

/-- No run of the parser ends in the builder's refusal. -/
theorem nostrJsonToPackedEvent_short (v : Json) : Short (nostrJsonToPackedEvent cfg v) := by
  unfold nostrJsonToPackedEvent
  refine Short.bind Short.atKey fun _ _ => Short.bind (Short.jsonGetString (by decide)) fun _ _ =>
    Short.bind Short.fromHex fun _ _ => ?_
  refine Short.bind Short.atKey fun _ _ => Short.bind (Short.jsonGetString (by decide)) fun _ _ =>
    Short.bind Short.fromHex fun _ _ => ?_
  refine Short.bind Short.atKey fun _ _ => Short.bind (Short.jsonGetUnsigned (by decide)) fun _ _ => ?_
  refine Short.bind Short.atKey fun _ _ => Short.bind (Short.jsonGetUnsigned (by decide)) fun _ _ => ?_
  refine Short.bind (Short.throwIf (by decide)) fun _ _ => Short.bind (Short.throwIf (by decide)) fun _ _ => ?_
  refine Short.bind Short.atKey fun _ _ => Short.bind (Short.jsonGetString (by decide)) fun _ _ => ?_
  refine Short.bind Short.addVirtualD fun _ _ => ?_
  refine Short.bind Short.atKey fun _ _ => Short.bind (Short.jsonGetArray (by decide)) fun tags _ => ?_
  refine Short.bind (Short.throwIf ?_) fun _ _ => ?_
  · rw [ne_eq, Err.herr.injEq]
    exact append_ne_tooLong _ 4 (by decide) (by decide)
  · exact Short.bind (Short.foldlM (packTag_short cfg) tags _) fun _ _ =>
      Short.bind Short.addVirtualD fun _ _ => Short.build

/-! ## The round trip -/

theorem indexedTag_length {t : Json} {x : Byte × Bytes} (h : indexedTag t = some x) : x.2.length ≤ 255 := by
  unfold indexedTag at h
  split at h
  · rename_i name val hf
    obtain ⟨y, hy, rfl⟩ := Option.map_eq_some_iff.mp h
    exact of_decide_eq_true (Option.filter_eq_some_iff.mp hy).2
  · cases h

/-- What the parser packs decodes to what the JSON says. -/
theorem nostrJsonToPackedEvent_decodes {v : Json} {buf : Bytes} (h : nostrJsonToPackedEvent cfg v = .ok buf) :
    ∃ view, PackedEventView.ofBytes buf = .ok view ∧ view.buf = buf ∧
      readTags (buf.drop 88) = some view.tags ∧ Decodes v view := by
  obtain ⟨idText, id, pubkeyText, pubkey, c, k, tags, st, hjid, hid, hidl, hjpk, hpk, hpkl, hjc, hjk, hjtags,
    hst, hbuf⟩ := nostrJsonToPackedEvent_steps cfg h
  obtain ⟨hfix, hst1, -, hexp⟩ := packTags_packs cfg tags hst
  obtain ⟨hexpires, hmin, hlt⟩ := hexp rfl
  let p : PackedFields :=
    { id := id, pubkey := pubkey, createdAt := c, kind := k
      expiration := if isEphemeralKind k then 1 else st.2
      tags := virtualD (isReplaceableKind k) ++ tags.filterMap indexedTag ++ virtualD (isParamReplaceableKind k)
      id_len := hidl
      pubkey_len := hpkl
      createdAt_lt := c.isLt
      kind_lt := k.isLt
      expiration_lt := by
        split
        · norm_num
        · exact hlt
      tags_len := by
        intro t ht
        rcases List.mem_append.mp ht with ht | ht
        · rcases List.mem_append.mp ht with ht | ht
          · exact virtualD_length _ t ht
          · obtain ⟨j, -, hj⟩ := List.mem_filterMap.mp ht
            exact indexedTag_length hj
        · exact virtualD_length _ t ht }
  have hb : p.view.buf = buf := by
    rw [hbuf, hst1]
    simp [p, PackedFields.bytes, encodeTags_append]
  refine ⟨p.view, ?_, hb, ?_, ?_⟩
  · rw [← hb]
    exact PackedEventView.ofBytes_self _
  · rw [← hb]
    exact (Option.some_get _).symm
  · exact {
      id := ⟨idText, hjid, by rw [p.view_id]; exact fromHex_eq_ok.mp hid⟩
      pubkey := ⟨pubkeyText, hjpk, by rw [p.view_pubkey]; exact fromHex_eq_ok.mp hpk⟩
      createdAt := ⟨c, hjc, p.view_createdAt⟩
      kind := ⟨k, hjk, p.view_kind⟩
      tags := by
        refine ⟨tags, hjtags, hfix, by rw [p.view_tags, p.view_kind], fun hk => ?_⟩
        rw [p.view_kind] at hk
        have : p.view.expiration = st.2 := by
          rw [p.view_expiration]
          exact if_neg (by rw [hk]; simp)
        rw [this]
        exact hexpires
      ephemeral := by
        rw [p.view_expiration, p.view_kind]
        show (if isEphemeralKind k = true then 1 else st.2) = 1 ↔ isEphemeralKind k = true
        split
        · rename_i hk
          simp [hk]
        · rename_i hk
          constructor
          · intro h1
            omega
          · intro h1
            exact absurd h1 hk }

/-- **The codec.**  The view of an accepted event's bytes returns what the JSON says, its walk
over the tags stays in the buffer and visits the virtual and the indexed tags in order, and the
builder never refuses a value. -/
theorem packedEvent_codec (v : Json) :
    nostrJsonToPackedEvent cfg v ≠ .error (.herr "tagVal too long") ∧
    ∀ buf, nostrJsonToPackedEvent cfg v = .ok buf →
      ∃ view, PackedEventView.ofBytes buf = .ok view ∧ view.buf = buf ∧
        readTags (buf.drop 88) = some view.tags ∧ Decodes v view :=
  ⟨nostrJsonToPackedEvent_short cfg v, fun _ h => nostrJsonToPackedEvent_decodes cfg h⟩

end

/-- A parameterized-replaceable event: a decoded value, a missing one, a first expiration of two,
a name of two bytes. -/
theorem packedEvent_codec_sample : let _ : Golpe := Golpe.plain
    let v := sampleJson 7 8 1000 30001 [.array [.string [tagE], .string (toHex (List.replicate 32 9))],
      .array [.string (ascii "t")], .array [.string (ascii "expiration"), .string (ascii "1500")],
      .array [.string (ascii "expiration"), .string (ascii "1600")], .array [.string (ascii "ab"), .string [1]]]
    ∃ buf, nostrJsonToPackedEvent {} v = .ok buf ∧
      ∃ view, PackedEventView.ofBytes buf = .ok view ∧ Decodes v view := by
  intro _ v
  obtain ⟨buf, hbuf, -⟩ := exists_of_okAnd
    (show okAnd (fun _ => true) (nostrJsonToPackedEvent {} v) = true by decide +kernel)
  obtain ⟨view, hview, -, -, hdec⟩ := (packedEvent_codec {} v).2 buf hbuf
  exact ⟨buf, hbuf, view, hview, hdec⟩

end Strfry
