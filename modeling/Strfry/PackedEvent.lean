import Strfry.Json

/-!
# Packed events

The summary of a nostr event that the database stores and indexes
(`PackedEvent.h`): id (32), pubkey (32), created_at (8), kind (8), expiration (8),
then the tags, each a name byte, a length byte and the value.

`PackedEventView` is a buffer all of whose accessors are defined: at least 88 bytes
(the check of its constructors) and a tag section that `foreachTag` walks without
leaving the buffer.  `tags` is what `foreachTag` visits, in order; a callback that
returns `false` stops the walk, so the loops of the source over `foreachTag` are
list functions over `tags`.

    readTags (encodeTags ts) = some ts                  (readTags_encodeTags)
-/

namespace Strfry

/-- The loop of `foreachTag`: `none` when it would leave the buffer. -/
def readTagsFuel : Nat → Bytes → Option (List (Byte × Bytes))
  | _, [] => some []
  | 0, _ => none
  | fuel + 1, b =>
    match b with
    | tagName :: tagLen :: rest =>
      if tagLen.val ≤ rest.length then
        (readTagsFuel fuel (rest.drop tagLen.val)).map ((tagName, rest.take tagLen.val) :: ·)
      else none
    | _ => none

/-- Every turn of the loop consumes at least two bytes. -/
def readTags (b : Bytes) : Option (List (Byte × Bytes)) := readTagsFuel b.length b

/-- One tag as `PackedEventTagBuilder::add` writes it. -/
def encodeTag (t : Byte × Bytes) : Bytes := t.1 :: Fin.ofNat 256 t.2.length :: t.2

def encodeTags (ts : List (Byte × Bytes)) : Bytes := ts.flatMap encodeTag

theorem encodeTags_append (ts us : List (Byte × Bytes)) :
    encodeTags (ts ++ us) = encodeTags ts ++ encodeTags us := by
  simp [encodeTags]

theorem readTagsFuel_encodeTags (ts : List (Byte × Bytes)) (h : ∀ t ∈ ts, t.2.length ≤ 255)
    (fuel : Nat) (hf : ts.length ≤ fuel) : readTagsFuel fuel (encodeTags ts) = some ts := by
  induction ts generalizing fuel with
  | nil => cases fuel <;> rfl
  | cons t ts ih =>
    cases fuel with
    | zero => simp at hf
    | succ fuel =>
      have ht := h t List.mem_cons_self
      have hv : (Fin.ofNat 256 t.2.length : Byte).val = t.2.length := by
        show t.2.length % 256 = t.2.length
        omega
      have hb : encodeTags (t :: ts) =
          t.1 :: Fin.ofNat 256 t.2.length :: (t.2 ++ encodeTags ts) := by
        simp [encodeTags, encodeTag]
      rw [hb]
      simp only [readTagsFuel, hv]
      rw [if_pos (by simp), List.drop_left, List.take_left,
        ih (fun u hu => h u (List.mem_cons_of_mem _ hu)) fuel (by simpa using hf)]
      rfl

theorem length_encodeTags_ge (ts : List (Byte × Bytes)) : ts.length ≤ (encodeTags ts).length := by
  induction ts with
  | nil => simp
  | cons t ts ih =>
    have : encodeTags (t :: ts) = encodeTag t ++ encodeTags ts := by simp [encodeTags]
    rw [this, List.length_append]
    simp only [encodeTag, List.length_cons]
    omega

/-- Reading back what the builder wrote. -/
theorem readTags_encodeTags (ts : List (Byte × Bytes)) (h : ∀ t ∈ ts, t.2.length ≤ 255) :
    readTags (encodeTags ts) = some ts :=
  readTagsFuel_encodeTags ts h _ (length_encodeTags_ge ts)

structure PackedEventView where
  buf : Bytes
  size : 88 ≤ buf.length
  walk : (readTags (buf.drop 88)).isSome
deriving DecidableEq

namespace PackedEventView

theorem ext_buf {v w : PackedEventView} (h : v.buf = w.buf) : v = w := by
  cases v; cases w; cases h; rfl

/-- The constructors' check, and a tag section that can be walked. -/
def ofBytes (buf : Bytes) : Except Err PackedEventView :=
  if hs : 88 ≤ buf.length then
    if hw : (readTags (buf.drop 88)).isSome then .ok ⟨buf, hs, hw⟩ else .error .outOfRange
  else .error (.herr "PackedEventView too short")

theorem ofBytes_buf {buf : Bytes} {v : PackedEventView} (h : ofBytes buf = .ok v) : v.buf = buf := by
  unfold ofBytes at h
  split at h
  · split at h
    · cases h; rfl
    · cases h
  · cases h

theorem ofBytes_self (v : PackedEventView) : ofBytes v.buf = .ok v := by
  unfold ofBytes
  rw [dif_pos v.size, dif_pos v.walk]

def id (v : PackedEventView) : Bytes := v.buf.take 32

def pubkey (v : PackedEventView) : Bytes := (v.buf.drop 32).take 32

def createdAt (v : PackedEventView) : Nat := fromSv ((v.buf.drop 64).take 8)

def kind (v : PackedEventView) : Nat := fromSv ((v.buf.drop 72).take 8)

def expiration (v : PackedEventView) : Nat := fromSv ((v.buf.drop 80).take 8)

def tags (v : PackedEventView) : List (Byte × Bytes) := (readTags (v.buf.drop 88)).get v.walk

theorem length_id (v : PackedEventView) : v.id.length = 32 := by
  have := v.size
  simp only [id, List.length_take]
  omega

theorem length_pubkey (v : PackedEventView) : v.pubkey.length = 32 := by
  have := v.size
  simp only [pubkey, List.length_take, List.length_drop]
  omega

theorem createdAt_lt (v : PackedEventView) : v.createdAt < 2 ^ 64 := by
  have := v.size
  exact fromSv_lt _ (by simp only [List.length_take, List.length_drop]; omega)

theorem kind_lt (v : PackedEventView) : v.kind < 2 ^ 64 := by
  have := v.size
  exact fromSv_lt _ (by simp only [List.length_take, List.length_drop]; omega)

theorem expiration_lt (v : PackedEventView) : v.expiration < 2 ^ 64 := by
  have := v.size
  exact fromSv_lt _ (by simp only [List.length_take, List.length_drop]; omega)

end PackedEventView

/-! ## The builders -/

/-- `PackedEventTagBuilder::add`. -/
def PackedEventTagBuilder.add (buf : Bytes) (tagKey : Byte) (tagVal : Bytes) : Except Err Bytes :=
  if tagVal.length > 255 then .error (.herr "tagVal too long")
  else .ok (buf ++ encodeTag (tagKey, tagVal))

/-- `PackedEventBuilder`. -/
def PackedEventBuilder.build (id pubkey : Bytes) (createdAt kind expiration : Nat)
    (tagBuf : Bytes) : Except Err Bytes :=
  if id.length ≠ 32 then .error (.herr "unexpected id size")
  else if pubkey.length ≠ 32 then .error (.herr "unexpected pubkey size")
  else .ok (id ++ pubkey ++ toSv createdAt ++ toSv kind ++ toSv expiration ++ tagBuf)

/-- The fields of a packed event, within the sizes the builder accepts. -/
structure PackedFields where
  id : Bytes
  pubkey : Bytes
  createdAt : Nat
  kind : Nat
  expiration : Nat
  tags : List (Byte × Bytes)
  id_len : id.length = 32
  pubkey_len : pubkey.length = 32
  createdAt_lt : createdAt < 2 ^ 64
  kind_lt : kind < 2 ^ 64
  expiration_lt : expiration < 2 ^ 64
  tags_len : ∀ t ∈ tags, t.2.length ≤ 255

namespace PackedFields

variable (p : PackedFields)

def bytes : Bytes :=
  p.id ++ p.pubkey ++ toSv p.createdAt ++ toSv p.kind ++ toSv p.expiration ++ encodeTags p.tags

/-- The layout: what stands before and after each offset. -/
theorem bytes_drop_32 : p.bytes.drop 32 =
    p.pubkey ++ (toSv p.createdAt ++ (toSv p.kind ++ (toSv p.expiration ++ encodeTags p.tags))) := by
  simp only [bytes, List.append_assoc]
  rw [← p.id_len, List.drop_left]

theorem bytes_drop_64 : p.bytes.drop 64 =
    toSv p.createdAt ++ (toSv p.kind ++ (toSv p.expiration ++ encodeTags p.tags)) := by
  rw [show 64 = 32 + 32 from rfl, ← List.drop_drop, bytes_drop_32, List.drop_left' p.pubkey_len]

theorem bytes_drop_72 : p.bytes.drop 72 =
    toSv p.kind ++ (toSv p.expiration ++ encodeTags p.tags) := by
  rw [show 72 = 64 + 8 from rfl, ← List.drop_drop, bytes_drop_64, List.drop_left' (length_toSv _)]

theorem bytes_drop_80 : p.bytes.drop 80 = toSv p.expiration ++ encodeTags p.tags := by
  rw [show 80 = 72 + 8 from rfl, ← List.drop_drop, bytes_drop_72, List.drop_left' (length_toSv _)]

theorem bytes_drop_88 : p.bytes.drop 88 = encodeTags p.tags := by
  rw [show 88 = 80 + 8 from rfl, ← List.drop_drop, bytes_drop_80, List.drop_left' (length_toSv _)]

/-- The view of a packed event. -/
def view : PackedEventView where
  buf := p.bytes
  size := by
    have := p.id_len
    have := p.pubkey_len
    simp only [bytes, List.length_append, length_toSv]
    omega
  walk := by rw [bytes_drop_88, readTags_encodeTags p.tags p.tags_len]; rfl

/-! The accessors return what was packed. -/

@[simp] theorem view_buf : p.view.buf = p.bytes := rfl

@[simp] theorem view_id : p.view.id = p.id := by
  show p.bytes.take 32 = p.id
  simp only [bytes, List.append_assoc]
  exact List.take_left' p.id_len

@[simp] theorem view_pubkey : p.view.pubkey = p.pubkey := by
  show (p.bytes.drop 32).take 32 = p.pubkey
  rw [bytes_drop_32, List.take_left' p.pubkey_len]

@[simp] theorem view_createdAt : p.view.createdAt = p.createdAt := by
  show fromSv ((p.bytes.drop 64).take 8) = p.createdAt
  rw [bytes_drop_64, List.take_left' (length_toSv _), fromSv_toSv _ p.createdAt_lt]

@[simp] theorem view_kind : p.view.kind = p.kind := by
  show fromSv ((p.bytes.drop 72).take 8) = p.kind
  rw [bytes_drop_72, List.take_left' (length_toSv _), fromSv_toSv _ p.kind_lt]

@[simp] theorem view_expiration : p.view.expiration = p.expiration := by
  show fromSv ((p.bytes.drop 80).take 8) = p.expiration
  rw [bytes_drop_80, List.take_left' (length_toSv _), fromSv_toSv _ p.expiration_lt]

@[simp] theorem view_tags : p.view.tags = p.tags := by
  apply Option.some.inj
  rw [PackedEventView.tags, Option.some_get]
  show readTags (p.bytes.drop 88) = some p.tags
  rw [bytes_drop_88, readTags_encodeTags p.tags p.tags_len]

end PackedFields

/-- An event whose id and pubkey repeat one byte each. -/
def sampleEvent (id pubkey : Byte) (createdAt kind : U64) (tags : List (Byte × Bytes))
    (htags : (tags.all fun t => t.2.length ≤ 255) = true := by exact Eq.refl true) : PackedEventView :=
  PackedFields.view {
    id := List.replicate 32 id
    pubkey := List.replicate 32 pubkey
    createdAt := createdAt.val
    kind := kind.val
    expiration := 0
    tags := tags
    id_len := List.length_replicate
    pubkey_len := List.length_replicate
    createdAt_lt := U64.lt createdAt
    kind_lt := U64.lt kind
    expiration_lt := by norm_num
    tags_len := by simpa using htags }

/-- What the builder accepts is the bytes of its fields. -/
theorem PackedEventBuilder.build_ok {id pubkey : Bytes} {createdAt kind expiration : Nat}
    {tagBuf buf : Bytes} (h : build id pubkey createdAt kind expiration tagBuf = .ok buf) :
    id.length = 32 ∧ pubkey.length = 32 ∧
      buf = id ++ pubkey ++ toSv createdAt ++ toSv kind ++ toSv expiration ++ tagBuf := by
  unfold build at h
  split at h
  · cases h
  · split at h
    · cases h
    · rename_i h1 h2
      cases h
      exact ⟨not_not.mp h1, not_not.mp h2, rfl⟩

end Strfry
