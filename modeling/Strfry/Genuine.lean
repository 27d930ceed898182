import Strfry.Compression
import Strfry.Ingester
import Strfry.PackedEventCodec

/-!
# Genuine events

The id and the signature of an event are checked where it comes in, by an ingester of the relay or by
the validator of a `WriterPipeline`, and never again.  What is checked is the JSON as it came; what is
stored are the packed bytes and a text written anew from seven of its fields.

`Genuine` is what a client finds when it checks such a text itself: the id is the hash of the fields,
the signature is the author's for this id, and the checks of the relay let it pass again, with the same
bytes and the same text (`Verified.genuine`).  A text that stands in some relation to its event does so
through every batch, deletion, compression and decompression (`StoresTexts.housekeeping`), and is what
is served (`TextsInv.serves`).
-/

namespace Strfry

/-- The fields of an event that are stored. -/
structure EventFields where
  content : Json
  createdAt : Json
  id : Json
  kind : Json
  pubkey : Json
  sig : Json
  tags : Json

def EventFields.json (e : EventFields) : Json := .object [(ascii "content", e.content),
  (ascii "created_at", e.createdAt), (ascii "id", e.id), (ascii "kind", e.kind), (ascii "pubkey", e.pubkey),
  (ascii "sig", e.sig), (ascii "tags", e.tags)]

section
variable [Golpe] [TaoJson] [Crypto] (cfg : Cfg)

/-- The id is the hash of the fields, and the signature is the author's for this id. -/
structure EventFields.Signed (e : EventFields) (packed : PackedEventView) : Prop where
  decodes : Decodes e.json packed
  hash : Crypto.sha256 (TaoJson.toString (.array [.unsigned 0, e.pubkey, e.createdAt, e.kind, e.tags, e.content])) =
    packed.id
  pubkey : Crypto.parsePubkey packed.pubkey = true
  sig : ∃ s sig, e.sig = .string s ∧ fromHex s = .ok sig ∧ sig.length = 64 ∧
    Crypto.schnorrVerify sig packed.id packed.pubkey = true

/-- The text of a signed event, which is accepted again. -/
def Genuine (packed : PackedEventView) (text : Bytes) : Prop := ∃ e : EventFields,
  text = TaoJson.toString e.json ∧ e.Signed packed ∧ text.length ≤ cfg.eventsMaxEventSize ∧
  ∀ now, parseAndVerifyEvent cfg now true false e.json = .ok (packed.buf, text)

/-- What comes of an event that was verified. -/
def Verified (packedStr jsonStr : Bytes) : Prop := ∃ now verifyTime origJson,
  parseAndVerifyEvent cfg now true verifyTime origJson = .ok (packedStr, jsonStr)

end

/-! ## One event -/

section
variable [Golpe] [TaoJson] [Crypto] {cfg : Cfg}

/-- The fields that are kept are those of the JSON. -/
structure EventFields.Of (e : EventFields) (origJson : Json) : Prop where
  content : origJson.atKey (ascii "content") = .ok e.content
  createdAt : origJson.atKey (ascii "created_at") = .ok e.createdAt
  id : origJson.atKey (ascii "id") = .ok e.id
  kind : origJson.atKey (ascii "kind") = .ok e.kind
  pubkey : origJson.atKey (ascii "pubkey") = .ok e.pubkey
  sig : origJson.atKey (ascii "sig") = .ok e.sig
  tags : origJson.atKey (ascii "tags") = .ok e.tags

omit [Golpe] [TaoJson] [Crypto] in
theorem EventFields.of_json (e : EventFields) : e.Of e.json := ⟨rfl, rfl, rfl, rfl, rfl, rfl, rfl⟩

omit [TaoJson] [Crypto] in
/-- Nothing else is packed. -/
theorem EventFields.Of.packs {e : EventFields} {origJson : Json} (h : e.Of origJson) :
    nostrJsonToPackedEvent cfg origJson = nostrJsonToPackedEvent cfg e.json := by
  have h' := e.of_json
  unfold nostrJsonToPackedEvent
  rw [h.id, h.pubkey, h.createdAt, h.kind, h.content, h.tags,
    h'.id, h'.pubkey, h'.createdAt, h'.kind, h'.content, h'.tags]

/-- Nothing else is verified. -/
theorem EventFields.Of.verifies {e : EventFields} {origJson : Json} (h : e.Of origJson) (packed : PackedEventView) :
    verifyNostrEvent packed origJson = verifyNostrEvent packed e.json := by
  have h' := e.of_json
  unfold verifyNostrEvent nostrHash
  rw [h.sig, h.pubkey, h.createdAt, h.kind, h.content, h.tags,
    h'.sig, h'.pubkey, h'.createdAt, h'.kind, h'.content, h'.tags]

omit [Golpe] [TaoJson] [Crypto] in
theorem EventFields.Of.kept {e : EventFields} {origJson : Json} (h : e.Of origJson) :
    ((["content", "created_at", "id", "kind", "pubkey", "sig", "tags"].map ascii).mapM
      fun key => (origJson.atKey key).map fun v => (key, v)) = .ok
        [(ascii "content", e.content), (ascii "created_at", e.createdAt), (ascii "id", e.id), (ascii "kind", e.kind),
          (ascii "pubkey", e.pubkey), (ascii "sig", e.sig), (ascii "tags", e.tags)] := by
  simp only [List.map_cons, List.map_nil, List.mapM_cons, List.mapM_nil, h.content, h.createdAt, h.id, h.kind, h.pubkey,
    h.sig, h.tags]
  rfl

omit [Golpe] [TaoJson] [Crypto] in
/-- When all seven can be read, these are what is kept. -/
theorem EventFields.of_kept {origJson : Json} {fields : List (Bytes × Json)}
    (h : ((["content", "created_at", "id", "kind", "pubkey", "sig", "tags"].map ascii).mapM
      fun key => (origJson.atKey key).map fun v => (key, v)) = .ok fields) : ∃ e : EventFields, e.Of origJson := by
  have hall : ∀ key ∈ ["content", "created_at", "id", "kind", "pubkey", "sig", "tags"].map ascii,
      ∃ v, origJson.atKey key = .ok v := by
    intro key hkey
    obtain ⟨kv, -, hkv⟩ := mapM_eq_ok_of_mem h key hkey
    cases hv : origJson.atKey key with
    | ok v => exact ⟨v, rfl⟩
    | error e =>
      rw [hv] at hkv
      cases hkv
  obtain ⟨content, h1⟩ := hall (ascii "content") (by decide)
  obtain ⟨createdAt, h2⟩ := hall (ascii "created_at") (by decide)
  obtain ⟨id, h3⟩ := hall (ascii "id") (by decide)
  obtain ⟨kind, h4⟩ := hall (ascii "kind") (by decide)
  obtain ⟨pubkey, h5⟩ := hall (ascii "pubkey") (by decide)
  obtain ⟨sig, h6⟩ := hall (ascii "sig") (by decide)
  obtain ⟨tags, h7⟩ := hall (ascii "tags") (by decide)
  exact ⟨⟨content, createdAt, id, kind, pubkey, sig, tags⟩, h1, h2, h3, h4, h5, h6, h7⟩

theorem Genuine.short {packed : PackedEventView} {text : Bytes} (h : Genuine cfg packed text) :
    text.length ≤ cfg.eventsMaxEventSize := by
  obtain ⟨-, -, -, hle, -⟩ := h
  exact hle

/-- What a verified signature is. -/
theorem verifyNostrEvent_ok {packed : PackedEventView} {origJson : Json} (h : verifyNostrEvent packed origJson = .ok ()) :
    nostrHash origJson = .ok packed.id ∧ Crypto.parsePubkey packed.pubkey = true ∧
    ∃ s sig, origJson.atKey (ascii "sig") = .ok (.string s) ∧ fromHex s = .ok sig ∧ sig.length = 64 ∧
      Crypto.schnorrVerify sig packed.id packed.pubkey = true := by
  unfold verifyNostrEvent at h
  obtain ⟨hash, hhash, h⟩ := bind_eq_ok.mp h
  obtain ⟨_, hid, h⟩ := bind_eq_ok.mp h
  obtain ⟨v, hv, h⟩ := bind_eq_ok.mp h
  obtain ⟨s, hs, h⟩ := bind_eq_ok.mp h
  obtain ⟨sig, hsig, h⟩ := bind_eq_ok.mp h
  obtain ⟨valid, hvalid, h⟩ := bind_eq_ok.mp h
  rw [not_not.mp (throwIf_eq_ok.mp hid)] at hhash
  unfold verifySig at hvalid
  obtain ⟨_, hsizes, hvalid⟩ := bind_eq_ok.mp hvalid
  obtain ⟨_, hpub, hvalid⟩ := bind_eq_ok.mp hvalid
  cases hvalid
  rw [jsonGetString_ok hs] at hv
  refine ⟨hhash, Bool.not_eq_false _ ▸ throwIf_eq_ok.mp hpub, s, sig, hv, hsig, ?_,
    Bool.not_eq_false _ ▸ throwIf_eq_ok.mp h⟩
  by_contra hne
  exact throwIf_eq_ok.mp hsizes (Or.inl hne)

/-- The steps of an event that is verified. -/
theorem parseAndVerifyEvent_iff {now : Nat} {verifyTime : Bool} {origJson : Json} {p : Bytes × Bytes} :
    parseAndVerifyEvent cfg now true verifyTime origJson = .ok p ↔ (∃ kvs, origJson = .object kvs) ∧
      ∃ packed fields, nostrJsonToPackedEvent cfg origJson = .ok p.1 ∧ PackedEventView.ofBytes p.1 = .ok packed ∧
        (verifyTime = true → verifyEventTimestamp cfg now packed = .ok ()) ∧
        verifyNostrEvent packed origJson = .ok () ∧
        ((["content", "created_at", "id", "kind", "pubkey", "sig", "tags"].map ascii).mapM
          fun key => (origJson.atKey key).map fun v => (key, v)) = .ok fields ∧
        p.2 = TaoJson.toString (.object fields) ∧ verifyNostrEventJsonSize cfg p.2 = .ok () := by
  unfold parseAndVerifyEvent
  constructor
  · intro h
    split at h
    · rename_i kvs
      obtain ⟨packedStr, hstr, h⟩ := bind_eq_ok.mp h
      obtain ⟨packed, hpacked, h⟩ := bind_eq_ok.mp h
      refine ⟨⟨kvs, rfl⟩, packed, ?_⟩
      cases verifyTime <;>
      · simp only [Bool.false_eq_true, if_false, if_true] at h
        obtain ⟨_, htime, h⟩ := bind_eq_ok.mp h
        obtain ⟨_, hverify, h⟩ := bind_eq_ok.mp h
        obtain ⟨fields, hfields, h⟩ := bind_eq_ok.mp h
        obtain ⟨_, hsize, h⟩ := bind_eq_ok.mp h
        cases h
        exact ⟨fields, hstr, hpacked, by simp [htime], hverify, hfields, rfl, hsize⟩
    · cases h
  · rintro ⟨⟨kvs, rfl⟩, packed, fields, hstr, hpacked, htime, hverify, hfields, htext, hsize⟩
    obtain ⟨packedStr, jsonStr⟩ := p
    cases htext
    refine bind_eq_ok.mpr ⟨packedStr, hstr, bind_eq_ok.mpr ⟨packed, hpacked, ?_⟩⟩
    cases verifyTime <;>
    · simp only [Bool.false_eq_true, if_false, if_true]
      exact bind_eq_ok.mpr ⟨(), by simp [htime], bind_eq_ok.mpr ⟨(), hverify, bind_eq_ok.mpr ⟨fields, hfields,
        bind_eq_ok.mpr ⟨(), hsize, rfl⟩⟩⟩⟩

/-- The text of an accepted event is that of the fields kept, which are accepted again. -/
theorem EventFields.Of.accepted {e : EventFields} {now : Nat} {verifyTime : Bool} {origJson : Json} {p : Bytes × Bytes}
    (he : e.Of origJson) (h : parseAndVerifyEvent cfg now true verifyTime origJson = .ok p) :
    p.2 = TaoJson.toString e.json ∧ p.2.length ≤ cfg.eventsMaxEventSize ∧
      ∀ now, parseAndVerifyEvent cfg now true false e.json = .ok p := by
  obtain ⟨-, packed, fields, hpack, hview, -, hverify, hfields, htext, hsize⟩ := parseAndVerifyEvent_iff.mp h
  have hfields := hfields.symm.trans he.kept
  cases hfields
  rw [he.verifies] at hverify
  rw [he.packs] at hpack
  exact ⟨htext, Nat.le_of_not_lt (throwIf_eq_ok.mp hsize), fun now => parseAndVerifyEvent_iff.mpr ⟨⟨_, rfl⟩, packed, _,
    hpack, hview, fun hno => absurd hno (by decide), hverify, e.of_json.kept, htext, hsize⟩⟩

/-- **What is verified is genuine.** -/
theorem Verified.genuine {packedStr jsonStr : Bytes} (h : Verified cfg packedStr jsonStr) {packed : PackedEventView}
    (hpacked : PackedEventView.ofBytes packedStr = .ok packed) : Genuine cfg packed jsonStr := by
  obtain ⟨now, verifyTime, origJson, h⟩ := h
  obtain ⟨-, packed', fields, hpack, hview, -, hverify, hfields, -⟩ := parseAndVerifyEvent_iff.mp h
  have hpacked' : PackedEventView.ofBytes packedStr = .ok packed' := hview
  rw [hpacked] at hpacked'
  cases hpacked'
  obtain ⟨e, he⟩ := EventFields.of_kept hfields
  obtain ⟨htext, hle, hagain⟩ := he.accepted h
  rw [he.verifies] at hverify
  rw [he.packs] at hpack
  obtain ⟨hhash, hpub, s, sig, hs, hsig, hlen, hvalid⟩ := verifyNostrEvent_ok hverify
  obtain ⟨view, hview', hbuf, -, hdec⟩ := nostrJsonToPackedEvent_decodes cfg hpack
  have hview' : PackedEventView.ofBytes packedStr = .ok view := hview'
  rw [hpacked] at hview'
  cases hview'
  refine ⟨e, htext, ⟨hdec, Except.ok.inj hhash, hpub, s, sig, Except.ok.inj hs, hsig, hlen, hvalid⟩, hle, fun now => ?_⟩
  rw [hbuf]
  exact hagain now

end

/-! ## The store -/

section
variable [Zstd] {cfg : Cfg}

/-- Each event is stored with a text that stands in this relation to it, compressed or not. -/
structure TextsInv (cfg : Cfg) (P : PackedEventView → Bytes → Prop) (db : Db) (json : Nat → Option Bytes) : Prop
    extends PayloadInv cfg db json where
  texts : ∀ r ∈ db.event.rows, ∃ text, json r.1 = some text ∧ P r.2 text

def StoresTexts (cfg : Cfg) (P : PackedEventView → Bytes → Prop) (db : Db) : Prop := ∃ json, TextsInv cfg P db json

/-- Each event is served with such a text. -/
def ServesTexts (cfg : Cfg) (P : PackedEventView → Bytes → Prop) (db : Db) : Prop :=
  ∀ r ∈ db.event.rows, ∃ text, getEventJson cfg db r.1 = .ok text ∧ P r.2 text

namespace TextsInv

variable {P : PackedEventView → Bytes → Prop} {db db' : Db} {json : Nat → Option Bytes}

theorem empty (hevent : db.event = .empty) (hpayload : db.eventPayload = .empty) :
    TextsInv cfg P db fun _ => none where
  keys levId := by
    rw [hevent, hpayload]
    simp [Table.keys, Table.empty]
  payloads x hx := by simp [hpayload, Table.empty] at hx
  texts r hr := by simp [hevent, Table.empty] at hr

theorem serves (hz : Zstd.Lawful) (h : TextsInv cfg P db json) : ServesTexts cfg P db := by
  intro r hr
  obtain ⟨text, htext, hP⟩ := h.texts r hr
  obtain ⟨text', htext', hread⟩ := h.toPayloadInv.serves hz (s := ⟨db, json⟩) r.1 ((db.event.mem_keys r.1).mpr ⟨r.2, hr⟩)
  have heq : some text = some text' := htext.symm.trans htext'
  cases heq
  exact ⟨text, hread, hP⟩

/-- The events are the same or fewer, and the texts under their levIds. -/
theorem of_sub (h : TextsInv cfg P db json) (hinv : PayloadInv cfg db' json)
    (hsub : ∀ r ∈ db'.event.rows, r ∈ db.event.rows) : TextsInv cfg P db' json :=
  { hinv with texts := fun r hr => h.texts r (hsub r hr) }

/-- A turn of `writeEvents` stores the text it is given. -/
theorem writeEvent (h : TextsInv cfg P db json) {cache : NegentropyFilterCache} {prevId : Option Bytes}
    {ev ev' : EventToWrite} {packed : PackedEventView} (hpend : ev.status = .pending) (hP : P packed ev.jsonStr)
    (hw : Strfry.writeEvent cache db prevId ev packed = .ok (db', ev')) :
    TextsInv cfg P db' (recordWritten json ev') := by
  refine { h.toPayloadInv.writeEvent hpend hw with texts := fun r hr => ?_ }
  rcases writeEvent_ops cache hw with ⟨rfl, hstatus⟩ | ⟨-, rfl, l, -, rfl⟩
  · rw [recordWritten, if_neg (hstatus hpend)]
    exact h.texts r hr
  · have hr := mem_of_mem_foldl_deleteEvent _ l _ hr
    rw [(cache.update_sameTables (insertEvent db packed ev.jsonStr) packed true).event] at hr
    rw [recordWritten, if_pos rfl]
    rcases (Table.mem_insertNext _ _ _).mp hr with hr | rfl
    · obtain ⟨text, htext, hp⟩ := h.texts r hr
      have hle := db.event.le_lastId r hr
      refine ⟨text, ?_, hp⟩
      show (if r.1 = db.event.lastId + 1 then _ else json r.1) = _
      rw [if_neg (by omega), htext]
    · exact ⟨ev.jsonStr, if_pos rfl, hP⟩

theorem writeLoop (h : TextsInv cfg P db json) {cache : NegentropyFilterCache}
    (l : List (EventToWrite × PackedEventView)) (hl : ∀ e ∈ l, e.1.status = .pending ∧ P e.2 e.1.jsonStr)
    {prevId : Option Bytes} {evs' : List EventToWrite}
    (hw : Strfry.writeLoop cache db prevId l = .ok (db', evs')) :
    TextsInv cfg P db' (evs'.foldl recordWritten json) := by
  induction l generalizing db json prevId evs' with
  | nil =>
    cases hw
    exact h
  | cons e l ih =>
    unfold Strfry.writeLoop at hw
    obtain ⟨⟨db1, ev1⟩, h1, hw⟩ := bind_eq_ok.mp hw
    obtain ⟨⟨db2, evs2⟩, h2, hw⟩ := bind_eq_ok.mp hw
    cases hw
    obtain ⟨hpend, hP⟩ := hl e List.mem_cons_self
    rw [List.foldl_cons]
    exact ih (h.writeEvent hpend hP h1) (fun e' he' => hl e' (List.mem_cons_of_mem _ he')) h2

end TextsInv

end

/-- Pending, with a text that stands in this relation to the packed event. -/
def EventToWrite.Fits (P : PackedEventView → Bytes → Prop) (ev : EventToWrite) : Prop :=
  ev.status = .pending ∧ ∀ packed, PackedEventView.ofBytes ev.packedStr = .ok packed → P packed ev.jsonStr

section
variable [Golpe] [TaoJson] [StdSort] [Zstd] {cfg : Cfg} {P : PackedEventView → Bytes → Prop} {db db' : Db}
  {json : Nat → Option Bytes}

/-- **A batch** stores the texts it is given. -/
theorem TextsInv.writeEvents (h : TextsInv cfg P db json) {cache cache' : NegentropyFilterCache}
    {evs evs' : List EventToWrite} (hevs : ∀ ev ∈ evs, ev.Fits P)
    (hw : Strfry.writeEvents db cache evs = .ok (db', cache', evs')) :
    TextsInv cfg P db' (evs'.foldl recordWritten json) := by
  unfold Strfry.writeEvents at hw
  obtain ⟨l, hl, hw⟩ := bind_eq_ok.mp hw
  obtain ⟨c, -, hw⟩ := bind_eq_ok.mp hw
  obtain ⟨r, hr, hw⟩ := bind_eq_ok.mp hw
  cases hw
  refine h.writeLoop _ (fun e he => ?_) hr
  obtain ⟨ev, hev, hview⟩ := (mapM_eq_ok hl).2 e ((StdSort.mem_sort _ _ _).mp he)
  obtain ⟨hpend, hP⟩ := hevs ev hev
  cases hv : PackedEventView.ofBytes ev.packedStr with
  | error err =>
    rw [hv] at hview
    cases hview
  | ok packed =>
    rw [hv] at hview
    cases hview
    exact ⟨hpend, hP packed hv⟩

/-- A transaction of another process: a batch of such events, deletions, those of `dict`, and what
leaves the events and their texts. -/
inductive Housekeeping (cfg : Cfg) (P : PackedEventView → Bytes → Prop) (db : Db) : Db → Prop where
  | write (cache cache' : NegentropyFilterCache) (evs evs' : List EventToWrite) (db' : Db)
      (hevs : ∀ ev ∈ evs, ev.Fits P) (h : writeEvents db cache evs = .ok (db', cache', evs')) : Housekeeping cfg P db db'
  | delete (cache cache' : NegentropyFilterCache) (levIds : List Nat) (n : Nat) (db' : Db)
      (h : deleteEvents db cache levIds = .ok (db', cache', n)) : Housekeeping cfg P db db'
  | train (dict : Bytes) : Housekeeping cfg P db (insertDictionary db dict)
  | compress (dictId : Nat) (level : Int) (levIds : List Nat) (db' : Db) (hid : dictId < 2 ^ 32)
      (h : dictCompress cfg dictId level db levIds = .ok db') : Housekeeping cfg P db db'
  | decompress (levIds : List Nat) : Housekeeping cfg P db (dictDecompress cfg db levIds)
  | leaves (db' : Db) (hevent : db'.event = db.event) (hpayload : db'.eventPayload = db.eventPayload)
      (hdict : db'.compressionDictionary = db.compressionDictionary) : Housekeeping cfg P db db'

/-- **Housekeeping keeps the texts**, when the texts are no longer than the buffer. -/
theorem StoresTexts.housekeeping (hz : Zstd.Lawful)
    (hP : ∀ packed text, P packed text → text.length ≤ cfg.eventsMaxEventSize) (h : StoresTexts cfg P db)
    (hk : Housekeeping cfg P db db') : StoresTexts cfg P db' := by
  obtain ⟨json, h⟩ := h
  cases hk with
  | write cache cache' evs evs' _ hevs hw => exact ⟨_, h.writeEvents hevs hw⟩
  | delete cache cache' levIds n _ hd =>
    obtain ⟨-, rfl⟩ := deleteEvents_eq hd
    exact ⟨json, h.of_sub (h.toPayloadInv.deleteAll cache' levIds) fun _ hr => mem_of_mem_foldl_deleteEvent _ _ _ hr⟩
  | train dict =>
    have hs := PayloadInv.step hz h.toPayloadInv (s := ⟨db, json⟩) (.train dict)
    exact ⟨json, h.of_sub hs fun r hr => hr⟩
  | compress dictId level levIds _ hid hc =>
    have hfits : FitsBuffer cfg ⟨db, json⟩ dictId level levIds := by
      intro levId _ hkey text htext _ _ _ _ _
      obtain ⟨v, hv⟩ := (db.event.mem_keys levId).mp hkey
      obtain ⟨text', htext', hp⟩ := h.texts _ hv
      have heq : some text = some text' := htext.symm.trans htext'
      cases heq
      exact ⟨hid, hP _ _ hp⟩
    refine ⟨json, h.of_sub (h.toPayloadInv.dictCompress (s := ⟨db, json⟩) hz hfits hc) fun r hr => ?_⟩
    rw [(dictCompress_recoded cfg hc).event] at hr
    exact hr
  | decompress levIds =>
    refine ⟨json, h.of_sub (h.toPayloadInv.dictDecompress hz levIds) fun r hr => ?_⟩
    rw [(dictDecompress_recoded cfg db levIds).event] at hr
    exact hr
  | leaves _ hevent hpayload hdict =>
    refine ⟨json, ⟨?_, ?_⟩, ?_⟩
    · rw [hevent, hpayload]
      exact h.keys
    · rw [hpayload, hdict]
      exact h.payloads
    · rw [hevent]
      exact h.texts

end

/-- A text event with a signature. -/
def sealedJson : Json :=
  .object [(ascii "content", .string []), (ascii "created_at", .unsigned 100),
    (ascii "id", .string (toHex (List.replicate 32 1))), (ascii "kind", .unsigned 1),
    (ascii "pubkey", .string (toHex (List.replicate 32 9))), (ascii "sig", .string (toHex (List.replicate 64 2))),
    (ascii "tags", .array [])]

/-- A hash and signatures that fit it. -/
@[reducible] def anyCrypto : Crypto where
  sha256 _ := List.replicate 32 1
  parsePubkey _ := true
  schnorrVerify _ _ _ := true

end Strfry
