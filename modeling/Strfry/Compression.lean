import Strfry.Store

/-!
# Compression and what is served

`writeEvents` stores an event's JSON behind a zero byte.  `dict compress` replaces it by what zstd
makes of it when that is shorter, with the dictionary's number in 32 bits, and `decodeEventPayload`
decompresses into a buffer of `events.maxEventSize` bytes.  The size is checked where an event comes
in over the network, but `import --no-verify` and `import --fried` store JSON of any length.

A run is any sequence of batches, deletions, new dictionaries and transactions of `dict compress` and
`dict decompress`; `json` records what `writeEvents` wrote under each levId.
-/

namespace Strfry

/-- What is relied on of zstd: data is decompressed by the dictionary it was compressed with when the
buffer holds the original, and else there is an error. -/
def Zstd.Lawful [Zstd] : Prop :=
  ∀ dict level capacity src data, Zstd.compress dict level capacity src = some data →
    (∀ n, src.length ≤ n → Zstd.decompress dict n data = some src) ∧
    ∀ n, n < src.length → Zstd.decompress dict n data = .none

structure PayloadState where
  db : Db
  /-- what `writeEvents` wrote under a levId -/
  json : Nat → Option Bytes

/-- One event that went through `writeEvents`. -/
def recordWritten (json : Nat → Option Bytes) (ev : EventToWrite) : Nat → Option Bytes :=
  if ev.status = .written then fun lev => if lev = ev.levId then some ev.jsonStr else json lev else json

/-- `env.insert_CompressionDictionary`. -/
def insertDictionary (db : Db) (dict : Bytes) : Db :=
  { db with compressionDictionary := db.compressionDictionary.insertNext dict }

section
variable [Golpe] [TaoJson] [StdSort] [Zstd] (cfg : Cfg)

/-- One committed transaction.  `C` is what is known of a transaction of `dict compress`: the state
before it, the dictionary, the level and the levIds. -/
inductive PayloadStep (C : PayloadState → Nat → Int → List Nat → Prop) (s : PayloadState) :
    PayloadState → Prop where
  | write (cache cache' : NegentropyFilterCache) (evs evs' : List EventToWrite) (db' : Db)
      (hevs : ∀ ev ∈ evs, ev.status = .pending)
      (h : writeEvents s.db cache evs = .ok (db', cache', evs')) :
      PayloadStep C s { db := db', json := evs'.foldl recordWritten s.json }
  | delete (cache cache' : NegentropyFilterCache) (levIds : List Nat) (n : Nat) (db' : Db)
      (h : deleteEvents s.db cache levIds = .ok (db', cache', n)) : PayloadStep C s { s with db := db' }
  | train (dict : Bytes) : PayloadStep C s { s with db := insertDictionary s.db dict }
  | compress (dictId : Nat) (level : Int) (levIds : List Nat) (db' : Db) (hC : C s dictId level levIds)
      (h : dictCompress cfg dictId level s.db levIds = .ok db') : PayloadStep C s { s with db := db' }
  | decompress (levIds : List Nat) :
      PayloadStep C s { s with db := dictDecompress cfg s.db levIds }

/-- The states reached from a database without events. -/
inductive PayloadReached (C : PayloadState → Nat → Int → List Nat → Prop) : PayloadState → Prop where
  | init (db : Db) (hevent : db.event = .empty) (hpayload : db.eventPayload = .empty) :
      PayloadReached C { db := db, json := fun _ => none }
  | step {s s' : PayloadState} (h : PayloadReached C s) (hs : PayloadStep cfg C s s') : PayloadReached C s'

/-- An event that is stored compressed fits the buffer, and the dictionary's number 32 bits. -/
def FitsBuffer (s : PayloadState) (dictId : Nat) (level : Int) (levIds : List Nat) : Prop :=
  ∀ levId ∈ levIds, levId ∈ s.db.event.keys → ∀ json, s.json levId = some json →
    ∀ dict, s.db.compressionDictionary.lookup dictId = some dict →
    ∀ data, Zstd.compress dict level 500000 json = some data → data.length + 4 < json.length →
      dictId < 2 ^ 32 ∧ json.length ≤ cfg.eventsMaxEventSize

/-- Every event is served with the JSON that was written. -/
def ServesWritten (s : PayloadState) : Prop :=
  ∀ levId ∈ s.db.event.keys, ∃ json, s.json levId = some json ∧ getEventJson cfg s.db levId = .ok json

end

/-! ## One payload -/

section Payload

variable [Zstd] {cfg : Cfg}

/-- The payloads of a JSON text: raw, or compressed by a dictionary of the table. -/
inductive PayloadOf (cfg : Cfg) (dicts : Table Bytes) (json : Bytes) : Bytes → Prop where
  | raw : PayloadOf cfg dicts json (0 :: json)
  | compressed (dictId : Nat) (dict : Bytes) (level : Int) (data : Bytes) (hid : dictId < 2 ^ 32)
      (hdict : dicts.lookup dictId = some dict) (h : Zstd.compress dict level 500000 json = some data)
      (hfit : json.length ≤ cfg.eventsMaxEventSize) :
      PayloadOf cfg dicts json (1 :: (toLE 4 dictId ++ data))

theorem decodeEventPayload_compressed (db : Db) {dictId : Nat} (hid : dictId < 2 ^ 32) (data : Bytes) :
    decodeEventPayload cfg db (1 :: (toLE 4 dictId ++ data)) = decompress cfg db dictId data := by
  have htake : (toLE 4 dictId ++ data).take 4 = toLE 4 dictId := by
    rw [List.take_append_of_le_length (by simp), List.take_of_length_le (by simp)]
  have hdrop : (toLE 4 dictId ++ data).drop 4 = data := by
    rw [List.drop_append_of_le_length (by simp), List.drop_of_length_le (by simp), List.nil_append]
  have hlen : ¬ (toLE 4 dictId ++ data).length < 4 := by
    rw [List.length_append, length_toLE]
    omega
  have hfrom : fromLE (toLE 4 dictId) = dictId := by
    rw [fromLE_toLE]
    exact Nat.mod_eq_of_lt (by omega)
  simp only [decodeEventPayload]
  rw [if_neg (by decide), if_pos trivial, if_neg hlen, htake, hdrop, hfrom]

theorem PayloadOf.decode (hz : Zstd.Lawful) {db : Db} {json payload : Bytes}
    (h : PayloadOf cfg db.compressionDictionary json payload) :
    decodeEventPayload cfg db payload = .ok json := by
  cases h with
  | raw => rfl
  | compressed dictId dict level data hid hdict hdata hfit =>
    rw [decodeEventPayload_compressed db hid]
    unfold decompress
    rw [hdict]
    simp only [(hz dict level 500000 json data hdata).1 _ hfit]

/-- A new dictionary gets a new number. -/
theorem PayloadOf.insertNext {dicts : Table Bytes} {json payload : Bytes}
    (h : PayloadOf cfg dicts json payload) (dict : Bytes) :
    PayloadOf cfg (dicts.insertNext dict) json payload := by
  cases h with
  | raw => exact .raw
  | compressed dictId d level data hid hdict hdata hfit =>
    refine .compressed dictId d level data hid ?_ hdata hfit
    rw [Table.lookup_eq_some_iff] at hdict ⊢
    exact (Table.mem_insertNext _ _ _).mpr (Or.inl hdict)

/-- JSON that is too long for the buffer cannot be read back. -/
theorem decode_tooLong (hz : Zstd.Lawful) {db : Db} {dictId : Nat} {dict json data : Bytes} {level : Int}
    (hid : dictId < 2 ^ 32) (hdict : db.compressionDictionary.lookup dictId = some dict)
    (hdata : Zstd.compress dict level 500000 json = some data)
    (hlong : cfg.eventsMaxEventSize < json.length) :
    ∃ e, decodeEventPayload cfg db (1 :: (toLE 4 dictId ++ data)) = .error e := by
  rw [decodeEventPayload_compressed db hid]
  unfold decompress
  rw [hdict]
  simp only [(hz dict level 500000 json data hdata).2 _ hlong]
  exact ⟨_, rfl⟩

theorem getEventJson_of_mem {db : Db} {levId : Nat} {payload : Bytes}
    (h : (levId, payload) ∈ db.eventPayload.rows) :
    getEventJson cfg db levId = decodeEventPayload cfg db payload := by
  unfold getEventJson
  rw [(db.eventPayload.lookup_eq_some_iff levId payload).mpr h]

end Payload

/-! ## The invariant -/

theorem deleteEvent_dictionary (cache : NegentropyFilterCache) (db : Db) (levId : Nat) :
    (deleteEvent cache db levId).compressionDictionary = db.compressionDictionary := by
  unfold deleteEvent
  split
  · rfl
  · exact (cache.update_sameTables db _ false).compressionDictionary

theorem foldl_deleteEvent_dictionary (cache : NegentropyFilterCache) (l : List Nat) (db : Db) :
    (l.foldl (deleteEvent cache) db).compressionDictionary = db.compressionDictionary := by
  induction l generalizing db with
  | nil => rfl
  | cons levId l ih => rw [List.foldl_cons, ih, deleteEvent_dictionary]

section Inv

variable [Zstd] {cfg : Cfg}

structure PayloadInv (cfg : Cfg) (db : Db) (json : Nat → Option Bytes) : Prop where
  keys : ∀ levId, levId ∈ db.eventPayload.keys ↔ levId ∈ db.event.keys
  payloads : ∀ x ∈ db.eventPayload.rows, ∃ text, json x.1 = some text ∧
    PayloadOf cfg db.compressionDictionary text x.2

theorem PayloadInv.serves (hz : Zstd.Lawful) {s : PayloadState} (h : PayloadInv cfg s.db s.json) :
    ServesWritten cfg s := by
  intro levId hlev
  obtain ⟨payload, hp⟩ := (s.db.eventPayload.mem_keys levId).mp ((h.keys levId).mpr hlev)
  obtain ⟨text, htext, hof⟩ := h.payloads _ hp
  exact ⟨text, htext, (getEventJson_of_mem hp).trans (hof.decode hz)⟩

/-- What is read is what was written. -/
theorem PayloadInv.read (hz : Zstd.Lawful) {db : Db} {json : Nat → Option Bytes}
    (h : PayloadInv cfg db json) {levId : Nat} {orig : Bytes}
    (hread : getEventJson cfg db levId = .ok orig) : levId ∈ db.eventPayload.keys ∧ json levId = some orig := by
  cases hl : db.eventPayload.lookup levId with
  | none =>
    rw [getEventJson, hl] at hread
    cases hread
  | some payload =>
    have hmem := (db.eventPayload.lookup_eq_some_iff levId payload).mp hl
    obtain ⟨text, htext, hof⟩ := h.payloads _ hmem
    rw [getEventJson_of_mem hmem, hof.decode hz] at hread
    cases hread
    exact ⟨(db.eventPayload.mem_keys levId).mpr ⟨payload, hmem⟩, htext⟩

/-- Deleting keeps what is left. -/
theorem PayloadInv.deleteAll {db : Db} {json : Nat → Option Bytes} (h : PayloadInv cfg db json)
    (cache : NegentropyFilterCache) (l : List Nat) :
    PayloadInv cfg (l.foldl (deleteEvent cache) db) json := by
  obtain ⟨h1, h2, -⟩ := foldl_deleteEvent cache l db h.keys
  refine ⟨fun levId => ?_, fun x hx => ?_⟩
  · rw [Table.mem_keys, Table.mem_keys]
    simp only [h1, h2]
    have hk := h.keys levId
    rw [Table.mem_keys, Table.mem_keys] at hk
    constructor
    · rintro ⟨v, hv, hne⟩
      obtain ⟨w, hw⟩ := hk.mp ⟨v, hv⟩
      exact ⟨w, hw, hne⟩
    · rintro ⟨v, hv, hne⟩
      obtain ⟨w, hw⟩ := hk.mpr ⟨v, hv⟩
      exact ⟨w, hw, hne⟩
  · rw [foldl_deleteEvent_dictionary]
    exact h.payloads x ((h2 x).mp hx).1

/-- A new payload under a levId that has an event. -/
theorem PayloadInv.put {db : Db} {json : Nat → Option Bytes} (h : PayloadInv cfg db json) {levId : Nat}
    (hlev : levId ∈ db.eventPayload.keys) {text val : Bytes} (htext : json levId = some text)
    (hval : PayloadOf cfg db.compressionDictionary text val) :
    PayloadInv cfg (putPayload db levId val) json := by
  unfold putPayload
  split
  · rename_i hk
    refine ⟨fun lev => ?_, fun x hx => ?_⟩
    · show lev ∈ (db.eventPayload.put levId hk val).keys ↔ lev ∈ db.event.keys
      rw [← h.keys lev, Table.mem_keys, Table.mem_keys]
      simp only [Table.mem_put, Prod.mk.injEq]
      constructor
      · rintro ⟨v, ⟨rfl, -⟩ | ⟨hv, -⟩⟩
        · exact (db.eventPayload.mem_keys lev).mp hlev
        · exact ⟨v, hv⟩
      · rintro ⟨v, hv⟩
        by_cases hl : lev = levId
        · exact ⟨val, Or.inl ⟨hl, rfl⟩⟩
        · exact ⟨v, Or.inr ⟨hv, hl⟩⟩
    · rcases (Table.mem_put _ _ hk _ x).mp hx with rfl | ⟨hx, -⟩
      · exact ⟨text, htext, hval⟩
      · exact h.payloads x hx
  · exact h

/-! ## Batches -/

/-- A turn of `writeEvents` stores the event's JSON behind a zero byte. -/
theorem PayloadInv.writeEvent {db db' : Db} {json : Nat → Option Bytes} (h : PayloadInv cfg db json)
    {cache : NegentropyFilterCache} {prevId : Option Bytes} {ev ev' : EventToWrite}
    {packed : PackedEventView} (hpend : ev.status = .pending)
    (hw : Strfry.writeEvent cache db prevId ev packed = .ok (db', ev')) :
    PayloadInv cfg db' (recordWritten json ev') := by
  rcases writeEvent_ops cache hw with ⟨rfl, hstatus⟩ | ⟨-, rfl, l, -, rfl⟩
  · rw [recordWritten, if_neg (hstatus hpend)]
    exact h
  · refine PayloadInv.deleteAll ?_ cache l
    have hsame := cache.update_sameTables (insertEvent db packed ev.jsonStr) packed true
    rw [recordWritten, if_pos rfl]
    refine ⟨fun levId => ?_, fun x hx => ?_⟩
    · rw [hsame.event, hsame.eventPayload, Table.mem_keys, Table.mem_keys]
      have hk := h.keys levId
      rw [Table.mem_keys, Table.mem_keys] at hk
      simp only [insertEvent, Table.mem_put, Table.mem_insertNext, Prod.mk.injEq]
      constructor
      · rintro ⟨v, ⟨rfl, -⟩ | ⟨hv, -⟩⟩
        · exact ⟨packed, Or.inr ⟨rfl, rfl⟩⟩
        · obtain ⟨w, hw⟩ := hk.mp ⟨v, hv⟩
          exact ⟨w, Or.inl hw⟩
      · rintro ⟨v, hv | ⟨rfl, -⟩⟩
        · obtain ⟨w, hw⟩ := hk.mpr ⟨v, hv⟩
          have := db.event.le_lastId _ hv
          simp only at this
          exact ⟨w, Or.inr ⟨hw, by omega⟩⟩
        · exact ⟨_, Or.inl ⟨rfl, rfl⟩⟩
    · rw [hsame.eventPayload] at hx
      rw [hsame.compressionDictionary]
      rcases (Table.mem_put _ _ (Nat.succ_pos _) _ x).mp hx with rfl | ⟨hx, hne⟩
      · exact ⟨ev.jsonStr, if_pos rfl, .raw⟩
      · obtain ⟨text, htext, hof⟩ := h.payloads x hx
        exact ⟨text, by rw [if_neg hne, htext], hof⟩

theorem PayloadInv.writeLoop {cache : NegentropyFilterCache} (l : List (EventToWrite × PackedEventView))
    (hl : ∀ e ∈ l, e.1.status = .pending) {db db' : Db} {json : Nat → Option Bytes}
    (h : PayloadInv cfg db json) {prevId : Option Bytes} {evs' : List EventToWrite}
    (hw : Strfry.writeLoop cache db prevId l = .ok (db', evs')) :
    PayloadInv cfg db' (evs'.foldl recordWritten json) := by
  induction l generalizing db json prevId evs' with
  | nil =>
    cases hw
    exact h
  | cons e l ih =>
    unfold Strfry.writeLoop at hw
    obtain ⟨⟨db1, ev1⟩, h1, hw⟩ := bind_eq_ok.mp hw
    obtain ⟨⟨db2, evs2⟩, h2, hw⟩ := bind_eq_ok.mp hw
    cases hw
    rw [List.foldl_cons]
    exact ih (fun e' he' => hl e' (List.mem_cons_of_mem _ he')) (h.writeEvent (hl e List.mem_cons_self) h1) h2

/-! ## Transactions of `dict` -/

/-- A transaction touches neither the events nor the dictionaries. -/
theorem compressTurn_dictionary {dictId : Nat} {dict : Bytes} {level : Int} {db db' : Db} {levId : Nat}
    (h : compressTurn cfg dictId dict level db levId = .ok db') :
    db'.compressionDictionary = db.compressionDictionary := by
  unfold compressTurn at h
  split at h
  · cases h
    rfl
  · split at h
    · cases h
    · cases h
      unfold putPayload
      split <;> rfl

theorem PayloadInv.compressTurn (hz : Zstd.Lawful) {dictId : Nat} {dict : Bytes} {level : Int} {db db' : Db}
    {levId : Nat} {json : Nat → Option Bytes} (hinv : PayloadInv cfg db json)
    (hdict : db.compressionDictionary.lookup dictId = some dict)
    (hfits : levId ∈ db.event.keys → ∀ text, json levId = some text →
      ∀ data, Zstd.compress dict level 500000 text = some data → data.length + 4 < text.length →
        dictId < 2 ^ 32 ∧ text.length ≤ cfg.eventsMaxEventSize)
    (h : Strfry.compressTurn cfg dictId dict level db levId = .ok db') : PayloadInv cfg db' json := by
  unfold Strfry.compressTurn at h
  split at h
  · cases h
    exact hinv
  · rename_i orig horig
    obtain ⟨hlev, htext⟩ := hinv.read hz horig
    split at h
    · cases h
    · rename_i data hdata
      cases h
      refine hinv.put hlev htext ?_
      split
      · rename_i hshort
        obtain ⟨hid, hlen⟩ := hfits ((hinv.keys levId).mp hlev) orig htext data hdata hshort
        exact .compressed dictId dict level data hid hdict hdata hlen
      · exact .raw

theorem PayloadInv.compressLoop (hz : Zstd.Lawful) {dictId : Nat} {dict : Bytes} {level : Int}
    (levIds : List Nat) {db db' : Db} {json : Nat → Option Bytes} (hinv : PayloadInv cfg db json)
    (hdict : db.compressionDictionary.lookup dictId = some dict)
    (hfits : ∀ levId ∈ levIds, levId ∈ db.event.keys → ∀ text, json levId = some text →
      ∀ data, Zstd.compress dict level 500000 text = some data → data.length + 4 < text.length →
        dictId < 2 ^ 32 ∧ text.length ≤ cfg.eventsMaxEventSize)
    (h : levIds.foldlM (Strfry.compressTurn cfg dictId dict level) db = .ok db') :
    PayloadInv cfg db' json := by
  induction levIds generalizing db with
  | nil =>
    cases h
    exact hinv
  | cons levId levIds ih =>
    rw [List.foldlM_cons] at h
    obtain ⟨db1, h1, h⟩ := bind_eq_ok.mp h
    have hinv1 := hinv.compressTurn hz hdict (hfits levId List.mem_cons_self) h1
    refine ih hinv1 ?_ ?_ h
    · rw [compressTurn_dictionary h1]
      exact hdict
    · rw [(compressTurn_recoded cfg h1).event]
      exact fun lev hlev => hfits lev (List.mem_cons_of_mem _ hlev)

theorem PayloadInv.dictCompress (hz : Zstd.Lawful) {s : PayloadState} (hinv : PayloadInv cfg s.db s.json)
    {dictId : Nat} {level : Int} {levIds : List Nat} {db' : Db}
    (hfits : FitsBuffer cfg s dictId level levIds)
    (h : Strfry.dictCompress cfg dictId level s.db levIds = .ok db') : PayloadInv cfg db' s.json := by
  unfold Strfry.dictCompress at h
  split at h
  · cases h
  · rename_i dict hdict
    exact hinv.compressLoop hz levIds hdict
      (fun levId hlev hkey text htext => hfits levId hlev hkey text htext dict hdict) h

theorem PayloadInv.dictDecompress (hz : Zstd.Lawful) (levIds : List Nat) {db : Db}
    {json : Nat → Option Bytes} (hinv : PayloadInv cfg db json) :
    PayloadInv cfg (Strfry.dictDecompress cfg db levIds) json := by
  unfold Strfry.dictDecompress
  induction levIds generalizing db with
  | nil => exact hinv
  | cons levId levIds ih =>
    rw [List.foldl_cons]
    refine ih ?_
    unfold decompressTurn
    split
    · exact hinv
    · rename_i orig horig
      obtain ⟨hlev, htext⟩ := hinv.read hz horig
      exact hinv.put hlev htext .raw

/-! ## JSON that does not fit -/

theorem getEventJson_congr {db db' : Db} {levId : Nat}
    (hlookup : db'.eventPayload.lookup levId = db.eventPayload.lookup levId)
    (hdict : db'.compressionDictionary = db.compressionDictionary) :
    getEventJson cfg db' levId = getEventJson cfg db levId := by
  unfold getEventJson
  rw [hlookup]
  cases db.eventPayload.lookup levId with
  | none => rfl
  | some payload =>
    unfold decodeEventPayload decompress
    rw [hdict]

omit [Zstd] in
theorem lookup_putPayload_ne (db : Db) {levId lev : Nat} (hne : lev ≠ levId) (val : Bytes) :
    (putPayload db levId val).eventPayload.lookup lev = db.eventPayload.lookup lev := by
  unfold putPayload
  split
  · rename_i hk
    apply Option.ext
    intro v
    rw [Table.lookup_eq_some_iff, Table.lookup_eq_some_iff]
    show (lev, v) ∈ (db.eventPayload.put levId hk val).rows ↔ _
    rw [Table.mem_put]
    simp [hne]
  · rfl

/-- A turn leaves the other events. -/
theorem compressTurn_other {dictId : Nat} {dict : Bytes} {level : Int} {db db' : Db} {levId lev : Nat}
    (hne : lev ≠ levId) (h : compressTurn cfg dictId dict level db levId = .ok db') :
    getEventJson cfg db' lev = getEventJson cfg db lev := by
  refine getEventJson_congr ?_ (compressTurn_dictionary h)
  unfold compressTurn at h
  split at h
  · cases h
    rfl
  · split at h
    · cases h
    · cases h
      exact lookup_putPayload_ne db hne _

/-- What cannot be read stays so. -/
theorem compressLoop_unreadable {dictId : Nat} {dict : Bytes} {level : Int} (levIds : List Nat) {db db' : Db}
    {lev : Nat} {e : Err} (he : getEventJson cfg db lev = .error e)
    (h : levIds.foldlM (compressTurn cfg dictId dict level) db = .ok db') :
    getEventJson cfg db' lev = .error e := by
  induction levIds generalizing db with
  | nil =>
    cases h
    exact he
  | cons levId levIds ih =>
    rw [List.foldlM_cons] at h
    obtain ⟨db1, h1, h⟩ := bind_eq_ok.mp h
    refine ih ?_ h
    by_cases hne : lev = levId
    · subst hne
      unfold compressTurn at h1
      rw [he] at h1
      cases h1
      exact he
    · rw [compressTurn_other hne h1]
      exact he

/-- An event that is compressed and does not fit the buffer cannot be read any more. -/
theorem compressLoop_tooLong (hz : Zstd.Lawful) {dictId : Nat} {dict : Bytes} {level : Int}
    (levIds : List Nat) {db db' : Db} {lev : Nat} (hlev : lev ∈ levIds) {text data : Bytes} (hpos : 0 < lev)
    (hread : getEventJson cfg db lev = .ok text) (hid : dictId < 2 ^ 32)
    (hdict : db.compressionDictionary.lookup dictId = some dict)
    (hdata : Zstd.compress dict level 500000 text = some data) (hshort : data.length + 4 < text.length)
    (hlong : cfg.eventsMaxEventSize < text.length)
    (h : levIds.foldlM (compressTurn cfg dictId dict level) db = .ok db') :
    ∃ e, getEventJson cfg db' lev = .error e := by
  induction levIds generalizing db with
  | nil => cases hlev
  | cons levId levIds ih =>
    rw [List.foldlM_cons] at h
    obtain ⟨db1, h1, h⟩ := bind_eq_ok.mp h
    have hdict1 : db1.compressionDictionary.lookup dictId = some dict := by
      rw [compressTurn_dictionary h1]
      exact hdict
    by_cases hne : lev = levId
    · subst hne
      unfold compressTurn at h1
      rw [hread] at h1
      simp only [hdata, if_pos hshort] at h1
      cases h1
      obtain ⟨e, he⟩ := decode_tooLong hz hid hdict1 hdata hlong
      refine ⟨e, compressLoop_unreadable levIds ?_ h⟩
      refine (getEventJson_of_mem ?_).trans he
      unfold putPayload
      rw [dif_pos hpos]
      exact (Table.mem_put _ _ hpos _ _).mpr (Or.inl rfl)
    · have hlev : lev ∈ levIds := by
        rcases List.mem_cons.mp hlev with rfl | hlev
        · exact absurd rfl hne
        · exact hlev
      exact ih hlev (by rw [compressTurn_other hne h1, hread]) hdict1 h

end Inv

/-! ## Runs -/

section Runs

variable [Golpe] [TaoJson] [StdSort] [Zstd] {cfg : Cfg}

theorem PayloadInv.step (hz : Zstd.Lawful) {s s' : PayloadState} (h : PayloadInv cfg s.db s.json)
    (hs : PayloadStep cfg (FitsBuffer cfg) s s') : PayloadInv cfg s'.db s'.json := by
  cases hs with
  | write cache cache' evs evs' db' hevs hw =>
    unfold writeEvents at hw
    obtain ⟨l, hl, hw⟩ := bind_eq_ok.mp hw
    obtain ⟨c, -, hw⟩ := bind_eq_ok.mp hw
    obtain ⟨r, hr, hw⟩ := bind_eq_ok.mp hw
    cases hw
    exact h.writeLoop _ (fun e he => viewBatch_pending hevs hl e ((StdSort.mem_sort _ _ _).mp he)) hr
  | delete cache cache' levIds n db' hd =>
    obtain ⟨-, rfl⟩ := deleteEvents_eq hd
    exact h.deleteAll cache' levIds
  | train dict =>
    refine ⟨h.keys, fun x hx => ?_⟩
    obtain ⟨text, htext, hof⟩ := h.payloads x hx
    exact ⟨text, htext, hof.insertNext dict⟩
  | compress dictId level levIds db' hC hc => exact h.dictCompress hz hC hc
  | decompress levIds => exact h.dictDecompress hz levIds

theorem PayloadReached.inv (hz : Zstd.Lawful) {s : PayloadState}
    (h : PayloadReached cfg (FitsBuffer cfg) s) : PayloadInv cfg s.db s.json := by
  induction h with
  | init db hevent hpayload =>
    refine ⟨fun levId => ?_, fun x hx => ?_⟩
    · rw [hevent, hpayload]
      simp [Table.keys, Table.empty]
    · simp [hpayload, Table.empty] at hx
  | step _ hs ih => exact ih.step hz hs

/-- **In a run whose compressed events fit the buffer, every event is served with the JSON bytes that
`writeEvents` wrote.  And a transaction of `dict compress` that commits from there keeps this exactly
when what it compresses fits.** -/
theorem compression_keeps_json (hz : Zstd.Lawful) (s : PayloadState)
    (h : PayloadReached cfg (FitsBuffer cfg) s) :
    ServesWritten cfg s ∧
    ∀ dictId level levIds db', dictId < 2 ^ 32 → dictCompress cfg dictId level s.db levIds = .ok db' →
      (ServesWritten cfg { s with db := db' } ↔ FitsBuffer cfg s dictId level levIds) := by
  have hinv := h.inv hz
  refine ⟨hinv.serves hz, fun dictId level levIds db' hid hc => ⟨?_, ?_⟩⟩
  · intro hserves levId hlev hkey json hjson dict hdict data hdata hshort
    refine ⟨hid, Nat.le_of_not_lt fun hlong => ?_⟩
    obtain ⟨json', hjson', hread⟩ := hinv.serves hz levId hkey
    cases hjson.symm.trans hjson'
    have hevent := (dictCompress_recoded cfg hc).event
    unfold dictCompress at hc
    rw [hdict] at hc
    obtain ⟨v, hv⟩ := (s.db.event.mem_keys levId).mp hkey
    obtain ⟨e, he⟩ := compressLoop_tooLong hz levIds hlev (s.db.event.pos _ hv) hread hid hdict hdata
      hshort hlong hc
    obtain ⟨_, -, hok⟩ := hserves levId (by rw [hevent]; exact hkey)
    rw [he] at hok
    cases hok
  · intro hfits
    exact (hinv.dictCompress hz hfits hc).serves hz (s := { s with db := db' })

end Runs

/-! ## A long text -/

/-- An object with nothing but spaces. -/
def padded (n : Nat) : Bytes := 123 :: (List.replicate n 32 ++ [125])

theorem length_padded (n : Nat) : (padded n).length = n + 2 := by
  simp [padded]

/-- A compressor that counts the spaces of such texts, and knows no others. -/
@[reducible] def Zstd.spaces : Zstd where
  compress _ _ capacity src :=
    if src = padded (src.length - 2) ∧ src.length < 256 ^ 8 ∧ 8 ≤ capacity
    then some (toLE 8 (src.length - 2)) else .none
  decompress _ capacity data :=
    if (padded (fromLE data)).length ≤ capacity then some (padded (fromLE data)) else .none

theorem Zstd.spaces_lawful : @Zstd.Lawful Zstd.spaces := by
  let _ : Zstd := Zstd.spaces
  intro dict level capacity src data h
  have h : (if src = padded (src.length - 2) ∧ src.length < 256 ^ 8 ∧ 8 ≤ capacity
    then some (toLE 8 (src.length - 2)) else .none) = some data := h
  split at h
  · rename_i hsrc
    cases h
    have hfrom : padded (fromLE (toLE 8 (src.length - 2))) = src := by
      rw [fromLE_toLE, Nat.mod_eq_of_lt (by omega)]
      exact hsrc.1.symm
    refine ⟨fun n hn => ?_, fun n hn => ?_⟩
    · show (if _ ≤ n then some _ else .none) = _
      rw [hfrom, if_pos hn]
    · show (if _ ≤ n then some _ else .none) = _
      rw [hfrom, if_neg (by omega)]
  · cases h

/-- Compressing a long object gives eight bytes. -/
theorem Zstd.compress_padded (dict : Bytes) (level : Int) {n : Nat} (hn : n + 2 < 256 ^ 8) :
    @Zstd.compress Zstd.spaces dict level 500000 (padded n) = some (toLE 8 n) := by
  show (if _ then _ else _) = _
  rw [length_padded, Nat.add_sub_cancel, if_pos ⟨rfl, hn, by decide⟩]

set_option maxRecDepth 8000 in
/-- The database after one event with such a text, as `import --fried` may store it. -/
theorem padded_written (n : Nat) : ∃ db cache evs,
    @writeEvents Golpe.plain TaoJson.none StdSort.insertion {} {}
      [{ packedStr := textEvent.buf, jsonStr := padded n }] = .ok (db, cache, evs) ∧
    db.event.keys = [1] ∧ db.compressionDictionary = .empty ∧
    evs = [{ packedStr := textEvent.buf, jsonStr := padded n, status := .written, levId := 1 }] :=
  ⟨_, _, _, rfl, rfl, rfl, rfl⟩

/-- The event and a dictionary. -/
theorem padded_reached (n : Nat) (C : PayloadState → Nat → Int → List Nat → Prop) : ∃ s,
    @PayloadReached Golpe.plain TaoJson.none StdSort.insertion Zstd.spaces {} C s ∧
    s.db.event.keys = [1] ∧ s.json 1 = some (padded n) ∧
    s.db.compressionDictionary.lookup 1 = some [7] := by
  obtain ⟨db, cache, evs, hw, hkeys, hdicts, rfl⟩ := padded_written n
  let _ : Golpe := Golpe.plain
  let _ : TaoJson := TaoJson.none
  let _ : StdSort := StdSort.insertion
  let _ : Zstd := Zstd.spaces
  refine ⟨_, .step (.step (.init {} rfl rfl) (.write _ _ _ _ _ ?_ hw)) (.train [7]), hkeys, rfl, ?_⟩
  · intro ev hev
    rw [List.mem_singleton.mp hev]
  · show (db.compressionDictionary.insertNext [7]).lookup 1 = some [7]
    rw [hdicts]
    rfl

/-- The transaction that compresses it commits. -/
theorem padded_compressed {n : Nat} (hn : n + 2 < 256 ^ 8) {s : PayloadState}
    (hread : @getEventJson Zstd.spaces {} s.db 1 = .ok (padded n))
    (hdict : s.db.compressionDictionary.lookup 1 = some [7]) :
    ∃ db', @dictCompress Zstd.spaces {} 1 3 s.db [1] = .ok db' := by
  let _ : Zstd := Zstd.spaces
  unfold dictCompress
  rw [hdict]
  simp only [List.foldlM_cons, List.foldlM_nil, compressTurn, hread, Zstd.compress_padded _ _ hn]
  exact ⟨_, rfl⟩

/-- A text that fits is compressed and served. -/
theorem compression_keeps_short : ∃ s db', @PayloadReached Golpe.plain TaoJson.none StdSort.insertion
      Zstd.spaces {} (@FitsBuffer Zstd.spaces {}) s ∧
    @dictCompress Zstd.spaces {} 1 3 s.db [1] = .ok db' ∧
    @getEventJson Zstd.spaces {} db' 1 = .ok (padded 100) := by
  let _ : Golpe := Golpe.plain
  let _ : TaoJson := TaoJson.none
  let _ : StdSort := StdSort.insertion
  let _ : Zstd := Zstd.spaces
  obtain ⟨s, hs, hkeys, hjson, hdict⟩ := padded_reached 100 (FitsBuffer {})
  obtain ⟨hserves, hiff⟩ := compression_keeps_json Zstd.spaces_lawful s hs
  obtain ⟨json, hj, hread⟩ := hserves 1 (by rw [hkeys]; simp)
  cases hjson.symm.trans hj
  obtain ⟨db', hc⟩ := padded_compressed (by decide) hread hdict
  have hfits : FitsBuffer {} s 1 3 [1] := by
    intro levId hlev _ text htext _ _ _ _ _
    cases List.mem_singleton.mp hlev
    cases hjson.symm.trans htext
    exact ⟨by decide, by decide⟩
  obtain ⟨text, htext, hok⟩ := (hiff 1 3 [1] db' (by decide) hc).mpr hfits 1 (by
    rw [(dictCompress_recoded {} hc).event, hkeys]
    simp)
  cases hjson.symm.trans htext
  exact ⟨s, db', hs, hc, hok⟩

/-- A text of 70002 bytes, with the default `events.maxEventSize`, cannot be read once it is
compressed. -/
theorem compression_loses_long : ¬ ∀ s, @PayloadReached Golpe.plain TaoJson.none StdSort.insertion
    Zstd.spaces {} (fun _ _ _ _ => True) s → @ServesWritten Zstd.spaces {} s := by
  let _ : Golpe := Golpe.plain
  let _ : TaoJson := TaoJson.none
  let _ : StdSort := StdSort.insertion
  let _ : Zstd := Zstd.spaces
  intro h
  obtain ⟨s, hs, hkeys, hjson, hdict⟩ := padded_reached 70000 fun _ _ _ _ => True
  obtain ⟨json, hj, hread⟩ := h s hs 1 (by rw [hkeys]; simp)
  cases hjson.symm.trans hj
  obtain ⟨db', hc⟩ := padded_compressed (by decide) hread hdict
  obtain ⟨_, -, hok⟩ := h _ (.step hs (.compress 1 3 [1] db' trivial hc)) 1 (by
    show 1 ∈ db'.event.keys
    rw [(dictCompress_recoded {} hc).event, hkeys]
    simp)
  unfold dictCompress at hc
  rw [hdict] at hc
  obtain ⟨e, he⟩ := compressLoop_tooLong Zstd.spaces_lawful [1] List.mem_cons_self (by decide) hread
    (by decide) hdict (Zstd.compress_padded [7] 3 (by decide))
    (by rw [length_toLE, length_padded]; decide) (by rw [length_padded]; decide) hc
  have hok : getEventJson {} db' 1 = _ := hok
  rw [he] at hok
  cases hok

end Strfry
