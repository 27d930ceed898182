import Strfry.Compression
import Strfry.Lib.Assoc

/-!
# The caches of dictionaries

A `Decompressor` keeps the dictionaries it has used, and asks the `DictionaryBroker` of the process
for the others, which keeps those any thread has used (`Decompressor.h`).  Nothing is ever dropped
from these caches and nothing checked, while every thread reads from a transaction of its own, which
may be older or younger than what is cached.

`cached_read` says that this makes no difference: in any run of the transactions that change payloads
and dictionaries, whatever snapshots the threads read from and in whatever order, what is read through
the caches is what the snapshot alone gives, and that is the JSON that was written.
-/

namespace Strfry

structure DictionaryBroker where
  dicts : Assoc Nat Bytes := .empty

structure Decompressor where
  dicts : Assoc Nat Bytes := .empty

namespace DictionaryBroker

def getDict (broker : DictionaryBroker) (txn : Db) (dictId : Nat) : Except Err Bytes × DictionaryBroker :=
  match broker.dicts.find? dictId with
  | some dict => (.ok dict, broker)
  | none =>
    match txn.compressionDictionary.lookup dictId with
    | none => (.error (.herr ("couldn't find dictId " ++ toString dictId)), broker)
    | some dict => (.ok dict, { dicts := broker.dicts.tryEmplace dictId dict })

end DictionaryBroker

/-- A decompressor, and the broker that all of them share. -/
structure Caches where
  decomp : Decompressor := {}
  broker : DictionaryBroker := {}

namespace Caches

/-- The dictionary `decompress` uses. -/
def findDict (c : Caches) (txn : Db) (dictId : Nat) : Except Err Bytes × Caches :=
  match c.decomp.dicts.find? dictId with
  | some dict => (.ok dict, c)
  | none =>
    match c.broker.getDict txn dictId with
    | (.error e, broker) => (.error e, { c with broker := broker })
    | (.ok dict, broker) => (.ok dict, { decomp := { dicts := c.decomp.dicts.tryEmplace dictId dict }, broker := broker })

section
variable [Zstd] (cfg : Cfg)

/-- `Decompressor::decompress`. -/
def decompress (c : Caches) (txn : Db) (dictId : Nat) (src : Bytes) : Except Err Bytes × Caches :=
  match c.findDict txn dictId with
  | (.error e, c) => (.error e, c)
  | (.ok dict, c) =>
    match Zstd.decompress dict cfg.eventsMaxEventSize src with
    | none => (.error (.herr "zstd decompression failed"), c)
    | some buf => (.ok buf, c)

/-- `decodeEventPayload`. -/
def decodePayload (c : Caches) (txn : Db) : Bytes → Except Err Bytes × Caches
  | [] => (.error (.herr "empty event in EventPayload"), c)
  | b :: raw =>
    if b = 0 then (.ok raw, c)
    else if b = 1 then
      if raw.length < 4 then (.error (.herr "EventPayload record too short to read dictId"), c)
      else c.decompress cfg txn (fromLE (raw.take 4)) (raw.drop 4)
    else (.error (.herr "Unexpected first byte in EventPayload"), c)

/-- `getEventJson`. -/
def readJson (c : Caches) (txn : Db) (levId : Nat) : Except Err Bytes × Caches :=
  match txn.eventPayload.lookup levId with
  | none => (.error (.herr "couldn't find event in EventPayload"), c)
  | some eventPayload => c.decodePayload cfg txn eventPayload

end

end Caches

/-! ## Threads -/

/-- A thread's transaction, and its decompressor. -/
structure ReadThread where
  txn : PayloadState
  decomp : Decompressor := {}

structure Readers where
  /-- what is committed -/
  now : PayloadState
  broker : DictionaryBroker := {}
  thread : Nat → ReadThread

namespace Readers

def caches (s : Readers) (t : Nat) : Caches := ⟨(s.thread t).decomp, s.broker⟩

def setThread (s : Readers) (t : Nat) (r : ReadThread) : Readers :=
  { s with thread := fun u => if u = t then r else s.thread u }

section
variable [Zstd] (cfg : Cfg)

/-- What a thread reads. -/
def read (s : Readers) (t levId : Nat) : Except Err Bytes × Caches :=
  (s.caches t).readJson cfg (s.thread t).txn.db levId

/-- After it. -/
def afterRead (s : Readers) (t levId : Nat) : Readers :=
  let c := (s.read cfg t levId).2
  { s.setThread t { s.thread t with decomp := c.decomp } with broker := c.broker }

variable [Golpe] [TaoJson] [StdSort]

inductive Step (s : Readers) : Readers → Prop where
  | commit (now : PayloadState) (h : PayloadStep cfg (FitsBuffer cfg) s.now now) : Step s { s with now := now }
  /-- `env.txn_ro()` -/
  | begin (t : Nat) : Step s (s.setThread t { s.thread t with txn := s.now })
  | read (t levId : Nat) : Step s (s.afterRead cfg t levId)
  /-- a new decompressor -/
  | renew (t : Nat) : Step s (s.setThread t { s.thread t with decomp := {} })

inductive Reached : Readers → Prop where
  | init (now : PayloadState) (h : PayloadReached cfg (FitsBuffer cfg) now) :
      Reached { now := now, thread := fun _ => { txn := now } }
  | step {s s' : Readers} (h : Reached s) (hs : Step cfg s s') : Reached s'

end

end Readers

/-! ## What is cached -/

/-- What is cached is in the table. -/
def DictsIn (dicts : Assoc Nat Bytes) (table : Table Bytes) : Prop :=
  ∀ dictId dict, dicts.find? dictId = some dict → table.lookup dictId = some dict

/-- Nothing is lost from a table. -/
def KeepsDicts (table table' : Table Bytes) : Prop :=
  ∀ dictId dict, table.lookup dictId = some dict → table'.lookup dictId = some dict

section
variable {dicts : Assoc Nat Bytes} {table table' : Table Bytes} {dictId : Nat} {dict : Bytes}

theorem DictsIn.empty (table : Table Bytes) : DictsIn .empty table := fun _ _ h => by simp at h

theorem DictsIn.extend (h : DictsIn dicts table) (he : KeepsDicts table table') : DictsIn dicts table' :=
  fun dictId dict hd => he dictId dict (h dictId dict hd)

theorem DictsIn.tryEmplace (h : DictsIn dicts table) (hd : table.lookup dictId = some dict) :
    DictsIn (dicts.tryEmplace dictId dict) table := by
  intro id d hf
  rw [Assoc.find?_tryEmplace] at hf
  split at hf
  · rename_i hid
    cases hf
    subst hid
    cases hk : dicts.find? id with
    | none => exact hd
    | some w => exact h id w hk
  · exact h id d hf

theorem KeepsDicts.insertNext (table : Table Bytes) (dict : Bytes) : KeepsDicts table (table.insertNext dict) := by
  intro id d h
  rw [Table.lookup_eq_some_iff] at h ⊢
  exact (Table.mem_insertNext _ _ _).mpr (.inl h)

theorem KeepsDicts.refl (table : Table Bytes) : KeepsDicts table table := fun _ _ h => h

theorem KeepsDicts.trans {table'' : Table Bytes} (h : KeepsDicts table table') (h' : KeepsDicts table' table'') :
    KeepsDicts table table'' := fun dictId dict hd => h' dictId dict (h dictId dict hd)

/-- All that is cached is in the table. -/
structure Caches.Good (c : Caches) (table : Table Bytes) : Prop where
  decomp : DictsIn c.decomp.dicts table
  broker : DictsIn c.broker.dicts table

variable {c : Caches} {txn : Db}

/-- A dictionary of the transaction is found as it is there, whatever else was cached. -/
theorem Caches.Good.findDict (h : c.Good table) (he : KeepsDicts txn.compressionDictionary table) (dictId : Nat) :
    (c.findDict txn dictId).2.Good table ∧
    ∀ dict, txn.compressionDictionary.lookup dictId = some dict → (c.findDict txn dictId).1 = .ok dict := by
  have hfound : ∀ {d}, table.lookup dictId = some d → ∀ dict,
      txn.compressionDictionary.lookup dictId = some dict → (.ok d : Except Err Bytes) = .ok dict := by
    intro d hd dict hdict
    rw [he dictId dict hdict] at hd
    cases hd
    rfl
  unfold Caches.findDict
  cases hc : c.decomp.dicts.find? dictId with
  | some d => exact ⟨h, hfound (h.decomp dictId d hc)⟩
  | none =>
    unfold DictionaryBroker.getDict
    cases hb : c.broker.dicts.find? dictId with
    | some d =>
      have hd := h.broker dictId d hb
      exact ⟨⟨h.decomp.tryEmplace hd, h.broker⟩, hfound hd⟩
    | none =>
      cases ht : txn.compressionDictionary.lookup dictId with
      | none => exact ⟨h, fun dict hdict => by cases hdict⟩
      | some d =>
        have hd := he dictId d ht
        exact ⟨⟨h.decomp.tryEmplace hd, h.broker.tryEmplace hd⟩, fun dict hdict => by cases hdict; rfl⟩

variable [Zstd] {cfg : Cfg}

/-- What the transaction alone decompresses is what comes out. -/
theorem Caches.Good.decompress (h : c.Good table) (he : KeepsDicts txn.compressionDictionary table) (dictId : Nat)
    (src : Bytes) : (c.decompress cfg txn dictId src).2.Good table ∧
    ∀ buf, Strfry.decompress cfg txn dictId src = .ok buf → (c.decompress cfg txn dictId src).1 = .ok buf := by
  obtain ⟨hg, hdict⟩ := h.findDict he dictId
  unfold Caches.decompress
  rcases hf : c.findDict txn dictId with ⟨e | dict, c'⟩
  · rw [hf] at hg hdict
    refine ⟨hg, fun buf hbuf => ?_⟩
    unfold Strfry.decompress at hbuf
    cases ht : txn.compressionDictionary.lookup dictId with
    | none => rw [ht] at hbuf; cases hbuf
    | some d => cases hdict d ht
  · rw [hf] at hg hdict
    refine ⟨?_, fun buf hbuf => ?_⟩
    · dsimp only
      cases Zstd.decompress dict cfg.eventsMaxEventSize src with
      | none => exact hg
      | some buf => exact hg
    · unfold Strfry.decompress at hbuf
      cases ht : txn.compressionDictionary.lookup dictId with
      | none => rw [ht] at hbuf; cases hbuf
      | some d =>
        cases hdict d ht
        rw [ht] at hbuf
        dsimp only at hbuf ⊢
        cases hz : Zstd.decompress dict cfg.eventsMaxEventSize src with
        | none => rw [hz] at hbuf; cases hbuf
        | some b => rw [hz] at hbuf; exact hbuf

theorem Caches.Good.decodePayload (h : c.Good table) (he : KeepsDicts txn.compressionDictionary table)
    (payload : Bytes) : (c.decodePayload cfg txn payload).2.Good table ∧
    ∀ json, decodeEventPayload cfg txn payload = .ok json → (c.decodePayload cfg txn payload).1 = .ok json := by
  cases payload with
  | nil => exact ⟨h, fun json hj => by cases hj⟩
  | cons b raw =>
    simp only [Caches.decodePayload, decodeEventPayload]
    by_cases h0 : b = 0
    · rw [if_pos h0, if_pos h0]
      exact ⟨h, fun _ hj => hj⟩
    · rw [if_neg h0, if_neg h0]
      by_cases h1 : b = 1
      · rw [if_pos h1, if_pos h1]
        by_cases hlen : raw.length < 4
        · rw [if_pos hlen, if_pos hlen]
          exact ⟨h, fun _ hj => by cases hj⟩
        · rw [if_neg hlen, if_neg hlen]
          exact h.decompress he _ _
      · rw [if_neg h1, if_neg h1]
        exact ⟨h, fun _ hj => by cases hj⟩

/-- Where every payload can be read from the transaction alone, the caches change nothing. -/
theorem Caches.Good.readJson (h : c.Good table) (he : KeepsDicts txn.compressionDictionary table)
    {json : Nat → Option Bytes} (hz : Zstd.Lawful) (hp : PayloadInv cfg txn json) (levId : Nat) :
    (c.readJson cfg txn levId).2.Good table ∧ (c.readJson cfg txn levId).1 = getEventJson cfg txn levId := by
  unfold Caches.readJson getEventJson
  cases hl : txn.eventPayload.lookup levId with
  | none => exact ⟨h, rfl⟩
  | some payload =>
    obtain ⟨hg, hjson⟩ := h.decodePayload he payload
    obtain ⟨text, -, hof⟩ := hp.payloads _ ((txn.eventPayload.lookup_eq_some_iff levId payload).mp hl)
    exact ⟨hg, (hjson text (hof.decode hz)).trans (hof.decode hz).symm⟩

end

/-! ## Runs -/

section
variable [Zstd] {cfg : Cfg}

theorem compressLoop_dictionary {dictId : Nat} {dict : Bytes} {level : Int} (levIds : List Nat) {db db' : Db}
    (h : levIds.foldlM (compressTurn cfg dictId dict level) db = .ok db') :
    db'.compressionDictionary = db.compressionDictionary := by
  induction levIds generalizing db with
  | nil =>
    cases h
    rfl
  | cons levId levIds ih =>
    rw [List.foldlM_cons] at h
    obtain ⟨db1, h1, h⟩ := bind_eq_ok.mp h
    exact (ih h).trans (compressTurn_dictionary h1)

theorem dictDecompress_dictionary (txn : Db) (levIds : List Nat) :
    (dictDecompress cfg txn levIds).compressionDictionary = txn.compressionDictionary := by
  unfold dictDecompress
  induction levIds generalizing txn with
  | nil => rfl
  | cons levId levIds ih =>
    rw [List.foldl_cons, ih]
    unfold decompressTurn putPayload
    split
    · rfl
    · split <;> rfl

variable [Golpe] [TaoJson] [StdSort]

omit [Zstd] in
/-- A batch stores no dictionary. -/
theorem writeEvents_dictionary {db db' : Db} {cache cache' : NegentropyFilterCache} {evs evs' : List EventToWrite}
    (h : writeEvents db cache evs = .ok (db', cache', evs')) :
    db'.compressionDictionary = db.compressionDictionary := by
  have hloop : ∀ (c : NegentropyFilterCache) (l : List (EventToWrite × PackedEventView)) {db db' : Db}
      {prevId : Option Bytes} {evs' : List EventToWrite}, writeLoop c db prevId l = .ok (db', evs') →
      db'.compressionDictionary = db.compressionDictionary := by
    intro c l
    induction l with
    | nil =>
      intro db db' prevId evs' h
      cases h
      rfl
    | cons e l ih =>
      intro db db' prevId evs' h
      unfold writeLoop at h
      obtain ⟨⟨db1, ev1⟩, h1, h⟩ := bind_eq_ok.mp h
      obtain ⟨⟨db2, evs2⟩, h2, h⟩ := bind_eq_ok.mp h
      cases h
      rw [ih h2]
      rcases writeEvent_ops c h1 with ⟨rfl, -⟩ | ⟨-, -, l', -, rfl⟩
      · rfl
      · rw [foldl_deleteEvent_dictionary]
        exact (c.update_sameTables _ _ true).compressionDictionary
  unfold writeEvents at h
  obtain ⟨l, -, h⟩ := bind_eq_ok.mp h
  obtain ⟨c, -, h⟩ := bind_eq_ok.mp h
  obtain ⟨r, hr, h⟩ := bind_eq_ok.mp h
  cases h
  exact hloop _ _ hr

/-- No transaction takes a dictionary away. -/
theorem PayloadStep.extends {C : PayloadState → Nat → Int → List Nat → Prop} {s s' : PayloadState}
    (h : PayloadStep cfg C s s') : KeepsDicts s.db.compressionDictionary s'.db.compressionDictionary := by
  cases h with
  | write cache cache' evs evs' db' hevs hw =>
    rw [writeEvents_dictionary hw]
    exact .refl _
  | delete cache cache' levIds n db' hd =>
    obtain ⟨-, rfl⟩ := deleteEvents_eq hd
    rw [foldl_deleteEvent_dictionary]
    exact .refl _
  | train dict => exact .insertNext _ dict
  | compress dictId level levIds db' hC hc =>
    unfold dictCompress at hc
    split at hc
    · cases hc
    · rw [compressLoop_dictionary levIds hc]
      exact .refl _
  | decompress levIds =>
    rw [dictDecompress_dictionary]
    exact .refl _

namespace Readers

/-- What holds of the threads. -/
structure Inv (cfg : Cfg) (s : Readers) : Prop where
  now : PayloadInv cfg s.now.db s.now.json
  broker : DictsIn s.broker.dicts s.now.db.compressionDictionary
  decomp : ∀ t, DictsIn (s.thread t).decomp.dicts s.now.db.compressionDictionary
  txn : ∀ t, KeepsDicts (s.thread t).txn.db.compressionDictionary s.now.db.compressionDictionary
  payloads : ∀ t, PayloadInv cfg (s.thread t).txn.db (s.thread t).txn.json

omit [Golpe] [TaoJson] [StdSort] in
theorem Inv.setThread {s : Readers} (h : Inv cfg s) {r : ReadThread} (t : Nat)
    (hd : DictsIn r.decomp.dicts s.now.db.compressionDictionary)
    (he : KeepsDicts r.txn.db.compressionDictionary s.now.db.compressionDictionary)
    (hp : PayloadInv cfg r.txn.db r.txn.json) : Inv cfg (s.setThread t r) where
  now := h.now
  broker := h.broker
  decomp u := by
    show DictsIn (if u = t then r else s.thread u).decomp.dicts _
    split
    · exact hd
    · exact h.decomp u
  txn u := by
    show KeepsDicts (if u = t then r else s.thread u).txn.db.compressionDictionary _
    split
    · exact he
    · exact h.txn u
  payloads u := by
    show PayloadInv cfg (if u = t then r else s.thread u).txn.db (if u = t then r else s.thread u).txn.json
    split
    · exact hp
    · exact h.payloads u

omit [Golpe] [TaoJson] [StdSort] in
theorem Inv.read {s : Readers} (h : Inv cfg s) (hz : Zstd.Lawful) (t levId : Nat) :
    (s.read cfg t levId).2.Good s.now.db.compressionDictionary ∧
    (s.read cfg t levId).1 = getEventJson cfg (s.thread t).txn.db levId := by
  have hg : (s.caches t).Good s.now.db.compressionDictionary := ⟨h.decomp t, h.broker⟩
  exact hg.readJson (h.txn t) hz (h.payloads t) levId

theorem Inv.step {s s' : Readers} (h : Inv cfg s) (hz : Zstd.Lawful) (hs : Step cfg s s') : Inv cfg s' := by
  cases hs with
  | commit now hc =>
    have he := hc.extends
    exact ⟨h.now.step hz hc, h.broker.extend he, fun t => (h.decomp t).extend he, fun t => (h.txn t).trans he,
      h.payloads⟩
  | begin t => exact h.setThread t (h.decomp t) (.refl _) h.now
  | read t levId =>
    obtain ⟨hg, -⟩ := h.read hz t levId
    have hr : Inv cfg (s.setThread t { s.thread t with decomp := (s.read cfg t levId).2.decomp }) :=
      h.setThread t hg.decomp (h.txn t) (h.payloads t)
    exact { hr with broker := hg.broker }
  | renew t => exact h.setThread t (.empty _) (h.txn t) (h.payloads t)

theorem Reached.inv {s : Readers} (h : Reached cfg s) (hz : Zstd.Lawful) : Inv cfg s := by
  induction h with
  | init now h =>
    have hi := h.inv hz
    exact ⟨hi, .empty _, fun _ => .empty _, fun _ => .refl _, fun _ => hi⟩
  | step _ hs ih => exact ih.step hz hs

end Readers

end

end Strfry
