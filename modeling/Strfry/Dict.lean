import Strfry.Db

/-!
# Payloads and their compression

`decodeEventPayload` and `getEventJson` (`events_db.cpp`), and the loops of `dict compress`
and `dict decompress` (`cmd_dict.cpp`).  zstd is a parameter.  A loop commits from time to
time, so what one transaction does is the loop over some of the levIds.

The decompressor keeps the dictionaries it has seen; the table of dictionaries is only ever
added to, so what it keeps is what the table holds.
-/

namespace Strfry

/-- `ZSTD_compress_usingCDict` and `ZSTD_decompress_usingDDict` into a buffer of some size. -/
class Zstd where
  compress : (dict : Bytes) → (level : Int) → (capacity : Nat) → Bytes → Option Bytes
  decompress : (dict : Bytes) → (capacity : Nat) → Bytes → Option Bytes

/-- Only payloads of levIds that have one change. -/
structure Recoded (db db' : Db) : Prop where
  event : db'.event = db.event
  keys : ∀ lev, lev ∈ db'.eventPayload.keys ↔ lev ∈ db.eventPayload.keys

theorem Recoded.refl (db : Db) : Recoded db db := ⟨rfl, fun _ => Iff.rfl⟩

theorem Recoded.trans {a b c : Db} (h : Recoded a b) (h' : Recoded b c) : Recoded a c :=
  ⟨h'.event.trans h.event, fun lev => (h'.keys lev).trans (h.keys lev)⟩

section
variable [Zstd] (cfg : Cfg)

/-- `Decompressor::decompress`. -/
def decompress (txn : Db) (dictId : Nat) (src : Bytes) : Except Err Bytes :=
  match txn.compressionDictionary.lookup dictId with
  | none => .error (.herr ("couldn't find dictId " ++ toString dictId))
  | some dict =>
    match Zstd.decompress dict cfg.eventsMaxEventSize src with
    | none => .error (.herr "zstd decompression failed")
    | some buf => .ok buf

def decodeEventPayload (txn : Db) : Bytes → Except Err Bytes
  | [] => .error (.herr "empty event in EventPayload")
  | b :: raw =>
    if b = 0 then .ok raw
    else if b = 1 then
      if raw.length < 4 then .error (.herr "EventPayload record too short to read dictId")
      else decompress cfg txn (fromLE (raw.take 4)) (raw.drop 4)
    else .error (.herr "Unexpected first byte in EventPayload")

def getEventJson (txn : Db) (levId : Nat) : Except Err Bytes :=
  match txn.eventPayload.lookup levId with
  | none => .error (.herr "couldn't find event in EventPayload")
  | some eventPayload => decodeEventPayload cfg txn eventPayload

/-- `dbi_EventPayload.put`; there is no levId 0. -/
def putPayload (db : Db) (levId : Nat) (val : Bytes) : Db :=
  if hk : 0 < levId then { db with eventPayload := db.eventPayload.put levId hk val } else db

/-- One turn of `dict compress`. -/
def compressTurn (dictId : Nat) (dict : Bytes) (level : Int) (db : Db) (levId : Nat) : Except Err Db :=
  match getEventJson cfg db levId with
  | .error _ => .ok db
  | .ok orig =>
    match Zstd.compress dict level 500000 orig with
    | none => .error (.herr "zstd compression failed")
    | some data => .ok (putPayload db levId
        (if data.length + 4 < orig.length then 1 :: (toLE 4 dictId ++ data) else 0 :: orig))

/-- One transaction of `dict compress`. -/
def dictCompress (dictId : Nat) (level : Int) (txn : Db) (levIds : List Nat) : Except Err Db :=
  match txn.compressionDictionary.lookup dictId with
  | none => .error (.herr ("couldn't find dictId " ++ toString dictId))
  | some dict => levIds.foldlM (compressTurn cfg dictId dict level) txn

/-- One turn of `dict decompress`. -/
def decompressTurn (db : Db) (levId : Nat) : Db :=
  match getEventJson cfg db levId with
  | .error _ => db
  | .ok orig => putPayload db levId (0 :: orig)

/-- One transaction of `dict decompress`. -/
def dictDecompress (txn : Db) (levIds : List Nat) : Db := levIds.foldl (decompressTurn cfg) txn

theorem putPayload_recoded {db : Db} {levId : Nat} {orig : Bytes}
    (h : getEventJson cfg db levId = .ok orig) (val : Bytes) : Recoded db (putPayload db levId val) := by
  have hin : levId ∈ db.eventPayload.keys := by
    unfold getEventJson at h
    split at h
    · cases h
    · rename_i raw hl
      exact (db.eventPayload.mem_keys levId).mpr ⟨raw, (db.eventPayload.lookup_eq_some_iff _ _).mp hl⟩
  unfold putPayload
  split
  · rename_i hk
    refine ⟨rfl, fun lev => ?_⟩
    show lev ∈ (db.eventPayload.put levId hk val).keys ↔ _
    rw [Table.mem_keys, Table.mem_keys]
    simp only [Table.mem_put, Prod.mk.injEq]
    constructor
    · rintro ⟨v, ⟨rfl, -⟩ | ⟨hv, -⟩⟩
      · exact (db.eventPayload.mem_keys lev).mp hin
      · exact ⟨v, hv⟩
    · rintro ⟨v, hv⟩
      by_cases hl : lev = levId
      · exact ⟨val, Or.inl ⟨hl, rfl⟩⟩
      · exact ⟨v, Or.inr ⟨hv, hl⟩⟩
  · exact .refl db

theorem compressTurn_recoded {dictId : Nat} {dict : Bytes} {level : Int} {db db' : Db} {levId : Nat}
    (h : compressTurn cfg dictId dict level db levId = .ok db') : Recoded db db' := by
  unfold compressTurn at h
  split at h
  · cases h
    exact .refl db
  · rename_i orig horig
    split at h
    · cases h
    · cases h
      exact putPayload_recoded cfg horig _

theorem compressLoop_recoded {dictId : Nat} {dict : Bytes} {level : Int} (levIds : List Nat)
    {db db' : Db} (h : levIds.foldlM (compressTurn cfg dictId dict level) db = .ok db') :
    Recoded db db' := by
  induction levIds generalizing db with
  | nil =>
    cases h
    exact .refl _
  | cons levId levIds ih =>
    rw [List.foldlM_cons] at h
    obtain ⟨db1, h1, h⟩ := bind_eq_ok.mp h
    exact (compressTurn_recoded cfg h1).trans (ih h)

theorem dictCompress_recoded {dictId : Nat} {level : Int} {txn db' : Db} {levIds : List Nat}
    (h : dictCompress cfg dictId level txn levIds = .ok db') : Recoded txn db' := by
  unfold dictCompress at h
  split at h
  · cases h
  · exact compressLoop_recoded cfg levIds h

theorem dictDecompress_recoded (txn : Db) (levIds : List Nat) :
    Recoded txn (dictDecompress cfg txn levIds) := by
  unfold dictDecompress
  induction levIds generalizing txn with
  | nil => exact .refl txn
  | cons levId levIds ih =>
    rw [List.foldl_cons]
    refine Recoded.trans ?_ (ih _)
    unfold decompressTurn
    split
    · exact .refl txn
    · rename_i orig horig
      exact putPayload_recoded cfg horig _

end

end Strfry
