import Strfry.Events
import Strfry.Lib.Order
import Strfry.Lib.Table
import Mathlib.Data.Prod.Lex
import Mathlib.Data.Finset.Basic

/-!
# The database

The tables of `golpe.yaml` and the indices of its `Event` table.  An index is not
stored: `entries` computes it from the table with `indexKeys` (the `indexPrelude`),
so it holds exactly the entries the prelude makes.  A record of an index is a pair
(key, levId); records are ordered by the comparator the index declares, then by levId
(`entryOrd`), and a walk over an index (`generic_foreachFull`) is `walkDown` or
`walkUp` in that order.

`negentropy` holds the items of each negentropy tree as a set of (created_at, id).
-/

namespace Strfry

inductive Index where
  | createdAt
  | id
  | pubkey
  | kind
  | pubkeyKind
  | tag
  | deletion
  | expiration
  | replace
deriving DecidableEq, Repr

/-- The value of an event's first `d` tag. -/
def firstD (v : PackedEventView) : Option Bytes := (v.tags.find? fun t => t.1 == tagD).map Prod.snd

/-- The `indexPrelude`: the keys an event is indexed under. -/
def indexKeys (v : PackedEventView) : Index → List Bytes
  | .createdAt => [toSv v.createdAt]
  | .id => [makeKeyStringUint64 v.id v.createdAt]
  | .pubkey => [makeKeyStringUint64 v.pubkey v.createdAt]
  | .kind => [makeKeyUint64Uint64 v.kind v.createdAt]
  | .pubkeyKind => [makeKeyStringUint64Uint64 v.pubkey v.kind v.createdAt]
  | .tag => v.tags.map fun t => makeKeyStringUint64 (t.1 :: t.2) v.createdAt
  | .deletion => v.tags.filterMap fun t =>
      if t.1 = tagE ∧ v.kind = 5 then some (t.2 ++ v.pubkey) else none
  | .expiration => if v.expiration ≠ 0 then [toSv v.expiration] else []
  | .replace => (firstD v).toList.map fun d => makeKeyStringUint64 (v.pubkey ++ d) v.kind

/-- Order of the records of an index: what the declared comparator compares, then the levId. -/
abbrev EntryOrd := Bytes ×ₗ Nat ×ₗ Nat ×ₗ Nat

/-- The comparator of each index (`StringUint64`, `Uint64Uint64`, `StringUint64Uint64`,
integer keys, plain bytes). -/
def entryOrd (i : Index) (e : Bytes × Nat) : EntryOrd :=
  match i with
  | .createdAt | .expiration => toLex ([], toLex (0, toLex (fromSv e.1, e.2)))
  | .id | .pubkey | .tag =>
    let k := ParsedKeyStringUint64.parse e.1
    toLex (k.s, toLex (0, toLex (k.n, e.2)))
  | .kind =>
    let k := ParsedKeyUint64Uint64.parse e.1
    toLex ([], toLex (k.n1, toLex (k.n2, e.2)))
  | .pubkeyKind =>
    let k := ParsedKeyStringUint64.parse e.1
    let k' := ParsedKeyStringUint64.parse k.s
    toLex (k'.s, toLex (k'.n, toLex (k.n, e.2)))
  | .deletion | .replace => toLex (e.1, toLex (0, toLex (0, e.2)))

structure Db where
  event : Table PackedEventView := .empty
  eventPayload : Table Bytes := .empty
  negentropyFilter : Table Bytes := .empty
  compressionDictionary : Table Bytes := .empty
  negentropyModificationCounter : Nat := 1
  negentropy : Nat → Finset (Nat × Bytes) := fun _ => ∅

namespace Db

/-- The records of an index. -/
def entries (db : Db) (i : Index) : List (Bytes × Nat) :=
  db.event.rows.flatMap fun r => (indexKeys r.2 i).map fun k => (k, r.1)

/-- The records `generic_foreachFull` visits in reverse from (key, val). -/
def foreachDown (db : Db) (i : Index) (key : Bytes) (val : Nat) : List (Bytes × Nat) :=
  walkDown (entryOrd i) (db.entries i) (entryOrd i (key, val))

/-- The records `generic_foreachFull` visits forwards from (key, val). -/
def foreachUp (db : Db) (i : Index) (key : Bytes) (val : Nat) : List (Bytes × Nat) :=
  walkUp (entryOrd i) (db.entries i) (entryOrd i (key, val))

theorem mem_entries (db : Db) (i : Index) (e : Bytes × Nat) :
    e ∈ db.entries i ↔ ∃ v, (e.2, v) ∈ db.event.rows ∧ e.1 ∈ indexKeys v i := by
  unfold entries
  rw [List.mem_flatMap]
  constructor
  · rintro ⟨⟨lev, v⟩, hr, he⟩
    obtain ⟨k, hk, rfl⟩ := List.mem_map.mp he
    exact ⟨v, hr, hk⟩
  · rintro ⟨v, hr, hk⟩
    exact ⟨(e.2, v), hr, List.mem_map.mpr ⟨e.1, hk, rfl⟩⟩

/-- `lookupEventById`: the first record at or after the id, if it is the id's. -/
def lookupEventById (db : Db) (id : Bytes) : Option (Nat × PackedEventView) :=
  match db.foreachUp .id (makeKeyStringUint64 id 0) 0 with
  | [] => none
  | (k, lev) :: _ => if startsWith k id then (db.event.lookup lev).map fun v => (lev, v) else none

/-- `eventExistsById`. -/
def eventExistsById (db : Db) (id : Bytes) : Bool := (db.lookupEventById id).isSome

/-- `lookup_Event__deletion`, as a test. -/
def lookupDeletion (db : Db) (key : Bytes) : Bool := (db.entries .deletion).any fun e => e.1 == key

/-- `getMostRecentLevId`. -/
def getMostRecentLevId (db : Db) : Nat := db.event.lastId

/-! ## What the lookups find -/

@[simp] theorem entryOrd_id (s : Bytes) (n lev : Nat) (hn : n < 2 ^ 64) :
    entryOrd .id (makeKeyStringUint64 s n, lev) = toLex (s, toLex (0, toLex (n, lev))) := by
  simp only [entryOrd, parse_makeKey s n hn]

/-- A stored event with the id is found, and only such an event. -/
theorem lookupEventById_some {db : Db} {id : Bytes} (hid : id.length = 32) {r : Nat × PackedEventView}
    (h : db.lookupEventById id = some r) : r ∈ db.event.rows ∧ r.2.id = id := by
  unfold lookupEventById at h
  split at h
  · cases h
  · rename_i k lev rest hw
    split at h
    · rename_i hpre
      obtain ⟨v, hv, rfl⟩ := Option.map_eq_some_iff.mp h
      have hrow := (db.event.lookup_eq_some_iff lev v).mp hv
      obtain ⟨⟨hmem, -⟩, -⟩ := walkUp_head_min _ _ _ _ _ hw
      obtain ⟨v', hv', hk⟩ := (db.mem_entries _ _).mp hmem
      have : v' = v := db.event.row_unique hv' hrow
      subst this
      simp only [indexKeys, List.mem_singleton] at hk
      rw [hk] at hpre
      exact ⟨hrow, (startsWith_makeKey _ _ _ (by rw [v'.length_id, hid])).mp hpre⟩
    · cases h

theorem lookupEventById_none {db : Db} {id : Bytes} (hid : id.length = 32)
    (h : db.lookupEventById id = none) : ∀ r ∈ db.event.rows, r.2.id ≠ id := by
  rintro ⟨lev, v⟩ hr (rfl : v.id = id)
  have hstart : (0 : Nat) < 2 ^ 64 := by norm_num
  have hmem : (makeKeyStringUint64 v.id v.createdAt, lev) ∈
      db.foreachUp .id (makeKeyStringUint64 v.id 0) 0 := by
    refine (mem_walkUp _ _ _ _).mpr ⟨(db.mem_entries _ _).mpr ⟨v, hr, by simp [indexKeys]⟩, ?_⟩
    rw [entryOrd_id _ _ _ hstart, entryOrd_id _ _ _ v.createdAt_lt]
    simp only [Prod.Lex.toLex_le_toLex, lt_self_iff_false, true_and, false_or]
    omega
  unfold lookupEventById at h
  split at h
  · rename_i hw
    rw [hw] at hmem
    simp at hmem
  · rename_i k lev' rest hw
    obtain ⟨⟨hmem', hge⟩, hmin⟩ := walkUp_head_min _ _ _ _ _ hw
    have hle := hmin _ ((mem_walkUp _ _ _ _).mp hmem).1 ((mem_walkUp _ _ _ _).mp hmem).2
    obtain ⟨v', hv', hk⟩ := (db.mem_entries _ _).mp hmem'
    simp only [indexKeys, List.mem_singleton] at hk
    subst hk
    rw [entryOrd_id _ _ _ hstart, entryOrd_id _ _ _ v'.createdAt_lt] at hge
    rw [entryOrd_id _ _ _ v'.createdAt_lt, entryOrd_id _ _ _ v.createdAt_lt] at hle
    have hs : v'.id = v.id := by
      simp only [Prod.Lex.toLex_le_toLex] at hge hle
      have h1 : v.id ≤ v'.id := by
        rcases hge with h | h
        · exact le_of_lt h
        · exact le_of_eq h.1
      have h2 : v'.id ≤ v.id := by
        rcases hle with h | h
        · exact le_of_lt h
        · exact le_of_eq h.1
      exact le_antisymm h2 h1
    rw [if_pos ((startsWith_makeKey _ _ _ (by rw [v'.length_id, v.length_id])).mpr hs)] at h
    rw [(db.event.lookup_eq_some_iff lev' v').mpr hv'] at h
    cases h

theorem eventExistsById_iff {db : Db} {id : Bytes} (hid : id.length = 32) :
    db.eventExistsById id = true ↔ ∃ r ∈ db.event.rows, r.2.id = id := by
  unfold eventExistsById
  cases h : db.lookupEventById id with
  | none =>
    simp only [Option.isSome_none, Bool.false_eq_true, false_iff]
    rintro ⟨r, hr, he⟩
    exact lookupEventById_none hid h r hr he
  | some r =>
    simp only [Option.isSome_some, true_iff]
    exact ⟨r, lookupEventById_some hid h⟩

/-- The deletion index answers whether a stored kind-5 event names the id. -/
theorem lookupDeletion_iff (db : Db) (id pubkey : Bytes) (hid : id.length = 32)
    (htags : ∀ r ∈ db.event.rows, ∀ t ∈ r.2.tags, t.1 = tagE → t.2.length = 32) :
    db.lookupDeletion (id ++ pubkey) = true ↔
      ∃ r ∈ db.event.rows, r.2.kind = 5 ∧ r.2.pubkey = pubkey ∧ (tagE, id) ∈ r.2.tags := by
  unfold lookupDeletion
  rw [List.any_eq_true]
  constructor
  · rintro ⟨⟨k, lev⟩, he, hk⟩
    obtain ⟨v, hv, hkey⟩ := (db.mem_entries _ _).mp he
    simp only [beq_iff_eq] at hk
    subst hk
    simp only [indexKeys, List.mem_filterMap] at hkey
    obtain ⟨⟨n, val⟩, ht, hkey⟩ := hkey
    split at hkey
    · rename_i hc
      obtain ⟨hn, h5⟩ := hc
      simp only at hn
      subst hn
      have hlen := htags _ hv _ ht rfl
      have hsplit := List.append_inj (Option.some.inj hkey) (by rw [hid]; exact hlen)
      simp only at hsplit
      refine ⟨_, hv, h5, hsplit.2, ?_⟩
      rw [← hsplit.1]
      exact ht
    · cases hkey
  · rintro ⟨⟨lev, v⟩, hv, h5, hpk, ht⟩
    refine ⟨(id ++ pubkey, lev), (db.mem_entries _ _).mpr ⟨v, hv, ?_⟩, by simp⟩
    simp only [indexKeys, List.mem_filterMap]
    exact ⟨(tagE, id), ht, by simp at h5 hpk; simp [h5, hpk]⟩

end Db

end Strfry
