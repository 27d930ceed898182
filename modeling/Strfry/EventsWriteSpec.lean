import Strfry.EventsWrite

/-!
# What writing an event does to the store

The invariant of the store (`StoreInv`): ids are unique, an address (pubkey, kind, `d`) has
one event at most, and the payloads are those of the stored events.  Under it the single
record `checkReplaceable` looks at is the event of the address, if there is one, and
`writeEvent` does one of four things (`WriteOutcome`): with `Removes packed v` for "`packed`
replaces `v` or deletes it", a written event leaves

    { r stored | ¬ Removes packed r }  and  packed under the next levId.
-/

namespace Strfry

/-- The address of an event of a replaceable or parameterized-replaceable kind. -/
def address (v : PackedEventView) : Option (Bytes × Nat × Bytes) :=
  if isReplaceableKind v.kind || isParamReplaceableKind v.kind then
    (firstD v).map fun d => (v.pubkey, v.kind, d)
  else none

/-- `D` is a deletion request of the author of `E` that names `E`. -/
def Names (D E : PackedEventView) : Prop :=
  D.kind = 5 ∧ D.pubkey = E.pubkey ∧ (tagE, E.id) ∈ D.tags

def SameAddress (v w : PackedEventView) : Prop := ∃ a, address v = some a ∧ address w = some a

/-- Writing `packed` takes `other` out. -/
def Removes (packed other : PackedEventView) : Prop := SameAddress packed other ∨ Names packed other

structure StoreInv (db : Db) : Prop where
  packed : ∀ r ∈ db.event.rows, Packed r.2
  ids : ∀ r ∈ db.event.rows, ∀ r' ∈ db.event.rows, r.2.id = r'.2.id → r = r'
  addresses : ∀ r ∈ db.event.rows, ∀ r' ∈ db.event.rows, SameAddress r.2 r'.2 → r = r'
  payloads : ∀ lev, lev ∈ db.eventPayload.keys ↔ lev ∈ db.event.keys

theorem StoreInv.empty : StoreInv {} where
  packed r hr := by simp at hr
  ids r hr := by simp at hr
  addresses r hr := by simp at hr
  payloads lev := Iff.rfl

/-! ## `checkReplaceable` -/

/-- The record of an address in the replace index. -/
theorem mem_replace_of_address {db : Db} {lev : Nat} {v : PackedEventView} (hv : (lev, v) ∈ db.event.rows)
    {pubkey d : Bytes} {kind : Nat} (ha : address v = some (pubkey, kind, d)) :
    (makeKeyStringUint64 (pubkey ++ d) kind, lev) ∈ db.entries .replace := by
  unfold address at ha
  split at ha
  · obtain ⟨d', hd, he⟩ := Option.map_eq_some_iff.mp ha
    cases he
    exact (db.mem_entries _ _).mpr ⟨v, hv, by simp [indexKeys, hd]⟩
  · cases ha

/-- A record of the replace index whose key is that of an address of a replaceable kind. -/
theorem address_of_replace {db : Db} {lev : Nat} {k : Bytes} (he : (k, lev) ∈ db.entries .replace)
    {packed : PackedEventView} {d : Bytes}
    (hkind : (isReplaceableKind packed.kind || isParamReplaceableKind packed.kind) = true)
    (hs : (ParsedKeyStringUint64.parse k).s = packed.pubkey ++ d)
    (hn : (ParsedKeyStringUint64.parse k).n = packed.kind) :
    ∃ v, (lev, v) ∈ db.event.rows ∧ address v = some (packed.pubkey, packed.kind, d) := by
  obtain ⟨v, hv, hk⟩ := (db.mem_entries _ _).mp he
  simp only [indexKeys, List.mem_map, Option.mem_toList] at hk
  obtain ⟨d', hd, rfl⟩ := hk
  rw [parse_makeKey _ _ v.kind_lt] at hs hn
  obtain ⟨hpk, hdd⟩ := List.append_inj hs (by rw [v.length_pubkey, packed.length_pubkey])
  have hn : v.kind = packed.kind := hn
  refine ⟨v, hv, ?_⟩
  unfold address
  rw [hn, if_pos hkind, hd, hpk, hdd]
  rfl

/-- The walk that looks for an address starts at its records, if there are any. -/
theorem replace_head {db : Db} (hfit : db.event.lastId < 2 ^ 64) {lev : Nat} {key : Bytes}
    (he : (key, lev) ∈ db.entries .replace) :
    ∃ lev' rest, db.foreachDown .replace key maxU64 = (key, lev') :: rest := by
  obtain ⟨v, hv, -⟩ := (db.mem_entries _ _).mp he
  have hle : lev ≤ maxU64 := by
    have := db.event.le_lastId _ hv
    unfold maxU64
    simp only at this
    omega
  have hstart : entryOrd .replace (key, lev) ≤ entryOrd .replace (key, maxU64) := by
    simp [entryOrd, Prod.Lex.toLex_le_toLex, hle]
  unfold Db.foreachDown
  cases hw : walkDown (entryOrd .replace) (db.entries .replace) (entryOrd .replace (key, maxU64)) with
  | nil =>
    have := (mem_walkDown (entryOrd .replace) _ _ _).mpr ⟨he, hstart⟩
    rw [hw] at this
    simp at this
  | cons e rest =>
    obtain ⟨⟨-, hle'⟩, hmax⟩ := walkDown_head_max _ _ _ _ _ hw
    have hge := hmax _ he hstart
    -- the keys of the first record and of the one sought are ordered both ways
    have hkey : e.1 = key := by
      simp only [entryOrd, Prod.Lex.toLex_le_toLex] at hge hle'
      apply le_antisymm
      · rcases hle' with h | h
        · exact le_of_lt h
        · exact le_of_eq h.1
      · rcases hge with h | h
        · exact le_of_lt h
        · exact le_of_eq h.1
    exact ⟨e.2, rest, by rw [← hkey]⟩

/-- **`checkReplaceable`** compares the event with the stored event of its address. -/
theorem checkReplaceable_spec {db : Db} (hinv : StoreInv db) (hfit : db.event.lastId < 2 ^ 64)
    (packed : PackedEventView) :
    ((∀ r ∈ db.event.rows, ¬ SameAddress packed r.2) ∧ checkReplaceable db packed = .ok (none, [])) ∨
    ∃ r ∈ db.event.rows, SameAddress packed r.2 ∧ checkReplaceable db packed =
      .ok (if supersedes packed r.2 then (none, [r.1]) else (some .replaced, [])) := by
  unfold checkReplaceable
  by_cases hkind : (isReplaceableKind packed.kind || isParamReplaceableKind packed.kind) = true
  · simp only [if_pos hkind]
    cases hd : firstD packed with
    | none =>
      refine Or.inl ⟨fun r hr hs => ?_, rfl⟩
      obtain ⟨a, ha, -⟩ := hs
      simp [address, hd] at ha
    | some d =>
      have ha : address packed = some (packed.pubkey, packed.kind, d) := by
        simp [address, hkind, hd]
      have hkey := parse_makeKey (packed.pubkey ++ d) packed.kind packed.kind_lt
      by_cases hstored : ∃ r ∈ db.event.rows, SameAddress packed r.2
      · obtain ⟨⟨lev, v⟩, hr, hs⟩ := hstored
        obtain ⟨a, ha', hv⟩ := id hs
        rw [ha] at ha'
        cases ha'
        obtain ⟨lev', rest, hw⟩ := replace_head hfit (mem_replace_of_address hr hv)
        have hmem : (makeKeyStringUint64 (packed.pubkey ++ d) packed.kind, lev') ∈ db.entries .replace := by
          have : _ ∈ db.foreachDown .replace (makeKeyStringUint64 (packed.pubkey ++ d) packed.kind) maxU64 :=
            hw ▸ List.mem_cons_self
          exact ((mem_walkDown _ _ _ _).mp this).1
        obtain ⟨v', hv', hav'⟩ := address_of_replace hmem hkind (by rw [hkey]) (by rw [hkey])
        have hsame := hinv.addresses _ hr _ hv' ⟨_, hv, hav'⟩
        cases hsame
        refine Or.inr ⟨(lev, v), hr, hs, ?_⟩
        simp only [hw, hkey, and_self, if_true, Db.lookupEventByLevId,
          (db.event.lookup_eq_some_iff lev v).mpr hr]
        rfl
      · refine Or.inl ⟨fun r hr hs => hstored ⟨r, hr, hs⟩, ?_⟩
        simp only []
        split
        · rfl
        · rename_i k lev rest hw
          rw [if_neg]
          rintro ⟨hs, hn⟩
          have hmem : (k, lev) ∈ db.entries .replace := by
            have : _ ∈ db.foreachDown .replace (makeKeyStringUint64 (packed.pubkey ++ d) packed.kind)
              maxU64 := hw ▸ List.mem_cons_self
            exact ((mem_walkDown _ _ _ _).mp this).1
          obtain ⟨v, hv, hav⟩ := address_of_replace hmem hkind hs hn
          exact hstored ⟨(lev, v), hv, _, ha, hav⟩
  · refine Or.inl ⟨fun r hr hs => ?_, by simp only [if_neg hkind]⟩
    obtain ⟨a, ha, -⟩ := hs
    simp [address, hkind] at ha

/-! ## `collectDeletionTargets` -/

theorem mem_collectDeletionTargets {db : Db} (hinv : StoreInv db) {packed : PackedEventView}
    (hp : Packed packed) (lev : Nat) : lev ∈ collectDeletionTargets db packed ↔
      ∃ v, (lev, v) ∈ db.event.rows ∧ packed.pubkey = v.pubkey ∧ (tagE, v.id) ∈ packed.tags := by
  unfold collectDeletionTargets
  rw [List.mem_filterMap]
  constructor
  · rintro ⟨⟨n, val⟩, ht, h⟩
    split at h
    · rename_i hn
      simp only at hn
      subst hn
      have hlen := (hp.tagOk _ ht).2 (Or.inl rfl)
      split at h
      · rename_i lev' other hl
        split at h
        · rename_i hpk
          cases h
          obtain ⟨hr, hid⟩ := Db.lookupEventById_some hlen hl
          exact ⟨other, hr, hpk.symm, hid ▸ ht⟩
        · cases h
      · cases h
    · cases h
  · rintro ⟨v, hv, hpk, ht⟩
    refine ⟨(tagE, v.id), ht, ?_⟩
    rw [if_pos rfl]
    cases hl : db.lookupEventById v.id with
    | none => exact absurd rfl (Db.lookupEventById_none v.length_id hl _ hv)
    | some r =>
      obtain ⟨hr, hid⟩ := Db.lookupEventById_some v.length_id hl
      have := hinv.ids r hr _ hv hid
      subst this
      simp [hpk]

/-! ## `deleteEvent` -/

section
variable (cache : NegentropyFilterCache)

theorem mem_deleteEvent (db : Db) (lev : Nat) (x : Nat × PackedEventView) :
    x ∈ (deleteEvent cache db lev).event.rows ↔ x ∈ db.event.rows ∧ x.1 ≠ lev := by
  unfold deleteEvent
  split
  · rename_i hl
    constructor
    · intro hx
      refine ⟨hx, fun he => ?_⟩
      exact (db.event.lookup_eq_none_iff lev).mp hl ((db.event.mem_keys lev).mpr ⟨x.2, he ▸ hx⟩)
    · exact fun hx => hx.1
  · rename_i v hl
    show x ∈ ((cache.update db v false).event.delete lev).rows ↔ _
    rw [(cache.update_sameTables db v false).event, Table.mem_delete]

theorem mem_payload_deleteEvent (db : Db) (lev : Nat)
    (hkeys : lev ∈ db.eventPayload.keys → lev ∈ db.event.keys) (x : Nat × Bytes) :
    x ∈ (deleteEvent cache db lev).eventPayload.rows ↔ x ∈ db.eventPayload.rows ∧ x.1 ≠ lev := by
  unfold deleteEvent
  split
  · rename_i hl
    constructor
    · intro hx
      refine ⟨hx, fun he => (db.event.lookup_eq_none_iff lev).mp hl (hkeys ?_)⟩
      exact (db.eventPayload.mem_keys lev).mpr ⟨x.2, he ▸ hx⟩
    · exact fun hx => hx.1
  · rename_i v hl
    show x ∈ ((cache.update db v false).eventPayload.delete lev).rows ↔ _
    rw [(cache.update_sameTables db v false).eventPayload, Table.mem_delete]

theorem lastId_deleteEvent (db : Db) (lev : Nat) (h : lev ≠ db.event.lastId) :
    (deleteEvent cache db lev).event.lastId = db.event.lastId := by
  unfold deleteEvent
  split
  · rfl
  · rename_i v hl
    show ((cache.update db v false).event.delete lev).lastId = _
    rw [(cache.update_sameTables db v false).event]
    exact Table.lastId_delete_of_ne _ _ h

/-- Deleting the events of a list. -/
theorem foldl_deleteEvent (l : List Nat) (db : Db)
    (hkeys : ∀ lev, lev ∈ db.eventPayload.keys ↔ lev ∈ db.event.keys) :
    (∀ x, x ∈ (l.foldl (deleteEvent cache) db).event.rows ↔ x ∈ db.event.rows ∧ x.1 ∉ l) ∧
    (∀ x, x ∈ (l.foldl (deleteEvent cache) db).eventPayload.rows ↔
      x ∈ db.eventPayload.rows ∧ x.1 ∉ l) ∧
    (db.event.lastId ∉ l → (l.foldl (deleteEvent cache) db).event.lastId = db.event.lastId) := by
  induction l generalizing db with
  | nil => simp
  | cons lev l ih =>
    have hev := mem_deleteEvent cache db lev
    have hpay := mem_payload_deleteEvent cache db lev (hkeys lev).mp
    obtain ⟨h1, h2, h3⟩ := ih (deleteEvent cache db lev) fun lev' => by
      rw [Table.mem_keys, Table.mem_keys]
      simp only [hev, hpay]
      have := hkeys lev'
      rw [Table.mem_keys, Table.mem_keys] at this
      constructor
      · rintro ⟨v, hv, hne⟩
        obtain ⟨w, hw⟩ := this.mp ⟨v, hv⟩
        exact ⟨w, hw, hne⟩
      · rintro ⟨v, hv, hne⟩
        obtain ⟨w, hw⟩ := this.mpr ⟨v, hv⟩
        exact ⟨w, hw, hne⟩
    rw [List.foldl_cons]
    refine ⟨fun x => ?_, fun x => ?_, fun hnot => ?_⟩
    · rw [h1, hev, List.mem_cons, not_or, and_assoc]
    · rw [h2, hpay, List.mem_cons, not_or, and_assoc]
    · rw [List.mem_cons, not_or] at hnot
      have hlast := lastId_deleteEvent cache db lev (Ne.symm hnot.1)
      rw [h3 (by rw [hlast]; exact hnot.2), hlast]

theorem mem_foldl_deleteEvent (l : List Nat) (db : Db) (x : Nat × PackedEventView) :
    x ∈ (l.foldl (deleteEvent cache) db).event.rows ↔ x ∈ db.event.rows ∧ x.1 ∉ l := by
  induction l generalizing db with
  | nil => simp
  | cons lev l ih => rw [List.foldl_cons, ih, mem_deleteEvent, List.mem_cons, not_or, and_assoc]

theorem mem_of_mem_foldl_deleteEvent (l : List Nat) (db : Db) {x : Nat × PackedEventView}
    (hx : x ∈ (l.foldl (deleteEvent cache) db).event.rows) : x ∈ db.event.rows := by
  induction l generalizing db with
  | nil => exact hx
  | cons lev l ih => exact ((mem_deleteEvent cache db lev x).mp (ih _ hx)).1

/-! ## `writeEvent` -/

omit cache in
/-- The event that is replaced is stored, and an event that loses is `replaced`. -/
theorem checkReplaceable_ok {db : Db} {packed : PackedEventView} {r : Option EventWriteStatus × List Nat}
    (h : checkReplaceable db packed = .ok r) :
    (∀ lev ∈ r.2, lev ∈ db.event.keys) ∧ (r.1 = none ∨ r.1 = some .replaced) := by
  unfold checkReplaceable at h
  simp only [] at h
  split at h
  · cases h
    simp
  split at h
  · cases h
    simp
  rename_i k v rest hw
  split at h
  · obtain ⟨other, hother, h⟩ := bind_eq_ok.mp h
    cases h
    split
    · refine ⟨fun lev hlev => ?_, Or.inl rfl⟩
      rw [List.mem_singleton.mp hlev]
      unfold Db.lookupEventByLevId at hother
      split at hother
      · cases hother
      · rename_i w hl
        exact (db.event.mem_keys v).mpr ⟨w, (db.event.lookup_eq_some_iff v w).mp hl⟩
    · simp
  · cases h
    simp

omit cache in
/-- What a deletion request deletes is stored. -/
theorem collectDeletionTargets_keys {db : Db} {packed : PackedEventView} :
    ∀ lev ∈ collectDeletionTargets db packed, lev ∈ db.event.keys := by
  intro lev hlev
  obtain ⟨t, -, ht⟩ := List.mem_filterMap.mp hlev
  split at ht
  · split at ht
    · rename_i lev' other hl
      split at ht
      · cases ht
        unfold Db.lookupEventById at hl
        split at hl
        · cases hl
        · split at hl
          · obtain ⟨v, hv, he⟩ := Option.map_eq_some_iff.mp hl
            cases he
            exact (db.event.mem_keys _).mpr ⟨_, (db.event.lookup_eq_some_iff _ _).mp hv⟩
          · cases hl
      · cases ht
    · cases ht
  · cases ht

/-- A turn that changes the store inserts an event with a new id under the next levId, and then
deletes some that were there. -/
theorem writeEvent_ops {db db' : Db} {prevId : Option Bytes} {ev ev' : EventToWrite}
    {packed : PackedEventView} (h : writeEvent cache db prevId ev packed = .ok (db', ev')) :
    (db' = db ∧ (ev.status = .pending → ev'.status ≠ .written)) ∨
      ((∀ r ∈ db.event.rows, r.2.id ≠ packed.id) ∧
        ev' = { ev with status := .written, levId := db.event.lastId + 1 } ∧
        ∃ l : List Nat, (∀ lev ∈ l, lev ∈ db.event.keys) ∧ db' =
          l.foldl (deleteEvent cache) (cache.update (insertEvent db packed ev.jsonStr) packed true)) := by
  unfold writeEvent at h
  split at h
  · cases h
    exact Or.inl ⟨rfl, fun _ => by simp⟩
  rename_i hdup
  split at h
  · cases h
    exact Or.inl ⟨rfl, fun _ => by simp⟩
  obtain ⟨r, hr, h⟩ := bind_eq_ok.mp h
  simp only [] at h
  split at h
  · cases h
    refine Or.inr ⟨fun r hr hid => hdup ?_, rfl, _, fun lev hlev => ?_, rfl⟩
    · rw [Bool.or_eq_true, Db.eventExistsById_iff packed.length_id]
      exact Or.inl ⟨r, hr, hid⟩
    · rcases List.mem_append.mp hlev with hlev | hlev
      · exact (checkReplaceable_ok hr).1 lev hlev
      · split at hlev
        · exact collectDeletionTargets_keys lev hlev
        · simp at hlev
  · rename_i hstatus
    obtain ⟨_, -, h⟩ := bind_eq_ok.mp h
    cases h
    refine Or.inl ⟨rfl, fun hpend hw => ?_⟩
    rcases (checkReplaceable_ok hr).2 with hres | hres
    · rw [hres] at hstatus
      exact hstatus hpend
    · rw [hres] at hw
      cases hw

/-- **The loop keeps what inserts and deletes keep.** -/
theorem writeLoop_keeps (I : Nat → Db → Prop) (hmono : ∀ k db, I (k + 1) db → I k db)
    (hins : ∀ k db packed jsonStr, I (k + 1) db → (∀ r ∈ db.event.rows, r.2.id ≠ packed.id) →
      I k (cache.update (insertEvent db packed jsonStr) packed true))
    (hdel : ∀ k db lev, I k db → I k (deleteEvent cache db lev))
    (l : List (EventToWrite × PackedEventView)) {k : Nat} {db db' : Db} {prevId : Option Bytes}
    {evs' : List EventToWrite} (hI : I (k + l.length) db)
    (h : writeLoop cache db prevId l = .ok (db', evs')) : I k db' := by
  have hdels : ∀ (k : Nat) (levs : List Nat) (db : Db), I k db → I k (levs.foldl (deleteEvent cache) db) := by
    intro k levs
    induction levs with
    | nil => exact fun db hI => hI
    | cons lev levs ih => exact fun db hI => ih _ (hdel k db lev hI)
  induction l generalizing db prevId evs' with
  | nil =>
    cases h
    exact hI
  | cons e l ih =>
    unfold writeLoop at h
    obtain ⟨⟨db1, ev1⟩, h1, h⟩ := bind_eq_ok.mp h
    obtain ⟨⟨db2, evs2⟩, h2, h⟩ := bind_eq_ok.mp h
    cases h
    refine ih ?_ h2
    rcases writeEvent_ops cache h1 with ⟨rfl, -⟩ | ⟨hfresh, -, levs, -, rfl⟩
    · exact hmono _ _ hI
    · exact hdels _ levs _ (hins _ db e.2 e.1.jsonStr hI hfresh)

/-- The store after `packed` is written. -/
structure Written (db db' : Db) (packed : PackedEventView) (jsonStr : Bytes) : Prop where
  event : ∀ x, x ∈ db'.event.rows ↔
    x ∈ db.event.rows ∧ ¬ Removes packed x.2 ∨ x = (db.event.lastId + 1, packed)
  payload : ∀ x, x ∈ db'.eventPayload.rows ↔
    (x ∈ db.eventPayload.rows ∧ ∃ v, (x.1, v) ∈ db.event.rows ∧ ¬ Removes packed v) ∨
      x = (db.event.lastId + 1, 0 :: jsonStr)
  lastId : db'.event.lastId = db.event.lastId + 1

/-- The store already has the event, or the batch had it just before. -/
def IsDuplicate (db : Db) (prevId : Option Bytes) (packed : PackedEventView) : Prop :=
  (∃ r ∈ db.event.rows, r.2.id = packed.id) ∨ prevId = some packed.id

/-- A stored event of the address is not superseded. -/
def IsReplaced (db : Db) (packed : PackedEventView) : Prop :=
  ∃ r ∈ db.event.rows, SameAddress packed r.2 ∧ supersedes packed r.2 = false

/-- What a turn of `writeEvents` does. -/
inductive WriteOutcome (db : Db) (prevId : Option Bytes) (ev : EventToWrite) (packed : PackedEventView) :
    Db → EventToWrite → Prop where
  | duplicate (h : IsDuplicate db prevId packed) :
      WriteOutcome db prevId ev packed db { ev with status := .duplicate }
  | deleted (hdup : ¬ IsDuplicate db prevId packed) (h : ∃ r ∈ db.event.rows, Names r.2 packed) :
      WriteOutcome db prevId ev packed db { ev with status := .deleted }
  | replaced (hdup : ¬ IsDuplicate db prevId packed) (hdel : ∀ r ∈ db.event.rows, ¬ Names r.2 packed)
      (h : IsReplaced db packed) : WriteOutcome db prevId ev packed db { ev with status := .replaced }
  | written (db' : Db) (hdup : ¬ IsDuplicate db prevId packed)
      (hdel : ∀ r ∈ db.event.rows, ¬ Names r.2 packed) (hrep : ¬ IsReplaced db packed)
      (h : Written db db' packed ev.jsonStr) :
      WriteOutcome db prevId ev packed db' { ev with status := .written, levId := db.event.lastId + 1 }

/-- Inserting the event and then deleting what it removes. -/
theorem written_of_targets {db : Db} (hinv : StoreInv db) {packed : PackedEventView} (jsonStr : Bytes)
    (l : List Nat) (hl : ∀ lev, lev ∈ l ↔ ∃ v, (lev, v) ∈ db.event.rows ∧ Removes packed v) :
    Written db (l.foldl (deleteEvent cache) (cache.update (insertEvent db packed jsonStr) packed true))
      packed jsonStr := by
  have hsame := cache.update_sameTables (insertEvent db packed jsonStr) packed true
  have hev : (cache.update (insertEvent db packed jsonStr) packed true).event =
      db.event.insertNext packed := hsame.event
  have hpay : (cache.update (insertEvent db packed jsonStr) packed true).eventPayload =
      db.eventPayload.put (db.event.lastId + 1) (Nat.succ_pos _) (0 :: jsonStr) := hsame.eventPayload
  have hnew : db.event.lastId + 1 ∉ l := by
    intro hin
    obtain ⟨v, hv, -⟩ := (hl _).mp hin
    have := db.event.le_lastId _ hv
    simp only at this
    omega
  have hkeep : ∀ x ∈ db.event.rows, x.1 ∉ l ↔ ¬ Removes packed x.2 := by
    intro x hx
    refine not_congr ⟨fun hin => ?_, fun hrm => (hl _).mpr ⟨x.2, hx, hrm⟩⟩
    obtain ⟨v, hv, hrm⟩ := (hl _).mp hin
    rwa [db.event.row_unique hx hv]
  have hbound : ∀ x ∈ db.eventPayload.rows, x.1 ≠ db.event.lastId + 1 := by
    intro x hx he
    obtain ⟨v, hv⟩ := (db.event.mem_keys _).mp
      ((hinv.payloads x.1).mp ((db.eventPayload.mem_keys _).mpr ⟨x.2, hx⟩))
    have := db.event.le_lastId _ hv
    simp only at this
    omega
  obtain ⟨h1, h2, h3⟩ := foldl_deleteEvent cache l
    (cache.update (insertEvent db packed jsonStr) packed true) fun lev => by
      rw [hev, hpay, Table.mem_keys, Table.mem_keys]
      simp only [Table.mem_put, Table.mem_insertNext, Prod.mk.injEq]
      have := hinv.payloads lev
      rw [Table.mem_keys, Table.mem_keys] at this
      constructor
      · rintro ⟨p, ⟨rfl, -⟩ | ⟨hp, -⟩⟩
        · exact ⟨packed, Or.inr ⟨rfl, rfl⟩⟩
        · obtain ⟨v, hv⟩ := this.mp ⟨p, hp⟩
          exact ⟨v, Or.inl hv⟩
      · rintro ⟨v, hv | ⟨rfl, -⟩⟩
        · obtain ⟨p, hp⟩ := this.mpr ⟨v, hv⟩
          exact ⟨p, Or.inr ⟨hp, hbound _ hp⟩⟩
        · exact ⟨_, Or.inl ⟨rfl, rfl⟩⟩
  rw [hev] at h1 h3
  rw [hpay] at h2
  refine ⟨fun x => ?_, fun x => ?_, ?_⟩
  · rw [h1, Table.mem_insertNext]
    constructor
    · rintro ⟨hx | rfl, hnot⟩
      · exact Or.inl ⟨hx, (hkeep x hx).mp hnot⟩
      · exact Or.inr rfl
    · rintro (⟨hx, hnot⟩ | rfl)
      · exact ⟨Or.inl hx, (hkeep x hx).mpr hnot⟩
      · exact ⟨Or.inr rfl, hnew⟩
  · rw [h2, Table.mem_put]
    constructor
    · rintro ⟨rfl | ⟨hx, -⟩, hnot⟩
      · exact Or.inr rfl
      · obtain ⟨v, hv⟩ := (db.event.mem_keys _).mp
          ((hinv.payloads x.1).mp ((db.eventPayload.mem_keys _).mpr ⟨x.2, hx⟩))
        exact Or.inl ⟨hx, v, hv, (hkeep _ hv).mp hnot⟩
    · rintro (⟨hx, v, hv, hnot⟩ | rfl)
      · exact ⟨Or.inr ⟨hx, hbound x hx⟩, (hkeep _ hv).mpr hnot⟩
      · exact ⟨Or.inl rfl, hnew⟩
  · rw [h3 (by rw [Table.lastId_insertNext]; exact hnew), Table.lastId_insertNext]

theorem isDuplicate_iff (db : Db) (prevId : Option Bytes) (packed : PackedEventView) :
    (db.eventExistsById packed.id || prevId == some packed.id) = true ↔ IsDuplicate db prevId packed := by
  unfold IsDuplicate
  rw [Bool.or_eq_true, Db.eventExistsById_iff packed.length_id, beq_iff_eq]

theorem StoreInv.lookupDeletion_iff {db : Db} (hinv : StoreInv db) (packed : PackedEventView) :
    db.lookupDeletion (packed.id ++ packed.pubkey) = true ↔ ∃ r ∈ db.event.rows, Names r.2 packed :=
  Db.lookupDeletion_iff db packed.id packed.pubkey packed.length_id fun r hr t ht he =>
    ((hinv.packed r hr).tagOk t ht).2 (Or.inl he)

/-- **One turn of `writeEvents`.** -/
theorem writeEvent_spec {db : Db} (hinv : StoreInv db) (hfit : db.event.lastId < 2 ^ 64)
    (prevId : Option Bytes) {ev : EventToWrite} (hev : ev.status = .pending) {packed : PackedEventView}
    (hp : Packed packed) : ∃ db' ev', writeEvent cache db prevId ev packed = .ok (db', ev') ∧
      WriteOutcome db prevId ev packed db' ev' := by
  unfold writeEvent
  by_cases hdup : IsDuplicate db prevId packed
  · rw [if_pos ((isDuplicate_iff db prevId packed).mpr hdup)]
    exact ⟨_, _, rfl, .duplicate hdup⟩
  rw [if_neg ((isDuplicate_iff db prevId packed).not.mpr hdup)]
  by_cases hdel : ∃ r ∈ db.event.rows, Names r.2 packed
  · rw [if_pos ((hinv.lookupDeletion_iff packed).mpr hdel)]
    exact ⟨_, _, rfl, .deleted hdup hdel⟩
  rw [if_neg ((hinv.lookupDeletion_iff packed).not.mpr hdel)]
  have hdel : ∀ r ∈ db.event.rows, ¬ Names r.2 packed := fun r hr hn => hdel ⟨r, hr, hn⟩
  have htargets : ∀ lev, lev ∈ (if isDeletionKind packed.kind = true then
      collectDeletionTargets db packed else []) ↔ ∃ v, (lev, v) ∈ db.event.rows ∧ Names packed v := by
    intro lev
    by_cases h5 : isDeletionKind packed.kind = true
    · have h5' : packed.kind = 5 := by simpa [isDeletionKind] using h5
      rw [if_pos h5, mem_collectDeletionTargets hinv hp]
      simp [Names, h5']
    · have h5' : packed.kind ≠ 5 := by simpa [isDeletionKind] using h5
      simp [h5, Names, h5']
  rcases checkReplaceable_spec hinv hfit packed with ⟨hnone, hcheck⟩ | ⟨r, hr, hsame, hcheck⟩
  · rw [hcheck]
    refine ⟨_, _, by simp only [hev]; rfl, .written _ hdup hdel ?_ ?_⟩
    · rintro ⟨r, hr, hs, -⟩
      exact hnone r hr hs
    · refine written_of_targets cache hinv _ _ fun lev => ?_
      rw [List.nil_append, htargets]
      constructor
      · rintro ⟨v, hv, hn⟩
        exact ⟨v, hv, Or.inr hn⟩
      · rintro ⟨v, hv, hs | hn⟩
        · exact absurd hs (hnone _ hv)
        · exact ⟨v, hv, hn⟩
  · -- an event with an address is no deletion request
    have hno5 : ∀ v, ¬ Names packed v := by
      rintro v ⟨h5, -⟩
      obtain ⟨a, ha, -⟩ := hsame
      rw [address, h5] at ha
      cases ha
    rw [hcheck]
    by_cases hsup : supersedes packed r.2 = true
    · rw [if_pos hsup]
      refine ⟨_, _, by simp only [hev]; rfl, .written _ hdup hdel ?_ ?_⟩
      · rintro ⟨r', hr', hs', hf⟩
        obtain ⟨a, ha, har⟩ := hsame
        obtain ⟨a', ha', har'⟩ := hs'
        rw [ha] at ha'
        cases ha'
        rw [hinv.addresses r' hr' r hr ⟨_, har', har⟩, hsup] at hf
        cases hf
      · refine written_of_targets cache hinv _ _ fun lev => ?_
        rw [List.mem_append, List.mem_singleton, htargets]
        constructor
        · rintro (rfl | ⟨v, hv, hn⟩)
          · exact ⟨r.2, hr, Or.inl hsame⟩
          · exact ⟨v, hv, Or.inr hn⟩
        · rintro ⟨v, hv, hs | hn⟩
          · obtain ⟨a, ha, har⟩ := hsame
            obtain ⟨a', ha', hav⟩ := hs
            rw [ha] at ha'
            cases ha'
            rw [← hinv.addresses _ hv r hr ⟨_, hav, har⟩]
            exact Or.inl rfl
          · exact Or.inr ⟨v, hv, hn⟩
    · rw [if_neg hsup]
      have hnil : (if isDeletionKind packed.kind = true then collectDeletionTargets db packed else []) =
          [] := by
        refine List.eq_nil_iff_forall_not_mem.mpr fun lev hin => ?_
        obtain ⟨v, -, hn⟩ := (htargets lev).mp hin
        exact hno5 v hn
      refine ⟨_, _, ?_, .replaced hdup hdel ⟨r, hr, hsame, by simpa using hsup⟩⟩
      simp only [hnil, List.append_nil]
      rfl

/-! ## The filters of the trees -/

theorem deleteEvent_negentropyFilter (db : Db) (lev : Nat) :
    (deleteEvent cache db lev).negentropyFilter = db.negentropyFilter := by
  unfold deleteEvent
  split
  · rfl
  · exact (cache.update_sameTables db _ false).negentropyFilter

end

/-- Writers leave the records of the filters alone. -/
theorem writeEvents_negentropyFilter [Golpe] [TaoJson] [StdSort] {db db' : Db}
    {c c' : NegentropyFilterCache} {evs evs' : List EventToWrite}
    (h : writeEvents db c evs = .ok (db', c', evs')) : db'.negentropyFilter = db.negentropyFilter := by
  unfold writeEvents at h
  obtain ⟨l, -, h⟩ := bind_eq_ok.mp h
  obtain ⟨c1, -, h⟩ := bind_eq_ok.mp h
  obtain ⟨⟨db1, evs1⟩, hloop, h⟩ := bind_eq_ok.mp h
  cases h
  refine writeLoop_keeps (k := 0) _ (fun _ d => d.negentropyFilter = db.negentropyFilter) (fun k d hd => hd)
    (fun k d packed jsonStr hd _ => ?_) (fun k d lev hd => ?_) _ rfl hloop
  · exact (NegentropyFilterCache.update_sameTables _ _ _ _).negentropyFilter.trans hd
  · exact (deleteEvent_negentropyFilter _ d lev).trans hd

/-- The views of a batch are of its events. -/
theorem viewBatch_pending {evs : List EventToWrite} {l : List (EventToWrite × PackedEventView)}
    (hevs : ∀ ev ∈ evs, ev.status = .pending) (h : viewBatch evs = .ok l) :
    ∀ e ∈ l, e.1.status = .pending := by
  intro e he
  obtain ⟨ev, hev, hview⟩ := (mapM_eq_ok h).2 e he
  cases hv : PackedEventView.ofBytes ev.packedStr with
  | error err =>
    rw [hv] at hview
    cases hview
  | ok v =>
    rw [hv] at hview
    cases hview
    exact hevs ev hev

/-- A batch of packed events has views. -/
theorem viewBatch_total (evs : List EventToWrite)
    (h : ∀ ev ∈ evs, ∃ v, PackedEventView.ofBytes ev.packedStr = .ok v) : ∃ l, viewBatch evs = .ok l ∧
      l.map Prod.fst = evs ∧ ∀ e ∈ l, e.2.buf = e.1.packedStr := by
  induction evs with
  | nil => exact ⟨[], rfl, rfl, by simp⟩
  | cons ev evs ih =>
    obtain ⟨l, hl, hmap, hbuf⟩ := ih fun ev' hev' => h ev' (List.mem_cons_of_mem _ hev')
    obtain ⟨v, hv⟩ := h ev List.mem_cons_self
    refine ⟨(ev, v) :: l, ?_, by simp [hmap], fun e he => ?_⟩
    · unfold viewBatch at hl ⊢
      rw [List.mapM_cons, hv, hl]
      rfl
    · rcases List.mem_cons.mp he with rfl | he
      · exact PackedEventView.ofBytes_buf hv
      · exact hbuf e he

end Strfry
