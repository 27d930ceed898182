import Strfry.Db
import Strfry.NostrFilter
import Strfry.Lib.Assoc

/-!
# The filter cache of the negentropy trees

`NegentropyFilterCache` (`NegentropyFilterCache.h`): a writer's compiled copy of the
`NegentropyFilter` table, with an index from kinds to the filters that may match.  It is
compiled again when the modification counter in the database has changed (`freshenCache`).
`update` is the callback `ctx` hands out: it inserts an event into, or erases it from, the
trees of the filters that match.
-/

namespace Strfry

namespace Db

/-- `insert` of the BTree of a tree: an item that is there stays. -/
def insertItem (db : Db) (treeId : Nat) (item : Nat × Bytes) : Db :=
  { db with negentropy := Function.update db.negentropy treeId (insert item (db.negentropy treeId)) }

/-- `erase` of the BTree of a tree: an item that is not there is not missed. -/
def eraseItem (db : Db) (treeId : Nat) (item : Nat × Bytes) : Db :=
  { db with negentropy := Function.update db.negentropy treeId ((db.negentropy treeId).erase item) }

end Db

/-- What a tree holds of an event. -/
def PackedEventView.item (v : PackedEventView) : Nat × Bytes := (v.createdAt, v.id)

structure FilterInfo where
  f : NostrFilter
  treeId : Nat

structure NegentropyFilterCache where
  filters : List FilterInfo := []
  modificationCounter : Nat := 0
  kindToFilterIdx : Assoc Nat (List Nat) := .empty
  noKindFilterIdxs : List Nat := []

/-- `tao::json::from_string`. -/
def parseJson [TaoJson] (s : Bytes) : Except Err Json :=
  match TaoJson.fromString s with
  | some v => .ok v
  | none => .error .badJson

namespace NegentropyFilterCache

/-- The filters of the `NegentropyFilter` table, compiled. -/
def loadFilters [Golpe] [TaoJson] (txn : Db) : Except Err (List FilterInfo) :=
  txn.negentropyFilter.rows.mapM fun r => do
    let f ← NostrFilter.ofJson (← parseJson r.2) maxU64
    return ⟨f, r.1⟩

/-- `kindToFilterIdx[kind].push_back(i)`. -/
def pushIdx (i : Nat) (m : Assoc Nat (List Nat)) (kind : Nat) : Assoc Nat (List Nat) :=
  let m := m.tryEmplace kind []
  m.set kind ((m.find? kind).getD [] ++ [i])

/-- One turn of the loop that builds the dispatch index. -/
def addDispatch (c : NegentropyFilterCache) (fi : FilterInfo × Nat) : NegentropyFilterCache :=
  match fi.1.f.kinds with
  | some kinds => { c with kindToFilterIdx := kinds.items.foldl (pushIdx fi.2) c.kindToFilterIdx }
  | none => { c with noKindFilterIdxs := c.noKindFilterIdxs ++ [fi.2] }

/-- The cache of these filters. -/
def compiled (filters : List FilterInfo) (modificationCounter : Nat) : NegentropyFilterCache :=
  { filters.zipIdx.foldl addDispatch { filters := filters } with
    modificationCounter := modificationCounter }

def freshenCache [Golpe] [TaoJson] (c : NegentropyFilterCache) (txn : Db) :
    Except Err NegentropyFilterCache :=
  let curr := txn.negentropyModificationCounter
  if curr = c.modificationCounter then .ok c
  else do
    let filters ← loadFilters txn
    return compiled filters curr

/-- The filters tried for an event: those of its kind, then those without kinds. -/
def tried (c : NegentropyFilterCache) (ev : PackedEventView) : List Nat :=
  (c.kindToFilterIdx.find? ev.kind).getD [] ++ c.noKindFilterIdxs

def tryFilter (c : NegentropyFilterCache) (ev : PackedEventView) (insert : Bool) (db : Db) (i : Nat) :
    Db :=
  match c.filters[i]? with
  | none => db
  | some filter =>
    if filter.f.doesMatch ev then
      if insert then db.insertItem filter.treeId ev.item else db.eraseItem filter.treeId ev.item
    else db

/-- `updateNegentropy`. -/
def update (c : NegentropyFilterCache) (db : Db) (ev : PackedEventView) (insert : Bool) : Db :=
  (c.tried ev).foldl (c.tryFilter ev insert) db

/-- Nothing but the trees changes. -/
structure SameTables (db db' : Db) : Prop where
  event : db'.event = db.event
  eventPayload : db'.eventPayload = db.eventPayload
  negentropyFilter : db'.negentropyFilter = db.negentropyFilter
  compressionDictionary : db'.compressionDictionary = db.compressionDictionary
  counter : db'.negentropyModificationCounter = db.negentropyModificationCounter

theorem tryFilter_sameTables (c : NegentropyFilterCache) (ev : PackedEventView) (insert : Bool)
    (db : Db) (i : Nat) : SameTables db (c.tryFilter ev insert db i) := by
  unfold tryFilter
  split
  · exact ⟨rfl, rfl, rfl, rfl, rfl⟩
  · split
    · split
      · exact ⟨rfl, rfl, rfl, rfl, rfl⟩
      · exact ⟨rfl, rfl, rfl, rfl, rfl⟩
    · exact ⟨rfl, rfl, rfl, rfl, rfl⟩

theorem SameTables.trans {a b c : Db} (h : SameTables a b) (h' : SameTables b c) : SameTables a c :=
  ⟨h'.event.trans h.event, h'.eventPayload.trans h.eventPayload,
    h'.negentropyFilter.trans h.negentropyFilter,
    h'.compressionDictionary.trans h.compressionDictionary, h'.counter.trans h.counter⟩

/-- **Frame** of `update`. -/
theorem update_sameTables (c : NegentropyFilterCache) (db : Db) (ev : PackedEventView)
    (insert : Bool) : SameTables db (c.update db ev insert) := by
  unfold update
  generalize c.tried ev = l
  induction l generalizing db with
  | nil => exact ⟨rfl, rfl, rfl, rfl, rfl⟩
  | cons i l ih => exact (tryFilter_sameTables c ev insert db i).trans (ih _)

/-! ## The filters that are tried -/

theorem mem_pushIdx (items : List Nat) (i i' k : Nat) (m : Assoc Nat (List Nat)) :
    i' ∈ ((items.foldl (pushIdx i) m).find? k).getD [] ↔
      i' ∈ (m.find? k).getD [] ∨ (i' = i ∧ k ∈ items) := by
  induction items generalizing m with
  | nil => simp
  | cons a items ih =>
    rw [List.foldl_cons, ih]
    have hstep : i' ∈ ((pushIdx i m a).find? k).getD [] ↔
        i' ∈ (m.find? k).getD [] ∨ (i' = i ∧ k = a) := by
      unfold pushIdx
      simp only [Assoc.find?_set, Assoc.find?_tryEmplace, if_true]
      by_cases hk : k = a
      · subst hk
        simp
      · simp [hk]
    rw [hstep, List.mem_cons]
    constructor
    · rintro ((h | ⟨h, h'⟩) | ⟨h, h'⟩)
      · exact Or.inl h
      · exact Or.inr ⟨h, Or.inl h'⟩
      · exact Or.inr ⟨h, Or.inr h'⟩
    · rintro (h | ⟨h, h' | h'⟩)
      · exact Or.inl (Or.inl h)
      · exact Or.inl (Or.inr ⟨h, h'⟩)
      · exact Or.inr ⟨h, h'⟩

/-- The filter may match events of this kind. -/
def MayMatchKind (f : NostrFilter) (kind : Nat) : Prop := ∀ kinds, f.kinds = some kinds → kind ∈ kinds.items

theorem mem_tried_foldl (l : List (FilterInfo × Nat)) (c : NegentropyFilterCache) (ev : PackedEventView)
    (i : Nat) : i ∈ (l.foldl addDispatch c).tried ev ↔
      i ∈ c.tried ev ∨ ∃ fi, (fi, i) ∈ l ∧ MayMatchKind fi.f ev.kind := by
  induction l generalizing c with
  | nil => simp
  | cons x l ih =>
    have hstep : i ∈ (addDispatch c x).tried ev ↔
        i ∈ c.tried ev ∨ (i = x.2 ∧ MayMatchKind x.1.f ev.kind) := by
      unfold addDispatch tried MayMatchKind
      cases hk : x.1.f.kinds with
      | none =>
        simp only [List.mem_append, List.mem_singleton, reduceCtorEq, false_implies, implies_true,
          and_true, or_assoc]
      | some kinds =>
        simp only [List.mem_append, mem_pushIdx, Option.some.injEq, forall_eq']
        constructor
        · rintro ((h | h) | h)
          · exact Or.inl (Or.inl h)
          · exact Or.inr h
          · exact Or.inl (Or.inr h)
        · rintro ((h | h) | h)
          · exact Or.inl (Or.inl h)
          · exact Or.inr h
          · exact Or.inl (Or.inr h)
    rw [List.foldl_cons, ih, hstep, or_assoc]
    refine or_congr_right ?_
    constructor
    · rintro (⟨rfl, h⟩ | ⟨fi, hfi, h⟩)
      · exact ⟨x.1, List.mem_cons_self, h⟩
      · exact ⟨fi, List.mem_cons_of_mem _ hfi, h⟩
    · rintro ⟨fi, hfi, h⟩
      rcases List.mem_cons.mp hfi with rfl | hfi
      · exact Or.inl ⟨rfl, h⟩
      · exact Or.inr ⟨fi, hfi, h⟩

theorem filters_foldl (l : List (FilterInfo × Nat)) (c : NegentropyFilterCache) :
    (l.foldl addDispatch c).filters = c.filters := by
  induction l generalizing c with
  | nil => rfl
  | cons x l ih =>
    rw [List.foldl_cons, ih]
    unfold addDispatch
    split
    · rfl
    · rfl

@[simp] theorem filters_compiled (filters : List FilterInfo) (n : Nat) :
    (compiled filters n).filters = filters := filters_foldl _ _

theorem mem_tried_compiled (filters : List FilterInfo) (n : Nat) (ev : PackedEventView) (i : Nat) :
    i ∈ (compiled filters n).tried ev ↔
      ∃ fi, filters[i]? = some fi ∧ MayMatchKind fi.f ev.kind := by
  have h := mem_tried_foldl filters.zipIdx { filters := filters } ev i
  have hnone : i ∉ ({ filters := filters } : NegentropyFilterCache).tried ev := by
    simp [tried]
  simp only [hnone, false_or, List.mem_zipIdx_iff_getElem?] at h
  exact h

/-! ## What an update does to a tree -/

/-- Some filter that is tried puts the event into the tree. -/
def Touches (c : NegentropyFilterCache) (ev : PackedEventView) (l : List Nat) (t : Nat) : Prop :=
  ∃ i ∈ l, ∃ fi, c.filters[i]? = some fi ∧ fi.treeId = t ∧ fi.f.doesMatch ev = true

/-- A tree with the event put in or taken out. -/
def changed (insert : Bool) (item : Nat × Bytes) (items : Finset (Nat × Bytes)) : Finset (Nat × Bytes) :=
  if insert then Insert.insert item items else items.erase item

theorem changed_changed (insert : Bool) (item : Nat × Bytes) (items : Finset (Nat × Bytes)) :
    changed insert item (changed insert item items) = changed insert item items := by
  unfold changed
  split
  · simp
  · simp

theorem negentropy_tryFilter (c : NegentropyFilterCache) (ev : PackedEventView) (insert : Bool) (db : Db)
    (i t : Nat) : (Touches c ev [i] t → (c.tryFilter ev insert db i).negentropy t =
        changed insert ev.item (db.negentropy t)) ∧
      (¬ Touches c ev [i] t → (c.tryFilter ev insert db i).negentropy t = db.negentropy t) := by
  unfold Touches tryFilter
  cases hfi : c.filters[i]? with
  | none => simp [hfi]
  | some fi =>
    by_cases hm : fi.f.doesMatch ev = true
    · by_cases ht : t = fi.treeId
      · subst ht
        cases insert with
        | true => simp [hfi, hm, changed, Db.insertItem]
        | false => simp [hfi, hm, changed, Db.eraseItem]
      · have ht' : fi.treeId ≠ t := Ne.symm ht
        cases insert with
        | true => simp [hfi, hm, ht', Db.insertItem, Function.update_of_ne ht]
        | false => simp [hfi, hm, ht', Db.eraseItem, Function.update_of_ne ht]
    · simp [hfi, hm]

theorem negentropy_foldl (c : NegentropyFilterCache) (ev : PackedEventView) (insert : Bool) (l : List Nat)
    (db : Db) (t : Nat) : (Touches c ev l t → (l.foldl (c.tryFilter ev insert) db).negentropy t =
        changed insert ev.item (db.negentropy t)) ∧
      (¬ Touches c ev l t → (l.foldl (c.tryFilter ev insert) db).negentropy t = db.negentropy t) := by
  induction l generalizing db with
  | nil => simp [Touches]
  | cons i l ih =>
    obtain ⟨h1, h2⟩ := negentropy_tryFilter c ev insert db i t
    obtain ⟨ih1, ih2⟩ := ih (c.tryFilter ev insert db i)
    have hcons : Touches c ev (i :: l) t ↔ Touches c ev [i] t ∨ Touches c ev l t := by
      simp [Touches, or_and_right, exists_or]
    rw [List.foldl_cons, hcons]
    refine ⟨fun h => ?_, fun h => ?_⟩
    · by_cases hl : Touches c ev l t
      · rw [ih1 hl]
        by_cases hi : Touches c ev [i] t
        · rw [h1 hi, changed_changed]
        · rw [h2 hi]
      · rw [ih2 hl, h1 (h.resolve_right hl)]
    · rw [not_or] at h
      rw [ih2 h.2, h2 h.1]

/-- **What `update` does to a tree**, for a cache whose filters are those of the table: the event is
put into, or taken out of, the trees whose filter matches it. -/
theorem negentropy_update (filters : List FilterInfo) (n : Nat) (db : Db) (ev : PackedEventView)
    (insert : Bool) (t : Nat) {f : NostrFilter} (hf : ⟨f, t⟩ ∈ filters)
    (hone : ∀ fi ∈ filters, fi.treeId = t → fi.f = f) :
    ((compiled filters n).update db ev insert).negentropy t =
      if f.doesMatch ev then changed insert ev.item (db.negentropy t) else db.negentropy t := by
  obtain ⟨h1, h2⟩ := negentropy_foldl (compiled filters n) ev insert ((compiled filters n).tried ev) db t
  unfold update
  by_cases hm : f.doesMatch ev = true
  · rw [if_pos hm, h1]
    obtain ⟨i, hi, hget⟩ := List.getElem_of_mem hf
    have hsome : filters[i]? = some ⟨f, t⟩ := by rw [List.getElem?_eq_getElem hi, hget]
    refine ⟨i, (mem_tried_compiled filters n ev i).mpr ⟨_, hsome, ?_⟩, _,
      by rw [filters_compiled]; exact hsome, rfl, hm⟩
    exact ((f.doesMatch_iff ev).mp hm).kinds
  · rw [if_neg hm, h2]
    rintro ⟨i, -, fi, hget, ht, hm'⟩
    rw [filters_compiled] at hget
    rw [hone fi (List.mem_of_getElem? hget) ht] at hm'
    exact hm hm'

/-- Trees without a filter in the cache are left alone. -/
theorem negentropy_update_of_ne (filters : List FilterInfo) (n : Nat) (db : Db) (ev : PackedEventView)
    (insert : Bool) (t : Nat) (hne : ∀ fi ∈ filters, fi.treeId ≠ t) :
    ((compiled filters n).update db ev insert).negentropy t = db.negentropy t := by
  refine (negentropy_foldl (compiled filters n) ev insert _ db t).2 ?_
  rintro ⟨i, -, fi, hget, ht, -⟩
  rw [filters_compiled] at hget
  exact hne fi (List.mem_of_getElem? hget) ht

end NegentropyFilterCache

/-- The filters of the trees can be compiled. -/
def Compiles [Golpe] [TaoJson] (db : Db) : Prop :=
  ∃ filters, NegentropyFilterCache.loadFilters db = .ok filters

theorem Compiles.freshenCache [Golpe] [TaoJson] {db : Db} (h : Compiles db) (c : NegentropyFilterCache) :
    ∃ c', c.freshenCache db = .ok c' := by
  obtain ⟨filters, hf⟩ := h
  unfold NegentropyFilterCache.freshenCache
  simp only [hf]
  split
  · exact ⟨c, rfl⟩
  · exact ⟨_, rfl⟩

end Strfry
