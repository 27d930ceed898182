import Mathlib.Data.List.Sort
import Mathlib.Data.List.Basic
import Mathlib.Order.Interval.Finset.Nat
import Mathlib.Order.Basic

/-!
# Tables with integer keys

A table whose primary key is a positive integer handed out in increasing order
(an LMDB table with `MDB_INTEGERKEY`, read through rasgueadb).  The rows are kept
in key order, so walking the list is walking the table with a cursor:

* `lookup`, `delete`, `put` act on one key;
* `insertNext` stores under `1 +` the largest key present (`1` when empty);
* `lastId` is the largest key present (`0` when empty);
* `foreachFrom` visits the rows from a key on, in increasing key order.

The order of the rows is a field of `Table`, so a table out of order cannot be
built.
-/

namespace Strfry

structure Table (α : Type) where
  rows : List (Nat × α)
  sorted : rows.Pairwise fun a b => a.1 < b.1
  pos : ∀ r ∈ rows, 0 < r.1

namespace Table

variable {α : Type}

def empty : Table α := ⟨[], .nil, by simp⟩

instance : Inhabited (Table α) := ⟨empty⟩

/-- The keys present, in increasing order. -/
def keys (t : Table α) : List Nat := t.rows.map Prod.fst

def lookup (t : Table α) (k : Nat) : Option α := (t.rows.find? fun r => r.1 == k).map Prod.snd

/-- The largest key present, `0` for the empty table. -/
def lastId (t : Table α) : Nat := (t.rows.getLast?.map Prod.fst).getD 0

def foreachFrom (t : Table α) (start : Nat) : List (Nat × α) :=
  t.rows.filter fun r => start ≤ r.1

def delete (t : Table α) (k : Nat) : Table α where
  rows := t.rows.filter fun r => r.1 ≠ k
  sorted := t.sorted.filter _
  pos r hr := t.pos r (List.mem_of_mem_filter hr)

theorem le_lastId (t : Table α) (r : Nat × α) (hr : r ∈ t.rows) : r.1 ≤ t.lastId := by
  unfold lastId
  rcases List.eq_nil_or_concat t.rows with h | ⟨init, z, h⟩
  · rw [h] at hr; simp at hr
  · have hs := t.sorted
    rw [h] at hr hs ⊢
    rw [List.concat_eq_append] at hr hs ⊢
    simp only [List.getLast?_concat, Option.map_some, Option.getD_some]
    rcases List.mem_append.mp hr with hr | hr
    · exact Nat.le_of_lt ((List.pairwise_append.mp hs).2.2 r hr z (by simp))
    · simp only [List.mem_singleton] at hr
      exact le_of_eq (congrArg Prod.fst hr)

/-- `lastId` is the key of a row, or the table is empty. -/
theorem lastId_mem (t : Table α) : t.rows = [] ∧ t.lastId = 0 ∨ ∃ v, (t.lastId, v) ∈ t.rows := by
  unfold lastId
  rcases List.eq_nil_or_concat t.rows with h | ⟨init, z, h⟩
  · left; simp [h]
  · right
    rw [h, List.concat_eq_append]
    exact ⟨z.2, by simp⟩

/-- Store under the next free key. -/
def insertNext (t : Table α) (v : α) : Table α where
  rows := t.rows ++ [(t.lastId + 1, v)]
  sorted := by
    refine List.pairwise_append.mpr ⟨t.sorted, by simp, fun a ha b hb => ?_⟩
    simp only [List.mem_singleton] at hb
    have := t.le_lastId a ha
    rw [hb]
    exact Nat.lt_succ_of_le this
  pos r hr := by
    rcases List.mem_append.mp hr with hr | hr
    · exact t.pos r hr
    · simp only [List.mem_singleton] at hr
      rw [hr]
      exact Nat.succ_pos _

/-- Store under a given key, replacing what was there. -/
def putRows (k : Nat) (v : α) : List (Nat × α) → List (Nat × α)
  | [] => [(k, v)]
  | r :: rs => if k < r.1 then (k, v) :: r :: rs else if k = r.1 then (k, v) :: rs
      else r :: putRows k v rs

theorem mem_putRows (k : Nat) (v : α) (l : List (Nat × α)) (hl : l.Pairwise fun a b => a.1 < b.1)
    (x : Nat × α) : x ∈ putRows k v l ↔ x = (k, v) ∨ x ∈ l ∧ x.1 ≠ k := by
  induction l with
  | nil => simp [putRows]
  | cons r rs ih =>
    have hrs := List.pairwise_cons.mp hl
    unfold putRows
    split
    · rename_i hk
      constructor
      · intro h
        rcases List.mem_cons.mp h with h | h
        · exact Or.inl h
        · refine Or.inr ⟨h, ?_⟩
          rcases List.mem_cons.mp h with rfl | h
          · omega
          · have := hrs.1 x h; omega
      · rintro (h | ⟨h, -⟩)
        · exact List.mem_cons.mpr (Or.inl h)
        · exact List.mem_cons_of_mem _ h
    · split
      · rename_i hk
        constructor
        · intro h
          rcases List.mem_cons.mp h with h | h
          · exact Or.inl h
          · have := hrs.1 x h
            exact Or.inr ⟨List.mem_cons_of_mem _ h, by omega⟩
        · rintro (h | ⟨h, hne⟩)
          · exact List.mem_cons.mpr (Or.inl h)
          · rcases List.mem_cons.mp h with rfl | h
            · exact absurd hk.symm hne
            · exact List.mem_cons_of_mem _ h
      · rename_i hlt hne
        rw [List.mem_cons, ih hrs.2, List.mem_cons]
        constructor
        · rintro (rfl | h | ⟨h, h'⟩)
          · exact Or.inr ⟨Or.inl rfl, fun h => hne h.symm⟩
          · exact Or.inl h
          · exact Or.inr ⟨Or.inr h, h'⟩
        · rintro (h | ⟨rfl | h, h'⟩)
          · exact Or.inr (Or.inl h)
          · exact Or.inl rfl
          · exact Or.inr (Or.inr ⟨h, h'⟩)

theorem putRows_sorted (k : Nat) (v : α) (l : List (Nat × α))
    (hl : l.Pairwise fun a b => a.1 < b.1) : (putRows k v l).Pairwise fun a b => a.1 < b.1 := by
  induction l with
  | nil => simp [putRows]
  | cons r rs ih =>
    have hrs := List.pairwise_cons.mp hl
    unfold putRows
    split
    · rename_i hk
      refine List.pairwise_cons.mpr ⟨fun x hx => ?_, hl⟩
      rcases List.mem_cons.mp hx with rfl | hx
      · exact hk
      · exact Nat.lt_trans hk (hrs.1 x hx)
    · split
      · rename_i hk
        exact List.pairwise_cons.mpr ⟨fun x hx => hk ▸ hrs.1 x hx, hrs.2⟩
      · rename_i hlt hne
        refine List.pairwise_cons.mpr ⟨fun x hx => ?_, ih hrs.2⟩
        rcases (mem_putRows k v rs hrs.2 x).mp hx with rfl | ⟨hx, -⟩
        · show r.1 < k
          omega
        · exact hrs.1 x hx

def put (t : Table α) (k : Nat) (hk : 0 < k) (v : α) : Table α where
  rows := putRows k v t.rows
  sorted := putRows_sorted k v t.rows t.sorted
  pos r hr := by
    rcases (mem_putRows k v t.rows t.sorted r).mp hr with rfl | ⟨hr, -⟩
    · exact hk
    · exact t.pos r hr

/-! ## What the operations do to the rows -/

theorem row_unique (t : Table α) {k : Nat} {v w : α} (hv : (k, v) ∈ t.rows) (hw : (k, w) ∈ t.rows) :
    v = w := by
  have hnd : (t.rows.map Prod.fst).Nodup := List.pairwise_map.mpr (t.sorted.imp fun h => by omega)
  exact congrArg Prod.snd (List.inj_on_of_nodup_map hnd hv hw rfl)

theorem lookup_eq_some_iff (t : Table α) (k : Nat) (v : α) :
    t.lookup k = some v ↔ (k, v) ∈ t.rows := by
  unfold lookup
  constructor
  · intro h
    obtain ⟨r, hr, rfl⟩ := Option.map_eq_some_iff.mp h
    have hk := List.find?_some hr
    have hm := List.mem_of_find?_eq_some hr
    simp only [beq_iff_eq] at hk
    rw [← hk]
    exact hm
  · intro h
    cases hf : t.rows.find? (fun r => r.1 == k) with
    | none =>
      have := List.find?_eq_none.mp hf (k, v) h
      simp at this
    | some r =>
      have hk := List.find?_some hf
      have hm := List.mem_of_find?_eq_some hf
      simp only [beq_iff_eq] at hk
      have : (k, r.2) ∈ t.rows := by rw [← hk]; exact hm
      simp [t.row_unique this h]

theorem lookup_eq_none_iff (t : Table α) (k : Nat) : t.lookup k = none ↔ k ∉ t.keys := by
  unfold keys
  constructor
  · intro h hk
    obtain ⟨⟨k', v⟩, hr, rfl⟩ := List.mem_map.mp hk
    rw [(t.lookup_eq_some_iff k' v).mpr hr] at h
    cases h
  · intro h
    cases hl : t.lookup k with
    | none => rfl
    | some v =>
      exact absurd (List.mem_map.mpr ⟨(k, v), (t.lookup_eq_some_iff k v).mp hl, rfl⟩) h

theorem mem_keys (t : Table α) (k : Nat) : k ∈ t.keys ↔ ∃ v, (k, v) ∈ t.rows := by
  simp [keys]

@[simp] theorem rows_empty : (empty : Table α).rows = [] := rfl

@[simp] theorem keys_empty : (empty : Table α).keys = [] := rfl

@[simp] theorem lastId_empty : (empty : Table α).lastId = 0 := rfl

@[simp] theorem mem_insertNext (t : Table α) (v : α) (x : Nat × α) :
    x ∈ (t.insertNext v).rows ↔ x ∈ t.rows ∨ x = (t.lastId + 1, v) := by
  simp [insertNext]

@[simp] theorem mem_delete (t : Table α) (k : Nat) (x : Nat × α) :
    x ∈ (t.delete k).rows ↔ x ∈ t.rows ∧ x.1 ≠ k := by
  simp [delete]

@[simp] theorem mem_put (t : Table α) (k : Nat) (hk : 0 < k) (v : α) (x : Nat × α) :
    x ∈ (t.put k hk v).rows ↔ x = (k, v) ∨ x ∈ t.rows ∧ x.1 ≠ k :=
  mem_putRows k v t.rows t.sorted x

@[simp] theorem mem_foreachFrom (t : Table α) (start : Nat) (x : Nat × α) :
    x ∈ t.foreachFrom start ↔ x ∈ t.rows ∧ start ≤ x.1 := by
  simp [foreachFrom]

@[simp] theorem lastId_insertNext (t : Table α) (v : α) : (t.insertNext v).lastId = t.lastId + 1 := by
  simp [insertNext, lastId]

theorem lastId_le_of_keys (t : Table α) (m : Nat) (h : ∀ r ∈ t.rows, r.1 ≤ m) : t.lastId ≤ m := by
  rcases t.lastId_mem with ⟨-, h0⟩ | ⟨v, hv⟩
  · omega
  · exact h _ hv

/-- Deleting another key than the last one keeps the last one. -/
theorem lastId_delete_of_ne (t : Table α) (k : Nat) (hk : k ≠ t.lastId) :
    (t.delete k).lastId = t.lastId := by
  apply Nat.le_antisymm
  · exact lastId_le_of_keys _ _ fun r hr => t.le_lastId r ((t.mem_delete k r).mp hr).1
  · rcases t.lastId_mem with ⟨-, h0⟩ | ⟨v, hv⟩
    · omega
    · exact le_lastId (t.delete k) (t.lastId, v) ((t.mem_delete k _).mpr ⟨hv, fun h => hk h.symm⟩)

theorem keys_sorted (t : Table α) : t.keys.Pairwise (· < ·) := List.pairwise_map.mpr t.sorted

theorem keys_nodup (t : Table α) : t.keys.Nodup := t.keys_sorted.imp fun h => Nat.ne_of_lt h

theorem lastId_delete_le (t : Table α) (k : Nat) : (t.delete k).lastId ≤ t.lastId :=
  lastId_le_of_keys _ _ fun r hr => t.le_lastId r ((t.mem_delete k r).mp hr).1

/-- There are not more rows than keys up to the last one. -/
theorem length_rows_le (t : Table α) : t.rows.length ≤ t.lastId := by
  have hsub : t.keys.toFinset ⊆ Finset.Icc 1 t.lastId := by
    intro k hk
    obtain ⟨v, hv⟩ := (t.mem_keys k).mp (List.mem_toFinset.mp hk)
    exact Finset.mem_Icc.mpr ⟨t.pos _ hv, t.le_lastId _ hv⟩
  have hcard := Finset.card_le_card hsub
  rw [List.toFinset_card_of_nodup t.keys_nodup, Nat.card_Icc, Nat.add_sub_cancel] at hcard
  simpa [keys] using hcard

end Table

end Strfry
