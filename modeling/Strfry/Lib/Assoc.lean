import Mathlib.Data.List.Dedup
import Mathlib.Data.List.Nodup
import Mathlib.Data.List.TakeWhile
import Mathlib.Algebra.GroupWithZero.Nat
import Strfry.Lib.Order

/-!
# Keyed containers

`Assoc κ β` is what a hash map or a tree map holds: entries with distinct keys, in the
order an iteration visits them.  The order is not part of the meaning; two containers are
the same map when `find?` agrees (`Assoc.Same`), and every operation is described by what
`find?` answers afterwards.

`exact` is how an ordered map is searched for one key with `upper_bound`: step back from
the first greater key as long as the key is the one sought.
-/

namespace Strfry

structure Assoc (κ β : Type) where
  entries : List (κ × β)
  nodup : (entries.map Prod.fst).Nodup

namespace Assoc

variable {κ β : Type}

def empty : Assoc κ β := ⟨[], .nil⟩

instance : Inhabited (Assoc κ β) := ⟨empty⟩

def size (m : Assoc κ β) : Nat := m.entries.length

def isEmpty (m : Assoc κ β) : Bool := m.entries.isEmpty

def keys (m : Assoc κ β) : List κ := m.entries.map Prod.fst

variable [DecidableEq κ]

def find? (m : Assoc κ β) (k : κ) : Option β := (m.entries.find? fun e => e.1 == k).map Prod.snd

theorem find?_eq_some_iff (m : Assoc κ β) (k : κ) (v : β) : m.find? k = some v ↔ (k, v) ∈ m.entries := by
  unfold find?
  constructor
  · intro h
    obtain ⟨e, he, rfl⟩ := Option.map_eq_some_iff.mp h
    have hk : e.1 = k := by simpa using List.find?_some he
    rw [← hk]
    exact List.mem_of_find?_eq_some he
  · intro h
    cases hf : m.entries.find? fun e => e.1 == k with
    | none =>
      have := List.find?_eq_none.mp hf (k, v) h
      simp at this
    | some e =>
      have hk : e.1 = k := by simpa using List.find?_some hf
      have he := List.mem_of_find?_eq_some hf
      rw [List.inj_on_of_nodup_map m.nodup he h hk]
      rfl

theorem find?_eq_none_iff (m : Assoc κ β) (k : κ) : m.find? k = none ↔ k ∉ m.keys := by
  constructor
  · intro h hk
    obtain ⟨⟨k', v⟩, he, rfl⟩ := List.mem_map.mp hk
    rw [(m.find?_eq_some_iff k' v).mpr he] at h
    cases h
  · intro h
    cases hf : m.find? k with
    | none => rfl
    | some v => exact absurd (List.mem_map.mpr ⟨_, (m.find?_eq_some_iff k v).mp hf, rfl⟩) h

theorem mem_keys (m : Assoc κ β) (k : κ) : k ∈ m.keys ↔ ∃ v, m.find? k = some v := by
  constructor
  · intro h
    cases hf : m.find? k with
    | none => exact absurd h ((m.find?_eq_none_iff k).mp hf)
    | some v => exact ⟨v, rfl⟩
  · rintro ⟨v, hv⟩
    by_contra h
    rw [(m.find?_eq_none_iff k).mpr h] at hv
    cases hv

@[simp] theorem find?_empty (k : κ) : (empty : Assoc κ β).find? k = none := rfl

/-- Add an entry unless the key is there. -/
def tryEmplace (m : Assoc κ β) (k : κ) (v : β) : Assoc κ β :=
  if h : k ∈ m.keys then m
  else ⟨m.entries ++ [(k, v)], by
    rw [List.map_append]
    refine List.nodup_append.mpr ⟨m.nodup, by simp, fun a ha b hb hab => ?_⟩
    simp only [List.map_cons, List.map_nil, List.mem_singleton] at hb
    exact h (hb ▸ hab ▸ ha)⟩

def erase (m : Assoc κ β) (k : κ) : Assoc κ β :=
  ⟨m.entries.filter fun e => e.1 ≠ k, m.nodup.sublist (List.filter_sublist.map Prod.fst)⟩

/-- Assign to the entry of a key that is there. -/
def set (m : Assoc κ β) (k : κ) (v : β) : Assoc κ β :=
  ⟨m.entries.map fun e => if e.1 = k then (e.1, v) else e, by
    have : (m.entries.map fun e => if e.1 = k then (e.1, v) else e).map Prod.fst = m.keys := by
      rw [List.map_map]
      apply List.map_congr_left
      intro e _
      show (if e.1 = k then (e.1, v) else e).1 = e.1
      split
      · rfl
      · rfl
    rw [this]
    exact m.nodup⟩

theorem find?_tryEmplace (m : Assoc κ β) (k : κ) (v : β) (k' : κ) :
    (m.tryEmplace k v).find? k' = if k' = k then some ((m.find? k).getD v) else m.find? k' := by
  unfold tryEmplace
  by_cases h : k ∈ m.keys
  · rw [dif_pos h]
    obtain ⟨w, hw⟩ := (m.mem_keys k).mp h
    split
    · rename_i hk
      rw [hk, hw]
      rfl
    · rfl
  · rw [dif_neg h]
    have hnone := (m.find?_eq_none_iff k).mpr h
    apply Option.ext
    intro w
    rw [find?_eq_some_iff, List.mem_append, List.mem_singleton, ← find?_eq_some_iff]
    split
    · rename_i hk
      subst hk
      rw [hnone]
      simp [eq_comm]
    · rename_i hk
      simp [hk]

theorem find?_erase (m : Assoc κ β) (k k' : κ) :
    (m.erase k).find? k' = if k' = k then none else m.find? k' := by
  apply Option.ext
  intro w
  rw [find?_eq_some_iff]
  show (k', w) ∈ m.entries.filter _ ↔ _
  rw [List.mem_filter, ← find?_eq_some_iff]
  split
  · rename_i hk
    simp [hk]
  · rename_i hk
    simp [hk]

/-- Erase every key outside a list. -/
def retain (m : Assoc κ β) (l : List κ) : Assoc κ β := (m.keys.filter fun k => k ∉ l).foldl erase m

theorem find?_foldl_eraseKeys (l : List κ) (m : Assoc κ β) (k : κ) :
    (l.foldl erase m).find? k = if k ∈ l then none else m.find? k := by
  induction l generalizing m with
  | nil => simp
  | cons x l ih =>
    rw [List.foldl_cons, ih, find?_erase]
    by_cases hk : k = x
    · simp [hk]
    · simp [hk]

theorem find?_retain (m : Assoc κ β) (l : List κ) (k : κ) :
    (m.retain l).find? k = if k ∈ l then m.find? k else none := by
  rw [retain, find?_foldl_eraseKeys]
  by_cases hk : k ∈ l
  · simp [hk]
  · by_cases hm : k ∈ m.keys
    · simp [hk, hm]
    · simp [hk, hm, (m.find?_eq_none_iff k).mpr hm]

theorem find?_set (m : Assoc κ β) (k : κ) (v : β) (k' : κ) :
    (m.set k v).find? k' = if k' = k then (m.find? k).map fun _ => v else m.find? k' := by
  apply Option.ext
  intro w
  rw [find?_eq_some_iff]
  show (k', w) ∈ m.entries.map _ ↔ _
  rw [List.mem_map]
  by_cases hk : k' = k
  · subst hk
    rw [if_pos rfl]
    constructor
    · rintro ⟨e, he, hew⟩
      split at hew
      · rename_i hek
        cases hew
        rw [(m.find?_eq_some_iff e.1 e.2).mpr he]
        rfl
      · rename_i hek
        rw [hew] at hek
        exact absurd rfl hek
    · intro h
      obtain ⟨u, hu, rfl⟩ := Option.map_eq_some_iff.mp h
      exact ⟨(k', u), (m.find?_eq_some_iff k' u).mp hu, by simp⟩
  · rw [if_neg hk, find?_eq_some_iff]
    constructor
    · rintro ⟨e, he, hew⟩
      split at hew
      · rename_i hek
        cases hew
        exact absurd hek hk
      · rw [← hew]
        exact he
    · intro h
      exact ⟨(k', w), h, by simp [hk]⟩

theorem find?_of_isEmpty {m : Assoc κ β} (h : m.isEmpty = true) (k : κ) : m.find? k = none := by
  have : m.entries = [] := by simpa [isEmpty] using h
  unfold find?
  rw [this]
  rfl

theorem size_erase_le (m : Assoc κ β) (k : κ) : (m.erase k).size ≤ m.size := List.length_filter_le _ _

theorem size_tryEmplace_le (m : Assoc κ β) (k : κ) (v : β) : (m.tryEmplace k v).size ≤ m.size + 1 := by
  unfold tryEmplace size
  split
  · omega
  · rw [List.length_append]
    rfl

/-- The same map, whatever the order of iteration. -/
def Same (m m' : Assoc κ β) : Prop := ∀ k, m.find? k = m'.find? k

/-! ## Sums over the values -/

/-- The sum of `g` over the values. -/
def total (m : Assoc κ β) (g : β → Nat) : Nat := (m.entries.map fun e => g e.2).sum

omit [DecidableEq κ] in
theorem entries_nodup (m : Assoc κ β) : m.entries.Nodup := .of_map _ m.nodup

/-- The sum depends only on what the lookups give. -/
theorem total_congr {m m' : Assoc κ β} {g : β → Nat}
    (h : ∀ k, (m'.find? k).map g = (m.find? k).map g) : m'.total g = m.total g := by
  have hnd : ∀ a : Assoc κ β, (a.entries.map fun e => (e.1, g e.2)).Nodup := fun a =>
    .of_map Prod.fst (by rw [List.map_map]; exact a.nodup)
  have hmem : ∀ (a : Assoc κ β) k n, (k, n) ∈ (a.entries.map fun e => (e.1, g e.2)) ↔
      (a.find? k).map g = some n := by
    intro a k n
    rw [List.mem_map, Option.map_eq_some_iff]
    constructor
    · rintro ⟨e, he, hk⟩
      cases hk
      exact ⟨e.2, (a.find?_eq_some_iff e.1 e.2).mpr he, rfl⟩
    · rintro ⟨v, hv, rfl⟩
      exact ⟨(k, v), (a.find?_eq_some_iff k v).mp hv, rfl⟩
  have hperm : (m'.entries.map fun e => (e.1, g e.2)).Perm (m.entries.map fun e => (e.1, g e.2)) := by
    refine (List.perm_ext_iff_of_nodup (hnd m') (hnd m)).mpr fun ⟨k, n⟩ => ?_
    rw [hmem, hmem, h]
  have hsum := (hperm.map Prod.snd).sum_nat
  rw [List.map_map, List.map_map] at hsum
  exact hsum

theorem total_erase {m : Assoc κ β} {k : κ} {v : β} (h : m.find? k = some v) (g : β → Nat) :
    m.total g = g v + (m.erase k).total g := by
  have hperm : m.entries.Perm ((k, v) :: (m.erase k).entries) := by
    refine (List.perm_ext_iff_of_nodup m.entries_nodup ?_).mpr fun e => ?_
    · refine List.nodup_cons.mpr ⟨fun hin => ?_, entries_nodup _⟩
      exact absurd rfl (of_decide_eq_true (List.mem_filter.mp hin).2)
    · rw [List.mem_cons]
      show _ ↔ _ ∨ e ∈ m.entries.filter _
      rw [List.mem_filter, decide_eq_true_eq]
      constructor
      · intro he
        by_cases hk : e.1 = k
        · left
          subst hk
          rw [(m.find?_eq_some_iff e.1 e.2).mpr he] at h
          exact Prod.ext rfl (Option.some.inj h)
        · exact Or.inr ⟨he, hk⟩
      · rintro (rfl | he)
        · exact (m.find?_eq_some_iff k v).mp h
        · exact he.1
  exact (hperm.map fun e => g e.2).sum_nat

theorem total_tryEmplace {m : Assoc κ β} {k : κ} (h : m.find? k = none) (v : β) (g : β → Nat) :
    (m.tryEmplace k v).total g = g v + m.total g := by
  unfold tryEmplace total
  rw [dif_neg ((m.find?_eq_none_iff k).mp h), List.map_append, List.sum_append, Nat.add_comm]
  rfl

theorem le_total {m : Assoc κ β} {k : κ} {v : β} (h : m.find? k = some v) (g : β → Nat) :
    g v ≤ m.total g := by
  rw [total_erase h g]
  exact Nat.le_add_right _ _

/-- The keys `processMonitorsExact` steps through. -/
def exact [LinearOrder κ] (m : Assoc κ β) (key : κ) : List κ :=
  (walkDown id m.keys key).takeWhile fun k => k == key

/-- Stepping back from `upper_bound` finds the key when it is there, and nothing else. -/
theorem mem_exact [LinearOrder κ] (m : Assoc κ β) (key k : κ) :
    k ∈ m.exact key ↔ k = key ∧ key ∈ m.keys := by
  unfold exact
  constructor
  · intro h
    have hk : k = key := by simpa using List.mem_takeWhile_imp h
    subst hk
    exact ⟨rfl, ((mem_walkDown id m.keys k k).mp (List.takeWhile_subset _ h)).1⟩
  · rintro ⟨rfl, hk⟩
    have hmem := (mem_walkDown id m.keys k k).mpr ⟨hk, le_refl _⟩
    cases hw : walkDown id m.keys k with
    | nil =>
      rw [hw] at hmem
      simp at hmem
    | cons a rest =>
      -- the walk starts at the greatest key at or below, which is the key itself
      obtain ⟨⟨-, ha⟩, hmax⟩ := walkDown_head_max id m.keys k a rest hw
      have : a = k := le_antisymm ha (hmax k hk (le_refl _))
      subst this
      rw [List.takeWhile_cons_of_pos (by simp)]
      exact List.mem_cons_self

end Assoc

end Strfry
