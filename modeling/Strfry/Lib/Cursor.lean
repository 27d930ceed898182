import Strfry.Lib.Table

/-!
# Following a table

A reader goes through a table in the order of its keys and keeps a cursor, the key of the row it saw
last; whenever it comes back it goes on behind it.  In between the table may change as long as its
last key does not go back and nothing is stored at or below it (`Table.Advances`).  `Table.Follows` is
what the reader then has: rows seen once each, in order, and none passed over.
-/

namespace Strfry

namespace Table

variable {α : Type} {t t' : Table α} {first cursor : Nat} {seen : List Nat} {r : Nat × α}
  {rest : List (Nat × α)}

/-- What is as old as the table was is what was there. -/
structure Advances (t t' : Table α) : Prop where
  lastId : t.lastId ≤ t'.lastId
  rows : ∀ r ∈ t'.rows, r.1 ≤ t.lastId → r ∈ t.rows

/-- A reader that began behind the key `first` has `seen` these keys. -/
structure Follows (t : Table α) (first cursor : Nat) (seen : List Nat) : Prop where
  cursor_le : cursor ≤ t.lastId
  first_le : first ≤ cursor
  sorted : seen.Pairwise (· < ·)
  range : ∀ k ∈ seen, first < k ∧ k ≤ cursor
  all : ∀ r ∈ t.rows, first < r.1 → r.1 ≤ cursor → r.1 ∈ seen

/-- The next row, and what is left behind it. -/
theorem foreachFrom_cons {n : Nat} (h : t.foreachFrom n = r :: rest) :
    (r ∈ t.rows ∧ n ≤ r.1) ∧ (∀ x ∈ t.rows, n ≤ x.1 → r.1 ≤ x.1) ∧ t.foreachFrom (r.1 + 1) = rest := by
  have hmem : r ∈ t.foreachFrom n := by rw [h]; exact List.mem_cons_self
  have hr := (mem_foreachFrom t n r).mp hmem
  have hsorted : (r :: rest).Pairwise fun a b => a.1 < b.1 := by
    rw [← h]
    exact t.sorted.filter _
  obtain ⟨hlt, -⟩ := List.pairwise_cons.mp hsorted
  refine ⟨hr, fun x hx hn => ?_, ?_⟩
  · have hin := (mem_foreachFrom t n x).mpr ⟨hx, hn⟩
    rw [h] at hin
    obtain rfl | hin := List.mem_cons.mp hin
    · exact Nat.le_refl _
    · exact Nat.le_of_lt (hlt x hin)
  · have hfilter : t.foreachFrom (r.1 + 1) = (t.foreachFrom n).filter fun x => r.1 + 1 ≤ x.1 := by
      unfold foreachFrom
      rw [List.filter_filter]
      refine List.filter_congr fun x _ => ?_
      rw [← Bool.decide_and, decide_eq_decide]
      omega
    rw [hfilter, h, List.filter_cons_of_neg (by simp), List.filter_eq_self]
    intro x hx
    exact decide_eq_true (hlt x hx)

theorem Follows.init (t : Table α) : Follows t t.lastId t.lastId [] :=
  ⟨Nat.le_refl _, Nat.le_refl _, .nil, by simp, fun _ _ h h' => absurd h (Nat.not_lt.mpr h')⟩

/-- While the reader is away. -/
theorem Follows.advance (h : Follows t first cursor seen) (ha : Advances t t') : Follows t' first cursor seen where
  cursor_le := Nat.le_trans h.cursor_le ha.lastId
  first_le := h.first_le
  sorted := h.sorted
  range := h.range
  all r hr hs hc := h.all r (ha.rows r hr (Nat.le_trans hc h.cursor_le)) hs hc

/-- The next row is seen. -/
theorem Follows.visit (h : Follows t first cursor seen) (hn : t.foreachFrom (cursor + 1) = r :: rest) :
    Follows t first r.1 (seen ++ [r.1]) ∧ t.foreachFrom (r.1 + 1) = rest := by
  obtain ⟨⟨hr, hlt⟩, hnext, hrest⟩ := foreachFrom_cons hn
  have hfirst := h.first_le
  refine ⟨⟨t.le_lastId r hr, by omega, ?_, fun k hk => ?_, fun x hx hs hc => ?_⟩, hrest⟩
  · refine List.pairwise_append.mpr ⟨h.sorted, List.pairwise_singleton _ _, fun a ha b hb => ?_⟩
    have hle := (h.range a ha).2
    rw [List.mem_singleton.mp hb]
    omega
  · obtain hk | hk := List.mem_append.mp hk
    · have hk := h.range k hk
      omega
    · rw [List.mem_singleton.mp hk]
      omega
  · by_cases hle : x.1 ≤ cursor
    · exact List.mem_append_left _ (h.all x hx hs hle)
    · have hge := hnext x hx (by omega)
      have heq : x.1 = r.1 := by omega
      exact List.mem_append_right _ (List.mem_singleton.mpr heq)

/-- A reader that has come to the end has seen every row. -/
theorem Follows.caught_up (h : Follows t first cursor seen) (hn : t.foreachFrom (cursor + 1) = [])
    (hr : r ∈ t.rows) (hs : first < r.1) : r.1 ∈ seen := by
  refine h.all r hr hs (Nat.le_of_not_lt fun hlt => ?_)
  have hin := (mem_foreachFrom t (cursor + 1) r).mpr ⟨hr, hlt⟩
  rw [hn] at hin
  cases hin

end Table

end Strfry
