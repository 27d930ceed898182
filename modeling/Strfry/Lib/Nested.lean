import Strfry.Lib.Assoc

/-!
# Containers of containers

A map from `κ` to maps from `μ`, as servers keep them per connection: `find` goes through
both levels, `eraseAt` drops the inner map with its last entry, and `emplaceAt` makes the
inner map when it is the first.  Every operation is described by what `find` answers
afterwards.
-/

namespace Strfry

abbrev Nested (κ μ β : Type) := Assoc κ (Assoc μ β)

namespace Nested

variable {κ μ β : Type} [DecidableEq κ] [DecidableEq μ] (m : Nested κ μ β)

def find (c : κ) (s : μ) : Option β := (m.find? c).bind fun row => row.find? s

/-- The entries of an outer key. -/
def row (c : κ) : Assoc μ β := (m.find? c).getD .empty

/-- Erase an entry, and the inner map when it has none left. -/
def eraseAt (c : κ) (s : μ) : Nested κ μ β :=
  let row := (row m c).erase s
  if row.isEmpty then m.erase c else m.set c row

/-- Add an entry unless the key is there. -/
def emplaceAt (c : κ) (s : μ) (v : β) : Nested κ μ β :=
  let m := m.tryEmplace c .empty
  m.set c ((row m c).tryEmplace s v)

/-- Assign to an entry that is there. -/
def setAt (c : κ) (s : μ) (v : β) : Nested κ μ β := m.set c ((row m c).set s v)

theorem find_eq_row (c : κ) (s : μ) : find m c s = (row m c).find? s := by
  unfold find row
  cases m.find? c <;> rfl

@[simp] theorem find_empty (c : κ) (s : μ) : find (.empty : Nested κ μ β) c s = none := rfl

theorem find_erase (c c' : κ) (s : μ) :
    find (Assoc.erase m c) c' s = if c' = c then none else find m c' s := by
  unfold find
  rw [Assoc.find?_erase]
  split
  · rfl
  · rfl

omit [DecidableEq μ] in
theorem row_tryEmplace (c c' : κ) : row (m.tryEmplace c .empty) c' = row m c' := by
  unfold row
  rw [Assoc.find?_tryEmplace]
  split
  · rename_i h
    subst h
    rfl
  · rfl

omit [DecidableEq μ] in
theorem row_set {c : κ} (h : (m.find? c).isSome) (r : Assoc μ β) (c' : κ) :
    row (m.set c r) c' = if c' = c then r else row m c' := by
  obtain ⟨old, hold⟩ := Option.isSome_iff_exists.mp h
  unfold row
  rw [Assoc.find?_set, hold]
  split
  · rfl
  · rfl

theorem find_tryEmplace (c c' : κ) (s : μ) : find (m.tryEmplace c .empty) c' s = find m c' s := by
  rw [find_eq_row, find_eq_row, row_tryEmplace]

theorem row_emplaceAt (c : κ) (s : μ) (v : β) (c' : κ) :
    row (emplaceAt m c s v) c' = if c' = c then (row m c).tryEmplace s v else row m c' := by
  have hsome : ((m.tryEmplace c .empty).find? c).isSome := by
    rw [Assoc.find?_tryEmplace, if_pos rfl]
    rfl
  unfold emplaceAt
  simp only [row_set _ hsome, row_tryEmplace]

theorem find_emplaceAt {c : κ} {s : μ} (h : find m c s = none) (v : β) (c' : κ) (s' : μ) :
    find (emplaceAt m c s v) c' s' = if c' = c ∧ s' = s then some v else find m c' s' := by
  rw [find_eq_row, row_emplaceAt]
  by_cases hc : c' = c
  · subst hc
    rw [find_eq_row] at h
    rw [if_pos rfl, Assoc.find?_tryEmplace, h, find_eq_row]
    simp only [true_and]
    rfl
  · rw [if_neg hc, if_neg (by tauto), find_eq_row]

theorem find_eraseAt {c : κ} {s : μ} {v : β} (h : find m c s = some v) (c' : κ) (s' : μ) :
    find (eraseAt m c s) c' s' = if c' = c ∧ s' = s then none else find m c' s' := by
  obtain ⟨r, hr, -⟩ := Option.bind_eq_some_iff.mp h
  have hrow : row m c = r := by
    unfold row
    rw [hr]
    rfl
  unfold eraseAt
  rw [hrow]
  by_cases hempty : (r.erase s).isEmpty = true
  · rw [if_pos hempty, find_erase]
    by_cases hc : c' = c
    · subst hc
      have hnone := Assoc.find?_of_isEmpty hempty s'
      rw [Assoc.find?_erase] at hnone
      rw [if_pos rfl, find_eq_row, hrow]
      by_cases hs : s' = s
      · rw [if_pos ⟨rfl, hs⟩]
      · rw [if_neg hs] at hnone
        rw [if_neg (by tauto), hnone]
    · rw [if_neg hc, if_neg (by tauto)]
  · rw [if_neg hempty, find_eq_row, row_set _ (by rw [hr]; rfl)]
    by_cases hc : c' = c
    · subst hc
      rw [if_pos rfl, Assoc.find?_erase, find_eq_row, hrow]
      simp only [true_and]
    · rw [if_neg hc, if_neg (by tauto), find_eq_row]

theorem size_row_eraseAt_le (c : κ) (s : μ) (c' : κ) :
    (row (eraseAt m c s) c').size ≤ (row m c').size := by
  unfold eraseAt
  simp only []
  by_cases hc : c' = c
  · subst hc
    split
    · unfold row
      rw [Assoc.find?_erase, if_pos rfl]
      exact Nat.zero_le _
    · cases hr : m.find? c' with
      | none =>
        unfold row
        rw [Assoc.find?_set, hr, if_pos rfl]
        exact Nat.zero_le _
      | some r =>
        rw [row_set _ (by rw [hr]; rfl), if_pos rfl]
        exact Assoc.size_erase_le _ _
  · split
    · unfold row
      rw [Assoc.find?_erase, if_neg hc]
    · unfold row
      rw [Assoc.find?_set, if_neg hc]

theorem find_setAt {c : κ} {s : μ} {old : β} (h : find m c s = some old) (v : β) (c' : κ) (s' : μ) :
    find (setAt m c s v) c' s' = if c' = c ∧ s' = s then some v else find m c' s' := by
  obtain ⟨r, hr, hs⟩ := Option.bind_eq_some_iff.mp h
  have hrow : row m c = r := by
    unfold row
    rw [hr]
    rfl
  unfold setAt
  rw [find_eq_row, row_set _ (by rw [hr]; rfl), hrow]
  by_cases hc : c' = c
  · subst hc
    rw [if_pos rfl, Assoc.find?_set, hs, find_eq_row, hrow]
    simp only [true_and]
    rfl
  · rw [if_neg hc, if_neg (by tauto), find_eq_row]

end Nested

end Strfry
