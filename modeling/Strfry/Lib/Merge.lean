import Mathlib.Data.List.Sort
import Mathlib.Order.Basic

/-!
# Merging sources that are read in portions

Several sources, each in strictly descending order, are merged through one queue.  A
source is read a portion at a time, and only when none of its entries is queued.  The
state is the queue `q`, whose entries carry the index of their source, and the lists `P`
of what the sources still hold.

`Merging` is the invariant that makes this a merge: a source that holds something has
something queued, and what is queued of a source stands above what it holds.  Then the
head of an ordered queue is a greatest entry of all that is left (`head_max`), so the
queue hands out

    L = x :: L'    with    L' a permutation of what is left afterwards

where `L` is all that is left, in order (`eq_cons_of_perm_max`).
-/

namespace Strfry

section

variable {α κ : Type} [LinearOrder κ] (ord : α → κ)

/-- The sources of `ready` have been read at least once since their last entry left the
queue. -/
structure Merging (ready : Nat → Prop) (q : List (Nat × α)) (P : List (List α)) : Prop where
  sorted : ∀ l ∈ P, l.Pairwise fun x y => ord y < ord x
  above : ∀ e ∈ q, ∀ l, P[e.1]? = some l → ∀ y ∈ l, ord y < ord e.2
  queued : ∀ j l, ready j → P[j]? = some l → l ≠ [] → ∃ e ∈ q, e.1 = j

/-- All that is left to hand out. -/
def Merging.contents (q : List (Nat × α)) (P : List (List α)) : List α := q.map Prod.snd ++ P.flatten

/-- A place of a list with one element put in. -/
theorem getElem?_set_cases {l : List α} {j i : Nat} {a b : α} (h : (l.set j a)[i]? = some b) :
    (i = j ∧ b = a) ∨ (i ≠ j ∧ l[i]? = some b) := by
  rw [List.getElem?_set] at h
  by_cases hij : j = i
  · rw [if_pos hij] at h
    split at h
    · cases h
      exact Or.inl ⟨hij.symm, rfl⟩
    · cases h
  · rw [if_neg hij] at h
    exact Or.inr ⟨fun he => hij he.symm, h⟩

/-- Reading the front `a` of a source takes `a` out of what the sources hold. -/
theorem flatten_set_perm (P : List (List α)) (j : Nat) (a b : List α) (h : P[j]? = some (a ++ b)) :
    P.flatten.Perm (a ++ (P.set j b).flatten) := by
  induction P generalizing j with
  | nil => simp at h
  | cons l P ih =>
    cases j with
    | zero =>
      simp only [List.getElem?_cons_zero, Option.some.injEq] at h
      subst h
      simp
    | succ j =>
      simp only [List.getElem?_cons_succ] at h
      simp only [List.flatten_cons, List.set_cons_succ]
      calc (l ++ P.flatten).Perm (l ++ (a ++ (P.set j b).flatten)) := (ih j h).append_left l
        _ = (l ++ a) ++ (P.set j b).flatten := (List.append_assoc _ _ _).symm
        List.Perm _ ((a ++ l) ++ (P.set j b).flatten) := List.perm_append_comm.append_right _
        _ = a ++ (l ++ (P.set j b).flatten) := List.append_assoc _ _ _

namespace Merging

variable {ord} {ready : Nat → Prop} {q : List (Nat × α)} {P : List (List α)}

theorem mono {ready' : Nat → Prop} (h : Merging ord ready q P) (hr : ∀ j, ready' j → ready j) :
    Merging ord ready' q P :=
  { h with queued := fun j l hj => h.queued j l (hr j hj) }

/-- Reading a portion of source `j` into the queue, wherever the entries go. -/
theorem collect (h : Merging ord ready q P) {j : Nat} {l : List α} (hj : P[j]? = some l) {d : Nat}
    (hd : 0 < d) {q' : List (Nat × α)} (hq : q'.Perm (q ++ (l.take d).map fun x => (j, x))) :
    Merging ord (fun i => ready i ∨ i = j) q' (P.set j (l.drop d)) := by
  have hlP : l ∈ P := List.mem_of_getElem? hj
  have hsplit : ∀ x ∈ l.take d, ∀ y ∈ l.drop d, ord y < ord x := by
    have hs := h.sorted l hlP
    rw [← List.take_append_drop d l] at hs
    exact (List.pairwise_append.mp hs).2.2
  refine ⟨fun l' hl' => ?_, fun e he l' hl' y hy => ?_, fun i l' hi hl' hne => ?_⟩
  · rcases List.mem_or_eq_of_mem_set hl' with hl' | rfl
    · exact h.sorted l' hl'
    · exact (h.sorted l hlP).sublist (List.drop_sublist _ _)
  · rcases List.mem_append.mp (hq.mem_iff.mp he) with he | he
    · rcases getElem?_set_cases hl' with ⟨hej, rfl⟩ | ⟨-, hl'⟩
      · exact h.above e he l (hej ▸ hj) y (List.mem_of_mem_drop hy)
      · exact h.above e he l' hl' y hy
    · obtain ⟨x, hx, rfl⟩ := List.mem_map.mp he
      rcases getElem?_set_cases hl' with ⟨-, rfl⟩ | ⟨hne, -⟩
      · exact hsplit x hx y hy
      · exact absurd rfl hne
  · rcases getElem?_set_cases hl' with ⟨rfl, rfl⟩ | ⟨hij, hl'⟩
    · -- the source still holds something, so the portion was not empty
      obtain ⟨x, xs, rfl⟩ : ∃ x xs, l = x :: xs := by
        cases l with
        | nil => simp at hne
        | cons x xs => exact ⟨x, xs, rfl⟩
      obtain ⟨k, rfl⟩ : ∃ k, d = k + 1 := ⟨d - 1, by omega⟩
      exact ⟨(i, x), hq.mem_iff.mpr (by simp), rfl⟩
    · obtain ⟨e, he, hei⟩ := h.queued i l' (hi.resolve_right hij) hl' hne
      exact ⟨e, hq.mem_iff.mpr (List.mem_append_left _ he), hei⟩

/-- Taking the head off; its source may now have nothing queued. -/
theorem pop {e : Nat × α} (h : Merging ord ready (e :: q) P) :
    Merging ord (fun i => ready i ∧ i ≠ e.1) q P := by
  refine ⟨h.sorted, fun e' he' => h.above e' (List.mem_cons_of_mem _ he'), fun j l hj hl hne => ?_⟩
  obtain ⟨e', he', hej⟩ := h.queued j l hj.1 hl hne
  rcases List.mem_cons.mp he' with rfl | he'
  · exact absurd hej.symm hj.2
  · exact ⟨e', he', hej⟩

/-- Taking the head off when its source has more queued. -/
theorem pop_same {e : Nat × α} (h : Merging ord ready (e :: q) P) (hmore : ∃ e' ∈ q, e'.1 = e.1) :
    Merging ord ready q P := by
  refine ⟨h.sorted, fun e' he' => h.above e' (List.mem_cons_of_mem _ he'), fun j l hj hl hne => ?_⟩
  obtain ⟨e', he', hej⟩ := h.queued j l hj hl hne
  rcases List.mem_cons.mp he' with rfl | he'
  · rw [← hej]
    exact hmore
  · exact ⟨e', he', hej⟩

/-- **The head of the queue is a greatest entry of all that is left.** -/
theorem head_max {e : Nat × α} (h : Merging ord ready (e :: q) P)
    (hready : ∀ j, j < P.length → ready j)
    (hq : (e :: q).Pairwise fun a b => ord b.2 ≤ ord a.2) :
    ∀ y ∈ contents q P, ord y ≤ ord e.2 := by
  have hle : ∀ e' ∈ e :: q, ord e'.2 ≤ ord e.2 := by
    intro e' he'
    rcases List.mem_cons.mp he' with rfl | he'
    · exact le_refl _
    · exact (List.pairwise_cons.mp hq).1 e' he'
  intro y hy
  rcases List.mem_append.mp hy with hy | hy
  · obtain ⟨e', he', rfl⟩ := List.mem_map.mp hy
    exact hle e' (List.mem_cons_of_mem _ he')
  · obtain ⟨l, hl, hyl⟩ := List.mem_flatten.mp hy
    obtain ⟨j, hj, rfl⟩ := List.getElem_of_mem hl
    have hget : P[j]? = some P[j] := List.getElem?_eq_getElem hj
    obtain ⟨e', he', rfl⟩ := h.queued j _ (hready j hj) hget (List.ne_nil_of_mem hyl)
    exact le_trans (le_of_lt (h.above e' he' _ hget y hyl)) (hle e' he')

omit [LinearOrder κ] in
/-- Reading a portion moves entries; what is left stays the same. -/
theorem contents_collect {j : Nat} {l : List α} (hj : P[j]? = some l) (d : Nat)
    {q' : List (Nat × α)} (hq : q'.Perm (q ++ (l.take d).map fun x => (j, x))) :
    (contents q' (P.set j (l.drop d))).Perm (contents q P) := by
  have hq : (q'.map Prod.snd).Perm (q.map Prod.snd ++ l.take d) := by
    have := hq.map Prod.snd
    rwa [List.map_append, List.map_map, show Prod.snd ∘ (fun x => (j, x)) = (id : α → α) from rfl,
      List.map_id] at this
  have hP := flatten_set_perm P j (l.take d) (l.drop d) (by rw [List.take_append_drop]; exact hj)
  calc (contents q' (P.set j (l.drop d))).Perm
        ((q.map Prod.snd ++ l.take d) ++ (P.set j (l.drop d)).flatten) := hq.append_right _
    _ = q.map Prod.snd ++ (l.take d ++ (P.set j (l.drop d)).flatten) := List.append_assoc _ _ _
    List.Perm _ (contents q P) := hP.symm.append_left _

end Merging

/-- An ordered list of entries of which `x` is a greatest begins with `x`. -/
theorem eq_cons_of_perm_max (hinj : Function.Injective ord) {L C : List α} {x : α}
    (hL : L.Pairwise fun a b => ord b ≤ ord a) (hp : L.Perm (x :: C))
    (hmax : ∀ y ∈ C, ord y ≤ ord x) : ∃ L', L = x :: L' ∧ L'.Perm C := by
  cases L with
  | nil => exact absurd hp (List.not_perm_nil_cons x C)
  | cons y L' =>
    have hyx : ord y ≤ ord x := by
      rcases List.mem_cons.mp (hp.mem_iff.mp List.mem_cons_self) with rfl | hy
      · exact le_refl _
      · exact hmax y hy
    have hxy : ord x ≤ ord y := by
      rcases List.mem_cons.mp (hp.mem_iff.mpr List.mem_cons_self) with rfl | hx
      · exact le_refl _
      · exact (List.pairwise_cons.mp hL).1 x hx
    have : y = x := hinj (le_antisymm hyx hxy)
    subst this
    exact ⟨L', rfl, List.perm_cons y |>.mp hp⟩

end

end Strfry
