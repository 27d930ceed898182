import Mathlib.Data.List.Sort
import Mathlib.Data.List.Dedup
import Mathlib.Order.Basic

/-!
# Ordered walks and sorting

What the rest of the development takes from ordered containers and algorithms:

* `walkDown ord es start`: what a cursor visits that seeks to the last entry at or
  below `start` and steps backwards; `walkUp` the same forwards from the first entry
  at or above `start`.  Entries come in the order of `ord`, each once.
* `filter_append_filter_not`: in a descending list a predicate that holds upwards is
  a prefix, so the entries under one key form one block of the walk.
* `upperBound`: the binary search of `std::upper_bound` over positions.
* `StdSort`: a sorting function, of which only what `std::sort` promises is known
  (a permutation, in order; nothing about entries that compare equal).
-/

namespace Strfry

section Walk

variable {ε κ : Type} [DecidableEq ε] [LinearOrder κ] (ord : ε → κ)

/-- Entries at or below `start`, greatest first. -/
def walkDown (es : List ε) (start : κ) : List ε :=
  (es.dedup.filter fun e => ord e ≤ start).insertionSort fun a b => ord b ≤ ord a

/-- Entries at or above `start`, least first. -/
def walkUp (es : List ε) (start : κ) : List ε :=
  (es.dedup.filter fun e => start ≤ ord e).insertionSort fun a b => ord a ≤ ord b

theorem mem_walkDown (es : List ε) (start : κ) (e : ε) :
    e ∈ walkDown ord es start ↔ e ∈ es ∧ ord e ≤ start := by
  unfold walkDown
  rw [(List.perm_insertionSort _ _).mem_iff]
  simp

theorem mem_walkUp (es : List ε) (start : κ) (e : ε) :
    e ∈ walkUp ord es start ↔ e ∈ es ∧ start ≤ ord e := by
  unfold walkUp
  rw [(List.perm_insertionSort _ _).mem_iff]
  simp

theorem nodup_walkDown (es : List ε) (start : κ) : (walkDown ord es start).Nodup := by
  unfold walkDown
  rw [(List.perm_insertionSort _ _).nodup_iff]
  exact es.nodup_dedup.filter _

theorem nodup_walkUp (es : List ε) (start : κ) : (walkUp ord es start).Nodup := by
  unfold walkUp
  rw [(List.perm_insertionSort _ _).nodup_iff]
  exact es.nodup_dedup.filter _

theorem walkDown_pairwise_ge (es : List ε) (start : κ) :
    (walkDown ord es start).Pairwise fun a b => ord b ≤ ord a := by
  unfold walkDown
  have : Std.Total fun a b : ε => ord b ≤ ord a := ⟨fun a b => le_total _ _⟩
  have : IsTrans ε fun a b : ε => ord b ≤ ord a := ⟨fun a b c h h' => le_trans h' h⟩
  exact List.pairwise_insertionSort _ _

theorem walkUp_pairwise_le (es : List ε) (start : κ) :
    (walkUp ord es start).Pairwise fun a b => ord a ≤ ord b := by
  unfold walkUp
  have : Std.Total fun a b : ε => ord a ≤ ord b := ⟨fun a b => le_total _ _⟩
  have : IsTrans ε fun a b : ε => ord a ≤ ord b := ⟨fun a b c h h' => le_trans h h'⟩
  exact List.pairwise_insertionSort _ _

/-- When no two entries share a place, a walk is strictly ordered. -/
theorem walkDown_pairwise_gt (es : List ε) (start : κ)
    (hinj : ∀ a ∈ es, ∀ b ∈ es, ord a = ord b → a = b) :
    (walkDown ord es start).Pairwise fun a b => ord b < ord a := by
  refine (List.pairwise_iff_forall_sublist.mpr fun {a b} hab => ?_)
  have hle := List.pairwise_iff_forall_sublist.mp (walkDown_pairwise_ge ord es start) hab
  have hne : a ≠ b := List.pairwise_iff_forall_sublist.mp (nodup_walkDown ord es start) hab
  have ha := (mem_walkDown ord es start a).mp (hab.subset (by simp))
  have hb := (mem_walkDown ord es start b).mp (hab.subset (by simp))
  exact lt_of_le_of_ne hle fun h => hne (hinj a ha.1 b hb.1 h.symm)

/-- Starting lower is leaving out what stands above. -/
theorem walkDown_filter (es : List ε) (start start' : κ) (h : start' ≤ start)
    (hinj : ∀ a ∈ es, ∀ b ∈ es, ord a = ord b → a = b) :
    walkDown ord es start' = (walkDown ord es start).filter fun e => ord e ≤ start' := by
  have : Std.Irrefl fun a b : ε => ord b < ord a := ⟨fun a => lt_irrefl _⟩
  have : Std.Antisymm fun a b : ε => ord b < ord a := ⟨fun a b h h' => absurd h (lt_asymm h')⟩
  refine List.Pairwise.eq_of_mem_iff (walkDown_pairwise_gt ord es start' hinj)
    ((walkDown_pairwise_gt ord es start hinj).filter _) fun e => ?_
  rw [mem_walkDown, List.mem_filter, mem_walkDown]
  simp only [decide_eq_true_eq]
  constructor
  · rintro ⟨he, hs⟩
    exact ⟨⟨he, le_trans hs h⟩, hs⟩
  · rintro ⟨⟨he, -⟩, hs⟩
    exact ⟨he, hs⟩

/-- A walk started at one of its own entries goes on from there. -/
theorem walkDown_from_entry (es : List ε) (start : κ)
    (hinj : ∀ a ∈ es, ∀ b ∈ es, ord a = ord b → a = b) (l : List ε) (e : ε) (rest : List ε)
    (h : walkDown ord es start = l ++ e :: rest) : walkDown ord es (ord e) = e :: rest := by
  have hp := walkDown_pairwise_gt ord es start hinj
  have he : e ∈ walkDown ord es start := by rw [h]; simp
  rw [walkDown_filter ord es start (ord e) ((mem_walkDown ord es start e).mp he).2 hinj, h]
  rw [h] at hp
  obtain ⟨-, hp2, hp3⟩ := List.pairwise_append.mp hp
  have hl : l.filter (fun x => decide (ord x ≤ ord e)) = [] := by
    rw [List.filter_eq_nil_iff]
    intro x hx
    simpa using hp3 x hx e (by simp)
  have hr : rest.filter (fun x => decide (ord x ≤ ord e)) = rest := by
    rw [List.filter_eq_self]
    intro x hx
    simpa using le_of_lt ((List.pairwise_cons.mp hp2).1 x hx)
  simp [List.filter_append, hl, hr]

/-- The first entry of a downward walk is a greatest one. -/
theorem walkDown_head_max (es : List ε) (start : κ) (e : ε) (rest : List ε)
    (h : walkDown ord es start = e :: rest) :
    (e ∈ es ∧ ord e ≤ start) ∧ ∀ e' ∈ es, ord e' ≤ start → ord e' ≤ ord e := by
  refine ⟨(mem_walkDown ord es start e).mp (by rw [h]; exact List.mem_cons_self), ?_⟩
  intro e' he' hs
  have hm := (mem_walkDown ord es start e').mpr ⟨he', hs⟩
  have hp := walkDown_pairwise_ge ord es start
  rw [h] at hm hp
  rcases List.mem_cons.mp hm with rfl | hm
  · exact le_refl _
  · exact (List.pairwise_cons.mp hp).1 e' hm

/-- The first entry of an upward walk is a least one. -/
theorem walkUp_head_min (es : List ε) (start : κ) (e : ε) (rest : List ε)
    (h : walkUp ord es start = e :: rest) :
    (e ∈ es ∧ start ≤ ord e) ∧ ∀ e' ∈ es, start ≤ ord e' → ord e ≤ ord e' := by
  refine ⟨(mem_walkUp ord es start e).mp (by rw [h]; exact List.mem_cons_self), ?_⟩
  intro e' he' hs
  have hm := (mem_walkUp ord es start e').mpr ⟨he', hs⟩
  have hp := walkUp_pairwise_le ord es start
  rw [h] at hm hp
  rcases List.mem_cons.mp hm with rfl | hm
  · exact le_refl _
  · exact (List.pairwise_cons.mp hp).1 e' hm

end Walk

/-- In a list ordered by `r`, a predicate that passes to whatever comes before is a
prefix. -/
theorem filter_append_filter_not {α : Type} (r : α → α → Prop) (p : α → Bool) (l : List α)
    (hl : l.Pairwise r) (hp : ∀ a ∈ l, ∀ b ∈ l, r a b → p b = true → p a = true) :
    l = l.filter p ++ l.filter fun x => !p x := by
  induction l with
  | nil => rfl
  | cons a l ih =>
    have hc := List.pairwise_cons.mp hl
    have ih' := ih hc.2 fun x hx y hy =>
      hp x (List.mem_cons_of_mem _ hx) y (List.mem_cons_of_mem _ hy)
    by_cases ha : p a = true
    · simp only [List.filter_cons, ha, if_true, Bool.not_true, Bool.false_eq_true, if_false,
        List.cons_append]
      rw [← ih']
    · -- nothing after `a` satisfies `p`
      have hnone : l.filter p = [] := by
        rw [List.filter_eq_nil_iff]
        intro b hb hpb
        exact ha (hp a List.mem_cons_self b (List.mem_cons_of_mem _ hb) (hc.1 b hb) hpb)
      have hall : (l.filter fun x => !p x) = l := by
        conv_rhs => rw [ih']
        rw [hnone, List.nil_append]
      simp [ha, hnone, hall]

/-! ## Binary search -/

/-- The loop of `std::upper_bound` over positions `[first, first + count)`; `comp i` says
that the sought value is below the value at `i`. -/
def upperBound (comp : Nat → Bool) : Nat → Nat → Nat → Nat
  | 0, first, _ => first
  | fuel + 1, first, count =>
    if count > 0 then
      let step := count / 2
      let curr := first + step
      if comp curr then upperBound comp fuel first step
      else upperBound comp fuel (curr + 1) (count - (step + 1))
    else first

/-- The search stays among the positions it was given. -/
theorem upperBound_le (comp : Nat → Bool) (fuel first count : Nat) :
    upperBound comp fuel first count ≤ first + count := by
  induction fuel generalizing first count with
  | zero => exact Nat.le_add_right first count
  | succ fuel ih =>
    unfold upperBound
    split
    · dsimp only
      split
      · have := ih first (count / 2)
        omega
      · have := ih (first + count / 2 + 1) (count - (count / 2 + 1))
        omega
    · exact Nat.le_add_right first count

/-- The search ends at the first position where `comp` holds. -/
theorem upperBound_spec (comp : Nat → Bool) (n : Nat)
    (hmono : ∀ i j, i ≤ j → j < n → comp i = true → comp j = true) :
    ∀ (fuel first count : Nat), count ≤ fuel → first + count ≤ n →
      (∀ i, i < first → comp i = false) → (∀ i, first + count ≤ i → i < n → comp i = true) →
      upperBound comp fuel first count ≤ n ∧
      (∀ i, i < upperBound comp fuel first count → comp i = false) ∧
      (∀ i, upperBound comp fuel first count ≤ i → i < n → comp i = true) := by
  intro fuel
  induction fuel with
  | zero =>
    intro first count hf hn hlo hhi
    have : count = 0 := by omega
    subst this
    exact ⟨hn, hlo, hhi⟩
  | succ fuel ih =>
    intro first count hf hn hlo hhi
    unfold upperBound
    by_cases hc : count > 0
    · rw [if_pos hc]
      by_cases hcomp : comp (first + count / 2) = true
      · simp only [hcomp, if_true]
        refine ih first (count / 2) (by omega) (by omega) hlo fun i hi hin => ?_
        exact hmono _ i hi hin hcomp
      · simp only [hcomp, Bool.false_eq_true, if_false]
        refine ih _ _ (by omega) (by omega) (fun i hi => ?_) (fun i hi hin => hhi i (by omega) hin)
        by_contra hne
        exact hcomp (hmono i _ (by omega) (by omega) (by simpa using hne))
    · have : count = 0 := by omega
      subst this
      simp only [gt_iff_lt, lt_self_iff_false, if_false]
      exact ⟨hn, hlo, hhi⟩

/-! ## Sorting -/

/-- Drop every entry equal to the one before it. -/
def dropRepeats {α : Type} [DecidableEq α] : Option α → List α → List α
  | _, [] => []
  | prev, x :: xs => if prev = some x then dropRepeats (some x) xs else x :: dropRepeats (some x) xs

theorem mem_dropRepeats {α : Type} [DecidableEq α] (l : List α) (prev : Option α) (a : α) :
    a ∈ dropRepeats prev l ∨ prev = some a ↔ a ∈ l ∨ prev = some a := by
  induction l generalizing prev with
  | nil => simp [dropRepeats]
  | cons x xs ih =>
    have := ih (some x)
    unfold dropRepeats
    by_cases hp : prev = some x
    · rw [if_pos hp, hp, this, List.mem_cons]
      constructor
      · rintro (h | h)
        · exact Or.inl (Or.inr h)
        · exact Or.inr h
      · rintro ((rfl | h) | h)
        · exact Or.inr rfl
        · exact Or.inl h
        · exact Or.inr h
    · rw [if_neg hp, List.mem_cons, List.mem_cons]
      have hx : (some x = some a) ↔ a = x := by
        rw [Option.some.injEq]; exact eq_comm
      rw [hx] at this
      constructor
      · rintro ((h | h) | h)
        · exact Or.inl (Or.inl h)
        · rcases this.mp (Or.inl h) with h | h
          · exact Or.inl (Or.inr h)
          · exact Or.inl (Or.inl h)
        · exact Or.inr h
      · rintro ((h | h) | h)
        · exact Or.inl (Or.inl h)
        · rcases this.mpr (Or.inl h) with h | h
          · exact Or.inl (Or.inr h)
          · exact Or.inl (Or.inl h)
        · exact Or.inr h

/-- An ordered list loses its repetitions. -/
theorem dropRepeats_pairwise_lt {α : Type} [DecidableEq α] [LinearOrder α] (l : List α) (prev : Option α)
    (hl : l.Pairwise (· ≤ ·)) (hprev : ∀ p, prev = some p → ∀ a ∈ l, p ≤ a) :
    (dropRepeats prev l).Pairwise (· < ·) ∧
      ∀ p, prev = some p → ∀ a ∈ dropRepeats prev l, p < a := by
  induction l generalizing prev with
  | nil => simp [dropRepeats]
  | cons x xs ih =>
    have hc := List.pairwise_cons.mp hl
    obtain ⟨ih1, ih2⟩ := ih (some x) hc.2 (fun p hp a ha => by cases hp; exact hc.1 a ha)
    unfold dropRepeats
    by_cases hp : prev = some x
    · rw [if_pos hp, hp]
      exact ⟨ih1, ih2⟩
    · rw [if_neg hp]
      refine ⟨List.pairwise_cons.mpr ⟨ih2 x rfl, ih1⟩, fun p hpp a ha => ?_⟩
      have hpx : p < x :=
        lt_of_le_of_ne (hprev p hpp x List.mem_cons_self) (fun h => hp (by rw [hpp, h]))
      rcases List.mem_cons.mp ha with rfl | ha
      · exact hpx
      · exact lt_trans hpx (ih2 x rfl a ha)

/-- A comparison `std::sort` may be given: its complement is a total preorder. -/
structure StrictWeak {α : Type} (lt : α → α → Bool) : Prop where
  total : ∀ a b, lt b a = false ∨ lt a b = false
  trans : ∀ a b c, lt b a = false → lt c b = false → lt c a = false

/-- What is known of `std::sort`: it permutes, and the result is in order. -/
class StdSort where
  sort : {α : Type} → (α → α → Bool) → List α → List α
  perm : ∀ {α : Type} (lt : α → α → Bool) (l : List α), (sort lt l).Perm l
  ordered : ∀ {α : Type} (lt : α → α → Bool), StrictWeak lt → ∀ l : List α,
    (sort lt l).Pairwise fun a b => lt b a = false

theorem StdSort.mem_sort [StdSort] {α : Type} (lt : α → α → Bool) (l : List α) (a : α) :
    a ∈ StdSort.sort lt l ↔ a ∈ l :=
  (StdSort.perm lt l).mem_iff

/-- Insertion sort is such a function. -/
@[reducible] def StdSort.insertion : StdSort where
  sort lt l := l.insertionSort fun a b => lt b a = false
  perm lt l := List.perm_insertionSort _ l
  ordered {α} lt hlt l := by
    have : Std.Total fun a b : α => lt b a = false := ⟨hlt.total⟩
    have : IsTrans α fun a b : α => lt b a = false := ⟨hlt.trans⟩
    exact List.pairwise_insertionSort _ _

/-- Comparing by a key of a linear order is a valid comparison. -/
theorem StrictWeak.of_key {α κ : Type} [LinearOrder κ] (key : α → κ) (lt : α → α → Bool)
    (h : ∀ a b, lt a b = true ↔ key a < key b) : StrictWeak lt := by
  have h' : ∀ a b, lt a b = false ↔ key b ≤ key a := by
    intro a b
    rw [← Bool.not_eq_true, h, not_lt]
  refine ⟨fun a b => ?_, fun a b c hab hbc => ?_⟩
  · rw [h', h']; exact le_total _ _
  · rw [h'] at *; exact le_trans hab hbc

end Strfry
