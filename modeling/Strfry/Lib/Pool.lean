import Mathlib.Algebra.GroupWithZero.Nat
import Mathlib.Data.Fin.Basic
import Mathlib.Data.List.Basic
import Mathlib.Logic.Function.Basic

/-!
# Pools of threads

A pool is the inboxes of its threads.  A message goes to the thread its key picks, and a thread
takes all that is in its inbox at once.  Messages with one key all go to one thread, and come
out of its inbox in the order they were sent (`Fifo.stream`), whatever the other threads take in
between.
-/

namespace Strfry

/-- The inboxes of `n` threads. -/
abbrev Pool (n : Nat) (μ : Type) := Fin n → List μ

namespace Pool

variable {n : Nat} {μ : Type}

def empty : Pool n μ := fun _ => []

/-- All that is in an inbox, and the pool without it. -/
def takeAll (p : Pool n μ) (i : Fin n) : List μ × Pool n μ := (p i, Function.update p i [])

/-- One message to each thread. -/
def dispatchToAll (p : Pool n μ) (m : Fin n → μ) : Pool n μ := fun i => p i ++ [m i]

section
variable [NeZero n]

/-- The thread of a key. -/
def who (n : Nat) [NeZero n] (key : Nat) : Fin n := Fin.ofNat n key

def dispatchMulti (p : Pool n μ) (key : Nat) (ms : List μ) : Pool n μ :=
  Function.update p (who n key) (p (who n key) ++ ms)

def dispatch (p : Pool n μ) (key : Nat) (m : μ) : Pool n μ := p.dispatchMulti key [m]

@[simp] theorem who_val (key : Nat) : (who n key).val = key % n := rfl

theorem dispatchMulti_apply (p : Pool n μ) (key : Nat) (ms : List μ) (i : Fin n) :
    p.dispatchMulti key ms i = if i = who n key then p i ++ ms else p i := by
  unfold dispatchMulti
  by_cases h : i = who n key
  · subst h
    rw [Function.update_self, if_pos rfl]
  · rw [Function.update_of_ne h, if_neg h]

/-- A pool of one thread. -/
theorem dispatchMulti_one (p : Pool 1 μ) (key : Nat) (ms : List μ) (i : Fin 1) :
    p.dispatchMulti key ms i = p i ++ ms := by
  rw [dispatchMulti_apply, if_pos (Subsingleton.elim _ _)]

@[simp] theorem dispatchMulti_nil (p : Pool n μ) (key : Nat) : p.dispatchMulti key [] = p := by
  funext i
  rw [dispatchMulti_apply, List.append_nil, ite_self]

end

theorem takeAll_apply (p : Pool n μ) (i j : Fin n) : (p.takeAll i).2 j = if j = i then [] else p j := by
  show Function.update p i [] j = _
  by_cases h : j = i
  · subst h
    rw [Function.update_self, if_pos rfl]
  · rw [Function.update_of_ne h, if_neg h]

/-! ## What was sent, and what was taken -/

section
variable [NeZero n] {key : μ → Nat} {p : Pool n μ} {sent : List μ} {taken : Fin n → List μ}

/-- What a thread has taken and what is in its inbox are what was sent to it, in this order. -/
structure Fifo (key : μ → Nat) (p : Pool n μ) (sent : List μ) (taken : Fin n → List μ) : Prop where
  account : ∀ i, taken i ++ p i = sent.filter fun m => who n (key m) = i

theorem Fifo.empty : Fifo (n := n) key Pool.empty [] fun _ => [] := ⟨fun _ => rfl⟩

theorem Fifo.dispatch (h : Fifo key p sent taken) (m : μ) :
    Fifo key (p.dispatch (key m) m) (sent ++ [m]) taken := by
  constructor
  intro i
  rw [Pool.dispatch, dispatchMulti_apply, List.filter_append, ← h.account i]
  by_cases hi : i = who n (key m)
  · rw [if_pos hi, List.filter_singleton, decide_eq_true hi.symm]
    simp
  · rw [if_neg hi, List.filter_singleton, decide_eq_false (Ne.symm hi)]
    simp

theorem Fifo.takeAll (h : Fifo key p sent taken) (i : Fin n) :
    Fifo key (p.takeAll i).2 sent (Function.update taken i (taken i ++ (p.takeAll i).1)) := by
  constructor
  intro j
  rw [takeAll_apply, ← h.account j]
  by_cases hj : j = i
  · subst hj
    rw [Function.update_self, if_pos rfl, List.append_nil]
    rfl
  · rw [Function.update_of_ne hj, if_neg hj]

/-- A thread takes messages of its own keys only. -/
theorem Fifo.who_of_taken (h : Fifo key p sent taken) {i : Fin n} {m : μ} (hm : m ∈ taken i) :
    who n (key m) = i ∧ m ∈ sent := by
  have hin : m ∈ sent.filter fun m => who n (key m) = i := by
    rw [← h.account i]
    exact List.mem_append_left _ hm
  obtain ⟨hs, hw⟩ := List.mem_filter.mp hin
  exact ⟨of_decide_eq_true hw, hs⟩

/-- **The messages of a key** are taken by one thread, in the order they were sent. -/
theorem Fifo.stream (h : Fifo key p sent taken) (k : Nat) :
    ((taken (who n k)).filter fun m => key m = k) ++ ((p (who n k)).filter fun m => key m = k) =
      sent.filter fun m => key m = k := by
  rw [← List.filter_append, h.account, List.filter_filter]
  refine List.filter_congr fun m _ => ?_
  by_cases hk : key m = k
  · simp [hk]
  · simp [hk]

end

end Pool

end Strfry
