import Mathlib.Data.Nat.Init

/-!
# What every run comes to

`Inevitable R P s`: every run of `R` from `s` reaches a state with `P`, and none gets stuck
before.  A measure that every step lowers proves it (`Inevitable.of_measure`), or a rank that a
state may have more than one of (`Inevitable.of_rank`).
-/

namespace Strfry

inductive Inevitable {σ : Type} (R : σ → σ → Prop) (P : σ → Prop) : σ → Prop where
  | now {s : σ} (h : P s) : Inevitable R P s
  | later {s : σ} (hex : ∃ s', R s s') (hall : ∀ s', R s s' → Inevitable R P s') : Inevitable R P s

/-- **Measure rule.**  Until `P` holds a step is possible, and each step keeps `I` and lowers `μ`. -/
theorem Inevitable.of_measure {σ : Type} {R : σ → σ → Prop} {P : σ → Prop} (I : σ → Prop) (μ : σ → Nat)
    (hex : ∀ s, I s → ¬ P s → ∃ s', R s s')
    (hstep : ∀ s s', I s → ¬ P s → R s s' → I s' ∧ μ s' < μ s) {s : σ} (hI : I s) : Inevitable R P s := by
  induction h : μ s using Nat.strongRecOn generalizing s with
  | ind n ih =>
    by_cases hP : P s
    · exact .now hP
    · refine .later (hex s hI hP) fun s' hs => ?_
      obtain ⟨hI', hlt⟩ := hstep s s' hI hP hs
      exact ih (μ s') (h ▸ hlt) hI' rfl

/-- **Rank rule.**  Until `P` holds a step is possible, and each comes to a smaller rank. -/
theorem Inevitable.of_rank {σ : Type} {R : σ → σ → Prop} {P : σ → Prop} (Rank : σ → Nat → Prop)
    (hex : ∀ s n, Rank s n → ¬ P s → ∃ s', R s s')
    (hstep : ∀ s s' n, Rank s n → ¬ P s → R s s' → ∃ m < n, Rank s' m) {s : σ} {n : Nat} (h : Rank s n) :
    Inevitable R P s := by
  induction n using Nat.strongRecOn generalizing s with
  | ind n ih =>
    by_cases hP : P s
    · exact .now hP
    · refine .later (hex s n h hP) fun s' hs => ?_
      obtain ⟨m, hlt, hm⟩ := hstep s s' n h hP hs
      exact ih m hlt hm

/-- One thing after the other. -/
theorem Inevitable.trans {σ : Type} {R : σ → σ → Prop} {P Q : σ → Prop} {s : σ} (h : Inevitable R P s)
    (hPQ : ∀ s, P s → Inevitable R Q s) : Inevitable R Q s := by
  induction h with
  | now h => exact hPQ _ h
  | later hex _ ih => exact .later hex ih

/-- Some run comes to it. -/
theorem Inevitable.reached {σ : Type} {R : σ → σ → Prop} {P Q : σ → Prop} {s : σ} (h : Inevitable R P s)
    (hQ : ∀ s s', Q s → R s s' → Q s') (hs : Q s) : ∃ s', Q s' ∧ P s' := by
  induction h with
  | now h => exact ⟨_, hs, h⟩
  | later hex _ ih =>
    obtain ⟨s', hstep⟩ := hex
    exact ih s' hstep (hQ _ _ hs hstep)

end Strfry
